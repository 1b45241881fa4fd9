import KdeWorkspace.SessionRoundTrip

/-!
The boot options on their way from kdm to a program of the session: kdm replies to `listbootoptions`
with the options in one field, each with its blanks escaped, and with the default and the current one in
two more. `KDisplayManager::bootOptions` takes the reply apart again.

`bootOptions_iff` says when it gets back what has been sent. A write behind the end of the buffer for an
option is a failure; bytes are not decoded from the locale.
-/
namespace KdeWorkspace.BootListings
open List
open PipeCodec (Bytes CInt stringAt)
open SessionList

def blank : UInt8 := byte ' '
def backslash : UInt8 := byte '\\'
def letterS : UInt8 := byte 's'

/-- A boot option: not empty, and without what separates the fields and the replies. -/
structure Title where
  chars : Bytes
  filled : chars ≠ []
  clean : ∀ c ∈ chars, c ≠ 0 ∧ c ≠ tab ∧ c ≠ newline

/-- The loop over the characters of an option. -/
def escape : Bytes → Bytes
  | [] => []
  | c :: opt => if c = blank then backslash :: letterS :: escape opt else c :: escape opt

/-- `sizeof(cbuf)`. -/
def room : Nat := 1024

/-- What is written for an option; none if it does not fit into `cbuf`. -/
def optionText (i : Nat) (opt : Bytes) : Option Bytes :=
  let cbuf := (if i = 0 then [] else [blank]) ++ escape opt
  if cbuf.length ≤ room then some cbuf else none

def optionTexts (i : Nat) : List Bytes → Option Bytes
  | [] => some []
  | opt :: opts => do
    let first ← optionText i opt
    let others ← optionTexts (i+1) opts
    return first ++ others

/-- `%d` for any number. -/
def number (n : CInt) : Bytes := if n = 0 then [byte '0'] else decimal n.toInt

/-- The reply to `listbootoptions`. -/
def listBootOptions (opts : List Bytes) (dflt cur : CInt) : Option Bytes :=
  (optionTexts 0 opts).map fun texts =>
    text "ok" ++ [tab] ++ texts ++ [tab] ++ number dflt ++ [tab] ++ number cur ++ [newline]

/-- `QString::toInt` with its `ok`. -/
def integer (str : Bytes) : Option CInt :=
  let trimmed := ((str.dropWhile isSpace).reverse.dropWhile isSpace).reverse
  let (neg,digits) := match trimmed with
    | c :: rest => if c = byte '-' then (true,rest) else if c = byte '+' then (false,rest) else (false,trimmed)
    | [] => (false,[])
  let n : Int := if neg then -toNat digits else toNat digits
  if digits ≠ [] ∧ digits.all isDigit ∧ -2^31 ≤ n ∧ n < 2^31 then some (BitVec.ofInt 32 n) else none

/-- `replace("\\s", " ")`. -/
def replaceEscapes : Bytes → Bytes
  | [] => []
  | [c] => [c]
  | c :: d :: opt =>
    if c = backslash ∧ d = letterS then blank :: replaceEscapes opt else c :: replaceEscapes (d :: opt)

/-- `split` without the parts that are empty. -/
def split (separator : UInt8) (str : Bytes) : List Bytes := (str.splitOn separator).filter (· ≠ [])

def decode (re : Bytes) : Option (List Bytes × CInt × CInt) :=
  match split tab (stringAt re) with
  | _ :: opts :: defopt :: current :: _ => do
    let dflt ← integer defopt
    let cur ← integer current
    return ((split blank opts).map replaceEscapes,dflt,cur)
  | _ => none

/-- `KDisplayManager::bootOptions` of a program whose display is managed by this kdm. -/
def bootOptions (sizes : Nat → Nat) (fresh : Nat → Nat → UInt8) (reply : Bytes) : Option (List Bytes × CInt × CInt) :=
  match exec sizes fresh reply [] 0 with
  | (true,re) => decode re
  | (false,_) => none

theorem toInt_eq (str : Bytes) : toInt str = (integer str).getD 0 := by
  unfold toInt integer
  dsimp only
  rw [apply_ite (fun parsed : Option CInt => parsed.getD 0)]
  rfl

theorem integer_number (n : CInt) : integer (number n) = some n := by
  unfold number
  by_cases zero : n = 0
  · rw [if_pos zero,zero]
    decide
  · rw [if_neg zero]
    have value := toInt_decimal zero
    rw [toInt_eq] at value
    cases parsed : integer (decimal n.toInt) with
    | none =>
      rw [parsed] at value
      exact absurd value.symm zero
    | some m =>
      rw [parsed] at value
      rw [← value]
      rfl

theorem number_clean (n : CInt) : number n ≠ [] ∧ ∀ c ∈ number n, c ≠ 0 ∧ c ≠ tab ∧ c ≠ newline := by
  unfold number
  by_cases zero : n = 0
  · rw [if_pos zero]
    decide +kernel
  · rw [if_neg zero,decimal_eq]
    have nonzero : n.toInt ≠ 0 := fun same => zero (BitVec.eq_of_toInt_eq same)
    refine ⟨fun empty => numerals_ne_nil (by omega) (append_eq_nil_iff.mp empty).2,?_⟩
    intro c mem
    rcases mem_append.mp mem with sign | digit
    · have minus : c = byte '-' := by
        split at sign
        · exact mem_singleton.mp sign
        · cases sign
      rw [minus]
      decide
    · obtain ⟨⟨zero,tabs,lines,_⟩,_⟩ := isDigit_clean (numerals_digit c digit)
      exact ⟨zero,tabs,lines⟩

theorem escape_length (opt : Bytes) : (escape opt).length = opt.length+opt.count blank := by
  induction opt with
  | nil => rfl
  | cons c opt ih =>
    rw [escape]
    by_cases space : c = blank
    · rw [if_pos space,space,count_cons_self]
      simp only [length_cons,ih]
      omega
    · rw [if_neg space,count_cons_of_ne space]
      simp only [length_cons,ih]
      omega

theorem escape_mem {c : UInt8} {opt : Bytes} (mem : c ∈ escape opt) :
    c ≠ blank ∧ (c ∈ opt ∨ c = backslash ∨ c = letterS) := by
  induction opt with
  | nil => cases mem
  | cons d opt ih =>
    rw [escape] at mem
    split at mem
    · rcases mem_cons.mp mem with rfl | mem
      · exact ⟨by decide,.inr (.inl rfl)⟩
      · rcases mem_cons.mp mem with rfl | mem
        · exact ⟨by decide,.inr (.inr rfl)⟩
        · obtain ⟨visible,among⟩ := ih mem
          exact ⟨visible,among.imp_left (mem_cons_of_mem d)⟩
    · rename_i visible
      rcases mem_cons.mp mem with rfl | mem
      · exact ⟨visible,.inl mem_cons_self⟩
      · obtain ⟨visible,among⟩ := ih mem
        exact ⟨visible,among.imp_left (mem_cons_of_mem d)⟩

theorem escape_ne_nil {opt : Bytes} (filled : opt ≠ []) : escape opt ≠ [] := by
  intro empty
  have none := congrArg length empty
  rw [escape_length,length_nil] at none
  exact filled (length_eq_zero_iff.mp (by omega))

theorem replaceEscapes_cons {c : UInt8} {opt : Bytes} (other : ¬ (c = backslash ∧ opt.head? = some letterS)) :
    replaceEscapes (c :: opt) = c :: replaceEscapes opt := by
  cases opt with
  | nil => rfl
  | cons d opt =>
    rw [replaceEscapes,if_neg]
    exact fun both => other ⟨both.1,by rw [both.2]; rfl⟩

theorem escape_head (opt : Bytes) : (escape opt).head? = some letterS ↔ opt.head? = some letterS := by
  cases opt with
  | nil => rfl
  | cons c opt =>
    rw [escape]
    by_cases space : c = blank
    · rw [if_pos space,space]
      exact ⟨fun same => absurd (Option.some.inj same) (by decide),fun same => absurd (Option.some.inj same) (by decide)⟩
    · rw [if_neg space]
      rfl

theorem replaceEscapes_escape (opt : Bytes) : replaceEscapes (escape opt) = replaceEscapes opt := by
  induction opt using replaceEscapes.induct with
  | case1 => rfl
  | case2 c =>
    by_cases space : c = blank
    · rw [space]
      rfl
    · rw [escape,if_neg space]
      rfl
  | case3 c d opt both ih =>
    obtain ⟨rfl,rfl⟩ := both
    rw [escape,if_neg (by decide),escape,if_neg (by decide),replaceEscapes,if_pos ⟨rfl,rfl⟩,ih,replaceEscapes,
      if_pos ⟨rfl,rfl⟩]
  | case4 c d opt other ih =>
    have plain : ¬ (c = backslash ∧ (d :: opt).head? = some letterS) := by
      rintro ⟨first,second⟩
      exact other ⟨first,Option.some.inj second⟩
    rw [replaceEscapes_cons plain,← ih]
    by_cases space : c = blank
    · rw [escape,if_pos space,replaceEscapes,if_pos ⟨rfl,rfl⟩,space]
    · rw [escape,if_neg space]
      exact replaceEscapes_cons (fun both => plain ⟨both.1,(escape_head _).mp both.2⟩)

theorem replaceEscapes_length (opt : Bytes) : (replaceEscapes opt).length ≤ opt.length := by
  induction opt using replaceEscapes.induct with
  | case1 => exact Nat.le_refl _
  | case2 => exact Nat.le_refl _
  | case3 c d opt both ih =>
    rw [replaceEscapes,if_pos both]
    simp only [length_cons]
    omega
  | case4 c d opt other ih =>
    rw [replaceEscapes,if_neg other]
    simp only [length_cons] at ih ⊢
    omega

theorem replaceEscapes_eq_iff (opt : Bytes) : replaceEscapes opt = opt ↔ ¬ [backslash,letterS] <:+: opt := by
  induction opt using replaceEscapes.induct with
  | case1 => simp [replaceEscapes]
  | case2 c => simp [replaceEscapes,infix_cons_iff]
  | case3 c d opt both ih =>
    obtain ⟨rfl,rfl⟩ := both
    have shorter := replaceEscapes_length opt
    rw [replaceEscapes,if_pos ⟨rfl,rfl⟩]
    constructor
    · intro same
      have lengths := congrArg length same
      simp only [length_cons] at lengths
      omega
    · intro apart
      exact absurd ⟨[],opt,rfl⟩ apart
  | case4 c d opt other ih =>
    rw [replaceEscapes,if_neg other,cons.injEq,ih,infix_cons_iff (a := c)]
    simp only [true_and]
    have start : ¬ [backslash,letterS] <+: c :: d :: opt := by
      rintro ⟨rest,whole⟩
      obtain ⟨first,tail⟩ := cons.inj whole
      exact other ⟨first.symm,(cons.inj tail).1.symm⟩
    simp only [start,false_or]

theorem optionText_eq (i : Nat) (opt : Bytes) : optionText i opt =
    if (if i = 0 then 0 else 1)+(opt.length+opt.count blank) ≤ room
      then some ((if i = 0 then [] else [blank]) ++ escape opt) else none := by
  unfold optionText
  dsimp only
  rw [length_append,escape_length]
  congr 2
  split <;> rfl

theorem optionTexts_later {i : Nat} (later : i ≠ 0) (opts : List Bytes) : optionTexts i opts =
    if ∀ opt ∈ opts, opt.length+opt.count blank < room then some ((opts.map escape).flatMap (blank :: ·)) else none := by
  induction opts generalizing i with
  | nil => rfl
  | cons opt opts ih =>
    rw [optionTexts,optionText_eq,if_neg later,if_neg later,ih (Nat.succ_ne_zero i)]
    by_cases fits : opt.length+opt.count blank < room
    · rw [if_pos (by omega)]
      by_cases others : ∀ opt ∈ opts, opt.length+opt.count blank < room
      · rw [if_pos others,if_pos]
        · rfl
        · intro other mem
          rcases mem_cons.mp mem with rfl | mem
          · exact fits
          · exact others other mem
      · rw [if_neg others,if_neg]
        · rfl
        · exact fun all => others fun other mem => all other (mem_cons_of_mem opt mem)
    · have long : ¬ ∀ other ∈ opt :: opts, other.length+other.count blank < room :=
        fun all => fits (all opt mem_cons_self)
      rw [if_neg (by omega),if_neg long]
      rfl

/-- The first option fits into the buffer, and the others fit with a blank in front. -/
def Fit (first : Bytes) (others : List Bytes) : Prop :=
  first.length+first.count blank ≤ room ∧ ∀ opt ∈ others, opt.length+opt.count blank < room

instance (first : Bytes) (others : List Bytes) : Decidable (Fit first others) := inferInstanceAs (Decidable (_ ∧ _))

theorem flatMap_blank (first : Bytes) (others : List Bytes) :
    first ++ others.flatMap (blank :: ·) = [blank].intercalate (first :: others) := by
  induction others generalizing first with
  | nil => simp
  | cons second others ih =>
    rw [flatMap_cons,intercalate_cons_cons,← ih second]
    simp

theorem optionTexts_eq (first : Bytes) (others : List Bytes) : optionTexts 0 (first :: others) =
    if Fit first others then some ([blank].intercalate ((first :: others).map escape)) else none := by
  rw [optionTexts,optionText_eq,if_pos rfl,if_pos rfl,Nat.zero_add,optionTexts_later (Nat.succ_ne_zero 0)]
  by_cases fits : first.length+first.count blank ≤ room
  · rw [if_pos fits]
    by_cases later : ∀ opt ∈ others, opt.length+opt.count blank < room
    · rw [if_pos later,if_pos ⟨fits,later⟩,map_cons,← flatMap_blank]
      rfl
    · rw [if_neg later,if_neg (fun fit : Fit first others => later fit.2)]
      rfl
  · rw [if_neg fits,if_neg (fun fit : Fit first others => fits fit.1)]
    rfl

/-- The fields of a reply, without the newline at its end. -/
def fields (opts : List Bytes) (dflt cur : CInt) : List Bytes :=
  [text "ok",[blank].intercalate (opts.map escape),number dflt,number cur]

theorem listBootOptions_eq (first : Bytes) (others : List Bytes) (dflt cur : CInt) :
    listBootOptions (first :: others) dflt cur =
      if Fit first others then some ([tab].intercalate (fields (first :: others) dflt cur) ++ [newline]) else none := by
  rw [listBootOptions,optionTexts_eq]
  split
  · simp [fields,intercalate_cons_cons]
  · rfl

theorem escape_clean (t : Title) : ∀ c ∈ escape t.chars, c ≠ 0 ∧ c ≠ tab ∧ c ≠ newline := by
  intro c mem
  rcases (escape_mem mem).2 with among | rfl | rfl
  · exact t.clean c among
  · decide
  · decide

theorem listed_clean (opts : List Title) :
    ∀ c ∈ [blank].intercalate ((opts.map Title.chars).map escape), c ≠ 0 ∧ c ≠ tab ∧ c ≠ newline := by
  apply intercalate_forall
  · decide
  · intro part mem
    obtain ⟨opt,among,rfl⟩ := mem_map.mp mem
    obtain ⟨t,-,rfl⟩ := mem_map.mp among
    exact escape_clean t

theorem fields_clean (opts : List Title) (dflt cur : CInt) :
    ∀ field ∈ fields (opts.map Title.chars) dflt cur, ∀ c ∈ field, c ≠ 0 ∧ c ≠ tab ∧ c ≠ newline := by
  intro field mem
  rcases mem_cons.mp mem with rfl | mem
  · decide +kernel
  · rcases mem_cons.mp mem with rfl | mem
    · exact listed_clean opts
    · rcases mem_cons.mp mem with rfl | mem
      · exact (number_clean dflt).2
      · rw [mem_singleton.mp mem]
        exact (number_clean cur).2

theorem split_intercalate {separator : UInt8} {parts : List Bytes} (some_parts : parts ≠ [])
    (filled : ∀ part ∈ parts, part ≠ []) (apart : ∀ part ∈ parts, separator ∉ part) :
    split separator ([separator].intercalate parts) = parts := by
  rw [split,splitOn_intercalate separator apart some_parts,filter_eq_self]
  intro part mem
  exact decide_eq_true (filled part mem)

theorem split_options (first : Title) (others : List Title) :
    split blank ([blank].intercalate (((first :: others).map Title.chars).map escape)) =
      ((first :: others).map Title.chars).map escape := by
  apply split_intercalate
  · simp
  · intro part mem
    obtain ⟨opt,among,rfl⟩ := mem_map.mp mem
    obtain ⟨t,-,rfl⟩ := mem_map.mp among
    exact escape_ne_nil t.filled
  · intro part mem space
    obtain ⟨opt,-,rfl⟩ := mem_map.mp mem
    exact (escape_mem space).1 rfl

theorem decode_fields (first : Title) (others : List Title) (dflt cur : CInt) (after : Bytes) :
    decode ([tab].intercalate (fields ((first :: others).map Title.chars) dflt cur) ++ 0 :: after) =
      some (((first :: others).map Title.chars).map replaceEscapes,dflt,cur) := by
  have clean := fields_clean (first :: others) dflt cur
  have solid : ∀ c ∈ [tab].intercalate (fields ((first :: others).map Title.chars) dflt cur), c ≠ 0 :=
    intercalate_forall (by decide) fun field mem c inside => (clean field mem c inside).1
  have list_filled : [blank].intercalate (((first :: others).map Title.chars).map escape) ≠ [] := by
    rw [map_cons,map_cons,← flatMap_blank]
    exact fun empty => escape_ne_nil first.filled (append_eq_nil_iff.mp empty).1
  have filled : ∀ field ∈ fields ((first :: others).map Title.chars) dflt cur, field ≠ [] := by
    intro field mem
    rcases mem_cons.mp mem with rfl | mem
    · decide
    · rcases mem_cons.mp mem with rfl | mem
      · exact list_filled
      · rcases mem_cons.mp mem with rfl | mem
        · exact (number_clean dflt).1
        · rw [mem_singleton.mp mem]
          exact (number_clean cur).1
  have parts : split tab ([tab].intercalate (fields ((first :: others).map Title.chars) dflt cur)) =
      fields ((first :: others).map Title.chars) dflt cur :=
    split_intercalate (by simp [fields]) filled fun field mem separator => (clean field mem tab separator).2.1 rfl
  rw [decode,stringAt_zero solid,parts]
  simp only [fields]
  rw [integer_number,integer_number,split_options,map_map,map_map]
  simp only [Option.bind_eq_bind,Option.bind_some]
  congr 2
  rw [map_map]
  exact map_congr_left fun t _ => replaceEscapes_escape t.chars

theorem bootOptions_reply (first : Title) (others : List Title) (dflt cur : CInt) (sizes : Nat → Nat)
    (fresh : Nat → Nat → UInt8) :
    bootOptions sizes fresh ([tab].intercalate (fields ((first :: others).map Title.chars) dflt cur) ++ [newline]) =
      some (((first :: others).map Title.chars).map replaceEscapes,dflt,cur) := by
  have clean := fields_clean (first :: others) dflt cur
  have line : newline ∉ [tab].intercalate (fields ((first :: others).map Title.chars) dflt cur) := by
    intro mem
    exact (intercalate_forall (P := (· ≠ newline)) (by decide)
      (fun field among c inside => (clean field among c inside).2.2) newline mem) rfl
  obtain ⟨after,result,-⟩ := exec_line sizes fresh line []
    ([tab].intercalate (fields ((first :: others).map Title.chars) dflt cur) ++ [newline]) [] (nil_append _).symm
    (by simp)
  have ok : isOk ([tab].intercalate (fields ((first :: others).map Title.chars) dflt cur) ++ 0 :: after)
      (([tab].intercalate (fields ((first :: others).map Title.chars) dflt cur)).length+1) = true := by
    rw [fields,intercalate_cons_cons]
    simp [isOk,text,byte,tab]
  rw [append_nil,length_nil,ok] at result
  rw [bootOptions,result]
  exact decode_fields first others dflt cur after

/-- The options that have been sent come back, with both numbers, exactly if each of them fits into the
buffer with its blanks escaped, and none of them contains what a blank is escaped to. -/
theorem bootOptions_iff (first : Title) (others : List Title) (dflt cur : CInt) (sizes : Nat → Nat)
    (fresh : Nat → Nat → UInt8) :
    ((listBootOptions ((first :: others).map Title.chars) dflt cur).bind (bootOptions sizes fresh) =
        some ((first :: others).map Title.chars,dflt,cur)) ↔
      Fit first.chars (others.map Title.chars) ∧ ∀ t ∈ first :: others, ¬ [backslash,letterS] <:+: t.chars := by
  rw [map_cons,listBootOptions_eq]
  by_cases fit : Fit first.chars (others.map Title.chars)
  · rw [if_pos fit,Option.bind_some,← map_cons,bootOptions_reply]
    simp only [fit,true_and,Option.some.injEq,Prod.mk.injEq,and_true]
    rw [map_map,map_inj_left]
    exact forall_congr' fun t => imp_congr_right fun _ => replaceEscapes_eq_iff t.chars
  · rw [if_neg fit]
    simp [fit]

/-- A title with a backslash in front of the letter that a blank is escaped with. -/
def rescue : Title := ⟨text "C:\\suse",by decide,by decide +kernel⟩

theorem rescue_changed (sizes : Nat → Nat) (fresh : Nat → Nat → UInt8) :
    (listBootOptions [rescue.chars] 0 0).bind (bootOptions sizes fresh) = some ([text "C: use"],0,0) := by
  rw [listBootOptions_eq,if_pos (by decide),Option.bind_some]
  exact (bootOptions_reply rescue [] 0 0 sizes fresh).trans (by decide)

/-- So not every list of options comes back. -/
theorem options_change :
    ¬ ∀ (first : Title) (others : List Title) (dflt cur : CInt),
      (listBootOptions ((first :: others).map Title.chars) dflt cur).bind (bootOptions (fun _ => 1) (fun _ _ => 0)) =
        some ((first :: others).map Title.chars,dflt,cur) := by
  intro all
  have changed := (rescue_changed (fun _ => 1) (fun _ _ => 0)).symm.trans (all rescue [] 0 0)
  revert changed
  decide

end KdeWorkspace.BootListings
