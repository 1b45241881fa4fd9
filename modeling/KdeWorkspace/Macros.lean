import KdeWorkspace.SessionList

/-!
The macros of kdm in the names of the files for the output of the sessions: `expandMacros` goes through
the template twice. The first pass counts the characters, the second one writes them and notes which
macros have been used. `expandMacros_expands` says that both agree, and what is written.

The memory does not run out, and a template does not have so many characters that `cnt` overflows.
-/
namespace KdeWorkspace.Macros
open List
open PipeCodec (Bytes)
open SessionList (byte text)

/-- `expando`. The entry that ends a table, which has no key, is no `Expando`. -/
structure Expando where
  key : UInt8
  uses : Nat
  val : Option Bytes
  keyed : key ≠ 0
deriving DecidableEq

def percent : UInt8 := byte '%'

/-- The loop that looks for the entry of a character. -/
def entryOf (c : UInt8) : List Expando → Option Expando
  | [] => none
  | ex :: expandos => if c = ex.key then some ex else entryOf c expandos

/-- `ex->uses++` for the entry that has been found. -/
def use (c : UInt8) : List Expando → List Expando
  | [] => []
  | ex :: expandos =>
    if c = ex.key then { ex with uses := ex.uses+1 } :: expandos else ex :: use c expandos

mutual
/-- From `oke1` on. -/
def count (expandos : List Expando) : Bytes → Nat → Nat
  | [],cnt => cnt
  | c :: sp,cnt => if c = percent then countMacro expandos sp cnt 0 else count expandos sp (cnt+1)

/-- Behind a percent sign, with the number of the characters that have no entry. -/
def countMacro (expandos : List Expando) : Bytes → Nat → Nat → Nat
  | [],cnt,_ => cnt
  | c :: sp,cnt,rcnt =>
    if c = percent then count expandos sp (cnt+1)
    else
      match entryOf c expandos with
      | some ex =>
        match ex.val with
        | some val => count expandos sp (cnt+(val.length+rcnt))
        | none => count expandos sp cnt
      | none => countMacro expandos sp cnt (rcnt+1)
end

/-- What the second pass leaves: the table with the uses, and the characters that it has written. -/
structure Copied where
  expandos : List Expando
  written : Bytes
deriving DecidableEq

mutual
/-- From `oke2` on. `before` is what has been read, the last character first: the memory in front of
`str`. -/
def copy (before : Bytes) (expandos : List Expando) (cp : Bytes) : Bytes → Copied
  | [] => ⟨expandos,cp⟩
  | c :: str =>
    if c = percent then copyMacro (c :: before) expandos cp 0 str
    else copy (c :: before) expandos (cp ++ [c]) str

def copyMacro (before : Bytes) (expandos : List Expando) (cp : Bytes) (rcnt : Nat) : Bytes → Copied
  | [] => ⟨expandos,cp⟩
  | c :: str =>
    if c = percent then copy (c :: before) expandos (cp ++ [c]) str
    else
      match entryOf c expandos with
      | some ex =>
        match ex.val with
        | some val => copy (c :: before) (use c expandos) (cp ++ (before.take rcnt).reverse ++ val) str
        | none => copy (c :: before) (use c expandos) cp str
      | none => copyMacro (c :: before) expandos cp (rcnt+1) str
end

/-- What comes back, and how many characters there is memory for, with the one that ends the string. -/
structure Expanded where
  allocated : Nat
  ret : Bytes
  expandos : List Expando
deriving DecidableEq

def expandMacros (str : Bytes) (expandos : List Expando) : Expanded :=
  let cnt := count expandos str 0
  let copied := copy [] expandos [] str
  ⟨cnt+1,copied.written,copied.expandos⟩

/-- The value of a character in a table: none where it has no entry. -/
def valueIn (expandos : List Expando) (c : UInt8) : Option (Option Bytes) := (entryOf c expandos).map (·.val)

section Expansion
variable (value : UInt8 → Option (Option Bytes))

/-- A character between a percent sign and the one that says what it stands for. -/
def Passed (c : UInt8) : Prop := c ≠ percent ∧ value c = none

/-- What comes in the place of a percent sign, the characters behind it and a key. -/
def replacement (prefixed : Bytes) (key : UInt8) : Bytes :=
  if key = percent then [percent]
  else
    match value key with
    | some (some val) => prefixed ++ val
    | _ => []

/-- The strings that a template is expanded to. -/
inductive Expands : Bytes → Bytes → Prop
  | done : Expands [] []
  | char {c : UInt8} {rest out : Bytes} : c ≠ percent → Expands rest out → Expands (c :: rest) (c :: out)
  | sequence {prefixed : Bytes} {key : UInt8} {rest out : Bytes} :
      (∀ c ∈ prefixed, Passed value c) → ¬ Passed value key → Expands rest out →
      Expands (percent :: (prefixed ++ key :: rest)) (replacement value prefixed key ++ out)
  | unterminated {prefixed : Bytes} : (∀ c ∈ prefixed, Passed value c) → Expands (percent :: prefixed) []

variable {value}

theorem passed_split {first second : Bytes} {key other : UInt8} {rest remaining : Bytes}
    (passed : ∀ c ∈ first, Passed value c) (ends : ¬ Passed value key)
    (also : ∀ c ∈ second, Passed value c) (stops : ¬ Passed value other)
    (same : first ++ key :: rest = second ++ other :: remaining) :
    first = second ∧ key = other ∧ rest = remaining := by
  induction first generalizing second with
  | nil =>
    cases second with
    | nil =>
      rw [nil_append,nil_append,cons.injEq] at same
      exact ⟨rfl,same.1,same.2⟩
    | cons c second =>
      have head : key = c := (cons.inj same).1
      exact absurd (head ▸ also c mem_cons_self) ends
  | cons d first ih =>
    cases second with
    | nil =>
      have head : d = other := (cons.inj same).1
      exact absurd (head ▸ passed d mem_cons_self) stops
    | cons c second =>
      obtain ⟨head,tail⟩ := cons.inj same
      obtain ⟨equal,keys,rests⟩ := ih (fun x mem => passed x (mem_cons_of_mem d mem))
        (fun x mem => also x (mem_cons_of_mem c mem)) tail
      exact ⟨by rw [head,equal],keys,rests⟩

theorem passed_end {first second : Bytes} {key : UInt8} {rest : Bytes} (ends : ¬ Passed value key)
    (also : ∀ c ∈ second, Passed value c) : first ++ key :: rest ≠ second := by
  intro same
  apply ends
  apply also key
  rw [← same]
  exact mem_append_right first mem_cons_self

theorem Expands.unique {template out other : Bytes} (first : Expands value template out)
    (second : Expands value template other) : out = other := by
  induction first generalizing other with
  | done =>
    cases second
    rfl
  | char plain _ ih =>
    cases second with
    | char _ tail => rw [ih tail]
    | sequence => exact absurd rfl plain
    | unterminated => exact absurd rfl plain
  | sequence passed ends _ ih =>
    generalize whole : percent :: _ = template at second
    cases second with
    | done => cases whole
    | char plain _ => exact absurd (cons.inj whole).1.symm plain
    | sequence also stops tail =>
      obtain ⟨rfl,rfl,rfl⟩ := passed_split passed ends also stops (cons.inj whole).2
      rw [ih tail]
    | unterminated also => exact absurd (cons.inj whole).2 (passed_end ends also)
  | unterminated passed =>
    generalize whole : percent :: _ = template at second
    cases second with
    | done => rfl
    | char plain _ => exact absurd (cons.inj whole).1.symm plain
    | sequence _ stops _ => exact absurd (cons.inj whole).2.symm (passed_end stops passed)
    | unterminated _ => rfl

end Expansion

theorem valueIn_use (c : UInt8) (expandos : List Expando) : valueIn (use c expandos) = valueIn expandos := by
  funext d
  induction expandos with
  | nil => rfl
  | cons ex expandos ih =>
    unfold valueIn at ih ⊢
    by_cases used : c = ex.key
    · rw [use,if_pos used,entryOf,entryOf]
      split <;> rfl
    · rw [use,if_neg used,entryOf,entryOf]
      split
      · rfl
      · exact ih

theorem entryOf_none {c : UInt8} {expandos : List Expando} {value : UInt8 → Option (Option Bytes)}
    (table : valueIn expandos = value) (unknown : value c = none) : entryOf c expandos = none := by
  rw [← table] at unknown
  exact Option.map_eq_none_iff.mp unknown

theorem entryOf_some {c : UInt8} {expandos : List Expando} {value : UInt8 → Option (Option Bytes)}
    {val : Option Bytes} (table : valueIn expandos = value) (known : value c = some val) :
    ∃ ex, entryOf c expandos = some ex ∧ ex.val = val := by
  rw [← table] at known
  exact Option.map_eq_some_iff.mp known

section Passes
variable (value : UInt8 → Option (Option Bytes))

/-- Both passes make `out` of what is left of a template. -/
def Agree (str out : Bytes) : Prop :=
  ∀ expandos, valueIn expandos = value → ∀ before cp cnt,
    (copy before expandos cp str).written = cp ++ out ∧ count expandos str cnt = cnt+out.length

/-- The same behind a percent sign and some characters without an entry. -/
def AgreeMacro (prefixed str out : Bytes) : Prop :=
  ∀ expandos, valueIn expandos = value → ∀ before cp cnt,
    (copyMacro (prefixed.reverse ++ before) expandos cp prefixed.length str).written = cp ++ out ∧
      countMacro expandos str cnt prefixed.length = cnt+out.length

variable {value}

theorem agree_char {c : UInt8} {str out : Bytes} (plain : c ≠ percent) (agree : Agree value str out) :
    Agree value (c :: str) (c :: out) := by
  intro expandos table before cp cnt
  obtain ⟨copied,counted⟩ := agree expandos table (c :: before) (cp ++ [c]) (cnt+1)
  rw [copy,if_neg plain,count,if_neg plain,copied,counted]
  refine ⟨by simp,?_⟩
  rw [length_cons]
  omega

theorem agree_percent {str out : Bytes} (agree : AgreeMacro value [] str out) : Agree value (percent :: str) out := by
  intro expandos table before cp cnt
  have behind := agree expandos table (percent :: before) cp cnt
  rw [copy,if_pos rfl,count,if_pos rfl]
  exact behind

theorem agreeMacro_percent {prefixed str out : Bytes} (agree : Agree value str out) :
    AgreeMacro value prefixed (percent :: str) (replacement value prefixed percent ++ out) := by
  intro expandos table before cp cnt
  obtain ⟨copied,counted⟩ := agree expandos table (percent :: (prefixed.reverse ++ before)) (cp ++ [percent]) (cnt+1)
  rw [copyMacro,if_pos rfl,countMacro,if_pos rfl,copied,counted,replacement,if_pos rfl]
  refine ⟨by simp,?_⟩
  rw [length_append,length_singleton]
  omega

theorem agreeMacro_key {prefixed str out : Bytes} {c : UInt8} {val : Option Bytes} (plain : c ≠ percent)
    (known : value c = some val) (agree : Agree value str out) :
    AgreeMacro value prefixed (c :: str) (replacement value prefixed c ++ out) := by
  intro expandos table before cp cnt
  obtain ⟨ex,entry,stored⟩ := entryOf_some table known
  have used : valueIn (use c expandos) = value := (valueIn_use c expandos).trans table
  rw [copyMacro,if_neg plain,countMacro,if_neg plain,entry,replacement,if_neg plain,known]
  simp only [stored]
  cases val with
  | none =>
    constructor
    · exact (agree _ used _ cp cnt).1
    · exact (agree expandos table before cp cnt).2
  | some val =>
    constructor
    · rw [(agree _ used _ _ cnt).1]
      simp
    · have counted := (agree expandos table before cp (cnt+(val.length+prefixed.length))).2
      simp only [length_append]
      omega

theorem agreeMacro_passed {prefixed str out : Bytes} {c : UInt8} (passed : Passed value c)
    (agree : AgreeMacro value (prefixed ++ [c]) str out) : AgreeMacro value prefixed (c :: str) out := by
  intro expandos table before cp cnt
  have behind := agree expandos table before cp cnt
  rw [reverse_append,length_append] at behind
  rw [copyMacro,if_neg passed.1,countMacro,if_neg passed.1,entryOf_none table passed.2]
  exact behind

theorem passes_agree (str : Bytes) :
    (∃ out, Expands value str out ∧ Agree value str out) ∧
      ∀ prefixed, (∀ c ∈ prefixed, Passed value c) →
        ∃ out, Expands value (percent :: (prefixed ++ str)) out ∧ AgreeMacro value prefixed str out := by
  induction str with
  | nil =>
    refine ⟨⟨[],.done,fun _ _ _ cp cnt => ⟨by simp [copy],by simp [count]⟩⟩,?_⟩
    intro prefixed passed
    refine ⟨[],?_,fun _ _ _ cp cnt => ⟨by simp [copyMacro],by simp [countMacro]⟩⟩
    rw [append_nil]
    exact .unterminated passed
  | cons c str ih =>
    obtain ⟨⟨rest,expands,agree⟩,behind⟩ := ih
    constructor
    · by_cases sign : c = percent
      · subst sign
        obtain ⟨out,sequence,agrees⟩ := behind [] (by simp)
        exact ⟨out,sequence,agree_percent agrees⟩
      · exact ⟨c :: rest,.char sign expands,agree_char sign agree⟩
    · intro prefixed passed
      by_cases sign : c = percent
      · subst sign
        exact ⟨_,.sequence passed (fun not => not.1 rfl) expands,agreeMacro_percent agree⟩
      · cases known : value c with
        | some val =>
          have key : ¬ Passed value c := by
            intro unknown
            rw [unknown.2] at known
            cases known
          exact ⟨_,.sequence passed key expands,agreeMacro_key sign known agree⟩
        | none =>
          -- the character is kept for the macro whose key is still to come
          obtain ⟨out,sequence,agrees⟩ := behind (prefixed ++ [c]) (by
            intro d mem
            rcases mem_append.mp mem with earlier | last
            · exact passed d earlier
            · rw [mem_singleton.mp last]
              exact ⟨sign,known⟩)
          refine ⟨out,?_,agreeMacro_passed ⟨sign,known⟩ agrees⟩
          rwa [append_assoc,singleton_append] at sequence

end Passes

/-- The second pass writes as many characters as the first one has counted, and what it writes is the one
string that the template stands for. -/
theorem expandMacros_expands (str : Bytes) (expandos : List Expando) :
    (expandMacros str expandos).ret.length+1 = (expandMacros str expandos).allocated ∧
      ∀ out, Expands (valueIn expandos) str out ↔ out = (expandMacros str expandos).ret := by
  have passes : ∃ out, Expands (valueIn expandos) str out ∧ Agree (valueIn expandos) str out := (passes_agree str).1
  obtain ⟨expansion,expands,agree⟩ := passes
  obtain ⟨copied,counted⟩ := agree expandos rfl [] [] 0
  have ret : (expandMacros str expandos).ret = expansion := copied
  have allocated : (expandMacros str expandos).allocated = expansion.length+1 := by
    rw [expandMacros,counted,Nat.zero_add]
  rw [ret,allocated]
  refine ⟨rfl,fun out => ⟨fun other => other.unique expands,?_⟩⟩
  rintro rfl
  exact expands

end KdeWorkspace.Macros
