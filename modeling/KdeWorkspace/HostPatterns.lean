import Mathlib.Data.List.Basic

/-!
The patterns of host names and aliases in the XDMCP access file (`patternMatch`).

The reference is a glob over the tokens of the pattern. The matcher differs from it
at the end of the string: a star with more pattern behind it is not tried on the
empty rest, and a backslash that ends the pattern meets the terminator of the
string as its equal, after which both are read past their ends. Elsewhere the two
agree (`patternMatch_iff`). The reader of the configuration has a copy of the
matcher.
-/
namespace KdeWorkspace.HostPatterns
open List

/-- A character of a string, which ends before the first zero. -/
abbrev CChar := {c : UInt8 // c ≠ 0}

def tolower (c : UInt8) : UInt8 := if 65 ≤ c ∧ c ≤ 90 then c+32 else c

def asterisk : CChar := ⟨42,by decide⟩
def questionMark : CChar := ⟨63,by decide⟩
def backslash : CChar := ⟨92,by decide⟩

/-- The loop at a star: the first of the rests that are not empty on which the rest of the pattern matches. -/
def anyRest (matched : List CChar → Option Bool) : List CChar → Option Bool
  | [] => some false
  | c :: string => do
    if ← matched (c :: string) then some true else anyRest matched string

/-- The comparison of a character, which is zero for the terminator, and what comes after it. There is no result when
    the terminators of both strings are equal, as the loop then goes on behind them. -/
def equalChar (p : UInt8) (string : List CChar) (more : List CChar → Option Bool) : Option Bool :=
  match string with
  | [] => if tolower p ≠ tolower 0 then some false else none
  | s :: string => if tolower p ≠ tolower s then some false else more string

/-- The loop of `patternMatch`. -/
def matchFrom : List CChar → List CChar → Option Bool
  | string,[] => some string.isEmpty
  | string,p :: pattern =>
    if p = asterisk then
      if pattern.isEmpty then some true else anyRest (fun rest => matchFrom rest pattern) string
    else if p = questionMark then
      match string with
      | [] => some false
      | _ :: string => matchFrom string pattern
    else if p = backslash then
      match pattern with
      | [] => equalChar 0 string (fun _ => none)
      | p :: pattern => equalChar p string (fun string => matchFrom string pattern)
    else equalChar p string (fun string => matchFrom string pattern)

def patternMatch (string : Option (List CChar)) (pattern : List CChar) : Option Bool := matchFrom (string.getD []) pattern

inductive Token
  | many
  | one
  | char (c : CChar)
  /-- A backslash with nothing to quote. -/
  | dangling
deriving DecidableEq

def tokens : List CChar → List Token
  | [] => []
  | p :: pattern =>
    if p = asterisk then .many :: tokens pattern
    else if p = questionMark then .one :: tokens pattern
    else if p = backslash then
      match pattern with
      | [] => [.dangling]
      | c :: pattern => .char c :: tokens pattern
    else .char p :: tokens pattern

/-- The token stands for this character. -/
def Token.fits : Token → CChar → Bool
  | .one,_ => true
  | .char p,c => tolower p = tolower c
  | _,_ => false

def Glob : List Token → List CChar → Prop
  | [],string => string = []
  | .many :: toks,string => ∃ u v, string = u ++ v ∧ Glob toks v
  | t :: toks,string => ∃ c v, string = c :: v ∧ t.fits c ∧ Glob toks v

/-- The string matches the pattern without its last backslash, in front of which is no star. -/
def Overruns (pattern string : List CChar) : Prop :=
  ∃ toks, tokens pattern = toks ++ [.dangling] ∧ toks.getLast? ≠ some .many ∧ Glob toks string

/-- Without its last two stars the pattern matches the whole string and no shorter beginning of it. -/
def Exhausts (toks : List Token) (string : List CChar) : Prop :=
  ∃ front, toks = front ++ [.many,.many] ∧ Glob front string ∧ ∀ u v, string = u ++ v → Glob front u → v = []

/-- The matcher, with the pattern cut into tokens. -/
def onTokens : List CChar → List Token → Option Bool
  | string,[] => some string.isEmpty
  | string,.many :: toks => if toks = [] then some true else anyRest (fun rest => onTokens rest toks) string
  | string,.dangling :: _ => if string = [] then none else some false
  | [],_ :: _ => some false
  | c :: string,t :: toks => if t.fits c then onTokens string toks else some false

theorem tolower_ne_zero (c : CChar) : tolower c ≠ 0 := by
  obtain ⟨c,nonzero⟩ := c
  unfold tolower
  split
  · rename_i upper
    obtain ⟨low,high⟩ := upper
    intro zero
    have sum := congrArg UInt8.toNat zero
    simp only [UInt8.le_iff_toNat_le,UInt8.toNat_add] at low high sum
    simp at low high sum
    omega
  · exact nonzero

theorem tokens_eq_nil {pattern : List CChar} : tokens pattern = [] ↔ pattern = [] := by
  constructor
  · intro none
    cases pattern with
    | nil => rfl
    | cons p pattern =>
      exfalso
      revert none
      cases pattern <;> simp only [tokens] <;> split_ifs <;> simp
  · rintro rfl
    rfl

theorem equalChar_eq (p : CChar) (string : List CChar) (toks : List Token) :
    equalChar p string (fun string => onTokens string toks) = onTokens string (.char p :: toks) := by
  cases string with
  | nil =>
    have differs : tolower p ≠ tolower 0 := tolower_ne_zero p
    exact if_pos differs
  | cons c string =>
    by_cases same : tolower p = tolower c
    · simp [equalChar,onTokens,Token.fits,same]
    · simp [equalChar,onTokens,Token.fits,same]

theorem matchFrom_eq (string pattern : List CChar) : matchFrom string pattern = onTokens string (tokens pattern) := by
  induction h : pattern.length using Nat.strongRecOn generalizing string pattern with
  | _ n ih =>
    cases pattern with
    | nil => rfl
    | cons p pattern =>
      have shorter : pattern.length < n := by rw [← h]; exact Nat.lt_succ_self _
      have rest (string : List CChar) : matchFrom string pattern = onTokens string (tokens pattern) :=
        ih _ shorter string pattern rfl
      unfold matchFrom tokens
      by_cases many : p = asterisk
      · simp only [if_pos many,onTokens,List.isEmpty_iff,tokens_eq_nil,rest]
      · by_cases one : p = questionMark
        · simp only [if_neg many,if_pos one,rest]
          cases string with
          | nil => simp [onTokens]
          | cons c string => simp [onTokens,Token.fits]
        · by_cases quoted : p = backslash
          · simp only [if_neg many,if_neg one,if_pos quoted]
            cases pattern with
            | nil =>
              cases string with
              | nil => rfl
              | cons c string =>
                have differs : tolower 0 ≠ tolower c := fun same => tolower_ne_zero c same.symm
                simp [equalChar,onTokens,differs]
            | cons c pattern =>
              have behind (string : List CChar) : matchFrom string pattern = onTokens string (tokens pattern) :=
                ih _ (Nat.lt_of_succ_lt shorter) string pattern rfl
              simp only [behind]
              exact equalChar_eq c string (tokens pattern)
          · simp only [if_neg many,if_neg one,if_neg quoted,rest]
            exact equalChar_eq p string (tokens pattern)

/-- The outcome where the property holds, and no match elsewhere. -/
def Decides (outcome : Option Bool) (P : Prop) (result : Option Bool) : Prop :=
  (P → result = outcome) ∧ (¬ P → result = some false)

theorem Decides.congr {outcome result : Option Bool} {P Q : Prop} (decides : Decides outcome P result) (same : P ↔ Q) :
    Decides outcome Q result := by
  rwa [← propext same]

theorem anyRest_decides {outcome : Option Bool} (stops : outcome = none ∨ outcome = some true)
    {matched : List CChar → Option Bool} {P : List CChar → Prop} (decides : ∀ v, Decides outcome (P v) (matched v))
    (string : List CChar) :
    Decides outcome (∃ u v, string = u ++ v ∧ v ≠ [] ∧ P v) (anyRest matched string) := by
  induction string with
  | nil =>
    refine ⟨?_,fun _ => rfl⟩
    rintro ⟨u,v,split,rest,_⟩
    exact absurd (append_eq_nil_iff.mp split.symm).2 rest
  | cons c string ih =>
    by_cases here : P (c :: string)
    · have found := (decides (c :: string)).1 here
      refine ⟨fun _ => ?_,fun absent => absurd ⟨[],c :: string,rfl,cons_ne_nil c string,here⟩ absent⟩
      rcases stops with rfl | rfl
      · simp [anyRest,found]
      · simp [anyRest,found]
    · have missed := (decides (c :: string)).2 here
      have onward : anyRest matched (c :: string) = anyRest matched string := by
        simp [anyRest,missed]
      rw [onward]
      refine ih.congr ?_
      constructor
      · rintro ⟨u,v,split,rest,found⟩
        exact ⟨c :: u,v,congrArg (c :: ·) split,rest,found⟩
      · rintro ⟨u,v,split,rest,found⟩
        cases u with
        | nil => exact absurd (split ▸ found) here
        | cons d u => exact ⟨u,v,(cons.inj split).2,rest,found⟩

variable {toks : List Token}

theorem glob_nil : Glob toks [] ↔ ∀ t ∈ toks, t = .many := by
  induction toks with
  | nil => simp [Glob]
  | cons t toks ih =>
    cases t with
    | many => simp [Glob,← ih]
    | _ => simp [Glob]

variable {string : List CChar}

theorem glob_many : Glob (.many :: toks) string ↔ ∃ u v, string = u ++ v ∧ Glob toks v := Iff.rfl

variable {t : Token}

theorem glob_cons (single : t ≠ .many) : Glob (t :: toks) string ↔ ∃ c v, string = c :: v ∧ t.fits c ∧ Glob toks v := by
  cases t with
  | many => exact absurd rfl single
  | _ => exact Iff.rfl

theorem onTokens_cons (single : t ≠ .many) (quotes : t ≠ .dangling) (c : CChar)
    (string : List CChar) : onTokens (c :: string) (t :: toks) = if t.fits c then onTokens string toks else some false := by
  cases t with
  | many => exact absurd rfl single
  | dangling => exact absurd rfl quotes
  | _ => rfl

theorem onTokens_cons_nil (single : t ≠ .many) (quotes : t ≠ .dangling) : onTokens [] (t :: toks) = some false := by
  cases t with
  | many => exact absurd rfl single
  | dangling => exact absurd rfl quotes
  | _ => rfl

theorem single_decides {outcome : Option Bool} {P : List CChar → Prop} (single : t ≠ .many)
    (quotes : t ≠ .dangling) (decides : ∀ v, Decides outcome (P v) (onTokens v toks)) (string : List CChar) :
    Decides outcome (∃ c v, string = c :: v ∧ t.fits c ∧ P v) (onTokens string (t :: toks)) := by
  cases string with
  | nil =>
    refine ⟨?_,fun _ => onTokens_cons_nil single quotes⟩
    rintro ⟨c,v,split,_⟩
    cases split
  | cons c string =>
    rw [onTokens_cons single quotes]
    by_cases fits : t.fits c
    · rw [if_pos fits]
      refine (decides string).congr ⟨fun here => ⟨c,string,rfl,fits,here⟩,?_⟩
      rintro ⟨d,v,split,_,here⟩
      exact (cons.inj split).2 ▸ here
    · rw [if_neg fits]
      refine ⟨?_,fun _ => rfl⟩
      rintro ⟨d,v,split,fits',_⟩
      exact absurd ((cons.inj split).1 ▸ fits') fits

theorem many_decides {outcome : Option Bool} (stops : outcome = none ∨ outcome = some true)
    {P : List CChar → Prop} (more : toks ≠ []) (decides : ∀ v, Decides outcome (P v) (onTokens v toks)) (string : List CChar) :
    Decides outcome (∃ u v, string = u ++ v ∧ v ≠ [] ∧ P v) (onTokens string (.many :: toks)) := by
  rw [onTokens,if_neg more]
  exact anyRest_decides stops decides string

theorem glob_append {toks more : List Token} :
    Glob (toks ++ more) string ↔ ∃ u v, string = u ++ v ∧ Glob toks u ∧ Glob more v := by
  induction toks generalizing string with
  | nil =>
    constructor
    · intro found
      exact ⟨[],string,rfl,rfl,found⟩
    · rintro ⟨u,v,rfl,rfl,found⟩
      exact found
  | cons t toks ih =>
    by_cases many : t = .many
    · subst many
      rw [cons_append,glob_many]
      constructor
      · rintro ⟨u,v,rfl,found⟩
        obtain ⟨u',v',rfl,front,back⟩ := ih.mp found
        exact ⟨u ++ u',v',(append_assoc u u' v').symm,⟨u,u',rfl,front⟩,back⟩
      · rintro ⟨_,v,rfl,⟨u,u',rfl,front⟩,back⟩
        exact ⟨u,u' ++ v,append_assoc u u' v,ih.mpr ⟨u',v,rfl,front,back⟩⟩
    · rw [cons_append,glob_cons many]
      constructor
      · rintro ⟨c,v,rfl,fits,found⟩
        obtain ⟨u,v,rfl,front,back⟩ := ih.mp found
        exact ⟨c :: u,v,rfl,(glob_cons many).mpr ⟨c,u,rfl,fits,front⟩,back⟩
      · rintro ⟨_,v,rfl,front,back⟩
        obtain ⟨c,u,rfl,fits,found⟩ := (glob_cons many).mp front
        exact ⟨c,u ++ v,rfl,fits,ih.mpr ⟨u,v,rfl,found,back⟩⟩

theorem glob_stars (string : List CChar) : Glob [.many,.many] string := ⟨string,[],by simp,[],[],rfl,rfl⟩

/-- A beginning of the string matches, which is not the whole string. -/
def Shorter (front : List Token) (string : List CChar) : Prop := ∃ u v, string = u ++ v ∧ v ≠ [] ∧ Glob front u

theorem matched_iff_shorter (front : List Token) (string : List CChar) :
    Glob (front ++ [.many,.many]) string ∧ ¬ Exhausts (front ++ [.many,.many]) string ↔ Shorter front string := by
  constructor
  · rintro ⟨found,inside⟩
    by_contra longer
    obtain ⟨u,v,split,start,_⟩ := glob_append.mp found
    have minimal (u v : List CChar) (split : string = u ++ v) (start : Glob front u) : v = [] := by
      by_contra rest
      exact longer ⟨u,v,split,rest,start⟩
    obtain rfl := minimal u v split start
    rw [append_nil] at split
    exact inside ⟨front,rfl,split ▸ start,minimal⟩
  · rintro ⟨u,v,split,rest,start⟩
    refine ⟨glob_append.mpr ⟨u,v,split,start,glob_stars v⟩,?_⟩
    rintro ⟨front',same,_,minimal⟩
    obtain rfl := append_cancel_right same
    exact rest (minimal u v split start)

theorem shorter_many {front : List Token} :
    Shorter (.many :: front) string ↔ ∃ u v, string = u ++ v ∧ v ≠ [] ∧ Shorter front v := by
  constructor
  · rintro ⟨_,w,rfl,rest,u,v,rfl,start⟩
    exact ⟨u,v ++ w,append_assoc u v w,by simp [rest],v,w,rfl,rest,start⟩
  · rintro ⟨u,_,rfl,_,v,w,rfl,rest,start⟩
    exact ⟨u ++ v,w,(append_assoc u v w).symm,rest,u,v,rfl,start⟩

theorem exhausts_single {c : CChar} {v : List CChar} (single : t ≠ .many) (fits : t.fits c) :
    Exhausts (t :: toks) (c :: v) ↔ Exhausts toks v := by
  constructor
  · rintro ⟨front,same,found,minimal⟩
    cases front with
    | nil => exact absurd (cons.inj same).1 single
    | cons t' front =>
      obtain ⟨rfl,rfl⟩ := cons.inj same
      obtain ⟨c',v',split,_,found⟩ := (glob_cons single).mp found
      obtain ⟨rfl,rfl⟩ := cons.inj split
      refine ⟨front,rfl,found,?_⟩
      intro u w split start
      exact minimal (c :: u) w (congrArg (c :: ·) split) ((glob_cons single).mpr ⟨c,u,rfl,fits,start⟩)
  · rintro ⟨front,rfl,found,minimal⟩
    refine ⟨t :: front,rfl,(glob_cons single).mpr ⟨c,v,rfl,fits,found⟩,?_⟩
    intro u w split start
    obtain ⟨d,u,rfl,_,start⟩ := (glob_cons single).mp start
    exact minimal u w (cons.inj split).2 start

theorem stars_split (stars : ∀ t ∈ toks, t = .many) (more : toks ≠ []) (other : toks ≠ [.many]) :
    ∃ front, toks = front ++ [.many,.many] := by
  induction toks with
  | nil => exact absurd rfl more
  | cons t rest ih =>
    obtain rfl := stars t mem_cons_self
    have nonempty : rest ≠ [] := by
      rintro rfl
      exact other rfl
    by_cases two : rest = [.many]
    · exact ⟨[],by rw [two,nil_append]⟩
    · obtain ⟨front,rfl⟩ := ih (fun t member => stars t (mem_cons_of_mem _ member)) nonempty two
      exact ⟨.many :: front,rfl⟩

theorem many_matched (more : toks ≠ []) :
    (∃ u v, string = u ++ v ∧ v ≠ [] ∧ Glob toks v ∧ ¬ Exhausts toks v) ↔
      Glob (.many :: toks) string ∧ ¬ Exhausts (.many :: toks) string := by
  by_cases two : ∃ front, toks = front ++ [.many,.many]
  · obtain ⟨front,rfl⟩ := two
    simp only [matched_iff_shorter]
    rw [← cons_append,matched_iff_shorter,shorter_many]
  · have inside (v : List CChar) : ¬ Exhausts toks v := fun ⟨front,same,_⟩ => two ⟨front,same⟩
    simp only [inside,not_false_eq_true,and_true]
    by_cases one : toks = [.many]
    · subst one
      have stars := matched_iff_shorter [] string
      rw [nil_append] at stars
      rw [stars]
      constructor
      · rintro ⟨u,v,rfl,rest,_⟩
        exact ⟨[],u ++ v,rfl,by simp [rest],rfl⟩
      · rintro ⟨_,v,rfl,rest,rfl⟩
        exact ⟨[],v,rfl,rest,v,[],by simp,rfl⟩
    · have outside : ¬ Exhausts (.many :: toks) string := by
        rintro ⟨front,same,_⟩
        cases front with
        | nil => exact one (cons.inj same).2
        | cons t front => exact two ⟨front,(cons.inj same).2⟩
      simp only [outside,not_false_eq_true,and_true]
      constructor
      · rintro ⟨u,v,split,_,found⟩
        exact ⟨u,v,split,found⟩
      · rintro ⟨u,v,split,found⟩
        refine ⟨u,v,split,?_,found⟩
        rintro rfl
        exact two (stars_split (glob_nil.mp found) more one)

theorem plain_decides (plain : ∀ t ∈ toks, t ≠ .dangling) (string : List CChar) :
    Decides (some true) (Glob toks string ∧ ¬ Exhausts toks string) (onTokens string toks) := by
  induction toks generalizing string with
  | nil =>
    have inside : ¬ Exhausts [] string := by
      rintro ⟨front,same,_⟩
      simp at same
    cases string with
    | nil => exact ⟨fun _ => rfl,fun absent => absurd ⟨rfl,inside⟩ absent⟩
    | cons c string =>
      refine ⟨fun here => ?_,fun _ => rfl⟩
      cases here.1
  | cons t toks ih =>
    have rest (v : List CChar) := ih (fun t member => plain t (mem_cons_of_mem _ member)) v
    by_cases many : t = .many
    · subst many
      cases toks with
      | nil =>
        refine ⟨fun _ => rfl,fun absent => absurd ⟨⟨string,[],by simp,rfl⟩,?_⟩ absent⟩
        rintro ⟨front,same,_⟩
        have lengths := congrArg length same
        simp at lengths
      | cons t toks =>
        exact (many_decides (.inr rfl) (cons_ne_nil t toks) rest string).congr (many_matched (cons_ne_nil t toks))
    · refine (single_decides many (plain t mem_cons_self) rest string).congr ?_
      rw [glob_cons many]
      constructor
      · rintro ⟨c,v,rfl,fits,found,inside⟩
        exact ⟨⟨c,v,rfl,fits,found⟩,fun exhausts => inside ((exhausts_single many fits).mp exhausts)⟩
      · rintro ⟨⟨c,v,rfl,fits,found⟩,inside⟩
        exact ⟨c,v,rfl,fits,found,fun exhausts => inside ((exhausts_single many fits).mpr exhausts)⟩

theorem getLast_cons (single : t ≠ .many) : (t :: toks).getLast? = some .many ↔ toks.getLast? = some .many := by
  cases toks with
  | nil => simp [single]
  | cons t' toks => rw [getLast?_cons_cons]

theorem dangling_decides (plain : ∀ t ∈ toks, t ≠ .dangling) (string : List CChar) :
    Decides none (Glob toks string ∧ toks.getLast? ≠ some .many) (onTokens string (toks ++ [.dangling])) := by
  induction toks generalizing string with
  | nil =>
    cases string with
    | nil => exact ⟨fun _ => rfl,fun absent => absurd ⟨rfl,by simp⟩ absent⟩
    | cons c string =>
      refine ⟨fun here => ?_,fun _ => rfl⟩
      cases here.1
  | cons t toks ih =>
    have rest (v : List CChar) := ih (fun t member => plain t (mem_cons_of_mem _ member)) v
    by_cases many : t = .many
    · subst many
      refine (many_decides (.inl rfl) (by simp) rest string).congr ?_
      constructor
      · rintro ⟨u,v,split,nonempty,found,last⟩
        refine ⟨⟨u,v,split,found⟩,?_⟩
        cases toks with
        | nil => exact absurd found nonempty
        | cons t toks => rwa [getLast?_cons_cons]
      · rintro ⟨⟨u,v,split,found⟩,last⟩
        cases toks with
        | nil => exact absurd rfl last
        | cons t toks =>
          rw [getLast?_cons_cons] at last
          refine ⟨u,v,split,?_,found,last⟩
          rintro rfl
          have stars := glob_nil.mp found _ (getLast_mem (cons_ne_nil t toks))
          exact last (by rw [getLast?_eq_some_getLast (cons_ne_nil t toks),stars])
    · refine (single_decides many (plain t mem_cons_self) rest string).congr ?_
      have ending : (t :: toks).getLast? ≠ some .many ↔ toks.getLast? ≠ some .many := not_congr (getLast_cons many)
      rw [glob_cons many,ending]
      constructor
      · rintro ⟨c,v,split,fits,found,last⟩
        exact ⟨⟨c,v,split,fits,found⟩,last⟩
      · rintro ⟨⟨c,v,split,fits,found⟩,last⟩
        exact ⟨c,v,split,fits,found,last⟩

/-- Only the last token may be a backslash with nothing to quote. -/
def QuotesBefore (toks : List Token) : Prop :=
  (∀ t ∈ toks, t ≠ .dangling) ∨ ∃ front, toks = front ++ [.dangling] ∧ ∀ t ∈ front, t ≠ .dangling

theorem QuotesBefore.cons (quotes : t ≠ .dangling) (before : QuotesBefore toks) : QuotesBefore (t :: toks) := by
  rcases before with plain | ⟨front,rfl,plain⟩
  · exact .inl (forall_mem_cons.mpr ⟨quotes,plain⟩)
  · exact .inr ⟨t :: front,rfl,forall_mem_cons.mpr ⟨quotes,plain⟩⟩

theorem tokens_quotesBefore (pattern : List CChar) : QuotesBefore (tokens pattern) := by
  fun_induction tokens pattern with
  | case1 => exact .inl fun _ member => (not_mem_nil member).elim
  | case2 pattern ih => exact ih.cons (by decide)
  | case3 pattern _ ih => exact ih.cons (by decide)
  | case4 => exact .inr ⟨[],rfl,fun _ member => (not_mem_nil member).elim⟩
  | case5 _ _ c pattern ih => exact ih.cons Token.noConfusion
  | case6 p pattern _ _ _ ih => exact ih.cons Token.noConfusion

/-- The matcher stays inside the strings and agrees with the reference exactly when the pattern without a last backslash
    does not match the string, and the pattern without two last stars does not match first at the end of the string. -/
theorem patternMatch_iff (string : Option (List CChar)) (pattern : List CChar) :
    (∃ matched, patternMatch string pattern = some matched ∧ (matched = true ↔ Glob (tokens pattern) (string.getD []))) ↔
      ¬ Overruns pattern (string.getD []) ∧ ¬ Exhausts (tokens pattern) (string.getD []) := by
  rw [patternMatch,matchFrom_eq]
  generalize string.getD [] = string
  rcases tokens_quotesBefore pattern with plain | ⟨toks,cut,plain⟩
  · have inside : ¬ Overruns pattern string := by
      rintro ⟨toks,cut,_⟩
      exact plain .dangling (by rw [cut]; simp) rfl
    obtain ⟨found,missed⟩ := plain_decides plain string
    constructor
    · rintro ⟨matched,result,right⟩
      refine ⟨inside,fun exhausts => ?_⟩
      have glob : Glob (tokens pattern) string := by
        obtain ⟨front,same,start,_⟩ := exhausts
        exact same ▸ glob_append.mpr ⟨string,[],by simp,start,glob_stars []⟩
      have lost := missed fun both => both.2 exhausts
      rw [right.mpr glob,lost] at result
      cases result
    · rintro ⟨_,short⟩
      by_cases glob : Glob (tokens pattern) string
      · exact ⟨true,found ⟨glob,short⟩,iff_of_true rfl glob⟩
      · exact ⟨false,missed fun both => glob both.1,iff_of_false Bool.false_ne_true glob⟩
  · have never : ¬ Glob (tokens pattern) string := by
      rw [cut,glob_append]
      rintro ⟨_,_,_,_,_,_,_,fits,_⟩
      cases fits
    have short : ¬ Exhausts (tokens pattern) string := by
      rintro ⟨front,same,_⟩
      have last := congrArg getLast? (cut.symm.trans same)
      simp at last
    obtain ⟨overrun,missed⟩ := dangling_decides plain string
    rw [← cut] at overrun missed
    constructor
    · rintro ⟨matched,result,_⟩
      refine ⟨?_,short⟩
      rintro ⟨front,same,last,start⟩
      obtain rfl := append_cancel_right (cut.symm.trans same)
      rw [overrun ⟨start,last⟩] at result
      cases result
    · rintro ⟨inside,_⟩
      exact ⟨false,missed fun both => inside ⟨toks,cut,both.2,both.1⟩,iff_of_false Bool.false_ne_true never⟩

/-- A pattern that ends in two stars, and the string in front of them; a backslash that ends the pattern. -/
theorem two_stars_lose :
    let a : CChar := ⟨97,by decide⟩
    (patternMatch (some [a]) [a,asterisk,asterisk] = some false ∧ Glob (tokens [a,asterisk,asterisk]) [a]) ∧
      patternMatch (some [a]) [a,backslash] = none := by
  intro a
  exact ⟨⟨by decide,⟨a,[],rfl,by decide,[],[],rfl,[],[],rfl,rfl⟩⟩,by decide⟩

end KdeWorkspace.HostPatterns
