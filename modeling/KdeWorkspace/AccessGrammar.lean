import Mathlib.Tactic.Common

/-!
The grammar of an access file: which words a text has on each of its lines.

A text is read as items (`items`), where a backslash quotes what follows and a `#` starts a
comment. In the grammar (`meant`) a quoted blank belongs to a word and a quoted line end is
nothing, so that the line goes on. What KDM reads differs in these two (`taken`): a quoted blank
separates words, and a quoted line end right behind a word ends the line. The lines are
the same just when a text has no quoted blank and no quoted line end that cuts a line in
two (`lines_iff`).
-/
namespace KdeWorkspace.AccessGrammar

/-- What a text consists of. -/
inductive Item
  | char (c : Char)
  | blank
  | eol
  | joined
  | quotedBlank (c : Char)
deriving DecidableEq

inductive Token
  | char (c : Char)
  | blank
  | eol
deriving DecidableEq

/-- Whether the last character was a backslash that quotes the next one, or a comment has begun. -/
inductive Mode
  | plain
  | quoted
  | comment
deriving DecidableEq

def IsEol (c : Char) : Prop := c = '\n' ∨ c = '\x00'
def IsBlank (c : Char) : Prop := c = ' ' ∨ c = '\t'

instance (c : Char) : Decidable (IsEol c) := inferInstanceAs (Decidable (_ ∨ _))
instance (c : Char) : Decidable (IsBlank c) := inferInstanceAs (Decidable (_ ∨ _))

/-- The items of a text; a NUL ends a line as a newline does. -/
def items : Mode → List Char → List Item
  | _,[] => []
  | .plain,c :: rest =>
    if c = '\\' then items .quoted rest
    else if c = '#' then items .comment rest
    else if IsEol c then .eol :: items .plain rest
    else if IsBlank c then .blank :: items .plain rest
    else .char c :: items .plain rest
  | .quoted,c :: rest =>
    if IsEol c then .joined :: items .plain rest
    else if IsBlank c then .quotedBlank c :: items .plain rest
    else .char c :: items .plain rest
  | .comment,c :: rest => if c = '\n' then .eol :: items .plain rest else items .comment rest

/-- What the items mean. -/
def meant : List Item → List Token
  | [] => []
  | .char c :: rest => .char c :: meant rest
  | .blank :: rest => .blank :: meant rest
  | .eol :: rest => .eol :: meant rest
  | .joined :: rest => meant rest
  | .quotedBlank c :: rest => .char c :: meant rest

/-- What the items are taken for, within a word or outside. -/
def taken : Bool → List Item → List Token
  | _,[] => []
  | _,.char c :: rest => .char c :: taken true rest
  | _,.blank :: rest => .blank :: taken false rest
  | _,.eol :: rest => .eol :: taken false rest
  | true,.joined :: rest => .eol :: taken false rest
  | false,.joined :: rest => taken false rest
  | _,.quotedBlank _ :: rest => .blank :: taken false rest

/-- The words of a line, with the one that has begun. -/
def endWord (word : List Char) (line : List (List Char)) : List (List Char) := if word = [] then line else line ++ [word]

/-- A line without words is none. -/
def endLine (line : List (List Char)) : List (List (List Char)) := if line = [] then [] else [line]

/-- The words on each line, from within a word of a line on. -/
def lines : List Token → List Char → List (List Char) → List (List (List Char))
  | [],word,line => endLine (endWord word line)
  | .char c :: rest,word,line => lines rest (word ++ [c]) line
  | .blank :: rest,word,line => lines rest [] (endWord word line)
  | .eol :: rest,word,line => endLine (endWord word line) ++ lines rest [] []

/-- The words on each line of a text. -/
def grammar (text : List Char) : List (List (List Char)) := lines (meant (items .plain text)) [] []

/-- A word follows on the line. -/
def Further (rest : List Item) : Prop := ∃ c, .char c ∈ rest.takeWhile (· ≠ .eol)

/-- No blank is quoted, and no quoted line end stands right behind a word with another word behind it on the line. -/
def Unbroken (all : List Item) : Prop :=
  (∀ c, .quotedBlank c ∉ all) ∧ ∀ pre c rest, all = pre ++ .char c :: .joined :: rest → ¬ Further rest

/-- A quoted line end cuts the line, right behind a word that has begun or ends later. -/
def Cuts (inside : Bool) (all : List Item) : Prop :=
  (inside = true ∧ ∃ rest, all = .joined :: rest ∧ Further rest) ∨
    ∃ pre c rest, all = pre ++ .char c :: .joined :: rest ∧ Further rest

variable {x : Item} {c : Char} {rest all : List Item} {inside : Bool}

theorem cuts_nil : ¬ Cuts inside [] := by
  rintro (⟨_,rest,none,_⟩ | ⟨pre,c,rest,none,_⟩)
  · cases none
  · cases pre <;> cases none

theorem cuts_cons : Cuts inside (x :: rest) ↔
    (inside = true ∧ x = .joined ∧ Further rest) ∨ ((∃ c, x = .char c) ∧ ∃ rest', rest = .joined :: rest' ∧ Further rest') ∨
      ∃ pre c rest', rest = pre ++ .char c :: .joined :: rest' ∧ Further rest' := by
  constructor
  · rintro (⟨here,rest',same,further⟩ | ⟨pre,c,rest',same,further⟩)
    · cases same
      exact .inl ⟨here,rfl,further⟩
    · cases pre with
      | nil =>
        cases same
        exact .inr (.inl ⟨⟨c,rfl⟩,rest',rfl,further⟩)
      | cons y pre =>
        cases same
        exact .inr (.inr ⟨pre,c,rest',rfl,further⟩)
  · rintro (⟨here,rfl,further⟩ | ⟨⟨c,rfl⟩,rest',rfl,further⟩ | ⟨pre,c,rest',rfl,further⟩)
    · exact .inl ⟨here,rest,rfl,further⟩
    · exact .inr ⟨[],c,rest',rfl,further⟩
    · exact .inr ⟨x :: pre,c,rest',rfl,further⟩

@[simp] theorem cuts_char : Cuts inside (.char c :: rest) ↔ Cuts true rest := by
  rw [cuts_cons]
  simp [Cuts]

@[simp] theorem cuts_blank : Cuts inside (.blank :: rest) ↔ Cuts false rest := by
  rw [cuts_cons]
  simp [Cuts]

@[simp] theorem cuts_eol : Cuts inside (.eol :: rest) ↔ Cuts false rest := by
  rw [cuts_cons]
  simp [Cuts]

@[simp] theorem cuts_joined : Cuts inside (.joined :: rest) ↔ (inside = true ∧ Further rest) ∨ Cuts false rest := by
  rw [cuts_cons]
  simp [Cuts]

theorem unbroken_iff : Unbroken all ↔ (∀ c, .quotedBlank c ∉ all) ∧ ¬ Cuts false all := by
  refine and_congr Iff.rfl ⟨?_,?_⟩
  · rintro whole (⟨no,_⟩ | ⟨pre,c,rest,same,further⟩)
    · cases no
    · exact whole pre c rest same further
  · intro whole pre c rest same further
    exact whole (.inr ⟨pre,c,rest,same,further⟩)

@[simp] theorem further_nil : ¬ Further [] := by
  simp [Further]

@[simp] theorem further_char : Further (.char c :: rest) := ⟨c,by simp⟩

@[simp] theorem further_eol : ¬ Further (.eol :: rest) := by
  simp [Further]

@[simp] theorem further_blank : Further (.blank :: rest) ↔ Further rest := by
  simp [Further]

@[simp] theorem further_joined : Further (.joined :: rest) ↔ Further rest := by
  simp [Further]

variable {word : List Char} {line : List (List Char)}

@[simp] theorem endWord_nil : endWord [] line = line := rfl

theorem lines_complete (word : List Char) (line : List (List Char)) (unquoted : ∀ c, .quotedBlank c ∉ rest) (complete : ¬ Further rest) :
    lines (meant rest) word line = endLine (endWord word line) ++ lines (meant rest) [] [] := by
  induction rest generalizing word line with
  | nil => simp [meant,lines,endLine]
  | cons x rest ih =>
    have later : ∀ c, Item.quotedBlank c ∉ rest := fun c member => unquoted c (List.mem_cons_of_mem x member)
    cases x with
    | char c => exact absurd further_char complete
    | blank => simpa [meant,lines] using ih [] (endWord word line) later (by simpa using complete)
    | eol => simp [meant,lines,endLine]
    | joined => simpa [meant] using ih word line later (by simpa using complete)
    | quotedBlank c => exact absurd List.mem_cons_self (unquoted c)

theorem lines_same (inside : Bool) (word : List Char) (line : List (List Char)) (unquoted : ∀ c, .quotedBlank c ∉ all)
    (begun : inside = true ↔ word ≠ []) (whole : ¬ Cuts inside all) :
    lines (taken inside all) word line = lines (meant all) word line := by
  induction all generalizing inside word line with
  | nil => cases inside <;> rfl
  | cons x rest ih =>
    have later : ∀ c, Item.quotedBlank c ∉ rest := fun c member => unquoted c (List.mem_cons_of_mem x member)
    cases x with
    | char c =>
      have same := ih true (word ++ [c]) line later (by simp) (by simpa using whole)
      cases inside <;> simpa [taken,meant,lines] using same
    | blank =>
      have same := ih false [] (endWord word line) later (by simp) (by simpa using whole)
      cases inside <;> simpa [taken,meant,lines] using same
    | eol =>
      have same := ih false [] [] later (by simp) (by simpa using whole)
      cases inside <;> simpa [taken,meant,lines] using same
    | joined =>
      obtain ⟨none_behind,uncut⟩ := not_or.mp (mt cuts_joined.mpr whole)
      have same := ih false [] [] later (by simp) uncut
      cases inside with
      | true =>
        have complete : ¬ Further rest := fun further => none_behind ⟨rfl,further⟩
        rw [meant,lines_complete word line later complete,taken,lines,same]
      | false =>
        have empty : word = [] := by simpa using begun
        subst empty
        exact ih false [] line later begun uncut
    | quotedBlank c => exact absurd List.mem_cons_self (unquoted c)

/-- How many lines there are, with a line begun or not. -/
def count : Bool → List Token → Nat
  | begun,[] => begun.toNat
  | _,.char _ :: rest => count true rest
  | begun,.blank :: rest => count begun rest
  | begun,.eol :: rest => begun.toNat+count false rest

theorem length_endLine (line : List (List Char)) : (endLine line).length = (decide (line ≠ [])).toNat := by
  by_cases empty : line = [] <;> simp [endLine,empty]

theorem endWord_ne_nil : endWord word line ≠ [] ↔ word ≠ [] ∨ line ≠ [] := by
  by_cases empty : word = [] <;> simp [endWord,empty]

theorem length_lines (tokens : List Token) (begun : Bool) (some : begun = true ↔ word ≠ [] ∨ line ≠ []) :
    (lines tokens word line).length = count begun tokens := by
  have ended : (endLine (endWord word line)).length = begun.toNat := by
    rw [length_endLine]
    congr 1
    rw [← Bool.coe_iff_coe,decide_eq_true_iff,endWord_ne_nil]
    exact some.symm
  induction tokens generalizing word line begun with
  | nil => exact ended
  | cons t rest ih =>
    cases t with
    | char c => exact ih true (by simp) (by simp [length_endLine,endWord_ne_nil])
    | blank => exact ih begun (by rw [some,endWord_ne_nil]; simp) (by simpa using ended)
    | eol =>
      rw [lines,List.length_append,ended,count]
      exact congrArg _ (ih false (by simp) rfl)

theorem count_bounds (tokens : List Token) : count false tokens ≤ count true tokens ∧ count true tokens ≤ count false tokens+1 := by
  induction tokens with
  | nil => simp [count]
  | cons t rest ih =>
    cases t with
    | char c => simp [count]
    | blank => exact ih
    | eol => simp [count]; omega

theorem count_further (unquoted : ∀ c, .quotedBlank c ∉ rest) (further : Further rest) :
    count true (meant rest) = count false (meant rest) := by
  induction rest with
  | nil => exact absurd further further_nil
  | cons x rest ih =>
    have later : ∀ c, Item.quotedBlank c ∉ rest := fun c member => unquoted c (List.mem_cons_of_mem x member)
    cases x with
    | char c => rfl
    | blank => exact ih later (further_blank.mp further)
    | eol => exact absurd further further_eol
    | joined => exact ih later (further_joined.mp further)
    | quotedBlank c => exact absurd List.mem_cons_self (unquoted c)

theorem count_taken (inside begun : Bool) (unquoted : ∀ c, .quotedBlank c ∉ all) (within : inside = true → begun = true) :
    count begun (meant all) ≤ count begun (taken inside all) ∧
      (Cuts inside all → count begun (meant all) < count begun (taken inside all)) := by
  induction all generalizing inside begun with
  | nil => exact ⟨by cases inside <;> exact Nat.le_refl _,fun cut => absurd cut cuts_nil⟩
  | cons x rest ih =>
    have later : ∀ c, Item.quotedBlank c ∉ rest := fun c member => unquoted c (List.mem_cons_of_mem x member)
    have outside := fun begun => ih false begun later (by simp)
    cases x with
    | char c =>
      have same := ih true true later (by simp)
      cases inside <;> simpa [taken,meant,count] using same
    | blank =>
      have same := outside begun
      cases inside <;> simpa [taken,meant,count] using same
    | eol =>
      have same := outside false
      cases inside <;> simpa [taken,meant,count] using same
    | joined =>
      cases inside with
      | false => simpa [taken,meant] using outside begun
      | true =>
        obtain rfl : begun = true := within rfl
        have bounds := (count_bounds (meant rest)).2
        obtain ⟨kept,more⟩ := outside false
        rw [meant,taken,count]
        refine ⟨by simp; omega,fun cut => ?_⟩
        rcases cuts_joined.mp cut with ⟨_,further⟩ | behind
        · rw [count_further later further]
          simp
          omega
        · have := more behind
          simp
          omega
    | quotedBlank c => exact absurd List.mem_cons_self (unquoted c)

/-- The characters of the words. -/
def chars : List Token → List Char
  | [] => []
  | .char c :: rest => c :: chars rest
  | _ :: rest => chars rest

theorem flatten_endLine (line : List (List Char)) : (endLine line).flatten.flatten = line.flatten := by
  by_cases empty : line = [] <;> simp [endLine,empty]

theorem flatten_endWord : (endWord word line).flatten = line.flatten ++ word := by
  by_cases empty : word = [] <;> simp [endWord,empty]

theorem flatten_lines (tokens : List Token) : (lines tokens word line).flatten.flatten = line.flatten ++ word ++ chars tokens := by
  induction tokens generalizing word line with
  | nil => simp [lines,chars,flatten_endLine,flatten_endWord]
  | cons t rest ih =>
    cases t with
    | char c => simp [lines,chars,ih]
    | blank => simp [lines,chars,ih,flatten_endWord]
    | eol => simp [lines,chars,ih,flatten_endLine,flatten_endWord]

theorem length_chars_le (inside : Bool) (all : List Item) : (chars (taken inside all)).length ≤ (chars (meant all)).length := by
  induction all generalizing inside with
  | nil => cases inside <;> exact Nat.le_refl _
  | cons x rest ih =>
    cases x with
    | char c => cases inside <;> simp [taken,meant,chars,ih]
    | blank => cases inside <;> simp [taken,meant,chars,ih]
    | eol => cases inside <;> simp [taken,meant,chars,ih]
    | joined => cases inside <;> simp [taken,meant,chars,ih]
    | quotedBlank c => cases inside <;> exact Nat.le_succ_of_le (ih false)

theorem length_chars_lt (inside : Bool) (quoted : .quotedBlank c ∈ all) : (chars (taken inside all)).length < (chars (meant all)).length := by
  induction all generalizing inside with
  | nil => cases quoted
  | cons x rest ih =>
    rcases List.mem_cons.mp quoted with rfl | later
    · cases inside <;> exact Nat.lt_succ_of_le (length_chars_le false rest)
    · cases x with
      | char c => cases inside <;> simp [taken,meant,chars,ih _ later]
      | blank => cases inside <;> simp [taken,meant,chars,ih _ later]
      | eol => cases inside <;> simp [taken,meant,chars,ih _ later]
      | joined => cases inside <;> simp [taken,meant,chars,ih _ later]
      | quotedBlank c => cases inside <;> exact Nat.lt_succ_of_lt (ih false later)

theorem lines_iff (all : List Item) : lines (taken false all) [] [] = lines (meant all) [] [] ↔ Unbroken all := by
  rw [unbroken_iff]
  constructor
  · intro same
    have unquoted (c : Char) : .quotedBlank c ∉ all := by
      intro quoted
      have fewer := length_chars_lt false quoted
      have letters := congrArg (fun ls => ls.flatten.flatten.length) same
      simp only [flatten_lines,List.flatten_nil,List.nil_append] at letters
      omega
    refine ⟨unquoted,fun cut => ?_⟩
    have more := (count_taken false false unquoted (by simp)).2 cut
    have lengths := congrArg List.length same
    rw [length_lines _ false (by simp),length_lines _ false (by simp)] at lengths
    omega
  · rintro ⟨unquoted,whole⟩
    exact lines_same false [] [] unquoted (by simp) whole

end KdeWorkspace.AccessGrammar
