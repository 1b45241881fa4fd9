import KdeWorkspace.IniFile

/-!
An ini file of kdm is a map: `ini_map` says what an entry which has been written and what another ini file
which has been merged make of the answers.

A text whose last line is ended is a list of lines. `answer` reads the lines, and what `iniEntry` inserts or
replaces is one line, or one line and the header of a section above it.
-/
namespace KdeWorkspace.IniFile
open List
open PipeCodec (Bytes)
open SessionList (byte text newline)

/-- What `iniMerge` takes for the name of a section. -/
structure SectionName (name : Bytes) : Prop where
  line : newline ∉ name
  bracket : byte ']' ∉ name

/-- What `iniMerge` takes for a key. -/
structure KeyName (key : Bytes) : Prop where
  line : newline ∉ key
  equals : byte '=' ∉ key
  begins : ∀ c ∈ key.head?, blank c = false ∧ c ≠ byte '[' ∧ c ≠ byte '#'
  ends : ∀ c ∈ key.getLast?, blank c = false

structure Value (value : Bytes) : Prop where
  line : newline ∉ value
  begins : ∀ c ∈ value.head?, blank c = false
  ends : ∀ c ∈ value.getLast?, blank c = false

/-- The last line is ended. -/
def Terminated (p : Bytes) : Prop := ∀ c ∈ p.getLast?, c = newline

theorem blank_newline : blank newline = false := by decide
theorem blank_equals : blank (byte '=') = false := by decide
theorem equals_ne_bracket : byte '=' ≠ byte '[' := by decide
theorem newline_ne_equals : newline ≠ byte '=' := by decide
theorem newline_ne_bracket : newline ≠ byte ']' := by decide

theorem skipBlanks_of_begins {p : Bytes} (begins : ∀ c ∈ p.head?, blank c = false) : skipBlanks p = p := by
  cases p with
  | nil => rfl
  | cons c p => simp [skipBlanks,begins c (by simp)]

theorem skipBlanks_begins (p : Bytes) : ∀ c ∈ (skipBlanks p).head?, blank c = false := by
  intro c first
  have := head?_dropWhile_not blank p
  rw [skipBlanks] at first
  simp only [Option.mem_def] at first
  simpa [first] using this

theorem skipBlanks_blanks {b : Bytes} (blanks : ∀ c ∈ b, blank c = true) (p : Bytes) :
    skipBlanks (b++p) = skipBlanks p := by
  rw [skipBlanks,dropWhile_append_of_pos blanks,skipBlanks]

theorem stripBlanks_of_ends {p : Bytes} (ends : ∀ c ∈ p.getLast?, blank c = false) : stripBlanks p = p := by
  rw [stripBlanks,rdropWhile_eq_self_iff]
  intro nonempty
  simpa using ends _ (getLast?_eq_getLast_of_ne_nil nonempty)

theorem stripBlanks_ends (p : Bytes) : ∀ c ∈ (stripBlanks p).getLast?, blank c = false := by
  intro c last
  cases left : stripBlanks p with
  | nil => simp [left] at last
  | cons d q =>
    have nonempty : stripBlanks p ≠ [] := by simp [left]
    have := rdropWhile_last_not blank p nonempty
    rw [getLast?_eq_getLast_of_ne_nil nonempty] at last
    simp only [Option.mem_def,Option.some.injEq] at last
    rw [← last]
    simpa [stripBlanks] using this

theorem stripBlanks_append_blanks {p b : Bytes} (ends : ∀ c ∈ p.getLast?, blank c = false)
    (blanks : ∀ c ∈ b, blank c = true) : stripBlanks (p++b) = p := by
  have whole := stripBlanks_of_ends ends
  rw [stripBlanks,rdropWhile] at whole ⊢
  rw [reverse_append,dropWhile_append_of_pos (by simpa using blanks),whole]

def unlines (lines : List Bytes) : Bytes := lines.flatMap (·++[newline])

@[simp] theorem unlines_nil : unlines [] = [] := rfl

@[simp] theorem unlines_cons (l : Bytes) (lines : List Bytes) : unlines (l :: lines) = l++newline :: unlines lines := by
  simp [unlines]

@[simp] theorem unlines_append (before after : List Bytes) : unlines (before++after) = unlines before++unlines after := by
  simp [unlines]

/-- No line is ended twice. -/
def Whole (lines : List Bytes) : Prop := ∀ l ∈ lines, newline ∉ l

theorem exists_unlines {p : Bytes} (terminated : Terminated p) : ∃ lines, Whole lines ∧ p = unlines lines := by
  induction p with
  | nil => exact ⟨[],by simp [Whole],rfl⟩
  | cons c p ih =>
    cases p with
    | nil =>
      have : c = newline := terminated c (by simp)
      exact ⟨[[]],by simp [Whole],by simp [this]⟩
    | cons d p =>
      obtain ⟨lines,whole,same⟩ := ih fun e last => terminated e (by simpa using last)
      by_cases ends : c = newline
      · exact ⟨[] :: lines,by simpa [Whole] using whole,by simp [ends,same]⟩
      · cases lines with
        | nil => simp at same
        | cons l lines =>
          refine ⟨(c :: l) :: lines,?_,by simp [same]⟩
          intro m at_
          rcases mem_cons.mp at_ with rfl | at_
          · simpa [Ne.symm ends] using whole l (by simp)
          · exact whole m (by simp [at_])

theorem terminated_unlines (lines : List Bytes) : Terminated (unlines lines) := by
  intro c last
  induction lines using reverseRecOn with
  | nil => simp at last
  | append_singleton lines l ih => simpa [eq_comm] using last

theorem skipBlanks_line (l rest : Bytes) : skipBlanks (l++newline :: rest) = skipBlanks l++newline :: rest := by
  induction l with
  | nil => simp [skipBlanks,blank_newline]
  | cons c l ih =>
    by_cases isBlank : blank c
    · simpa [skipBlanks,isBlank] using ih
    · simp [skipBlanks,isBlank]

theorem mem_of_mem_skipBlanks {c : UInt8} {l : Bytes} (at_ : c ∈ skipBlanks l) : c ∈ l :=
  (dropWhile_suffix blank).subset at_

theorem nextLine_line {l : Bytes} (line : newline ∉ l) (rest : Bytes) : nextLine (l++newline :: rest) = some rest := by
  induction l with
  | nil => simp [nextLine]
  | cons c l ih =>
    simp only [mem_cons,not_or] at line
    simpa [nextLine,Ne.symm line.1] using ih line.2

theorem matching_line {l t : Bytes} (line : newline ∉ t) (inside : newline ∉ l) (rest : Bytes) :
    ∃ p t', matching (l++newline :: rest) t = some (p++newline :: rest,t') ∧ newline ∉ p ∧
      (t'.isEmpty = t.isPrefixOf l) ∧ (t.isPrefixOf l = true → p = l.drop t.length) := by
  induction l generalizing t with
  | nil =>
    cases t with
    | nil => exact ⟨[],[],by simp [matching],by simp,rfl,by simp⟩
    | cons b t =>
      have : newline ≠ b := by rintro rfl; simp at line
      exact ⟨[],b :: t,by simp [matching,this],by simp,by simp,by simp⟩
  | cons a l ih =>
    cases t with
    | nil => exact ⟨a :: l,[],by simp [matching],inside,by simp,by simp⟩
    | cons b t =>
      simp only [mem_cons,not_or] at line inside
      by_cases same : a = b
      · obtain ⟨p,t',matched,ends,empty,left⟩ := ih line.2 inside.2
        refine ⟨p,t',by simpa [matching,same] using matched,ends,?_,?_⟩
        · simpa [same] using empty
        · simpa [same] using left
      · have differ : (b :: t).isPrefixOf (a :: l) = false := by simp [isPrefixOf,Ne.symm same]
        exact ⟨a :: l,b :: t,by simp [matching,same],by simpa using inside,by simp [differ],by simp [differ]⟩

/-- Whether a line is the header of a section; `r` is the line behind its bracket. -/
def heads (section_ r : Bytes) : Bool := section_.isPrefixOf r && (r.drop section_.length).head? = some (byte ']')

def insectLine (section_ : Bytes) (insect : Bool) (l : Bytes) : Bool :=
  match skipBlanks l with
  | [] => insect
  | c :: r => if c = byte '[' then heads section_ r else insect

/-- The value of a line which begins with a key. -/
def valueOf (key l : Bytes) : Option Bytes :=
  if key.isPrefixOf l && (skipBlanks (l.drop key.length)).head? = some (byte '=') then
    some (skipBlanks (skipBlanks (l.drop key.length)).tail)
  else none

def entryLine (key : Bytes) (insect : Bool) (l : Bytes) : Option Bytes :=
  match skipBlanks l with
  | [] => none
  | c :: r => if c = byte '[' then none else if insect then valueOf key (c :: r) else none

/-- What a lookup answers which has come to these lines. -/
def answer (section_ key : Bytes) : Bool → List Bytes → Option Bytes
  | _, [] => none
  | insect, l :: lines =>
    match entryLine key insect l with
    | some v => some (stripBlanks v)
    | none => answer section_ key (insectLine section_ insect l) lines

def insectAfter (section_ : Bytes) (insect : Bool) (lines : List Bytes) : Bool := lines.foldl (insectLine section_) insect

theorem answer_append (section_ key : Bytes) (insect : Bool) (before after : List Bytes) :
    answer section_ key insect (before++after) =
      (answer section_ key insect before).or (answer section_ key (insectAfter section_ insect before) after) := by
  induction before generalizing insect with
  | nil => simp [answer,insectAfter]
  | cons l before ih =>
    simp only [cons_append,answer,insectAfter,foldl_cons]
    cases entryLine key insect l with
    | some v => rfl
    | none => exact ih _

variable {lines : List Bytes} {insect : Bool}

theorem answer_blank {section_ key : Bytes}
    (blanks : ∀ l ∈ lines, skipBlanks l = []) : answer section_ key insect lines = none := by
  induction lines generalizing insect with
  | nil => rfl
  | cons l lines ih =>
    have empty := blanks l (by simp)
    simpa [answer,entryLine,empty] using ih fun m at_ => blanks m (by simp [at_])

/-- The lines are as `readLine` sees them. -/
theorem readLine_line {section_ key l : Bytes} (name : newline ∉ section_) (keyed : newline ∉ key)
    (line : newline ∉ l) (insect : Bool) (rest : Bytes) :
    (skipBlanks l = [] ∧ readLine section_ key insect (l++newline :: rest) = some (.empty rest)) ∨
    (∃ v, entryLine key insect l = some v ∧
      readLine section_ key insect (l++newline :: rest) = some (.entry (v++newline :: rest))) ∨
    (entryLine key insect l = none ∧ skipBlanks l ≠ [] ∧ ∃ p, newline ∉ p ∧
      readLine section_ key insect (l++newline :: rest) =
        some (.other (p++newline :: rest) (insectLine section_ insect l))) := by
  cases left : skipBlanks l with
  | nil => exact .inl ⟨rfl,by simp [readLine,skipBlanks_line,left]⟩
  | cons c r =>
    have inside : newline ∉ c :: r := fun at_ => line (mem_of_mem_skipBlanks (left ▸ at_))
    have first : c ≠ newline := by rintro rfl; simp at inside
    refine .inr ?_
    by_cases header : c = byte '['
    · obtain ⟨p,t,matched,ends,empty,behind⟩ := matching_line name (fun at_ => inside (mem_cons_of_mem c at_)) rest
      refine .inr ⟨by simp [entryLine,left,header],by simp,p,ends,?_⟩
      have headed : (t.isEmpty && decide ((p++newline :: rest).head? = some (byte ']'))) = heads section_ r := by
        rw [heads,empty]
        by_cases pre : section_.isPrefixOf r
        · rw [← behind pre]
          cases p <;> simp [pre,newline_ne_bracket]
        · simp [pre]
      simp only [readLine,skipBlanks_line,left,cons_append,head?_cons,Option.some.injEq,
        header,if_true,tail_cons,matched,insectLine,headed]
      simp [← header,first]
    · cases insect with
      | false =>
        refine .inr ⟨by simp [entryLine,left],by simp,c :: r,inside,?_⟩
        simp [readLine,skipBlanks_line,left,first,header,insectLine]
      | true =>
        obtain ⟨p,t,matched,ends,empty,behind⟩ := matching_line keyed inside rest
        have found : (t.isEmpty && decide ((skipBlanks p++newline :: rest).head? = some (byte '='))) =
            (key.isPrefixOf (c :: r) &&
              decide ((skipBlanks ((c :: r).drop key.length)).head? = some (byte '='))) := by
          rw [empty]
          by_cases pre : key.isPrefixOf (c :: r)
          · rw [← behind pre]
            cases skipBlanks p <;> simp [pre,newline_ne_equals]
          · simp [pre]
        by_cases is_ : (key.isPrefixOf (c :: r) &&
            decide ((skipBlanks ((c :: r).drop key.length)).head? = some (byte '='))) = true
        · have pre : key.isPrefixOf (c :: r) = true := by
            simp only [Bool.and_eq_true] at is_
            exact is_.1
          have valued : valueOf key (c :: r) = some (skipBlanks (skipBlanks p).tail) := by
            rw [valueOf,if_pos is_,behind pre]
          refine .inl ⟨skipBlanks (skipBlanks p).tail,by simp [entryLine,left,header,valued],?_⟩
          obtain ⟨q,equals⟩ : ∃ q, skipBlanks p = byte '=' :: q := by
            rw [← behind pre] at is_
            simp only [Bool.and_eq_true,decide_eq_true_eq] at is_
            cases shape : skipBlanks p with
            | nil => simp [shape] at is_
            | cons d q =>
              rw [shape] at is_
              exact ⟨q,by simpa using is_.2⟩
          have emptyT : t = [] := by
            rw [pre] at empty
            simpa using empty
          rw [readLine]
          simp only [skipBlanks_line,left,cons_append,head?_cons,Option.some.injEq,first,header]
          rw [cons_append] at matched
          simp [matched,skipBlanks_line,equals,emptyT]
        · have valued : valueOf key (c :: r) = none := by rw [valueOf,if_neg is_]
          refine .inr ⟨by simp [entryLine,left,header,valued],by simp,skipBlanks p,
            fun at_ => ends (mem_of_mem_skipBlanks at_),?_⟩
          rw [readLine]
          simp only [skipBlanks_line,left,cons_append,head?_cons,Option.some.injEq,first,header]
          rw [cons_append] at matched
          simp only [matched,skipBlanks_line,found,is_]
          simp [insectLine,left,header]

theorem insectLine_blank {section_ l : Bytes} (empty : skipBlanks l = []) : insectLine section_ insect l = insect := by
  simp [insectLine,empty]

theorem entryLine_blank {key l : Bytes} (empty : skipBlanks l = []) : entryLine key insect l = none := by
  simp [entryLine,empty]

/-- Nothing has been found, and the marks stand behind lines: behind one of the section, or else behind the last
one which is not empty. -/
structure Ended (section_ : Bytes) (lines : List Bytes) (marks marks' : Marks) : Prop where
  sec : marks'.secinsert = marks.secinsert ∨
    ∃ before after, lines = before++after ∧ insectAfter section_ marks.insect before = true ∧
      marks'.secinsert = some (unlines after)
  past : marks'.secinsert = none →
    (marks'.pastinsert = marks.pastinsert ∧ ∀ l ∈ lines, skipBlanks l = []) ∨
    ∃ before after, lines = before++after ∧ (∀ l ∈ after, skipBlanks l = []) ∧ marks'.pastinsert = some (unlines after)

theorem Ended.empty {section_ l : Bytes} {marks marks' : Marks}
    (ended : Ended section_ lines marks marks') (empty : skipBlanks l = []) :
    Ended section_ (l :: lines) marks marks' := by
  refine ⟨?_,fun none_ => ?_⟩
  · rcases ended.sec with same | ⟨before,after,split,inside,mark⟩
    · exact .inl same
    · exact .inr ⟨l :: before,after,by simp [split],by simpa [insectAfter,insectLine_blank empty] using inside,mark⟩
  · rcases ended.past none_ with ⟨same,blanks⟩ | ⟨before,after,split,blanks,mark⟩
    · exact .inl ⟨same,by simpa [empty] using blanks⟩
    · exact .inr ⟨l :: before,after,by simp [split],blanks,mark⟩

theorem Ended.other {section_ l : Bytes} {marks marks' : Marks}
    (ended : Ended section_ lines (marks.passed (insectLine section_ marks.insect l) (unlines lines)) marks') :
    Ended section_ (l :: lines) marks marks' := by
  have passed : (marks.passed (insectLine section_ marks.insect l) (unlines lines)).insect =
      insectLine section_ marks.insect l := by
    unfold Marks.passed
    split <;> rfl
  refine ⟨?_,fun none_ => ?_⟩
  · rcases ended.sec with same | ⟨before,after,split,inside,mark⟩
    · by_cases inside : insectLine section_ marks.insect l = true
      · refine .inr ⟨[l],lines,rfl,by simpa [insectAfter] using inside,?_⟩
        simpa [Marks.passed,inside] using same
      · exact .inl (by simpa [Marks.passed,inside] using same)
    · refine .inr ⟨l :: before,after,by simp [split],?_,mark⟩
      rw [passed] at inside
      simpa [insectAfter] using inside
  · have outside : insectLine section_ marks.insect l = false := by
      rcases ended.sec with same | ⟨_,_,_,_,mark⟩
      · by_contra inside
        rw [Bool.not_eq_false] at inside
        simp [Marks.passed,inside,none_] at same
      · simp [none_] at mark
    rcases ended.past none_ with ⟨same,blanks⟩ | ⟨before,after,split,blanks,mark⟩
    · exact .inr ⟨[l],lines,rfl,blanks,by simpa [Marks.passed,outside] using same⟩
    · exact .inr ⟨l :: before,after,by simp [split],blanks,mark⟩

theorem scan_empty {section_ key p p' : Bytes} {marks : Marks} (nonempty : p ≠ [])
    (read : readLine section_ key marks.insect p = some (.empty p')) :
    scan section_ key marks p = scan section_ key marks p' := by
  rw [scan,if_neg (by simpa using nonempty)]
  split <;> simp_all

theorem scan_entry {section_ key p cb ce : Bytes} {marks : Marks} (nonempty : p ≠ [])
    (read : readLine section_ key marks.insect p = some (.entry cb)) (next : nextLine cb = some ce) :
    scan section_ key marks p = some (.found cb ce) := by
  rw [scan,if_neg (by simpa using nonempty)]
  split <;> simp_all

theorem scan_other {section_ key p p' q : Bytes} {marks : Marks} (nonempty : p ≠ [])
    (read : readLine section_ key marks.insect p = some (.other p' insect)) (next : nextLine p' = some q) :
    scan section_ key marks p = scan section_ key (marks.passed insect q) q := by
  rw [scan,if_neg (by simpa using nonempty)]
  split
  · simp_all
  · simp_all
  · simp_all
  · rename_i r i same
    obtain ⟨rfl,rfl⟩ : p' = r ∧ insect = i := by simpa [read] using same
    split <;> simp_all

theorem mem_of_entryLine {key l v : Bytes} (entry : entryLine key insect l = some v) {c : UInt8}
    (at_ : c ∈ v) : c ∈ l := by
  rw [entryLine] at entry
  split at entry
  · simp at entry
  · rename_i d r left
    split_ifs at entry with header
    rw [valueOf] at entry
    split_ifs at entry
    simp only [Option.some.injEq] at entry
    rw [← entry] at at_
    have := mem_of_mem_tail (mem_of_mem_skipBlanks at_)
    have := mem_of_mem_drop (mem_of_mem_skipBlanks this)
    exact mem_of_mem_skipBlanks (left ▸ this)

theorem scan_lines {section_ key : Bytes} (name : newline ∉ section_) (keyed : newline ∉ key)
    (whole : Whole lines) (marks : Marks) :
    (∃ before l after v, lines = before++l :: after ∧ answer section_ key marks.insect before = none ∧
      entryLine key (insectAfter section_ marks.insect before) l = some v ∧
      scan section_ key marks (unlines lines) = some (.found (v++newline :: unlines after) (unlines after))) ∨
    (answer section_ key marks.insect lines = none ∧ ∃ marks', Ended section_ lines marks marks' ∧
      scan section_ key marks (unlines lines) = some (.ended marks')) := by
  induction lines generalizing marks with
  | nil =>
    refine .inr ⟨rfl,marks,⟨.inl rfl,fun _ => .inl ⟨rfl,by simp⟩⟩,?_⟩
    rw [scan]
    rfl
  | cons l lines ih =>
    have line : newline ∉ l := whole l (by simp)
    have rest : Whole lines := fun m at_ => whole m (by simp [at_])
    rw [unlines_cons]
    have nonempty : l++newline :: unlines lines ≠ [] := by simp
    rcases readLine_line name keyed line marks.insect (unlines lines) with
      ⟨empty,read⟩ | ⟨v,entry,read⟩ | ⟨noEntry,full,p,ends,read⟩
    · have step : insectLine section_ marks.insect l = marks.insect := insectLine_blank empty
      have quiet : entryLine key marks.insect l = none := entryLine_blank empty
      rw [scan_empty nonempty read]
      rcases ih rest marks with ⟨before,m,after,v,split,silent,entry,result⟩ | ⟨silent,marks',ended,result⟩
      · exact .inl ⟨l :: before,m,after,v,by simp [split],by simpa [answer,quiet,step] using silent,
          by simpa [insectAfter,step] using entry,result⟩
      · exact .inr ⟨by simpa [answer,quiet,step] using silent,marks',ended.empty empty,result⟩
    · have inside : newline ∉ v := fun at_ => line (mem_of_entryLine entry at_)
      exact .inl ⟨[],l,lines,v,rfl,rfl,entry,scan_entry nonempty read (nextLine_line inside (unlines lines))⟩
    · have passed : (marks.passed (insectLine section_ marks.insect l) (unlines lines)).insect =
          insectLine section_ marks.insect l := by
        unfold Marks.passed
        split <;> rfl
      rw [scan_other nonempty read (nextLine_line ends (unlines lines))]
      rcases ih rest (marks.passed (insectLine section_ marks.insect l) (unlines lines)) with
        ⟨before,m,after,v,split,silent,entry,result⟩ | ⟨silent,marks',ended,result⟩
      · rw [passed] at silent entry
        exact .inl ⟨l :: before,m,after,v,by simp [split],by simpa [answer,noEntry] using silent,
          by simpa [insectAfter] using entry,result⟩
      · rw [passed] at silent
        exact .inr ⟨by simpa [answer,noEntry] using silent,marks',ended.other,result⟩

theorem takeWhile_ne {c : UInt8} {p : Bytes} (absent : c ∉ p) (rest : Bytes) :
    (p++c :: rest).takeWhile (· ≠ c) = p := by
  rw [takeWhile_append_of_pos]
  · simp
  · intro d at_
    simpa using fun same : d = c => absent (same ▸ at_)

/-- The key of a line, up to its equals sign. -/
def keyOf (l : Bytes) : Bytes := stripBlanks (l.takeWhile (· ≠ byte '='))

theorem keyOf_entry {key blanks : Bytes} (keyed : KeyName key) (allBlank : ∀ c ∈ blanks, blank c = true) (r : Bytes) :
    keyOf (key++(blanks++byte '=' :: r)) = key := by
  have absent : byte '=' ∉ key++blanks := by
    intro at_
    rcases mem_append.mp at_ with at_ | at_
    · exact keyed.equals at_
    · simpa [blank_equals] using allBlank _ at_
  rw [keyOf,← append_assoc,takeWhile_ne absent,stripBlanks_append_blanks keyed.ends allBlank]

theorem skipBlanks_split (p : Bytes) : ∃ blanks, (∀ c ∈ blanks, blank c = true) ∧ p = blanks++skipBlanks p :=
  ⟨p.takeWhile blank,fun _ at_ => mem_takeWhile_imp at_,(takeWhile_append_dropWhile).symm⟩

theorem valueOf_eq_some {key l v : Bytes} (found : valueOf key l = some v) :
    ∃ blanks r, (∀ c ∈ blanks, blank c = true) ∧ l = key++(blanks++byte '=' :: r) ∧ v = skipBlanks r := by
  rw [valueOf] at found
  split_ifs at found with is_
  simp only [Bool.and_eq_true,decide_eq_true_eq, isPrefixOf_iff_prefix] at is_
  obtain ⟨⟨rest,rfl⟩,equals⟩ := is_
  rw [drop_left] at equals found
  obtain ⟨blanks,allBlank,split⟩ := skipBlanks_split rest
  cases shape : skipBlanks rest with
  | nil => simp [shape] at equals
  | cons c r =>
    simp only [shape,head?_cons,Option.some.injEq] at equals
    simp only [shape,tail_cons,Option.some.injEq] at found
    refine ⟨blanks,r,allBlank,?_,found.symm⟩
    rw [← equals,← shape,← split]

theorem valueOf_entry {key key' blanks : Bytes} (keyed : KeyName key) (keyed' : KeyName key')
    (allBlank : ∀ c ∈ blanks, blank c = true) (r : Bytes) :
    valueOf key' (key++(blanks++byte '=' :: r)) = if key' = key then some (skipBlanks r) else none := by
  split_ifs with same
  · subst same
    have behind : skipBlanks (blanks++byte '=' :: r) = byte '=' :: r := by
      rw [skipBlanks_blanks allBlank]
      exact skipBlanks_of_begins (by simp [blank_equals])
    rw [valueOf,if_pos]
    · simp [behind]
    · simp [behind]
  · cases found : valueOf key' (key++(blanks++byte '=' :: r)) with
    | none => rfl
    | some v =>
      obtain ⟨blanks',r',allBlank',split,_⟩ := valueOf_eq_some found
      have := keyOf_entry keyed allBlank r
      rw [split,keyOf_entry keyed' allBlank'] at this
      exact absurd this same

theorem skipBlanks_entry {key indent blanks : Bytes} (keyed : KeyName key) (indented : ∀ c ∈ indent, blank c = true)
    (allBlank : ∀ c ∈ blanks, blank c = true) (r : Bytes) :
    ∃ c q blanks', (∀ c ∈ blanks', blank c = true) ∧ c ≠ byte '[' ∧ c :: q = key++(blanks'++byte '=' :: r) ∧
      skipBlanks (indent++(key++(blanks++byte '=' :: r))) = c :: q := by
  rw [skipBlanks_blanks indented]
  cases key with
  | nil =>
    refine ⟨byte '=',r,[],by simp,equals_ne_bracket,rfl,?_⟩
    rw [nil_append,skipBlanks_blanks allBlank]
    exact skipBlanks_of_begins (by simp [blank_equals])
  | cons c key =>
    have first := keyed.begins c (by simp)
    exact ⟨c,_,blanks,allBlank,first.2.1,rfl,skipBlanks_of_begins (by simpa using first.1)⟩

theorem entryLine_entry {key key' : Bytes} (indent blanks : Bytes) (keyed : KeyName key) (keyed' : KeyName key')
    (indented : ∀ c ∈ indent, blank c = true) (allBlank : ∀ c ∈ blanks, blank c = true) (insect : Bool) (r : Bytes) :
    entryLine key' insect (indent++(key++(blanks++byte '=' :: r))) =
      if insect = true ∧ key' = key then some (skipBlanks r) else none := by
  obtain ⟨c,q,blanks',allBlank',first,same,left⟩ := skipBlanks_entry keyed indented allBlank r
  rw [entryLine,left]
  simp only [if_neg first]
  rw [same,valueOf_entry keyed keyed' allBlank']
  cases insect <;> simp

theorem insectLine_entry {section_ key : Bytes} (indent blanks : Bytes) (keyed : KeyName key)
    (indented : ∀ c ∈ indent, blank c = true) (allBlank : ∀ c ∈ blanks, blank c = true) (insect : Bool) (r : Bytes) :
    insectLine section_ insect (indent++(key++(blanks++byte '=' :: r))) = insect := by
  obtain ⟨c,q,_,_,first,_,left⟩ := skipBlanks_entry keyed indented allBlank r
  simp [insectLine,left,first]

theorem entryLine_shape {key l v : Bytes} (entry : entryLine key insect l = some v) :
    insect = true ∧ ∃ indent blanks gap, (∀ c ∈ indent, blank c = true) ∧ (∀ c ∈ blanks, blank c = true) ∧
      (∀ c ∈ gap, blank c = true) ∧ l = indent++(key++(blanks++byte '=' :: (gap++v))) := by
  obtain ⟨indent,indented,split⟩ := skipBlanks_split l
  rw [entryLine] at entry
  split at entry
  · simp at entry
  · rename_i c r left
    split_ifs at entry with header inside
    obtain ⟨blanks,q,allBlank,whole,rfl⟩ := valueOf_eq_some entry
    obtain ⟨gap,gapped,gapSplit⟩ := skipBlanks_split q
    refine ⟨inside,indent,blanks,gap,indented,allBlank,gapped,?_⟩
    rw [← gapSplit,← whole,← left]
    exact split

def headerLine (section_ : Bytes) : Bytes := byte '[' :: section_++[byte ']']

theorem heads_header {section_ section' : Bytes} (name : SectionName section_) (name' : SectionName section') (r : Bytes) :
    heads section' (section_++byte ']' :: r) = decide (section' = section_) := by
  by_cases same : section' = section_
  · simp [heads,same]
  · rw [decide_eq_false same,Bool.eq_false_iff]
    intro headed
    simp only [heads,Bool.and_eq_true,decide_eq_true_eq, isPrefixOf_iff_prefix] at headed
    obtain ⟨⟨rest,split⟩,bracket⟩ := headed
    rw [← split,drop_left] at bracket
    obtain ⟨q,rfl⟩ : ∃ q, rest = byte ']' :: q := by
      cases rest with
      | nil => simp at bracket
      | cons d q => exact ⟨q,by simpa using bracket⟩
    have := takeWhile_ne name.bracket r
    rw [← split,takeWhile_ne name'.bracket] at this
    exact same this

theorem heads_unique {section_ section' r : Bytes} (name : SectionName section_) (name' : SectionName section')
    (headed : heads section_ r = true) (headed' : heads section' r = true) : section' = section_ := by
  have shape := headed
  simp only [heads,Bool.and_eq_true,decide_eq_true_eq, isPrefixOf_iff_prefix] at shape
  obtain ⟨⟨rest,rfl⟩,bracket⟩ := shape
  rw [drop_left] at bracket
  obtain ⟨q,rfl⟩ : ∃ q, rest = byte ']' :: q := by
    cases rest with
    | nil => simp at bracket
    | cons d q => exact ⟨q,by simpa using bracket⟩
  rw [heads_header name name'] at headed'
  simpa using headed'

theorem insectAfter_unique {section_ section' : Bytes} (name : SectionName section_) (name' : SectionName section')
    (differ : section' ≠ section_) {insect insect' : Bool} (apart : ¬(insect = true ∧ insect' = true))
    (inside : insectAfter section_ insect lines = true) : insectAfter section' insect' lines = false := by
  induction lines generalizing insect insect' with
  | nil =>
    simp only [insectAfter,foldl_nil] at inside ⊢
    simpa [inside] using apart
  | cons l lines ih =>
    refine ih ?_ inside
    rintro ⟨one,two⟩
    unfold insectLine at one two
    split at one
    · rename_i left
      simp only [left] at two
      exact apart ⟨one,two⟩
    · rename_i c r left
      simp only [left] at two
      by_cases header : c = byte '['
      · rw [if_pos header] at one two
        exact differ (heads_unique name name' one two)
      · rw [if_neg header] at one two
        exact apart ⟨one,two⟩

theorem heading_length {section_ key : Bytes} {ll sl kl : Nat} (length : kl = 0 ∧ sl = 0 ∧ ll = 0 ∨
    kl = key.length+1 ∧ (sl = 0 ∧ ll = 0 ∨ sl = section_.length+3 ∧ ll ≤ 1)) :
    (heading section_ key ll sl kl).length = ll+sl+kl := by
  rcases length with ⟨rfl,rfl,rfl⟩ | ⟨rfl,⟨rfl,rfl⟩ | ⟨rfl,small⟩⟩
  · rfl
  · simp [heading]
  · rcases Nat.le_one_iff_eq_zero_or_eq_one.mp small with rfl | rfl
    · simp [heading]
      omega
    · simp [heading]
      omega

variable {data : Option Bytes}

theorem insert_eq {front gone ce : Bytes} (section_ key value : Bytes) (ll sl kl : Nat)
    (start : data.getD [] = front++(gone++ce)) (length : kl = 0 ∧ sl = 0 ∧ ll = 0 ∨
      kl = key.length+1 ∧ (sl = 0 ∧ ll = 0 ∨ sl = section_.length+3 ∧ ll ≤ 1)) :
    insert data (gone++ce) ce section_ key value (data.getD []).length ll sl kl =
      ⟨(front++(heading section_ key ll sl kl++(value++newline :: ce))).length+1,
        front++(heading section_ key ll sl kl++(value++newline :: ce))++[0]⟩ := by
  have size := heading_length length
  have rest : (if data.isSome then ce else []) = ce := by
    cases data with
    | some _ => rfl
    | none => simpa [eq_comm] using (append_eq_nil_iff.mp (append_eq_nil_iff.mp start.symm).2).2.symm
  have behind : front.length+(gone.length+ce.length)-(front.length+(gone.length+ce.length)-ce.length) = ce.length := by
    omega
  have before : front.length+(gone.length+ce.length)-(gone.length+ce.length) = front.length := by omega
  simp only [insert,start,length_append,length_cons,size,before,behind,take_length,rest, take_left,Buffer.mk.injEq]
  refine ⟨?_,by simp⟩
  omega

theorem heading_key (section_ key : Bytes) : heading section_ key 0 0 (key.length+1) = key++[byte '='] := by
  simp [heading]

theorem heading_section (section_ key : Bytes) :
    heading section_ key 0 (section_.length+3) (key.length+1) = headerLine section_++newline :: (key++[byte '=']) := by
  simp [heading,headerLine]

theorem heading_gap (section_ key : Bytes) : heading section_ key 1 (section_.length+3) (key.length+1) =
    newline :: (headerLine section_++newline :: (key++[byte '='])) := by
  simp [heading,headerLine]

/-- The lines of a text with an entry written into it. -/
structure Written (section_ key value : Bytes) (lines written : List Bytes) : Prop where
  whole : Whole written
  own : answer section_ key false written = some value
  other : ∀ section' key', SectionName section' → KeyName key' → (section',key') ≠ (section_,key) →
    answer section' key' false written = answer section' key' false lines

theorem entryLine_own {key value : Bytes} (keyed : KeyName key) (valued : Value value) :
    entryLine key true (key++byte '=' :: value) = some value := by
  have read := entryLine_entry [] [] keyed keyed (by simp) (by simp) true value
  simpa [skipBlanks_of_begins valued.begins] using read

theorem entryLine_other {key key' value : Bytes} (keyed : KeyName key) (keyed' : KeyName key')
    (apart : insect = true → key' ≠ key) : entryLine key' insect (key++byte '=' :: value) = none := by
  have read := entryLine_entry [] [] keyed keyed' (by simp) (by simp) insect value
  rw [if_neg (by rintro ⟨inside,same⟩; exact apart inside same)] at read
  simpa using read

variable {section_ key value : Bytes}

theorem insectLine_own (keyed : KeyName key) : insectLine section_ insect (key++byte '=' :: value) = insect := by
  simpa using insectLine_entry [] [] keyed (by simp) (by simp) insect value

theorem line_own {key value : Bytes} (keyed : KeyName key) (valued : Value value) :
    newline ∉ key++byte '=' :: value := by
  simp [keyed.line,valued.line,newline_ne_equals]

theorem apart_of_ne {section_ section' key key' : Bytes} (name : SectionName section_) (name' : SectionName section')
    (differ : (section',key') ≠ (section_,key)) {before : List Bytes}
    (inside : insectAfter section_ false before = true) (inside' : insectAfter section' false before = true) :
    key' ≠ key := by
  rintro rfl
  have : section' ≠ section_ := by
    rintro rfl
    exact differ rfl
  have other : insectAfter section' false before = false := insectAfter_unique name name' this (by simp) inside
  simp [other] at inside'

theorem stripBlanks_value {value : Bytes} (valued : Value value) : stripBlanks value = value :=
  stripBlanks_of_ends valued.ends

theorem written_replaced {before after : List Bytes} {l v : Bytes}
    (name : SectionName section_) (keyed : KeyName key) (valued : Value value) (whole : Whole (before++l :: after))
    (silent : answer section_ key false before = none)
    (entry : entryLine key (insectAfter section_ false before) l = some v) :
    ∃ front, l = front++v ∧ Written section_ key value (before++l :: after) (before++(front++value) :: after) := by
  obtain ⟨inside,indent,blanks,gap,indented,allBlank,gapped,shape⟩ := entryLine_shape entry
  have line : newline ∉ l := whole l (by simp)
  have assoc : ∀ w, indent++(key++(blanks++byte '=' :: gap))++w = indent++(key++(blanks++byte '=' :: (gap++w))) := by
    simp
  refine ⟨indent++(key++(blanks++byte '=' :: gap)),by rw [assoc,shape],?_,?_,?_⟩
  · intro m at_
    rw [shape] at line
    simp only [mem_append,mem_cons] at at_
    rcases at_ with at_ | rfl | at_
    · exact whole m (by simp [at_])
    · simp only [mem_append,mem_cons,not_or] at line ⊢
      exact ⟨⟨line.1,line.2.1,line.2.2.1,line.2.2.2.1,line.2.2.2.2.1⟩,valued.line⟩
    · exact whole m (by simp [at_])
  · rw [answer_append,silent,Option.none_or,answer,inside,assoc,
      entryLine_entry _ _ keyed keyed indented allBlank,if_pos ⟨rfl,rfl⟩,skipBlanks_blanks gapped,
      skipBlanks_of_begins valued.begins]
    exact congrArg some (stripBlanks_value valued)
  · intro section' key' name' keyed' differ
    have none_ : ∀ r, entryLine key' (insectAfter section' false before)
        (indent++(key++(blanks++byte '=' :: r))) = none := by
      intro r
      rw [entryLine_entry _ _ keyed keyed' indented allBlank,if_neg]
      rintro ⟨inside',same⟩
      exact apart_of_ne name name' differ inside inside' same
    rw [answer_append,answer_append,answer,answer,assoc,shape,none_,none_,
      insectLine_entry _ _ keyed indented allBlank,insectLine_entry _ _ keyed indented allBlank]

theorem written_appended {before after : List Bytes} (name : SectionName section_)
    (keyed : KeyName key) (valued : Value value) (whole : Whole (before++after))
    (silent : answer section_ key false (before++after) = none) (inside : insectAfter section_ false before = true) :
    Written section_ key value (before++after) (before++(key++byte '=' :: value) :: after) := by
  rw [answer_append,Option.or_eq_none_iff] at silent
  refine ⟨?_,?_,?_⟩
  · intro m at_
    simp only [mem_append,mem_cons] at at_
    rcases at_ with at_ | rfl | at_
    · exact whole m (by simp [at_])
    · exact line_own keyed valued
    · exact whole m (by simp [at_])
  · rw [answer_append,silent.1,Option.none_or,answer,inside,entryLine_own keyed valued]
    exact congrArg some (stripBlanks_value valued)
  · intro section' key' name' keyed' differ
    rw [answer_append,answer_append,answer,
      entryLine_other keyed keyed' (apart_of_ne name name' differ inside),insectLine_own keyed]

theorem written_section (before gap : List Bytes) {after : List Bytes} (name : SectionName section_)
    (keyed : KeyName key) (valued : Value value) (whole : Whole (before++after)) (gapped : ∀ l ∈ gap, l = [])
    (silent : answer section_ key false (before++after) = none) (blanks : ∀ l ∈ after, skipBlanks l = []) :
    Written section_ key value (before++after)
      (before++(gap++headerLine section_ :: (key++byte '=' :: value) :: after)) := by
  have gapBlank : ∀ l ∈ gap, skipBlanks l = [] := fun l at_ => by rw [gapped l at_]; rfl
  have header : skipBlanks (headerLine section_) = headerLine section_ :=
    skipBlanks_of_begins (by simp [headerLine,show blank (byte '[') = false by decide])
  have noEntry : ∀ key' insect, entryLine key' insect (headerLine section_) = none := by
    intro key' insect
    rw [entryLine,header]
    simp [headerLine]
  have inSection : ∀ section' insect, SectionName section' →
      insectLine section' insect (headerLine section_) = decide (section' = section_) := by
    intro section' insect name'
    rw [insectLine,header]
    simpa [headerLine] using heads_header name name' []
  have behindGap : ∀ section' key' insect lines, answer section' key' insect (gap++lines) =
      answer section' key' insect lines := by
    intro section' key' insect lines
    have stays : insectAfter section' insect gap = insect := by
      clear gapped
      induction gap with
      | nil => rfl
      | cons l gap ih =>
        simpa [insectAfter,insectLine_blank (gapBlank l (by simp))] using ih fun m at_ => gapBlank m (by simp [at_])
    rw [answer_append,answer_blank gapBlank,Option.none_or,stays]
  refine ⟨?_,?_,?_⟩
  · intro m at_
    simp only [mem_append,mem_cons] at at_
    rcases at_ with at_ | at_ | rfl | rfl | at_
    · exact whole m (by simp [at_])
    · simp [gapped m at_]
    · simp [headerLine,name.line,newline_ne_bracket,show newline ≠ byte '[' by decide]
    · exact line_own keyed valued
    · exact whole m (by simp [at_])
  · rw [answer_append,Option.or_eq_none_iff] at silent
    rw [answer_append,silent.1,Option.none_or,behindGap,answer,noEntry,inSection section_ _ name,answer,
      decide_eq_true rfl,entryLine_own keyed valued]
    exact congrArg some (stripBlanks_value valued)
  · intro section' key' name' keyed' differ
    have apart : decide (section' = section_) = true → key' ≠ key := by
      rintro same rfl
      exact differ (by simpa using same)
    rw [answer_append section' key' false before after,answer_blank blanks,
      answer_append section' key' false before,behindGap,answer,noEntry,inSection section' _ name',answer,
      entryLine_other keyed keyed' apart]
    simp only [answer_blank blanks]

theorem iniEntry_looks {section_ key : Bytes} (name : SectionName section_)
    (keyed : KeyName key) (whole : Whole lines) (start : data.getD [] = unlines lines) :
    iniEntry data section_ key none = some ((answer section_ key false lines).elim .null .value) := by
  rcases scan_lines name.line keyed.line whole .start with
    ⟨before,l,after,v,split,silent,entry,result⟩ | ⟨silent,marks,ended,result⟩
  · have found : answer section_ key false lines = some (stripBlanks v) := by
      have silent' : answer section_ key false before = none := silent
      have entry' : entryLine key (insectAfter section_ false before) l = some v := entry
      rw [split,answer_append,silent',Option.none_or,answer,entry']
    have length : (v++newline :: unlines after).length-(unlines after).length-1 = v.length := by
      simp only [length_append,length_cons]
      omega
    simp only [iniEntry,start,result,found,length,take_left,Option.elim]
  · have silent' : answer section_ key false lines = none := silent
    simp only [iniEntry,start,result,silent',Option.elim]

theorem iniEntry_writes
    (name : SectionName section_) (keyed : KeyName key) (valued : Value value) (whole : Whole lines)
    (start : data.getD [] = unlines lines) :
    ∃ written, Written section_ key value lines written ∧ iniEntry data section_ key (some value) =
      some (.rewritten ⟨(unlines written).length+1,unlines written++[0]⟩) := by
  rcases scan_lines name.line keyed.line whole .start with
    ⟨before,l,after,v,split,silent,entry,result⟩ | ⟨silent,marks,ended,result⟩
  · subst split
    obtain ⟨front,shape,written⟩ := written_replaced name keyed valued whole silent entry
    refine ⟨_,written,?_⟩
    have start' : data.getD [] = unlines before++front++(v++[newline]++unlines after) := by
      rw [start]
      simp [shape]
    have length : (data.getD []).length-(unlines after).length+(unlines after).length = (data.getD []).length := by
      rw [start']
      simp
      omega
    have filled := insert_eq section_ key value 0 0 0 start'
      (.inl ⟨rfl,rfl,rfl⟩)
    rw [← start] at result
    simp only [iniEntry,result]
    rw [length]
    simpa [heading] using filled
  · have scanned : scan section_ key .start (data.getD []) = some (.ended marks) := by rw [start,result]
    cases sec : marks.secinsert with
    | some ce =>
      obtain ⟨before,after,split,inside,mark⟩ : ∃ before after, lines = before++after ∧
          insectAfter section_ false before = true ∧ marks.secinsert = some (unlines after) := by
        rcases ended.sec with same | found
        · simp [sec,Marks.start] at same
        · exact found
      obtain rfl : ce = unlines after := by simpa [sec] using mark
      subst split
      refine ⟨_,written_appended name keyed valued whole silent inside,?_⟩
      have start' : data.getD [] = unlines before++([]++unlines after) := by simp [start]
      have filled := insert_eq section_ key value 0 0 (key.length+1) start' (.inr ⟨rfl,.inl ⟨rfl,rfl⟩⟩)
      simp only [iniEntry,scanned,sec]
      simpa [heading_key] using filled
    | none =>
      rcases ended.past sec with ⟨none_,blanks⟩ | ⟨before,after,split,blanks,mark⟩
      · have none' : marks.pastinsert = none := none_
        refine ⟨_,written_section [] [] name keyed valued whole (by simp) silent blanks,?_⟩
        have start' : data.getD [] = []++([]++unlines lines) := by simp [start]
        have filled := insert_eq section_ key value 0 (section_.length+3) (key.length+1) start' (.inr ⟨rfl,.inr ⟨rfl,by simp⟩⟩)
        simp only [iniEntry,scanned,sec,none']
        rw [start] at filled ⊢
        simpa [heading_section] using filled
      · subst split
        refine ⟨_,written_section before [[]] name keyed valued whole (by simp) silent blanks,?_⟩
        have start' : data.getD [] = unlines before++([]++unlines after) := by simp [start]
        have filled := insert_eq section_ key value 1 (section_.length+3) (key.length+1) start' (.inr ⟨rfl,.inr ⟨rfl,by simp⟩⟩)
        simp only [iniEntry,scanned,sec,mark]
        simpa [heading_gap] using filled

/-- What an ini file sets, in the order of `iniMerge`: sections, keys and values. -/
def given (section_ : Option Bytes) (p : Bytes) : List (Bytes × Bytes × Bytes) :=
  match read : readItem p with
  | .bail => []
  | .skip q => given section_ q
  | .section_ name q => given (some name) q
  | .entry key value q =>
    match section_ with
    | none => given section_ q
    | some name => (name,key,value) :: given section_ q
termination_by p.length
decreasing_by
  all_goals exact readItem_length (by simp [read])

def lastValue (section_ key : Bytes) : List (Bytes × Bytes × Bytes) → Option Bytes
  | [] => none
  | entry :: entries =>
    (lastValue section_ key entries).or (if entry.1 = section_ ∧ entry.2.1 = key then some entry.2.2 else none)

theorem mem_upTo {c : UInt8} {p name q : Bytes} (read : upTo c p = some (name,q)) :
    name = p.takeWhile (before c) ∧ newline ∉ name ∧ c ∉ name := by
  rw [upTo] at read
  split_ifs at read with found
  simp only [Option.some.injEq,Prod.mk.injEq] at read
  refine ⟨read.1.symm,?_,?_⟩ <;>
  · intro at_
    rw [← read.1] at at_
    have := mem_takeWhile_imp at_
    simp [before] at this

theorem readItem_section {p name q : Bytes} (read : readItem p = .section_ name q) : SectionName name := by
  unfold readItem at read
  dsimp only at read
  split at read
  · simp at read
  · split_ifs at read with ends comment header
    · split at read <;> simp at read
    · split at read
      · simp at read
      · rename_i found
        simp at read
        have clean := mem_upTo found
        exact ⟨read.1 ▸ clean.2.1,read.1 ▸ clean.2.2⟩
    · split at read <;> simp at read

theorem stripBlanks_front (p : Bytes) : stripBlanks p <+: p := rdropWhile_prefix blank p

theorem head_of_front {p q : Bytes} (pre : p <+: q) : ∀ c ∈ p.head?, c ∈ q.head? := by
  obtain ⟨rest,rfl⟩ := pre
  intro c first
  cases p with
  | nil => simp at first
  | cons d p => simpa using first

theorem readItem_entry {p key value q : Bytes} (read : readItem p = .entry key value q) :
    KeyName key ∧ Value value := by
  have begins := skipBlanks_begins p
  unfold readItem at read
  dsimp only at read
  split at read
  · simp at read
  · rename_i c r left
    split_ifs at read with ends comment header
    · split at read <;> simp at read
    · split at read <;> simp at read
    · split at read
      · simp at read
      · rename_i name rest found
        obtain ⟨front,line,equals⟩ := mem_upTo found
        simp only [Item.entry.injEq] at read
        obtain ⟨rfl,rfl,rfl⟩ := read
        have pre := stripBlanks_front name
        refine ⟨⟨fun at_ => line (pre.subset at_),fun at_ => equals (pre.subset at_),?_,stripBlanks_ends name⟩,?_⟩
        · intro d first
          have : d ∈ name.head? := head_of_front pre d first
          have line' : name <+: skipBlanks p := by
            rw [front]
            exact takeWhile_prefix _
          have := head_of_front line' d this
          rw [left] at this
          obtain rfl : c = d := by simpa using this
          exact ⟨begins c (by simp [left]),header,comment⟩
        · have pre := (stripBlanks_front ((skipBlanks rest).takeWhile (· ≠ newline))).trans
            (List.takeWhile_prefix _)
          refine ⟨fun at_ => ?_,fun d first => ?_,stripBlanks_ends _⟩
          · have := mem_takeWhile_imp ((stripBlanks_front _).subset at_)
            simp at this
          · exact skipBlanks_begins rest d (head_of_front pre d first)

theorem iniMergeFrom_lines (section_ : Option Bytes) (p : Bytes)
    (name : ∀ s ∈ section_, SectionName s) (whole : Whole lines) (start : data.getD [] = unlines lines) :
    ∃ merged lines', iniMergeFrom data section_ p = some merged ∧ Whole lines' ∧ merged.getD [] = unlines lines' ∧
      ∀ section' key', SectionName section' → KeyName key' → answer section' key' false lines' =
        (lastValue section' key' (given section_ p)).or (answer section' key' false lines) := by
  fun_induction given section_ p generalizing data lines with
  | case1 section_ p read =>
    refine ⟨data,lines,?_,whole,start,by simp [lastValue]⟩
    rw [iniMergeFrom]
    split <;> simp_all
  | case2 section_ p q read ih =>
    have same : iniMergeFrom data section_ p = iniMergeFrom data section_ q := by
      rw [iniMergeFrom]
      split <;> simp_all
    rw [same]
    exact ih name whole start
  | case3 section_ p name' q read ih =>
    have same : iniMergeFrom data section_ p = iniMergeFrom data (some name') q := by
      rw [iniMergeFrom]
      split <;> simp_all
    rw [same]
    exact ih (by simpa using readItem_section read) whole start
  | case4 p key value q read ih =>
    have same : iniMergeFrom data none p = iniMergeFrom data none q := by
      rw [iniMergeFrom]
      split <;> simp_all
    rw [same]
    exact ih name whole start
  | case5 p key value q read name' ih =>
    obtain ⟨keyed,valued⟩ := readItem_entry read
    obtain ⟨written,facts,wrote⟩ := iniEntry_writes (name name' rfl) keyed valued whole start
    have same : iniMergeFrom data (some name') p = iniMergeFrom (some (unlines written)) (some name') q := by
      rw [iniMergeFrom]
      split <;> simp_all [Buffer.string]
    rw [same]
    have begun : (some (unlines written)).getD [] = unlines written := rfl
    obtain ⟨merged,lines',result,whole',start',answers⟩ := ih name facts.whole begun
    refine ⟨merged,lines',result,whole',start',fun section' key' sectioned keyed' => ?_⟩
    rw [answers section' key' sectioned keyed',lastValue,Option.or_assoc]
    congr 1
    by_cases own : name' = section' ∧ key = key'
    · obtain ⟨rfl,rfl⟩ := own
      simp [facts.own]
    · rw [if_neg own,facts.other section' key' sectioned keyed' (by simpa [eq_comm] using own), Option.none_or]

end KdeWorkspace.IniFile
