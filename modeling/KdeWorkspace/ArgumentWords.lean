import KdeWorkspace.SessionList

/-!
The command lines of kdm: `parseArgs` splits a string at the blanks that are not quoted. For every word
one loop measures it, and another one copies it to memory of that size. A pointer is what is left of the
string, and no character is read behind the one that ends it: there both loops fail.

`parseArgs_reference_iff` says that exactly the strings whose quotes are all closed are split without a
failure. The memory does not run out.
-/
namespace KdeWorkspace.ArgumentWords
open List
open PipeCodec (Bytes)
open SessionList (byte text isSpace)

def backslash : UInt8 := byte '\\'
def singleQuote : UInt8 := byte '\''
def doubleQuote : UInt8 := byte '"'

/-- Memory for `wlen` characters and the one that ends them, and what has been written there. -/
structure Word where
  wlen : Nat
  str : Bytes
deriving Repr, DecidableEq

def measureSingle (wlen : Nat) : Bytes → Bytes × Nat
  | [] => ([],wlen)
  | c :: string => if c = singleQuote then (c :: string,wlen) else measureSingle (wlen+1) string

def measureDouble (wlen : Nat) : Bytes → Bytes × Nat
  | [] => ([],wlen)
  | c :: string =>
    if c = doubleQuote then (c :: string,wlen)
    else if c = backslash then
      match string with
      | [] => ([],wlen+1)
      | _ :: string => measureDouble (wlen+1) string
    else measureDouble (wlen+1) string

/-- Where `string` is after the body of the loop, and the length so far. -/
def measureStep (wlen : Nat) (c : UInt8) (string : Bytes) : Bytes × Nat :=
  if c = backslash then
    match string with
    | [] => ([c],wlen+1)
    | d :: string => (d :: string,wlen+1)
  else if c = singleQuote then measureSingle wlen string
  else if c = doubleQuote then measureDouble wlen string
  else (c :: string,wlen+1)

theorem measureSingle_length (wlen : Nat) (string : Bytes) : (measureSingle wlen string).1.length ≤ string.length := by
  induction string generalizing wlen with
  | nil => exact Nat.le_refl _
  | cons c string ih =>
    rw [measureSingle]
    split
    · exact Nat.le_refl _
    · exact Nat.le_succ_of_le (ih (wlen+1))

theorem measureDouble_length (wlen : Nat) (string : Bytes) : (measureDouble wlen string).1.length ≤ string.length := by
  fun_induction measureDouble wlen string with
  | case1 => exact Nat.le_refl _
  | case2 => exact Nat.le_refl _
  | case3 => exact Nat.zero_le _
  | case4 => simp only [length_cons]; omega
  | case5 => simp only [length_cons]; omega

theorem measureStep_length (wlen : Nat) (c : UInt8) (string : Bytes) :
    (measureStep wlen c string).1.length ≤ string.length+1 := by
  have quoted := measureSingle_length wlen string
  have grouped := measureDouble_length wlen string
  unfold measureStep
  split
  · split <;> simp
  · split
    · omega
    · split
      · omega
      · simp

/-- The loop, from a character that belongs to the word. None is a character behind the end. -/
def measureWord (wlen : Nat) (c : UInt8) (string : Bytes) : Option (Bytes × Nat) :=
  match _stopped : measureStep wlen c string with
  | ([],_) => none
  | ([_],len) => some ([],len)
  | (_ :: d :: rest,len) => if isSpace d then some (d :: rest,len) else measureWord len d rest
termination_by string.length
decreasing_by
  have bound := measureStep_length wlen c string
  rw [_stopped] at bound
  simp only [List.length_cons] at bound
  omega

def copySingle (str : Bytes) : Bytes → Bytes × Bytes
  | [] => ([],str)
  | c :: word => if c = singleQuote then (c :: word,str) else copySingle (str ++ [c]) word

def copyDouble (str : Bytes) : Bytes → Bytes × Bytes
  | [] => ([],str)
  | c :: word =>
    if c = doubleQuote then (c :: word,str)
    else if c = backslash then
      match word with
      | [] => ([],str ++ [c])
      | d :: word => copyDouble (str ++ [d]) word
    else copyDouble (str ++ [c]) word

def copyStep (str : Bytes) (c : UInt8) (word : Bytes) : Bytes × Bytes :=
  if c = backslash then
    match word with
    | [] => ([c],str ++ [c])
    | d :: word => (d :: word,str ++ [d])
  else if c = singleQuote then copySingle str word
  else if c = doubleQuote then copyDouble str word
  else (c :: word,str ++ [c])

theorem copySingle_length (str word : Bytes) : (copySingle str word).1.length ≤ word.length := by
  induction word generalizing str with
  | nil => exact Nat.le_refl _
  | cons c word ih =>
    rw [copySingle]
    split
    · exact Nat.le_refl _
    · exact Nat.le_succ_of_le (ih (str ++ [c]))

theorem copyDouble_length (str word : Bytes) : (copyDouble str word).1.length ≤ word.length := by
  fun_induction copyDouble str word with
  | case1 => exact Nat.le_refl _
  | case2 => exact Nat.le_refl _
  | case3 => exact Nat.zero_le _
  | case4 => simp only [length_cons]; omega
  | case5 => simp only [length_cons]; omega

theorem copyStep_length (str : Bytes) (c : UInt8) (word : Bytes) : (copyStep str c word).1.length ≤ word.length+1 := by
  have quoted := copySingle_length str word
  have grouped := copyDouble_length str word
  unfold copyStep
  split
  · split <;> simp
  · split
    · omega
    · split
      · omega
      · simp

def copyWord (str : Bytes) (c : UInt8) (word : Bytes) : Option (Bytes × Bytes) :=
  match _stopped : copyStep str c word with
  | ([],_) => none
  | ([_],copied) => some ([],copied)
  | (_ :: d :: rest,copied) => if isSpace d then some (d :: rest,copied) else copyWord copied d rest
termination_by word.length
decreasing_by
  have bound := copyStep_length str c word
  rw [_stopped] at bound
  simp only [List.length_cons] at bound
  omega

variable {c : UInt8}

theorem measureWord_length {wlen len : Nat} {string rest : Bytes}
    (measured : measureWord wlen c string = some (rest,len)) : rest.length ≤ string.length := by
  fun_induction measureWord wlen c string with
  | case1 => cases measured
  | case2 =>
    cases measured
    exact Nat.zero_le _
  | case3 wlen c string _ d rest len stopped =>
    cases measured
    have bound := measureStep_length wlen c string
    rw [stopped] at bound
    simpa using bound
  | case4 wlen c string _ d rest len stopped _ ih =>
    have bound := measureStep_length wlen c string
    rw [stopped] at bound
    simp only [length_cons] at bound
    have := ih measured
    omega

/-- None where one of the loops reads a character behind the end. -/
def parseArgs (argv : List Word) : Bytes → Option (List Word)
  | [] => some argv
  | c :: string =>
    if isSpace c then parseArgs argv string
    else
      match _measured : measureWord 0 c string with
      | none => none
      | some (rest,wlen) =>
        match copyWord [] c string with
        | none => none
        | some (_,str) => parseArgs (argv ++ [⟨wlen,str⟩]) rest
termination_by string => string.length
decreasing_by
  · simp
  · have bound := measureWord_length _measured
    simp only [List.length_cons]
    omega

inductive Quote
  | none
  | single
  | double
deriving Repr, DecidableEq

/-- What is known in front of a character: the words before, the word that it may belong to, the quote
that is open, and whether a backslash quotes it. -/
structure Splitter where
  words : List Bytes
  word : Option Bytes
  quote : Quote
  quoted : Bool
deriving Repr, DecidableEq

def Splitter.begun (s : Splitter) : Bytes := s.word.getD []

def Splitter.add (s : Splitter) (c : UInt8) : Splitter := { s with word := some (s.begun ++ [c]), quoted := false }

def Splitter.close (s : Splitter) : Splitter := { s with words := s.words ++ s.word.toList, word := .none }

def Splitter.step (s : Splitter) (c : UInt8) : Splitter :=
  if s.quoted then s.add c
  else
    match s.quote with
    | .none =>
      if isSpace c then s.close
      else if c = backslash then { s with word := some s.begun, quoted := true }
      else if c = singleQuote then { s with word := some s.begun, quote := .single }
      else if c = doubleQuote then { s with word := some s.begun, quote := .double }
      else s.add c
    | .single => if c = singleQuote then { s with quote := .none } else s.add c
    | .double =>
      if c = doubleQuote then { s with quote := .none }
      else if c = backslash then { s with quoted := true }
      else s.add c

/-- At the end a backslash that has nothing to quote stands for itself. -/
def Splitter.finish (s : Splitter) : List Bytes := (if s.quoted then (s.add backslash).close else s.close).words

def Splitter.start : Splitter := ⟨[],none,.none,false⟩

/-- The words of a command line. -/
def reference (string : Bytes) : List Bytes := (string.foldl Splitter.step .start).finish

/-- Every quote is closed. -/
def Closed (string : Bytes) : Prop := (string.foldl Splitter.step .start).quote = .none

instance (string : Bytes) : Decidable (Closed string) := inferInstanceAs (Decidable (_ = _))

/-- The words, where every quote is closed. -/
def Splitter.outcome (s : Splitter) (string : Bytes) : Option (List Bytes) :=
  if (string.foldl step s).quote = .none then some (string.foldl step s).finish else none

theorem Splitter.outcome_cons (s : Splitter) (c : UInt8) (string : Bytes) :
    s.outcome (c :: string) = (s.step c).outcome string := rfl

theorem outcome_start (string : Bytes) :
    Splitter.start.outcome string = if Closed string then some (reference string) else none := rfl

/-- In a word, outside the quotes. -/
def inWord (words : List Bytes) (str : Bytes) : Splitter := ⟨words,some str,.none,false⟩

/-- In front of a word. -/
def between (words : List Bytes) : Splitter := ⟨words,none,.none,false⟩

/-- What becomes of the rest where the body of the loop has stopped at a character. -/
def behind (words : List Bytes) (str : Bytes) : Bytes → Option (List Bytes)
  | [] => none
  | _ :: rest => (inWord words str).outcome rest

/-- The loops stop at the same character, `added` is what belongs to the word, and what comes behind it
is split as the command line is from `s` on. -/
def Reads (words : List Bytes) (str : Bytes) (s : Splitter) (string : Bytes) (measured : Bytes × Nat)
    (wlen : Nat) (copied : Bytes × Bytes) : Prop :=
  ∃ stop added, measured = (stop,wlen+added.length) ∧ copied = (stop,str ++ added) ∧
    s.outcome string = behind words (str ++ added) stop

theorem Reads.more {words : List Bytes} {str : Bytes} {s : Splitter} {string : Bytes}
    {measured : Bytes × Nat} {wlen : Nat} {copied : Bytes × Bytes}
    (reads : Reads words (str ++ [c]) s string measured (wlen+1) copied) : Reads words str s string measured wlen copied := by
  obtain ⟨stop,added,measures,copies,rest⟩ := reads
  rw [append_assoc] at copies rest
  refine ⟨stop,[c] ++ added,?_,copies,rest⟩
  rw [measures,length_append,length_singleton,Nat.add_assoc]

theorem single_reads (words : List Bytes) (str : Bytes) (wlen : Nat) (string : Bytes) :
    Reads words str ⟨words,some str,.single,false⟩ string (measureSingle wlen string) wlen (copySingle str string) := by
  induction string generalizing str wlen with
  | nil => exact ⟨[],[],rfl,by rw [copySingle,append_nil],rfl⟩
  | cons c string ih =>
    rw [measureSingle,copySingle]
    by_cases closes : c = singleQuote
    · rw [if_pos closes,if_pos closes]
      refine ⟨c :: string,[],rfl,by rw [append_nil],?_⟩
      rw [Splitter.outcome_cons,append_nil]
      simp [Splitter.step,closes,behind,inWord]
    · rw [if_neg closes,if_neg closes]
      obtain ⟨stop,added,measures,copies,rest⟩ := (ih (str ++ [c]) (wlen+1)).more
      refine ⟨stop,added,measures,copies,?_⟩
      rw [← rest,Splitter.outcome_cons]
      simp [Splitter.step,closes,Splitter.add,Splitter.begun]

theorem measureDouble_close (wlen : Nat) (string : Bytes) :
    measureDouble wlen (doubleQuote :: string) = (doubleQuote :: string,wlen) := by
  rw [measureDouble.eq_def]
  exact if_pos rfl

theorem measureDouble_plain (wlen : Nat) (string : Bytes) (other : c ≠ doubleQuote) (plain : c ≠ backslash) :
    measureDouble wlen (c :: string) = measureDouble (wlen+1) string := by
  rw [measureDouble.eq_def]
  exact (if_neg other).trans (if_neg plain)

theorem double_reads (words : List Bytes) (str : Bytes) (wlen : Nat) (string : Bytes) :
    Reads words str ⟨words,some str,.double,false⟩ string (measureDouble wlen string) wlen (copyDouble str string) := by
  fun_induction copyDouble str string generalizing wlen with
  | case1 str => exact ⟨[],[],rfl,by rw [append_nil],rfl⟩
  | case2 str string =>
    refine ⟨doubleQuote :: string,[],measureDouble_close wlen string,by rw [append_nil],?_⟩
    rw [Splitter.outcome_cons,append_nil]
    rfl
  | case3 str content =>
    refine ⟨[],[backslash],by simp [measureDouble,content],rfl,?_⟩
    rw [Splitter.outcome_cons]
    simp [Splitter.step,content,behind,Splitter.outcome]
  | case4 str d string content ih =>
    obtain ⟨stop,added,measures,copies,rest⟩ := (ih (wlen+1)).more
    refine ⟨stop,added,by simpa [measureDouble,content] using measures,copies,?_⟩
    rw [← rest,Splitter.outcome_cons,Splitter.outcome_cons]
    simp [Splitter.step,content,Splitter.add,Splitter.begun]
  | case5 str c string content plain ih =>
    obtain ⟨stop,added,measures,copies,rest⟩ := (ih (wlen+1)).more
    refine ⟨stop,added,(measureDouble_plain wlen string content plain).trans measures,copies,?_⟩
    rw [← rest,Splitter.outcome_cons]
    simp [Splitter.step,content,plain,Splitter.add,Splitter.begun]

theorem step_reads (words : List Bytes) (word : Option Bytes) (wlen : Nat) (string : Bytes)
    (filled : isSpace c = false) :
    Reads words (word.getD []) ⟨words,word,.none,false⟩ (c :: string) (measureStep wlen c string) wlen
      (copyStep (word.getD []) c string) := by
  unfold Reads
  rw [Splitter.outcome_cons]
  by_cases quotes : c = backslash
  · subst quotes
    cases string with
    | nil =>
      refine ⟨[backslash],[backslash],by simp [measureStep],by simp [copyStep],?_⟩
      simp [Splitter.step,filled,behind,inWord,Splitter.outcome,Splitter.finish,Splitter.add,Splitter.close,
        Splitter.begun]
    | cons d string =>
      refine ⟨d :: string,[d],by simp [measureStep],by simp [copyStep],?_⟩
      rw [Splitter.outcome_cons]
      simp [Splitter.step,filled,behind,inWord,Splitter.add,Splitter.begun]
  · rw [measureStep.eq_def,if_neg quotes,copyStep.eq_def,if_neg quotes]
    by_cases one : c = singleQuote
    · rw [if_pos one,if_pos one]
      have opened : Splitter.step ⟨words,word,.none,false⟩ c = ⟨words,some (word.getD []),.single,false⟩ := by
        simp only [Splitter.step,filled,if_neg quotes,if_pos one,Splitter.begun,Bool.false_eq_true,if_false]
      rw [opened]
      exact single_reads words (word.getD []) wlen string
    · rw [if_neg one,if_neg one]
      by_cases two : c = doubleQuote
      · rw [if_pos two,if_pos two]
        have opened : Splitter.step ⟨words,word,.none,false⟩ c = ⟨words,some (word.getD []),.double,false⟩ := by
          simp only [Splitter.step,filled,if_neg quotes,if_neg one,if_pos two,Splitter.begun,Bool.false_eq_true,if_false]
        rw [opened]
        exact double_reads words (word.getD []) wlen string
      · rw [if_neg two,if_neg two]
        refine ⟨c :: string,[c],rfl,rfl,?_⟩
        simp [Splitter.step,filled,quotes,one,two,behind,inWord,Splitter.add,Splitter.begun]

/-- What is left behind a word. -/
inductive Ended : Bytes → Prop
  | done : Ended []
  | blank {d : UInt8} {rest : Bytes} : isSpace d = true → Ended (d :: rest)

theorem word_reads (words : List Bytes) (word : Option Bytes) (wlen : Nat) (string : Bytes)
    (filled : isSpace c = false) :
    (∃ rest added, measureWord wlen c string = some (rest,wlen+added.length) ∧
        copyWord (word.getD []) c string = some (rest,word.getD [] ++ added) ∧ Ended rest ∧
        Splitter.outcome ⟨words,word,.none,false⟩ (c :: string) = (inWord words (word.getD [] ++ added)).outcome rest) ∨
      measureWord wlen c string = none ∧ Splitter.outcome ⟨words,word,.none,false⟩ (c :: string) = none := by
  induction length : string.length using Nat.strong_induction_on generalizing word wlen c string with
  | _ n ih =>
    obtain ⟨stop,added,measures,copies,rest⟩ := step_reads words word wlen string filled
    rw [measureWord.eq_def,copyWord.eq_def,rest]
    have bound := measureStep_length wlen c string
    rw [measures] at bound ⊢
    rw [copies]
    match stop with
    | [] => exact .inr ⟨rfl,rfl⟩
    | [_] => exact .inl ⟨[],added,rfl,rfl,.done,rfl⟩
    | _ :: d :: left =>
      cases blank : isSpace d with
      | true => exact .inl ⟨d :: left,added,by simp [blank],by simp [blank],.blank blank,rfl⟩
      | false =>
        simp only [length_cons] at bound
        have further := ih left.length (by omega) (some (word.getD [] ++ added)) (wlen+added.length) left blank rfl
        simp only [blank,Bool.false_eq_true,if_false,behind,inWord,Option.getD_some] at further ⊢
        rcases further with ⟨rest,more,measured,copied,ended,outcome⟩ | failed
        · refine .inl ⟨rest,added ++ more,?_,?_,ended,?_⟩
          · rw [measured,length_append,Nat.add_assoc]
          · rw [copied,append_assoc]
          · rw [outcome,append_assoc]
        · exact .inr failed

theorem ended_outcome {words : List Bytes} {str rest : Bytes} (ended : Ended rest) :
    (inWord words str).outcome rest = (between (words ++ [str])).outcome rest := by
  cases ended with
  | done => simp [inWord,between,Splitter.outcome,Splitter.finish,Splitter.close]
  | blank blank =>
    rw [Splitter.outcome_cons,Splitter.outcome_cons]
    simp [inWord,between,Splitter.step,blank,Splitter.close]

theorem between_blank (words : List Bytes) (string : Bytes) (blank : isSpace c = true) :
    (between words).outcome (c :: string) = (between words).outcome string := by
  rw [Splitter.outcome_cons]
  simp [between,Splitter.step,blank,Splitter.close]

theorem parseArgs_blank (argv : List Word) (string : Bytes) (blank : isSpace c = true) :
    parseArgs argv (c :: string) = parseArgs argv string := by
  rw [parseArgs,if_pos blank]

theorem parseArgs_none (argv : List Word) {string : Bytes} (filled : isSpace c = false)
    (failed : measureWord 0 c string = none) : parseArgs argv (c :: string) = none := by
  rw [parseArgs,if_neg (Bool.eq_false_iff.mp filled)]
  split
  · rfl
  · rename_i found
    rw [failed] at found
    cases found

theorem parseArgs_word (argv : List Word) {string rest stop str : Bytes} {wlen : Nat}
    (filled : isSpace c = false) (measured : measureWord 0 c string = some (rest,wlen))
    (copied : copyWord [] c string = some (stop,str)) :
    parseArgs argv (c :: string) = parseArgs (argv ++ [⟨wlen,str⟩]) rest := by
  rw [parseArgs,if_neg (Bool.eq_false_iff.mp filled)]
  split
  · rename_i failed
    rw [measured] at failed
    cases failed
  · rename_i found
    rw [measured] at found
    cases found
    rw [copied]

/-- Word by word: `parseArgs` appends the words that the command line stands for, with their lengths, and
fails where a quote is not closed. -/
theorem parseArgs_outcome (argv : List Word) (string : Bytes) (words : List Bytes) :
    match parseArgs argv string with
    | none => (between words).outcome string = none
    | some result => ∃ added, result = argv ++ added ∧ (∀ w ∈ added, w.str.length = w.wlen) ∧
        (between words).outcome string = some (words ++ added.map (·.str)) := by
  induction length : string.length using Nat.strong_induction_on generalizing argv string words with
  | _ n ih =>
    cases string with
    | nil =>
      rw [parseArgs]
      exact ⟨[],by simp,by simp,by simp [between,Splitter.outcome,Splitter.finish,Splitter.close]⟩
    | cons c string =>
      rw [length_cons] at length
      cases blank : isSpace c with
      | true =>
        rw [parseArgs_blank argv string blank,between_blank words string blank]
        exact ih string.length (by omega) argv string words rfl
      | false =>
        rcases word_reads words none 0 string blank with ⟨rest,str,measured,copied,ended,outcome⟩ | ⟨measured,outcome⟩
        · rw [Option.getD_none,nil_append] at copied outcome
          have shorter := measureWord_length measured
          have further := ih rest.length (by omega) (argv ++ [⟨0+str.length,str⟩]) rest (words ++ [str]) rfl
          have here : (between words).outcome (c :: string) = (between (words ++ [str])).outcome rest :=
            outcome.trans (ended_outcome ended)
          rw [parseArgs_word argv blank measured copied,here]
          revert further
          cases parseArgs (argv ++ [⟨0+str.length,str⟩]) rest with
          | none => exact id
          | some result =>
            rintro ⟨added,appended,sizes,found⟩
            refine ⟨⟨0+str.length,str⟩ :: added,by rw [appended,append_assoc]; rfl,?_,by rw [found]; simp⟩
            intro w mem
            rcases mem_cons.mp mem with rfl | later
            · exact (Nat.zero_add _).symm
            · exact sizes w later
        · rw [parseArgs_none argv blank measured]
          exact outcome

/-- Exactly where every quote is closed, `parseArgs` reads no character behind the end of the string,
writes no more characters to a word than there is memory for, and appends the words that the command
line stands for. -/
theorem parseArgs_reference_iff (argv : List Word) (string : Bytes) :
    (∃ added, parseArgs argv string = some (argv ++ added) ∧ (∀ w ∈ added, w.str.length ≤ w.wlen) ∧
      added.map (·.str) = reference string) ↔ Closed string := by
  have spec := parseArgs_outcome argv string []
  have start : (between []).outcome string = if Closed string then some (reference string) else none :=
    outcome_start string
  rw [start] at spec
  constructor
  · rintro ⟨added,result,_⟩
    rw [result] at spec
    obtain ⟨_,_,_,found⟩ := spec
    by_contra opened
    rw [if_neg opened] at found
    cases found
  · intro closed
    rw [if_pos closed] at spec
    cases result : parseArgs argv string with
    | none =>
      rw [result] at spec
      cases spec
    | some words =>
      rw [result] at spec
      obtain ⟨added,appended,sizes,found⟩ := spec
      refine ⟨added,by rw [appended],fun w mem => Nat.le_of_eq (sizes w mem),?_⟩
      exact (Option.some.inj found).symm

/-- A quote that nothing closes: the first loop goes on behind the end of the string. -/
theorem parseArgs_open_quote :
    ¬ ∃ added, parseArgs [] (text "xterm -T 'login") = some ([] ++ added) ∧ (∀ w ∈ added, w.str.length ≤ w.wlen) ∧
      added.map (·.str) = reference (text "xterm -T 'login") := by
  rintro ⟨added,result,_⟩
  have spec := parseArgs_outcome [] (text "xterm -T 'login") []
  rw [result] at spec
  obtain ⟨_,_,_,found⟩ := spec
  have opened : (between []).outcome (text "xterm -T 'login") = none := by decide
  rw [opened] at found
  cases found

end KdeWorkspace.ArgumentWords
