import Mathlib.Tactic.Linarith
import Mathlib.Data.List.Infix

/-!
The parsing of what a ksysguardd sends (`SensorAgent::processAnswer`), and the
queues of requests that it answers.

An answer is a list of lines and ends at a prompt. Messages between escape
characters can stand anywhere and are cut out. What a call cannot parse yet is left
over for the next one. Where the stream is cut makes no difference
(`feed_processAnswer`), except at two places of a prompt: between the prompt and its
space, and behind its newline where that ends an empty line.
-/
namespace KdeWorkspace.SensorAgent
open List

abbrev Bytes := List UInt8

def bytes (text : String) : Bytes := text.toList.map fun c => c.toNat.toUInt8

def escape : UInt8 := 27

def newline : UInt8 := 10

def space : UInt8 := 32

def prompt : Bytes := bytes "ksysguardd>"

/-- A request; it has no client when that one disconnected. -/
structure SensorRequest where
  request : String
  client : Option Nat
  id : Int
deriving Repr, DecidableEq

/-- What an agent tells its clients and its manager. -/
inductive Delivery
  | answerReceived (client : Nat) (id : Int) (answer : List Bytes)
  | sensorLost (client : Nat) (id : Int)
  | reconfigure
  | notify (error : Bytes)
deriving Repr, DecidableEq

/-- An agent, with what it wrote to the daemon and what it delivered so far. -/
structure Agent where
  inputFIFO : List SensorRequest
  processingFIFO : List SensorRequest
  answerBuffer : List Bytes
  leftOverBuffer : Bytes
  daemonOnLine : Bool
  written : List SensorRequest
  delivered : List Delivery
deriving Repr, DecidableEq

/-- `fromUtf8` skips a byte order mark. -/
def isReconfigure (error : Bytes) : Bool :=
  let error := if [0xef,0xbb,0xbf].isPrefixOf error then error.drop 3 else error
  (bytes "RECONFIGURE").isPrefixOf error

namespace Agent

def executeCommand (s : Agent) : Agent :=
  match s.daemonOnLine,s.inputFIFO with
  | true,req :: rest =>
    { s with inputFIFO := rest, written := s.written ++ [req], processingFIFO := s.processingFIFO ++ [req] }
  | _,_ => s

def sendRequest (s : Agent) (req : String) (client : Nat) (id : Int) : Agent :=
  let sensorreq : SensorRequest := ⟨req,some client,id⟩
  if sensorreq ∈ s.inputFIFO then s.executeCommand
  else if sensorreq ∈ s.processingFIFO then s
  else { s with inputFIFO := s.inputFIFO ++ [sensorreq] }.executeCommand

def forget (client : Nat) (req : SensorRequest) : SensorRequest :=
  if req.client = some client then { req with client := none } else req

def disconnectClient (s : Agent) (client : Nat) : Agent :=
  { s with inputFIFO := s.inputFIFO.map (forget client), processingFIFO := s.processingFIFO.map (forget client) }

def message (s : Agent) (error : Bytes) : Agent :=
  { s with delivered := s.delivered ++ [if isReconfigure error then .reconfigure else .notify error] }

def addLine (s : Agent) (line : Bytes) : Agent := { s with answerBuffer := s.answerBuffer ++ [line] }

/-- What a client gets for its request. -/
def answered (s : Agent) (req : SensorRequest) (client : Nat) : Delivery :=
  if s.answerBuffer.head? = some (bytes "UNKNOWN COMMAND") then .sensorLost client req.id
  else .answerReceived client req.id s.answerBuffer

/-- The end of a reply. The first prompt says that the daemon is ready. -/
def reply (s : Agent) : Agent :=
  if !s.daemonOnLine then { s with daemonOnLine := true, answerBuffer := [] }
  else
    match s.processingFIFO with
    | [] => { s with answerBuffer := [] }
    | req :: rest =>
      match req.client with
      | none => { s with processingFIFO := rest, answerBuffer := [] }
      | some client => { s with
          processingFIFO := rest
          answerBuffer := []
          delivered := s.delivered ++ [s.answered req client] }

end Agent

/-- The message before the next escape character, and what follows it. -/
def closing : Bytes → Option (Bytes × Bytes)
  | [] => none
  | c :: rest => if c = escape then some ([],rest) else (closing rest).map fun found => (c :: found.1,found.2)

/-- What follows the prompt that stands here, at the start of the answer or behind a newline. -/
def promptAt (line rest : Bytes) : Option Bytes :=
  if line = [] ∧ prompt.isPrefixOf rest then some (rest.drop prompt.length)
  else if (newline :: prompt).isPrefixOf rest then some (rest.drop (prompt.length+1))
  else none

def skipSpace : Bytes → Bytes
  | [] => []
  | c :: rest => if c = space then rest else c :: rest

theorem closing_eq {text error after : Bytes} (found : closing text = some (error,after)) :
    text = error ++ escape :: after ∧ escape ∉ error := by
  induction text generalizing error with
  | nil => cases found
  | cons c text ih =>
    unfold closing at found
    split_ifs at found with same
    · cases found
      exact ⟨by rw [same]; rfl,by simp⟩
    · obtain ⟨⟨error,rest⟩,inner,same'⟩ := Option.map_eq_some_iff.mp found
      cases same'
      obtain ⟨split,absent⟩ := ih inner
      refine ⟨by rw [split]; rfl,?_⟩
      rw [mem_cons,not_or]
      exact ⟨Ne.symm same,absent⟩

theorem promptAt_cases {line rest after : Bytes} (found : promptAt line rest = some after) :
    line = [] ∧ rest = prompt ++ after ∨ rest = newline :: (prompt ++ after) := by
  unfold promptAt at found
  split_ifs at found with start behind
  · obtain ⟨tail,rfl⟩ := isPrefixOf_iff_prefix.mp start.2
    cases found
    exact .inl ⟨start.1,by rw [drop_left]⟩
  · obtain ⟨tail,rfl⟩ := isPrefixOf_iff_prefix.mp behind
    cases found
    exact .inr (by simp)

theorem skipSpace_length (rest : Bytes) : (skipSpace rest).length ≤ rest.length := by
  cases rest with
  | nil => simp [skipSpace]
  | cons c rest =>
    simp only [skipSpace]
    split_ifs <;> simp

/-- How much there is to parse: the line and what follows it get shorter, or what follows does. -/
def size (line rest : Bytes) : Nat := (line.length+rest.length)*(line.length+rest.length+1)+rest.length

theorem size_lt {line rest line' rest' : Bytes} (shorter : line'.length+rest'.length < line.length+rest.length) :
    size line' rest' < size line rest := by
  unfold size
  nlinarith

section

variable {line tail error after : Bytes} {c : UInt8}

theorem size_message (found : closing tail = some (error,after)) : size [] (line ++ after) < size line (c :: tail) := by
  obtain ⟨same,_⟩ := closing_eq found
  rw [same]
  refine size_lt ?_
  simp
  omega

theorem size_prompt (found : promptAt line (c :: tail) = some after) :
    size [] (skipSpace after) < size line (c :: tail) := by
  have shorter := skipSpace_length after
  have long : prompt.length = 11 := rfl
  refine size_lt ?_
  rcases promptAt_cases found with ⟨_,same⟩ | same
  · rw [same]
    simp
    omega
  · rw [same]
    simp
    omega

theorem size_newline : size [] tail < size line (c :: tail) := by
  refine size_lt ?_
  simp
  omega

theorem size_other : size (line ++ [c]) tail < size line (c :: tail) := by
  unfold size
  simp only [length_append,length_cons,length_nil]
  rw [Nat.add_assoc line.length,Nat.zero_add,Nat.add_comm 1]
  omega

end

/-- The loop of `processAnswer` from a position, with the part of the line before it:
    what it leaves over, and whether that ends within a message. -/
def scan (s : Agent) (line rest : Bytes) : Agent × Bytes × Bool :=
  match rest with
  | [] => (s,line,false)
  | c :: tail =>
    if c = escape then
      match _found : closing tail with
      | some (error,after) => scan (s.message error) [] (line ++ after)
      | none => (s,line ++ c :: tail,true)
    else
      match _found : promptAt line (c :: tail) with
      | some after => scan (if line = [] then s else s.addLine line).reply [] (skipSpace after)
      | none =>
        if c = newline then scan (s.addLine line) [] tail
        else scan s (line ++ [c]) tail
termination_by size line rest
decreasing_by
  · exact size_message _found
  · exact size_prompt _found
  · exact size_newline
  · exact size_other

def Agent.processAnswer (s : Agent) (buf : Bytes) : Agent :=
  let (s,leftOver,unterminated) := scan { s with leftOverBuffer := [] } [] (s.leftOverBuffer ++ buf)
  let s := { s with leftOverBuffer := leftOver }
  if unterminated then s else s.executeCommand

/-- Successive calls. -/
def feed (s : Agent) (bufs : List Bytes) : Agent := bufs.foldl Agent.processAnswer s

/-! What is parsed does not depend on the state of the agent. -/

inductive Token
  | message (error : Bytes)
  | line (line : Bytes)
  | reply
deriving Repr, DecidableEq

/-- The end of a line before a prompt, which is no line of its own when it is empty. -/
def lastLine (line : Bytes) : List Token := if line = [] then [] else [.line line]

/-- What the parser reads from a position: tokens, what it leaves over, and whether that ends within a message. -/
def lex (line rest : Bytes) : List Token × Bytes × Bool :=
  match rest with
  | [] => ([],line,false)
  | c :: tail =>
    if c = escape then
      match _found : closing tail with
      | some (error,after) =>
        let found := lex [] (line ++ after)
        (.message error :: found.1,found.2)
      | none => ([],line ++ c :: tail,true)
    else
      match _found : promptAt line (c :: tail) with
      | some after =>
        let found := lex [] (skipSpace after)
        (lastLine line ++ .reply :: found.1,found.2)
      | none =>
        if c = newline then
          let found := lex [] tail
          (.line line :: found.1,found.2)
        else lex (line ++ [c]) tail
termination_by size line rest
decreasing_by
  · exact size_message _found
  · exact size_prompt _found
  · exact size_newline
  · exact size_other

section

variable {line tail error after : Bytes} {c : UInt8}

theorem lex_nil : lex line [] = ([],line,false) := by
  rw [lex]

theorem lex_message (found : closing tail = some (error,after)) : lex line (escape :: tail) =
    (.message error :: (lex [] (line ++ after)).1,(lex [] (line ++ after)).2) := by
  rw [lex]
  simp only [if_true]
  split
  · rename_i found'
    cases found.symm.trans found'
    rfl
  · rename_i absent
    cases found.symm.trans absent

theorem lex_unterminated (absent : closing tail = none) : lex line (escape :: tail) =
    ([],line ++ escape :: tail,true) := by
  rw [lex]
  simp only [if_true]
  split
  · rename_i found
    cases absent.symm.trans found
  · rfl

theorem lex_prompt (plain : c ≠ escape) (found : promptAt line (c :: tail) = some after) :
    lex line (c :: tail) = (lastLine line ++ .reply :: (lex [] (skipSpace after)).1,(lex [] (skipSpace after)).2) := by
  rw [lex,if_neg plain]
  split
  · rename_i found'
    cases found.symm.trans found'
    rfl
  · rename_i absent
    cases found.symm.trans absent

theorem lex_newline (absent : promptAt line (newline :: tail) = none) :
    lex line (newline :: tail) = (.line line :: (lex [] tail).1,(lex [] tail).2) := by
  rw [lex,if_neg (by decide)]
  split
  · rename_i found
    cases absent.symm.trans found
  · rw [if_pos rfl]

theorem lex_other (plain : c ≠ escape) (inside : c ≠ newline) (absent : promptAt line (c :: tail) = none) :
    lex line (c :: tail) = lex (line ++ [c]) tail := by
  rw [lex,if_neg plain]
  split
  · rename_i found
    cases absent.symm.trans found
  · rw [if_neg inside]

end

namespace Agent

def token (s : Agent) : Token → Agent
  | .message error => s.message error
  | .line line => s.addLine line
  | .reply => s.reply

def tokens (s : Agent) (tokens : List Token) : Agent := tokens.foldl token s

end Agent

theorem scan_eq (s : Agent) (line rest : Bytes) :
    scan s line rest = (s.tokens (lex line rest).1,(lex line rest).2) := by
  induction line, rest using lex.induct generalizing s with
  | case1 line =>
    rw [scan,lex_nil]
    rfl
  | case2 line tail error after found ih =>
    rw [scan,lex_message found,Agent.tokens,foldl_cons]
    simp only [if_true]
    split
    · rename_i found'
      cases found.symm.trans found'
      exact ih (s.message error)
    · rename_i absent
      cases found.symm.trans absent
  | case3 line tail absent =>
    rw [scan,lex_unterminated absent]
    simp only [if_true]
    split
    · rename_i found
      cases absent.symm.trans found
    · rfl
  | case4 line c tail plain after found ih =>
    have ends : s.tokens (lastLine line) = if line = [] then s else s.addLine line := by
      unfold lastLine
      split_ifs <;> rfl
    rw [scan,if_neg plain,lex_prompt plain found,Agent.tokens,foldl_append]
    split
    · rename_i found'
      cases found.symm.trans found'
      rw [← ends]
      exact ih (s.tokens (lastLine line)).reply
    · rename_i absent
      cases found.symm.trans absent
  | case5 line tail plain absent ih =>
    rw [scan,if_neg plain,lex_newline absent]
    split
    · rename_i found
      cases absent.symm.trans found
    · exact ih (s.addLine line)
  | case6 line c tail plain absent inside ih =>
    rw [scan,if_neg plain,lex_other plain inside absent]
    split
    · rename_i found
      cases absent.symm.trans found
    · rw [if_neg inside]
      exact ih s

/-- A part of a line. -/
def Plain (line : Bytes) : Prop := escape ∉ line ∧ newline ∉ line

theorem plain_nil : Plain [] := ⟨not_mem_nil,not_mem_nil⟩

theorem Plain.snoc {line : Bytes} {c : UInt8} (plain : Plain line) (other : c ≠ escape) (inside : c ≠ newline) :
    Plain (line ++ [c]) := by
  simp only [Plain,mem_append,mem_singleton,not_or]
  exact ⟨⟨plain.1,Ne.symm other⟩,⟨plain.2,Ne.symm inside⟩⟩

theorem promptAt_start (after : Bytes) : promptAt [] (prompt ++ after) = some after := by
  have found : prompt.isPrefixOf (prompt ++ after) = true := isPrefixOf_iff_prefix.mpr (prefix_append _ _)
  rw [promptAt,if_pos ⟨rfl,found⟩,drop_left]

theorem promptAt_behind (line after : Bytes) : promptAt line (newline :: (prompt ++ after)) = some after := by
  have other : ¬ (line = [] ∧ prompt.isPrefixOf (newline :: (prompt ++ after)) = true) := by
    rintro ⟨_,found⟩
    obtain ⟨tail,same⟩ := isPrefixOf_iff_prefix.mp found
    exact absurd (cons.inj same).1 (by decide)
  have found : (newline :: prompt).isPrefixOf (newline :: (prompt ++ after)) = true :=
    isPrefixOf_iff_prefix.mpr ⟨after,rfl⟩
  rw [promptAt,if_neg other,if_pos found]
  simp

theorem promptAt_append {line rest after : Bytes} (found : promptAt line rest = some after) (b : Bytes) :
    promptAt line (rest ++ b) = some (after ++ b) := by
  rcases promptAt_cases found with ⟨rfl,same⟩ | same
  · rw [same,append_assoc]
    exact promptAt_start (after ++ b)
  · rw [same,cons_append,append_assoc]
    exact promptAt_behind line (after ++ b)

theorem not_prompt_of_none {rest : Bytes} (absent : promptAt [] rest = none) : ¬ prompt <+: rest := by
  rintro ⟨after,rfl⟩
  rw [promptAt_start] at absent
  cases absent

theorem promptAt_newline {line rest after : Bytes} (found : promptAt line (newline :: rest) = some after) :
    rest = prompt ++ after := by
  rcases promptAt_cases found with ⟨_,same⟩ | same
  · exact absurd (cons.inj same).1 (by decide)
  · exact (cons.inj same).2

theorem not_prompt_of_newline {line rest : Bytes} (absent : promptAt line (newline :: rest) = none) :
    ¬ prompt <+: rest := by
  rintro ⟨after,rfl⟩
  rw [promptAt_behind] at absent
  cases absent

theorem promptAt_suffix {line rest after : Bytes} (found : promptAt line rest = some after) : after <:+ rest := by
  rcases promptAt_cases found with ⟨_,same⟩ | same
  · exact ⟨prompt,same.symm⟩
  · exact ⟨newline :: prompt,same.symm⟩

theorem promptAt_last {line rest : Bytes} (found : promptAt line rest = some []) : rest.getLast? = prompt.getLast? := by
  rcases promptAt_cases found with ⟨_,same⟩ | same
  · rw [same]
    decide
  · rw [same]
    decide

theorem skipSpace_suffix (rest : Bytes) : skipSpace rest <:+ rest := by
  cases rest with
  | nil => exact suffix_refl _
  | cons c rest =>
    simp only [skipSpace]
    split_ifs
    · exact suffix_cons c rest
    · exact suffix_refl _

theorem skipSpace_append {rest b : Bytes} (apart : rest = [] → b.head? ≠ some space) :
    skipSpace (rest ++ b) = skipSpace rest ++ b := by
  cases rest with
  | nil =>
    cases b with
    | nil => rfl
    | cons c b => exact if_neg fun same => apart rfl (congrArg some same)
  | cons c rest =>
    simp only [skipSpace,cons_append]
    split_ifs
    · rfl
    · rfl

theorem closing_append {text error after : Bytes} (found : closing text = some (error,after)) (b : Bytes) :
    closing (text ++ b) = some (error,after ++ b) := by
  obtain ⟨rfl,absent⟩ := closing_eq found
  clear found
  induction error with
  | nil => simp [closing]
  | cons c error ih =>
    rw [mem_cons,not_or] at absent
    simp [closing,Ne.symm absent.1] at ih ⊢
    exact ih absent.2

theorem lex_line {line b : Bytes} (plain : Plain line) (free : line ≠ [] → ¬ prompt <+: line ++ b) :
    lex [] (line ++ b) = lex line b := by
  have from_within (done todo : Bytes) (parts : line = done ++ todo) : lex done (todo ++ b) = lex line b := by
    induction todo generalizing done with
    | nil =>
      rw [parts,append_nil]
      rfl
    | cons c todo ih =>
      have within : c ∈ line := by simp [parts]
      have inside : c ≠ newline := fun same => plain.2 (same ▸ within)
      have absent : promptAt done (c :: (todo ++ b)) = none := by
        cases found : promptAt done (c :: (todo ++ b)) with
        | none => rfl
        | some after =>
          rcases promptAt_cases found with ⟨rfl,same⟩ | same
          · refine absurd ?_ (free (by simp [parts]))
            rw [parts,nil_append,cons_append,same]
            exact prefix_append _ _
          · exact absurd (cons.inj same).1 inside
      rw [cons_append,lex_other (fun same => plain.1 (same ▸ within)) inside absent]
      exact ih (done ++ [c]) (by simp [parts])
  exact from_within [] line rfl

theorem lex_start (after : Bytes) : lex [] (prompt ++ after) =
    (.reply :: (lex [] (skipSpace after)).1,(lex [] (skipSpace after)).2) := by
  have start := promptAt_start after
  have first : prompt ++ after = prompt.head! :: (prompt.tail ++ after) := rfl
  rw [first] at start ⊢
  exact lex_prompt (by decide) start

theorem lex_part {part b after : Bytes} (same : part ++ b = prompt ++ after) (absent : ¬ prompt <+: part) :
    Plain part ∧ lex [] part = ([],part,false) := by
  have within : part <+: prompt := by
    rcases prefix_or_prefix_of_prefix (prefix_append part b) (same ▸ prefix_append prompt after)
      with shorter | longer
    · exact shorter
    · exact absurd longer absent
  have plain : Plain part := by
    have clean : Plain prompt := ⟨by decide,by decide⟩
    exact ⟨fun mem => clean.1 (within.subset mem),fun mem => clean.2 (within.subset mem)⟩
  have line := lex_line (b := []) plain fun _ => by rwa [append_nil]
  rw [append_nil,lex_nil] at line
  exact ⟨plain,line⟩

/-- A cut behind `rest`, which is parsed as `read`, does not part a prompt from its space in `b`. -/
def KeepsSpace (read : List Token × Bytes × Bool) (rest b : Bytes) : Prop :=
  read.1.getLast? = some .reply → read.2.1 = [] → rest.getLast? = prompt.getLast? → b.head? ≠ some space

/-- A cut that does not stand between a prompt and its space, nor in a prompt behind an empty line. -/
structure Harmless (read : List Token × Bytes × Bool) (rest b : Bytes) : Prop where
  space : KeepsSpace read rest b
  blank : read.1.getLast? = some (.line []) → ¬ prompt <+: read.2.1 ++ b

theorem KeepsSpace.inner (front : List Token) {read : List Token × Bytes × Bool} {rest rest' b : Bytes}
    (keeps : KeepsSpace (front ++ read.1,read.2) rest' b)
    (ends : read.1 ≠ [] → rest ≠ [] → rest'.getLast? = rest.getLast?) : KeepsSpace read rest b := by
  intro found empty same
  have read_any : read.1 ≠ [] := by
    intro none
    simp [none] at found
  have rest_any : rest ≠ [] := by
    intro none
    rw [none] at same
    exact absurd same (by decide)
  have last : (front ++ read.1).getLast? = some .reply := by
    rw [getLast?_append,found]
    rfl
  exact keeps last empty ((ends read_any rest_any).trans same)

theorem getLast?_suffix {rest after : Bytes} (suffix : after <:+ rest) (any : after ≠ []) :
    rest.getLast? = after.getLast? := by
  obtain ⟨front,rfl⟩ := suffix
  exact getLast?_append_of_ne_nil front any

theorem lex_append {b : Bytes} (line rest : Bytes) (plain : Plain line)
    (free : line ≠ [] → ¬ prompt <+: line ++ (rest ++ b)) (keeps : KeepsSpace (lex line rest) rest b) :
    ∃ front extra, (lex line rest).1 = front ++ extra ∧
    (extra = [] ∨ extra = [.line []] ∧ prompt <+: (lex line rest).2.1 ++ b) ∧
    lex line (rest ++ b) = (front ++ (lex [] ((lex line rest).2.1 ++ b)).1,(lex [] ((lex line rest).2.1 ++ b)).2) := by
  have nothing_free {rest : Bytes} : ([] : Bytes) ≠ [] → ¬ prompt <+: [] ++ (rest ++ b) := fun any => absurd rfl any
  induction line, rest using lex.induct with
  | case1 line =>
    rw [nil_append] at free ⊢
    rw [lex_nil,lex_line plain free]
    exact ⟨[],[],rfl,.inl rfl,rfl⟩
  | case2 line tail error after found ih =>
    rw [lex_message found] at keeps ⊢
    have inner : KeepsSpace (lex [] (line ++ after)) (line ++ after) b := by
      refine KeepsSpace.inner [.message error] keeps fun read_any _ => ?_
      have after_any : after ≠ [] := by
        rintro rfl
        have line_free : line ≠ [] → ¬ prompt <+: line ++ [] := by
          intro any starts
          rw [append_nil] at starts
          exact free any (starts.trans (prefix_append _ _))
        have nothing_read := lex_line (b := []) plain line_free
        rw [lex_nil] at nothing_read
        exact read_any (congrArg Prod.fst nothing_read)
      have same := (closing_eq found).1
      have in_tail : after <:+ escape :: tail := ⟨escape :: (error ++ [escape]),by simp [same]⟩
      rw [getLast?_suffix in_tail after_any,getLast?_suffix (suffix_append line after) after_any]
    obtain ⟨front,extra,read,last,uncut⟩ := ih plain_nil nothing_free inner
    refine ⟨.message error :: front,extra,congrArg _ read,last,?_⟩
    rw [append_assoc] at uncut
    rw [cons_append,lex_message (closing_append found b),uncut]
    rfl
  | case3 line tail absent =>
    rw [lex_unterminated absent]
    refine ⟨[],[],rfl,.inl rfl,?_⟩
    rw [nil_append,append_assoc,lex_line plain free]
  | case4 line c tail plain' after found ih =>
    rw [lex_prompt plain' found] at keeps ⊢
    have skipped : skipSpace (after ++ b) = skipSpace after ++ b := by
      refine skipSpace_append ?_
      rintro rfl
      refine keeps ?_ ?_ (promptAt_last found)
      · simp [skipSpace,lex_nil]
      · simp [skipSpace,lex_nil]
    have inner : KeepsSpace (lex [] (skipSpace after)) (skipSpace after) b := by
      refine KeepsSpace.inner (lastLine line ++ [.reply]) (by simpa using keeps) fun _ any => ?_
      exact getLast?_suffix ((skipSpace_suffix after).trans (promptAt_suffix found)) any
    obtain ⟨front,extra,read,last,uncut⟩ := ih plain_nil nothing_free inner
    have found' : promptAt line (c :: (tail ++ b)) = some (after ++ b) := promptAt_append found b
    refine ⟨lastLine line ++ .reply :: front,extra,?_,last,?_⟩
    · rw [read]
      simp
    · rw [cons_append,lex_prompt plain' found',skipped,uncut]
      simp
  | case5 line tail plain' absent ih =>
    cases found : promptAt line (newline :: tail ++ b) with
    | none =>
      rw [lex_newline absent] at keeps ⊢
      have inner : KeepsSpace (lex [] tail) tail b :=
        KeepsSpace.inner [.line line] keeps fun _ any => getLast?_suffix (suffix_cons _ _) any
      obtain ⟨front,extra,read,last,uncut⟩ := ih plain_nil nothing_free inner
      refine ⟨.line line :: front,extra,congrArg _ read,last,?_⟩
      rw [cons_append] at found ⊢
      rw [lex_newline found,uncut]
      rfl
    | some after =>
      -- the prompt reaches over the cut
      have same : tail ++ b = prompt ++ after := promptAt_newline found
      obtain ⟨_,part⟩ := lex_part same (not_prompt_of_newline absent)
      rw [lex_newline absent,part]
      rw [cons_append] at found ⊢
      rw [lex_prompt (by decide) found,same,lex_start]
      by_cases any : line = []
      · rw [any]
        exact ⟨[],[.line []],rfl,.inr ⟨rfl,prefix_append _ _⟩,rfl⟩
      · rw [lastLine,if_neg any]
        exact ⟨[.line line],[],rfl,.inl rfl,rfl⟩
  | case6 line c tail plain' absent inside ih =>
    rw [cons_append]
    cases found : promptAt line (c :: (tail ++ b)) with
    | none =>
      rw [lex_other plain' inside found]
      rw [lex_other plain' inside absent] at keeps ⊢
      refine ih (plain.snoc plain' inside) ?_ ?_
      · intro _ starts
        rw [append_assoc] at starts
        by_cases any : line = []
        · rw [any] at found starts
          exact not_prompt_of_none found starts
        · exact free any starts
      · exact KeepsSpace.inner [] keeps fun _ any => getLast?_suffix (suffix_cons _ _) any
    | some after =>
      -- the line is a part of the prompt
      rcases promptAt_cases found with ⟨rfl,same⟩ | same
      · have unseen : ¬ prompt <+: c :: tail := not_prompt_of_none absent
        obtain ⟨_,part⟩ := lex_part same unseen
        rw [part]
        exact ⟨[],[],rfl,.inl rfl,rfl⟩
      · exact absurd (cons.inj same).1 inside

/-- The second agent has told the same as the first and may have sent more requests. -/
structure Ahead (s t : Agent) : Prop where
  delivered : t.delivered = s.delivered
  answerBuffer : t.answerBuffer = s.answerBuffer
  daemonOnLine : t.daemonOnLine = s.daemonOnLine
  processing : s.processingFIFO <+: t.processingFIFO

/-- There is a request for every reply but the greeting. -/
def Enough (s : Agent) (tokens : List Token) : Prop :=
  tokens.count .reply ≤ s.processingFIFO.length + if s.daemonOnLine then 0 else 1

theorem Ahead.reply {s t : Agent} (ahead : Ahead s t) (ready : s.daemonOnLine → s.processingFIFO ≠ []) :
    Ahead s.reply t.reply := by
  obtain ⟨delivered,answerBuffer,daemonOnLine,more,processing⟩ := ahead
  unfold Agent.reply
  rw [daemonOnLine]
  cases online : s.daemonOnLine with
  | false => exact ⟨delivered,rfl,rfl,more,processing⟩
  | true =>
    obtain ⟨req,rest,queue⟩ := exists_cons_of_ne_nil (ready online)
    rw [queue] at processing ⊢
    rw [← processing]
    simp only [Bool.not_true,Bool.false_eq_true,if_false,cons_append]
    cases req.client with
    | none => exact ⟨delivered,rfl,rfl,more,rfl⟩
    | some client =>
      refine ⟨?_,rfl,rfl,more,rfl⟩
      simp only [Agent.answered]
      rw [delivered,answerBuffer]

theorem Enough.reply {s : Agent} {tokens : List Token} (enough : Enough s (.reply :: tokens)) :
    Enough s.reply tokens := by
  unfold Enough at enough ⊢
  rw [count_cons_self] at enough
  unfold Agent.reply
  cases online : s.daemonOnLine with
  | false => simpa [online] using enough
  | true =>
    cases queue : s.processingFIFO with
    | nil => simp [online,queue] at enough
    | cons req rest =>
      rw [online,queue,length_cons] at enough
      have left : tokens.count .reply ≤ rest.length := by simpa using enough
      simp only [Bool.not_true,Bool.false_eq_true,if_false]
      cases req.client <;> simp [left]

theorem Enough.tokens {s : Agent} {read tokens : List Token} (enough : Enough s (read ++ tokens)) :
    Enough (s.tokens read) tokens := by
  induction read generalizing s with
  | nil => exact enough
  | cons token read ih =>
    cases token with
    | message error => exact ih (s := s.message error) enough
    | line line => exact ih (s := s.addLine line) enough
    | reply => exact ih enough.reply

theorem Ahead.tokens {s t : Agent} {tokens : List Token} (ahead : Ahead s t) (enough : Enough s tokens) :
    Ahead (s.tokens tokens) (t.tokens tokens) := by
  induction tokens generalizing s t with
  | nil => exact ahead
  | cons token tokens ih =>
    cases token with
    | message error =>
      refine ih ⟨?_,ahead.answerBuffer,ahead.daemonOnLine,ahead.processing⟩ enough
      simp only [Agent.token,Agent.message]
      rw [ahead.delivered]
    | line line =>
      refine ih ⟨ahead.delivered,?_,ahead.daemonOnLine,ahead.processing⟩ enough
      simp only [Agent.token,Agent.addLine]
      rw [ahead.answerBuffer]
    | reply =>
      refine ih (ahead.reply ?_) enough.reply
      intro online none
      simp [Enough,online,none] at enough

theorem Ahead.executeCommand {s t : Agent} (ahead : Ahead s t) : Ahead s t.executeCommand := by
  unfold Agent.executeCommand
  split
  · exact ⟨ahead.delivered,ahead.answerBuffer,ahead.daemonOnLine,ahead.processing.trans (prefix_append _ _)⟩
  · exact ahead

theorem executeCommand_leftOver (s : Agent) : s.executeCommand.leftOverBuffer = s.leftOverBuffer := by
  unfold Agent.executeCommand
  split <;> rfl

theorem processAnswer_ahead {s t : Agent} (buf : Bytes) (ahead : Ahead s t)
    (enough : Enough s (lex [] (t.leftOverBuffer ++ buf)).1) :
    Ahead (s.tokens (lex [] (t.leftOverBuffer ++ buf)).1) (t.processAnswer buf) ∧
    (t.processAnswer buf).leftOverBuffer = (lex [] (t.leftOverBuffer ++ buf)).2.1 := by
  have cleared : Ahead s { t with leftOverBuffer := [] } :=
    ⟨ahead.delivered,ahead.answerBuffer,ahead.daemonOnLine,ahead.processing⟩
  obtain ⟨delivered,answerBuffer,daemonOnLine,processing⟩ := cleared.tokens enough
  unfold Agent.processAnswer
  rw [scan_eq]
  dsimp only
  split
  · exact ⟨⟨delivered,answerBuffer,daemonOnLine,processing⟩,rfl⟩
  · refine ⟨Ahead.executeCommand ?_,executeCommand_leftOver _⟩
    exact ⟨delivered,answerBuffer,daemonOnLine,processing⟩

/-- No cut of the stream does harm. -/
def Clean (before : Bytes) : List Bytes → Prop
  | [] => True
  | buf :: bufs => Harmless (lex [] before) before (buf :: bufs).flatten ∧ Clean (before ++ buf) bufs

theorem Harmless.shorter {read : List Token × Bytes × Bool} {rest b b' : Bytes} (harmless : Harmless read rest (b ++ b')) :
    Harmless read rest b := by
  constructor
  · intro last empty ends starts
    cases b with
    | nil => cases starts
    | cons c b => exact harmless.space last empty ends starts
  · intro last starts
    refine harmless.blank last (starts.trans ?_)
    rw [← append_assoc]
    exact prefix_append _ _

theorem lex_cut {before b : Bytes} (harmless : Harmless (lex [] before) before b) : lex [] (before ++ b) =
    ((lex [] before).1 ++ (lex [] ((lex [] before).2.1 ++ b)).1,(lex [] ((lex [] before).2.1 ++ b)).2) := by
  obtain ⟨front,extra,read,last,uncut⟩ := lex_append [] before plain_nil (fun any => absurd rfl any) harmless.space
  rcases last with none | ⟨one,starts⟩
  · rw [read,uncut,none,append_nil]
  · refine absurd starts (harmless.blank ?_)
    rw [read,one]
    simp

theorem Clean.enough {s : Agent} {before : Bytes} {bufs : List Bytes} (clean : Clean before bufs)
    (enough : Enough s (lex [] (before ++ bufs.flatten)).1) : Enough s (lex [] before).1 := by
  cases bufs with
  | nil => simpa using enough
  | cons buf bufs =>
    unfold Enough at enough ⊢
    rw [lex_cut clean.1] at enough
    simp only [count_append] at enough
    omega

theorem feed_ahead {s t : Agent} {before : Bytes} {bufs : List Bytes} (clean : Clean before bufs)
    (enough : Enough s (lex [] (before ++ bufs.flatten)).1) (ahead : Ahead (s.tokens (lex [] before).1) t)
    (left : t.leftOverBuffer = (lex [] before).2.1) :
    Ahead (s.tokens (lex [] (before ++ bufs.flatten)).1) (feed t bufs) ∧
    (feed t bufs).leftOverBuffer = (lex [] (before ++ bufs.flatten)).2.1 := by
  induction bufs generalizing before t with
  | nil => simpa using ⟨ahead,left⟩
  | cons buf bufs ih =>
    rw [flatten_cons,← append_assoc] at enough ⊢
    have cut := lex_cut clean.1.shorter
    rw [← left] at cut
    have read := clean.2.enough enough
    rw [cut] at read
    obtain ⟨ahead',left'⟩ := processAnswer_ahead buf ahead read.tokens
    refine ih clean.2 enough ?_ ?_
    · rw [cut,Agent.tokens,foldl_append]
      exact ahead'
    · rw [cut]
      exact left'

/-- What is delivered and what is left to parse do not depend on where the stream is cut. -/
theorem feed_processAnswer (s : Agent) (buf : Bytes) (bufs : List Bytes) (clean : Clean (s.leftOverBuffer ++ buf) bufs)
    (enough : Enough s (lex [] (s.leftOverBuffer ++ (buf :: bufs).flatten)).1) :
    let cut := feed s (buf :: bufs)
    let whole := s.processAnswer (buf :: bufs).flatten
    cut.delivered = whole.delivered ∧ cut.answerBuffer = whole.answerBuffer ∧
    cut.leftOverBuffer = whole.leftOverBuffer ∧ cut.daemonOnLine = whole.daemonOnLine := by
  have self : Ahead s s := ⟨rfl,rfl,rfl,prefix_rfl⟩
  obtain ⟨whole,leftWhole⟩ := processAnswer_ahead (buf :: bufs).flatten self enough
  rw [flatten_cons,← append_assoc] at enough whole leftWhole
  obtain ⟨first,leftFirst⟩ := processAnswer_ahead buf self (clean.enough enough)
  obtain ⟨cut,leftCut⟩ := feed_ahead clean enough first leftFirst
  exact ⟨cut.delivered.trans whole.delivered.symm,cut.answerBuffer.trans whole.answerBuffer.symm,
    leftCut.trans leftWhole.symm,cut.daemonOnLine.trans whole.daemonOnLine.symm⟩

/-- An agent that waits for the answers to two requests. -/
def waiting : Agent := ⟨[],[⟨"mem/free",some 1,0⟩,⟨"mem/used",some 2,1⟩],[],[],true,[],[]⟩

theorem feed_processAnswer_waiting :
    let cut := feed waiting [bytes "8\nksys",bytes "guardd> 9\nksysguardd> "]
    let whole := waiting.processAnswer [bytes "8\nksys",bytes "guardd> 9\nksysguardd> "].flatten
    cut.delivered = whole.delivered ∧ cut.answerBuffer = whole.answerBuffer ∧
    cut.leftOverBuffer = whole.leftOverBuffer ∧ cut.daemonOnLine = whole.daemonOnLine := by
  have read : lex [] (bytes "8\nksys") = ([.line (bytes "8")],bytes "ksys",false) := by decide +kernel
  refine feed_processAnswer waiting (bytes "8\nksys") [bytes "guardd> 9\nksysguardd> "] ⟨?_,trivial⟩ ?_
  · rw [show waiting.leftOverBuffer = [] from rfl,nil_append,read]
    constructor
    · intro last
      exact absurd last (by decide)
    · intro last
      exact absurd last (by decide)
  · unfold Enough
    decide +kernel

/-- Behind a prompt without its space, the answer to the next request starts with that space. -/
theorem space_cut_off :
    (waiting.processAnswer (bytes "8\nksysguardd> 9\nksysguardd> ")).delivered =
      [.answerReceived 1 0 [bytes "8"],.answerReceived 2 1 [bytes "9"]] ∧
    (feed waiting [bytes "8\nksysguardd>",bytes " 9\nksysguardd> "]).delivered =
      [.answerReceived 1 0 [bytes "8"],.answerReceived 2 1 [bytes " 9"]] := by
  decide +kernel

end KdeWorkspace.SensorAgent
