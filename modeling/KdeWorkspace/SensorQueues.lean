import KdeWorkspace.SensorAgent
import Mathlib.Data.List.Iterate
import Mathlib.Data.List.ReduceOption

/-!
The daemon answers every command that it is sent with one reply: what it has to say,
and a prompt with its space. The replies arrive in calls of `processAnswer` that end
anywhere. As long as no call ends between a prompt and its space while the next reply
says nothing, the agent sees every prompt when it arrives, and answers go to those who
asked: the agent does what the `Ledger` of its requests says (`run_routed`).
-/
namespace KdeWorkspace.SensorQueues
open SensorAgent
open List (append_assoc length_append count_append append_nil count_cons_self prefix_append prefix_append_right_inj count_cons_of_ne cons_append length_singleton nil_append map_append)

/-- What stands outside of messages, from within a message or not. -/
def outside : Bool → Bytes → Bytes
  | _,[] => []
  | within,c :: rest =>
    if c = escape then outside (!within) rest
    else if within then outside within rest
    else c :: outside within rest

/-- Text without a prompt. -/
def Unprompted (text : Bytes) : Prop := ¬ prompt <+: text ∧ ¬ newline :: prompt <:+: text

instance (text : Bytes) : Decidable (Unprompted text) := inferInstanceAs (Decidable (_ ∧ _))

theorem outside_plain {line : Bytes} (rest : Bytes) (plain : escape ∉ line) :
    outside false (line ++ rest) = line ++ outside false rest := by
  induction line with
  | nil => rfl
  | cons c line ih =>
    rw [List.mem_cons,not_or] at plain
    simp [outside,Ne.symm plain.1,ih plain.2]

theorem outside_closing {tail error after : Bytes} (found : closing tail = some (error,after)) :
    outside true tail = outside false after ∧ tail.count escape = after.count escape + 1 := by
  obtain ⟨rfl,absent⟩ := closing_eq found
  clear found
  induction error with
  | nil => simp [outside]
  | cons c error ih =>
    rw [List.mem_cons,not_or] at absent
    obtain ⟨text,count⟩ := ih absent.2
    constructor
    · simp [outside,Ne.symm absent.1,text]
    · rw [cons_append,count_cons_of_ne (Ne.symm absent.1),count]

theorem outside_unterminated {tail : Bytes} (absent : closing tail = none) : escape ∉ tail := by
  induction tail with
  | nil => exact List.not_mem_nil
  | cons c tail ih =>
    unfold closing at absent
    split_ifs at absent with same
    rw [List.mem_cons,not_or]
    exact ⟨Ne.symm same,ih (Option.map_eq_none_iff.mp absent)⟩

theorem outside_append (within : Bool) (body rest : Bytes) : outside within (body ++ rest) =
    outside within body ++ outside (if body.count escape % 2 = 0 then within else !within) rest := by
  induction body generalizing within with
  | nil => rfl
  | cons c body ih =>
    rw [cons_append,outside,outside]
    by_cases same : c = escape
    · rw [if_pos same,if_pos same,ih,same,count_cons_self]
      rcases Nat.mod_two_eq_zero_or_one (body.count escape) with even | odd
      · simp [even,show (body.count escape+1) % 2 = 1 by omega]
      · simp [odd,show (body.count escape+1) % 2 = 0 by omega]
    · rw [if_neg same,if_neg same,ih,count_cons_of_ne (Ne.symm (Ne.symm same))]
      split_ifs <;> rfl

namespace Unprompted

variable {line text tail : Bytes}

theorem promptAt {rest : Bytes} (unprompted : Unprompted (line ++ outside false rest)) : promptAt line rest = none := by
  cases found : SensorAgent.promptAt line rest with
  | none => rfl
  | some after =>
    have clean : escape ∉ prompt := by decide
    rcases promptAt_cases found with ⟨rfl,rfl⟩ | rfl
    · rw [outside_plain after clean] at unprompted
      exact absurd (prefix_append _ _) unprompted.1
    · have text : outside false (newline :: (prompt ++ after)) = newline :: (prompt ++ outside false after) := by
        rw [← outside_plain after clean]
        rfl
      rw [text] at unprompted
      refine absurd ?_ unprompted.2
      exact ⟨line,outside false after,by simp⟩

theorem behind (unprompted : Unprompted (line ++ newline :: text)) : Unprompted text := by
  constructor
  · rintro ⟨after,rfl⟩
    exact unprompted.2 ⟨line,after,by simp⟩
  · rintro ⟨before,after,rfl⟩
    exact unprompted.2 ⟨line ++ newline :: before,after,by simp⟩

theorem of_prefix (unprompted : Unprompted (text ++ tail)) : Unprompted text :=
  ⟨fun starts => unprompted.1 (starts.trans (prefix_append _ _)),
    fun inside => unprompted.2 (inside.trans (prefix_append _ _).isInfix)⟩

end Unprompted

theorem lex_none {line rest : Bytes} (plain : escape ∉ line) (unprompted : Unprompted (line ++ outside false rest)) :
    (lex line rest).1.count .reply = 0 := by
  induction line, rest using lex.induct with
  | case1 line =>
    rw [lex_nil]
    rfl
  | case2 line tail error after found ih =>
    rw [lex_message found]
    refine ih (by simp) ?_
    rw [outside_plain after plain,← (outside_closing found).1]
    simpa [outside] using unprompted
  | case3 line tail absent =>
    rw [lex_unterminated absent]
    rfl
  | case4 line c tail plain' after found ih => exact absurd (unprompted.promptAt.symm.trans found) (by simp)
  | case5 line tail plain' absent ih =>
    rw [lex_newline absent]
    refine ih (by simp) ?_
    exact Unprompted.behind (show Unprompted (line ++ newline :: outside false tail) by simpa [outside,plain'] using unprompted)
  | case6 line c tail plain' absent inside ih =>
    rw [lex_other plain' inside absent]
    refine ih ?_ ?_
    · simp [plain,Ne.symm plain']
    · simpa [outside,plain'] using unprompted

/-- What the daemon has to say: whole lines, none of which looks like a prompt, and messages. -/
structure Body where
  bytes : Bytes
  closed : bytes.count escape % 2 = 0
  lines : outside false bytes = [] ∨ (outside false bytes).getLast? = some newline
  unprompted : Unprompted (outside false bytes)

namespace Body

def text (body : Body) : Bytes := outside false body.bytes

/-- The first line of the text, behind the space of the prompt before. -/
def behindSpace (body : Body) (any : body.text ≠ []) : Body where
  bytes := space :: body.bytes
  closed := body.closed
  lines := by
    have behind : outside false (space :: body.bytes) = space :: body.text := rfl
    refine .inr ?_
    rw [behind]
    have ends := body.lines.resolve_left any
    rw [List.getLast?_cons,text,ends]
    rfl
  unprompted := by
    have behind : outside false (space :: body.bytes) = space :: body.text := rfl
    rw [behind]
    constructor
    · rintro ⟨after,same⟩
      exact absurd (List.cons.inj same).1 (by decide)
    · intro inside
      rcases List.infix_cons_iff.mp inside with starts | inside
      · exact absurd (List.cons_prefix_cons.mp starts).1 (by decide)
      · exact body.unprompted.2 inside

end Body

theorem lex_body (after : Bytes) {line rest : Bytes} (plain : Plain line) (closed : rest.count escape % 2 = 0)
    (lines : line ++ outside false rest = [] ∨ (line ++ outside false rest).getLast? = some newline)
    (unprompted : Unprompted (line ++ outside false rest)) : ∃ read, read.count .reply = 0 ∧
    lex line (rest ++ (prompt ++ after)) = (read ++ .reply :: (lex [] (skipSpace after)).1,(lex [] (skipSpace after)).2) := by
  -- a part of a prompt is no whole line
  have whole {front part after' : Bytes} (same : part ++ (prompt ++ after) = prompt ++ after') (unseen : ¬ prompt <+: part)
      (ends : (front ++ part).getLast? = some newline) : part = [] := by
    by_contra any
    have plain := (lex_part same unseen).1
    rw [List.getLast?_append_of_ne_nil front any] at ends
    exact plain.2 (List.mem_of_getLast? ends)
  induction line, rest using lex.induct with
  | case1 line =>
    have empty : line = [] := by
      rcases lines with none | ends
      · simpa [outside] using none
      · rw [outside,append_nil] at ends
        exact absurd (List.mem_of_getLast? ends) plain.2
    rw [empty,nil_append,lex_start]
    exact ⟨[],rfl,rfl⟩
  | case2 line tail error after' found ih =>
    obtain ⟨text,count⟩ := outside_closing found
    have text' : [] ++ outside false (line ++ after') = line ++ outside false (escape :: tail) := by
      rw [nil_append,outside_plain after' plain.1,← text]
      rfl
    have closed' : (line ++ after').count escape % 2 = 0 := by
      rw [count_cons_self,count] at closed
      rw [count_append,List.count_eq_zero.mpr plain.1]
      omega
    rw [← text'] at lines unprompted
    obtain ⟨read,none,uncut⟩ := ih plain_nil closed' lines unprompted
    refine ⟨.message error :: read,by simpa using none,?_⟩
    rw [append_assoc] at uncut
    rw [cons_append,lex_message (closing_append found _),uncut]
    rfl
  | case3 line tail absent =>
    rw [count_cons_self,List.count_eq_zero.mpr (outside_unterminated absent)] at closed
    cases closed
  | case4 line c tail plain' after' found ih => exact absurd (unprompted.promptAt.symm.trans found) (by simp)
  | case5 line tail plain' absent ih =>
    have text : outside false (newline :: tail) = newline :: outside false tail := rfl
    rw [text] at lines unprompted
    have ends : (line ++ newline :: outside false tail).getLast? = some newline := lines.resolve_left (by simp)
    rw [cons_append]
    cases found : promptAt line (newline :: (tail ++ (prompt ++ after))) with
    | none =>
      have lines' : [] ++ outside false tail = [] ∨ ([] ++ outside false tail).getLast? = some newline := by
        by_cases none : outside false tail = []
        · exact .inl none
        · rw [← List.singleton_append,← append_assoc,List.getLast?_append_of_ne_nil _ none] at ends
          exact .inr ends
      obtain ⟨read,none,uncut⟩ := ih plain_nil closed lines' unprompted.behind
      rw [lex_newline found,uncut]
      exact ⟨.line line :: read,by simpa using none,rfl⟩
    | some after' =>
      have same : tail ++ (prompt ++ after) = prompt ++ after' := promptAt_newline found
      have unseen : ¬ prompt <+: tail := not_prompt_of_newline absent
      have all : outside false tail = tail := by
        have clean := outside_plain [] (lex_part same unseen).1.1
        rwa [append_nil,outside,append_nil] at clean
      rw [all,← List.singleton_append,← append_assoc] at ends
      rw [whole same unseen ends,nil_append,lex_prompt (by decide) (promptAt_behind line after)]
      refine ⟨lastLine line,?_,rfl⟩
      unfold lastLine
      split_ifs <;> rfl
  | case6 line c tail plain' absent inside ih =>
    have text : line ++ outside false (c :: tail) = line ++ [c] ++ outside false tail := by
      simp [outside,plain']
    rw [cons_append]
    cases found : promptAt line (c :: (tail ++ (prompt ++ after))) with
    | none =>
      rw [text] at lines unprompted
      rw [lex_other plain' inside found]
      refine ih (plain.snoc plain' inside) ?_ lines unprompted
      rwa [count_cons_of_ne plain'] at closed
    | some after' =>
      rcases promptAt_cases found with ⟨rfl,same⟩ | same
      · have unseen : ¬ prompt <+: c :: tail := not_prompt_of_none absent
        have all : outside false (c :: tail) = c :: tail := by
          have clean := outside_plain [] (lex_part same unseen).1.1
          rwa [append_nil,outside,append_nil] at clean
        rw [all] at lines
        have ends : ([] ++ (c :: tail)).getLast? = some newline := lines.resolve_left (by simp)
        exact absurd (whole same unseen ends) (by simp)
      · exact absurd (List.cons.inj same).1 inside

theorem Unprompted.part {text part rest : Bytes} (unprompted : Unprompted text)
    (lines : text = [] ∨ text.getLast? = some newline) (parts : part ++ rest = prompt) (short : rest ≠ []) :
    Unprompted (text ++ part) := by
  have clean : newline ∉ prompt := by decide
  have long : ¬ prompt <+: part := by
    intro starts
    have length := congrArg List.length parts
    have := starts.length_le
    have := List.length_pos_of_ne_nil short
    rw [length_append] at length
    omega
  have ends (front : Bytes) {within : Bytes} (starts : within <+: prompt) (any : within ≠ [])
      (last : (front ++ within).getLast? = some newline) : False := by
    rw [List.getLast?_append_of_ne_nil front any] at last
    exact clean (starts.subset (List.mem_of_getLast? last))
  constructor
  · intro starts
    rcases List.prefix_or_prefix_of_prefix starts (prefix_append text part) with longer | shorter
    · exact unprompted.1 longer
    · rcases lines with rfl | last
      · exact long starts
      · by_cases none : text = []
        · exact long (by simpa [none] using starts)
        · exact ends [] shorter none last
  · rintro ⟨before,after,same⟩
    rw [append_assoc] at same
    rcases List.append_eq_append_iff.mp same with ⟨within,rfl,tail⟩ | ⟨within,_,tail⟩
    · cases within with
      | nil => exact clean (parts ▸ List.mem_append_left rest (by simp [← show _ = part from tail]))
      | cons c within =>
        obtain ⟨rfl,inner⟩ := List.cons.inj tail
        have inner : prompt ++ after = within ++ part := inner
        rcases List.prefix_or_prefix_of_prefix (inner ▸ prefix_append prompt after)
          (prefix_append within part) with inside | starts
        · obtain ⟨more,rfl⟩ := inside
          exact unprompted.2 ⟨before,more,by simp⟩
        · by_cases none : within = []
          · rw [none,nil_append] at inner
            exact long (inner ▸ prefix_append prompt after)
          · refine ends (before ++ [newline]) starts none ?_
            simpa using lines
    · exact clean (parts ▸ List.mem_append_left rest (by simp [tail]))

theorem Body.lex_part (body : Body) {seen : Bytes} (part : seen <+: body.bytes ++ prompt)
    (short : seen.length < (body.bytes ++ prompt).length) : (lex [] seen).1.count .reply = 0 := by
  refine lex_none (by simp) ?_
  obtain ⟨rest,same⟩ := part
  rcases List.append_eq_append_iff.mp same with ⟨more,bytes,_⟩ | ⟨within,rfl,parts⟩
  · have unprompted := body.unprompted
    rw [bytes,outside_append] at unprompted
    exact unprompted.of_prefix
  · have rest_any : rest ≠ [] := by
      rintro rfl
      rw [← same] at short
      simp at short
    have clean : escape ∉ within := by
      intro mem
      have : escape ∈ prompt := parts ▸ List.mem_append_left _ mem
      exact absurd this (by decide)
    have text : outside false within = within := by
      have all := outside_plain [] clean
      rwa [append_nil,outside,append_nil] at all
    rw [nil_append,outside_append,if_pos body.closed,text]
    exact body.unprompted.part body.lines parts.symm rest_any

/-- A daemon: what it says when it starts, and in reply to the k-th command. -/
structure Daemon where
  banner : Body
  reply : Nat → Body

namespace Daemon

variable (d : Daemon)

/-- The banner and its prompt, then the replies with their prompts, each behind the space of the prompt before. -/
def segment : Nat → Bytes
  | 0 => d.banner.bytes ++ prompt
  | k+1 => space :: ((d.reply k).bytes ++ prompt)

/-- All that is sent up to the end of a prompt. -/
def sent : Nat → Bytes
  | 0 => []
  | k+1 => sent k ++ d.segment k

/-- How many prompts have arrived. -/
def arrived (consumed : Bytes) : Nat := (List.range consumed.length).countP fun k => (d.sent (k+1)).isPrefixOf consumed

end Daemon

/-- The part of a segment that has arrived, and how the agent reads it: with the space of the
    prompt before, or without it. -/
inductive Seen (d : Daemon) (k : Nat) : Bytes → Bytes → Prop
  | start : Seen d k [] []
  | within (body : Body) (cut : Bytes) {seen : Bytes} (same : d.segment k = cut ++ (body.bytes ++ prompt))
    (part : seen <+: body.bytes ++ prompt) (short : seen.length < (body.bytes ++ prompt).length) :
    Seen d k (cut ++ seen) seen

section

variable {d : Daemon} {k : Nat} {arrived seen left : Bytes}

theorem Seen.none (reads : Seen d k arrived seen) : (lex [] seen).1.count .reply = 0 := by
  cases reads with
  | start => rw [lex_nil]; rfl
  | within body cut same part short => exact body.lex_part part short

theorem Seen.short (reads : Seen d k arrived seen) : arrived <+: d.segment k ∧ arrived.length < (d.segment k).length := by
  cases reads with
  | start =>
    refine ⟨List.nil_prefix,?_⟩
    have long : prompt.length = 11 := rfl
    cases k <;> simp [Daemon.segment,long]
  | within body cut same part short =>
    rw [same]
    refine ⟨(prefix_append_right_inj cut).mpr part,?_⟩
    rw [length_append,length_append]
    omega

theorem Body.lex (body : Body) (after : Bytes) : ∃ read, read.count .reply = 0 ∧
    SensorAgent.lex [] (body.bytes ++ (prompt ++ after)) =
      (read ++ .reply :: (SensorAgent.lex [] (skipSpace after)).1,(SensorAgent.lex [] (skipSpace after)).2) :=
  lex_body after (by constructor <;> simp) body.closed body.lines body.unprompted

theorem Daemon.sent_prefix (d : Daemon) {k n : Nat} (le : k ≤ n) : d.sent k <+: d.sent n := by
  induction le with
  | refl => exact List.prefix_rfl
  | step le ih => exact ih.trans (prefix_append _ _)

theorem Seen.skip {rest : Bytes} (part : rest <+: d.segment (k+1)) (short : rest.length < (d.segment (k+1)).length) :
    Seen d (k+1) rest (skipSpace rest) := by
  cases rest with
  | nil => exact .start
  | cons c rest =>
    obtain ⟨rfl,inner⟩ := List.cons_prefix_cons.mp part
    exact .within (d.reply k) [space] rfl inner (Nat.lt_of_succ_lt_succ short)

theorem lex_future {n : Nat} {rest : Bytes} (k : Nat) (le : k ≤ n) (starts : d.sent (k+1) ++ rest <+: d.sent (n+2))
    (short : (d.sent (k+1) ++ rest).length < (d.sent (n+2)).length) : ∃ m last seen read, k + m ≤ n ∧
    d.sent (k+1) ++ rest = d.sent (k+m+1) ++ last ∧ Seen d (k+m+1) last seen ∧ read.count .reply = m ∧
    lex [] (skipSpace rest) = (read ++ (lex [] seen).1,(lex [] seen).2) := by
  induction le using Nat.decreasingInduction generalizing rest with
  | self =>
    have part := (prefix_append_right_inj (d.sent (n+1))).mp starts
    have short' : rest.length < (d.segment (n+1)).length := by
      simpa [Daemon.sent] using short
    exact ⟨0,rest,skipSpace rest,[],Nat.le_refl n,rfl,.skip part short',rfl,rfl⟩
  | of_succ k le ih =>
    have within : rest <+: d.segment (k+1) ∨ d.segment (k+1) <+: rest := by
      have later : d.sent (k+1) ++ d.segment (k+1) <+: d.sent (n+2) := d.sent_prefix (show k+2 ≤ n+2 by omega)
      rcases List.prefix_or_prefix_of_prefix starts later with part | whole
      · exact .inl ((prefix_append_right_inj _).mp part)
      · exact .inr ((prefix_append_right_inj _).mp whole)
    by_cases short' : rest.length < (d.segment (k+1)).length
    · have part : rest <+: d.segment (k+1) := by
        refine within.resolve_right fun whole => ?_
        have := whole.length_le
        omega
      exact ⟨0,rest,skipSpace rest,[],by omega,rfl,.skip part short',rfl,rfl⟩
    · have whole : d.segment (k+1) <+: rest := by
        rcases within with part | whole
        · rw [part.eq_of_length_le (Nat.not_lt.mp short')]
        · exact whole
      obtain ⟨rest,rfl⟩ := whole
      rw [← append_assoc] at starts short ⊢
      obtain ⟨m,last,seen,read,most,split,reads,replies,uncut⟩ := ih starts short
      obtain ⟨first,none,body⟩ := (d.reply k).lex rest
      refine ⟨m+1,last,seen,first ++ .reply :: read,by omega,?_,?_,?_,?_⟩
      · rw [show k+(m+1)+1 = k+1+m+1 by omega]
        exact split
      · rw [show k+(m+1)+1 = k+1+m+1 by omega]
        exact reads
      · rw [count_append,none,count_cons_self,replies,Nat.zero_add]
      · have skipped : skipSpace (d.segment (k+1) ++ rest) = (d.reply k).bytes ++ (prompt ++ rest) := by
          simp [Daemon.segment,skipSpace]
        rw [skipped,body,uncut]
        simp

theorem lex_resume (more : Bytes) (none : (lex [] seen).1.count .reply = 0) :
    (lex [] ((lex [] seen).2.1 ++ more)).1.count .reply = (lex [] (seen ++ more)).1.count .reply ∧
    (lex [] ((lex [] seen).2.1 ++ more)).2 = (lex [] (seen ++ more)).2 := by
  have keeps : KeepsSpace (lex [] seen) seen more := by
    intro last
    exact absurd (List.mem_of_getLast? last) (List.count_eq_zero.mp none)
  obtain ⟨front,extra,read,_,uncut⟩ := lex_append [] seen plain_nil (fun any => absurd rfl any) keeps
  rw [read,count_append] at none
  rw [uncut]
  refine ⟨?_,rfl⟩
  simp only [count_append]
  omega

/-- A call does not start between a prompt and its space while the next reply has no text. -/
def Lucky (d : Daemon) (consumed buf : Bytes) : Prop := ∀ k, consumed = d.sent (k+1) → buf ≠ [] → (d.reply k).text ≠ []

theorem Seen.body {buf : Bytes} (reads : Seen d k arrived seen) (lucky : Lucky d (d.sent k ++ arrived) buf) (any : buf ≠ []) :
    ∃ body cut, d.segment k = cut ++ (Body.bytes body ++ prompt) ∧ arrived = cut ++ seen ∧
    seen <+: body.bytes ++ prompt ∧ seen.length < (body.bytes ++ prompt).length := by
  have long (body : Body) : ([] : Bytes).length < (body.bytes ++ prompt).length := by
    have : prompt.length = 11 := rfl
    simp [this]
  cases reads with
  | start =>
    cases k with
    | zero => exact ⟨d.banner,[],rfl,rfl,List.nil_prefix,long _⟩
    | succ j => exact ⟨(d.reply j).behindSpace (lucky j (append_nil _) any),[],rfl,rfl,List.nil_prefix,long _⟩
  | within body cut same part short => exact ⟨body,cut,same,rfl,part,short⟩

theorem Seen.call {n : Nat} {buf : Bytes} (reads : Seen d k arrived seen)
    (lucky : Lucky d (d.sent k ++ arrived) buf) (le : k ≤ n+1) (starts : d.sent k ++ (arrived ++ buf) <+: d.sent (n+2))
    (short : (d.sent k ++ (arrived ++ buf)).length < (d.sent (n+2)).length) :
    ∃ m last seen', k + m ≤ n+1 ∧ d.sent k ++ (arrived ++ buf) = d.sent (k+m) ++ last ∧ Seen d (k+m) last seen' ∧
    (lex [] ((lex [] seen).2.1 ++ buf)).1.count .reply = m ∧ (lex [] ((lex [] seen).2.1 ++ buf)).2 = (lex [] seen').2 := by
  obtain ⟨replies,left⟩ := lex_resume buf reads.none
  rw [replies,left]
  by_cases any : buf = []
  · rw [any,append_nil,append_nil]
    exact ⟨0,arrived,seen,le,rfl,reads,reads.none,rfl⟩
  obtain ⟨body,cut,same,rfl,part,_⟩ := reads.body lucky any
  have within : seen ++ buf <+: body.bytes ++ prompt ∨ body.bytes ++ prompt <+: seen ++ buf := by
    have later : d.sent k ++ d.segment k <+: d.sent (n+2) := d.sent_prefix (show k+1 ≤ n+2 by omega)
    rw [same] at later
    rw [append_assoc] at starts
    rcases List.prefix_or_prefix_of_prefix starts later with part | whole
    · exact .inl ((prefix_append_right_inj cut).mp ((prefix_append_right_inj _).mp part))
    · exact .inr ((prefix_append_right_inj cut).mp ((prefix_append_right_inj _).mp whole))
  by_cases inner : (seen ++ buf).length < (body.bytes ++ prompt).length
  · have part : seen ++ buf <+: body.bytes ++ prompt := by
      refine within.resolve_right fun whole => ?_
      have := whole.length_le
      omega
    refine ⟨0,cut ++ (seen ++ buf),seen ++ buf,le,by simp,?_,body.lex_part part inner,rfl⟩
    exact .within body cut same part inner
  · have whole : body.bytes ++ prompt <+: seen ++ buf := by
      rcases within with part | whole
      · rw [part.eq_of_length_le (Nat.not_lt.mp inner)]
      · exact whole
    obtain ⟨rest,all⟩ := whole
    have sent : d.sent k ++ (cut ++ seen ++ buf) = d.sent (k+1) ++ rest := by
      rw [append_assoc,← all,Daemon.sent,same]
      simp
    rw [sent] at starts short ⊢
    have le' : k ≤ n := by
      by_contra past
      rw [show k+1 = n+2 by omega,length_append] at short
      omega
    obtain ⟨m,last,seen',read,most,split,reads,replies',uncut⟩ := lex_future k le' starts short
    obtain ⟨first,none,read_body⟩ := body.lex rest
    rw [append_assoc] at all
    rw [← all,read_body,uncut]
    refine ⟨m+1,last,seen',by omega,?_,?_,?_,rfl⟩
    · rw [show k+(m+1) = k+m+1 by omega]
      exact split
    · rw [show k+(m+1) = k+m+1 by omega]
      exact reads
    · simp only [count_append,count_cons_self,none,replies',reads.none]
      omega

theorem Daemon.le_sent (d : Daemon) (k : Nat) : k ≤ (d.sent k).length := by
  induction k with
  | zero => exact Nat.zero_le _
  | succ k ih =>
    have long : prompt.length = 11 := rfl
    have segment : 0 < (d.segment k).length := by
      cases k <;> simp [Daemon.segment,long]
    rw [Daemon.sent,length_append]
    omega

theorem countP_lt_range (k n : Nat) : (List.range n).countP (· < k) = min k n := by
  induction n with
  | zero => simp
  | succ n ih =>
    rw [List.range_succ,List.countP_append,ih]
    by_cases within : n < k
    · simp [within]
      omega
    · simp [within]
      omega

theorem Seen.count (reads : Seen d k arrived seen) : d.arrived (d.sent k ++ arrived) = k := by
  have is_sent (j : Nat) : (d.sent (j+1)).isPrefixOf (d.sent k ++ arrived) = decide (j < k) := by
    rw [Bool.eq_iff_iff,List.isPrefixOf_iff_prefix,decide_eq_true_iff]
    constructor
    · intro starts
      by_contra later
      have starts := (d.sent_prefix (show k+1 ≤ j+1 by omega)).trans starts
      have := ((prefix_append_right_inj _).mp starts).length_le
      have := reads.short.2
      omega
    · intro earlier
      exact (d.sent_prefix earlier).trans (prefix_append _ _)
  have all := d.le_sent k
  unfold Daemon.arrived
  simp only [is_sent]
  rw [countP_lt_range,length_append]
  omega

end

/-- A request that was accepted from a client, which may have disconnected since. -/
structure Entry where
  request : String
  client : Nat
  id : Int
  connected : Bool
deriving Repr, DecidableEq

namespace Entry

/-- The request as the agent keeps it. -/
def held (entry : Entry) : SensorRequest := ⟨entry.request,if entry.connected then some entry.client else none,entry.id⟩

/-- Who gets the answer. -/
def answer (entry : Entry) : Option (Nat × Int) := if entry.connected then some (entry.client,entry.id) else none

def disconnect (client : Nat) (entry : Entry) : Entry :=
  if entry.client = client then { entry with connected := false } else entry

end Entry

/-- What the agent is for: every accepted request is answered once, in order. The answers are
    those so far; there is none for a client that disconnected. -/
structure Ledger where
  entries : List Entry
  answers : List (Option (Nat × Int))
deriving Repr, DecidableEq

namespace Ledger

/-- What waits for an answer, written or not. -/
def waiting (l : Ledger) : List Entry := l.entries.drop l.answers.length

/-- A request that still waits for its answer is not accepted again. -/
def send (l : Ledger) (req : String) (client : Nat) (id : Int) : Ledger :=
  let entry : Entry := ⟨req,client,id,true⟩
  if entry ∈ l.waiting then l else { l with entries := l.entries ++ [entry] }

def disconnect (l : Ledger) (client : Nat) : Ledger := { l with entries := l.entries.map (.disconnect client) }

def reply (l : Ledger) : Ledger := { l with answers := l.answers ++ [l.waiting.head?.bind Entry.answer] }

end Ledger

/-- Who got an answer. -/
def recipient : Delivery → Option (Nat × Int)
  | .answerReceived client id _ => some (client,id)
  | .sensorLost client id => some (client,id)
  | _ => none

/-- The agent keeps the ledger: its queues are what waits, it has written the first requests, each
    once, and has told the recipients of the answers. -/
structure Keeps (s : Agent) (l : Ledger) : Prop where
  queues : s.processingFIFO ++ s.inputFIFO = l.waiting.map Entry.held
  order : s.written.map (fun req => (req.request,req.id)) =
    (l.entries.take s.written.length).map fun entry => (entry.request,entry.id)
  written : s.written.length = l.answers.length + s.processingFIFO.length
  told : s.delivered.filterMap recipient = l.answers.reduceOption
  offline : s.daemonOnLine = false → s.written = []

theorem held_inj {entry : Entry} {req : String} {client : Nat} {id : Int} :
    entry.held = ⟨req,some client,id⟩ ↔ entry = ⟨req,client,id,true⟩ := by
  obtain ⟨request,client',id',connected⟩ := entry
  cases connected <;> simp [Entry.held]

theorem held_disconnect (client : Nat) (entry : Entry) :
    (entry.disconnect client).held = Agent.forget client entry.held := by
  obtain ⟨request,client',id,connected⟩ := entry
  by_cases same : client' = client
  · cases connected <;> simp [Entry.held,Entry.disconnect,Agent.forget,same]
  · cases connected <;> simp [Entry.held,Entry.disconnect,Agent.forget,same]

theorem recipient_answered (s : Agent) (req : SensorRequest) (client : Nat) :
    recipient (s.answered req client) = some (client,req.id) := by
  unfold Agent.answered
  split_ifs <;> rfl

namespace Keeps

variable {s : Agent} {l : Ledger}

theorem le_entries (keeps : Keeps s l) : s.written.length ≤ l.entries.length := by
  have lengths := congrArg List.length keeps.order
  simp only [List.length_map,List.length_take] at lengths
  omega

theorem executeCommand (keeps : Keeps s l) : Keeps s.executeCommand l := by
  obtain ⟨queues,order,written,told,offline⟩ := keeps
  unfold Agent.executeCommand
  split
  · rename_i req rest online input
    have next : (l.entries[s.written.length]?).map Entry.held = some req := by
      have found := congrArg (fun queue => queue[s.processingFIFO.length]?) queues
      simp only [input,Ledger.waiting,List.getElem?_map,List.getElem?_drop] at found
      rw [written,← found]
      simp
    obtain ⟨entry,here,held⟩ := Option.map_eq_some_iff.mp next
    constructor
    · rw [← queues,input,append_assoc]
      rfl
    · rw [map_append,order,length_append,length_singleton,List.take_add_one,here,map_append,← held]
      rfl
    · simp only [length_append,length_singleton]
      omega
    · exact told
    · intro off
      exact absurd (online.symm.trans off) (by simp)
  · exact ⟨queues,order,written,told,offline⟩

theorem mem_waiting (keeps : Keeps s l) (req : String) (client : Nat) (id : Int) :
    (⟨req,client,id,true⟩ ∈ l.waiting) ↔
      ⟨req,some client,id⟩ ∈ s.processingFIFO ∨ ⟨req,some client,id⟩ ∈ s.inputFIFO := by
  rw [← List.mem_append,keeps.queues,List.mem_map]
  simp only [held_inj,exists_eq_right]

theorem accept (keeps : Keeps s l) (entry : Entry) :
    Keeps { s with inputFIFO := s.inputFIFO ++ [entry.held] } { l with entries := l.entries ++ [entry] } := by
  have few := keeps.le_entries
  obtain ⟨queues,order,written,told,offline⟩ := keeps
  constructor
  · have before : l.answers.length ≤ l.entries.length := by omega
    simp only [Ledger.waiting]
    rw [List.drop_append_of_le_length before,map_append,← append_assoc,queues]
    rfl
  · simp only [List.take_append_of_le_length few]
    exact order
  · exact written
  · exact told
  · exact offline

theorem sendRequest (keeps : Keeps s l) (req : String) (client : Nat) (id : Int) :
    Keeps (s.sendRequest req client id) (l.send req client id) := by
  have mem := keeps.mem_waiting req client id
  unfold Agent.sendRequest Ledger.send
  dsimp only
  by_cases input : ⟨req,some client,id⟩ ∈ s.inputFIFO
  · rw [if_pos input,if_pos (mem.mpr (.inr input))]
    exact keeps.executeCommand
  · rw [if_neg input]
    by_cases processing : ⟨req,some client,id⟩ ∈ s.processingFIFO
    · rw [if_pos processing,if_pos (mem.mpr (.inl processing))]
      exact keeps
    · rw [if_neg processing,if_neg fun waits => (mem.mp waits).elim processing input]
      exact (keeps.accept ⟨req,client,id,true⟩).executeCommand

theorem disconnectClient (keeps : Keeps s l) (client : Nat) :
    Keeps (s.disconnectClient client) (l.disconnect client) := by
  obtain ⟨queues,order,written,told,offline⟩ := keeps
  constructor
  · have forgotten := congrArg (List.map (Agent.forget client)) queues
    simp only [Agent.disconnectClient,Ledger.disconnect,Ledger.waiting,map_append,List.map_map,List.map_drop] at forgotten ⊢
    rw [forgotten]
    congr 1
    refine List.map_congr_left fun entry _ => ?_
    exact (held_disconnect client entry).symm
  · have same : (fun entry : Entry => (entry.request,entry.id)) ∘ Entry.disconnect client =
        fun entry => (entry.request,entry.id) := by
      funext entry
      simp only [Function.comp,Entry.disconnect]
      split_ifs <;> rfl
    simp only [Agent.disconnectClient,Ledger.disconnect,← List.map_take,List.map_map,same]
    exact order
  · simpa [Agent.disconnectClient,Ledger.disconnect] using written
  · exact told
  · exact offline

theorem reply (keeps : Keeps s l) (online : s.daemonOnLine = true) (any : s.processingFIFO ≠ []) :
    Keeps s.reply l.reply := by
  obtain ⟨queues,order,written,told,offline⟩ := keeps
  obtain ⟨req,rest,queue⟩ := List.exists_cons_of_ne_nil any
  rw [queue,cons_append] at queues
  obtain ⟨entry,more,waiting,held,others⟩ := List.map_eq_cons_iff.mp queues.symm
  have waiting' : l.reply.waiting = more := by
    simp only [Ledger.reply,Ledger.waiting,length_append,length_singleton]
    rw [← List.tail_drop]
    exact congrArg List.tail waiting
  have answers : l.reply.answers = l.answers ++ [entry.answer] := by
    simp only [Ledger.reply]
    rw [waiting]
    rfl
  have recipient : entry.answer = req.client.map (·,req.id) := by
    rw [← held]
    unfold Entry.answer Entry.held
    split_ifs <;> rfl
  have queues' : rest ++ s.inputFIFO = l.reply.waiting.map Entry.held := by rw [waiting',others]
  have written' : s.written.length = l.reply.answers.length + rest.length := by
    rw [answers,length_append,length_singleton]
    rw [queue,List.length_cons] at written
    omega
  unfold Agent.reply
  rw [online,queue]
  simp only [Bool.not_true,Bool.false_eq_true,if_false]
  cases client : req.client with
  | none =>
    refine ⟨queues',order,written',?_,fun off => absurd off (by simp)⟩
    rw [answers,recipient,client,List.reduceOption_append]
    simpa using told
  | some client' =>
    refine ⟨queues',order,written',?_,fun off => absurd off (by simp)⟩
    rw [answers,recipient,client,List.reduceOption_append,List.filterMap_append,told]
    simp [recipient_answered]

theorem message (keeps : Keeps s l) (error : Bytes) : Keeps (s.message error) l := by
  obtain ⟨queues,order,written,told,offline⟩ := keeps
  refine ⟨queues,order,written,?_,offline⟩
  simp only [Agent.message,List.filterMap_append,told]
  split_ifs <;> simp [recipient]

theorem tokens {read : List Token} (keeps : Keeps s l) (enough : Enough s read) :
    Keeps (s.tokens read) (Ledger.reply^[if s.daemonOnLine then read.count .reply else read.count .reply-1] l) ∧
    (s.tokens read).daemonOnLine = (s.daemonOnLine || 0 < read.count .reply) ∧ (s.tokens read).written = s.written := by
  induction read generalizing s l with
  | nil => simpa [Agent.tokens] using keeps
  | cons token read ih =>
    cases token with
    | message error =>
      rw [count_cons_of_ne (by simp)]
      exact ih (s := s.message error) (keeps.message error) enough
    | line line =>
      obtain ⟨queues,order,written,told,offline⟩ := keeps
      rw [count_cons_of_ne (by simp)]
      exact ih (s := s.addLine line) ⟨queues,order,written,told,offline⟩ enough
    | reply =>
      cases online : s.daemonOnLine with
      | false =>
        have greeted : s.reply = { s with daemonOnLine := true, answerBuffer := [] } := by simp [Agent.reply,online]
        have keeps' : Keeps s.reply l := by
          obtain ⟨queues,order,written,told,_⟩ := keeps
          rw [greeted]
          exact ⟨queues,order,written,told,fun off => absurd off (by simp)⟩
        have done := ih keeps' enough.reply
        have run : s.tokens (.reply :: read) = s.reply.tokens read := rfl
        rw [run,count_cons_self,Nat.add_sub_cancel]
        simpa [greeted] using done
      | true =>
        have any : s.processingFIFO ≠ [] := by
          intro none
          simp [Enough,online,none] at enough
        have same : s.reply.daemonOnLine = true ∧ s.reply.written = s.written := by
          unfold Agent.reply
          rw [online]
          simp only [Bool.not_true,Bool.false_eq_true,if_false]
          split
          · exact ⟨rfl,rfl⟩
          · split <;> exact ⟨rfl,rfl⟩
        have done := ih (keeps.reply online any) enough.reply
        have run : s.tokens (.reply :: read) = s.reply.tokens read := rfl
        rw [same.1,same.2] at done
        rw [run,count_cons_self]
        simpa [Nat.iterate] using done

end Keeps

theorem lex_escapes (line rest : Bytes) (plain : escape ∉ line) :
    (lex line rest).2.1.count escape % 2 = rest.count escape % 2 ∧
    ((lex line rest).2.2 = true → rest.count escape % 2 = 1) := by
  have absent {text : Bytes} (plain : escape ∉ text) : text.count escape = 0 := List.count_eq_zero.mpr plain
  induction line, rest using lex.induct with
  | case1 line =>
    rw [lex_nil,absent plain]
    exact ⟨rfl,fun open_ => absurd open_ (by simp)⟩
  | case2 line tail error after found ih =>
    have count := (outside_closing found).2
    obtain ⟨left,unterminated⟩ := ih (by simp)
    rw [count_append,absent plain,Nat.zero_add] at left unterminated
    rw [lex_message found,count_cons_self,count]
    dsimp only
    constructor
    · omega
    · intro open_
      have := unterminated open_
      omega
  | case3 line tail none =>
    have count := absent (outside_unterminated none)
    rw [lex_unterminated none,count_append,absent plain,count_cons_self,count]
    exact ⟨rfl,fun _ => rfl⟩
  | case4 line c tail plain' after found ih =>
    have skipped : (skipSpace after).count escape = after.count escape := by
      cases after with
      | nil => rfl
      | cons c after =>
        simp only [skipSpace]
        split_ifs with same
        · rw [same,count_cons_of_ne (by decide)]
        · rfl
    have clean : prompt.count escape = 0 := by decide
    have count : (c :: tail).count escape = after.count escape := by
      rcases promptAt_cases found with ⟨_,same⟩ | same
      · rw [same,count_append,clean,Nat.zero_add]
      · rw [same,count_cons_of_ne (by decide),count_append,clean,Nat.zero_add]
    rw [lex_prompt plain' found,count,← skipped]
    exact ih (by simp)
  | case5 line tail plain' none ih =>
    rw [lex_newline none]
    exact ih (by simp)
  | case6 line c tail plain' none inside ih =>
    rw [lex_other plain' inside none,count_cons_of_ne plain']
    exact ih (by simp [plain,Ne.symm plain'])

/-- The agent, its ledger, and what has arrived from the daemon. -/
structure System where
  agent : Agent
  ledger : Ledger
  consumed : Bytes
deriving Repr, DecidableEq

namespace System

def initial : System := ⟨⟨[],[],[],[],false,[],[]⟩,⟨[],[]⟩,[]⟩

def sendRequest (s : System) (req : String) (client : Nat) (id : Int) : System :=
  { s with agent := s.agent.sendRequest req client id, ledger := s.ledger.send req client id }

def disconnectClient (s : System) (client : Nat) : System :=
  { s with agent := s.agent.disconnectClient client, ledger := s.ledger.disconnect client }

/-- Every reply that arrives is the answer to the next request. -/
def processAnswer (d : Daemon) (s : System) (buf : Bytes) : System :=
  let consumed := s.consumed ++ buf
  { agent := s.agent.processAnswer buf
    ledger := Ledger.reply^[d.arrived consumed-1-s.ledger.answers.length] s.ledger
    consumed }

/-- The daemon has sent this, and no prompt but the first without a command. -/
def Answers (d : Daemon) (s : System) (buf : Bytes) : Prop :=
  s.consumed ++ buf <+: d.sent (s.agent.written.length+2) ∧
  (s.consumed ++ buf).length < (d.sent (s.agent.written.length+2)).length

instance (d : Daemon) (s : System) (buf : Bytes) : Decidable (s.Answers d buf) := inferInstanceAs (Decidable (_ ∧ _))

end System

/-- The runs of an agent with its daemon, with calls of a kind. -/
inductive Run (d : Daemon) (kind : Bytes → Bytes → Prop) : System → Prop
  | initial : Run d kind .initial
  | sendRequest {s : System} (run : Run d kind s) (req : String) (client : Nat) (id : Int) :
    Run d kind (s.sendRequest req client id)
  | disconnectClient {s : System} (run : Run d kind s) (client : Nat) : Run d kind (s.disconnectClient client)
  | processAnswer {s : System} (run : Run d kind s) {buf : Bytes} (answers : s.Answers d buf)
    (call : kind s.consumed buf) : Run d kind (s.processAnswer d buf)

/-- The k-th reply is for the client of the k-th request written, or dropped if that one disconnected. -/
def Ledger.Fair (l : Ledger) : Prop :=
  ∀ (k : Nat) (entry : Entry) (answer : Option (Nat × Int)), l.entries[k]? = some entry → l.answers[k]? = some answer →
    answer = some (entry.client,entry.id) ∨ answer = none ∧ entry.connected = false

/-- Where the agent is in what the daemon sends. -/
structure At (d : Daemon) (s : System) (k : Nat) (rest seen : Bytes) : Prop where
  consumed : s.consumed = d.sent k ++ rest
  reads : Seen d k rest seen
  leftOver : s.agent.leftOverBuffer = (lex [] seen).2.1
  written : k ≤ s.agent.written.length+1
  onLine : s.agent.daemonOnLine = decide (0 < k)
  answers : s.ledger.answers.length = k-1

/-- There is a request to answer whenever one could be written, or a message is open. -/
def Busy (s : System) : Prop :=
  s.agent.daemonOnLine = true → s.agent.inputFIFO ≠ [] → s.agent.processingFIFO ≠ [] ∨ s.consumed.count escape % 2 = 1

structure Invariant (d : Daemon) (s : System) : Prop where
  keeps : Keeps s.agent s.ledger
  position : ∃ k rest seen, At d s k rest seen
  fair : s.ledger.Fair
  busy : Busy s
  escapes : s.agent.leftOverBuffer.count escape % 2 = s.consumed.count escape % 2

namespace Ledger

variable {l : Ledger}

theorem Fair.send (fair : l.Fair) (few : l.answers.length ≤ l.entries.length) (req : String) (client : Nat) (id : Int) :
    (l.send req client id).Fair := by
  unfold Ledger.send
  dsimp only
  split_ifs
  · exact fair
  · intro k entry answer here given
    have old : k < l.entries.length := Nat.lt_of_lt_of_le (List.getElem?_eq_some_iff.mp given).1 few
    rw [List.getElem?_append_left old] at here
    exact fair k entry answer here given

theorem Fair.disconnect (fair : l.Fair) (client : Nat) : (l.disconnect client).Fair := by
  intro k entry answer here given
  simp only [Ledger.disconnect,List.getElem?_map] at here
  obtain ⟨before,old,rfl⟩ := Option.map_eq_some_iff.mp here
  have kept := fair k before answer old given
  unfold Entry.disconnect
  split_ifs
  · exact kept.imp_right fun dropped => ⟨dropped.1,rfl⟩
  · exact kept

theorem Fair.reply (fair : l.Fair) : l.reply.Fair := by
  intro k entry answer here given
  simp only [Ledger.reply,waiting,List.head?_drop] at here given
  by_cases old : k < l.answers.length
  · rw [List.getElem?_append_left old] at given
    exact fair k entry answer here given
  · have last : k = l.answers.length := by
      have := (List.getElem?_eq_some_iff.mp given).1
      rw [length_append,length_singleton] at this
      omega
    rw [last] at here given
    rw [List.getElem?_concat_length,here,Option.some_inj] at given
    subst given
    simp only [Option.bind_some,Entry.answer]
    split_ifs with connected
    · exact .inl rfl
    · exact .inr ⟨rfl,by simpa using connected⟩

theorem Fair.replies (fair : l.Fair) (n : Nat) : (Ledger.reply^[n] l).Fair := by
  induction n generalizing l with
  | zero => exact fair
  | succ n ih => exact ih fair.reply

theorem replies_length (l : Ledger) (n : Nat) : (Ledger.reply^[n] l).answers.length = l.answers.length + n := by
  induction n generalizing l with
  | zero => rfl
  | succ n ih =>
    rw [Nat.iterate,ih,Ledger.reply,length_append,length_singleton]
    omega

end Ledger

section

variable {s : Agent}

theorem executeCommand_frame (s : Agent) : s.executeCommand.daemonOnLine = s.daemonOnLine ∧
    s.written.length ≤ s.executeCommand.written.length := by
  unfold Agent.executeCommand
  split <;> simp

theorem executeCommand_busy (online : s.daemonOnLine = true) (input : s.executeCommand.inputFIFO ≠ []) :
    s.executeCommand.processingFIFO ≠ [] := by
  unfold Agent.executeCommand at input ⊢
  split
  · simp
  · rename_i absent
    cases queue : s.inputFIFO with
    | nil => simp [online,queue] at input
    | cons req rest => exact absurd queue (absent req rest online)

theorem sendRequest_cases (s : Agent) (req : String) (client : Nat) (id : Int) :
    (∃ inputFIFO, s.sendRequest req client id = { s with inputFIFO }.executeCommand) ∨
    s.sendRequest req client id = s ∧ s.processingFIFO ≠ [] := by
  unfold Agent.sendRequest
  dsimp only
  split_ifs with input processing
  · exact .inl ⟨s.inputFIFO,rfl⟩
  · exact .inr ⟨rfl,List.ne_nil_of_mem processing⟩
  · exact .inl ⟨_,rfl⟩

end

variable {d : Daemon} {s : System}

theorem send_answers (l : Ledger) (req : String) (client : Nat) (id : Int) :
    (l.send req client id).answers = l.answers := by
  unfold Ledger.send
  dsimp only
  split_ifs <;> rfl

theorem Invariant.sendRequest (invariant : Invariant d s) (req : String) (client : Nat) (id : Int) :
    Invariant d (s.sendRequest req client id) := by
  obtain ⟨keeps,⟨k,rest,seen,stands⟩,fair,busy,escapes⟩ := invariant
  have few : s.ledger.answers.length ≤ s.ledger.entries.length := by
    have := keeps.le_entries
    have := keeps.written
    omega
  have answers := (congrArg List.length (send_answers s.ledger req client id)).trans stands.answers
  rcases sendRequest_cases s.agent req client id with ⟨inputFIFO,sent⟩ | ⟨sent,processing⟩
  · have leftOver := executeCommand_leftOver { s.agent with inputFIFO }
    obtain ⟨onLine,written⟩ := executeCommand_frame { s.agent with inputFIFO }
    have busy' := executeCommand_busy (s := { s.agent with inputFIFO })
    rw [← sent] at leftOver onLine written busy'
    refine ⟨keeps.sendRequest req client id,⟨k,rest,seen,?_⟩,fair.send few req client id,?_,?_⟩
    · exact ⟨stands.consumed,stands.reads,leftOver.trans stands.leftOver,
        stands.written.trans (Nat.add_le_add_right written 1),onLine.trans stands.onLine,answers⟩
    · intro online input
      exact .inl (busy' (onLine.symm.trans online) input)
    · exact (congrArg (·.count escape % 2) leftOver).trans escapes
  · have same : (s.sendRequest req client id).agent = s.agent := sent
    refine ⟨keeps.sendRequest req client id,⟨k,rest,seen,?_⟩,fair.send few req client id,?_,?_⟩
    · refine ⟨stands.consumed,stands.reads,?_,?_,?_,answers⟩
      · rw [same,stands.leftOver]
      · rw [same]
        exact stands.written
      · rw [same,stands.onLine]
    · intro _ _
      rw [same]
      exact .inl processing
    · rw [same]
      exact escapes

theorem Invariant.disconnectClient (invariant : Invariant d s) (client : Nat) :
    Invariant d (s.disconnectClient client) := by
  obtain ⟨keeps,⟨k,rest,seen,stands⟩,fair,busy,escapes⟩ := invariant
  refine ⟨keeps.disconnectClient client,⟨k,rest,seen,?_⟩,fair.disconnect client,?_,escapes⟩
  · exact ⟨stands.consumed,stands.reads,stands.leftOver,stands.written,stands.onLine,stands.answers⟩
  · intro online input
    simpa [System.disconnectClient,Agent.disconnectClient] using
      busy online (by simpa [System.disconnectClient,Agent.disconnectClient] using input)

theorem processAnswer_eq (s : Agent) (buf : Bytes) :
    let read := lex [] (s.leftOverBuffer ++ buf)
    let t := { { s with leftOverBuffer := [] }.tokens read.1 with leftOverBuffer := read.2.1 }
    s.processAnswer buf = if read.2.2 then t else t.executeCommand := by
  unfold Agent.processAnswer
  rw [scan_eq]

theorem Keeps.processAnswer {s : Agent} {l : Ledger} {buf : Bytes} (keeps : Keeps s l)
    (enough : Enough s (lex [] (s.leftOverBuffer ++ buf)).1) :
    let read := lex [] (s.leftOverBuffer ++ buf)
    let t := s.processAnswer buf
    Keeps t (Ledger.reply^[if s.daemonOnLine then read.1.count .reply else read.1.count .reply-1] l) ∧
    t.leftOverBuffer = read.2.1 ∧ t.daemonOnLine = (s.daemonOnLine || 0 < read.1.count .reply) ∧
    s.written.length ≤ t.written.length ∧
    (t.daemonOnLine = true → t.inputFIFO ≠ [] → t.processingFIFO ≠ [] ∨ read.2.2 = true) := by
  have cleared : Keeps { s with leftOverBuffer := [] } l := by
    obtain ⟨queues,order,written,told,offline⟩ := keeps
    exact ⟨queues,order,written,told,offline⟩
  obtain ⟨⟨queues,order,written,told,offline⟩,onLine,same⟩ := cleared.tokens enough
  have more (t : Agent) (leftOver : Bytes) :
      t.written.length ≤ { t with leftOverBuffer := leftOver }.executeCommand.written.length :=
    (executeCommand_frame { t with leftOverBuffer := leftOver }).2
  dsimp only
  rw [processAnswer_eq]
  dsimp only
  split
  · rename_i unterminated
    exact ⟨⟨queues,order,written,told,offline⟩,rfl,onLine,(congrArg List.length same).ge,fun _ _ => .inr unterminated⟩
  · refine ⟨Keeps.executeCommand ⟨queues,order,written,told,offline⟩,executeCommand_leftOver _,?_,?_,?_⟩
    · exact (executeCommand_frame _).1.trans onLine
    · exact (congrArg List.length same).ge.trans (more _ _)
    · intro online input
      exact .inl (executeCommand_busy ((executeCommand_frame _).1.symm.trans online) input)

theorem Invariant.processAnswer (invariant : Invariant d s) {buf : Bytes} (answers : s.Answers d buf)
    (lucky : Lucky d s.consumed buf) : Invariant d (s.processAnswer d buf) := by
  obtain ⟨keeps,⟨k,rest,seen,stands⟩,fair,busy,escapes⟩ := invariant
  obtain ⟨starts,short⟩ := answers
  rw [stands.consumed,append_assoc] at starts short
  rw [stands.consumed] at lucky
  obtain ⟨m,last,seen',most,split,reads,replies,left⟩ := stands.reads.call lucky stands.written starts short
  rw [← stands.leftOver] at replies left
  have consumed : s.consumed ++ buf = d.sent (k+m) ++ last := by rw [stands.consumed,append_assoc,split]
  have arrived : d.arrived (s.consumed ++ buf) = k+m := by
    rw [consumed]
    exact reads.count
  have answers := stands.answers
  have written := keeps.written
  have enough : Enough s.agent (lex [] (s.agent.leftOverBuffer ++ buf)).1 := by
    unfold Enough
    rw [replies,stands.onLine]
    rcases Nat.eq_zero_or_pos k with rfl | pos
    · have none := congrArg List.length (keeps.offline stands.onLine)
      rw [List.length_nil] at none
      simp
      omega
    · simp [pos]
      omega
  obtain ⟨keeps',leftOver,onLine,more,busy'⟩ := keeps.processAnswer enough
  have due : (if s.agent.daemonOnLine then (lex [] (s.agent.leftOverBuffer ++ buf)).1.count .reply
      else (lex [] (s.agent.leftOverBuffer ++ buf)).1.count .reply-1) =
      d.arrived (s.consumed ++ buf)-1-s.ledger.answers.length := by
    rw [arrived,replies,stands.onLine]
    split_ifs with online
    · have : 0 < k := by simpa using online
      omega
    · have : k = 0 := by simpa using online
      omega
  rw [due] at keeps'
  have escapes' : (s.agent.leftOverBuffer ++ buf).count escape % 2 = (s.consumed ++ buf).count escape % 2 := by
    rw [count_append,count_append]
    omega
  obtain ⟨parity,unterminated⟩ := lex_escapes [] (s.agent.leftOverBuffer ++ buf) (by simp)
  refine ⟨keeps',⟨k+m,last,seen',?_⟩,fair.replies _,?_,?_⟩
  · refine ⟨consumed,reads,leftOver.trans (congrArg Prod.fst left),?_,?_,?_⟩
    · exact most.trans (Nat.add_le_add_right more 1)
    · refine onLine.trans ?_
      rw [stands.onLine,replies,Bool.eq_iff_iff]
      simp
    · rw [System.processAnswer,Ledger.replies_length,arrived]
      omega
  · intro online input
    refine (busy' online input).imp_right fun open_ => ?_
    exact escapes'.symm.trans (unterminated open_)
  · refine (congrArg (·.count escape % 2) leftOver).trans ?_
    exact parity.trans escapes'

theorem run_invariant (run : Run d (Lucky d) s) : Invariant d s := by
  induction run with
  | initial =>
    refine ⟨⟨rfl,rfl,rfl,rfl,fun _ => rfl⟩,⟨0,[],[],rfl,.start,by rw [lex_nil]; rfl,by simp,rfl,rfl⟩,?_,?_,rfl⟩
    · intro k entry answer here
      simp [System.initial] at here
    · intro online
      exact absurd online (by decide)
  | sendRequest _ req client id ih => exact ih.sendRequest req client id
  | disconnectClient _ client ih => exact ih.disconnectClient client
  | processAnswer _ answers call ih => exact ih.processAnswer answers call

/-- Answers go to those who asked, requests are written once and in order, and none is lost. -/
structure Routed (d : Daemon) (s : System) : Prop where
  replies : s.ledger.answers.length = d.arrived s.consumed-1
  told : s.agent.delivered.filterMap recipient = s.ledger.answers.reduceOption
  fair : s.ledger.Fair
  order : s.agent.written.map (fun req => (req.request,req.id)) =
    (s.ledger.entries.take s.agent.written.length).map fun entry => (entry.request,entry.id)
  queues : s.agent.processingFIFO ++ s.agent.inputFIFO = s.ledger.waiting.map Entry.held
  written : s.agent.written.length = s.ledger.answers.length + s.agent.processingFIFO.length
  busy : Busy s

/-- The k-th reply goes to the client of the k-th request, and the queue never stalls. -/
theorem run_routed (run : Run d (Lucky d) s) : Routed d s := by
  obtain ⟨keeps,⟨k,rest,seen,stands⟩,fair,busy,_⟩ := run_invariant run
  refine ⟨?_,keeps.told,fair,keeps.order,keeps.queues,keeps.written,busy⟩
  rw [stands.answers,stands.consumed,stands.reads.count]

/-- A daemon that has nothing to say about a second request, such as one for a disk that is gone. -/
def terse : Daemon where
  banner := ⟨[],rfl,.inl rfl,by decide⟩
  reply k := if k = 1 then ⟨[],rfl,.inl rfl,by decide⟩ else ⟨bytes "8\n",by decide,.inr (by decide),by decide⟩

def greeted : System :=
  ((System.initial.processAnswer terse (bytes "ksysguardd> ")).sendRequest "mem/free" 1 0).sendRequest
    "SoftRaid/md0/NumBlocks" 2 1

theorem run_routed_greeted :
    Run terse (Lucky terse) (greeted.disconnectClient 2) ∧ Routed terse (greeted.disconnectClient 2) := by
  have run : Run terse (Lucky terse) (greeted.disconnectClient 2) := by
    refine .disconnectClient (.sendRequest (.sendRequest (.processAnswer .initial ?_ ?_) _ _ _) _ _ _) 2
    · decide +kernel
    · intro k same
      have long := congrArg List.length same
      have := terse.le_sent (k+1)
      rw [← long] at this
      exact absurd this (by simp [System.initial])
  exact ⟨run,run_routed run⟩

/-- The space of the first reply hides the prompt of the second one; the third reply, with that
    prompt in it, goes to the second client, and the third client gets none. -/
theorem misrouted :
    let s := ((((greeted.sendRequest "mem/used" 3 2).processAnswer terse (bytes "8\nksysguardd>")).processAnswer terse
      (bytes " ksysguardd> ")).processAnswer terse (bytes "8\nksysguardd> "))
    Run terse (fun _ _ => True) s ∧
    s.agent.delivered = [.answerReceived 1 0 [bytes "8"],.answerReceived 2 1 [bytes " ksysguardd> 8"]] ∧
    s.ledger.answers = [some (1,0),some (2,1),some (3,2)] ∧ ¬ Routed terse s := by
  have delivered : ((((greeted.sendRequest "mem/used" 3 2).processAnswer terse (bytes "8\nksysguardd>")).processAnswer
      terse (bytes " ksysguardd> ")).processAnswer terse (bytes "8\nksysguardd> ")).agent.delivered =
      [.answerReceived 1 0 [bytes "8"],.answerReceived 2 1 [bytes " ksysguardd> 8"]] := by decide +kernel
  have answers : ((((greeted.sendRequest "mem/used" 3 2).processAnswer terse (bytes "8\nksysguardd>")).processAnswer
      terse (bytes " ksysguardd> ")).processAnswer terse (bytes "8\nksysguardd> ")).ledger.answers =
      [some (1,0),some (2,1),some (3,2)] := by decide +kernel
  refine ⟨?_,delivered,answers,?_⟩
  · refine .processAnswer (.processAnswer (.processAnswer (.sendRequest (.sendRequest (.sendRequest
      (.processAnswer .initial ?_ trivial) _ _ _) _ _ _) _ _ _) ?_ trivial) ?_ trivial) ?_ trivial
    · decide +kernel
    · decide +kernel
    · decide +kernel
    · decide +kernel
  · intro routed
    have told := routed.told
    rw [delivered,answers] at told
    exact absurd told (by decide)

end KdeWorkspace.SensorQueues
