import KdeWorkspace.PipeCodec
import Mathlib.Data.List.Pairwise

/-!
The choices of the chooser of kdm: a client that asks for a host is registered, a choice that is made for
it is remembered, and both are given up some time after the last registration.

`calls_choices` follows the list of the records over every sequence of calls, next to what is pending for
each of the clients. Memory does not run out.
-/
namespace KdeWorkspace.IndirectChoices
open List
open PipeCodec (Bytes)

/-- Who a choice is made for. -/
structure Host where
  client : Bytes
  port : Bytes
  connectionType : UInt16
deriving Repr, DecidableEq

/-- The records; a choice without data has not been made yet. -/
structure ChoiceRec extends Host where
  choice : Option Bytes
  timeout : Int
deriving Repr, DecidableEq

def TO_INF : Int := 0x7fffffff

/-- What is left, and when to look again. -/
def disposeIndirectHosts (now : Int) : List ChoiceRec → List ChoiceRec × Int
  | [] => ([],TO_INF)
  | c :: choices => if c.timeout > now then (c :: choices,c.timeout) else disposeIndirectHosts now choices

def indirectChoice (host : Host) : List ChoiceRec → Option Bytes
  | [] => none
  | c :: choices => if c.toHost = host then c.choice else indirectChoice host choices

/-- The record of a client is removed; whether it was there without a choice. -/
def checkIndirectChoice (host : Host) : List ChoiceRec → List ChoiceRec × Bool
  | [] => ([],false)
  | c :: choices =>
    if c.toHost = host then (choices,c.choice.isNone)
    else
      let (rest,uc) := checkIndirectChoice host choices
      (c :: rest,uc)

/-- The record of a client and the records without it. -/
def unlink (host : Host) : List ChoiceRec → Option ChoiceRec × List ChoiceRec
  | [] => (none,[])
  | c :: choices =>
    if c.toHost = host then (some c,choices)
    else
      let (found,rest) := unlink host choices
      (found,c :: rest)

/-- A record that is there keeps its choice unless there is another one. -/
def registerIndirectChoice (choiceTimeout now : Int) (host : Host) (choice : Option Bytes) (choices : List ChoiceRec) :
    List ChoiceRec :=
  let (found,rest) := unlink host choices
  let c : ChoiceRec :=
    match found with
    | some c => { c with choice := if choice.isSome then choice else c.choice, timeout := now+choiceTimeout }
    | none => ⟨host,choice,now+choiceTimeout⟩
  rest ++ [c]

inductive Call
  | register (host : Host) (choice : Option Bytes)
  | check (host : Host)
  | query (host : Host)
  | dispose
deriving Repr, DecidableEq

def call (choiceTimeout : Int) (choices : List ChoiceRec) : Int × Call → List ChoiceRec
  | (now,.register host choice) => registerIndirectChoice choiceTimeout now host choice choices
  | (_,.check host) => (checkIndirectChoice host choices).1
  | (_,.query _) => choices
  | (now,.dispose) => (disposeIndirectHosts now choices).1

def run (choiceTimeout : Int) (calls : List (Int × Call)) : List ChoiceRec := calls.foldl (call choiceTimeout) []

/-- The times of the calls do not decrease. -/
def InOrder (calls : List (Int × Call)) : Prop := calls.Pairwise (·.1 ≤ ·.1)

/-- When a client is given up, and the choice that has been made for it. -/
structure Pending where
  timeout : Int
  choice : Option Bytes
deriving Repr, DecidableEq

/-- A registration without a choice renews what is there. A check consumes it, and what is too old is
given up when that is looked for. -/
def Pending.after (choiceTimeout : Int) (host : Host) (pending : Option Pending) : Int × Call → Option Pending
  | (now,.register other choice) =>
    if other = host then some ⟨now+choiceTimeout,choice.or (pending.bind Pending.choice)⟩ else pending
  | (_,.check other) => if other = host then none else pending
  | (_,.query _) => pending
  | (now,.dispose) => pending.filter fun p => now < p.timeout

def pendingFor (choiceTimeout : Int) (host : Host) (calls : List (Int × Call)) : Option Pending :=
  calls.foldl (Pending.after choiceTimeout host) none

/-- No client has two records, and the records are in the order of their timeouts. -/
structure Kept (choices : List ChoiceRec) : Prop where
  single : choices.Pairwise fun c d => c.toHost ≠ d.toHost
  ordered : choices.Pairwise fun c d => c.timeout ≤ d.timeout

def recordOf (host : Host) (choices : List ChoiceRec) : Option ChoiceRec := choices.find? (·.toHost = host)

def ChoiceRec.pending (c : ChoiceRec) : Pending := ⟨c.timeout,c.choice⟩

theorem Kept.sublist {choices rest : List ChoiceRec} (kept : Kept choices) (part : rest.Sublist choices) : Kept rest :=
  ⟨kept.single.sublist part,kept.ordered.sublist part⟩

theorem indirectChoice_eq (host : Host) (choices : List ChoiceRec) :
    indirectChoice host choices = (recordOf host choices).bind ChoiceRec.choice := by
  unfold recordOf
  induction choices with
  | nil => rfl
  | cons c choices ih =>
    rw [indirectChoice,find?_cons]
    by_cases same : c.toHost = host
    · simp [same]
    · simp [same,ih]

theorem unlink_eq (host : Host) (choices : List ChoiceRec) :
    unlink host choices = (recordOf host choices,choices.eraseP (·.toHost = host)) := by
  unfold recordOf
  induction choices with
  | nil => rfl
  | cons c choices ih =>
    rw [unlink,find?_cons,eraseP_cons]
    by_cases same : c.toHost = host
    · simp [same]
    · simp [same,ih]

theorem check_eq (host : Host) (choices : List ChoiceRec) :
    checkIndirectChoice host choices =
      (choices.eraseP (·.toHost = host),(recordOf host choices).any (·.choice.isNone)) := by
  unfold recordOf
  induction choices with
  | nil => rfl
  | cons c choices ih =>
    rw [checkIndirectChoice,find?_cons,eraseP_cons]
    by_cases same : c.toHost = host
    · simp [same]
    · simp [same,ih]

variable {choices : List ChoiceRec}

theorem dispose_eq (now : Int) (ordered : choices.Pairwise fun c d => c.timeout ≤ d.timeout) :
    (disposeIndirectHosts now choices).1 = choices.filter fun c => now < c.timeout := by
  induction choices with
  | nil => rfl
  | cons c choices ih =>
    obtain ⟨first,rest⟩ := pairwise_cons.mp ordered
    rw [disposeIndirectHosts]
    by_cases live : c.timeout > now
    · rw [if_pos live]
      refine (filter_eq_self.mpr ?_).symm
      intro d mem
      rw [decide_eq_true_iff]
      rcases mem_cons.mp mem with rfl | mem
      · exact live
      · have later := first d mem
        omega
    · rw [if_neg live,filter_cons_of_neg (by simpa using live)]
      exact ih rest

theorem recordOf_host {host : Host} {c : ChoiceRec} (found : recordOf host choices = some c) : c.toHost = host := by
  have matching := find?_some found
  rwa [decide_eq_true_iff] at matching

theorem recordOf_none {host : Host} (apart : ∀ c ∈ choices, c.toHost ≠ host) : recordOf host choices = none := by
  unfold recordOf
  rw [find?_eq_none]
  intro c mem same
  rw [decide_eq_true_iff] at same
  exact apart c mem same

theorem erased_apart {host : Host} (kept : Kept choices) : ∀ c ∈ choices.eraseP (·.toHost = host), c.toHost ≠ host := by
  induction choices with
  | nil => simp
  | cons d choices ih =>
    obtain ⟨first,rest⟩ := pairwise_cons.mp kept.single
    by_cases same : d.toHost = host
    · rw [eraseP_cons_of_pos (by simpa using same)]
      intro c mem
      rw [← same]
      exact (first c mem).symm
    · rw [eraseP_cons_of_neg (by simpa using same)]
      intro c mem
      rcases mem_cons.mp mem with rfl | mem
      · exact same
      · exact ih ⟨rest,(pairwise_cons.mp kept.ordered).2⟩ c mem

theorem recordOf_erased_other {host other : Host} (different : host ≠ other) (choices : List ChoiceRec) :
    recordOf other (choices.eraseP (·.toHost = host)) = recordOf other choices := by
  unfold recordOf
  induction choices with
  | nil => rfl
  | cons d choices ih =>
    by_cases same : d.toHost = host
    · have apart : d.toHost ≠ other := fun also => different (same.symm.trans also)
      rw [eraseP_cons_of_pos (by simpa using same),find?_cons_of_neg (by simpa using apart)]
    · rw [eraseP_cons_of_neg (by simpa using same),find?_cons,find?_cons,ih]

theorem recordOf_filter (host : Host) (live : ChoiceRec → Bool) (kept : Kept choices) :
    recordOf host (choices.filter live) = (recordOf host choices).filter live := by
  unfold recordOf
  induction choices with
  | nil => rfl
  | cons d choices ih =>
    obtain ⟨first,rest⟩ := pairwise_cons.mp kept.single
    have tail := ih ⟨rest,(pairwise_cons.mp kept.ordered).2⟩
    by_cases same : d.toHost = host
    · rw [find?_cons_of_pos (by simpa using same)]
      cases alive : live d with
      | true =>
        rw [filter_cons_of_pos alive,find?_cons_of_pos (by simpa using same),Option.filter_some,if_pos alive]
      | false =>
        rw [filter_cons_of_neg (by simp [alive]),Option.filter_some,if_neg (by simp [alive])]
        apply recordOf_none
        intro c mem
        rw [← same]
        exact (first c (mem_filter.mp mem).1).symm
    · rw [find?_cons_of_neg (by simpa using same),← tail]
      cases alive : live d with
      | true => rw [filter_cons_of_pos alive,find?_cons_of_neg (by simpa using same)]
      | false => rw [filter_cons_of_neg (by simp [alive])]

/-- What a registration appends to the other records. -/
def registered (choiceTimeout now : Int) (host : Host) (choice : Option Bytes) (choices : List ChoiceRec) : ChoiceRec :=
  ⟨host,choice.or ((recordOf host choices).bind ChoiceRec.choice),now+choiceTimeout⟩

theorem register_eq (choiceTimeout now : Int) (host : Host) (choice : Option Bytes) (choices : List ChoiceRec) :
    registerIndirectChoice choiceTimeout now host choice choices =
      choices.eraseP (·.toHost = host) ++ [registered choiceTimeout now host choice choices] := by
  rw [registerIndirectChoice,unlink_eq,registered]
  cases found : recordOf host choices with
  | none => simp
  | some c =>
    have same := recordOf_host found
    subst same
    cases choice <;> simp

theorem recordOf_registered (choiceTimeout now : Int) (host other : Host) (choice : Option Bytes)
    (kept : Kept choices) :
    recordOf other (registerIndirectChoice choiceTimeout now host choice choices) =
      if host = other then some (registered choiceTimeout now host choice choices) else recordOf other choices := by
  rw [register_eq]
  by_cases same : host = other
  · subst same
    rw [if_pos rfl]
    have none : recordOf host (choices.eraseP (·.toHost = host)) = none := recordOf_none (erased_apart kept)
    unfold recordOf at none ⊢
    rw [find?_append,none]
    simp [registered]
  · rw [if_neg same,← recordOf_erased_other same choices]
    unfold recordOf
    rw [find?_append]
    simp [registered,same]

/-- The records after some calls, before a time: they are kept, none is to stay longer than a registration
at that time would let it, and each client has the record of what is pending for it. -/
structure Follows (choiceTimeout now : Int) (pending : Host → Option Pending) (choices : List ChoiceRec) : Prop where
  kept : Kept choices
  recent : ∀ c ∈ choices, c.timeout ≤ now+choiceTimeout
  same : ∀ host, (recordOf host choices).map ChoiceRec.pending = pending host

variable {pending : Host → Option Pending}

theorem Follows.later {choiceTimeout now time : Int}
    (follows : Follows choiceTimeout now pending choices) (order : now ≤ time) :
    Follows choiceTimeout time pending choices := by
  refine ⟨follows.kept,?_,follows.same⟩
  intro c mem
  have recent := follows.recent c mem
  omega

variable {choiceTimeout now : Int}

theorem follows_register
    (host : Host) (choice : Option Bytes) (follows : Follows choiceTimeout now pending choices) :
    Follows choiceTimeout now (fun other => Pending.after choiceTimeout other (pending other) (now,.register host choice))
      (registerIndirectChoice choiceTimeout now host choice choices) := by
  have part : (choices.eraseP (·.toHost = host)).Sublist choices := eraseP_sublist
  have others := follows.kept.sublist part
  have apart : ∀ c ∈ choices.eraseP (·.toHost = host), c.toHost ≠ host := erased_apart follows.kept
  refine ⟨?_,?_,?_⟩
  · rw [register_eq]
    refine ⟨?_,?_⟩
    · apply pairwise_append.mpr
      refine ⟨others.single,pairwise_singleton _ _,?_⟩
      intro c mem d last
      rw [mem_singleton.mp last]
      exact apart c mem
    · apply pairwise_append.mpr
      refine ⟨others.ordered,pairwise_singleton _ _,?_⟩
      intro c mem d last
      rw [mem_singleton.mp last]
      exact follows.recent c (part.subset mem)
  · intro c mem
    rw [register_eq] at mem
    rcases mem_append.mp mem with mem | last
    · exact follows.recent c (part.subset mem)
    · rw [mem_singleton.mp last]
      exact Int.le_refl _
  · intro other
    rw [recordOf_registered choiceTimeout now host other choice follows.kept,Pending.after]
    by_cases same : host = other
    · subst same
      rw [if_pos rfl,if_pos rfl,← follows.same host,registered]
      cases recordOf host choices <;> rfl
    · rw [if_neg same,if_neg same]
      exact follows.same other

theorem follows_check
    (host : Host) (follows : Follows choiceTimeout now pending choices) :
    Follows choiceTimeout now (fun other => Pending.after choiceTimeout other (pending other) (now,.check host))
      (checkIndirectChoice host choices).1 := by
  rw [check_eq]
  have part : (choices.eraseP (·.toHost = host)).Sublist choices := eraseP_sublist
  refine ⟨follows.kept.sublist part,fun c mem => follows.recent c (part.subset mem),?_⟩
  intro other
  rw [Pending.after]
  by_cases same : host = other
  · subst same
    rw [if_pos rfl,recordOf_none (erased_apart follows.kept)]
    rfl
  · rw [if_neg same,recordOf_erased_other same]
    exact follows.same other

theorem follows_dispose
    (follows : Follows choiceTimeout now pending choices) :
    Follows choiceTimeout now (fun other => Pending.after choiceTimeout other (pending other) (now,.dispose))
      (disposeIndirectHosts now choices).1 := by
  rw [dispose_eq now follows.kept.ordered]
  refine ⟨follows.kept.sublist filter_sublist,fun c mem => follows.recent c (mem_filter.mp mem).1,?_⟩
  intro other
  rw [recordOf_filter other _ follows.kept,Pending.after,← follows.same other]
  cases recordOf other choices with
  | none => rfl
  | some c => by_cases live : now < c.timeout <;> simp [Option.filter,ChoiceRec.pending,live]

theorem follows_call
    (one : Call) (follows : Follows choiceTimeout now pending choices) :
    Follows choiceTimeout now (fun other => Pending.after choiceTimeout other (pending other) (now,one))
      (call choiceTimeout choices (now,one)) := by
  cases one with
  | register host choice => exact follows_register host choice follows
  | check host => exact follows_check host follows
  | query host => exact follows
  | dispose => exact follows_dispose follows

theorem follows_run {choiceTimeout : Int} {calls : List (Int × Call)} (order : InOrder calls) :
    ∀ {now : Int} {pending : Host → Option Pending} {choices : List ChoiceRec},
      (∀ later ∈ calls, now ≤ later.1) → Follows choiceTimeout now pending choices →
      ∃ last, Follows choiceTimeout last
        (fun host => calls.foldl (Pending.after choiceTimeout host) (pending host))
        (calls.foldl (call choiceTimeout) choices) := by
  induction calls with
  | nil => exact fun _ follows => ⟨_,follows⟩
  | cons one calls ih =>
    obtain ⟨time,one⟩ := one
    obtain ⟨first,rest⟩ := pairwise_cons.mp order
    intro now pending choices after follows
    exact ih rest first (follows_call one (follows.later (after _ mem_cons_self)))

theorem follows_none (choiceTimeout now : Int) : Follows choiceTimeout now (fun _ => none) [] :=
  ⟨⟨.nil,.nil⟩,nofun,fun _ => rfl⟩

/-- After calls at times that do not decrease, a client has at most one record, the records are in the order
of their timeouts, whatever is too old is what is removed, and a client gets the choice that is pending for
it. -/
theorem calls_choices (choiceTimeout : Int) (calls : List (Int × Call)) (order : InOrder calls) :
    Kept (run choiceTimeout calls) ∧
      (∀ now, (disposeIndirectHosts now (run choiceTimeout calls)).1 =
        (run choiceTimeout calls).filter fun c => now < c.timeout) ∧
      ∀ host, indirectChoice host (run choiceTimeout calls) =
        (pendingFor choiceTimeout host calls).bind Pending.choice := by
  cases calls with
  | nil => exact ⟨⟨.nil,.nil⟩,fun _ => rfl,fun _ => rfl⟩
  | cons one calls =>
    obtain ⟨first,rest⟩ := pairwise_cons.mp order
    obtain ⟨last,follows⟩ := follows_run order
      (fun later mem => (mem_cons.mp mem).elim (fun same => same ▸ Int.le_refl _) (first later))
      (follows_none choiceTimeout one.1)
    refine ⟨follows.kept,fun now => dispose_eq now follows.kept.ordered,?_⟩
    intro host
    have same := follows.same host
    have query := indirectChoice_eq host (run choiceTimeout (one :: calls))
    rw [query]
    unfold pendingFor
    rw [← same]
    unfold run
    cases recordOf host ((one :: calls).foldl (call choiceTimeout) []) <;> rfl

/-- The same where a registration without a choice gives up the choice, and every call what is too old. -/
def Pending.replaced (choiceTimeout : Int) (host : Host) (pending : Option Pending) : Int × Call → Option Pending
  | (now,.register other choice) =>
    if other = host then some ⟨now+choiceTimeout,choice⟩ else pending.filter fun p => now < p.timeout
  | (now,.check other) => if other = host then none else pending.filter fun p => now < p.timeout
  | (now,.query _) => pending.filter fun p => now < p.timeout
  | (now,.dispose) => pending.filter fun p => now < p.timeout

def terminal : Host := ⟨[192,168,0,7],[23,112],0⟩

/-- A client asks, a host is chosen for it, and it asks again to be forwarded there. -/
def askedTwice : List (Int × Call) :=
  [(0,.register terminal none),(4,.register terminal (some [192,168,0,2])),(5,.register terminal none)]

/-- A choice stays through the registration of the client that comes to use it, and until the records that
are too old are looked for. -/
theorem terminal_keeps_choice :
    InOrder askedTwice ∧ indirectChoice terminal (run 15 askedTwice) = some [192,168,0,2] ∧
      (askedTwice.foldl (Pending.replaced 15 terminal) none).bind Pending.choice = none ∧
      InOrder (askedTwice ++ [(20,.query terminal)]) ∧
      indirectChoice terminal (run 15 (askedTwice ++ [(20,.query terminal)])) = some [192,168,0,2] := by
  unfold InOrder
  decide

/-- Two clients with a choice each, of which the first is given up. -/
theorem two_choices :
    Kept (run 15 (askedTwice ++ [(6,.register ⟨[10,0,0,1],[0,80],0⟩ (some [10,0,0,9])),(20,.dispose)])) ∧
      indirectChoice ⟨[10,0,0,1],[0,80],0⟩
        (run 15 (askedTwice ++ [(6,.register ⟨[10,0,0,1],[0,80],0⟩ (some [10,0,0,9])),(20,.dispose)])) =
          some [10,0,0,9] := by
  obtain ⟨kept,-,choices⟩ := calls_choices 15
    (askedTwice ++ [(6,.register ⟨[10,0,0,1],[0,80],0⟩ (some [10,0,0,9])),(20,.dispose)]) (by unfold InOrder; decide)
  exact ⟨kept,(choices _).trans (by decide)⟩

end KdeWorkspace.IndirectChoices
