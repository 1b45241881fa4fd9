import KdeWorkspace.DisplayMoves

/-!
What kdm does about an event is a course of moves.

A function of kdm is often called for a display some of whose processes have just been found dead. In
the lemmas that is `m.set d.addr fun _ => r`, where `d` is the display before and `r` what is left of it.
-/
namespace KdeWorkspace.DisplayCycle
open List
open ControlCommands (DisplayStatus Lifetime SdRec)
open Manager

variable {m : Manager}

theorem on_set {d r : Display} (inside : d ∈ m.displays) (addr : r.addr = d.addr)
    (f : Display → Manager) : (m.set d.addr fun _ => r).on d.addr f = f r := by
  have found : ∀ l : List Display, d ∈ l →
      (l.map fun e => if e.addr = d.addr then r else e).find? (·.addr = d.addr) = some r := by
    intro l
    induction l with
    | nil => intro inside; cases inside
    | cons e l ih =>
      intro inside
      by_cases here : e.addr = d.addr
      · simp [here,addr]
      · have rest := (mem_cons.mp inside).resolve_left fun same => here (same ▸ rfl)
        rw [map_cons,if_neg here,find?_cons_of_neg (by simpa using here)]
        exact ih rest
  unfold Manager.on Manager.find Manager.set
  rw [found _ inside]
  rfl

theorem set_self (coherent : Coherent m) {d : Display} (inside : d ∈ m.displays) : (m.set d.addr fun _ => d) = m := by
  have same : (m.displays.map fun e => if e.addr = d.addr then d else e) = m.displays := by
    conv_rhs => rw [← map_id m.displays]
    apply map_congr_left
    intro e among
    by_cases here : e.addr = d.addr
    · rw [if_pos here,coherent.same inside among here]
      rfl
    · rw [if_neg here]
      rfl
  unfold Manager.set
  rw [same]

theorem on_inside (coherent : Coherent m) {d : Display} (inside : d ∈ m.displays)
    (f : Display → Manager) : m.on d.addr f = f d := by
  have here := on_set inside (rfl : d.addr = d.addr) f
  rwa [set_self coherent inside] at here

theorem on_cases (m : Manager) (a : Nat) (f : Display → Manager) : (∃ d ∈ m.displays, d.addr = a) ∨ m.on a f = m := by
  unfold Manager.on Manager.find
  cases found : m.displays.find? (·.addr = a) with
  | none => exact .inr rfl
  | some d => exact .inl ⟨d,mem_of_find?_eq_some found,by simpa using find?_some found⟩

theorem set_set (m : Manager) {a : Nat} {r : Display} (addr : r.addr = a) (g : Display → Display) :
    (m.set a fun _ => r).set a g = m.set a fun _ => g r := by
  unfold Manager.set
  congr 1
  rw [map_map]
  apply map_congr_left
  intro e _
  by_cases here : e.addr = a
  · simp [here,addr]
  · simp [here]

theorem withServer_set (m : Manager) (startingServer timer : Option Nat) (a : Nat) (f : Display → Display) :
    (m.withServer startingServer timer).set a f = (m.set a f).withServer startingServer timer := rfl

theorem set_inside (coherent : Coherent m) {d : Display} (inside : d ∈ m.displays)
    (f : Display → Display) : m.set d.addr f = m.set d.addr fun _ => f d := by
  conv_lhs => rw [← set_self coherent inside]
  exact set_set m rfl f

theorem set_absent {a : Nat} (absent : ¬ ∃ d ∈ m.displays, d.addr = a) (f : Display → Display) : m.set a f = m := by
  have same : (m.displays.map fun e => if e.addr = a then f e else e) = m.displays := by
    conv_rhs => rw [← map_id m.displays]
    apply map_congr_left
    intro e among
    rw [if_neg fun here => absent ⟨e,among,here⟩]
    rfl
  unfold Manager.set
  rw [same]

theorem removeDisplay_set (coherent : Coherent m) {d r : Display} (inside : d ∈ m.displays) (addr : r.addr = d.addr) :
    (m.set d.addr fun _ => r).removeDisplay d.addr =
      { m with displays := m.displays.filter (fun e => e.addr ≠ d.addr), removed := r :: m.removed } := by
  have kept : ∀ l : List Display, ((l.map fun e => if e.addr = d.addr then r else e).filter fun e => e.addr ≠ d.addr) =
      l.filter fun e => e.addr ≠ d.addr := by
    intro l
    induction l with
    | nil => rfl
    | cons e l ih =>
      by_cases here : e.addr = d.addr
      · simpa [here,addr] using ih
      · simpa [here] using ih
  have freed : ∀ l : List Display, (l.map (·.addr)).Nodup → d ∈ l →
      ((l.map fun e => if e.addr = d.addr then r else e).filter fun e => e.addr = d.addr) = [r] := by
    intro l
    induction l with
    | nil => intro _ inside; cases inside
    | cons e l ih =>
      intro unique inside
      rw [map_cons,nodup_cons] at unique
      by_cases here : e.addr = d.addr
      · have others : ∀ x ∈ l, ¬ x.addr = d.addr := by
          intro x among same
          exact unique.1 (mem_map.mpr ⟨x,among,same.trans here.symm⟩)
        simpa [here,addr,filter_eq_nil_iff] using fun x among => by simp [others x among]
      · have rest := (mem_cons.mp inside).resolve_left fun same => here (same ▸ rfl)
        simpa [here] using ih unique.2 rest
  unfold removeDisplay Manager.set
  rw [kept,freed _ coherent.unique inside]
  rfl

section
variable {A : Allowed} {m : Manager} {d r : Display}

theorem on_course (coherent : Coherent m) (due : Bool) (a : Nat) {f : Display → Manager}
    (each : ∀ d ∈ m.displays, d.addr = a → Course A (due,m) (due,f d)) : Course A (due,m) (due,m.on a f) := by
  rcases on_cases m a f with ⟨d,inside,rfl⟩ | same
  · rw [on_inside coherent inside]
    exact each d inside rfl
  · rw [same]
    exact Course.refl _

variable {f : Display → Display}

theorem set_course (coherent : Coherent m) (due : Bool) (a : Nat)
    (addr : ∀ d ∈ m.displays, d.addr = a → (f d).addr = d.addr)
    (turn : ∀ d ∈ m.displays, d.addr = a → Turn A m d (f d)) : Course A (due,m) (due,m.set a f) := by
  by_cases there : ∃ d ∈ m.displays, d.addr = a
  · obtain ⟨d,inside,rfl⟩ := there
    rw [set_inside coherent inside]
    exact (Move.turn inside (addr d inside rfl) (turn d inside rfl)).course due
  · rw [set_absent there]
    exact Course.refl _

theorem settle_course (coherent : Coherent m) (inside : d ∈ m.displays) (addr : r.addr = d.addr) (loses : Loses d r)
    (w : World) (endState : EndState) (schedule : Bool) (free : m.startingServer ≠ some d.addr)
    (served : endState = .DS_REMOVE ∨ d.serverStatus ≠ .awaiting)
    (leave : d.status = .zombie → r.idle → endState ≠ .DS_TEXTMODE → A.leave m.statuses m.utmpList d.addr) :
    Course A (schedule,m) (schedule,(m.set d.addr fun _ => r).settle w d.addr endState schedule) := by
  unfold settle
  rw [on_set inside addr]
  by_cases left : r.serverPid ≠ none ∨ r.pid ≠ none
  · rw [if_pos left,set_set m addr]
    refine (Move.turn inside ?_ (Turn.zombify free ?_ ?_ ?_)).course _
    · exact addr
    · rfl
    · exact ⟨loses.pid,loses.serverPid,loses.serverStatus⟩
    · exact left.symm
  · rw [if_neg left]
    have idle : r.idle := by
      simp only [not_or,not_not] at left
      exact ⟨left.2,left.1⟩
    cases endState with
    | DS_TEXTMODE =>
      have served := served.resolve_left nofun
      have suspended : Course A (schedule,m) (true,m.set d.addr fun _ => { r with status := .textMode }) := by
        refine (Go.suspend inside ?_ free ?_ ?_ ?_ served).course
        · exact addr
        · rfl
        · exact ⟨loses.pid,loses.serverPid,loses.serverStatus⟩
        · exact idle
      simp only [set_set m addr]
      cases schedule with
      | true => exact suspended
      | false => exact suspended.trans (Go.check w).course
    | DS_RESERVE =>
      simp only [set_set m addr]
      refine (Move.turn inside ?_ (Turn.retire free ?_ ?_ ?_ (served.resolve_left nofun) ?_)).course _
      · exact addr
      · rfl
      · exact ⟨loses.pid,loses.serverPid,loses.serverStatus⟩
      · exact idle
      · exact fun zombie => leave zombie idle nofun
    | DS_REMOTE =>
      simp only [startRemoteLogin,set_set m addr]
      refine (Move.turn inside ?_ (Turn.remote free ?_ ?_ ?_ (served.resolve_left nofun) ?_)).course _
      · exact addr
      · cases w.forkServer d.addr <;> simp
      · exact idle.1
      · exact loses.serverStatus
      · exact fun zombie => leave zombie idle nofun
    | DS_RESTART =>
      simp only [removeDisplay_set coherent inside addr]
      exact (Move.remove inside addr free idle fun zombie => leave zombie idle nofun).course _
    | DS_REMOVE =>
      simp only [removeDisplay_set coherent inside addr]
      exact (Move.remove inside addr free idle fun zombie => leave zombie idle nofun).course _

theorem abortStartServer_eq (starting : m.startingServer = some d.addr) (inside : d ∈ m.displays)
    (addr : r.addr = d.addr) :
    ∃ timer, (m.set d.addr fun _ => r).abortStartServer d.addr =
      (m.set d.addr fun _ => { r with serverStatus := .ignore }).withServer none timer := by
  have named : (m.set d.addr fun _ => r).startingServer = some d.addr := starting
  unfold abortStartServer
  rw [if_pos named,on_set inside addr]
  by_cases ignored : r.serverStatus = .ignore
  · have same : { r with serverStatus := .ignore } = r := by rw [← ignored]
    rw [if_neg (by simpa using ignored),same]
    exact ⟨m.serverTimeout,rfl⟩
  · rw [if_pos ignored,set_set m addr]
    exact ⟨none,rfl⟩

theorem rStopDisplay_course (coherent : Coherent m) (inside : d ∈ m.displays) (addr : r.addr = d.addr)
    (loses : Loses d r) (w : World) (endState : EndState) (schedule : Bool)
    (served : endState = .DS_REMOVE ∨ d.serverStatus ≠ .awaiting)
    (leave : d.status = .zombie → r.idle → endState ≠ .DS_TEXTMODE → A.leave m.statuses m.utmpList d.addr) :
    Course A (schedule,m) (schedule,(m.set d.addr fun _ => r).rStopDisplay w d.addr endState schedule) := by
  unfold rStopDisplay
  by_cases starting : m.startingServer = some d.addr
  · obtain ⟨timer,aborted⟩ := abortStartServer_eq starting inside addr
    obtain ⟨stopped,given⟩ : ∃ stopped, stopped = { d with serverStatus := .ignore } := ⟨_,rfl⟩
    have here : stopped.addr = d.addr := by rw [given]
    have status : stopped.status = d.status := by rw [given]
    have release : Move A m ((m.set d.addr fun _ => stopped).withServer none timer) := by
      apply Move.release inside here starting <;> simp [given]
    have before : Coherent _ := (release.course schedule).coherent coherent
    have among : stopped ∈ (m.set d.addr fun _ => stopped).displays := (mem_set inside).mpr (.inl rfl)
    have settled := settle_course (A := A) (r := { r with serverStatus := .ignore }) before among (addr.trans here.symm)
      (by rw [given]; exact ⟨loses.pid,loses.serverPid,rfl⟩) w endState schedule nofun (.inr (by simp [given]))
      fun zombie => absurd (status ▸ zombie) (coherent.begun d inside starting).alive
    rw [withServer_set,here,set_set m here] at settled
    rw [aborted]
    exact (release.course schedule).trans settled
  · have absent : ¬ (m.set d.addr fun _ => r).startingServer = some d.addr := starting
    rw [abortStartServer,if_neg absent]
    exact settle_course coherent inside addr loses w endState schedule starting served leave

theorem Loses.refl (d : Display) : Loses d d := ⟨.inl rfl,.inl rfl,rfl⟩

theorem on_absent {a : Nat} (absent : ¬ ∃ d ∈ m.displays, d.addr = a) (f : Display → Manager) : m.on a f = m :=
  (on_cases m a f).resolve_left absent

theorem stop_course (coherent : Coherent m) (inside : d ∈ m.displays) (w : World) (endState : EndState)
    (schedule : Bool) (served : endState = .DS_REMOVE ∨ d.serverStatus ≠ .awaiting) :
    Course A (schedule,m) (schedule,m.rStopDisplay w d.addr endState schedule) := by
  have stopped := rStopDisplay_course (A := A) coherent inside rfl (Loses.refl d) w endState schedule served
    fun zombie idle => absurd idle (by
      rintro ⟨pid,serverPid⟩
      rcases (coherent.each d inside).zombie zombie with session | server
      · exact session pid
      · exact server serverPid)
  rwa [set_self coherent inside] at stopped

theorem stopDisplay_course (coherent : Coherent m) (w : World) (a : Nat) :
    Course A (false,m) (false,m.stopDisplay w a) := by
  by_cases there : ∃ d ∈ m.displays, d.addr = a
  · obtain ⟨d,inside,rfl⟩ := there
    exact stop_course coherent inside w .DS_REMOVE false (.inl rfl)
  · have idle : m.startingServer ≠ some a := fun starting => there (coherent.starting a starting)
    have same : m.stopDisplay w a = m := by
      unfold stopDisplay rStopDisplay abortStartServer settle
      rw [if_neg idle,on_absent there]
    rw [same]
    exact Course.refl _

theorem withServer_withServer (m : Manager) (s s' t t' : Option Nat) :
    (m.withServer s t).withServer s' t' = m.withServer s' t' := rfl

/-- A start of a server that has failed, for a display without session; `r` is what it is then. -/
theorem startServerFailed_course (coherent : Coherent m) (inside : d ∈ m.displays)
    (was : d.status = .running ∧ d.pid = none) (addr : r.addr = d.addr) (now : r.status = .running ∧ r.pid = none)
    (w : World) (timer : Option Nat) :
    Course A (false,m)
      (false,((m.set d.addr fun _ => r).withServer (some d.addr) timer).startServerFailed w d.addr) := by
  have between : ((m.set d.addr fun _ => r).withServer (some d.addr) timer) =
      ((m.withServer (some d.addr) timer).set d.addr fun _ => r) := rfl
  have inside' : d ∈ (m.withServer (some d.addr) timer).displays := inside
  unfold startServerFailed
  rw [between,on_set inside' addr]
  by_cases again : r.config.serverAttempts = 0 ∨ r.startTries < r.config.serverAttempts
  · rw [if_pos again,set_set _ addr]
    refine (Move.serve inside ?_ was ?_ ?_).course false
    · exact addr
    · exact now
    · exact ⟨nofun,nofun⟩
  · rw [if_neg again,set_set _ addr]
    obtain ⟨trying,tried⟩ : ∃ trying, trying = { r with serverStatus := .starting } := ⟨_,rfl⟩
    obtain ⟨failed,given⟩ : ∃ failed, failed = { r with serverStatus := .ignore } := ⟨_,rfl⟩
    have here : trying.addr = d.addr := by rw [tried,addr]
    have serve : Move A m ((m.set d.addr fun _ => trying).withServer (some d.addr) (some 0)) := by
      apply Move.serve inside here was
      · rw [tried]
        exact now
      · rw [tried]
        exact ⟨nofun,nofun⟩
    have among : trying ∈ ((m.set d.addr fun _ => trying).withServer (some d.addr) (some 0)).displays :=
      (mem_set inside).mpr (.inl rfl)
    have release : Move A ((m.set d.addr fun _ => trying).withServer (some d.addr) (some 0))
        ((m.set d.addr fun _ => failed).withServer none none) := by
      have twice : ((m.set d.addr fun _ => trying).withServer (some d.addr) (some 0)).set trying.addr
          (fun _ => failed) = (m.set d.addr fun _ => failed).withServer (some d.addr) (some 0) := by
        rw [here,withServer_set,set_set m here]
      have released : Move A ((m.set d.addr fun _ => trying).withServer (some d.addr) (some 0))
          ((((m.set d.addr fun _ => trying).withServer (some d.addr) (some 0)).set trying.addr
            fun _ => failed).withServer none none) := by
        apply Move.release among
        · rw [given,tried]
        · rw [here]
          rfl
        · simp [given,tried]
        · exact .inr (by rw [tried]; exact now.1)
        · rw [given]
      rwa [twice,withServer_withServer] at released
    have before : Coherent _ := (release.course false).coherent ((serve.course false).coherent coherent)
    have stop := stopDisplay_course (A := A) before w d.addr
    rw [given] at stop release
    exact ((serve.course false).trans (release.course false)).trans stop

theorem startServerOnce_course (coherent : Coherent m) (inside : d ∈ m.displays)
    (was : d.status = .running ∧ d.pid = none) (addr : r.addr = d.addr) (now : r.status = .running ∧ r.pid = none)
    (w : World) (timer : Option Nat) :
    Course A (false,m)
      (false,((m.set d.addr fun _ => r).withServer (some d.addr) timer).startServerOnce w d.addr) := by
  have between : ((m.set d.addr fun _ => r).withServer (some d.addr) timer) =
      ((m.withServer (some d.addr) timer).set d.addr fun _ => r) := rfl
  have inside' : d ∈ (m.withServer (some d.addr) timer).displays := inside
  unfold startServerOnce
  rw [between,on_set inside' addr]
  simp only [set_set _ addr]
  by_cases forked : w.forkServer d.addr = none
  · rw [if_pos forked]
    refine startServerFailed_course coherent inside was ?_ ?_ w timer
    · exact addr
    · exact now
  · rw [if_neg forked]
    refine (Move.serve inside ?_ was ?_ ?_).course false
    · exact addr
    · exact now
    · exact ⟨nofun,nofun⟩

theorem startServer_course (coherent : Coherent m) (inside : d ∈ m.displays) (awaiting : d.serverStatus = .awaiting)
    (w : World) : Course A (false,m) (false,m.startServer w d.addr) := by
  obtain ⟨running,pid,_⟩ := (coherent.each d inside).awaiting awaiting
  unfold startServer
  rw [set_inside coherent inside]
  refine startServerOnce_course coherent inside ⟨running,pid⟩ ?_ ?_ w m.serverTimeout
  · rfl
  · exact ⟨running,pid⟩

theorem startServerTimeout_course (coherent : Coherent m) (inside : d ∈ m.displays)
    (starting : m.startingServer = some d.addr) (w : World) :
    Course A (false,m) (false,(m.withServer m.startingServer none).startServerTimeout w d.addr) := by
  have before : Coherent (m.withServer m.startingServer none) :=
    ⟨coherent.unique,coherent.each,coherent.starting,coherent.begun,coherent.freed⟩
  have inside' : d ∈ (m.withServer m.startingServer none).displays := inside
  have begun := (coherent.begun d inside starting).early
  have self : ((m.set d.addr fun _ => d).withServer (some d.addr) none) = m.withServer m.startingServer none := by
    rw [set_self coherent inside,starting]
  unfold startServerTimeout
  rw [on_inside before inside']
  cases status : d.serverStatus with
  | ignore =>
    refine (Move.timer ?_).course false
    intro e among named underway
    rw [coherent.same inside among (Option.some.inj (named.symm.trans starting)),status] at underway
    exact underway.1 rfl
  | awaiting =>
    refine (Move.timer ?_).course false
    intro e among named underway
    rw [coherent.same inside among (Option.some.inj (named.symm.trans starting)),status] at underway
    exact underway.2 rfl
  | starting =>
    have was := begun (by rw [status]; nofun)
    simp only [set_inside before inside']
    rw [starting]
    refine (Move.serve inside ?_ was ?_ ?_).course false
    · rfl
    · exact was
    · exact ⟨nofun,nofun⟩
  | terminated =>
    have was := begun (by rw [status]; nofun)
    simp only [set_inside before inside']
    rw [starting]
    refine (Move.serve inside ?_ was ?_ ?_).course false
    · rfl
    · exact was
    · exact ⟨nofun,nofun⟩
  | killed =>
    have was := begun (by rw [status]; nofun)
    have failed := startServerFailed_course (A := A) coherent inside was rfl was w none
    rwa [self] at failed
  | pausing =>
    have was := begun (by rw [status]; nofun)
    have once := startServerOnce_course (A := A) coherent inside was rfl was w none
    rwa [self] at once

theorem startServerSuccess_course (coherent : Coherent m) (inside : d ∈ m.displays)
    (starting : m.startingServer = some d.addr) (up : d.serverStatus = .starting) (w : World)
    (abandon : w.forkSession d.addr = none → A.abandon m d.addr) :
    Course A (false,m) (false,m.startServerSuccess w d.addr) := by
  have was := (coherent.begun d inside starting).early (by rw [up]; nofun)
  obtain ⟨d',changed⟩ : ∃ d', d' = { d with
      serverStatus := .ignore
      pid := w.forkSession d.addr
      status := if w.forkSession d.addr = none then .notRunning else d.status
      lastStart := if w.forkSession d.addr = none then d.lastStart else w.now } := ⟨_,rfl⟩
  have here : d'.addr = d.addr := by rw [changed]
  have result : m.startServerSuccess w d.addr = (m.set d.addr fun _ => d').withServer m.startingServer none := by
    unfold startServerSuccess startDisplayP2
    rw [set_inside coherent inside,withServer_set,set_set,changed]
    rfl
  have turn : Turn A m d d' := by
    cases forked : w.forkSession d.addr with
    | none => exact Turn.abandon (abandon forked) was.1 (by simp [changed,forked]) (by simp [changed,forked]) (by simp [changed])
    | some pid =>
      refine Turn.enter (.inr was.1) ?_ ?_ (.inl ?_)
      · simp [changed,forked,was.1]
      · simp [changed,forked]
      · simp [changed]
  have timer : Move A (m.set d.addr fun _ => d') ((m.set d.addr fun _ => d').withServer m.startingServer none) := by
    refine Move.timer ?_
    intro e among named underway
    have same : e = d' := by
      rcases (mem_set inside).mp among with same | ⟨_,other⟩
      · exact same
      · exact absurd (Option.some.inj (named.symm.trans starting)) other
    rw [same,changed] at underway
    exact underway.1 rfl
  rw [result]
  exact ((Move.turn inside here turn).course false).trans (timer.course false)

theorem startDisplay_course (coherent : Coherent m) (inside : d ∈ m.displays) (was : d.status = .notRunning)
    (w : World) : Course A (false,m) (false,m.startDisplay w d.addr) := by
  have noSession : d.pid = none := by
    by_contra session
    rcases (coherent.each d inside).session session with status | status | status
    all_goals rw [was] at status; cases status
  unfold startDisplay
  rw [on_inside coherent inside]
  by_cases stopping : m.stopping = true
  · rw [if_pos stopping]
    exact stopDisplay_course coherent w d.addr
  · rw [if_neg stopping]
    by_cases pending : d.serverVT < 0
    · rw [if_pos pending]
      exact Course.refl _
    · rw [if_neg pending]
      by_cases unserved : d.displayType.dLocal ∧ d.serverPid = none
      · rw [if_pos unserved,set_inside coherent inside]
        refine (Move.turn inside ?_ (Turn.await was ?_ ?_ ?_ ?_)).course false
        · rfl
        · rfl
        · rfl
        · exact unserved.2
        · rfl
      · rw [if_neg unserved,set_inside coherent inside]
        unfold startDisplayP2
        rw [set_set]
        swap
        · rfl
        cases forked : w.forkSession d.addr with
        | none =>
          refine (Move.turn inside ?_ (Turn.other ⟨?_,?_,?_⟩ ?_)).course false
          · rfl
          · exact noSession.symm
          · rfl
          · rfl
          · exact was.symm
        | some pid =>
          refine (Move.turn inside ?_ (Turn.enter (.inl was) ?_ ?_ (.inr ⟨was,?_⟩))).course false
          · rfl
          · rfl
          · exact Option.some_ne_none pid
          · rfl

theorem kickDisplay_course (coherent : Coherent m) (w : World) (a : Nat) :
    Course A (false,m) (false,m.kickDisplay w a) := by
  have started : Course A (false,m) (false,m.on a fun d => if d.status = .notRunning then m.startDisplay w a else m) := by
    apply on_course coherent
    rintro d inside rfl
    by_cases was : d.status = .notRunning
    · rw [if_pos was]
      exact startDisplay_course coherent inside was w
    · rw [if_neg was]
      exact Course.refl _
  refine started.trans ?_
  unfold kickDisplay
  generalize (m.on a fun d => if d.status = .notRunning then m.startDisplay w a else m) = m' at started
  have coherent' : Coherent m' := started.coherent coherent
  apply on_course coherent'
  rintro d inside rfl
  by_cases awaiting : d.serverStatus = .awaiting ∧ m'.startingServer = none
  · rw [if_pos awaiting]
    exact startServer_course coherent' inside awaiting.1 w
  · rw [if_neg awaiting]
    exact Course.refl _

theorem checkDisplayStatus_course (coherent : Coherent m) (w : World) (a : Nat) :
    Course A (false,m) (false,m.checkDisplayStatus w a) := by
  apply on_course coherent
  rintro d inside rfl
  by_cases gone : d.displayType.origin = .dFromFile ∧ ¬ d.stillThere
  · rw [if_pos gone]
    exact stopDisplay_course coherent w d.addr
  · rw [if_neg gone]
    by_cases passive : d.status = .notRunning
    · rw [if_pos passive]
      cases w.loadDisplayResources d with
      | none => exact stopDisplay_course coherent w d.addr
      | some config =>
        exact set_course coherent false d.addr (fun _ _ _ => rfl) fun _ _ _ => Turn.other ⟨rfl,rfl,rfl⟩ rfl
    · rw [if_neg passive]
      exact Course.refl _

theorem vt_course (coherent : Coherent m) (due : Bool) (a : Nat)
    (addr : ∀ d, (f d).addr = d.addr) (same : ∀ d, Same d (f d)) (status : ∀ d, (f d).status = d.status) :
    Course A (due,m) (due,m.set a f) :=
  set_course coherent due a (fun d _ _ => addr d) fun d _ _ => Turn.other (same d) (status d)

theorem pickVT_course (coherent : Coherent m) (w : World) (a : Nat) (tvts : List (Nat × Bool)) :
    Course A (false,m) (false,m.pickVT w a tvts) := by
  induction tvts with
  | nil => exact Course.refl _
  | cons c rest ih =>
    unfold pickVT
    cases inspect c.1 m.displays with
    | taken => exact ih
    | inherit z =>
      have waits : Course A (false,m) (false,m.set a fun d => { d with serverVT := -1 }) :=
        vt_course coherent false a (fun _ => rfl) (fun _ => ⟨rfl,rfl,rfl⟩) fun _ => rfl
      exact waits.trans (vt_course (waits.coherent coherent) false z (fun _ => rfl) (fun _ => ⟨rfl,rfl,rfl⟩) fun _ => rfl)
    | free =>
      dsimp only
      split
      · exact vt_course coherent false a (fun _ => rfl) (fun _ => ⟨rfl,rfl,rfl⟩) fun _ => rfl
      · exact ih

theorem allocateVT_course (coherent : Coherent m) (w : World) (a : Nat) :
    Course A (false,m) (false,m.allocateVT w a) := by
  apply on_course coherent
  intro d inside here
  split
  · split
    · exact vt_course coherent false a (fun _ => rfl) (fun _ => ⟨rfl,rfl,rfl⟩) fun _ => rfl
    · exact pickVT_course coherent w a _
  · exact Course.refl _

theorem fold_course {f : Manager → Nat → Manager} (each : ∀ m a, Coherent m → Course A (false,m) (false,f m a))
    (coherent : Coherent m) (as : List Nat) : Course A (false,m) (false,as.foldl f m) := by
  induction as generalizing m with
  | nil => exact Course.refl _
  | cons a as ih =>
    have first := each m a coherent
    exact first.trans (ih (first.coherent coherent))

theorem startDisplays_course (coherent : Coherent m) (w : World) : Course A (false,m) (false,m.startDisplays w) := by
  have checked : Course A (false,m) (false,m.forEachDisplay (checkDisplayStatus w)) :=
    fold_course (fun m a coherent => checkDisplayStatus_course coherent w a) coherent _
  have allocated := checked.trans (fold_course (fun m a coherent => allocateVT_course coherent w a)
    (checked.coherent coherent) ((m.forEachDisplay (checkDisplayStatus w)).displays.map (·.addr)).reverse)
  exact allocated.trans (fold_course (fun m a coherent => kickDisplay_course coherent w a)
    (allocated.coherent coherent) _)

theorem stoppen_course (coherent : Coherent m) (w : World) (force : Bool) :
    Course A (false,m) (false,m.stoppen w force) := by
  have inactive : ∀ m a, Coherent m → Course A (false,m) (false,m.stopInactiveDisplay w a) := by
    intro m a coherent
    apply on_course coherent
    intro d inside here
    split
    · exact stopDisplay_course coherent w a
    · exact Course.refl _
  have stopped : Course A (false,m)
      (false,m.forEachDisplay (if force then stopDisplay w else stopInactiveDisplay w)) := by
    cases force with
    | true => exact fold_course (fun m a coherent => stopDisplay_course coherent w a) coherent _
    | false => exact fold_course inactive coherent _
  exact stopped.trans (Move.plan.course false)

/-- `exitDisplay` starts the display again, whether its server is still there or not. -/
def Restarts (w : World) (m : Manager) (d : Display) (code : ExitCode) : Prop :=
  d.status ≠ .zombie ∧ ¬ m.stopping ∧ (exitAction d code).1 = .DS_RESTART ∧
  ¬ (m.sdRec.how ≠ .none ∧ m.sdRec.start = ControlCommands.TO_INF) ∧ d.displayType.lifetime ≠ .dTransient ∧
  ((exitAction d code).2 = .XS_RETRY → d.status ≠ .raiser →
    if d.displayType.dLocal then d.lastStart+120 ≤ w.now else d.startTries+1 ≤ d.config.startAttempts)

theorem restart_course (inside : d ∈ m.displays) (addr : r.addr = d.addr) (pid : r.pid = none)
    (serverStatus : r.serverStatus = d.serverStatus) (had : d.pid ≠ none) (alive : d.status ≠ .zombie)
    (allowed : A.restart m d.addr) (serverCmd : ServerCmd) :
    Course A (false,m) (false,(m.set d.addr fun _ => r).restart d.addr serverCmd) := by
  unfold Manager.restart
  rw [set_set m addr]
  refine (Move.turn inside ?_ (Turn.restart allowed alive had ?_ ?_ ?_)).course false
  · exact addr
  · by_cases killed : r.serverPid ≠ none ∧ (serverCmd ≠ .XS_KEEP ∨ r.config.terminateServer)
    · exact .inl ⟨if_pos killed,killed.1⟩
    · exact .inr (if_neg killed)
  · exact pid
  · exact serverStatus

theorem sessionExit_course (coherent : Coherent m) (inside : d ∈ m.displays) (session : d.pid ≠ none) (w : World)
    (code : ExitCode) (restart : Restarts w m d code → A.restart m d.addr)
    (leave : d.status = .zombie → d.serverPid = none → d.zstatus ≠ .DS_TEXTMODE →
      A.leave m.statuses m.utmpList d.addr) :
    Course A (false,m) (false,m.sessionExit w d.addr code) := by
  have served : d.serverStatus ≠ .awaiting := fun awaiting => session ((coherent.each d inside).awaiting awaiting).2.1
  obtain ⟨dead,died⟩ : ∃ dead, dead = { d with pid := none } := ⟨_,rfl⟩
  obtain ⟨r,ended⟩ : ∃ r, r = { dead with userSess := none } := ⟨_,rfl⟩
  have deadAddr : dead.addr = d.addr := by rw [died]
  have addr : r.addr = d.addr := by rw [ended,deadAddr]
  have pid : r.pid = none := by rw [ended,died]
  have serverPid : r.serverPid = d.serverPid := by rw [ended,died]
  have serverStatus : r.serverStatus = d.serverStatus := by rw [ended,died]
  have status : r.status = d.status := by rw [ended,died]
  have loses : Loses d r := ⟨.inr pid,.inl serverPid,serverStatus⟩
  have stops : ∀ x : Display, x.addr = d.addr → Loses d x → x.status = d.status → x.serverPid = d.serverPid →
      ∀ endState, (d.status = .zombie → endState = d.zstatus) →
        Course A (false,m) (false,(m.set d.addr fun _ => x).rStopDisplay w d.addr endState false) := by
    intro x addr loses status serverPid endState final
    refine rStopDisplay_course coherent inside addr loses w endState false (.inr served) ?_
    intro zombie idle other
    exact leave zombie (serverPid ▸ idle.2) (final zombie ▸ other)
  have result : m.sessionExit w d.addr code =
      (m.set d.addr fun _ => dead).exitDisplay w d.addr (exitAction d code).1 (exitAction d code).2 := by
    unfold sessionExit
    rw [on_inside coherent inside,set_inside coherent inside,died]
  rw [result]
  unfold exitDisplay
  rw [on_set inside deadAddr]
  simp only [set_set m deadAddr,← ended]
  have deadStatus : dead.status = d.status := by rw [died]
  have deadType : dead.displayType = d.displayType := by rw [died]
  have deadStart : dead.lastStart = d.lastStart := by rw [died]
  have deadTries : dead.startTries = d.startTries := by rw [died]
  have deadConfig : dead.config = d.config := by rw [died]
  have deadZ : dead.zstatus = d.zstatus := by rw [died]
  rw [deadStatus,deadType,deadStart,deadTries,deadConfig,deadZ]
  by_cases zombie : d.status = .zombie
  · rw [if_pos zombie]
    exact stops r addr loses status serverPid d.zstatus fun _ => rfl
  rw [if_neg zombie]
  have stopped : ∀ endState, Course A (false,m)
      (false,(m.set d.addr fun _ => r).rStopDisplay w d.addr endState false) :=
    fun endState => stops r addr loses status serverPid endState fun is => absurd is zombie
  by_cases stopping : m.stopping = true
  · rw [if_pos (by exact stopping)]
    exact stopped .DS_REMOVE
  rw [if_neg (by exact stopping)]
  by_cases ends : (if m.sdRec.how ≠ .none ∧ m.sdRec.start = ControlCommands.TO_INF then EndState.DS_REMOVE
      else (exitAction d code).1) ≠ .DS_RESTART ∨ d.displayType.lifetime = .dTransient
  · rw [if_pos (by exact ends)]
    exact stopped _
  rw [if_neg (by exact ends)]
  simp only [not_or,ne_eq,not_not] at ends
  obtain ⟨again,lasting⟩ := ends
  have late : ¬ (m.sdRec.how ≠ .none ∧ m.sdRec.start = ControlCommands.TO_INF) := by
    intro due
    rw [if_pos due] at again
    cases again
  rw [if_neg late] at again
  have restarted : ∀ x : Display, x.addr = d.addr → x.pid = none → x.serverStatus = d.serverStatus →
      ((exitAction d code).2 = .XS_RETRY → d.status ≠ .raiser →
        if d.displayType.dLocal then d.lastStart+120 ≤ w.now else d.startTries+1 ≤ d.config.startAttempts) →
      ∀ serverCmd, Course A (false,m) (false,(m.set d.addr fun _ => x).restart d.addr serverCmd) := by
    intro x addr pid serverStatus retry serverCmd
    have allowed : A.restart m d.addr := restart ⟨zombie,stopping,again,late,lasting,retry⟩
    exact restart_course inside addr pid serverStatus session zombie allowed serverCmd
  obtain ⟨serverCmd,cmd⟩ : ∃ serverCmd, serverCmd =
      if d.status = .raiser then ServerCmd.XS_KEEP else (exitAction d code).2 := ⟨_,rfl⟩
  have asked : (exitAction d code).2 = .XS_RETRY → d.status ≠ .raiser → serverCmd = .XS_RETRY := by
    intro retry alive
    rw [cmd,if_neg alive,retry]
  rw [← cmd]
  by_cases retry : serverCmd = .XS_RETRY
  · cases near : d.displayType.dLocal with
    | true =>
      rw [if_pos ⟨retry,rfl⟩]
      by_cases early : w.now < d.lastStart+120
      · rw [if_pos early]
        exact stopped .DS_REMOVE
      · rw [if_neg early]
        exact restarted r addr pid serverStatus (fun _ _ => by rw [near,if_pos rfl]; omega) serverCmd
    | false =>
      rw [if_neg (by simp),if_pos retry]
      simp only [set_set m addr]
      by_cases often : d.config.startAttempts < d.startTries+1
      · rw [if_pos often]
        refine stops _ ?_ ?_ ?_ ?_ .DS_REMOVE fun is => absurd is zombie
        · exact addr
        · exact ⟨.inr pid,.inl serverPid,serverStatus⟩
        · exact status
        · exact serverPid
      · rw [if_neg often]
        refine restarted _ ?_ ?_ ?_ (fun _ _ => by rw [near,if_neg (by simp)]; omega) serverCmd
        · exact addr
        · exact pid
        · exact serverStatus
  · rw [if_neg fun both => retry both.1,if_neg retry]
    exact restarted r addr pid serverStatus (fun is alive => absurd (asked is alive) retry) serverCmd

/-- What becomes of a display `e` when the terminal of `d` changes hands. -/
def passed (d e : Display) : Display :=
  if d.serverVT ≠ 0 ∧ d.zstatus ≠ .DS_REMOTE then
    let e' := if d.follower = some e.addr then { e with serverVT := d.serverVT } else e
    if e.addr = d.addr then { e' with follower := none, serverVT := 0 } else e'
  else e

theorem passed_addr (d e : Display) : (passed d e).addr = e.addr := by
  unfold passed
  split_ifs <;> rfl

theorem passed_same (d e : Display) : Same e (passed d e) ∧ (passed d e).status = e.status ∧
    (passed d e).zstatus = e.zstatus := by
  unfold passed
  split_ifs <;> exact ⟨⟨rfl,rfl,rfl⟩,rfl,rfl⟩

/-- `handOver` where the display is `x`, and nothing else is at its address. -/
theorem handOver_set (inside : d ∈ m.displays) (addr : r.addr = d.addr) :
    (m.set d.addr fun _ => r).handOver d.addr =
      { m with displays := (m.set d.addr fun _ => r).displays.map (passed r) } := by
  unfold handOver
  rw [on_set inside addr]
  by_cases given : r.serverVT ≠ 0 ∧ r.zstatus ≠ .DS_REMOTE
  · rw [if_pos given]
    cases follower : r.follower with
    | none =>
      simp only [Manager.set,map_map]
      congr 1
      apply map_congr_left
      intro e _
      by_cases here : e.addr = d.addr
      · simp [passed,given,follower,here,addr]
      · simp [passed,given,follower,here,addr]
    | some f =>
      simp only [Manager.set,map_map]
      congr 1
      apply map_congr_left
      intro e _
      by_cases here : e.addr = d.addr
      · by_cases self : f = d.addr
        · simp [passed,given,follower,here,addr,self]
        · simp [passed,given,follower,here,addr,self,Ne.symm self]
      · by_cases named : f = e.addr
        · simp [passed,given,follower,here,addr,named]
        · simp [passed,given,follower,here,addr,named,Ne.symm named]
  · rw [if_neg given]
    have nothing : passed r = id := funext fun e => if_neg given
    rw [nothing,map_id]
    rfl

theorem handOver_course (coherent : Coherent m) (a : Nat) : Course A (false,m) (false,m.handOver a) := by
  apply on_course coherent
  intro d inside here
  split
  · cases d.follower with
    | none => exact vt_course coherent false a (fun _ => rfl) (fun _ => ⟨rfl,rfl,rfl⟩) fun _ => rfl
    | some f =>
      have given : Course A (false,m) (false,m.set f fun fd => { fd with serverVT := d.serverVT }) :=
        vt_course coherent false f (fun _ => rfl) (fun _ => ⟨rfl,rfl,rfl⟩) fun _ => rfl
      have handed : Course A (false,m) (false,(m.set f fun fd => { fd with serverVT := d.serverVT }).set a
          fun d => { d with follower := none }) :=
        given.trans (vt_course (given.coherent coherent) false a (fun _ => rfl) (fun _ => ⟨rfl,rfl,rfl⟩) fun _ => rfl)
      exact handed.trans (vt_course (handed.coherent coherent) false a (fun _ => rfl) (fun _ => ⟨rfl,rfl,rfl⟩) fun _ => rfl)
  · exact Course.refl _

theorem statuses_handOver (coherent : Coherent m) (inside : d ∈ m.displays) :
    (m.handOver d.addr).statuses = m.statuses ∧ (m.handOver d.addr).utmpList = m.utmpList := by
  have handed := handOver_set inside (rfl : d.addr = d.addr)
  rw [set_self coherent inside] at handed
  rw [handed]
  constructor
  · simp only [statuses,map_map]
    apply map_congr_left
    intro e _
    simp [passed_addr,(passed_same d e).2.1]
  · rfl

theorem zombieExit_course (coherent : Coherent m) (inside : d ∈ m.displays) (server : d.serverPid ≠ none) (w : World)
    (leave : d.pid = none → d.zstatus ≠ .DS_TEXTMODE → A.leave m.statuses m.utmpList d.addr) :
    Course A (false,m)
      (false,((m.set d.addr fun _ => { d with serverPid := none }).handOver d.addr).rStopDisplay w d.addr d.zstatus
        false) := by
  have served : d.serverStatus ≠ .awaiting := fun awaiting => server ((coherent.each d inside).awaiting awaiting).2.2
  have handed := handOver_set inside (rfl : d.addr = d.addr)
  rw [set_self coherent inside] at handed
  obtain ⟨before,was⟩ : ∃ before, before = passed d d := ⟨_,rfl⟩
  have here : before.addr = d.addr := by rw [was,passed_addr]
  obtain ⟨⟨samePid,-,sameStatus⟩,status,-⟩ := passed_same d d
  rw [← was] at samePid sameStatus status
  have among : before ∈ (m.handOver d.addr).displays := by
    rw [handed,was]
    exact mem_map_of_mem inside
  have result : ((m.set d.addr fun _ => { d with serverPid := none }).handOver d.addr) =
      (m.handOver d.addr).set before.addr fun _ => { before with serverPid := none } := by
    rw [handOver_set inside (by rfl),handed,here]
    simp only [Manager.set,map_map]
    congr 1
    apply map_congr_left
    intro e _
    by_cases at_d : e.addr = d.addr
    · simp only [Function.comp_apply,if_pos at_d,passed_addr,was]
      unfold passed
      split_ifs <;> rfl
    · simp only [Function.comp_apply,if_neg at_d,passed_addr]
      rfl
  have moved : Course A (false,m) (false,m.handOver d.addr) := handOver_course coherent d.addr
  obtain ⟨statuses,utmpList⟩ := statuses_handOver coherent inside
  have coherent' : Coherent (m.handOver d.addr) := moved.coherent coherent
  have stopped : Course A (false,m.handOver d.addr) (false,((m.handOver d.addr).set before.addr
      fun _ => { before with serverPid := none }).rStopDisplay w before.addr d.zstatus false) := by
    refine rStopDisplay_course coherent' among ?_ ?_ w d.zstatus false ?_ ?_
    · rfl
    · exact ⟨.inl rfl,.inr rfl,rfl⟩
    · exact .inr (sameStatus ▸ served)
    · intro _ idle other
      rw [statuses,utmpList,here]
      exact leave (samePid ▸ idle.1) other
  rw [result]
  rw [here] at stopped ⊢
  exact moved.trans stopped

theorem serverExit_course (coherent : Coherent m) (inside : d ∈ m.displays) (server : d.serverPid ≠ none) (w : World)
    (leave : d.status = .zombie → d.pid = none → d.zstatus ≠ .DS_TEXTMODE → A.leave m.statuses m.utmpList d.addr) :
    Course A (false,m) (false,m.serverExit w d.addr) := by
  obtain ⟨dead,died⟩ : ∃ dead, dead = { d with serverPid := none } := ⟨_,rfl⟩
  have addr : dead.addr = d.addr := by rw [died]
  have pid : dead.pid = d.pid := by rw [died]
  have serverPid : dead.serverPid = none := by rw [died]
  have serverStatus : dead.serverStatus = d.serverStatus := by rw [died]
  have same : dead.status = d.status := by rw [died]
  have bereft : d.status ≠ .zombie ∧ d.status ≠ .phoenix ∧ d.status ≠ .remoteLogin →
      Course A (false,m) (false,m.set d.addr fun _ => dead) :=
    fun was => (Move.turn inside addr (Turn.bereft was same pid serverPid serverStatus)).course false
  unfold serverExit
  rw [on_inside coherent inside,set_inside coherent inside,← died]
  cases status : d.status with
  | zombie =>
    rw [died]
    exact zombieExit_course coherent inside server w (leave status)
  | phoenix =>
    dsimp only
    rw [set_set m addr]
    refine (Move.turn inside ?_ (Turn.arise (.inl status) ?_ ?_ ?_ ?_)).course false
    · exact addr
    · exact .inl rfl
    · exact pid
    · exact serverPid
    · exact serverStatus
  | remoteLogin =>
    dsimp only
    rw [set_set m addr]
    refine (Move.turn inside ?_ (Turn.arise (.inr status) ?_ ?_ ?_ ?_)).course false
    · exact addr
    · by_cases reserve : dead.displayType.lifetime = .dReserve
      · simp [reserve]
      · simp [reserve]
    · exact pid
    · exact serverPid
    · exact serverStatus
  | running =>
    dsimp only
    by_cases starting : m.startingServer = some d.addr ∧ d.serverStatus ≠ .ignore
    · have was := (coherent.begun d inside starting.1).early starting.2
      have failed := startServerFailed_course (A := A) coherent inside was addr
        ⟨same.trans was.1,pid.trans was.2⟩ w m.serverTimeout
      rw [← starting.1] at failed
      rw [if_pos (by exact starting)]
      exact failed
    · rw [if_neg (by exact starting)]
      exact bereft (by simp [status])
  | raiser => exact bereft (by simp [status])
  | notRunning => exact bereft (by simp [status])
  | textMode => exact bereft (by simp [status])
  | reserve => exact bereft (by simp [status])

theorem reapChild_course (coherent : Coherent m) (w : World) (pid : Nat) (code : ExitCode)
    (restart : ∀ d ∈ m.displays, d.pid = some pid → Restarts w m d code → A.restart m d.addr)
    (leave : ∀ d ∈ m.displays, d.status = .zombie →
      d.pid = some pid ∧ d.serverPid = none ∨ d.pid = none ∧ d.serverPid = some pid → d.zstatus ≠ .DS_TEXTMODE →
        A.leave m.statuses m.utmpList d.addr) :
    Course A (false,m) (false,m.reapChild w pid code) := by
  unfold reapChild
  cases found : m.displays.find? (·.pid = some pid) with
  | some d =>
    have inside := mem_of_find?_eq_some found
    have session : d.pid = some pid := by simpa using find?_some found
    exact sessionExit_course coherent inside (by simp [session]) w code (restart d inside session)
      fun zombie server => leave d inside zombie (.inl ⟨session,server⟩)
  | none =>
    dsimp only
    cases found : m.displays.find? (·.serverPid = some pid) with
    | some d =>
      have inside := mem_of_find?_eq_some found
      have server : d.serverPid = some pid := by simpa using find?_some found
      exact serverExit_course coherent inside (by simp [server]) w
        fun zombie session => leave d inside zombie (.inr ⟨session,server⟩)
    | none => exact Course.refl _

/-- No local display waits for its server to be started. -/
def NoneAwaits (m : Manager) : Prop := ∀ d ∈ m.displays, d.displayType.dLocal → d.serverStatus ≠ .awaiting

theorem NoneAwaits.set (quiet : NoneAwaits m) (a : Nat) (kept : ∀ d, (f d).displayType = d.displayType)
    (status : ∀ d, (f d).serverStatus = d.serverStatus ∨ (f d).serverStatus = .ignore) : NoneAwaits (m.set a f) := by
  intro e among near awaiting
  obtain ⟨d,inside,rfl⟩ := mem_map.mp among
  by_cases here : d.addr = a
  · rw [if_pos here] at near awaiting
    rcases status d with same | ignore
    · exact quiet d inside (kept d ▸ near) (same ▸ awaiting)
    · rw [ignore] at awaiting
      cases awaiting
  · rw [if_neg here] at near awaiting
    exact quiet d inside near awaiting

theorem NoneAwaits.on (quiet : NoneAwaits m) (a : Nat) {f : Display → Manager} (each : ∀ d, NoneAwaits (f d)) :
    NoneAwaits (m.on a f) := by
  unfold Manager.on
  cases m.find a with
  | none => exact quiet
  | some d => exact each d

theorem NoneAwaits.stopToTTY (quiet : NoneAwaits m) (w : World) (a : Nat) : NoneAwaits (m.stopToTTY w a) := by
  have aborted : NoneAwaits (m.abortStartServer a) := by
    unfold abortStartServer
    split
    · apply quiet.on
      intro d
      split
      · exact quiet.set a (fun _ => rfl) fun _ => .inr rfl
      · exact quiet
    · exact quiet
  apply quiet.on
  intro d
  split
  · apply aborted.on
    intro d
    split
    · exact aborted.set a (fun _ => rfl) fun _ => .inl rfl
    · exact aborted.set a (fun _ => rfl) fun _ => .inl rfl
  · exact quiet

theorem stopToTTY_course (coherent : Coherent m) (quiet : NoneAwaits m) (w : World) (a : Nat) :
    Course A (true,m) (true,m.stopToTTY w a) := by
  apply on_course coherent
  rintro d inside rfl
  by_cases active : d.displayType.dLocal ∧ d.status ≠ .reserve ∧ d.status ≠ .textMode
  · rw [if_pos active]
    exact stop_course coherent inside w .DS_TEXTMODE true (.inr (quiet d inside active.1))
  · rw [if_neg active]
    exact Course.refl _

theorem console_course (coherent : Coherent m) (quiet : NoneAwaits m) (w : World) :
    Course A (false,m) (false,(m.forEachDisplay (stopToTTY w)).checkTTYMode w) := by
  have stopped : ∀ (as : List Nat) (m : Manager), Coherent m → NoneAwaits m →
      Course A (true,m) (true,as.foldl (stopToTTY w) m) := by
    intro as
    induction as with
    | nil => intro m _ _; exact Course.refl _
    | cons a as ih =>
      intro m coherent quiet
      have first : Course A (true,m) (true,m.stopToTTY w a) := stopToTTY_course coherent quiet w a
      exact first.trans (ih _ (first.coherent coherent) (quiet.stopToTTY w a))
  have late : Course A (false,m) (true,m) := Go.late.course
  exact (late.trans (stopped _ m coherent quiet)).trans (Go.check w).course

/-- Where a display that is not running is made a reserve display, that is allowed. -/
def Benches (A : Allowed) : Manager → List String → Prop
  | _, [] => True
  | m, name :: names =>
    (∀ d, m.findDisplayByName name = some d → d.status = .notRunning → A.bench m d.addr) ∧
      Benches A (addServer .dReserve m name) names

theorem fresh_unused (m : Manager) : ∀ e ∈ m.displays, e.addr ≠ m.fresh := by
  have below : ∀ (as : List Nat), ∀ a ∈ as, a ≤ as.foldr max 0 := by
    intro as
    induction as with
    | nil => intro a inside; cases inside
    | cons b as ih =>
      intro a inside
      rw [foldr_cons]
      rcases mem_cons.mp inside with rfl | inside
      · exact Nat.le_max_left ..
      · exact Nat.le_trans (ih a inside) (Nat.le_max_right ..)
  intro e inside same
  have bound := below _ _ (mem_map_of_mem (f := fun d : Display => d.addr) inside)
  unfold Manager.fresh at same
  omega

theorem newDisplay_set (m : Manager) (name : String) (f : Display → Display) :
    (m.newDisplay name).set m.fresh f = { m with displays := f (m.newborn name) :: m.displays } := by
  have kept : (m.displays.map fun e => if e.addr = m.fresh then f e else e) = m.displays := by
    conv_rhs => rw [← map_id m.displays]
    apply map_congr_left
    intro e among
    rw [if_neg (fresh_unused m e among)]
    rfl
  unfold Manager.set newDisplay
  rw [map_cons,kept,if_pos (by rfl)]

theorem create_course (due : Bool) (name : String) (addr : ∀ d, (f d).addr = d.addr)
    (same : ∀ d, Same d (f d)) (now : ∀ d, d.status = .notRunning →
      (f d).status = .notRunning ∨ (f d).status = .reserve) :
    Course A (due,m) (due,(m.newDisplay name).set m.fresh f) := by
  rw [newDisplay_set]
  obtain ⟨pid,serverPid,serverStatus⟩ := same (m.newborn name)
  refine (Move.create ?_ ⟨?_,?_⟩ (now _ ?_) ?_).course due
  · intro e among
    rw [addr]
    exact fresh_unused m e among
  · exact pid
  · exact serverPid
  · rfl
  · exact serverStatus

theorem listed_same (lifetime : Lifetime) (name : String) (d : Display) : Same d (listed lifetime name d) :=
  ⟨rfl,rfl,rfl⟩

theorem addServer_course (coherent : Coherent m) (lifetime : Lifetime) (name : String)
    (bench : ∀ d, m.findDisplayByName name = some d → d.status = .notRunning → lifetime = .dReserve →
      A.bench m d.addr) :
    Course A (false,m) (false,addServer lifetime m name) := by
  unfold addServer
  cases found : m.findDisplayByName name with
  | some d =>
    have inside := mem_of_find?_eq_some found
    apply set_course coherent
    · exact fun _ _ _ => rfl
    · intro e among here
      rw [coherent.same inside among here]
      have kept := listed_same lifetime name d
      by_cases reserve : lifetime = .dReserve
      · by_cases passive : d.status = .notRunning
        · exact Turn.bench (bench d found passive reserve) passive (by simp [listed,reserve,passive]) kept
        · exact Turn.other kept (by simp [listed,reserve,passive])
      · by_cases idle : d.status = .reserve
        · exact Turn.wake idle (by simp [listed,reserve,idle]) kept
        · exact Turn.other kept (by simp [listed,reserve,idle])
  | none =>
    refine create_course false name (fun _ => rfl) (listed_same lifetime name) ?_
    intro d passive
    by_cases reserve : lifetime = .dReserve
    · exact .inr (by simp [listed,reserve,passive])
    · exact .inl (by simp [listed,reserve,passive])

theorem scanServers_course (coherent : Coherent m) (staticServers reserveServers : List String)
    (bench : Benches A (staticServers.foldl (addServer .dPermanent) m) reserveServers) :
    Course A (false,m) (false,m.scanServers staticServers reserveServers) := by
  have static : ∀ (names : List String) (m : Manager), Coherent m →
      Course A (false,m) (false,names.foldl (addServer .dPermanent) m) := by
    intro names
    induction names with
    | nil => intro m _; exact Course.refl _
    | cons name names ih =>
      intro m coherent
      have first : Course A (false,m) (false,addServer .dPermanent m name) :=
        addServer_course coherent .dPermanent name fun _ _ _ impossible => nomatch impossible
      exact first.trans (ih _ (first.coherent coherent))
  have reserve : ∀ (names : List String) (m : Manager), Coherent m → Benches A m names →
      Course A (false,m) (false,names.foldl (addServer .dReserve) m) := by
    intro names
    induction names with
    | nil => intro m _ _; exact Course.refl _
    | cons name names ih =>
      intro m coherent bench
      have first : Course A (false,m) (false,addServer .dReserve m name) :=
        addServer_course coherent .dReserve name fun d found passive _ => bench.1 d found passive
      exact first.trans (ih _ (first.coherent coherent) bench.2)
  have listed := static staticServers m coherent
  exact listed.trans (reserve reserveServers _ (listed.coherent coherent) bench)

theorem suicide_course (coherent : Coherent m) (a : Nat) : Course A (false,m) (false,m.suicide a) := by
  apply on_course coherent
  rintro d inside rfl
  by_cases raises : d.status = .running ∧ d.pid ≠ none
  · rw [if_pos raises,set_inside coherent inside]
    refine (Move.turn inside ?_ (Turn.raise raises.1 ?_ raises.2 ⟨?_,?_,?_⟩)).course false
    all_goals rfl
  · rw [if_neg raises]
    exact Course.refl _

theorem login_course (coherent : Coherent m) (a : Nat) (nuke : Bool) : Course A (false,m) (false,m.login a nuke) := by
  apply on_course coherent
  rintro d inside rfl
  by_cases raises : d.status = .running ∧ d.pid ≠ none ∧ (d.userSess = none ∨ nuke = true)
  · rw [if_pos raises,set_inside coherent inside]
    refine (Move.turn inside ?_ (Turn.raise raises.1 ?_ raises.2.1 ⟨?_,?_,?_⟩)).course false
    all_goals rfl
  · rw [if_neg raises]
    by_cases reserve : d.status = .reserve
    · rw [if_pos reserve,set_inside coherent inside]
      refine (Move.turn inside ?_ (Turn.wake reserve ?_ ⟨?_,?_,?_⟩)).course false
      all_goals rfl
    · rw [if_neg reserve]
      exact Course.refl _

theorem startReserveDisplay_course (coherent : Coherent m) : Course A (false,m) (false,m.startReserveDisplay) := by
  unfold startReserveDisplay
  cases last : (m.displays.filter fun d => d.status = .reserve).getLast? with
  | none => exact Course.refl _
  | some rd =>
    obtain ⟨inside,reserve⟩ := mem_filter.mp (mem_of_getLast? last)
    dsimp only
    rw [set_inside coherent inside]
    refine (Move.turn inside ?_ (Turn.wake (of_decide_eq_true reserve) ?_ ⟨?_,?_,?_⟩)).course false
    all_goals rfl

theorem markDisplays_course (coherent : Coherent m) : Course A (false,m) (false,m.markDisplays) := by
  apply fold_course ?_ coherent
  intro m a coherent
  exact vt_course coherent false a (fun _ => rfl) (fun _ => ⟨rfl,rfl,rfl⟩) fun _ => rfl

theorem checkUtmp_course (w : World) : Course A (false,m) (false,m.checkUtmp w) := by
  unfold checkUtmp
  split
  · exact Move.resume.course false
  · exact Course.refl _

end

/-- What an event must be like where moves are not allowed at all times. -/
def Meets (A : Allowed) (w : World) (m : Manager) : Event → Prop
  | .childExit pid code =>
    (∀ d ∈ m.displays, d.pid = some pid → Restarts w m d code → A.restart m d.addr) ∧
    ∀ d ∈ m.displays, d.status = .zombie →
      d.pid = some pid ∧ d.serverPid = none ∨ d.pid = none ∧ d.serverPid = some pid → d.zstatus ≠ .DS_TEXTMODE →
        A.leave m.statuses m.utmpList d.addr
  | .serverReady => ∀ d ∈ m.displays, m.startingServer = some d.addr → d.serverStatus = .starting →
      w.forkSession d.addr = none → A.abandon m d.addr
  | .rescan hangup staticServers reserveServers =>
    Benches A (staticServers.foldl (addServer .dPermanent) (if hangup then m.markDisplays else m)) reserveServers
  | .console => w.consoleTTYs → NoneAwaits m
  | _ => True

theorem step_course {A : Allowed} {w : World} {m m' : Manager} {e : Event} (coherent : Coherent m)
    (meets : Meets A w m e) (stepped : step w m e = some m') : Course A (false,m) (false,m') := by
  cases e with
  | startDisplays =>
    simp only [step] at stepped
    split at stepped
    · cases stepped
    · cases stepped
      exact startDisplays_course coherent w
  | serverTimeout =>
    simp only [step] at stepped
    split at stepped
    · cases stepped
    · obtain ⟨a,starting,rfl⟩ := Option.map_eq_some_iff.mp stepped
      obtain ⟨d,inside,rfl⟩ := coherent.starting a starting
      exact startServerTimeout_course coherent inside starting w
  | utmpTimeout =>
    cases stepped
    exact checkUtmp_course w
  | stoppen force =>
    cases stepped
    exact stoppen_course coherent w force
  | rescan hangup staticServers reserveServers =>
    cases stepped
    cases hangup with
    | true =>
      have marked : Course A (false,m) (false,m.markDisplays) := markDisplays_course coherent
      exact marked.trans (scanServers_course (marked.coherent coherent) staticServers reserveServers meets)
    | false => exact scanServers_course coherent staticServers reserveServers meets
  | childExit pid code =>
    cases stepped
    exact reapChild_course coherent w pid code meets.1 meets.2
  | serverReady =>
    cases stepped
    cases starting : m.startingServer with
    | none => exact Course.refl _
    | some a =>
      apply on_course coherent
      rintro d inside rfl
      by_cases up : d.serverStatus = .starting
      · rw [if_pos up]
        exact startServerSuccess_course coherent inside starting up w (meets d inside starting up)
      · rw [if_neg up]
        exact Course.refl _
  | stop a =>
    cases stepped
    exact stopDisplay_course coherent w a
  | manage name displayType =>
    cases stepped
    exact create_course false name (fun _ => rfl) (fun _ => ⟨rfl,rfl,rfl⟩) fun _ passive => .inl passive
  | suicide a =>
    cases stepped
    exact suicide_course coherent a
  | login a nuke =>
    cases stepped
    exact login_course coherent a nuke
  | reserve =>
    cases stepped
    exact startReserveDisplay_course coherent
  | resume =>
    cases stepped
    exact Move.resume.course false
  | console =>
    simp only [step] at stepped
    split at stepped
    · rename_i terminals
      cases stepped
      exact console_course coherent (meets terminals) w
    · cases stepped
      exact Course.refl _
  | connOk =>
    cases stepped
    exact Move.connOk.course false
  | user a userSess =>
    cases stepped
    exact vt_course coherent false a (fun _ => rfl) (fun _ => ⟨rfl,rfl,rfl⟩) fun _ => rfl
  | shutdown sdRec =>
    cases stepped
    exact Move.plan.course false
  | cancelShutdown =>
    cases stepped
    exact Move.plan.course false

theorem initial_coherent : Coherent initial := by
  constructor <;> simp [initial]

/-- In a run whose events are as `Meets` has them, every state is coherent. -/
theorem Reached.coherent {A : Allowed} {m : Manager} (reached : Reached (Meets A) m) : Coherent m := by
  induction reached with
  | initial => exact initial_coherent
  | step _ meets stepped ih => exact (step_course ih meets stepped).coherent ih

theorem Reached.preserves {A : Allowed} {P : Bool × Manager → Prop}
    (go : ∀ s s', Coherent s.2 → Go A s s' → P s → P s') (start : P (false,DisplayCycle.initial)) {m : Manager}
    (reached : Reached (Meets A) m) : P (false,m) := by
  induction reached with
  | initial => exact start
  | step before meets stepped ih =>
    have both := (step_course before.coherent meets stepped).preserves (P := fun s => Coherent s.2 ∧ P s)
      (fun s s' move both => ⟨move.coherent both.1,go s s' both.1 move both.2⟩) ⟨before.coherent,ih⟩
    exact both.2

end KdeWorkspace.DisplayCycle
