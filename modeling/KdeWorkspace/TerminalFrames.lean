import KdeWorkspace.DisplayCourses

/-!
What kdm does to displays without giving them virtual terminals: their terminals and the pointers to
those who wait for a terminal stay, and nobody comes to hold on to a terminal who did not before.

A display that waits is not started, and it is gone only if it has been stopped itself.
-/
namespace KdeWorkspace.DisplayCycle
open List
open ControlCommands (DisplayStatus Lifetime SdRec TO_INF)
open Manager

/-- A display holds on to its terminal, be it for another one, unless its server is to give it up. -/
def Holds (m : Manager) (d : Display) : Prop :=
  d.status ≠ .zombie ∨ d.zstatus = .DS_REMOTE ∨ d.serverPid = none ∨ d.follower ≠ none ∨
    d.serverStatus = .awaiting ∨ m.startingServer = some d.addr

def Display.resting (d : Display) : Prop := d.status = .notRunning ∨ d.status = .textMode ∨ d.status = .reserve

/-- A display that waits for the terminal of another, and about which nothing else is going on. -/
structure Waits (m : Manager) (d : Display) : Prop where
  serverVT : d.serverVT = -1
  resting : d.resting
  pid : d.pid = none
  serverStatus : d.serverStatus ≠ .awaiting
  starting : m.startingServer = some d.addr → d.serverStatus = .ignore

def Unique (m : Manager) : Prop := (m.displays.map (·.addr)).Nodup

theorem Unique.same {m : Manager} (unique : Unique m) {d e : Display} (inside : d ∈ m.displays)
    (among : e ∈ m.displays) (addr : e.addr = d.addr) : e = d :=
  inj_on_of_nodup_map unique among inside addr

variable {a : Nat}

theorem Unique.set {m : Manager} (unique : Unique m) {f : Display → Display}
    (addr : ∀ d, (f d).addr = d.addr) : Unique (m.set a f) := by
  unfold Unique
  rw [set_addrs m a fun d _ => addr d]
  exact unique

theorem Unique.set_congr {m : Manager} (unique : Unique m) {d : Display} (inside : d ∈ m.displays)
    {f g : Display → Display} (same : f d = g d) : m.set d.addr f = m.set d.addr g := by
  unfold Manager.set
  congr 1
  apply map_congr_left
  intro e among
  by_cases here : e.addr = d.addr
  · rw [if_pos here,if_pos here,unique.same inside among here,same]
  · rw [if_neg here,if_neg here]

theorem Unique.on {m : Manager} (unique : Unique m) {d : Display} (inside : d ∈ m.displays) (f : Display → Manager) :
    m.on d.addr f = f d := by
  unfold Manager.on Manager.find
  cases found : m.displays.find? (·.addr = d.addr) with
  | none => simpa using find?_eq_none.mp found d inside
  | some e =>
    rw [unique.same inside (mem_of_find?_eq_some found) (by simpa using find?_some found)]
    rfl

structure Kept (m m' : Manager) (d d' : Display) : Prop where
  addr : d'.addr = d.addr
  serverVT : d'.serverVT = d.serverVT
  follower : d'.follower = d.follower
  holds : 0 < d.serverVT → Holds m' d' → Holds m d

/-- From `m` to `m'` only displays outside of `F` are removed, among others, and new ones have no terminal. -/
structure Framed (F : Nat → Prop) (m m' : Manager) : Prop where
  unique : Unique m → Unique m'
  origin : ∀ d' ∈ m'.displays, (∃ d ∈ m.displays, Kept m m' d d') ∨ d'.serverVT = 0 ∧ d'.follower = none
  waits : ∀ d ∈ m.displays, F d.addr → Waits m d → ∃ d' ∈ m'.displays, d'.addr = d.addr ∧ Waits m' d'
  stopping : m'.stopping = m.stopping

variable {F : Nat → Prop} {m m' m'' : Manager}

theorem Waits.of_starting {d : Display} (waiting : Waits m d) (starting : m'.startingServer = m.startingServer) :
    Waits m' d :=
  ⟨waiting.serverVT,waiting.resting,waiting.pid,waiting.serverStatus,starting ▸ waiting.starting⟩

theorem Framed.of_same (displays : m'.displays = m.displays) (starting : m'.startingServer = m.startingServer)
    (stopping : m'.stopping = m.stopping) : Framed F m m' := by
  refine ⟨?_,?_,?_,stopping⟩
  · unfold Unique
    rw [displays]
    exact id
  · intro d inside
    refine .inl ⟨d,displays ▸ inside,rfl,rfl,rfl,fun _ => ?_⟩
    unfold Holds
    rw [starting]
    exact id
  · intro d inside _ waiting
    exact ⟨d,displays ▸ inside,rfl,waiting.of_starting starting⟩

theorem Framed.refl : Framed F m m := .of_same rfl rfl rfl

theorem Framed.trans (first : Framed F m m') (second : Framed F m' m'') : Framed F m m'' := by
  refine ⟨second.unique ∘ first.unique,?_,?_,second.stopping.trans first.stopping⟩
  · intro d'' inside
    rcases second.origin d'' inside with ⟨d',among,last⟩ | new
    · rcases first.origin d' among with ⟨d,start,before⟩ | ⟨vt,follower⟩
      · exact .inl ⟨d,start,last.addr.trans before.addr,last.serverVT.trans before.serverVT,
          last.follower.trans before.follower,fun positive holds =>
          before.holds positive (last.holds (before.serverVT ▸ positive) holds)⟩
      · exact .inr ⟨last.serverVT.trans vt,last.follower.trans follower⟩
    · exact .inr new
  · intro d inside followed waiting
    obtain ⟨d',among,addr,waiting'⟩ := first.waits d inside followed waiting
    obtain ⟨d'',there,addr',waiting''⟩ := second.waits d' among (addr ▸ followed) waiting'
    exact ⟨d'',there,addr'.trans addr,waiting''⟩

theorem Framed.change {f : Display → Display} (addr : ∀ d, (f d).addr = d.addr)
    (kept : ∀ d ∈ m.displays, d.addr = a →
      (f d).serverVT = d.serverVT ∧ (f d).follower = d.follower ∧ (0 < d.serverVT → Holds m (f d) → Holds m d))
    (waits : ∀ d ∈ m.displays, d.addr = a → F a → Waits m d → Waits m (f d)) : Framed F m (m.set a f) := by
  refine ⟨fun unique => unique.set addr,?_,?_,rfl⟩
  · intro d' inside
    obtain ⟨d,among,rfl⟩ := mem_map.mp inside
    refine .inl ⟨d,among,?_⟩
    by_cases here : d.addr = a
    · rw [if_pos here]
      obtain ⟨vt,follower,holds⟩ := kept d among here
      exact ⟨addr d,vt,follower,holds⟩
    · rw [if_neg here]
      exact ⟨rfl,rfl,rfl,fun _ => id⟩
  · intro d inside followed waiting
    refine ⟨_,mem_map_of_mem inside,?_⟩
    by_cases here : d.addr = a
    · rw [if_pos here]
      exact ⟨addr d,(waits d inside here (here ▸ followed) waiting).of_starting rfl⟩
    · rw [if_neg here]
      exact ⟨rfl,waiting.of_starting rfl⟩

theorem Framed.set {f : Display → Display} (addr : ∀ d, (f d).addr = d.addr)
    (kept : ∀ d ∈ m.displays, d.addr = a →
      (f d).serverVT = d.serverVT ∧ (f d).follower = d.follower ∧ (Holds m (f d) → Holds m d))
    (waits : ∀ d ∈ m.displays, d.addr = a → F a → Waits m d → Waits m (f d)) : Framed F m (m.set a f) := by
  refine .change addr (fun d inside here => ?_) waits
  obtain ⟨vt,follower,holds⟩ := kept d inside here
  exact ⟨vt,follower,fun _ => holds⟩

theorem Framed.withServer {s t : Option Nat} (starts : ∀ a, s = some a → m.startingServer = some a ∨
    ¬F a ∧ ∀ d ∈ m.displays, d.addr = a → Holds m d) : Framed F m (m.withServer s t) := by
  refine ⟨id,?_,?_,rfl⟩
  · intro d inside
    refine .inl ⟨d,inside,rfl,rfl,rfl,fun _ holds => ?_⟩
    rcases holds with alive | remote | bereft | followed | awaiting | starting
    · exact .inl alive
    · exact .inr (.inl remote)
    · exact .inr (.inr (.inl bereft))
    · exact .inr (.inr (.inr (.inl followed)))
    · exact .inr (.inr (.inr (.inr (.inl awaiting))))
    · rcases starts _ starting with before | ⟨_,holds⟩
      · exact .inr (.inr (.inr (.inr (.inr before))))
      · exact holds d inside rfl
  · intro d inside followed waiting
    refine ⟨d,inside,rfl,waiting.serverVT,waiting.resting,waiting.pid,waiting.serverStatus,?_⟩
    intro starting
    rcases starts _ starting with before | ⟨spare,_⟩
    · exact waiting.starting before
    · exact absurd followed spare

theorem Framed.withServer_none {t : Option Nat} : Framed F m (m.withServer none t) :=
  .withServer fun _ starts => nomatch starts

theorem Framed.withServer_same {t : Option Nat} : Framed F m (m.withServer m.startingServer t) :=
  .withServer fun _ starts => .inl starts

theorem Framed.removeDisplay (spare : ¬F a) : Framed F m (m.removeDisplay a) := by
  refine ⟨?_,?_,?_,rfl⟩
  · intro unique
    exact unique.sublist (List.Sublist.map _ filter_sublist)
  · intro d inside
    exact .inl ⟨d,mem_of_mem_filter inside,rfl,rfl,rfl,fun _ => id⟩
  · intro d inside followed waiting
    have other : d.addr ≠ a := fun here => spare (here ▸ followed)
    exact ⟨d,mem_filter.mpr ⟨inside,by simpa using other⟩,rfl,waiting.of_starting rfl⟩

theorem Framed.on {f : Display → Manager} (each : ∀ d ∈ m.displays, d.addr = a → Framed F m (f d)) :
    Framed F m (m.on a f) := by
  unfold Manager.on Manager.find
  cases found : m.displays.find? (·.addr = a) with
  | none => exact .refl
  | some d => exact each d (mem_of_find?_eq_some found) (by simpa using find?_some found)

theorem Framed.ite {p : Prop} [Decidable p] {m₁ m₂ : Manager} (yes : p → Framed F m m₁) (no : ¬p → Framed F m m₂) :
    Framed F m (if p then m₁ else m₂) := by
  split
  · exact yes ‹p›
  · exact no ‹¬p›

theorem wakeDisplays_framed : Framed F m m.wakeDisplays := by
  have kept (d : Display) : (wakeDisplay d).addr = d.addr ∧ (wakeDisplay d).serverVT = d.serverVT ∧
      (wakeDisplay d).follower = d.follower := by
    unfold wakeDisplay
    split <;> exact ⟨rfl,rfl,rfl⟩
  refine ⟨?_,?_,?_,rfl⟩
  · unfold Unique wakeDisplays
    simp [wakeDisplay_addr,Function.comp_def]
  · intro d' inside
    obtain ⟨d,among,rfl⟩ := mem_map.mp inside
    obtain ⟨addr,vt,follower⟩ := kept d
    refine .inl ⟨d,among,addr,vt,follower,fun _ => ?_⟩
    unfold wakeDisplay
    split
    · rename_i text
      exact fun _ => .inl (by simp [text])
    · exact id
  · intro d inside followed waiting
    obtain ⟨addr,vt,-⟩ := kept d
    obtain ⟨pid,-,serverStatus⟩ := wakeDisplay_same d
    have rests := waiting.resting
    refine ⟨_,mem_map_of_mem inside,addr,vt.trans waiting.serverVT,?_,pid.trans waiting.pid,
      serverStatus ▸ waiting.serverStatus,fun starting => serverStatus.trans (waiting.starting (addr ▸ starting))⟩
    unfold Display.resting at rests ⊢
    have status := wakeDisplay_status d
    grind

theorem checkUtmp_framed (w : World) : Framed F m (m.checkUtmp w) := .ite (fun _ => wakeDisplays_framed) fun _ => .refl

theorem checkTTYMode_framed (w : World) : Framed F m (m.checkTTYMode w) := by
  refine .ite (fun _ => .refl) fun _ => ?_
  unfold switchToTTY
  refine .ite (fun _ => ?_) fun _ => wakeDisplays_framed
  have begun : Framed F m { m with utmpList := true } := .of_same rfl rfl rfl
  exact begun.trans (checkUtmp_framed w)

theorem Holds.of_quiet {d d' : Display} (addr : d'.addr = d.addr) (status : d'.status = d.status)
    (zstatus : d'.zstatus = d.zstatus) (serverPid : d'.serverPid = d.serverPid) (follower : d'.follower = d.follower)
    (serverStatus : d'.serverStatus = .awaiting → d.serverStatus = .awaiting) (holds : Holds m d') : Holds m d := by
  unfold Holds at holds ⊢
  rw [addr,status,zstatus,serverPid,follower] at holds
  tauto

theorem abortStartServer_framed (a : Nat) : Framed F m (m.abortStartServer a) := by
  unfold abortStartServer
  refine .ite (fun _ => .on fun d _ _ => .ite (fun _ => ?_) fun _ => .withServer_none) fun _ => .refl
  have quiet : Framed F m (m.set a fun d => { d with serverStatus := .ignore }) := by
    refine .set (fun _ => rfl) (fun d _ _ => ⟨rfl,rfl,?_⟩) fun d _ _ _ waiting => ?_
    · exact Holds.of_quiet rfl rfl rfl rfl rfl fun awaiting => nomatch awaiting
    · exact ⟨waiting.serverVT,waiting.resting,waiting.pid,fun awaiting => (nomatch awaiting),fun _ => rfl⟩
  exact quiet.trans .withServer_none

/-- The display that is stopped is not one of `F`, or it goes to text mode and has no server. -/
theorem settle_framed (unique : Unique m) {w : World} {endState : EndState} {schedule : Bool}
    (spare : F a → endState = .DS_TEXTMODE ∧ ∀ d ∈ m.displays, d.addr = a → d.serverPid = none ∧ d.pid = none)
    (remote : endState = .DS_REMOTE → ∀ d ∈ m.displays, d.addr = a → d.status ≠ .zombie ∨ d.zstatus = .DS_REMOTE) :
    Framed F m (m.settle w a endState schedule) := by
  refine .on fun d inside here => .ite (fun left => ?_) fun idle => ?_
  · refine .set (fun _ => rfl) (fun e among there => ⟨rfl,rfl,fun holds => ?_⟩) fun e among there followed _ => ?_
    · rcases holds with alive | ends | bereft | other
      · exact absurd rfl alive
      · rcases remote ends e among there with alive | already
        · exact .inl alive
        · exact .inr (.inl already)
      · exact .inr (.inr (.inl bereft))
      · exact .inr (.inr (.inr other))
    · obtain ⟨serverPid,pid⟩ := (spare followed).2 d inside here
      simp [serverPid,pid] at left
  · obtain ⟨server,pid⟩ := not_or.mp idle
    have bereft : d.serverPid = none := not_not.mp server
    have holds (e : Display) (among : e ∈ m.displays) (there : e.addr = a) : Holds m e := by
      rw [unique.same inside among (there.trans here.symm)]
      exact .inr (.inr (.inl bereft))
    have rest (x : DisplayStatus) (rests : x = .textMode ∨ ¬F a) : Framed F m (m.set a fun d => { d with status := x }) := by
      refine .set (fun _ => rfl) (fun e among there => ⟨rfl,rfl,fun _ => holds e among there⟩)
        fun e among there followed waiting => ?_
      rcases rests with rfl | other
      · exact ⟨waiting.serverVT,.inr (.inl rfl),waiting.pid,waiting.serverStatus,waiting.starting⟩
      · exact absurd followed other
    cases endState with
    | DS_TEXTMODE =>
      have text := rest .textMode (.inl rfl)
      exact .ite (fun _ => text) fun _ => text.trans (checkTTYMode_framed w)
    | DS_RESERVE => exact rest .reserve (.inr fun followed => nomatch (spare followed).1)
    | DS_REMOTE =>
      refine .set (fun _ => rfl) (fun e among there => ⟨rfl,rfl,fun _ => holds e among there⟩) fun _ _ _ followed => ?_
      exact nomatch (spare followed).1
    | DS_RESTART => exact .removeDisplay fun followed => nomatch (spare followed).1
    | DS_REMOVE => exact .removeDisplay fun followed => nomatch (spare followed).1

theorem abortStartServer_displays (a : Nat) {d' : Display} (inside : d' ∈ (m.abortStartServer a).displays) :
    ∃ d ∈ m.displays, d' = d ∨ d' = { d with serverStatus := .ignore } := by
  unfold abortStartServer at inside
  split at inside
  · unfold Manager.on Manager.find at inside
    cases found : m.displays.find? (·.addr = a) with
    | none =>
      rw [found] at inside
      exact ⟨d',inside,.inl rfl⟩
    | some d =>
      rw [found] at inside
      simp only [Option.map_some,Option.getD_some] at inside
      split at inside
      · obtain ⟨e,among,rfl⟩ := mem_map.mp inside
        refine ⟨e,among,?_⟩
        by_cases here : e.addr = a
        · rw [if_pos here]
          exact .inr rfl
        · rw [if_neg here]
          exact .inl rfl
      · exact ⟨d',inside,.inl rfl⟩
  · exact ⟨d',inside,.inl rfl⟩

theorem rStopDisplay_framed (unique : Unique m) {w : World} {endState : EndState} {schedule : Bool}
    (spare : F a → endState = .DS_TEXTMODE ∧ ∀ d ∈ m.displays, d.addr = a → d.serverPid = none ∧ d.pid = none)
    (remote : endState = .DS_REMOTE → ∀ d ∈ m.displays, d.addr = a → d.status ≠ .zombie ∨ d.zstatus = .DS_REMOTE) :
    Framed F m (m.rStopDisplay w a endState schedule) := by
  have aborted : Framed F m (m.abortStartServer a) := abortStartServer_framed a
  refine aborted.trans (settle_framed (aborted.unique unique) (fun followed => ⟨(spare followed).1,?_⟩) fun ends => ?_)
  · intro d' inside here
    obtain ⟨d,among,rfl | rfl⟩ := abortStartServer_displays a inside
    · exact (spare followed).2 d' among here
    · exact (spare followed).2 d among here
  · intro d' inside here
    obtain ⟨d,among,rfl | rfl⟩ := abortStartServer_displays a inside
    · exact remote ends d' among here
    · exact remote ends d among here

theorem stopDisplay_framed (unique : Unique m) {w : World} (spare : ¬F a) : Framed F m (m.stopDisplay w a) :=
  rStopDisplay_framed unique (fun followed => absurd followed spare) fun ends => nomatch ends

theorem stopToTTY_framed (unique : Unique m) {w : World}
    (spare : F a → ∀ d ∈ m.displays, d.addr = a → d.displayType.dLocal → d.status = .notRunning →
      d.serverPid = none) (waits : F a → ∀ d ∈ m.displays, d.addr = a → Waits m d) :
    Framed F m (m.stopToTTY w a) := by
  refine .on fun d inside here => .ite (fun stopped => ?_) fun _ => .refl
  refine rStopDisplay_framed unique (fun followed => ⟨rfl,fun e among there => ?_⟩) fun ends => nomatch ends
  obtain rfl := unique.same inside among (there.trans here.symm)
  have waiting := waits followed e inside here
  refine ⟨spare followed e inside here stopped.1 ?_,waiting.pid⟩
  exact waiting.resting.resolve_right fun rests => rests.elim stopped.2.2 stopped.2.1

theorem stopInactiveDisplay_framed (unique : Unique m) {w : World}
    (spare : F a → ∀ d ∈ m.displays, d.addr = a → d.status ≠ .remoteLogin → d.userSess ≠ none) :
    Framed F m (m.stopInactiveDisplay w a) :=
  .on fun d inside here => .ite (fun inactive => stopDisplay_framed unique fun followed =>
    spare followed d inside here inactive.1 inactive.2) fun _ => .refl

section
variable {a : Nat} (spare : ¬F a)
include spare

theorem Framed.set_spare {f : Display → Display} (addr : ∀ d, (f d).addr = d.addr)
    (kept : ∀ d ∈ m.displays, d.addr = a →
      (f d).serverVT = d.serverVT ∧ (f d).follower = d.follower ∧ (Holds m (f d) → Holds m d)) :
    Framed F m (m.set a f) :=
  .set addr kept fun _ _ _ followed => absurd followed spare

theorem quieted_framed {x : ServerStatus} (other : x ≠ .awaiting) :
    Framed F m (m.set a fun d => { d with serverStatus := x }) :=
  .set_spare spare (fun _ => rfl) fun _ _ _ =>
    ⟨rfl,rfl,Holds.of_quiet rfl rfl rfl rfl rfl fun awaiting => absurd awaiting other⟩

theorem startServerFailed_framed (unique : Unique m) (w : World) : Framed F m (m.startServerFailed w a) := by
  refine .on fun d inside here => .ite (fun _ => ?_) fun _ => ?_
  · exact (quieted_framed spare (by decide)).trans .withServer_same
  · have quiet : Framed F m (m.set a fun d => { d with serverStatus := .ignore }) := quieted_framed spare (by decide)
    have left := quiet.trans (Framed.withServer_none (t := none))
    exact left.trans (stopDisplay_framed (left.unique unique) spare)

theorem startServerOnce_framed (unique : Unique m) (starting : m.startingServer = some a) (w : World) :
    Framed F m (m.startServerOnce w a) := by
  refine .on fun d inside here => ?_
  have begun : Framed F m (m.set a fun d =>
      { d with startTries := d.startTries+1, serverStatus := .starting, serverPid := w.forkServer a }) := by
    refine .set_spare spare (fun _ => rfl) fun d _ there => ⟨rfl,rfl,fun _ => ?_⟩
    exact .inr (.inr (.inr (.inr (.inr (there ▸ starting)))))
  refine .ite (fun _ => begun.trans (startServerFailed_framed spare (begun.unique unique) w)) fun _ => ?_
  exact begun.trans .withServer_same

theorem startServer_framed (unique : Unique m) (awaiting : ∀ d ∈ m.displays, d.addr = a → d.serverStatus = .awaiting)
    (w : World) : Framed F m (m.startServer w a) := by
  have counted : Framed F m (m.set a fun d => { d with startTries := 0 }) :=
    .set_spare spare (fun _ => rfl) fun d _ _ => ⟨rfl,rfl,Holds.of_quiet rfl rfl rfl rfl rfl id⟩
  have chosen : Framed F (m.set a fun d => { d with startTries := 0 })
      ((m.set a fun d => { d with startTries := 0 }).withServer (some a) m.serverTimeout) := by
    refine .withServer fun b starts => .inr ?_
    cases starts
    refine ⟨spare,fun e among here => ?_⟩
    obtain ⟨d,inside,rfl⟩ := mem_map.mp among
    by_cases there : d.addr = a
    · simp only [if_pos there] at here ⊢
      exact .inr (.inr (.inr (.inr (.inl (awaiting d inside there)))))
    · rw [if_neg there] at here
      exact absurd here there
  have both := counted.trans chosen
  exact both.trans (startServerOnce_framed spare (both.unique unique) rfl w)

theorem startDisplayP2_framed (holds : ∀ d ∈ m.displays, d.addr = a → Holds m d) (w : World) :
    Framed F m (m.startDisplayP2 w a) :=
  .set_spare spare (fun _ => rfl) fun d inside here => ⟨rfl,rfl,fun _ => holds d inside here⟩

theorem startServerSuccess_framed (starting : m.startingServer = some a) (w : World) :
    Framed F m (m.startServerSuccess w a) := by
  have up : Framed F m (m.set a fun d => { d with serverStatus := .ignore }) := quieted_framed spare (by decide)
  refine (up.trans .withServer_same).trans (startDisplayP2_framed spare (fun d _ here => ?_) w)
  exact .inr (.inr (.inr (.inr (.inr (here ▸ starting)))))

theorem startServerTimeout_framed (unique : Unique m) (starting : m.startingServer = some a) (w : World) :
    Framed F m (m.startServerTimeout w a) := by
  refine .on fun d inside here => ?_
  cases d.serverStatus with
  | ignore => exact .refl
  | awaiting => exact .refl
  | starting => exact (quieted_framed spare (by decide)).trans .withServer_same
  | terminated => exact (quieted_framed spare (by decide)).trans .withServer_same
  | killed => exact startServerFailed_framed spare unique w
  | pausing => exact startServerOnce_framed spare unique starting w

end

/-- Each display of `F` is there and waits. -/
def Awaited (F : Nat → Prop) (m : Manager) : Prop := ∀ a, F a → ∃ d ∈ m.displays, d.addr = a ∧ Waits m d

theorem Awaited.known (awaited : Awaited F m) (unique : Unique m) {d : Display} (inside : d ∈ m.displays)
    (followed : F d.addr) : Waits m d := by
  obtain ⟨e,among,addr,waiting⟩ := awaited _ followed
  rwa [unique.same inside among addr] at waiting

theorem Framed.awaited (framed : Framed F m m') (awaited : Awaited F m) : Awaited F m' := by
  intro a followed
  obtain ⟨d,inside,rfl,waiting⟩ := awaited a followed
  exact framed.waits d inside followed waiting

variable {a : Nat}

theorem startDisplay_framed (unique : Unique m) (awaited : Awaited F m) (going : m.stopping = false)
    (was : ∀ d ∈ m.displays, d.addr = a → d.status = .notRunning) (w : World) : Framed F m (m.startDisplay w a) := by
  refine .on fun d inside here => .ite (fun stopping => ?_) fun _ => .ite (fun _ => .refl) fun terminal => ?_
  · simp [going] at stopping
  have spare : ¬F a := by
    intro followed
    have vt := (awaited.known unique inside (here ▸ followed)).serverVT
    omega
  have alive (e : Display) (among : e ∈ m.displays) (there : e.addr = a) : Holds m e :=
    .inl (by simp [was e among there])
  refine .ite (fun _ => ?_) fun _ => ?_
  · exact .set_spare spare (fun _ => rfl) fun e among there => ⟨rfl,rfl,fun _ => alive e among there⟩
  · have running : Framed F m (m.set a fun d => { d with status := .running }) :=
      .set_spare spare (fun _ => rfl) fun e among there => ⟨rfl,rfl,fun _ => alive e among there⟩
    refine running.trans (startDisplayP2_framed spare (fun e among there => ?_) w)
    obtain ⟨e',_,rfl⟩ := mem_map.mp among
    by_cases at_a : e'.addr = a
    · rw [if_pos at_a]
      exact .inl (by simp)
    · rw [if_neg at_a] at there
      exact absurd there at_a

theorem kickDisplay_framed (unique : Unique m) (awaited : Awaited F m) (going : m.stopping = false)
    (w : World) : Framed F m (m.kickDisplay w a) := by
  have started : Framed F m (m.on a fun d => if d.status = .notRunning then m.startDisplay w a else m) := by
    refine .on fun d inside here => .ite (fun was => ?_) fun _ => .refl
    refine startDisplay_framed unique awaited going (fun e among there => ?_) w
    rw [unique.same inside among (there.trans here.symm)]
    exact was
  refine started.trans (.on fun d inside here => .ite (fun awaits => ?_) fun _ => .refl)
  have unique' := started.unique unique
  have spare : ¬F a := fun followed =>
    ((started.awaited awaited).known unique' inside (here ▸ followed)).serverStatus awaits.1
  refine startServer_framed spare unique' (fun e among there => ?_) w
  rw [unique'.same inside among (there.trans here.symm)]
  exact awaits.1

theorem checkDisplayStatus_framed (unique : Unique m) (w : World)
    (spare : F a → ∀ d ∈ m.displays, d.addr = a → ¬(d.displayType.origin = .dFromFile ∧ ¬d.stillThere) ∧
      (d.status = .notRunning → w.loadDisplayResources d ≠ none)) : Framed F m (m.checkDisplayStatus w a) := by
  refine .on fun d inside here => .ite (fun gone => ?_) fun _ => .ite (fun was => ?_) fun _ => .refl
  · exact stopDisplay_framed unique fun followed => (spare followed d inside here).1 gone
  · cases loaded : w.loadDisplayResources d with
    | none => exact stopDisplay_framed unique fun followed => (spare followed d inside here).2 was loaded
    | some config =>
      refine .set (fun _ => rfl) (fun e _ _ => ⟨rfl,rfl,Holds.of_quiet rfl rfl rfl rfl rfl id⟩) ?_
      exact fun e _ _ _ waiting =>
        ⟨waiting.serverVT,waiting.resting,waiting.pid,waiting.serverStatus,waiting.starting⟩

theorem restart_framed (spare : ¬F a) (alive : ∀ d ∈ m.displays, d.addr = a → d.status ≠ .zombie)
    (serverCmd : ServerCmd) : Framed F m (m.restart a serverCmd) :=
  .set_spare spare (fun _ => rfl) fun d inside here => ⟨rfl,rfl,fun _ => .inl (alive d inside here)⟩

theorem mem_changed (unique : Unique m) {f : Display → Display} {d e : Display} (inside : d ∈ m.displays)
    (here : d.addr = a) (among : e ∈ (m.set a f).displays) (there : e.addr = a) : e = f d := by
  obtain ⟨e',within,rfl⟩ := mem_map.mp among
  by_cases at_a : e'.addr = a
  · rw [if_pos at_a,unique.same inside within (at_a.trans here.symm)]
  · rw [if_neg at_a] at there
    exact absurd there at_a

theorem exitDisplay_framed (unique : Unique m) (spare : ¬F a) (w : World) (endState : EndState)
    (serverCmd : ServerCmd) : Framed F m (m.exitDisplay w a endState serverCmd) := by
  refine .on fun d inside here => ?_
  have alone : Framed F m (m.set a fun d => { d with userSess := none }) :=
    .set_spare spare (fun _ => rfl) fun d _ _ => ⟨rfl,rfl,Holds.of_quiet rfl rfl rfl rfl rfl id⟩
  have unique' := alone.unique unique
  have now (e : Display) (among : e ∈ (m.set a fun d => { d with userSess := none }).displays) (there : e.addr = a) :
      e = { d with userSess := none } := mem_changed (d := d) unique inside here among there
  dsimp only
  generalize (if m.sdRec.how ≠ .none ∧ m.sdRec.start = TO_INF then EndState.DS_REMOVE else endState) = endState
  generalize (if d.status = .raiser then ServerCmd.XS_KEEP else serverCmd) = serverCmd
  refine alone.trans (.ite (fun dying => ?_) fun alive => .ite (fun _ => stopDisplay_framed unique' spare) fun _ =>
    .ite (fun _ => ?_) fun _ => ?_)
  · refine rStopDisplay_framed unique' (fun followed => absurd followed spare) fun ends e among there => .inr ?_
    rw [now e among there]
    exact ends
  · refine rStopDisplay_framed unique' (fun followed => absurd followed spare) fun _ e among there => .inl ?_
    rw [now e among there]
    exact alive
  · have restarts : Framed F (m.set a fun d => { d with userSess := none })
        ((m.set a fun d => { d with userSess := none }).restart a serverCmd) := by
      refine restart_framed spare (fun e among there => ?_) serverCmd
      rw [now e among there]
      exact alive
    refine .ite (fun _ => .ite (fun _ => stopDisplay_framed unique' spare) fun _ => restarts) fun _ =>
      .ite (fun _ => ?_) fun _ => restarts
    have counted : Framed F (m.set a fun d => { d with userSess := none })
        ((m.set a fun d => { d with userSess := none }).set a fun d => { d with startTries := d.startTries+1 }) :=
      .set_spare spare (fun _ => rfl) fun d _ _ => ⟨rfl,rfl,Holds.of_quiet rfl rfl rfl rfl rfl id⟩
    refine counted.trans (.ite (fun _ => stopDisplay_framed (counted.unique unique') spare) fun _ => ?_)
    refine restart_framed spare (fun e among there => ?_) serverCmd
    obtain ⟨e',within,rfl⟩ := mem_map.mp among
    by_cases at_a : e'.addr = a
    · rw [if_pos at_a,now e' within at_a]
      exact alive
    · rw [if_neg at_a] at there
      exact absurd there at_a

theorem sessionExit_framed (unique : Unique m) (spare : ¬F a) (w : World) (code : ExitCode) :
    Framed F m (m.sessionExit w a code) := by
  refine .on fun d _ _ => ?_
  have ended : Framed F m (m.set a fun d => { d with pid := none }) :=
    .set_spare spare (fun _ => rfl) fun d _ _ => ⟨rfl,rfl,Holds.of_quiet rfl rfl rfl rfl rfl id⟩
  exact ended.trans (exitDisplay_framed (ended.unique unique) spare w _ _)

theorem serverExit_framed (unique : Unique m) (awaited : Awaited F m) {d : Display} (inside : d ∈ m.displays)
    (alive : d.status ≠ .zombie) (w : World) : Framed F m (m.serverExit w d.addr) := by
  have bereft : Framed F m (m.set d.addr fun d => { d with serverPid := none }) := by
    refine .set (fun _ => rfl) (fun e among there => ⟨rfl,rfl,fun _ => .inl ?_⟩) fun e _ _ _ waiting => ?_
    · rw [unique.same inside among there]
      exact alive
    · exact ⟨waiting.serverVT,waiting.resting,waiting.pid,waiting.serverStatus,waiting.starting⟩
  have rises (x : DisplayStatus) (spare : ¬F d.addr) :
      Framed F m ((m.set d.addr fun d => { d with serverPid := none }).set d.addr fun d => { d with status := x }) := by
    refine bereft.trans (.set_spare spare (fun _ => rfl) fun e among there => ⟨rfl,rfl,fun _ => .inl ?_⟩)
    have now : e = { d with serverPid := none } := mem_changed (d := d) unique inside rfl among there
    rw [now]
    exact alive
  refine .on fun e among there => ?_
  obtain rfl := unique.same inside among there
  have rests (followed : F e.addr) : e.resting := (awaited.known unique inside followed).resting
  unfold Display.resting at rests
  dsimp only
  cases status : e.status with
  | zombie => exact absurd status alive
  | phoenix => exact rises .notRunning fun followed => by simp [status] at rests; exact rests followed
  | remoteLogin =>
    refine bereft.trans (.set_spare (fun followed => by simp [status] at rests; exact rests followed) (fun _ => rfl)
      fun e' among' there' => ⟨rfl,rfl,fun _ => .inl ?_⟩)
    have now : e' = { e with serverPid := none } := mem_changed (d := e) unique inside rfl among' there'
    rw [now]
    exact alive
  | running =>
    have spare : ¬F e.addr := fun followed => by simp [status] at rests; exact rests followed
    exact bereft.trans (.ite (fun _ => startServerFailed_framed spare (bereft.unique unique) w) fun _ => .refl)
  | raiser => exact bereft
  | notRunning => exact bereft
  | textMode => exact bereft
  | reserve => exact bereft

theorem newDisplay_framed (name : String) : Framed F m (m.newDisplay name) := by
  refine ⟨fun unique => ?_,?_,?_,rfl⟩
  · refine nodup_cons.mpr ⟨fun used => ?_,unique⟩
    obtain ⟨e,among,same⟩ := mem_map.mp used
    exact fresh_unused m e among same
  · intro d inside
    rcases mem_cons.mp inside with rfl | before
    · exact .inr ⟨rfl,rfl⟩
    · exact .inl ⟨d,before,rfl,rfl,rfl,fun _ => id⟩
  · intro d inside _ waiting
    exact ⟨d,mem_cons_of_mem _ inside,rfl,waiting.of_starting rfl⟩

theorem listed_framed (a : Nat) (lifetime : Lifetime) (name : String) :
    Framed F m (m.set a (listed lifetime name)) := by
  refine .set (fun _ => rfl) (fun d _ _ => ⟨rfl,rfl,fun holds => ?_⟩) fun d _ _ _ waiting => ?_
  · have status : (listed lifetime name d).status = .zombie → d.status = .zombie := by
      unfold listed
      grind
    rcases holds with alive | other
    · by_cases zombie : d.status = .zombie
      · refine absurd ?_ alive
        unfold listed
        simp [zombie]
      · exact .inl zombie
    · exact .inr other
  · have rests := waiting.resting
    refine ⟨waiting.serverVT,?_,waiting.pid,waiting.serverStatus,waiting.starting⟩
    unfold Display.resting at rests ⊢
    unfold listed
    grind

theorem addServer_framed (lifetime : Lifetime) (name : String) : Framed F m (m.addServer lifetime name) := by
  unfold addServer
  cases m.findDisplayByName name with
  | none => exact (newDisplay_framed name).trans (listed_framed m.fresh lifetime name)
  | some d => exact listed_framed d.addr lifetime name

theorem scanServers_framed (staticServers reserveServers : List String) :
    Framed F m (m.scanServers staticServers reserveServers) := by
  have fold (lifetime : Lifetime) (names : List String) (m : Manager) :
      Framed F m (names.foldl (addServer lifetime) m) := by
    induction names generalizing m with
    | nil => exact .refl
    | cons name names ih => exact (addServer_framed lifetime name).trans (ih _)
  exact (fold _ staticServers m).trans (fold _ reserveServers _)

theorem markDisplays_framed : Framed F m m.markDisplays := by
  unfold markDisplays forEachDisplay
  generalize m.displays.map (·.addr) = addrs
  induction addrs generalizing m with
  | nil => exact .refl
  | cons a addrs ih =>
    refine Framed.trans ?_ ih
    refine .set (fun _ => rfl) (fun d _ _ => ⟨rfl,rfl,Holds.of_quiet rfl rfl rfl rfl rfl id⟩) fun d _ _ _ waiting => ?_
    exact ⟨waiting.serverVT,waiting.resting,waiting.pid,waiting.serverStatus,waiting.starting⟩

theorem rouse_framed (unique : Unique m) (awaited : Awaited F m) {d : Display} (inside : d ∈ m.displays)
    {x : DisplayStatus} (rouse : d.status = .running ∧ x = .raiser ∨ d.status = .reserve ∧ x = .notRunning) :
    Framed F m (m.set d.addr fun d => { d with status := x }) := by
  refine .set (fun _ => rfl) (fun e among there => ⟨rfl,rfl,fun _ => .inl ?_⟩) fun e among there followed waiting => ?_
  · rw [unique.same inside among there]
    grind
  · have rests := (awaited.known unique inside followed).resting
    refine ⟨waiting.serverVT,?_,waiting.pid,waiting.serverStatus,waiting.starting⟩
    unfold Display.resting at rests ⊢
    grind

theorem suicide_framed (unique : Unique m) (awaited : Awaited F m) (a : Nat) : Framed F m (m.suicide a) := by
  refine .on fun d inside here => .ite (fun runs => ?_) fun _ => .refl
  subst here
  exact rouse_framed unique awaited inside (.inl ⟨runs.1,rfl⟩)

theorem login_framed (unique : Unique m) (awaited : Awaited F m) (a : Nat) (nuke : Bool) :
    Framed F m (m.login a nuke) := by
  refine .on fun d inside here => ?_
  subst here
  refine .ite (fun runs => ?_) fun _ => .ite (fun rests => ?_) fun _ => .refl
  · exact rouse_framed unique awaited inside (.inl ⟨runs.1,rfl⟩)
  · exact rouse_framed unique awaited inside (.inr ⟨rests,rfl⟩)

theorem startReserveDisplay_framed (unique : Unique m) (awaited : Awaited F m) : Framed F m m.startReserveDisplay := by
  unfold startReserveDisplay
  split
  · rename_i rd last
    obtain ⟨inside,reserve⟩ := mem_filter.mp (mem_of_getLast? last)
    exact rouse_framed unique awaited inside (.inr ⟨by simpa using reserve,rfl⟩)
  · exact .refl

/-- Only the display at an address has changed. -/
def Elsewhere (a : Nat) (m m' : Manager) : Prop := ∀ e ∈ m'.displays, e.addr ≠ a → e ∈ m.displays

theorem Elsewhere.set {f : Display → Display} (addr : ∀ d, (f d).addr = d.addr) : Elsewhere a m (m.set a f) := by
  intro e among other
  obtain ⟨d,inside,rfl⟩ := mem_map.mp among
  by_cases here : d.addr = a
  · rw [if_pos here] at other
    exact absurd ((addr d).trans here) other
  · rw [if_neg here]
    exact inside

theorem Elsewhere.on {a b : Nat} {f : Display → Manager} (each : ∀ d, Elsewhere a m (f d)) :
    Elsewhere a m (m.on b f) := by
  unfold Manager.on
  cases m.find b with
  | none => exact fun e among _ => among
  | some d => exact each d

theorem Elsewhere.trans (first : Elsewhere a m m') (second : Elsewhere a m' m'') : Elsewhere a m m'' :=
  fun e among other => first e (second e among other) other

theorem abortStartServer_elsewhere (a : Nat) : Elsewhere a m (m.abortStartServer a) := by
  unfold abortStartServer
  split
  · refine .on fun d => ?_
    split
    · exact Elsewhere.set fun _ => rfl
    · exact fun e among _ => among
  · exact fun e among _ => among

theorem rStopDisplay_elsewhere (w : World) (a : Nat) {endState : EndState} {schedule : Bool}
    (late : endState = .DS_TEXTMODE → schedule = true) : Elsewhere a m (m.rStopDisplay w a endState schedule) := by
  refine (abortStartServer_elsewhere a).trans (.on fun d => ?_)
  split
  · exact .set fun _ => rfl
  · cases endState with
    | DS_TEXTMODE =>
      simp only [late rfl,if_true]
      exact .set fun _ => rfl
    | DS_RESERVE => exact .set fun _ => rfl
    | DS_REMOTE => exact .set fun _ => rfl
    | DS_RESTART => exact fun e among _ => mem_of_mem_filter among
    | DS_REMOVE => exact fun e among _ => mem_of_mem_filter among

theorem stopDisplay_elsewhere (w : World) (a : Nat) : Elsewhere a m (m.stopDisplay w a) :=
  rStopDisplay_elsewhere w a fun ends => nomatch ends

theorem stopToTTY_elsewhere (w : World) (a : Nat) : Elsewhere a m (m.stopToTTY w a) := by
  refine .on fun d => ?_
  split
  · exact rStopDisplay_elsewhere w a fun _ => rfl
  · exact fun e among _ => among

theorem stopInactiveDisplay_elsewhere (w : World) (a : Nat) : Elsewhere a m (m.stopInactiveDisplay w a) := by
  refine .on fun d => ?_
  split
  · exact stopDisplay_elsewhere w a
  · exact fun e among _ => among

theorem checkDisplayStatus_elsewhere (w : World) (a : Nat) : Elsewhere a m (m.checkDisplayStatus w a) := by
  refine .on fun d => ?_
  split
  · exact stopDisplay_elsewhere w a
  · split
    · cases w.loadDisplayResources d with
      | none => exact stopDisplay_elsewhere w a
      | some config => exact .set fun _ => rfl
    · exact fun e among _ => among

end KdeWorkspace.DisplayCycle
