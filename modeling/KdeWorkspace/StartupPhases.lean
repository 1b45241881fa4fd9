import KdeWorkspace.SessionSteps

/-!
The phases of the startup, with its suspensions.

The states that have been entered are the first of the phases, up to the present one. The timer of a suspension
runs only while some application suspends the startup; where the end of a phase has come and the phase stays,
it runs, and with it, or with the last application to resume, the next phase is entered.
-/
namespace KdeWorkspace.SessionServer

open State

def phases : List State := [LaunchingWM,AutoStart0,KcmInitPhase1,AutoStart1,Restoring,FinishingStartup,Idle]

/-- How many phases have been entered with this one. -/
def rank : State → Nat
  | LaunchingWM => 1
  | AutoStart0 => 2
  | KcmInitPhase1 => 3
  | AutoStart1 => 4
  | Restoring => 5
  | FinishingStartup => 6
  | Idle => 7
  | _ => 0

/-- The phases whose end a suspension puts off. -/
def suspends : State → Bool
  | LaunchingWM | AutoStart0 | AutoStart1 | Restoring => true
  | _ => false

/-- The events of a startup: no request, but all that the processes, the applications, the clients and the timers do. -/
def Event.ofStartup : Event → Bool
  | .wmProcessChange _ | .autoStartDone _ | .kcmPhase1Done | .kcmPhase2Done => true
  | .suspendStartup _ | .resumeStartup _ => true
  | .newClient | .registerClient _ _ _ | .setProperty _ _ | .deleteProperty _ _ => true
  | .saveYourselfDone _ | .deleteClient _ => true
  | .shot _ | .protectionTimeout | .restoreTimeout | .startupSuspendTimeout => true
  | _ => false

namespace Server

/-- The event with which a phase could end: the window manager registers, or the time for it is up, or the launcher
has started its applications. -/
def completes (s : Server) : Event → Bool
  | .shot .autoStart0 => s.state = LaunchingWM && .autoStart0 ∈ s.shots
  | .setProperty conn (.Program program) => s.state = LaunchingWM && (s.find conn).isSome && program = s.wm
  | .autoStartDone 0 => s.state = AutoStart0 && 0 ∈ s.klauncherSignals
  | .autoStartDone 1 => s.state = AutoStart1 && 1 ∈ s.klauncherSignals
  | _ => false

/-- Whether the present phase could have ended. -/
def runSeen : Server → Bool → List (Env × Event) → Bool
  | _, seen, [] => seen
  | s, seen, (env,event) :: events =>
    runSeen (s.step env event) ((s.step env event).state = s.state && (seen || s.completes event)) events

/-- What the startup is about. -/
def launch (s : Server) := (s.state,s.entered,s.startupSuspendCount,s.startupSuspendTimeoutTimer,s.restoreTimer)

/-- What an event that has nothing to do with the startup leaves. -/
def course (s : Server) := (s.launch,s.config,s.sessionGroup,s.wm,s.started,s.lastAppStarted,s.appsToStart)

/-- The phases have been entered in order, and the timer runs only for a suspension. -/
structure Ordered (s : Server) : Prop where
  phase : 0 < rank s.state
  order : s.entered = phases.take (rank s.state)
  timed : s.startupSuspendTimeoutTimer → s.startupSuspendCount ≠ [] ∧ suspends s.state

/-- While the session is restored a client is waited for, or all is started and the startup is suspended. -/
structure Phased (s : Server) : Prop extends Ordered s where
  restores : s.state = Restoring → s.restoreTimer ∨ s.startupSuspendTimeoutTimer

variable {s : Server}

variable {s' : Server}

theorem Ordered.of_launch (ordered : s.Ordered) (same : s'.launch = s.launch) : s'.Ordered := by
  simp only [launch,Prod.mk.injEq] at same
  obtain ⟨state,entered,counts,timer,_⟩ := same
  exact ⟨state ▸ ordered.phase,by rw [entered,state]; exact ordered.order,
    by rw [timer,counts,state]; exact ordered.timed⟩

theorem Phased.of_launch (phased : s.Phased) (same : s'.launch = s.launch) : s'.Phased := by
  refine ⟨phased.toOrdered.of_launch same,?_⟩
  simp only [launch,Prod.mk.injEq] at same
  obtain ⟨state,_,_,timer,restore⟩ := same
  rw [state,timer,restore]
  exact phased.restores

theorem phases_next {state next : State} (follows : rank next = rank state+1) :
    phases.take (rank state)++[next] = phases.take (rank next) := by
  cases state <;> cases next <;> simp [rank,phases] at *

theorem Ordered.enters (ordered : s.Ordered) (follows : rank s'.state = rank s.state+1)
    (entered : s'.entered = s.entered++[s'.state])
    (timer : s'.startupSuspendTimeoutTimer = false) : s'.Ordered :=
  ⟨follows ▸ Nat.succ_pos _,by rw [entered,ordered.order,phases_next follows],by simp [timer]⟩

theorem Ordered.phased (ordered : s'.Ordered) (apart : s'.state ≠ Restoring) : s'.Phased :=
  ⟨ordered,fun state => absurd state apart⟩

/-- One event of a startup: the phases go on, and the timer runs where a phase could have ended and stays. -/
def Passes (s s' : Server) (ended : Prop) : Prop :=
  s'.Phased ∧ (s'.state = s.state → s.state ≠ Restoring → s.startupSuspendTimeoutTimer ∨ ended →
    s'.startupSuspendTimeoutTimer)

theorem Passes.of_launch (phased : s.Phased) (same : s'.launch = s.launch) : s.Passes s' False := by
  refine ⟨phased.of_launch same,fun _ _ timer => ?_⟩
  simp only [launch,Prod.mk.injEq] at same
  rw [same.2.2.2.1]
  exact timer.resolve_right id

theorem Passes.weaken {ended other : Prop} (passes : s.Passes s' ended) (less : other → ended) :
    s.Passes s' other := ⟨passes.1,fun state apart timer => passes.2 state apart (timer.imp_right less)⟩

theorem Passes.refl (phased : s.Phased) : s.Passes s False := .of_launch phased rfl

theorem Passes.advanced {ended : Prop} (phased : s'.Phased) (next : s'.state ≠ s.state) : s.Passes s' ended :=
  ⟨phased,fun same => absurd same next⟩

theorem suspended_passes (ordered : s.Ordered) (suspended : s.startupSuspendCount ≠ [])
    (phase : suspends s.state) (state : s'.state = s.state) (entered : s'.entered = s.entered)
    (counts : s'.startupSuspendCount = s.startupSuspendCount) (timer : s'.startupSuspendTimeoutTimer) (ended : Prop) :
    s.Passes s' ended := by
  refine ⟨⟨⟨state ▸ ordered.phase,?_,fun _ => ⟨counts ▸ suspended,state ▸ phase⟩⟩,fun _ => Or.inr timer⟩,fun _ _ _ => timer⟩
  rw [entered,state]
  exact ordered.order

theorem Ordered.free (ordered : s.Ordered) (free : s.startupSuspendCount = []) :
    s.startupSuspendTimeoutTimer = false := by
  by_contra runs
  exact (ordered.timed (by simpa using runs)).1 free

theorem Ordered.untimed (ordered : s.Ordered) (other : suspends s.state = false) :
    s.startupSuspendTimeoutTimer = false := by
  by_contra runs
  have late := (ordered.timed (by simpa using runs)).2
  simp [other] at late

theorem autoStart0_passes (ordered : s.Ordered) (phase : s.state = LaunchingWM) (ended : Prop) :
    s.Passes s.autoStart0 ended ∧ (s.startupSuspendCount = [] → s.autoStart0.state ≠ s.state) := by
  unfold autoStart0 checkStartupSuspend
  by_cases free : s.startupSuspendCount = []
  · rw [if_neg (not_not.mpr phase),if_pos free]
    have next : (s.enter AutoStart0).Ordered := by
      refine ordered.enters ?_ rfl (ordered.free free)
      simp [enter,phase,rank]
    have apart : (s.enter AutoStart0).state ≠ s.state := by simp [enter,phase]
    exact ⟨.advanced (next.phased (by simp [enter])) apart,fun _ => apart⟩
  · rw [if_neg (not_not.mpr phase),if_neg free]
    refine ⟨suspended_passes ordered free (by simp [phase,suspends]) ?_ ?_ ?_ ?_ ended,fun none => absurd none free⟩ <;> rfl

theorem singleShot_launch (s : Server) (slot : Slot) : (s.singleShot slot).launch = s.launch := by
  unfold singleShot
  split <;> rfl

theorem autoStart0Done_passes (env : Env) (ordered : s.Ordered) (phase : s.state = AutoStart0) (ended : Prop) :
    s.Passes (s.autoStart0Done env) ended ∧ (s.startupSuspendCount = [] → (s.autoStart0Done env).state ≠ s.state) := by
  unfold autoStart0Done checkStartupSuspend
  by_cases free : s.startupSuspendCount = []
  · rw [if_neg (not_not.mpr phase),if_pos free]
    have next {t : Server} (state : t.state = KcmInitPhase1) (entered : t.entered = s.entered++[KcmInitPhase1])
        (timer : t.startupSuspendTimeoutTimer = s.startupSuspendTimeoutTimer) (slot : Slot) :
        s.Passes (t.singleShot slot) ended ∧ (t.singleShot slot).state ≠ s.state := by
      have same := t.singleShot_launch slot
      have kept : (t.singleShot slot).state = KcmInitPhase1 := by
        simp only [launch,Prod.mk.injEq] at same
        rw [same.1,state]
      have apart : (t.singleShot slot).state ≠ s.state := by simp [kept,phase]
      have advanced : t.Ordered := by
        exact ordered.enters (by simp [state,phase,rank]) (by rw [entered,state]) (timer.trans (ordered.free free))
      exact ⟨.advanced ((advanced.of_launch same).phased (by simp [kept])) apart,apart⟩
    dsimp only
    split
    · obtain ⟨passes,apart⟩ := next (t := { s.enter KcmInitPhase1 with
        klauncherSignals := s.klauncherSignals.filter (· ≠ 0), kcminitSignals := false }) rfl rfl rfl .kcmPhase1Done
      exact ⟨passes,fun _ => apart⟩
    · obtain ⟨passes,apart⟩ := next (t := { s.enter KcmInitPhase1 with
        klauncherSignals := s.klauncherSignals.filter (· ≠ 0), kcminitSignals := true
        kcmPhase1Connected := true }) rfl rfl rfl .kcmPhase1Timeout
      exact ⟨passes,fun _ => apart⟩
  · rw [if_neg (not_not.mpr phase),if_neg free]
    refine ⟨suspended_passes ordered free (by simp [phase,suspends]) ?_ ?_ ?_ ?_ ended,fun none => absurd none free⟩ <;> rfl

theorem autoStart2_passes (ordered : s.Ordered) (phase : s.state = Restoring) (ended : Prop) :
    s.Passes s.autoStart2 ended ∧ (s.startupSuspendCount = [] → s.autoStart2.state ≠ s.state) ∧
      (s.startupSuspendCount ≠ [] → s.autoStart2.startupSuspendTimeoutTimer) := by
  unfold autoStart2 checkStartupSuspend
  by_cases free : s.startupSuspendCount = []
  · rw [if_neg (not_not.mpr phase),if_pos free]
    have next {t : Server} (state : t.state = FinishingStartup) (entered : t.entered = s.entered++[FinishingStartup])
        (timer : t.startupSuspendTimeoutTimer = s.startupSuspendTimeoutTimer) (slot : Slot) :
        s.Passes (t.singleShot slot) ended ∧ (t.singleShot slot).state ≠ s.state := by
      have same := t.singleShot_launch slot
      have kept : (t.singleShot slot).state = FinishingStartup := by
        simp only [launch,Prod.mk.injEq] at same
        rw [same.1,state]
      have apart : (t.singleShot slot).state ≠ s.state := by simp [kept,phase]
      have advanced : t.Ordered := by
        exact ordered.enters (by simp [state,phase,rank]) (by rw [entered,state]) (timer.trans (ordered.free free))
      exact ⟨.advanced ((advanced.of_launch same).phased (by simp [kept])) apart,apart⟩
    dsimp only
    split
    · obtain ⟨passes,apart⟩ := next (t := { s.enter FinishingStartup with
        waitAutoStart2 := true, waitKcmInit2 := true, kcmPhase2Connected := true }) rfl rfl rfl .kcmPhase2Timeout
      exact ⟨passes,fun _ => apart,fun some => absurd free some⟩
    · obtain ⟨passes,apart⟩ := next (t := { s.enter FinishingStartup with
        waitAutoStart2 := true, waitKcmInit2 := true }) rfl rfl rfl .kcmPhase2Done
      exact ⟨passes,fun _ => apart,fun some => absurd free some⟩
  · rw [if_neg (not_not.mpr phase),if_neg free]
    refine ⟨suspended_passes ordered free (by simp [phase,suspends]) ?_ ?_ ?_ ?_ ended,fun none => absurd none free,
      fun _ => ?_⟩ <;> rfl

theorem tryRestoreNext_passes (ordered : s.Ordered) (phase : s.state = Restoring) (ended : Prop) :
    s.Passes s.tryRestoreNext ended := by
  rw [tryRestoreNext_eq (Or.inl phase)]
  obtain ⟨_,_,_,loop⟩ := s.stopTimers.restoreLoop_frame (s.appsToStart-s.lastAppStarted)
  generalize early : (s.stopTimers.restoreLoop (s.appsToStart-s.lastAppStarted)).2 = stops at loop
  rw [loop]
  have stopped (t : Server) (state : t.state = s.state) (entered : t.entered = s.entered)
      (timer : t.startupSuspendTimeoutTimer = false) : t.Ordered := by
    refine ⟨state ▸ ordered.phase,?_,by simp [timer]⟩
    rw [entered,state]
    exact ordered.order
  split
  · rename_i returns
    refine ⟨⟨stopped _ rfl rfl rfl,fun _ => Or.inl ?_⟩,fun _ apart => absurd phase apart⟩
    simp [returns]
  · unfold restored
    dsimp only
    rw [if_pos (by exact phase)]
    refine ⟨(autoStart2_passes ?_ ?_ ended).1.1,fun _ apart => absurd phase apart⟩
    · exact stopped _ rfl rfl rfl
    · exact phase

theorem autoStart2_later (phase : s.state = Restoring) : s.autoStart2.state ≠ AutoStart1 := by
  unfold autoStart2 checkStartupSuspend
  by_cases free : s.startupSuspendCount = []
  · rw [if_neg (not_not.mpr phase),if_pos free]
    have kept (t : Server) (slot : Slot) : (t.singleShot slot).state = t.state := by
      unfold singleShot
      split <;> rfl
    dsimp only
    split
    · simp [kept,enter]
    · simp [kept,enter]
  · rw [if_neg (not_not.mpr phase),if_neg free]
    simp [phase]

theorem tryRestoreNext_later (phase : s.state = Restoring) : s.tryRestoreNext.state ≠ AutoStart1 := by
  rw [tryRestoreNext_eq (Or.inl phase)]
  have state := s.stopTimers.restoreLoop_state (s.appsToStart-s.lastAppStarted)
  have restoring : s.stopTimers.state = Restoring := phase
  split
  · simp [state,restoring]
  · unfold restored
    dsimp only
    rw [if_pos (state.trans restoring)]
    exact autoStart2_later (state.trans restoring)

theorem autoStart1Done_passes (ordered : s.Ordered) (phase : s.state = AutoStart1) (ended : Prop) :
    s.Passes s.autoStart1Done ended ∧ (s.startupSuspendCount = [] → s.autoStart1Done.state ≠ s.state) := by
  unfold autoStart1Done checkStartupSuspend
  by_cases free : s.startupSuspendCount = []
  · rw [if_neg (not_not.mpr phase),if_pos free]
    dsimp only
    have entered {t : Server} (state : t.state = Restoring) (log : t.entered = s.entered++[Restoring])
        (timer : t.startupSuspendTimeoutTimer = s.startupSuspendTimeoutTimer) : t.Ordered := by
      exact ordered.enters (by simp [state,phase,rank]) (by rw [log,state]) (timer.trans (ordered.free free))
    have later {t : Server} (phased : t.Phased) (after : t.state ≠ AutoStart1) :
        s.Passes t ended ∧ (s.startupSuspendCount = [] → t.state ≠ s.state) :=
      ⟨.advanced phased (phase.symm ▸ after),fun _ => phase.symm ▸ after⟩
    split
    · refine later (autoStart2_passes (entered ?_ ?_ ?_) ?_ True).1.1 ?_
      · rfl
      · rfl
      · rfl
      · rfl
      · exact fun state => autoStart2_later rfl state
    · refine later (tryRestoreNext_passes (entered ?_ ?_ ?_) ?_ True).1 ?_
      · rfl
      · rfl
      · rfl
      · rfl
      · exact fun state => tryRestoreNext_later rfl state
  · rw [if_neg (not_not.mpr phase),if_neg free]
    refine ⟨suspended_passes ordered free (by simp [phase,suspends]) ?_ ?_ ?_ ?_ ended,fun none => absurd none free⟩ <;> rfl

theorem kcmPhase1Done_passes (phased : s.Phased) : s.Passes s.kcmPhase1Done False := by
  unfold kcmPhase1Done autoStart1
  by_cases phase : s.state = KcmInitPhase1
  · have next {t : Server} (state : t.state = AutoStart1) (log : t.entered = s.entered++[AutoStart1])
        (timer : t.startupSuspendTimeoutTimer = s.startupSuspendTimeoutTimer) : s.Passes t False := by
      have untimed := phased.toOrdered.untimed (by simp [phase,suspends])
      have ordered : t.Ordered :=
        phased.toOrdered.enters (by simp [state,phase,rank]) (by rw [log,state]) (timer.trans untimed)
      exact .advanced (ordered.phased (by simp [state])) (by simp [state,phase])
    rw [if_neg (not_not.mpr phase)]
    dsimp only
    by_cases signals : s.kcminitSignals
    · rw [if_pos signals,if_neg (not_not.mpr phase)]
      exact next rfl rfl rfl
    · rw [if_neg signals,if_neg (not_not.mpr phase)]
      exact next rfl rfl rfl
  · rw [if_pos phase]
    exact .refl phased

theorem finishStartup_passes {t : Server} (phased : s.Phased) (same : t.launch = s.launch) :
    s.Passes t.finishStartup False := by
  have kept := Passes.of_launch phased same
  unfold finishStartup
  split
  · exact kept
  · rename_i phase
    have finishing : t.state = FinishingStartup := not_not.mp phase
    split
    · exact kept
    · have before : s.state = FinishingStartup := by
        simp only [launch,Prod.mk.injEq] at same
        rw [← same.1]
        exact finishing
      have untimed := kept.1.toOrdered.untimed (by simp [finishing,suspends])
      have ordered : (t.enter Idle).Ordered := kept.1.toOrdered.enters (by simp [enter,finishing,rank]) rfl untimed
      exact .advanced (ordered.phased (by simp [enter])) (by simp [enter,before])

theorem autoStart2Done_passes (phased : s.Phased) : s.Passes s.autoStart2Done False := by
  unfold autoStart2Done
  split
  · exact .refl phased
  · exact finishStartup_passes phased rfl

theorem kcmPhase2Done_passes (phased : s.Phased) : s.Passes s.kcmPhase2Done False := by
  unfold kcmPhase2Done
  split
  · exact .refl phased
  · dsimp only
    split
    · exact finishStartup_passes phased rfl
    · exact finishStartup_passes phased rfl

theorem resumeStartupInternal_passes (env : Env) (ordered : s.Ordered) (stopped : s.startupSuspendTimeoutTimer = false) :
    (s.resumeStartupInternal env).Phased ∧ (suspends s.state → (s.resumeStartupInternal env).state ≠ s.state) := by
  have cleared : ({ s with startupSuspendCount := [] } : Server).Ordered := by
    refine ⟨ordered.phase,ordered.order,fun runs => ?_⟩
    rw [stopped] at runs
    cases runs
  unfold resumeStartupInternal
  dsimp only
  split
  · rename_i phase
    obtain ⟨passes,next⟩ := autoStart0_passes cleared phase True
    exact ⟨passes.1,fun _ => phase ▸ next rfl⟩
  · rename_i phase
    obtain ⟨passes,next⟩ := autoStart0Done_passes env cleared phase True
    exact ⟨passes.1,fun _ => phase ▸ next rfl⟩
  · rename_i phase
    obtain ⟨passes,next⟩ := autoStart1Done_passes cleared phase True
    exact ⟨passes.1,fun _ => phase ▸ next rfl⟩
  · rename_i phase
    obtain ⟨passes,next,_⟩ := autoStart2_passes cleared phase True
    exact ⟨passes.1,fun _ => phase ▸ next rfl⟩
  · rename_i notLaunching notAuto0 notAuto1 notRestoring
    refine ⟨cleared.phased notRestoring,fun late => ?_⟩
    cases state : s.state <;> simp_all [suspends]

theorem startupSuspendTimeout_passes (env : Env) (ordered : s.Ordered) (timer : s.startupSuspendTimeoutTimer) :
    s.Passes (s.step env .startupSuspendTimeout) True ∧ (s.step env .startupSuspendTimeout).state ≠ s.state := by
  have stopped : ({ s with startupSuspendTimeoutTimer := false } : Server).Ordered :=
    ⟨ordered.phase,ordered.order,fun runs => (by cases runs)⟩
  obtain ⟨phased,next⟩ := resumeStartupInternal_passes env stopped rfl
  have apart := next (ordered.timed timer).2
  simp only [step,timer,if_true,startupSuspendTimeout]
  exact ⟨.advanced phased apart,apart⟩

theorem resumeStartup_last (env : Env) (ordered : s.Ordered) (timer : s.startupSuspendTimeoutTimer) {app : String}
    (last : countOf app s.startupSuspendCount = some 1) (only : removeCount app s.startupSuspendCount = []) :
    s.Passes (s.resumeStartup env app) True ∧ (s.resumeStartup env app).state ≠ s.state := by
  have stopped : ({ s with startupSuspendCount := [], startupSuspendTimeoutTimer := false } : Server).Ordered :=
    ⟨ordered.phase,ordered.order,fun runs => (by cases runs)⟩
  obtain ⟨phased,next⟩ := resumeStartupInternal_passes env stopped rfl
  have apart := next (ordered.timed timer).2
  have state : s.resumeStartup env app =
      ({ s with startupSuspendCount := [], startupSuspendTimeoutTimer := false } : Server).resumeStartupInternal env := by
    simp [resumeStartup,last,only,timer]
  rw [state]
  exact ⟨.advanced phased apart,apart⟩

theorem Phased.counts (phased : s.Phased) (state : s'.state = s.state) (entered : s'.entered = s.entered)
    (timer : s'.startupSuspendTimeoutTimer = s.startupSuspendTimeoutTimer) (restore : s'.restoreTimer = s.restoreTimer)
    (left : s.startupSuspendTimeoutTimer → s'.startupSuspendCount ≠ []) : s.Passes s' False := by
  refine ⟨⟨⟨state ▸ phased.phase,?_,?_⟩,?_⟩,?_⟩
  · rw [entered,state]
    exact phased.order
  · rw [timer,state]
    exact fun runs => ⟨left runs,(phased.timed runs).2⟩
  · rw [state,timer,restore]
    exact phased.restores
  · intro _ _ runs
    rw [timer]
    exact runs.resolve_right id

theorem resumeStartup_passes (env : Env) (phased : s.Phased) (app : String) : s.Passes (s.resumeStartup env app) False := by
  cases found : countOf app s.startupSuspendCount with
  | none => simpa [resumeStartup,found] using Passes.refl phased
  | some n =>
    by_cases last : n-1 = 0
    · by_cases only : removeCount app s.startupSuspendCount = [] ∧ s.startupSuspendTimeoutTimer
      · have stopped : ({ s with startupSuspendCount := [], startupSuspendTimeoutTimer := false } : Server).Ordered :=
          ⟨phased.phase,phased.order,fun runs => (by cases runs)⟩
        obtain ⟨after,next⟩ := resumeStartupInternal_passes env stopped rfl
        have state : s.resumeStartup env app = ({ s with
            startupSuspendCount := [], startupSuspendTimeoutTimer := false } : Server).resumeStartupInternal env := by
          simp [resumeStartup,found,last,only.1,only.2]
        rw [state]
        exact .advanced after (next (phased.timed only.2).2)
      · have state : s.resumeStartup env app =
            { s with startupSuspendCount := removeCount app s.startupSuspendCount } := by
          simp only [resumeStartup,found,last,if_true]
          exact if_neg only
        rw [state]
        exact phased.counts rfl rfl rfl rfl fun runs none => only ⟨none,runs⟩
    · have state : s.resumeStartup env app =
          { s with startupSuspendCount := setCount app (n-1) s.startupSuspendCount } := by
        simp [resumeStartup,found,last]
      rw [state]
      exact phased.counts rfl rfl rfl rfl fun _ => by simp [setCount]

theorem suspendStartup_passes (phased : s.Phased) (app : String) : s.Passes (s.suspendStartup app) False :=
  phased.counts rfl rfl rfl rfl fun _ => by simp [suspendStartup,setCount]

theorem Passes.before {t s' : Server} {ended : Prop} (passes : t.Passes s' ended) (same : t.launch = s.launch) :
    s.Passes s' ended := by
  simp only [launch,Prod.mk.injEq] at same
  obtain ⟨state,_,_,timer,_⟩ := same
  refine ⟨passes.1,fun unmoved apart runs => passes.2 ?_ ?_ ?_⟩
  · rw [state,unmoved]
  · rwa [state]
  · rwa [timer]

theorem Passes.autoStart0 (phased : s.Phased) : s.Passes s.autoStart0 (s.state = LaunchingWM) := by
  by_cases phase : s.state = LaunchingWM
  · exact (autoStart0_passes phased.toOrdered phase _).1
  · have unmoved : s.autoStart0 = s := by simp [Server.autoStart0,phase]
    rw [unmoved]
    exact (Passes.refl phased).weaken fun state => phase state

theorem Passes.autoStart0Done (env : Env) (phased : s.Phased) : s.Passes (s.autoStart0Done env) (s.state = AutoStart0) := by
  by_cases phase : s.state = AutoStart0
  · exact (autoStart0Done_passes env phased.toOrdered phase _).1
  · have unmoved : s.autoStart0Done env = s := by simp [Server.autoStart0Done,phase]
    rw [unmoved]
    exact (Passes.refl phased).weaken fun state => phase state

theorem Passes.autoStart1Done (phased : s.Phased) : s.Passes s.autoStart1Done (s.state = AutoStart1) := by
  by_cases phase : s.state = AutoStart1
  · exact (autoStart1Done_passes phased.toOrdered phase _).1
  · have unmoved : s.autoStart1Done = s := by simp [Server.autoStart1Done,phase]
    rw [unmoved]
    exact (Passes.refl phased).weaken fun state => phase state

theorem Passes.tryRestoreNext (phased : s.Phased) : s.Passes s.tryRestoreNext False := by
  by_cases phase : s.state = Restoring
  · exact tryRestoreNext_passes phased.toOrdered phase False
  · have part : s.state ≠ RestoringSubSession := by
      intro state
      simpa [state,rank] using phased.phase
    have unmoved : s.tryRestoreNext = s := by simp [Server.tryRestoreNext,phase,part]
    rw [unmoved]
    exact .refl phased

theorem completeShutdownOrCheckpoint_phase {env : Env} (phase : 0 < rank s.state) :
    s.completeShutdownOrCheckpoint env = s := by
  unfold completeShutdownOrCheckpoint
  rw [if_pos]
  refine ⟨?_,?_,?_⟩ <;> (intro state; simp [state,rank] at phase)

theorem launchWM_launch (s : Server) (commands : List (List String)) : (s.launchWM commands).launch = s.launch := by
  unfold launchWM startApplication
  rw [singleShot_launch]
  split <;> rfl

theorem wmProcessChange_launch (s : Server) (notRunning : Bool) : (s.wmProcessChange notRunning).launch = s.launch := by
  unfold wmProcessChange
  split
  · rfl
  · split
    · split
      · rfl
      · exact launchWM_launch _ _
    · rfl

theorem handlePendingInteractions_course (s : Server) : s.handlePendingInteractions.course = s.course := by
  unfold handlePendingInteractions
  split
  · rfl
  · split <;> rfl

theorem saveYourselfDone_course (env : Env) (phase : 0 < rank s.state) (conn : Nat) :
    (s.saveYourselfDone env conn).course = s.course := by
  unfold saveYourselfDone
  split
  · rfl
  · split
    · obtain ⟨executed,state⟩ := s.executeCommand_frame _
      rw [state]
      rfl
    · rw [completeShutdownOrCheckpoint_phase (by exact phase)]
      dsimp only
      split
      · unfold wmPhase1Finished
        dsimp only
        split <;> rfl
      · rfl

theorem deleteClient_course (env : Env) (phase : 0 < rank s.state) (conn : Nat) :
    (s.deleteClient env conn).course = s.course := by
  have apart {t : Server} (same : t.course = s.course) (state : State) (other : rank state = 0) : t.state ≠ state := by
    simp only [course,launch,Prod.mk.injEq] at same
    intro equal
    rw [← same.1.1,equal,other] at phase
    exact absurd phase (Nat.lt_irrefl 0)
  refine deleteClient_keeps (P := fun t => t.course = s.course) rfl ?_ ?_ ?_ ?_ ?_
  · unfold removeClient
    dsimp only
    split
    · rw [handlePendingInteractions_course]
      rfl
    · rfl
  · intro same
    rw [completeShutdownOrCheckpoint_phase]
    · exact same
    · simp only [course,launch,Prod.mk.injEq] at same
      rw [same.1.1]
      exact phase
  · intro t same
    simpa [completeKilling,apart same Killing rfl] using same
  · intro t same
    simpa [completeKillingSubSession,apart same KillingSubSession rfl] using same
  · intro t same
    simpa [completeKillingWM,apart same KillingWM rfl] using same

theorem protectionTimeout_course (env : Env) (phase : 0 < rank s.state) :
    (s.step env .protectionTimeout).course = s.course := by
  have idle : ¬s.Saves := by
    rintro (state | state | state) <;> simp [state,rank] at phase
  simp only [step]
  split
  · unfold protectionTimeout
    rw [if_pos]
    · rfl
    · left
      simpa [Saves,not_or] using idle
  · rfl

theorem registerClient_passes (phased : s.Phased) (conn : Nat) (previousId : Option String) (generated : String) :
    s.Passes (s.registerClient conn previousId generated) False := by
  unfold registerClient
  split
  · exact .refl phased
  · dsimp only
    unfold clientRegistered
    split
    · refine (Passes.tryRestoreNext (phased.of_launch ?_)).before ?_ <;> rfl
    · exact .of_launch phased rfl

theorem setProperty_passes (phased : s.Phased) (conn : Nat) (property : Property) :
    s.Passes (s.setProperty conn property) (s.completes (.setProperty conn property)) := by
  unfold setProperty
  cases found : s.find conn with
  | none => exact (Passes.refl phased).weaken (by cases property <;> simp [completes,found])
  | some client =>
    have updated : (s.update conn property.set).launch = s.launch := rfl
    cases property with
    | Program program =>
      dsimp only
      unfold clientSetProgram
      split
      · refine ((Passes.autoStart0 (phased.of_launch updated)).before updated).weaken ?_
        simp [completes,update]
        exact fun phase _ _ => phase
      · rename_i other
        refine (Passes.of_launch phased updated).weaken ?_
        simp only [completes,Bool.and_eq_true,decide_eq_true_eq]
        exact fun ended => other ended.2
    | _ => exact (Passes.of_launch phased updated).weaken (by simp [completes])

theorem callSlot_passes (phased : s.Phased) (slot : Slot) :
    s.Passes (s.callSlot slot) (slot = .autoStart0 ∧ s.state = LaunchingWM) := by
  have apart (state : State) (other : rank state = 0) : s.state ≠ state := by
    intro equal
    simpa [equal,other] using phased.phase
  cases slot with
  | autoStart0 => exact (Passes.autoStart0 phased).weaken And.right
  | logoutSoundTimeout =>
    exact (Passes.of_launch phased (by simp [callSlot,logoutSoundTimeout,apart WaitingForKNotify rfl])).weaken (by simp)
  | timeoutQuit => exact (Passes.of_launch phased (by simp [callSlot,timeoutQuit,killWM,apart Killing rfl])).weaken (by simp)
  | timeoutWMQuit =>
    refine (Passes.of_launch phased ?_).weaken ?_
    · rfl
    · simp
  | signalSubSessionClosed =>
    exact (Passes.of_launch phased (by simp [callSlot,signalSubSessionClosed,apart KillingSubSession rfl])).weaken (by simp)
  | kcmPhase1Done => exact (kcmPhase1Done_passes phased).weaken (by simp)
  | kcmPhase1Timeout =>
    unfold callSlot kcmPhase1Timeout
    dsimp only
    split
    · exact (Passes.refl phased).weaken (by simp)
    · exact (kcmPhase1Done_passes phased).weaken (by simp)
  | kcmPhase2Done => exact (kcmPhase2Done_passes phased).weaken (by simp)
  | kcmPhase2Timeout =>
    unfold callSlot kcmPhase2Timeout
    dsimp only
    split
    · exact (Passes.refl phased).weaken (by simp)
    · exact (kcmPhase2Done_passes phased).weaken (by simp)

theorem autoStartDone_passes (env : Env) (phased : s.Phased) (phase : Nat) :
    s.Passes (s.step env (.autoStartDone phase)) (s.completes (.autoStartDone phase)) := by
  by_cases awaited : phase ∈ s.klauncherSignals
  · simp only [step,awaited,not_true_eq_false,if_false]
    rcases phase with _ | _ | phase
    · exact (Passes.autoStart0Done env phased).weaken (by simp [completes,awaited])
    · exact (Passes.autoStart1Done phased).weaken (by simp [completes,awaited])
    · exact (autoStart2Done_passes phased).weaken (by simp [completes])
  · have unmoved : s.step env (.autoStartDone phase) = s := by simp [step,awaited]
    rw [unmoved]
    refine (Passes.refl phased).weaken ?_
    rcases phase with _ | _ | phase <;> simp [completes,awaited]

theorem shot_passes (env : Env) (phased : s.Phased) (slot : Slot) :
    s.Passes (s.step env (.shot slot)) (s.completes (.shot slot)) := by
  by_cases made : slot ∈ s.shots
  · simp only [step,made,if_true]
    refine ((callSlot_passes (phased.of_launch ?_) slot).before ?_).weaken ?_
    · rfl
    · rfl
    · cases slot <;> simp [completes]
      exact fun phase _ => phase
  · have unmoved : s.step env (.shot slot) = s := by simp [step,made]
    rw [unmoved]
    refine (Passes.refl phased).weaken ?_
    cases slot <;> simp [completes]
    exact fun _ => made

theorem restoreTimeout_passes (env : Env) (phased : s.Phased) : s.Passes (s.step env .restoreTimeout) False := by
  by_cases runs : s.restoreTimer
  · simp only [step,runs,if_true]
    by_cases phase : s.state = Restoring
    · have stopped : ({ s with restoreTimer := false } : Server).Ordered := ⟨phased.phase,phased.order,phased.timed⟩
      exact ⟨(tryRestoreNext_passes stopped phase False).1,fun _ apart => absurd phase apart⟩
    · have stopped : ({ s with restoreTimer := false } : Server).Phased :=
        ⟨⟨phased.phase,phased.order,phased.timed⟩,fun state => absurd state phase⟩
      exact Passes.tryRestoreNext stopped
  · simpa [step,runs] using Passes.refl phased

theorem step_passes (env : Env) (phased : s.Phased) {event : Event} (startup : event.ofStartup) :
    s.Passes (s.step env event) (s.completes event) := by
  cases event with
  | wmProcessChange notRunning =>
    exact (Passes.of_launch phased (s.wmProcessChange_launch notRunning)).weaken (by simp [completes])
  | autoStartDone phase => exact autoStartDone_passes env phased phase
  | kcmPhase1Done =>
    simp only [step]
    split
    · exact (kcmPhase1Done_passes phased).weaken (by simp [completes])
    · exact (Passes.refl phased).weaken (by simp [completes])
  | kcmPhase2Done =>
    simp only [step]
    split
    · exact (kcmPhase2Done_passes phased).weaken (by simp [completes])
    · exact (Passes.refl phased).weaken (by simp [completes])
  | suspendStartup app => exact (suspendStartup_passes phased app).weaken (by simp [completes])
  | resumeStartup app => exact (resumeStartup_passes env phased app).weaken (by simp [completes])
  | newClient =>
    refine (Passes.of_launch phased ?_).weaken ?_
    · rfl
    · simp [completes]
  | registerClient conn previousId generated =>
    exact (registerClient_passes phased conn previousId generated).weaken (by simp [completes])
  | setProperty conn property => exact setProperty_passes phased conn property
  | deleteProperty conn property =>
    refine (Passes.of_launch phased ?_).weaken ?_
    · rfl
    · simp [completes]
  | saveYourselfDone conn =>
    exact (Passes.of_launch phased (congrArg Prod.fst (saveYourselfDone_course env phased.phase conn))).weaken (by simp [completes])
  | deleteClient conn =>
    exact (Passes.of_launch phased (congrArg Prod.fst (deleteClient_course env phased.phase conn))).weaken (by simp [completes])
  | shot slot => exact shot_passes env phased slot
  | protectionTimeout =>
    exact (Passes.of_launch phased (congrArg Prod.fst (protectionTimeout_course env phased.phase))).weaken
      (by simp [completes])
  | restoreTimeout => exact (restoreTimeout_passes env phased).weaken (by simp [completes])
  | startupSuspendTimeout =>
    by_cases runs : s.startupSuspendTimeoutTimer
    · exact (startupSuspendTimeout_passes env phased.toOrdered runs).1.weaken (by simp [completes])
    · have unmoved : s.step env .startupSuspendTimeout = s := by simp [step,runs]
      rw [unmoved]
      exact (Passes.refl phased).weaken (by simp [completes])
  | _ => simp [Event.ofStartup] at startup

theorem run_phased {events : List (Env × Event)} (startup : ∀ e ∈ events, e.2.ofStartup) {seen : Bool}
    (phased : s.Phased) (timed : seen → s.state ≠ Restoring ∧ s.startupSuspendTimeoutTimer) :
    (s.run events).Phased ∧
      (s.runSeen seen events → (s.run events).state ≠ Restoring ∧ (s.run events).startupSuspendTimeoutTimer) := by
  induction events generalizing s seen with
  | nil => exact ⟨phased,timed⟩
  | cons head events ih =>
    obtain ⟨env,event⟩ := head
    have passes := step_passes env phased (startup _ (List.mem_cons_self ..))
    refine ih (fun e member => startup e (List.mem_cons_of_mem _ member)) passes.1 fun ended => ?_
    simp only [Bool.and_eq_true,Bool.or_eq_true,decide_eq_true_eq] at ended
    obtain ⟨same,ended⟩ := ended
    have apart : s.state ≠ Restoring := by
      rcases ended with before | now
      · exact (timed before).1
      · intro phase
        cases event with
        | shot slot => cases slot <;> simp [completes,phase] at now
        | setProperty conn property => cases property <;> simp [completes,phase] at now
        | autoStartDone n =>
          match n with
          | 0 | 1 => simp [completes,phase] at now
          | _+2 => simp [completes] at now
        | _ => simp [completes] at now
    exact ⟨same ▸ apart,passes.2 same apart (ended.imp_left fun before => (timed before).2)⟩

/-- What holds of a startup at any time, where `seen` says whether the phase could have ended. -/
structure Suspended (s : Server) (seen : Bool) : Prop where
  order : s.entered = phases.take (rank s.state)
  complete : s.state = Idle → s.entered = phases
  waits : seen ∨ s.state = Restoring ∧ s.restoreTimer = false →
    s.startupSuspendTimeoutTimer ∧ s.startupSuspendCount ≠ []
  timeout : s.startupSuspendTimeoutTimer → ∀ env,
    (s.step env .startupSuspendTimeout).entered = phases.take (rank (s.step env .startupSuspendTimeout).state) ∧
      (s.step env .startupSuspendTimeout).state ≠ s.state
  resumed : s.startupSuspendTimeoutTimer → ∀ env app, countOf app s.startupSuspendCount = some 1 →
    removeCount app s.startupSuspendCount = [] →
      (s.step env (.resumeStartup app)).entered = phases.take (rank (s.step env (.resumeStartup app)).state) ∧
        (s.step env (.resumeStartup app)).state ≠ s.state

theorem Phased.suspended {seen : Bool} (phased : s.Phased) (timed : seen → s.startupSuspendTimeoutTimer) :
    s.Suspended seen := by
  refine ⟨phased.order,?_,?_,?_,?_⟩
  · intro idle
    rw [phased.order,idle]
    rfl
  · intro ended
    have runs : s.startupSuspendTimeoutTimer := by
      rcases ended with now | ⟨phase,quiet⟩
      · exact timed now
      · exact (phased.restores phase).resolve_left (by simp [quiet])
    exact ⟨runs,(phased.timed runs).1⟩
  · intro runs env
    obtain ⟨passes,next⟩ := startupSuspendTimeout_passes env phased.toOrdered runs
    exact ⟨passes.1.order,next⟩
  · intro runs env app last only
    obtain ⟨passes,next⟩ := resumeStartup_last env phased.toOrdered runs last only
    exact ⟨passes.1.order,next⟩

theorem start_phased {wm : String} {wmCommands : List String} {config : String → Group}
    {counts : List (String × Nat)} {clients : List Client} {nextClient : Nat} {base : Server}
    (fresh : base = { initial wm wmCommands config with
      startupSuspendCount := counts, clients := clients, nextClient := nextClient }) :
    (∀ name, (base.restoreSession name).Phased) ∧ base.startDefaultSession.Phased := by
  have launched {t : Server} (state : t.state = LaunchingWM) (entered : t.entered = [LaunchingWM])
      (timer : t.startupSuspendTimeoutTimer = false) (commands : List (List String)) : (t.launchWM commands).Phased := by
    refine Phased.of_launch ⟨⟨?_,?_,?_⟩,?_⟩ (t.launchWM_launch commands)
    · simp [state,rank]
    · simp [entered,state,rank,phases]
    · simp [timer]
    · simp [state]
  have idle : base.state = Idle := by rw [fresh]; rfl
  constructor
  · intro name
    unfold restoreSession
    rw [if_neg (not_not.mpr idle)]
    refine launched ?_ ?_ ?_ _
    · rfl
    · simp [enter,fresh,initial]
    · simp [enter,fresh,initial]
  · unfold startDefaultSession
    rw [if_neg (not_not.mpr idle)]
    refine launched ?_ ?_ ?_ _
    · rfl
    · simp [enter,fresh,initial]
    · simp [enter,fresh,initial]

/-- However the startup is suspended and resumed, the phases are entered once each and in order, and a phase which
could have ended but stays waits with a timer for the applications that suspend it. -/
theorem run_suspended {wm : String} {wmCommands : List String} {config : String → Group}
    {counts : List (String × Nat)} {clients : List Client} {nextClient : Nat} {base start : Server}
    (fresh : base = { initial wm wmCommands config with
      startupSuspendCount := counts, clients := clients, nextClient := nextClient })
    (starts : start = base.startDefaultSession ∨ ∃ name, start = base.restoreSession name)
    {events : List (Env × Event)} (startup : ∀ e ∈ events, e.2.ofStartup) :
    (start.run events).Suspended (start.runSeen false events) := by
  have phased : start.Phased := by
    rcases starts with rfl | ⟨name,rfl⟩
    · exact (start_phased fresh).2
    · exact (start_phased fresh).1 name
  obtain ⟨after,timed⟩ := run_phased startup phased fun ended : false = true => (by cases ended)
  exact after.suspended fun seen => (timed seen).2

/-- An application suspends the startup, and the window manager does not register in time. -/
theorem run_suspended_launching :
    (({ initial "kwin" ["kwin"] fun _ => .empty with startupSuspendCount := [], clients := [], nextClient := 0 } :
        Server).startDefaultSession.run [(.plain,.suspendStartup "plasma"),(.plain,.shot .autoStart0)]).Suspended true :=
  @run_suspended "kwin" ["kwin"] (fun _ => .empty) [] [] 0 _ _ rfl (Or.inl rfl) _ (by simp [Event.ofStartup])

end Server
end KdeWorkspace.SessionServer
