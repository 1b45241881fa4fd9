import KdeWorkspace.StartupPhases

/-!
A stored session is restored completely and once.

What is stored are the clients that are eligible, the window manager first, numbered without a gap. At the next
login the numbers are visited one after the other, whenever a client registers or the timer is up, and what is
started of them are the commands of the entries whose clients are not connected.
-/
namespace KdeWorkspace.SessionServer
open List
open Or (inl inr)

open State

/-- A client that is stored at a logout. -/
def Client.eligible (env : Env) (c : Client) : Prop :=
  c.restartStyleHint ≠ SmRestartNever ∧ ¬(c.program = "" ∧ c.restartCommand = []) ∧
    env.toLower c.program ∉ env.excludeApps ∧ env.toLower (env.fileName c.program) ∉ env.excludeApps

def Entry.app (entry : Entry) : List String × String × String := (entry.restartCommand,entry.clientMachine,entry.userId)

/-- Whether an entry has a command and is not that of the window manager. -/
def Entry.runs (entry : Entry) : Bool := entry.restartCommand ≠ [] && !entry.wasWm

/-- Whether an entry is one to start. -/
def Entry.restarts (wm : String) (entry : Entry) : Bool :=
  entry.restartCommand ≠ [] && entry.restartStyleHint ≠ SmRestartNever && entry.program ≠ wm && !entry.wasWm

/-- What is started for the numbers that have been visited, each with whether its client was connected. -/
def Group.starts (group : Group) (wm : String) (visited : List (Nat × Bool)) : List (List String × String × String) :=
  (visited.filter fun p => !p.2 && (group.entry p.1).restarts wm).map fun p => (group.entry p.1).app

theorem Group.starts_append (group : Group) (wm : String) (visited more : List (Nat × Bool)) :
    group.starts wm (visited++more) = group.starts wm visited++group.starts wm more := by
  simp [starts]

theorem Group.starts_skip (group : Group) {wm : String} {i : Nat} {there : Bool} (visited : List (Nat × Bool))
    (skips : there = false → (group.entry i).restarts wm = false) :
    group.starts wm ((i,there) :: visited) = group.starts wm visited := by
  cases there with
  | false => simp [starts,skips rfl]
  | true => simp [starts]

theorem Group.starts_run (group : Group) {wm : String} {i : Nat} (visited : List (Nat × Bool))
    (restarts : (group.entry i).restarts wm) :
    group.starts wm ((i,false) :: visited) = (group.entry i).app :: group.starts wm visited := by
  simp [starts,restarts]

namespace Server

/-- What the restoring of the session is about. -/
def script (s : Server) := (s.config,s.sessionGroup,s.wm,s.started,s.lastAppStarted,s.appsToStart)

/-- Whether a client that is connected has the identifier. -/
def connected (s : Server) (clientId : String) : Bool := s.clients.any fun (c : Client) => c.clientId = clientId

/-- The numbers after one, each with whether its client is connected. -/
def visits (s : Server) (group : Group) (last n : Nat) : List (Nat × Bool) :=
  (List.range' (last+1) n).map fun i => (i,s.connected (group.entry i).clientId)

/-- The numbers that a run visits. -/
def visited (group : Group) : Server → List (Env × Event) → List (Nat × Bool)
  | _, [] => []
  | s, (env,event) :: events =>
    (s.step env event).visits group s.lastAppStarted ((s.step env event).lastAppStarted-s.lastAppStarted)++
      visited group (s.step env event) events

variable {s : Server} {wm : String} {group : Group}

theorem visits_succ (s : Server) (group : Group) (last n : Nat) :
    s.visits group last (n+1) = (last+1,s.connected (group.entry (last+1)).clientId) :: s.visits group (last+1) n := by
  simp [visits,range'_succ]

theorem visits_numbers (s : Server) (group : Group) (last n : Nat) :
    (s.visits group last n).map Prod.fst = List.range' (last+1) n := by
  simp [visits,Function.comp_def]

theorem visits_congr {s' : Server} (same : s'.clients = s.clients) (last n : Nat) :
    s'.visits group last n = s.visits group last n := by
  simp [visits,connected,same]

theorem restoreLoop_visits (s : Server) (n : Nat) : ∃ k ≤ n,
    ((s.restoreLoop n).2 = false → k = n) ∧ ((s.restoreLoop n).2 → 0 < k) ∧
      (s.restoreLoop n).1.lastAppStarted = s.lastAppStarted+k ∧
        (s.restoreLoop n).1.started = s.started++
          (s.config s.sessionGroup).starts s.wm (s.visits (s.config s.sessionGroup) s.lastAppStarted k) := by
  induction n generalizing s with
  | zero => exact ⟨0,Nat.le_refl 0,fun _ => rfl,by simp [restoreLoop],rfl,by simp [restoreLoop,visits,Group.starts]⟩
  | succ n ih =>
    generalize groups : s.config s.sessionGroup = group
    generalize met : group.entry (s.lastAppStarted+1) = entry
    have unfolded : s.restoreLoop (n+1) =
        let t : Server := { s with lastAppStarted := s.lastAppStarted+1 }
        if s.connected entry.clientId then t.restoreLoop n
        else if entry.restartCommand = [] ∨ entry.restartStyleHint = SmRestartNever then t.restoreLoop n
        else if s.wm = entry.program then t.restoreLoop n
        else if entry.wasWm then t.restoreLoop n
        else
          let u : Server := t.startApplication entry.restartCommand entry.clientMachine entry.userId
          let v : Server := { u with lastIdStarted := entry.clientId }
          if v.lastIdStarted ≠ "" then ({ v with restoreTimer := true },true) else v.restoreLoop n := by
      rw [restoreLoop]
      dsimp only
      rw [groups,met]
      rfl
    -- the loop goes on from `t`, where what has been started for the number is `new`
    have goesOn (t : Server) (new : List (List String × String × String))
        (result : s.restoreLoop (n+1) = t.restoreLoop n)
        (last : t.lastAppStarted = s.lastAppStarted+1) (clients : t.clients = s.clients) (wm : t.wm = s.wm)
        (config : t.config t.sessionGroup = group) (started : t.started = s.started++new)
        (head : ∀ rest, group.starts s.wm ((s.lastAppStarted+1,s.connected entry.clientId) :: rest) =
          new++group.starts s.wm rest) :
        ∃ k ≤ n+1, ((s.restoreLoop (n+1)).2 = false → k = n+1) ∧ ((s.restoreLoop (n+1)).2 → 0 < k) ∧
          (s.restoreLoop (n+1)).1.lastAppStarted = s.lastAppStarted+k ∧
            (s.restoreLoop (n+1)).1.started = s.started++group.starts s.wm (s.visits group s.lastAppStarted k) := by
      obtain ⟨k,bound,all,some,reached,log⟩ := ih t
      rw [result]
      refine ⟨k+1,by omega,fun none => by rw [all none],fun _ => by omega,by rw [reached,last]; omega,?_⟩
      rw [log,started,config,wm,last,visits_congr clients,visits_succ,met,head,append_assoc]
    have skip (skips : s.connected entry.clientId = false → entry.restarts s.wm = false)
        (result : s.restoreLoop (n+1) = ({ s with lastAppStarted := s.lastAppStarted+1 } : Server).restoreLoop n) := by
      refine goesOn _ [] result rfl rfl rfl groups (by simp) fun rest => ?_
      exact group.starts_skip rest fun none => met ▸ skips none
    by_cases there : s.connected entry.clientId
    · exact skip (by simp [there]) (by simp [unfolded,there])
    · by_cases never : entry.restartCommand = [] ∨ entry.restartStyleHint = SmRestartNever
      · refine skip (fun _ => ?_) (by simp [unfolded,there,never])
        rcases never with empty | hint
        · simp [Entry.restarts,empty]
        · simp [Entry.restarts,hint]
      · by_cases manager : s.wm = entry.program
        · exact skip (fun _ => by simp [Entry.restarts,manager]) (by simp [unfolded,there,never,manager])
        · by_cases was : entry.wasWm
          · exact skip (fun _ => by simp [Entry.restarts,was]) (by simp [unfolded,there,never,manager,was])
          · have restarts : (group.entry (s.lastAppStarted+1)).restarts s.wm := by
              simp [met,Entry.restarts,not_or.mp never,was,Ne.symm manager]
            have app : (group.entry (s.lastAppStarted+1)).app = entry.app := by rw [met]
            obtain ⟨command,hint⟩ := not_or.mp never
            simp only [Bool.not_eq_true] at there
            by_cases id : entry.clientId = ""
            · refine goesOn { s with
                  lastAppStarted := s.lastAppStarted+1, started := s.started++[entry.app], lastIdStarted := entry.clientId }
                [entry.app] ?_ rfl rfl rfl groups rfl fun rest => ?_
              · have unnamed : s.connected "" = false := id ▸ there
                simp [unfolded,unnamed,command,hint,manager,was,id,startApplication,Entry.app]
              · rw [there,group.starts_run rest restarts,app]
                rfl
            · refine ⟨1,by omega,?_,?_,?_,?_⟩
              · simp [unfolded,there,command,hint,manager,was,id]
              · simp
              · simp [unfolded,there,command,hint,manager,was,id,startApplication]
              · rw [visits_succ,met,there,group.starts_run _ restarts,app]
                simp [unfolded,there,command,hint,manager,was,id,startApplication,visits,Group.starts,Entry.app]

/-- What the startup of a stored session keeps: the numbers up to `lastAppStarted` have been visited. -/
structure Underway (wm : String) (group : Group) (s : Server) : Prop where
  groups : s.config s.sessionGroup = group
  stored : s.sessionGroup ≠ ""
  manager : s.wm = wm
  early : rank s.state < 5 → s.appsToStart = group.count ∧ s.lastAppStarted = 0
  waits : s.state = Restoring → s.restoreTimer →
    s.appsToStart = group.count ∧ s.lastAppStarted ≤ group.count ∧ s.startupSuspendTimeoutTimer = false
  done : s.state = Restoring → s.restoreTimer = false → s.appsToStart = 0 ∧ s.lastAppStarted = group.count
  late : 5 < rank s.state → s.lastAppStarted = group.count

/-- What a step does: the next numbers are visited, and what is to be started of them is started. -/
structure Visits (wm : String) (group : Group) (s s' : Server) : Prop where
  underway : s'.Underway wm group
  forward : s.lastAppStarted ≤ s'.lastAppStarted
  log : s'.started = s.started++
    group.starts wm (s'.visits group s.lastAppStarted (s'.lastAppStarted-s.lastAppStarted))

/-- A step that visits nothing. -/
def Quiet (s s' : Server) : Prop :=
  s'.script = s.script ∧
    ((s'.state = s.state ∧ s'.restoreTimer = s.restoreTimer ∧
        (s.state = Restoring → s.restoreTimer → s'.startupSuspendTimeoutTimer = s.startupSuspendTimeoutTimer)) ∨
      (rank s.state < 5 ∧ rank s'.state < 5) ∨
      (s.state = Restoring ∧ s.restoreTimer = false ∧ 5 < rank s'.state) ∨
      (5 < rank s.state ∧ 5 < rank s'.state))

variable {s' : Server}

theorem rank_cases (phase : 0 < rank s.state) : s.state = Restoring ∨ rank s.state < 5 ∨ 5 < rank s.state := by
  cases state : s.state <;> simp [state,rank] at *

theorem Visits.quiet (underway : s.Underway wm group) (quiet : s.Quiet s') : Visits wm group s s' := by
  obtain ⟨same,phase⟩ := quiet
  simp only [script,Prod.mk.injEq] at same
  obtain ⟨config,sessionGroup,manager,started,last,apps⟩ := same
  have restoring : rank Restoring = 5 := rfl
  refine ⟨⟨?_,?_,?_,?_,?_,?_,?_⟩,by omega,?_⟩
  · rw [config,sessionGroup]
    exact underway.groups
  · rw [sessionGroup]
    exact underway.stored
  · rw [manager]
    exact underway.manager
  · intro early
    rw [apps,last]
    apply underway.early
    rcases phase with ⟨state,_⟩ | ⟨before,_⟩ | ⟨_,_,after⟩ | ⟨_,after⟩
    · rwa [← state]
    · exact before
    · omega
    · omega
  · intro state timer
    rw [state,restoring] at phase
    rcases phase with ⟨same,runs,suspends⟩ | ⟨_,before⟩ | ⟨_,_,after⟩ | ⟨_,after⟩
    · obtain ⟨count,bound,stopped⟩ := underway.waits same.symm (runs ▸ timer)
      rw [apps,last,suspends same.symm (runs ▸ timer)]
      exact ⟨count,bound,stopped⟩
    · omega
    · omega
    · omega
  · intro state timer
    rw [state,restoring] at phase
    rcases phase with ⟨same,runs,_⟩ | ⟨_,before⟩ | ⟨_,_,after⟩ | ⟨_,after⟩
    · rw [apps,last]
      exact underway.done same.symm (runs ▸ timer)
    · omega
    · omega
    · omega
  · intro late
    rw [last]
    rcases phase with ⟨state,_⟩ | ⟨_,before⟩ | ⟨state,timer,_⟩ | ⟨before,_⟩
    · exact underway.late (state ▸ late)
    · omega
    · exact (underway.done state timer).2
    · exact underway.late before
  · simp [started,last,visits,Group.starts]

theorem Visits.before {t : Server} (visits : Visits wm group t s') (last : t.lastAppStarted = s.lastAppStarted)
    (started : t.started = s.started) : Visits wm group s s' := by
  refine ⟨visits.underway,last ▸ visits.forward,?_⟩
  rw [← started,← last]
  exact visits.log

theorem Quiet.refl (s : Server) : s.Quiet s := ⟨rfl,inl ⟨rfl,rfl,fun _ _ => rfl⟩⟩

theorem Quiet.of_course (same : s'.course = s.course) : s.Quiet s' := by
  have script : s'.script = s.script := congrArg Prod.snd same
  simp only [course,launch,Prod.mk.injEq] at same
  obtain ⟨⟨state,_,_,timer,restore⟩,_⟩ := same
  exact ⟨script,inl ⟨state,restore,fun _ _ => timer⟩⟩

theorem Quiet.early (script : s'.script = s.script) (before : rank s.state < 5) (after : rank s'.state < 5) :
    s.Quiet s' := ⟨script,inr (inl ⟨before,after⟩)⟩

theorem Quiet.late (script : s'.script = s.script) (before : 5 < rank s.state) (after : 5 < rank s'.state) :
    s.Quiet s' := ⟨script,inr (inr (inr ⟨before,after⟩))⟩

theorem Quiet.singleShot {t : Server} (quiet : s.Quiet t) (slot : Slot) : s.Quiet (t.singleShot slot) := by
  unfold Server.singleShot
  split
  · exact quiet
  · exact quiet

theorem autoStart0_quiet (s : Server) : s.Quiet s.autoStart0 := by
  unfold autoStart0 checkStartupSuspend
  by_cases phase : s.state = LaunchingWM
  · have before : rank s.state < 5 := by simp [phase,rank]
    by_cases free : s.startupSuspendCount = []
    · rw [if_neg (not_not.mpr phase),if_pos free]
      exact .early rfl before (by simp [enter,rank])
    · rw [if_neg (not_not.mpr phase),if_neg free]
      exact .early rfl before before
  · rw [if_pos phase]
    exact .refl s

theorem autoStart0Done_quiet (env : Env) (s : Server) : s.Quiet (s.autoStart0Done env) := by
  unfold autoStart0Done checkStartupSuspend
  by_cases phase : s.state = AutoStart0
  · have before : rank s.state < 5 := by simp [phase,rank]
    by_cases free : s.startupSuspendCount = []
    · rw [if_neg (not_not.mpr phase),if_pos free]
      dsimp only
      split
      · refine Quiet.singleShot (.early ?_ before ?_) _
        · rfl
        · simp [enter,rank]
      · refine Quiet.singleShot (.early ?_ before ?_) _
        · rfl
        · simp [enter,rank]
    · rw [if_neg (not_not.mpr phase),if_neg free]
      exact .early rfl before before
  · rw [if_pos phase]
    exact .refl s

theorem kcmPhase1Done_quiet (s : Server) : s.Quiet s.kcmPhase1Done := by
  unfold kcmPhase1Done autoStart1
  by_cases phase : s.state = KcmInitPhase1
  · have before : rank s.state < 5 := by simp [phase,rank]
    rw [if_neg (not_not.mpr phase)]
    dsimp only
    by_cases signals : s.kcminitSignals
    · rw [if_pos signals,if_neg (not_not.mpr phase)]
      exact .early rfl before (by simp [enter,rank])
    · rw [if_neg signals,if_neg (not_not.mpr phase)]
      exact .early rfl before (by simp [enter,rank])
  · rw [if_pos phase]
    exact .refl s

theorem autoStart2_quiet (ready : s.state = Restoring → s.restoreTimer = false) : s.Quiet s.autoStart2 := by
  unfold autoStart2 checkStartupSuspend
  by_cases phase : s.state = Restoring
  · by_cases free : s.startupSuspendCount = []
    · have next {t : Server} (script : t.script = s.script) (state : t.state = FinishingStartup) (slot : Slot) :
          s.Quiet (t.singleShot slot) := by
        refine Quiet.singleShot ⟨script,inr (inr (inl ⟨phase,ready phase,?_⟩))⟩ slot
        simp [state,rank]
      rw [if_neg (not_not.mpr phase),if_pos free]
      dsimp only
      split
      · refine next ?_ ?_ _ <;> rfl
      · refine next ?_ ?_ _ <;> rfl
    · rw [if_neg (not_not.mpr phase),if_neg free]
      refine ⟨rfl,inl ⟨rfl,rfl,fun _ runs => ?_⟩⟩
      simp [ready phase] at runs
  · rw [if_pos phase]
    exact .refl s

theorem finishStartup_quiet {t : Server} (script : t.script = s.script) (state : t.state = s.state)
    (phase : s.state = FinishingStartup) : s.Quiet t.finishStartup := by
  have before : 5 < rank s.state := by simp [phase,rank]
  unfold finishStartup
  split
  · exact .late script before (state ▸ before)
  · split
    · exact .late script before (state ▸ before)
    · exact .late script before (by simp [enter,rank])

theorem autoStart2Done_quiet (s : Server) : s.Quiet s.autoStart2Done := by
  unfold autoStart2Done
  split
  · exact .refl s
  · rename_i phase
    exact finishStartup_quiet rfl rfl (not_not.mp phase)

theorem kcmPhase2Done_quiet (s : Server) : s.Quiet s.kcmPhase2Done := by
  unfold kcmPhase2Done
  split
  · exact .refl s
  · rename_i phase
    dsimp only
    split
    · exact finishStartup_quiet rfl rfl (not_not.mp phase)
    · exact finishStartup_quiet rfl rfl (not_not.mp phase)

theorem tryRestoreNext_visits (phase : s.state = Restoring) (groups : s.config s.sessionGroup = group)
    (stored : s.sessionGroup ≠ "") (manager : s.wm = wm)
    (ready : (s.appsToStart = group.count ∧ s.lastAppStarted ≤ group.count) ∨
      (s.appsToStart = 0 ∧ s.lastAppStarted = group.count)) : Visits wm group s s.tryRestoreNext := by
  have clients : s.tryRestoreNext.clients = s.clients := congrArg Prod.fst s.tryRestoreNext_aside.1
  rw [tryRestoreNext_eq (inl phase)] at clients ⊢
  obtain ⟨k,bound,all,some,reached,log⟩ := s.stopTimers.restoreLoop_visits (s.appsToStart-s.lastAppStarted)
  obtain ⟨_,_,_,loop⟩ := s.stopTimers.restoreLoop_frame (s.appsToStart-s.lastAppStarted)
  generalize s.stopTimers.restoreLoop (s.appsToStart-s.lastAppStarted) = r at *
  have restoring : rank Restoring = 5 := rfl
  have state : r.1.state = Restoring := by rw [loop]; exact phase
  have config : r.1.config r.1.sessionGroup = group := by rw [loop]; exact groups
  have named : r.1.sessionGroup ≠ "" := by rw [loop]; exact stored
  have windows : r.1.wm = wm := by rw [loop]; exact manager
  have apps : r.1.appsToStart = s.appsToStart := by rw [loop]; rfl
  have timer : r.1.startupSuspendTimeoutTimer = false := by rw [loop]; rfl
  have restore : r.1.restoreTimer = r.2 := by
    rw [loop]
    simp [stopTimers]
  have last : r.1.lastAppStarted = s.lastAppStarted+k := reached
  have started : r.1.started = s.started++group.starts wm (s.visits group s.lastAppStarted k) := by
    rw [← manager,← groups]
    exact log
  cases early : r.2 with
  | true =>
    rw [early] at some restore clients
    rw [if_pos rfl] at clients ⊢
    have positive := some rfl
    refine ⟨⟨config,named,windows,?_,?_,?_,?_⟩,by omega,?_⟩
    · intro before
      rw [state] at before
      omega
    · intro _ _
      rw [apps,last]
      refine ⟨?_,?_,timer⟩ <;> omega
    · intro _ stopped
      simp [restore] at stopped
    · intro after
      rw [state] at after
      omega
    · rw [started,last,visits_congr clients,Nat.add_sub_cancel_left]
  | false =>
    rw [early] at all restore clients
    have complete := all rfl
    rw [if_neg (by simp)] at clients ⊢
    unfold restored at clients ⊢
    dsimp only at clients ⊢
    rw [if_pos (by exact state)] at clients ⊢
    have underway : ({ r.1 with appsToStart := 0, lastIdStarted := "" } : Server).Underway wm group := by
      refine ⟨config,named,windows,?_,?_,?_,?_⟩
      · intro before
        simp only [state] at before
        omega
      · intro _ runs
        simp [restore] at runs
      · intro _ _
        simp only [last]
        exact ⟨trivial,by omega⟩
      · intro after
        simp only [state] at after
        omega
    have quiet := autoStart2_quiet (s := { r.1 with appsToStart := 0, lastIdStarted := "" }) fun _ => restore
    have same := quiet.1
    simp only [script,Prod.mk.injEq] at same
    obtain ⟨_,_,_,log,number,_⟩ := same
    refine ⟨(Visits.quiet underway quiet).underway,by omega,?_⟩
    rw [log,number,visits_congr clients]
    simp only [last,started,Nat.add_sub_cancel_left]

theorem Underway.tryRestoreNext (underway : s.Underway wm group) (phase : 0 < rank s.state) :
    Visits wm group s s.tryRestoreNext := by
  by_cases state : s.state = Restoring
  · refine tryRestoreNext_visits state underway.groups underway.stored underway.manager ?_
    by_cases timer : s.restoreTimer
    · obtain ⟨count,bound,_⟩ := underway.waits state timer
      exact inl ⟨count,bound⟩
    · exact inr (underway.done state (by simpa using timer))
  · have part : s.state ≠ RestoringSubSession := by
      intro state
      simp [state,rank] at phase
    have unmoved : s.tryRestoreNext = s := by simp [Server.tryRestoreNext,state,part]
    rw [unmoved]
    exact .quiet underway (.refl s)

theorem Underway.autoStart1Done (underway : s.Underway wm group) : Visits wm group s s.autoStart1Done := by
  unfold Server.autoStart1Done checkStartupSuspend
  by_cases phase : s.state = AutoStart1
  · have before : rank s.state < 5 := by simp [phase,rank]
    by_cases free : s.startupSuspendCount = []
    · rw [if_neg (not_not.mpr phase),if_pos free]
      dsimp only
      have count := underway.early before
      have restores : ({ s with
          klauncherSignals := s.klauncherSignals.filter (· ≠ 1), lastAppStarted := 0, lastIdStarted := "" }.enter
          Restoring).defaultSession = false := by
        simpa [defaultSession,enter] using underway.stored
      rw [restores]
      have visits : Visits wm group _ ({ s with
          klauncherSignals := s.klauncherSignals.filter (· ≠ 1), lastAppStarted := 0, lastIdStarted := "" }.enter
          Restoring).tryRestoreNext :=
        tryRestoreNext_visits rfl underway.groups underway.stored underway.manager (inl ⟨count.1,Nat.zero_le _⟩)
      exact visits.before count.2.symm rfl
    · rw [if_neg (not_not.mpr phase),if_neg free]
      exact .quiet underway (.early rfl before before)
  · rw [if_pos phase]
    exact .quiet underway (.refl s)

theorem Underway.of_script (underway : s.Underway wm group) (script : s'.script = s.script) (state : s'.state = s.state)
    (restore : s'.restoreTimer = s.restoreTimer)
    (timer : s'.startupSuspendTimeoutTimer → s.startupSuspendTimeoutTimer) : s'.Underway wm group := by
  simp only [Server.script,Prod.mk.injEq] at script
  obtain ⟨config,sessionGroup,manager,_,last,apps⟩ := script
  refine ⟨?_,?_,?_,?_,?_,?_,?_⟩
  · rw [config,sessionGroup]
    exact underway.groups
  · rw [sessionGroup]
    exact underway.stored
  · rw [manager]
    exact underway.manager
  · rw [state,apps,last]
    exact underway.early
  · rw [state,restore,apps,last]
    intro phase runs
    obtain ⟨count,bound,stopped⟩ := underway.waits phase runs
    refine ⟨count,bound,?_⟩
    by_contra running
    simpa [stopped] using timer (by simpa using running)
  · rw [state,restore,apps,last]
    exact underway.done
  · rw [state,last]
    exact underway.late

theorem Underway.resumeStartupInternal (env : Env) (underway : s.Underway wm group)
    (ready : s.state = Restoring → s.restoreTimer = false) : Visits wm group s (s.resumeStartupInternal env) := by
  have cleared : ({ s with startupSuspendCount := [] } : Server).Underway wm group := underway.of_script rfl rfl rfl id
  unfold Server.resumeStartupInternal
  dsimp only
  split
  · exact (Visits.quiet cleared (autoStart0_quiet _)).before rfl rfl
  · exact (Visits.quiet cleared (autoStart0Done_quiet env _)).before rfl rfl
  · exact cleared.autoStart1Done.before rfl rfl
  · exact (Visits.quiet cleared (autoStart2_quiet ready)).before rfl rfl
  · exact (Visits.quiet cleared (.refl _)).before rfl rfl

theorem Underway.ready (underway : s.Underway wm group) (timer : s.startupSuspendTimeoutTimer)
    (phase : s.state = Restoring) : s.restoreTimer = false := by
  by_contra runs
  have stopped := (underway.waits phase (by simpa using runs)).2.2
  simp [timer] at stopped

theorem Underway.resumeStartup (env : Env) (underway : s.Underway wm group) (app : String) :
    Visits wm group s (s.resumeStartup env app) := by
  have counted (counts : List (String × Nat)) :
      Visits wm group s { s with startupSuspendCount := counts } := by
    refine .quiet underway ⟨?_,inl ⟨?_,?_,fun _ _ => ?_⟩⟩ <;> rfl
  unfold Server.resumeStartup
  split
  · exact .quiet underway (.refl s)
  · split
    · dsimp only
      split
      · rename_i resumes
        have stopped : ({ s with
            startupSuspendCount := removeCount app s.startupSuspendCount
            startupSuspendTimeoutTimer := false } : Server).Underway wm group :=
          underway.of_script rfl rfl rfl (by simp)
        exact (stopped.resumeStartupInternal env (underway.ready resumes.2)).before rfl rfl
      · exact counted _
    · exact counted _

theorem registerClient_visits (underway : s.Underway wm group) (phase : 0 < rank s.state) (conn : Nat)
    (previousId : Option String) (generated : String) :
    Visits wm group s (s.registerClient conn previousId generated) := by
  unfold registerClient
  split
  · exact .quiet underway (.refl s)
  · dsimp only
    unfold clientRegistered
    split
    · refine (Underway.tryRestoreNext (underway.of_script ?_ ?_ ?_ ?_) ?_).before ?_ ?_
      · rfl
      · rfl
      · rfl
      · exact id
      · exact phase
      · rfl
      · rfl
    · exact .quiet underway (.of_course rfl)

theorem setProperty_quiet (s : Server) (conn : Nat) (property : Property) : s.Quiet (s.setProperty conn property) := by
  unfold setProperty
  split
  · exact .refl s
  · cases property with
    | Program program =>
      dsimp only
      unfold clientSetProgram
      split
      · exact autoStart0_quiet (s.update conn (Property.Program program).set)
      · exact .of_course rfl
    | _ => exact .of_course rfl

theorem callSlot_quiet (phase : 0 < rank s.state) (slot : Slot) : s.Quiet (s.callSlot slot) := by
  have apart (state : State) (other : rank state = 0) : s.state ≠ state := by
    intro equal
    simp [equal,other] at phase
  cases slot with
  | autoStart0 => exact autoStart0_quiet s
  | logoutSoundTimeout =>
    exact .of_course (by simp [callSlot,logoutSoundTimeout,apart WaitingForKNotify rfl])
  | timeoutQuit => exact .of_course (by simp [callSlot,timeoutQuit,killWM,apart Killing rfl])
  | timeoutWMQuit => exact .of_course rfl
  | signalSubSessionClosed =>
    exact .of_course (by simp [callSlot,signalSubSessionClosed,apart KillingSubSession rfl])
  | kcmPhase1Done => exact kcmPhase1Done_quiet s
  | kcmPhase1Timeout =>
    unfold callSlot kcmPhase1Timeout
    dsimp only
    split
    · exact .refl s
    · exact kcmPhase1Done_quiet s
  | kcmPhase2Done => exact kcmPhase2Done_quiet s
  | kcmPhase2Timeout =>
    unfold callSlot kcmPhase2Timeout
    dsimp only
    split
    · exact .refl s
    · exact kcmPhase2Done_quiet s

theorem autoStartDone_visits (env : Env) (underway : s.Underway wm group) (phase : Nat) :
    Visits wm group s (s.step env (.autoStartDone phase)) := by
  by_cases awaited : phase ∈ s.klauncherSignals
  · simp only [step,awaited,not_true_eq_false,if_false]
    rcases phase with _ | _ | phase
    · exact .quiet underway (autoStart0Done_quiet env s)
    · exact underway.autoStart1Done
    · exact .quiet underway (autoStart2Done_quiet s)
  · have unmoved : s.step env (.autoStartDone phase) = s := by simp [step,awaited]
    rw [unmoved]
    exact .quiet underway (.refl s)

theorem restoreTimeout_visits (env : Env) (underway : s.Underway wm group) (phase : 0 < rank s.state) :
    Visits wm group s (s.step env .restoreTimeout) := by
  by_cases runs : s.restoreTimer
  · simp only [step,runs,if_true]
    by_cases state : s.state = Restoring
    · obtain ⟨count,bound,_⟩ := underway.waits state runs
      have visits : Visits wm group _ ({ s with restoreTimer := false } : Server).tryRestoreNext :=
        tryRestoreNext_visits state underway.groups underway.stored underway.manager (inl ⟨count,bound⟩)
      exact visits.before rfl rfl
    · have part : s.state ≠ RestoringSubSession := by
        intro state
        simp [state,rank] at phase
      have unmoved : ({ s with restoreTimer := false } : Server).tryRestoreNext = { s with restoreTimer := false } := by
        simp [Server.tryRestoreNext,state,part]
      rw [unmoved]
      rcases rank_cases phase with restoring | before | after
      · exact absurd restoring state
      · exact .quiet underway (.early rfl before before)
      · exact .quiet underway (.late rfl after after)
  · have unmoved : s.step env .restoreTimeout = s := by simp [step,runs]
    rw [unmoved]
    exact .quiet underway (.refl s)

theorem startupSuspendTimeout_visits (env : Env) (underway : s.Underway wm group) :
    Visits wm group s (s.step env .startupSuspendTimeout) := by
  by_cases runs : s.startupSuspendTimeoutTimer
  · simp only [step,runs,if_true]
    have stopped : ({ s with startupSuspendTimeoutTimer := false } : Server).Underway wm group :=
      underway.of_script rfl rfl rfl (by simp)
    exact (stopped.resumeStartupInternal env (underway.ready runs)).before rfl rfl
  · have unmoved : s.step env .startupSuspendTimeout = s := by simp [step,runs]
    rw [unmoved]
    exact .quiet underway (.refl s)

theorem step_visits (env : Env) (underway : s.Underway wm group) (phase : 0 < rank s.state) {event : Event}
    (startup : event.ofStartup) (stays : event ≠ .wmProcessChange true) : Visits wm group s (s.step env event) := by
  cases event with
  | wmProcessChange notRunning =>
    cases notRunning with
    | true => exact absurd rfl stays
    | false => exact .quiet underway (.of_course (by simp [step,wmProcessChange]))
  | autoStartDone phase => exact autoStartDone_visits env underway phase
  | kcmPhase1Done =>
    simp only [step]
    split
    · exact .quiet underway (kcmPhase1Done_quiet s)
    · exact .quiet underway (.refl s)
  | kcmPhase2Done =>
    simp only [step]
    split
    · exact .quiet underway (kcmPhase2Done_quiet s)
    · exact .quiet underway (.refl s)
  | suspendStartup app => exact .quiet underway ⟨rfl,inl ⟨rfl,rfl,fun _ _ => rfl⟩⟩
  | resumeStartup app => exact underway.resumeStartup env app
  | newClient => exact .quiet underway (.of_course rfl)
  | registerClient conn previousId generated => exact registerClient_visits underway phase conn previousId generated
  | setProperty conn property => exact .quiet underway (setProperty_quiet s conn property)
  | deleteProperty conn property => exact .quiet underway (.of_course rfl)
  | saveYourselfDone conn => exact .quiet underway (.of_course (saveYourselfDone_course env phase conn))
  | deleteClient conn => exact .quiet underway (.of_course (deleteClient_course env phase conn))
  | shot slot =>
    simp only [step]
    split
    · have made := callSlot_quiet (s := { s with shots := s.shots.erase slot }) phase slot
      exact (Visits.quiet (underway.of_script rfl rfl rfl id) made).before rfl rfl
    · exact .quiet underway (.refl s)
  | protectionTimeout => exact .quiet underway (.of_course (protectionTimeout_course env phase))
  | restoreTimeout => exact restoreTimeout_visits env underway phase
  | startupSuspendTimeout => exact startupSuspendTimeout_visits env underway
  | _ => simp [Event.ofStartup] at startup

theorem run_visits {events : List (Env × Event)}
    (startup : ∀ e ∈ events, e.2.ofStartup ∧ e.2 ≠ .wmProcessChange true) (phased : s.Phased) (underway : s.Underway wm group) :
    (s.run events).Underway wm group ∧ s.lastAppStarted ≤ (s.run events).lastAppStarted ∧
      (visited group s events).map Prod.fst =
        List.range' (s.lastAppStarted+1) ((s.run events).lastAppStarted-s.lastAppStarted) ∧
      (s.run events).started = s.started++group.starts wm (visited group s events) := by
  induction events generalizing s with
  | nil => exact ⟨underway,Nat.le_refl _,by simp [visited,run],by simp [visited,run,Group.starts]⟩
  | cons head events ih =>
    obtain ⟨env,event⟩ := head
    obtain ⟨here,stays⟩ := startup _ (mem_cons_self ..)
    have visits := step_visits env underway phased.phase here stays
    have passes := step_passes env phased here
    obtain ⟨kept,forward,numbers,log⟩ := ih (fun e member => startup e (mem_cons_of_mem _ member)) passes.1
      visits.underway
    have first := visits.forward
    have same : s.run ((env,event) :: events) = (s.step env event).run events := rfl
    rw [same]
    refine ⟨kept,Nat.le_trans first forward,?_,?_⟩
    · have reached : ((s.step env event).run events).lastAppStarted-s.lastAppStarted =
          ((s.step env event).lastAppStarted-s.lastAppStarted)+
            (((s.step env event).run events).lastAppStarted-(s.step env event).lastAppStarted) := by
        simp only at first forward ⊢
        omega
      have start : s.lastAppStarted+1+((s.step env event).lastAppStarted-s.lastAppStarted) =
          (s.step env event).lastAppStarted+1 := by
        simp only at first
        omega
      rw [visited,map_append,numbers,visits_numbers,reached,← range'_append_1,start]
    · rw [log,visits.log,visited,Group.starts_append,append_assoc]

theorem autoStart2_goes (phase : s.state = Restoring) : s.autoStart2.restoreTimer = s.restoreTimer ∧
    (s.autoStart2.state = FinishingStartup ∨
      s.autoStart2.state = Restoring ∧ s.autoStart2.startupSuspendTimeoutTimer) := by
  unfold autoStart2 checkStartupSuspend
  rw [if_neg (not_not.mpr phase)]
  by_cases free : s.startupSuspendCount = []
  · rw [if_pos free]
    dsimp only
    split
    · exact ⟨rfl,inl rfl⟩
    · exact ⟨rfl,inl rfl⟩
  · rw [if_neg free]
    exact ⟨rfl,inr ⟨phase,rfl⟩⟩

theorem tryRestoreNext_goes (phase : s.state = Restoring) :
    (s.tryRestoreNext.state = Restoring ∧ s.tryRestoreNext.restoreTimer ∧
        s.lastAppStarted < s.tryRestoreNext.lastAppStarted) ∨
      (s.tryRestoreNext.restoreTimer = false ∧ (s.tryRestoreNext.state = FinishingStartup ∨
        s.tryRestoreNext.state = Restoring ∧ s.tryRestoreNext.startupSuspendTimeoutTimer)) := by
  rw [tryRestoreNext_eq (inl phase)]
  obtain ⟨k,_,_,some,reached,_⟩ := s.stopTimers.restoreLoop_visits (s.appsToStart-s.lastAppStarted)
  obtain ⟨_,_,_,loop⟩ := s.stopTimers.restoreLoop_frame (s.appsToStart-s.lastAppStarted)
  generalize s.stopTimers.restoreLoop (s.appsToStart-s.lastAppStarted) = r at *
  have state : r.1.state = Restoring := by rw [loop]; exact phase
  have restore : r.1.restoreTimer = r.2 := by
    rw [loop]
    simp [stopTimers]
  have last : r.1.lastAppStarted = s.lastAppStarted+k := reached
  cases early : r.2 with
  | true =>
    rw [early] at some restore
    rw [if_pos rfl]
    have positive := some rfl
    exact inl ⟨state,restore,by omega⟩
  | false =>
    rw [early] at restore
    rw [if_neg (by simp)]
    unfold restored
    dsimp only
    rw [if_pos (by exact state)]
    obtain ⟨same,goes⟩ := autoStart2_goes (s := { r.1 with appsToStart := 0, lastIdStarted := "" }) state
    exact inr ⟨same.trans restore,goes⟩

theorem timeout_goes (env : Env) (phase : s.state = Restoring) (timer : s.restoreTimer) :
    ((s.step env .restoreTimeout).state = Restoring ∧ (s.step env .restoreTimeout).restoreTimer ∧
        s.lastAppStarted < (s.step env .restoreTimeout).lastAppStarted) ∨
      ((s.step env .restoreTimeout).restoreTimer = false ∧ ((s.step env .restoreTimeout).state = FinishingStartup ∨
        (s.step env .restoreTimeout).state = Restoring ∧ (s.step env .restoreTimeout).startupSuspendTimeoutTimer)) := by
  simp only [step,timer,if_true]
  exact tryRestoreNext_goes (s := { s with restoreTimer := false }) phase

theorem timeout_finishes (env : Env) (underway : s.Underway wm group) (phase : s.state = Restoring)
    (stopped : (s.step env .restoreTimeout).restoreTimer = false)
    (goes : (s.step env .restoreTimeout).state = FinishingStartup ∨
      (s.step env .restoreTimeout).state = Restoring ∧ (s.step env .restoreTimeout).startupSuspendTimeoutTimer) :
    (s.step env .restoreTimeout).lastAppStarted = group.count := by
  have kept := (restoreTimeout_visits env underway (by simp [phase,rank])).underway
  rcases goes with finishing | ⟨state,_⟩
  · exact kept.late (by simp [finishing,rank])
  · exact (kept.done state stopped).2

theorem timeouts_finish (env : Env) {m : Nat} (underway : s.Underway wm group) (phase : s.state = Restoring)
    (timer : s.restoreTimer) (left : group.count-s.lastAppStarted ≤ m) :
    ∃ n ≤ m+1, (s.run (List.replicate n (env,.restoreTimeout))).lastAppStarted = group.count ∧
      ((s.run (List.replicate n (env,.restoreTimeout))).state = FinishingStartup ∨
        (s.run (List.replicate n (env,.restoreTimeout))).state = Restoring ∧
          (s.run (List.replicate n (env,.restoreTimeout))).startupSuspendTimeoutTimer) := by
  induction m generalizing s with
  | zero =>
    rcases timeout_goes env phase timer with ⟨state,runs,more⟩ | ⟨stopped,goes⟩
    · have bound := ((restoreTimeout_visits env underway (by simp [phase,rank])).underway.waits state runs).2.1
      omega
    · exact ⟨1,Nat.le_refl 1,timeout_finishes env underway phase stopped goes,goes⟩
  | succ m ih =>
    rcases timeout_goes env phase timer with ⟨state,runs,more⟩ | ⟨stopped,goes⟩
    · have visits := restoreTimeout_visits env underway (by simp [phase,rank])
      have bound := (visits.underway.waits state runs).2.1
      obtain ⟨n,le,finished⟩ := ih visits.underway state runs (by omega)
      exact ⟨n+1,Nat.succ_le_succ le,finished⟩
    · exact ⟨1,by omega,timeout_finishes env underway phase stopped goes,goes⟩

theorem storeClients_spec (env : Env) (s : Server) (cs : List Client) (group : Group) :
    (s.storeClients env cs group).count = group.count+(cs.filter (s.stores env)).length ∧
      (∀ n ≤ group.count, (s.storeClients env cs group).entry n = group.entry n) ∧
        ∀ i c, (cs.filter (s.stores env))[i]? = some c →
          (s.storeClients env cs group).entry (group.count+1+i) = s.entryOf c := by
  induction cs generalizing group with
  | nil => simp [storeClients]
  | cons c cs ih =>
    rw [storeClients]
    by_cases stores : s.stores env c
    · rw [if_pos stores,filter_cons_of_pos stores]
      obtain ⟨count,before,behind⟩ := ih
        { count := group.count+1, entry := fun n => if n = group.count+1 then s.entryOf c else group.entry n }
      refine ⟨?_,fun n le => ?_,fun i d found => ?_⟩
      · have total : _ = group.count+1+_ := count
        rw [total,length_cons]
        omega
      · rw [before n (Nat.le_succ_of_le le)]
        exact if_neg (by omega)
      · cases i with
        | zero =>
          cases found
          rw [before _ (Nat.le_refl _)]
          exact if_pos rfl
        | succ i =>
          have next := behind i d found
          rw [← next]
          congr 1
          simp only
          omega
    · rw [if_neg stores,filter_cons_of_neg stores]
      exact ih group

theorem storeClients_same (env : Env) (s : Server) (executed : List (List String)) (clients cs : List Client)
    (group : Group) : ({ s with executed := executed, clients := clients } : Server).storeClients env cs group =
      s.storeClients env cs group := by
  induction cs generalizing group with
  | nil => rfl
  | cons c cs ih =>
    simp only [storeClients,ih]
    rfl

theorem stores_iff (env : Env) (logout : s.state ≠ ClosingSubSession) (c : Client) :
    s.stores env c ↔ c.eligible env := by
  unfold stores Client.eligible
  simp only [logout,false_and,if_false]
  by_cases hint : c.restartStyleHint = SmRestartNever
  · simp [hint]
  · by_cases nothing : c.program = "" ∧ c.restartCommand = []
    · simp [hint,nothing]
    · by_cases excluded :
          env.toLower c.program ∈ env.excludeApps ∨ env.toLower (env.fileName c.program) ∈ env.excludeApps
      · rw [if_neg hint,if_neg nothing,if_pos excluded]
        exact ⟨(nomatch ·),fun ⟨_,_,name,file⟩ => absurd excluded (not_or.mpr ⟨name,file⟩)⟩
      · rw [if_neg hint,if_neg nothing,if_neg excluded]
        exact ⟨fun _ => ⟨hint,nothing,not_or.mp excluded⟩,fun _ => rfl⟩

theorem mem_wmFirst (identity : ∀ c ∈ s.clients, ∀ d ∈ s.clients, c.conn = d.conn → c = d) {c : Client}
    (member : c ∈ s.clients) : c ∈ s.wmFirst := by
  unfold wmFirst
  cases found : s.clients.find? fun (c : Client) => c.program = s.wm with
  | none => exact member
  | some w =>
    by_cases same : c.conn = w.conn
    · rw [identity c member w (mem_of_find?_eq_some found) same]
      exact mem_cons_self ..
    · refine mem_cons_of_mem _ (mem_filter.mpr ⟨member,?_⟩)
      simpa using same

theorem wmFirst_nodup (nodup : s.clients.Nodup) : s.wmFirst.Nodup := by
  unfold wmFirst
  cases found : s.clients.find? fun (c : Client) => c.program = s.wm with
  | none => exact nodup
  | some w =>
    refine nodup_cons.mpr ⟨?_,nodup.filter _⟩
    simp

/-- What is stored at a logout: the eligible clients, each under one number, and the window manager under the first. -/
structure Stored (env : Env) (s : Server) (group : Group) : Prop where
  entry : ∀ i, 1 ≤ i → i ≤ group.count → ∃ c ∈ s.clients, c.eligible env ∧ group.entry i = s.entryOf c
  once : ∀ c ∈ s.clients, c.eligible env → ∃! i, 1 ≤ i ∧ i ≤ group.count ∧ group.entry i = s.entryOf c
  first : ∀ c, (s.clients.find? fun (c : Client) => c.program = s.wm) = some c → c.eligible env →
    1 ≤ group.count ∧ group.entry 1 = s.entryOf c

/-- The group that `storeSession` writes. -/
theorem storeSession_group (env : Env) (logout : s.state ≠ ClosingSubSession) :
    ((s.storeSession env).config s.sessionGroup).count = (s.wmFirst.filter (s.stores env)).length ∧
      ∀ i c, (s.wmFirst.filter (s.stores env))[i]? = some c →
        ((s.storeSession env).config s.sessionGroup).entry (i+1) = s.entryOf c := by
  have written : (s.storeSession env).config s.sessionGroup = s.storeClients env s.wmFirst .empty := by
    dsimp only [storeSession]
    generalize (filterMap _ _) = discarded
    obtain ⟨executed,state⟩ := s.executeCommands_frame discarded
    rw [state]
    simp only [ne_eq,logout,not_false_eq_true,if_true]
    exact s.storeClients_same env executed s.wmFirst s.wmFirst .empty
  obtain ⟨count,_,entries⟩ := s.storeClients_spec env s.wmFirst .empty
  rw [written]
  refine ⟨?_,fun i c found => ?_⟩
  · rw [count]
    exact Nat.zero_add _
  · rw [← entries i c found]
    congr 1
    exact Nat.add_comm ..

theorem storeSession_stored (env : Env) (identity : ∀ c ∈ s.clients, ∀ d ∈ s.clients, c.conn = d.conn → c = d)
    (distinct : (s.clients.map Client.clientId).Nodup) (logout : s.state ≠ ClosingSubSession) :
    Stored env s ((s.storeSession env).config s.sessionGroup) := by
  obtain ⟨count,entries⟩ := storeSession_group env logout
  generalize (s.storeSession env).config s.sessionGroup = group at *
  have nodup : (s.wmFirst.filter (s.stores env)).Nodup := (wmFirst_nodup distinct.of_map).filter _
  have kept {i : Nat} {c : Client} (found : (s.wmFirst.filter (s.stores env))[i]? = some c) :
      c ∈ s.clients ∧ c.eligible env := by
    obtain ⟨member,stores⟩ := mem_filter.mp (mem_of_getElem? found)
    exact ⟨wmFirst_mem member,(stores_iff env logout c).mp stores⟩
  have numbered {i : Nat} (first : 1 ≤ i) (last : i ≤ group.count) :
      ∃ c, (s.wmFirst.filter (s.stores env))[i-1]? = some c ∧ group.entry i = s.entryOf c := by
    have bound : i-1 < (s.wmFirst.filter (s.stores env)).length := by omega
    refine ⟨_,getElem?_eq_getElem bound,?_⟩
    rw [← entries (i-1) _ (getElem?_eq_getElem bound),Nat.sub_add_cancel first]
  refine ⟨fun i first last => ?_,fun c member eligible => ?_,fun c found eligible => ?_⟩
  · obtain ⟨c,found,entry⟩ := numbered first last
    exact ⟨c,(kept found).1,(kept found).2,entry⟩
  · have within : c ∈ s.wmFirst.filter (s.stores env) :=
      mem_filter.mpr ⟨mem_wmFirst identity member,(stores_iff env logout c).mpr eligible⟩
    obtain ⟨k,found⟩ := mem_iff_getElem?.mp within
    have bound : k < group.count := by
      rw [count]
      exact (List.getElem?_eq_some_iff.mp found).1
    refine ⟨k+1,⟨by omega,by omega,entries k c found⟩,fun i ⟨first,last,entry⟩ => ?_⟩
    obtain ⟨d,other,entry'⟩ := numbered first last
    have ids : d.clientId = c.clientId := congrArg Entry.clientId (entry'.symm.trans entry)
    obtain rfl := List.inj_on_of_nodup_map distinct (kept other).1 member ids
    have same := (List.getElem?_inj (List.getElem?_eq_some_iff.mp other).1 nodup).mp (other.trans found.symm)
    omega
  · have front : s.wmFirst.filter (s.stores env) =
        c :: (s.clients.filter fun (d : Client) => d.conn ≠ c.conn).filter (s.stores env) := by
      rw [wmFirst,found,filter_cons_of_pos ((stores_iff env logout c).mpr eligible)]
    rw [front] at count entries
    exact ⟨by rw [count,length_cons]; omega,entries 0 c rfl⟩

/-- What the restoring of a group has done in a run from `start` to `s`, where the numbers in `visited` have been
visited. -/
structure Restored (group : Group) (start s : Server) (visited : List (Nat × Bool)) : Prop where
  order : visited.map Prod.fst = List.range' 1 s.lastAppStarted
  bound : s.lastAppStarted ≤ group.count
  started : s.started = start.started++
    (visited.filter fun p => !p.2 && (group.entry p.1).runs).map fun p => (group.entry p.1).app
  complete : 5 < rank s.state → s.lastAppStarted = group.count
  waits : s.state = Restoring → s.restoreTimer = false → s.lastAppStarted = group.count ∧ s.startupSuspendTimeoutTimer
  goesOn : s.state = Restoring → s.restoreTimer → ∀ env, ∃ n ≤ group.count+1,
    (s.run (List.replicate n (env,.restoreTimeout))).lastAppStarted = group.count ∧
      ((s.run (List.replicate n (env,.restoreTimeout))).state = FinishingStartup ∨
        (s.run (List.replicate n (env,.restoreTimeout))).state = Restoring ∧
          (s.run (List.replicate n (env,.restoreTimeout))).startupSuspendTimeoutTimer)
  once : s.entered.count FinishingStartup = if 5 < rank s.state then 1 else 0

theorem Stored.restarts {env : Env} (stored : Stored env s group) {i : Nat} (first : 1 ≤ i) (last : i ≤ group.count) :
    (group.entry i).restarts s.wm = (group.entry i).runs := by
  obtain ⟨c,_,eligible,entry⟩ := stored.entry i first last
  rw [entry]
  by_cases manager : c.program = s.wm
  · simp [Entry.restarts,Entry.runs,entryOf,isWM,manager]
  · simp [Entry.restarts,Entry.runs,entryOf,isWM,manager,eligible.1]

theorem Stored.starts {env : Env} (stored : Stored env s group) {visited : List (Nat × Bool)} {last : Nat}
    (order : visited.map Prod.fst = List.range' 1 last) (bound : last ≤ group.count) :
    group.starts s.wm visited =
      (visited.filter fun p => !p.2 && (group.entry p.1).runs).map fun p => (group.entry p.1).app := by
  unfold Group.starts
  congr 1
  refine filter_congr fun p member => ?_
  have within : p.1 ∈ range' 1 last := order ▸ mem_map_of_mem member
  obtain ⟨first,least⟩ := mem_range'_1.mp within
  rw [stored.restarts first (by omega)]

theorem Underway.bound (underway : s.Underway wm group) (phase : 0 < rank s.state) :
    s.lastAppStarted ≤ group.count := by
  rcases rank_cases phase with state | before | after
  · cases timer : s.restoreTimer with
    | true => exact (underway.waits state timer).2.1
    | false => exact Nat.le_of_eq (underway.done state timer).2
  · rw [(underway.early before).2]
    exact Nat.zero_le _
  · exact Nat.le_of_eq (underway.late after)

theorem Ordered.once (ordered : s.Ordered) : s.entered.count FinishingStartup = if 5 < rank s.state then 1 else 0 := by
  rw [ordered.order]
  cases s.state <;> rfl

theorem launchWM_frame (s : Server) (commands : List (List String)) :
    ∃ started shots, s.launchWM commands = { s with started := started, shots := shots } := by
  unfold launchWM startApplication
  by_cases empty : commands.headD [] = []
  · rw [if_pos empty]
    exact ⟨s.started,_,rfl⟩
  · rw [if_neg empty]
    exact ⟨_,_,rfl⟩

theorem restoreSession_frame (idle : s.state = Idle) (name : String) :
    ∃ started shots, s.restoreSession name =
      { s with
        state := LaunchingWM, entered := s.entered++[LaunchingWM], sessionGroup := "Session: "++name
        appsToStart := (s.config ("Session: "++name)).count, klauncherSignals := [0,1,2]
        started := started, shots := shots } := by
  unfold restoreSession
  rw [if_neg (not_not.mpr idle)]
  exact launchWM_frame _ _

theorem restoreSession_underway {name : String} (idle : s.state = Idle) (manager : s.wm = wm)
    (begins : s.lastAppStarted = 0) (stored : s.config ("Session: "++name) = group) :
    (s.restoreSession name).Underway wm group ∧ (s.restoreSession name).lastAppStarted = 0 := by
  obtain ⟨started,shots,same⟩ := restoreSession_frame idle name
  rw [same]
  refine ⟨⟨stored,?_,manager,fun _ => ⟨congrArg Group.count stored,begins⟩,?_,?_,?_⟩,begins⟩
  · simp
  · exact fun state => nomatch state
  · exact fun state => nomatch state
  · exact fun late => absurd late (by simp [rank])

/-- A session that was stored at a logout is restored completely and once: the eligible clients have been numbered
without a gap, and at the next login with the same window manager the numbers are visited in order, and of those whose
clients are not connected the commands are started. The clients are told apart by their connections. -/
theorem session_restored (env : Env) (identity : ∀ c ∈ s.clients, ∀ d ∈ s.clients, c.conn = d.conn → c = d)
    (distinct : (s.clients.map Client.clientId).Nodup) (logout : s.state ≠ ClosingSubSession)
    (stored : group = (s.storeSession env).config s.sessionGroup) :
    Stored env s group ∧
    ∀ (wmCommands : List String) (config : String → Group) (counts : List (String × Nat)) (clients : List Client)
      (nextClient : Nat) (name : String) (start : Server) (events : List (Env × Event)),
      config ("Session: "++name) = group →
      start = ({ initial s.wm wmCommands config with
        startupSuspendCount := counts, clients := clients, nextClient := nextClient } : Server).restoreSession name →
      (∀ e ∈ events, e.2.ofStartup ∧ e.2 ≠ .wmProcessChange true) →
      Restored group start (start.run events) (visited group start events) := by
  have written : Stored env s group := stored ▸ storeSession_stored env identity distinct logout
  refine ⟨written,fun wmCommands config counts clients nextClient name start events held begins startup => ?_⟩
  obtain ⟨underway,zero⟩ : start.Underway s.wm group ∧ start.lastAppStarted = 0 := by
    rw [begins]
    exact restoreSession_underway rfl rfl rfl held
  have phased : start.Phased := by
    rw [begins]
    exact (start_phased rfl).1 name
  obtain ⟨after,_,numbers,log⟩ := run_visits startup phased underway
  have passed := (run_phased (fun e member => (startup e member).1) phased fun ended : false = true => (nomatch ended)).1
  rw [zero] at numbers
  have bound := after.bound passed.phase
  refine ⟨numbers,bound,?_,after.late,fun state stopped => ?_,fun state runs env => ?_,passed.toOrdered.once⟩
  · rw [log,written.starts numbers (by omega)]
  · refine ⟨(after.done state stopped).2,(passed.restores state).resolve_left (by simp [stopped])⟩
  · exact timeouts_finish env after state runs (Nat.sub_le ..)

/-- What is stored of a window manager and an application. -/
def twoStored : Group := (twoClients.storeSession .plain).config twoClients.sessionGroup

/-- The session manager which restores them. -/
def twoRestored : Server := (initial twoClients.wm ["kwin"] fun _ => twoStored).restoreSession "saved at previous logout"

/-- The phases up to the restoring, and the application that registers. -/
def twoEvents : List (Env × Event) :=
  [.shot .autoStart0,.autoStartDone 0,.kcmPhase1Done,.autoStartDone 1,.newClient,.registerClient 0 (some "a") "b"].map
    (Env.plain,·)

theorem session_restored_two :
    Restored twoStored twoRestored (twoRestored.run twoEvents) (visited twoStored twoRestored twoEvents) ∧
      (twoRestored.run twoEvents).started = [(["kwin"],"",""),(["app"],"","")] ∧
      (twoRestored.run twoEvents).state = FinishingStartup := by
  refine ⟨?_,by decide,by decide⟩
  exact (session_restored .plain (s := twoClients) (by decide) (by decide) (by decide) rfl).2 ["kwin"]
    (fun _ => twoStored) [] [] 0 "saved at previous logout" twoRestored twoEvents rfl rfl (by simp [twoEvents,Event.ofStartup])

end Server
end KdeWorkspace.SessionServer
