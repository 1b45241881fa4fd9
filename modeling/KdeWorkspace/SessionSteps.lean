import KdeWorkspace.SessionStartup
import Mathlib.Data.List.Nodup

/-!
What the functions of the session manager change, each said once.

The proofs about logouts, timers and interactions go through these lemmas: which clients there are after a
session has been stored, and what the end of the saving does in each of its states.
-/
namespace KdeWorkspace.SessionServer
open Or (inl inr)

open State

namespace Server

variable (env : Env) (s : Server)

/-- The states in which clients save. -/
def Saves : Prop := s.state = Shutdown ∨ s.state = Checkpoint ∨ s.state = ClosingSubSession

instance : Decidable s.Saves := by unfold Saves; infer_instance

theorem executeCommand_frame (command : List String) :
    ∃ executed, s.executeCommand command = { s with executed := executed } := by
  by_cases empty : command = []
  · exact ⟨s.executed,by simp [executeCommand,empty]⟩
  · exact ⟨s.executed++[command],by simp [executeCommand,empty]⟩

theorem executeCommands_frame (commands : List (List String)) :
    ∃ executed, commands.foldl executeCommand s = { s with executed := executed } := by
  induction commands generalizing s with
  | nil => exact ⟨s.executed,rfl⟩
  | cons command commands ih =>
    obtain ⟨first,one⟩ := s.executeCommand_frame command
    obtain ⟨rest,all⟩ := ih (s.executeCommand command)
    exact ⟨rest,by rw [List.foldl_cons,all,one]⟩

theorem discardSession_frame : ∃ executed, s.discardSession = { s with executed := executed } := by
  unfold discardSession
  generalize (s.clients.map Client.discardCommand) = commands
  generalize s.config s.sessionGroup = old
  induction commands generalizing s with
  | nil => exact ⟨s.executed,rfl⟩
  | cons command commands ih =>
    have one : ∃ executed, (if command = [] then s
        else if ∃ i ∈ List.range' 1 old.count, (old.entry i).discardCommand = command then s.executeCommand command
        else s) = { s with executed := executed } := by
      split
      · exact ⟨s.executed,rfl⟩
      · split
        · exact s.executeCommand_frame command
        · exact ⟨s.executed,rfl⟩
    obtain ⟨first,one⟩ := one
    obtain ⟨rest,all⟩ := ih { s with executed := first }
    exact ⟨rest,by rw [List.foldl_cons,one]; exact all⟩

theorem storeSession_frame : ∃ executed config, s.storeSession env =
    { s with
      executed := executed, config := config
      clients := if s.state ≠ ClosingSubSession then s.wmFirst else s.clients } := by
  dsimp only [storeSession]
  generalize (List.filterMap _ _) = discarded
  obtain ⟨executed,state⟩ := s.executeCommands_frame discarded
  rw [state]
  by_cases closing : s.state = ClosingSubSession
  · simp only [closing,ne_eq,not_true_eq_false,if_false]
    exact ⟨executed,_,rfl⟩
  · simp only [closing,ne_eq,not_false_eq_true,if_true]
    exact ⟨executed,_,rfl⟩

variable {s} in
theorem wmFirst_mem {c : Client} (member : c ∈ s.wmFirst) : c ∈ s.clients := by
  unfold wmFirst at member
  cases found : s.clients.find? fun (c : Client) => c.program = s.wm with
  | none => simpa [found] using member
  | some wm =>
    rw [found] at member
    rcases List.mem_cons.mp member with rfl | other
    · exact List.mem_of_find?_eq_some found
    · exact (List.mem_filter.mp other).1

theorem saveOrDiscard_frame : ∃ executed config clients, s.saveOrDiscard env =
      { s with executed := executed, config := config, clients := clients } ∧
    (clients = s.clients ∨ clients = s.wmFirst) := by
  unfold saveOrDiscard
  split
  · obtain ⟨executed,config,state⟩ := s.storeSession_frame env
    refine ⟨executed,config,_,state,?_⟩
    by_cases closing : s.state = ClosingSubSession
    · simp [closing]
    · simp [closing]
  · obtain ⟨executed,state⟩ := s.discardSession_frame
    exact ⟨executed,s.config,s.clients,state,inl rfl⟩

theorem startKillingSubSession_cases :
    (∃ sent, s.startKillingSubSession = { s with
      state := KillingSubSession, entered := s.entered++[KillingSubSession], sent := sent }) ∨
    ∃ sent entered, s.startKillingSubSession = { s with
      state := Idle, entered := entered, sent := sent, clientsToKill := [], clientsToSave := [] } := by
  simp only [startKillingSubSession,singleShot,Slot.declared,Bool.false_eq_true,if_false]
  generalize killing : (s.enter KillingSubSession).send (s.enter KillingSubSession).clientsToKill .Die = killed
  have state : killed.state = KillingSubSession := by simp [← killing,send,enter]
  by_cases waiting : killed.others killed.clientsToKill
  · exact inl ⟨killed.sent,by simp [completeKillingSubSession,state,waiting]; simp [← killing,send,enter]⟩
  · refine inr ⟨killed.sent,killed.entered++[Idle],?_⟩
    simp only [completeKillingSubSession,state,waiting,signalSubSessionClosed]
    simp [← killing,send,enter]

theorem completed_cases (saves : s.Saves) :
    ∃ executed config clients, (clients = s.clients ∨ clients = s.wmFirst) ∧
      ((s.state = Shutdown ∧ s.completed env = { s with
          executed := executed, config := config, clients := clients, shots := s.shots++[.logoutSoundTimeout]
          state := WaitingForKNotify, entered := s.entered++[WaitingForKNotify] }) ∨
        (s.state = Checkpoint ∧ s.completed env = { s with
          executed := executed, config := config, clients := clients
          sent := s.sent++clients.map fun (c : Client) => (c.conn,Message.SaveComplete)
          state := Idle, entered := s.entered++[Idle] }) ∨
        (s.state = ClosingSubSession ∧ s.completed env =
          { s with executed := executed, config := config, clients := clients }.startKillingSubSession)) := by
  obtain ⟨executed,config,clients,saved,same⟩ := s.saveOrDiscard_frame env
  refine ⟨executed,config,clients,same,?_⟩
  rcases saves with shutdown | checkpoint | closing
  · left
    exact ⟨shutdown,by simp [completed,saved,shutdown,singleShot,Slot.declared,enter]⟩
  · right; left
    exact ⟨checkpoint,by simp [completed,saved,checkpoint,send,enter,Function.comp_def]⟩
  · right; right
    exact ⟨closing,by simp [completed,saved,closing]⟩

theorem completeShutdownOrCheckpoint_cases :
    s.completeShutdownOrCheckpoint env = s ∨
      (s.Saves ∧ (∀ c ∈ s.pendingClients, c.busy = false) ∧
        ((s.phase2Clients ≠ [] ∧ s.completeShutdownOrCheckpoint env = s.askPhase2 s.phase2Clients) ∨
          (s.phase2Clients = [] ∧ s.completeShutdownOrCheckpoint env = s.completed env))) := by
  unfold completeShutdownOrCheckpoint
  split
  · exact inl rfl
  · rename_i saves
    split
    · exact inl rfl
    · rename_i answered
      right
      refine ⟨?_,?_,?_⟩
      · unfold Saves
        by_contra other
        exact saves (by simpa [not_or] using other)
      · intro c member
        by_contra busy
        exact answered (List.any_eq_true.mpr ⟨c,member,by simpa using busy⟩)
      · by_cases none : s.phase2Clients = []
        · exact inr ⟨none,by simp [none]⟩
        · exact inl ⟨none,by simp [none]⟩

theorem completeShutdownOrCheckpoint_busy (other : s.state ≠ ClosingSubSession) {c : Client} (member : c ∈ s.clients)
    (busy : c.busy) : s.completeShutdownOrCheckpoint env = s := by
  unfold completeShutdownOrCheckpoint
  split
  · rfl
  · rw [if_pos]
    simp only [pendingClients,other,if_false]
    exact List.any_eq_true.mpr ⟨c,member,busy⟩

/-- Nothing is saved or closed: the server is idle, starts up or restores a part of the session. -/
def calm : State → Bool
  | Idle | LaunchingWM | AutoStart0 | KcmInitPhase1 | AutoStart1 | Restoring | FinishingStartup => true
  | RestoringSubSession => true
  | _ => false

/-- The states after the clients have saved for a logout. -/
def leaving : State → Bool
  | WaitingForKNotify | Killing | KillingWM => true
  | _ => false

/-- The messages which grant an interaction. -/
def granted (s : Server) : List (Nat × Message) := s.sent.filter fun m => m.2 = .Interact

/-- The part of the server which has to do with the clients and the requests. -/
def part (s : Server) :=
  (s.clients,s.clientInteracting,s.protectionTimer,s.clientsToKill,s.clientsToSave,s.dialogActive,s.nextClient,
    s.pendingShutdown,s.pendingShutdown_confirm,s.pendingShutdown_sdtype,s.pendingShutdown_sdmode,s.granted)

/-- Only the startup, or the end of the session, goes on. -/
def Aside (s s' : Server) : Prop :=
  s'.part = s.part ∧ (s'.state = s.state ∨ (calm s.state ∧ calm s'.state) ∨ (leaving s.state ∧ leaving s'.state))

variable {s}

theorem Aside.refl (s : Server) : s.Aside s := ⟨rfl,inl rfl⟩

theorem not_calm_leaving {state : State} (quiet : calm state) : ¬leaving state := by
  cases state <;> simp [calm,leaving] at *

theorem Aside.trans {s t u : Server} (first : s.Aside t) (second : t.Aside u) : s.Aside u := by
  refine ⟨second.1.trans first.1,?_⟩
  rcases first.2 with same | ⟨quiet,next⟩ | ⟨leave,next⟩
  · simpa only [same] using second.2
  · rcases second.2 with same | ⟨_,last⟩ | ⟨leave,_⟩
    · exact inr (inl ⟨quiet,by simpa only [same] using next⟩)
    · exact inr (inl ⟨quiet,last⟩)
    · exact absurd leave (not_calm_leaving next)
  · rcases second.2 with same | ⟨quiet,_⟩ | ⟨_,last⟩
    · exact inr (inr ⟨leave,by simpa only [same] using next⟩)
    · exact absurd next (not_calm_leaving quiet)
    · exact inr (inr ⟨leave,last⟩)

theorem Aside.starts {s s' : Server} (part : s'.part = s.part) (before : calm s.state) (after : calm s'.state) :
    s.Aside s' := ⟨part,inr (inl ⟨before,after⟩)⟩

theorem Aside.singleShot {s t : Server} (first : s.Aside t) (slot : Slot) : s.Aside (t.singleShot slot) := by
  unfold Server.singleShot
  split
  · exact first.trans ⟨rfl,inl rfl⟩
  · exact first

theorem Aside.startApplication {s t : Server} (first : s.Aside t) (command : List String)
    (clientMachine userId : String) : s.Aside (t.startApplication command clientMachine userId) := by
  unfold Server.startApplication
  split
  · exact first
  · exact first.trans ⟨rfl,inl rfl⟩

theorem finishStartup_aside (s : Server) : s.Aside s.finishStartup := by
  unfold finishStartup
  split
  · exact .refl s
  · rename_i phase
    split
    · exact .refl s
    · exact .starts rfl (by simp [not_not.mp phase,calm]) rfl

theorem autoStart2Done_aside (s : Server) : s.Aside s.autoStart2Done := by
  unfold autoStart2Done
  split
  · exact .refl s
  · exact Aside.trans ⟨rfl,inl rfl⟩ (finishStartup_aside _)

theorem kcmPhase2Done_aside (s : Server) : s.Aside s.kcmPhase2Done := by
  unfold kcmPhase2Done
  split
  · exact .refl s
  · dsimp only
    split
    · exact Aside.trans ⟨rfl,inl rfl⟩ (finishStartup_aside _)
    · exact Aside.trans ⟨rfl,inl rfl⟩ (finishStartup_aside _)

theorem kcmPhase2Timeout_aside (s : Server) : s.Aside s.kcmPhase2Timeout := by
  unfold kcmPhase2Timeout
  split
  · exact .refl s
  · exact s.kcmPhase2Done_aside

theorem autoStart2_aside (s : Server) : s.Aside s.autoStart2 := by
  unfold autoStart2 checkStartupSuspend
  by_cases phase : s.state = Restoring
  · have starts : calm s.state := by simp [phase,calm]
    by_cases free : s.startupSuspendCount = []
    · rw [if_neg (not_not.mpr phase),if_pos free]
      dsimp only
      split
      · refine Aside.singleShot (.starts ?_ starts ?_) _ <;> rfl
      · refine Aside.singleShot (.starts ?_ starts ?_) _ <;> rfl
    · rw [if_neg (not_not.mpr phase),if_neg free]
      exact ⟨rfl,inl rfl⟩
  · simpa [phase] using Aside.refl s

theorem restoreLoop_frame (s : Server) (n : Nat) : ∃ lastAppStarted lastIdStarted started,
    (s.restoreLoop n).1 = { s with
      lastAppStarted := lastAppStarted, lastIdStarted := lastIdStarted, started := started
      restoreTimer := s.restoreTimer || (s.restoreLoop n).2 } := by
  induction n generalizing s with
  | zero => exact ⟨s.lastAppStarted,s.lastIdStarted,s.started,by simp [restoreLoop]⟩
  | succ n ih =>
    have start (command : List String) (clientMachine userId : String) :
        ∃ started, ({ s with lastAppStarted := s.lastAppStarted+1 } : Server).startApplication command clientMachine
          userId = { s with lastAppStarted := s.lastAppStarted+1, started := started } := by
      unfold startApplication
      split
      · exact ⟨s.started,rfl⟩
      · exact ⟨_,rfl⟩
    unfold restoreLoop
    dsimp only
    generalize (s.config s.sessionGroup).entry (s.lastAppStarted+1) = entry
    split
    · exact ih _
    · split
      · exact ih _
      · split
        · exact ih _
        · split
          · exact ih _
          · obtain ⟨started,state⟩ := start entry.restartCommand entry.clientMachine entry.userId
            rw [state]
            split
            · exact ⟨s.lastAppStarted+1,entry.clientId,started,by simp⟩
            · exact ih _

theorem restoreLoop_aside (n : Nat) : s.Aside (s.restoreLoop n).1 := by
  obtain ⟨_,_,_,state⟩ := s.restoreLoop_frame n
  rw [state]
  exact ⟨rfl,inl rfl⟩

theorem restoreLoop_state (s : Server) (n : Nat) : (s.restoreLoop n).1.state = s.state := by
  obtain ⟨_,_,_,state⟩ := s.restoreLoop_frame n
  rw [state]

/-- The timers are stopped before the loop. -/
def stopTimers (s : Server) : Server := { s with restoreTimer := false, startupSuspendTimeoutTimer := false }

/-- What follows once there is nothing more to start. -/
def restored (s : Server) : Server :=
  let s : Server := { s with appsToStart := 0, lastIdStarted := "" }
  if s.state = Restoring then s.autoStart2 else s.enter Idle

theorem tryRestoreNext_eq (phase : s.state = Restoring ∨ s.state = RestoringSubSession) :
    s.tryRestoreNext =
      if (s.stopTimers.restoreLoop (s.appsToStart-s.lastAppStarted)).2 then
        (s.stopTimers.restoreLoop (s.appsToStart-s.lastAppStarted)).1
      else (s.stopTimers.restoreLoop (s.appsToStart-s.lastAppStarted)).1.restored := by
  have restoring : ¬(s.state ≠ Restoring ∧ s.state ≠ RestoringSubSession) := by
    rcases phase with state | state <;> simp [state]
  unfold tryRestoreNext stopTimers
  rw [if_neg restoring]
  dsimp only
  generalize restoreLoop _ _ = result
  obtain ⟨t,early⟩ := result
  cases early <;> rfl

theorem restored_aside (phase : s.state = Restoring ∨ s.state = RestoringSubSession) : s.Aside s.restored := by
  unfold restored
  dsimp only
  split
  · exact Aside.trans ⟨rfl,inl rfl⟩ (autoStart2_aside _)
  · refine .starts rfl ?_ rfl
    rcases phase with state | state <;> simp [state,calm]

theorem tryRestoreNext_aside (s : Server) : s.Aside s.tryRestoreNext := by
  by_cases phase : s.state = Restoring ∨ s.state = RestoringSubSession
  · rw [tryRestoreNext_eq phase]
    have stopped : s.Aside s.stopTimers := ⟨rfl,inl rfl⟩
    have loop := stopped.trans (restoreLoop_aside (s.appsToStart-s.lastAppStarted))
    have state := s.stopTimers.restoreLoop_state (s.appsToStart-s.lastAppStarted)
    split
    · exact loop
    · refine loop.trans (restored_aside ?_)
      rwa [state]
  · have other := not_or.mp phase
    simpa [tryRestoreNext,other.1,other.2] using Aside.refl s

theorem clientRegistered_aside (s : Server) (previousId : Option String) : s.Aside (s.clientRegistered previousId) := by
  unfold clientRegistered
  split
  · exact s.tryRestoreNext_aside
  · exact .refl s

theorem autoStart1Done_aside (s : Server) : s.Aside s.autoStart1Done := by
  unfold autoStart1Done checkStartupSuspend
  by_cases phase : s.state = AutoStart1
  · have starts : calm s.state := by simp [phase,calm]
    by_cases free : s.startupSuspendCount = []
    · rw [if_neg (not_not.mpr phase),if_pos free]
      dsimp only
      have entered : s.Aside ({ s with
          klauncherSignals := s.klauncherSignals.filter (· ≠ 1), lastAppStarted := 0, lastIdStarted := "" }.enter
          Restoring) := .starts rfl starts rfl
      split
      · exact entered.trans (autoStart2_aside _)
      · exact entered.trans (tryRestoreNext_aside _)
    · rw [if_neg (not_not.mpr phase),if_neg free]
      exact ⟨rfl,inl rfl⟩
  · simpa [phase] using Aside.refl s

theorem kcmPhase1Done_aside (s : Server) : s.Aside s.kcmPhase1Done := by
  unfold kcmPhase1Done autoStart1
  by_cases phase : s.state = KcmInitPhase1
  · have starts : calm s.state := by simp [phase,calm]
    rw [if_neg (not_not.mpr phase)]
    dsimp only
    by_cases signals : s.kcminitSignals
    · rw [if_pos signals,if_neg (not_not.mpr phase)]
      exact .starts rfl starts rfl
    · rw [if_neg signals,if_neg (not_not.mpr phase)]
      exact .starts rfl starts rfl
  · simpa [phase] using Aside.refl s

theorem autoStart0Done_aside (env : Env) (s : Server) : s.Aside (s.autoStart0Done env) := by
  unfold autoStart0Done checkStartupSuspend
  by_cases phase : s.state = AutoStart0
  · have starts : calm s.state := by simp [phase,calm]
    by_cases free : s.startupSuspendCount = []
    · rw [if_neg (not_not.mpr phase),if_pos free]
      dsimp only
      split
      · refine Aside.singleShot (.starts ?_ starts ?_) _ <;> rfl
      · refine Aside.singleShot (.starts ?_ starts ?_) _ <;> rfl
    · rw [if_neg (not_not.mpr phase),if_neg free]
      exact ⟨rfl,inl rfl⟩
  · simpa [phase] using Aside.refl s

theorem autoStart0_aside (s : Server) : s.Aside s.autoStart0 := by
  unfold autoStart0 checkStartupSuspend
  by_cases phase : s.state = LaunchingWM
  · have starts : calm s.state := by simp [phase,calm]
    by_cases free : s.startupSuspendCount = []
    · rw [if_neg (not_not.mpr phase),if_pos free]
      dsimp only
      exact .starts rfl starts rfl
    · rw [if_neg (not_not.mpr phase),if_neg free]
      exact ⟨rfl,inl rfl⟩
  · simpa [phase] using Aside.refl s

theorem wmProcessChange_aside (s : Server) (notRunning : Bool) : s.Aside (s.wmProcessChange notRunning) := by
  unfold wmProcessChange launchWM
  split
  · exact .refl s
  · split
    · split
      · exact .refl s
      · refine Aside.singleShot (Aside.startApplication ?_ _ _ _) _
        exact ⟨rfl,inl rfl⟩
    · exact .refl s

theorem resumeStartupInternal_aside (env : Env) (s : Server) : s.Aside (s.resumeStartupInternal env) := by
  have cleared : s.Aside { s with startupSuspendCount := [] } := ⟨rfl,inl rfl⟩
  unfold resumeStartupInternal
  dsimp only
  split
  · exact cleared.trans (autoStart0_aside _)
  · exact cleared.trans (autoStart0Done_aside env _)
  · exact cleared.trans (autoStart1Done_aside _)
  · exact cleared.trans (autoStart2_aside _)
  · exact cleared

theorem resumeStartup_aside (env : Env) (s : Server) (app : String) : s.Aside (s.resumeStartup env app) := by
  unfold resumeStartup
  split
  · exact .refl s
  · split
    · dsimp only
      split
      · exact Aside.trans ⟨rfl,inl rfl⟩ (resumeStartupInternal_aside env _)
      · exact ⟨rfl,inl rfl⟩
    · exact ⟨rfl,inl rfl⟩

/-- `SmsDie` grants nothing. -/
theorem send_part (s : Server) (conns : List Nat) {message : Message} (other : message ≠ .Interact) :
    (s.send conns message).part = s.part := by
  have none : (conns.map (·,message)).filter (fun m => m.2 = Message.Interact) = [] := by
    refine List.filter_eq_nil_iff.mpr ?_
    intro m member
    obtain ⟨conn,_,rfl⟩ := List.mem_map.mp member
    simp [other]
  simp [part,granted,send,none]

theorem Aside.leaves {s t : Server} (part : t.part = s.part) (before : leaving s.state) (after : leaving t.state) :
    s.Aside t := ⟨part,inr (inr ⟨before,after⟩)⟩

theorem completeKillingWM_aside (s : Server) : s.Aside s.completeKillingWM := by
  unfold completeKillingWM killingCompleted
  split
  · split
    · exact ⟨rfl,inl rfl⟩
    · exact .refl s
  · exact .refl s

theorem killWM_aside (s : Server) : s.Aside s.killWM := by
  unfold killWM
  split
  · exact .refl s
  · rename_i phase
    have killing : leaving s.state := by simp [not_not.mp phase,leaving]
    have told (conns : List Nat) : s.Aside ((s.enter KillingWM).send conns .Die) :=
      .leaves (send_part _ _ (by simp)) killing rfl
    dsimp only
    split
    · exact ((told _).trans (completeKillingWM_aside _)).singleShot _
    · exact (told _).trans ⟨rfl,inl rfl⟩

theorem completeKilling_aside (s : Server) : s.Aside s.completeKilling := by
  unfold completeKilling
  split
  · split
    · exact .refl s
    · exact s.killWM_aside
  · exact .refl s

theorem logoutSoundFinished_aside (s : Server) : s.Aside s.logoutSoundFinished := by
  unfold logoutSoundFinished startKilling
  split
  · exact .refl s
  · rename_i phase
    have notified : leaving s.state := by simp [not_not.mp phase,leaving]
    have told (conns : List Nat) : s.Aside ((s.enter Killing).send conns .Die) :=
      .leaves (send_part _ _ (by simp)) notified rfl
    exact ((told _).trans (completeKilling_aside _)).singleShot _

theorem logoutSoundTimeout_aside (s : Server) : s.Aside s.logoutSoundTimeout := by
  unfold logoutSoundTimeout
  split
  · exact .refl s
  · exact s.logoutSoundFinished_aside

theorem deleteClient_keeps {env : Env} {conn : Nat} {P : Server → Prop} (here : P s) (removed : P (s.removeClient conn))
    (saved : P (s.removeClient conn) → P ((s.removeClient conn).completeShutdownOrCheckpoint env))
    (killed : ∀ t : Server, P t → P t.completeKilling) (closed : ∀ t : Server, P t → P t.completeKillingSubSession)
    (killedWM : ∀ t : Server, P t → P t.completeKillingWM) : P (s.deleteClient env conn) := by
  unfold deleteClient
  split
  · exact here
  · dsimp only
    generalize s.removeClient conn = t at removed saved ⊢
    have first : P (if t.state = Shutdown ∨ t.state = Checkpoint ∨ t.state = ClosingSubSession then
        t.completeShutdownOrCheckpoint env else t) := by
      split
      · exact saved removed
      · exact removed
    generalize (if t.state = Shutdown ∨ t.state = Checkpoint ∨ t.state = ClosingSubSession then
        t.completeShutdownOrCheckpoint env else t) = u at first ⊢
    have second : P (if u.state = Killing then u.completeKilling
        else if u.state = KillingSubSession then u.completeKillingSubSession else u) := by
      split
      · exact killed u first
      · split
        · exact closed u first
        · exact first
    generalize (if u.state = Killing then u.completeKilling
        else if u.state = KillingSubSession then u.completeKillingSubSession else u) = v at second ⊢
    split
    · exact killedWM v second
    · exact second

theorem restoreSession_aside (s : Server) (sessionName : String) : s.Aside (s.restoreSession sessionName) := by
  unfold restoreSession launchWM
  split
  · exact .refl s
  · rename_i phase
    refine Aside.singleShot (Aside.startApplication (.starts ?_ ?_ ?_) _ _ _) _
    · rfl
    · simp [not_not.mp phase,calm]
    · rfl

theorem startDefaultSession_aside (s : Server) : s.Aside s.startDefaultSession := by
  unfold startDefaultSession launchWM
  split
  · exact .refl s
  · rename_i phase
    refine Aside.singleShot (Aside.startApplication (.starts ?_ ?_ ?_) _ _ _) _
    · rfl
    · simp [not_not.mp phase,calm]
    · rfl

end Server

/-- The events of the startup and of the end of the session. -/
def Event.aside : Event → Bool
  | .restoreSession _ | .startDefaultSession | .wmProcessChange _ | .autoStartDone _ => true
  | .kcmPhase1Done | .kcmPhase2Done | .suspendStartup _ | .resumeStartup _ | .logoutSoundFinished => true
  | .shot slot => slot ≠ .signalSubSessionClosed
  | .restoreTimeout | .startupSuspendTimeout => true
  | _ => false

namespace Server

variable {s : Server}

theorem callSlot_aside (s : Server) {slot : Slot} (declared : slot ≠ .signalSubSessionClosed) :
    s.Aside (s.callSlot slot) := by
  cases slot with
  | signalSubSessionClosed => exact absurd rfl declared
  | logoutSoundTimeout => exact s.logoutSoundTimeout_aside
  | timeoutQuit => exact s.killWM_aside
  | timeoutWMQuit => exact ⟨rfl,inl rfl⟩
  | autoStart0 => exact s.autoStart0_aside
  | kcmPhase1Done => exact s.kcmPhase1Done_aside
  | kcmPhase1Timeout =>
    unfold callSlot kcmPhase1Timeout
    dsimp only
    split
    · exact .refl s
    · exact s.kcmPhase1Done_aside
  | kcmPhase2Done => exact s.kcmPhase2Done_aside
  | kcmPhase2Timeout => exact s.kcmPhase2Timeout_aside

theorem step_aside (env : Env) (s : Server) {event : Event} (aside : event.aside) : s.Aside (s.step env event) := by
  cases event with
  | restoreSession sessionName => exact s.restoreSession_aside sessionName
  | startDefaultSession => exact s.startDefaultSession_aside
  | wmProcessChange notRunning => exact s.wmProcessChange_aside notRunning
  | autoStartDone phase =>
    simp only [step]
    split
    · exact .refl s
    · split
      · exact s.autoStart0Done_aside env
      · exact s.autoStart1Done_aside
      · exact s.autoStart2Done_aside
  | kcmPhase1Done =>
    simp only [step]
    split
    · exact s.kcmPhase1Done_aside
    · exact .refl s
  | kcmPhase2Done =>
    simp only [step]
    split
    · exact s.kcmPhase2Done_aside
    · exact .refl s
  | suspendStartup app => exact ⟨rfl,inl rfl⟩
  | resumeStartup app => exact s.resumeStartup_aside env app
  | logoutSoundFinished => exact s.logoutSoundFinished_aside
  | shot slot =>
    simp only [step]
    split
    · have declared : slot ≠ .signalSubSessionClosed := by simpa [Event.aside] using aside
      exact Aside.trans ⟨rfl,inl rfl⟩ (callSlot_aside _ declared)
    · exact .refl s
  | restoreTimeout =>
    simp only [step]
    split
    · exact Aside.trans ⟨rfl,inl rfl⟩ (tryRestoreNext_aside _)
    · exact .refl s
  | startupSuspendTimeout =>
    simp only [step]
    split
    · exact Aside.trans ⟨rfl,inl rfl⟩ (resumeStartupInternal_aside env _)
    · exact .refl s
  | _ => simp [Event.aside] at aside

end Server
end KdeWorkspace.SessionServer
