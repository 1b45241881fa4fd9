import KdeWorkspace.LogoutSaves

/-!
The requests for a logout, a checkpoint and the saving or restoring of a part of the session.

A request that finds an operation in progress leaves it alone, but for the restoring of a part of the session,
which no guard keeps out, and a dialog that is answered in the middle of another operation. A logout which
comes during the startup is remembered, and stays so until it is started, unless a request with a dialog comes
in between or it is tried again while a part of the session is closed or restored.
-/
namespace KdeWorkspace.SessionServer
open Or (inr inl)

open State

/-- The states of a logout. -/
def ongoing : State → Bool
  | Shutdown | WaitingForKNotify | Killing | KillingWM => true
  | _ => false

/-- The operations that are no logout and come after the startup. -/
def between : State → Bool
  | Checkpoint | ClosingSubSession | KillingSubSession | RestoringSubSession => true
  | _ => false

structure Logout where
  confirm : ShutdownConfirm
  sdtype : ShutdownType
  sdmode : ShutdownMode
deriving DecidableEq, Repr

/-- A logout which needs no dialog, and which is not refused as unsupported. -/
def Logout.confirmed (env : Env) (logout : Logout) : Bool :=
  Server.logoutConfirmed env logout.confirm &&
    (Server.maysd env || logout.sdtype = .None || logout.sdtype = .Default)

namespace Server

/-- The logout which an event asks for. -/
def logoutRequest (s : Server) : Event → Option Logout
  | .logout confirm sdtype sdmode => some ⟨confirm,sdtype,sdmode⟩
  | .saveYourselfRequest _ _ true _ fast _ => some ⟨if fast then .No else .Default,.Default,.Default⟩
  | .pendingShutdownTimeout =>
    if s.pendingShutdown then some ⟨s.pendingShutdown_confirm,s.pendingShutdown_sdtype,s.pendingShutdown_sdmode⟩ else none
  | _ => none

/-- The requests from outside, the timer of a remembered logout and the answer of the dialog. -/
def isRequest : Event → Bool
  | .logout _ _ _ | .dialogAnswered _ | .pendingShutdownTimeout => true
  | .saveCurrentSession | .saveCurrentSessionAs _ | .saveSubSession _ _ _ | .restoreSubSession _ => true
  | _ => false

/-- The confirmed logout that is still to be started, after an event: it is over when a logout is under way. -/
def owe (env : Env) (s s' : Server) (owed : Option Logout) (event : Event) : Option Logout :=
  if ongoing s'.state then none
  else
    match s.logoutRequest event with
    | some logout => if logout.confirmed env ∧ ¬s.dialogActive then some logout else owed
    | none => owed

/-- What must be true of an event.

A part of the session is restored, and a dialog is answered with a logout, only where the server is idle. A logout
that is confirmed, or comes while one is owed, does not come while a checkpoint is made or a part of the session is
closed or restored; while one is owed it is confirmed too and no dialog is open. Nobody cancels while the clients of
a part of the session are killed. -/
def Excludes (env : Env) (s : Server) (owed : Option Logout) (event : Event) : Prop :=
  (∀ logout, s.logoutRequest event = some logout →
    ((logout.confirmed env ∧ ¬s.dialogActive) ∨ owed.isSome → ¬between s.state) ∧
      (owed.isSome → logout.confirmed env ∧ ¬s.dialogActive)) ∧
  match event with
  | .restoreSubSession _ => s.state = Idle
  | .dialogAnswered (some _) => s.dialogActive → s.state = Idle
  | .interactDone conn cancelShutdown =>
    s.clientInteracting = some conn → cancelShutdown → s.state = KillingSubSession →
      s.clientsToSave = [] ∧ s.clientsToKill = []
  | _ => True

/-- A run whose events meet that, from what is owed before it. -/
def AllExclude : Server → Option Logout → List (Env × Event) → Prop
  | _, _, [] => True
  | s, owed, (env,event) :: events =>
    s.Excludes env owed event ∧ AllExclude (s.step env event) (owe env s (s.step env event) owed event) events

def runOwed : Server → Option Logout → List (Env × Event) → Option Logout
  | _, owed, [] => owed
  | s, owed, (env,event) :: events => runOwed (s.step env event) (owe env s (s.step env event) owed event) events

/-- The remembered logout, as the server has it. -/
def remembered (s : Server) : Bool × ShutdownConfirm × ShutdownType × ShutdownMode :=
  (s.pendingShutdown,s.pendingShutdown_confirm,s.pendingShutdown_sdtype,s.pendingShutdown_sdmode)

/-- The lists of the clients to save and to kill are used only while a part of the session is closed. -/
def Listed (s : Server) : Prop :=
  s.state = ClosingSubSession ∨ s.state = KillingSubSession ∨ (s.clientsToSave = [] ∧ s.clientsToKill = [])

/-- The remembered logout stays, and the lists stay in their states. -/
structure Orderly (s s' : Server) : Prop where
  remembered : s'.remembered = s.remembered
  listed : s.Listed → s'.Listed

theorem Orderly.refl (s : Server) : s.Orderly s := ⟨rfl,id⟩

theorem Orderly.trans {s t u : Server} (first : s.Orderly t) (second : t.Orderly u) : s.Orderly u :=
  ⟨second.remembered.trans first.remembered,fun listed => second.listed (first.listed listed)⟩

variable {s : Server}

variable {s' : Server}

theorem Orderly.same (remembered : s'.remembered = s.remembered) (state : s'.state = s.state)
    (save : s'.clientsToSave = s.clientsToSave) (kill : s'.clientsToKill = s.clientsToKill) : s.Orderly s' := by
  refine ⟨remembered,?_⟩
  unfold Listed
  rw [state,save,kill]
  exact id

theorem Orderly.enters (remembered : s'.remembered = s.remembered)
    (apart : s.state ≠ ClosingSubSession ∧ s.state ≠ KillingSubSession)
    (save : s'.clientsToSave = s.clientsToSave) (kill : s'.clientsToKill = s.clientsToKill) : s.Orderly s' := by
  refine ⟨remembered,?_⟩
  intro listed
  obtain ⟨saves,kills⟩ := (listed.resolve_left apart.1).resolve_left apart.2
  exact inr (inr ⟨save.trans saves,kill.trans kills⟩)

theorem Orderly.cleared (remembered : s'.remembered = s.remembered) (save : s'.clientsToSave = [])
    (kill : s'.clientsToKill = []) : s.Orderly s' := ⟨remembered,fun _ => inr (inr ⟨save,kill⟩)⟩

theorem Aside.orderly (aside : s.Aside s') : s.Orderly s' := by
  obtain ⟨part,state⟩ := aside
  simp only [Server.part,Prod.mk.injEq] at part
  obtain ⟨_,_,_,kill,save,_,_,pending,confirm,sdtype,sdmode,_⟩ := part
  have same : s'.remembered = s.remembered := by simp [Server.remembered,pending,confirm,sdtype,sdmode]
  rcases state with state | ⟨quiet,_⟩ | ⟨leave,_⟩
  · exact .same same state save kill
  · refine .enters same ⟨?_,?_⟩ save kill
    · intro state
      simp [state,calm] at quiet
    · intro state
      simp [state,calm] at quiet
  · refine .enters same ⟨?_,?_⟩ save kill
    · intro state
      simp [state,leaving] at leave
    · intro state
      simp [state,leaving] at leave

theorem startKillingSubSession_orderly (s : Server) : s.Orderly s.startKillingSubSession := by
  rcases s.startKillingSubSession_cases with ⟨_,state⟩ | ⟨_,_,state⟩
  · rw [state]
    exact ⟨rfl,fun _ => inr (inl rfl)⟩
  · rw [state]
    exact .cleared rfl rfl rfl

theorem completeShutdownOrCheckpoint_orderly (env : Env) (s : Server) :
    s.Orderly (s.completeShutdownOrCheckpoint env) := by
  rcases s.completeShutdownOrCheckpoint_cases env with state | ⟨saves,_,⟨_,state⟩ | ⟨_,state⟩⟩
  · rw [state]
    exact .refl s
  · rw [state]
    exact .same rfl rfl rfl rfl
  · rw [state]
    obtain ⟨executed,config,clients,_,cases⟩ := s.completed_cases env saves
    rcases cases with ⟨shutdown,ended⟩ | ⟨checkpoint,ended⟩ | ⟨_,ended⟩
    · rw [ended]
      exact .enters rfl (by simp [shutdown]) rfl rfl
    · rw [ended]
      exact .enters rfl (by simp [checkpoint]) rfl rfl
    · have stored : s.Orderly { s with executed := executed, config := config, clients := clients } :=
        .same rfl rfl rfl rfl
      rw [ended]
      exact stored.trans (startKillingSubSession_orderly _)

theorem handlePendingInteractions_orderly (s : Server) : s.Orderly s.handlePendingInteractions := by
  obtain ⟨_,_,_,_,state,_⟩ := s.handlePendingInteractions_frame
  rw [state]
  exact .same rfl rfl rfl rfl

theorem startProtection_orderly (s : Server) : s.Orderly s.startProtection := .same rfl rfl rfl rfl

theorem wmPhase1Finished_orderly (s : Server) : s.Orderly s.wmPhase1Finished := by
  unfold wmPhase1Finished
  dsimp only
  split
  · exact .same rfl rfl rfl rfl
  · exact .same rfl rfl rfl rfl

theorem cancelShutdown_orderly
    (killing : s.state = KillingSubSession → s.clientsToSave = [] ∧ s.clientsToKill = []) :
    s.Orderly s.cancelShutdown := by
  unfold cancelShutdown
  dsimp only
  split
  · exact .cleared rfl rfl rfl
  · rename_i other
    obtain ⟨executed,state⟩ := executeCommands_frame ({ s with clientInteracting := none }.send
      (s.clients.map Client.conn) .ShutdownCancelled) ((s.clients.filter Client.saveYourselfDone).map Client.discardCommand)
    rw [state]
    by_cases kills : s.state = KillingSubSession
    · exact .cleared rfl (killing kills).1 (killing kills).2
    · exact .enters rfl ⟨other,kills⟩ rfl rfl

theorem signalSubSessionClosed_orderly (s : Server) : s.Orderly s.signalSubSessionClosed := by
  unfold signalSubSessionClosed
  split
  · exact .refl s
  · exact .cleared rfl rfl rfl

theorem completeKillingSubSession_orderly (s : Server) : s.Orderly s.completeKillingSubSession := by
  unfold completeKillingSubSession
  split
  · split
    · exact .refl s
    · exact s.signalSubSessionClosed_orderly
  · exact .refl s

theorem removeClient_orderly (s : Server) (conn : Nat) : s.Orderly (s.removeClient conn) := by
  have removed : s.Orderly { s with
      clients := s.clients.filter fun (c : Client) => c.conn ≠ conn
      clientsToKill := s.clientsToKill.filter (· ≠ conn)
      clientsToSave := s.clientsToSave.filter (· ≠ conn) } := by
    refine ⟨rfl,?_⟩
    rintro (closing | killing | ⟨save,kill⟩)
    · exact inl closing
    · exact inr (inl killing)
    · exact inr (inr ⟨by simp [save],by simp [kill]⟩)
  unfold removeClient
  dsimp only
  split
  · refine removed.trans (Orderly.trans ?_ (handlePendingInteractions_orderly _))
    exact .same rfl rfl rfl rfl
  · exact removed

theorem deleteClient_orderly (env : Env) (s : Server) (conn : Nat) : s.Orderly (s.deleteClient env conn) := by
  refine deleteClient_keeps (P := s.Orderly) (.refl s) (s.removeClient_orderly conn) ?_ ?_ ?_ ?_
  · exact fun kept => kept.trans (completeShutdownOrCheckpoint_orderly env _)
  · exact fun t kept => kept.trans t.completeKilling_aside.orderly
  · exact fun t kept => kept.trans t.completeKillingSubSession_orderly
  · exact fun t kept => kept.trans t.completeKillingWM_aside.orderly

theorem askClients_orderly (env : Env) (s : Server) (shutdown : Bool) (interactStyle : InteractStyle) :
    s.Orderly (s.askClients env shutdown interactStyle) := by
  have asked : s.Orderly (s.askFirst shutdown interactStyle) := by
    unfold askFirst
    dsimp only
    split
    · exact .same rfl rfl rfl rfl
    · exact .same rfl rfl rfl rfl
  unfold askClients
  dsimp only
  split
  · exact asked.trans (completeShutdownOrCheckpoint_orderly env _)
  · exact asked

theorem shutdownConfirmed_orderly (env : Env) (sdtype : ShutdownType) (sdmode : ShutdownMode) (bopt : String)
    (idle : s.state = Idle) : s.Orderly (s.shutdownConfirmed env sdtype sdmode bopt) := by
  unfold shutdownConfirmed
  dsimp only
  split
  · refine Orderly.trans (.enters ?_ ?_ ?_ ?_) (askClients_orderly env _ _ _)
    · rfl
    · simp [idle]
    · rfl
    · rfl
  · refine Orderly.trans (.enters ?_ ?_ ?_ ?_) (askClients_orderly env _ _ _)
    · rfl
    · simp [idle]
    · rfl
    · rfl

theorem saveCurrentSession_orderly (env : Env) (s : Server) : s.Orderly (s.saveCurrentSession env) := by
  unfold saveCurrentSession
  dsimp only
  split
  · exact .refl s
  · rename_i possible
    have idle : s.state = Idle := not_not.mp (not_or.mp possible).1
    split
    · refine Orderly.trans (.enters ?_ ?_ ?_ ?_) (askClients_orderly env _ _ _)
      · rfl
      · simp [idle]
      · rfl
      · rfl
    · refine Orderly.trans (.enters ?_ ?_ ?_ ?_) (askClients_orderly env _ _ _)
      · rfl
      · simp [idle]
      · rfl
      · rfl

theorem saveSubSession_orderly (env : Env) (s : Server) (name : String) (saveAndClose saveOnly : List String) :
    s.Orderly (s.saveSubSession env name saveAndClose saveOnly) := by
  simp only [saveSubSession]
  split
  · exact .refl s
  · refine Orderly.trans ⟨?_,?_⟩ (completeShutdownOrCheckpoint_orderly env _)
    · rfl
    · exact fun _ => inl rfl

theorem registerClient_orderly (s : Server) (conn : Nat) (previousId : Option String) (generated : String) :
    s.Orderly (s.registerClient conn previousId generated) := by
  simp only [registerClient]
  split
  · exact .refl s
  · refine Orderly.trans ?_ (clientRegistered_aside _ _).orderly
    exact .same rfl rfl rfl rfl

theorem setProperty_orderly (s : Server) (conn : Nat) (property : Property) :
    s.Orderly (s.setProperty conn property) := by
  have set : s.Orderly (s.update conn property.set) := .same rfl rfl rfl rfl
  simp only [setProperty,clientSetProgram]
  split
  · exact .refl s
  · split
    · split
      · exact set.trans (autoStart0_aside _).orderly
      · exact set
    · exact set

theorem saveYourselfDone_orderly (env : Env) (s : Server) (conn : Nat) : s.Orderly (s.saveYourselfDone env conn) := by
  simp only [saveYourselfDone]
  split
  · exact .refl s
  · rename_i client _
    split
    · obtain ⟨executed,state⟩ := s.executeCommand_frame client.discardCommand
      rw [state]
      exact .same rfl rfl rfl rfl
    · have marked : s.Orderly (s.update conn fun c => { c with saveYourselfDone := true }) := .same rfl rfl rfl rfl
      have saved := marked.trans (completeShutdownOrCheckpoint_orderly env _)
      have timed := saved.trans (startProtection_orderly _)
      split
      · exact timed.trans (wmPhase1Finished_orderly _)
      · exact timed

theorem phase2Request_orderly (env : Env) (s : Server) (conn : Nat) : s.Orderly (s.phase2Request env conn) := by
  simp only [phase2Request]
  split
  · exact .refl s
  · have marked : s.Orderly (s.update conn fun c => { c with waitForPhase2 := true, wasPhase2 := true }) :=
      .same rfl rfl rfl rfl
    have saved := marked.trans (completeShutdownOrCheckpoint_orderly env _)
    split
    · exact saved.trans (wmPhase1Finished_orderly _)
    · exact saved

theorem interactRequest_orderly (s : Server) (conn : Nat) : s.Orderly (s.interactRequest conn) := by
  simp only [interactRequest]
  split
  · exact .refl s
  · split
    · refine Orderly.trans ?_ (handlePendingInteractions_orderly _)
      exact .same rfl rfl rfl rfl
    · refine Orderly.trans ?_ (handlePendingInteractions_orderly _)
      exact .same rfl rfl rfl rfl

theorem saveCurrentSessionAs_orderly (env : Env) (s : Server) (session : String) :
    s.Orderly (s.saveCurrentSessionAs env session) := by
  simp only [saveCurrentSessionAs]
  split
  · exact .refl s
  · refine Orderly.trans ?_ (saveCurrentSession_orderly env _)
    exact .same rfl rfl rfl rfl

theorem protectionTimeout_orderly (env : Env) (s : Server) : s.Orderly (s.protectionTimeout env) := by
  simp only [protectionTimeout]
  split
  · exact .refl s
  · refine Orderly.trans ?_ (startProtection_orderly _)
    refine Orderly.trans ?_ (completeShutdownOrCheckpoint_orderly env _)
    exact .same rfl rfl rfl rfl

theorem ordinal_shutdown (state : State) : state.ordinal ≥ Shutdown.ordinal ↔ ongoing state ∨ between state := by
  cases state <;> simp [State.ordinal,ongoing,between]

theorem shutdown_dropped (env : Env) (logout : Logout) (busy : s.dialogActive ∨ ongoing s.state ∨ between s.state) :
    s.shutdown env logout.confirm logout.sdtype logout.sdmode = { s with pendingShutdown := false } := by
  unfold shutdown
  dsimp only
  rcases busy with dialog | later
  · rw [if_pos dialog]
  · split
    · rfl
    · rw [if_pos ((ordinal_shutdown _).mpr later)]

theorem shutdown_startup (env : Env) (logout : Logout) (quiet : ¬s.dialogActive) (startup : ¬ongoing s.state)
    (apart : ¬between s.state) (busy : s.state ≠ Idle) :
    s.shutdown env logout.confirm logout.sdtype logout.sdmode = { s with
      pendingShutdown := true, pendingShutdown_confirm := logout.confirm, pendingShutdown_sdtype := logout.sdtype
      pendingShutdown_sdmode := logout.sdmode } := by
  unfold shutdown
  dsimp only
  rw [if_neg quiet,if_neg (fun later => ((ordinal_shutdown _).mp later).elim startup apart),if_pos busy]
  rfl

theorem shutdown_started (env : Env) (logout : Logout) (confirmed : logout.confirmed env) (quiet : ¬s.dialogActive)
    (idle : s.state = Idle) : ∃ sdtype sdmode, s.shutdown env logout.confirm logout.sdtype logout.sdmode =
      { ({ s with pendingShutdown := false, dialogActive := true } : Server).shutdownConfirmed env sdtype sdmode "" with
        dialogActive := false } := by
  obtain ⟨yes,supported⟩ := Bool.and_eq_true_iff.mp confirmed
  have allowed : ¬(!maysd env ∧ logout.sdtype ≠ .None ∧ logout.sdtype ≠ .Default ∧ logoutConfirmed env logout.confirm) := by
    rintro ⟨forbidden,notNone,notDefault,_⟩
    simp_all
  have early : ¬s.state.ordinal ≥ Shutdown.ordinal := by simp [idle,State.ordinal]
  unfold shutdown
  dsimp only
  rw [if_neg quiet,if_neg early,if_neg (not_not.mpr idle),if_neg allowed,if_neg (by simp [yes])]
  exact ⟨_,_,rfl⟩

theorem shutdown_asks (env : Env) (logout : Logout) (other : ¬logout.confirmed env) (quiet : ¬s.dialogActive)
    (idle : s.state = Idle) :
    s.shutdown env logout.confirm logout.sdtype logout.sdmode = { s with pendingShutdown := false } ∨
      ∃ sdtype sdmode, s.shutdown env logout.confirm logout.sdtype logout.sdmode = { s with
        pendingShutdown := false, dialogActive := true, dialogType := sdtype, dialogMode := sdmode } := by
  have early : ¬s.state.ordinal ≥ Shutdown.ordinal := by simp [idle,State.ordinal]
  unfold shutdown
  dsimp only
  rw [if_neg quiet,if_neg early,if_neg (not_not.mpr idle)]
  split
  · exact inl rfl
  · rename_i allowed
    have asks : !logoutConfirmed env logout.confirm := by
      by_contra yes
      have confirmed : logoutConfirmed env logout.confirm := by simpa using yes
      simp only [Logout.confirmed,confirmed,Bool.true_and,Bool.or_eq_true,decide_eq_true_eq,not_or] at other
      exact allowed ⟨by simpa using other.1.1,other.1.2,other.2,confirmed⟩
    rw [if_pos asks]
    exact inr ⟨_,_,rfl⟩

theorem shutdownConfirmed_ongoing (env : Env) (s : Server) (sdtype : ShutdownType) (sdmode : ShutdownMode)
    (bopt : String) : ongoing (s.shutdownConfirmed env sdtype sdmode bopt).state := by
  have asks {t : Server} (shutdown : t.state = Shutdown) : ongoing (t.askClients env true .SmInteractStyleAny).state := by
    have state : (t.askFirst true .SmInteractStyleAny).state = Shutdown := by
      rw [← shutdown]
      unfold askFirst
      dsimp only
      split <;> rfl
    unfold askClients
    dsimp only
    split
    · rcases completeShutdownOrCheckpoint_cases env (t.askFirst true .SmInteractStyleAny) with
        same | ⟨saves,_,⟨_,same⟩ | ⟨_,same⟩⟩
      · simp [same,state,ongoing]
      · simp [same,askPhase2,Server.send,state,ongoing]
      · obtain ⟨_,_,_,_,cases⟩ := completed_cases env _ saves
        rcases cases with ⟨_,ended⟩ | ⟨other,_⟩ | ⟨other,_⟩
        · simp [same,ended,ongoing]
        · simp [state] at other
        · simp [state] at other
    · simp [state,ongoing]
  unfold shutdownConfirmed
  dsimp only
  split
  · exact asks rfl
  · exact asks rfl

/-- The logout which is owed is remembered, with what it was asked with. -/
def Remembers (s : Server) (owed : Option Logout) : Prop :=
  ∀ logout, owed = some logout → s.remembered = (true,logout.confirm,logout.sdtype,logout.sdmode)

/-- Nothing about the operation has changed. -/
structure Undisturbed (s s' : Server) : Prop where
  state : s'.state = s.state
  entered : s'.entered = s.entered
  clients : s'.clients = s.clients
  interacting : s'.clientInteracting = s.clientInteracting
  save : s'.clientsToSave = s.clientsToSave
  kill : s'.clientsToKill = s.clientsToKill
  sent : s'.sent = s.sent

theorem Undisturbed.refl (s : Server) : s.Undisturbed s := ⟨rfl,rfl,rfl,rfl,rfl,rfl,rfl⟩

theorem shutdown_undisturbed (env : Env) (logout : Logout) (busy : s.state ≠ Idle) :
    s.Undisturbed (s.shutdown env logout.confirm logout.sdtype logout.sdmode) := by
  by_cases dropped : s.dialogActive ∨ ongoing s.state ∨ between s.state
  · rw [shutdown_dropped env logout dropped]
    exact ⟨rfl,rfl,rfl,rfl,rfl,rfl,rfl⟩
  · obtain ⟨quiet,later⟩ := not_or.mp dropped
    obtain ⟨startup,apart⟩ := not_or.mp later
    rw [shutdown_startup env logout quiet startup apart busy]
    exact ⟨rfl,rfl,rfl,rfl,rfl,rfl,rfl⟩

variable {owed : Option Logout}

theorem request_undisturbed (env : Env) (s : Server) {event : Event} (request : isRequest event)
    (excludes : s.Excludes env owed event) (busy : s.state ≠ Idle) : s.Undisturbed (s.step env event) := by
  cases event with
  | logout confirm sdtype sdmode => exact shutdown_undisturbed env ⟨confirm,sdtype,sdmode⟩ busy
  | pendingShutdownTimeout =>
    simp only [step]
    split
    · exact shutdown_undisturbed env ⟨s.pendingShutdown_confirm,s.pendingShutdown_sdtype,s.pendingShutdown_sdmode⟩ busy
    · exact .refl s
  | dialogAnswered answer =>
    simp only [step,dialogAnswered]
    split
    · exact .refl s
    · rename_i active
      cases answer with
      | none => exact ⟨rfl,rfl,rfl,rfl,rfl,rfl,rfl⟩
      | some chosen => exact absurd (excludes.2 (by simpa using active)) busy
  | saveCurrentSession =>
    have same : s.saveCurrentSession env = s := by simp [saveCurrentSession,busy]
    simpa [step,same] using Undisturbed.refl s
  | saveCurrentSessionAs session =>
    have same : s.saveCurrentSessionAs env session = s := by simp [saveCurrentSessionAs,busy]
    simpa [step,same] using Undisturbed.refl s
  | saveSubSession name saveAndClose saveOnly =>
    have same : s.saveSubSession env name saveAndClose saveOnly = s := by simp [saveSubSession,busy]
    simpa [step,same] using Undisturbed.refl s
  | restoreSubSession name => exact absurd excludes.2 busy
  | _ => simp [isRequest] at request

theorem shutdown_excludes (env : Env) (logout : Logout) (listed : s.Listed)
    (apart : (logout.confirmed env ∧ ¬s.dialogActive) ∨ owed.isSome → ¬between s.state)
    (alike : owed.isSome → logout.confirmed env ∧ ¬s.dialogActive) :
    (s.shutdown env logout.confirm logout.sdtype logout.sdmode).Listed ∧
      (s.shutdown env logout.confirm logout.sdtype logout.sdmode).Remembers
        (if ongoing (s.shutdown env logout.confirm logout.sdtype logout.sdmode).state then none
          else if logout.confirmed env ∧ ¬s.dialogActive then some logout else owed) := by
  have listing {s' : Server} (state : s'.state = s.state) (save : s'.clientsToSave = s.clientsToSave)
      (kill : s'.clientsToKill = s.clientsToKill) : s'.Listed := by
    unfold Listed
    rw [state,save,kill]
    exact listed
  by_cases confirmed : logout.confirmed env ∧ ¬s.dialogActive
  · obtain ⟨yes,quiet⟩ := confirmed
    have notBetween := apart (inl ⟨yes,quiet⟩)
    by_cases idle : s.state = Idle
    · obtain ⟨sdtype,sdmode,started⟩ := shutdown_started env logout yes quiet idle
      rw [started]
      have orderly := shutdownConfirmed_orderly (s := { s with pendingShutdown := false, dialogActive := true })
        env sdtype sdmode "" idle
      refine ⟨orderly.listed listed,?_⟩
      intro owing same
      rw [if_pos (shutdownConfirmed_ongoing env _ sdtype sdmode "")] at same
      cases same
    · by_cases started : ongoing s.state
      · rw [shutdown_dropped env logout (inr (inl started))]
        refine ⟨listing rfl rfl rfl,?_⟩
        intro owing same
        rw [if_pos started] at same
        cases same
      · rw [shutdown_startup env logout quiet started notBetween idle]
        refine ⟨listing rfl rfl rfl,?_⟩
        intro owing same
        rw [if_neg started,if_pos ⟨yes,quiet⟩] at same
        rw [← Option.some.inj same]
        rfl
  · have nothing : owed = none := by
      by_contra some
      exact confirmed (alike (Option.isSome_iff_ne_none.mpr some))
    have forgets {t : Server} : t.Remembers
        (if ongoing t.state then none else if logout.confirmed env ∧ ¬s.dialogActive then some logout else owed) := by
      intro owing same
      rw [if_neg confirmed,nothing] at same
      split at same <;> cases same
    refine ⟨?_,forgets⟩
    by_cases dropped : s.dialogActive ∨ ongoing s.state ∨ between s.state
    · rw [shutdown_dropped env logout dropped]
      exact listing rfl rfl rfl
    · obtain ⟨quiet,later⟩ := not_or.mp dropped
      obtain ⟨startup,notBetween⟩ := not_or.mp later
      by_cases idle : s.state = Idle
      · rcases shutdown_asks env logout (fun yes => confirmed ⟨yes,quiet⟩) quiet idle with same | ⟨_,_,same⟩
        · rw [same]
          exact listing rfl rfl rfl
        · rw [same]
          exact listing rfl rfl rfl
      · rw [shutdown_startup env logout quiet startup notBetween idle]
        exact listing rfl rfl rfl

theorem Orderly.excludes (env : Env) {event : Event} (orderly : s.Orderly s')
    (other : s.logoutRequest event = none) (listed : s.Listed) (remembers : s.Remembers owed) :
    s'.Listed ∧ s'.Remembers (owe env s s' owed event) := by
  refine ⟨orderly.listed listed,?_⟩
  intro logout same
  rw [orderly.remembered]
  refine remembers logout ?_
  unfold owe at same
  rw [other] at same
  split at same
  · cases same
  · exact same

theorem step_excludes (env : Env) (event : Event) (excludes : s.Excludes env owed event)
    (listed : s.Listed) (remembers : s.Remembers owed) :
    (s.step env event).Listed ∧ (s.step env event).Remembers (owe env s (s.step env event) owed event) := by
  have keeps {s' : Server} (orderly : s.Orderly s') (other : s.logoutRequest event = none) :=
    orderly.excludes env other listed remembers
  by_cases aside : event.aside
  · refine keeps (s.step_aside env aside).orderly ?_
    cases event <;> first | rfl | simp [Event.aside] at aside
  · cases event with
    | newClient => exact keeps (.same rfl rfl rfl rfl) rfl
    | registerClient conn previousId generated =>
      exact keeps (s.registerClient_orderly conn previousId generated) rfl
    | setProperty conn property => exact keeps (s.setProperty_orderly conn property) rfl
    | deleteProperty conn property => exact keeps (.same rfl rfl rfl rfl) rfl
    | saveYourselfRequest conn saveType shutdown interactStyle fast global =>
      cases shutdown with
      | true =>
        obtain ⟨apart,alike⟩ := excludes.1 ⟨if fast then .No else .Default,.Default,.Default⟩ rfl
        exact shutdown_excludes env ⟨if fast then .No else .Default,.Default,.Default⟩ listed apart alike
      | false =>
        refine keeps ?_ rfl
        simp only [step,saveYourselfRequest,Bool.false_eq_true,if_false]
        split
        · exact .same rfl rfl rfl rfl
        · exact .refl s
    | saveYourselfDone conn => exact keeps (s.saveYourselfDone_orderly env conn) rfl
    | phase2Request conn => exact keeps (s.phase2Request_orderly env conn) rfl
    | interactRequest conn => exact keeps (s.interactRequest_orderly conn) rfl
    | interactDone conn cancel =>
      refine keeps ?_ rfl
      have answered : s.Orderly { s with clientInteracting := none } := .same rfl rfl rfl rfl
      simp only [step,interactDone]
      split
      · exact .refl s
      · rename_i interacting
        split
        · rename_i cancels
          exact answered.trans (cancelShutdown_orderly (excludes.2 (not_not.mp interacting) cancels))
        · exact answered.trans (handlePendingInteractions_orderly _)
    | deleteClient conn => exact keeps (s.deleteClient_orderly env conn) rfl
    | logout confirm sdtype sdmode =>
      obtain ⟨apart,alike⟩ := excludes.1 ⟨confirm,sdtype,sdmode⟩ rfl
      exact shutdown_excludes env ⟨confirm,sdtype,sdmode⟩ listed apart alike
    | dialogAnswered answer =>
      refine keeps ?_ rfl
      simp only [step,dialogAnswered]
      split
      · exact .refl s
      · rename_i active
        cases answer with
        | none => exact .same rfl rfl rfl rfl
        | some chosen =>
          have idle : s.state = Idle := excludes.2 (by simpa using active)
          refine (shutdownConfirmed_orderly env chosen.1 s.dialogMode chosen.2 idle).trans ?_
          exact .same rfl rfl rfl rfl
    | saveCurrentSession => exact keeps (s.saveCurrentSession_orderly env) rfl
    | saveCurrentSessionAs session => exact keeps (s.saveCurrentSessionAs_orderly env session) rfl
    | saveSubSession name saveAndClose saveOnly =>
      exact keeps (s.saveSubSession_orderly env name saveAndClose saveOnly) rfl
    | restoreSubSession name =>
      refine keeps ?_ rfl
      simp only [step,restoreSubSession]
      refine Orderly.trans (.enters ?_ ?_ ?_ ?_) (tryRestoreNext_aside _).orderly
      · rfl
      · have idle : s.state = Idle := excludes.2
        simp [idle]
      · rfl
      · rfl
    | protectionTimeout =>
      refine keeps ?_ rfl
      simp only [step]
      split
      · refine Orderly.trans ?_ (protectionTimeout_orderly env _)
        exact .same rfl rfl rfl rfl
      · exact .refl s
    | pendingShutdownTimeout =>
      by_cases pending : s.pendingShutdown
      · have request : s.logoutRequest .pendingShutdownTimeout =
            some ⟨s.pendingShutdown_confirm,s.pendingShutdown_sdtype,s.pendingShutdown_sdmode⟩ := by
          simp [logoutRequest,pending]
        obtain ⟨apart,alike⟩ := excludes.1 _ request
        have result := shutdown_excludes env
          ⟨s.pendingShutdown_confirm,s.pendingShutdown_sdtype,s.pendingShutdown_sdmode⟩ listed apart alike
        simpa only [step,pending,if_true,owe,request,pendingShutdownTimeout] using result
      · refine keeps ?_ (by simp [logoutRequest,pending])
        simpa [step,pending] using Orderly.refl s
    | shot slot =>
      refine keeps ?_ rfl
      have undeclared : slot = .signalSubSessionClosed := by simpa [Event.aside] using aside
      simp only [step,undeclared,callSlot]
      split
      · refine Orderly.trans ?_ (signalSubSessionClosed_orderly _)
        exact .same rfl rfl rfl rfl
      · exact .refl s
    | _ => simp [Event.aside] at aside

theorem run_excludes (s : Server) (events : List (Env × Event)) (owed : Option Logout) (listed : s.Listed)
    (remembers : s.Remembers owed) (exclude : s.AllExclude owed events) :
    (s.run events).Listed ∧ (s.run events).Remembers (runOwed s owed events) := by
  induction events generalizing s owed with
  | nil => exact ⟨listed,remembers⟩
  | cons head events ih =>
    obtain ⟨listed,remembers⟩ := step_excludes head.1 head.2 exclude.1 listed remembers
    exact ih _ _ listed remembers exclude.2

/-- Session operations exclude each other without losing a logout: no request disturbs an operation in progress, the
lists are empty in the idle state, and a logout which is owed is remembered with what it was asked with. -/
structure Excluding (s : Server) (owed : Option Logout) : Prop where
  undisturbed : ∀ env event, isRequest event → s.Excludes env owed event → s.state ≠ Idle →
    s.Undisturbed (s.step env event)
  empty : s.state = Idle → s.clientsToSave = [] ∧ s.clientsToKill = []
  remembered : s.Remembers owed

theorem run_excluding (wm : String) (wmCommands : List String) (config : String → Group)
    (events : List (Env × Event)) (exclude : (initial wm wmCommands config).AllExclude none events) :
    Excluding ((initial wm wmCommands config).run events) (runOwed (initial wm wmCommands config) none events) := by
  have listed : (initial wm wmCommands config).Listed := inr (inr ⟨rfl,rfl⟩)
  have remembers : (initial wm wmCommands config).Remembers none := fun _ same => by cases same
  obtain ⟨listed,remembers⟩ := run_excludes _ events none listed remembers exclude
  refine ⟨?_,?_,remembers⟩
  · exact fun env event request excludes busy => request_undisturbed env _ request excludes busy
  · intro idle
    rcases listed with closing | killing | empty
    · simp [idle] at closing
    · simp [idle] at killing
    · exact empty

theorem run_excluding_startup :
    let fresh := initial "kwin" ["kwin"] fun _ => .empty
    let events : List (Env × Event) := [(.plain,.startDefaultSession),(.plain,.logout .No .None .Default)]
    Excluding (fresh.run events) (runOwed fresh none events) := by
  refine run_excluding "kwin" ["kwin"] (fun _ => .empty) _ ⟨⟨?_,trivial⟩,⟨?_,trivial⟩,trivial⟩
  · exact fun _ same => by cases same
  · intro logout _
    exact ⟨fun _ => by decide,fun owing => absurd owing (by decide)⟩

/-- A part of the session that is restored takes the server out of a checkpoint, a confirmed logout that comes during a
checkpoint is neither started nor remembered, and the lists stay when a client cancels the killing. -/
theorem requests_collide :
    let fresh := initial "kwin" ["kwin"] fun _ => .empty
    let checkpoint := fresh.run [(.plain,.newClient),(.plain,.saveCurrentSession)]
    let asked := checkpoint.step .plain (.logout .No .None .Default)
    let killing := twoClients.run [(.plain,.saveSubSession "x" ["a"] []),(.plain,.interactRequest 0),
      (.plain,.saveYourselfDone 1),(.plain,.interactDone 0 true)]
    (checkpoint.state = Checkpoint ∧ (checkpoint.step .plain (.restoreSubSession "x")).state = Idle) ∧
      (asked.state = Checkpoint ∧ asked.pendingShutdown = false) ∧
      killing.state = Idle ∧ killing.clientsToKill ≠ [] := by
  refine ⟨by decide,by decide,by decide⟩

end Server
end KdeWorkspace.SessionServer
