import KdeWorkspace.LogoutSaves

/-!
That a silent client does not hold up a logout, or the closing of a part of the session.

While clients save for one of these, somebody has been granted an interaction or the protection timer runs:
every function which stops the timer grants an interaction, and the end of an interaction starts it again.
The timeout counts those who have not answered as done.
-/
namespace KdeWorkspace.SessionServer.Server
open List
open Or (inl inr)

open State

/-- The states which the protection timer is for from the beginning. -/
def Protects (s : Server) : Prop := s.state = Shutdown ∨ s.state = ClosingSubSession

instance (s : Server) : Decidable s.Protects := by unfold Protects; infer_instance

/-- Who interacts is connected, and while clients save somebody interacts or the timer runs. -/
structure Guarded (s : Server) : Prop where
  connected : ∀ conn, s.clientInteracting = some conn → conn ∈ s.clients.map Client.conn
  timed : s.Protects → s.clientInteracting.isSome ∨ s.protectionTimer

variable {s : Server}

theorem Guarded.change {s' : Server} (guarded : s.Guarded) (interacting : s'.clientInteracting = s.clientInteracting)
    (conns : ∀ conn ∈ s.clients.map Client.conn, conn ∈ s'.clients.map Client.conn)
    (timer : s.protectionTimer → s'.protectionTimer) (state : s'.Protects → s.Protects) : s'.Guarded := by
  refine ⟨?_,?_⟩
  · intro conn same
    exact conns conn (guarded.connected conn (interacting ▸ same))
  · intro saves
    rw [interacting]
    exact (guarded.timed (state saves)).imp_right timer

theorem calm_not_protects (quiet : calm s.state ∨ leaving s.state) : ¬s.Protects := by
  rintro (state | state) <;> simp [state,calm,leaving] at quiet

theorem Guarded.aside {s' : Server} (guarded : s.Guarded) (aside : s.Aside s') : s'.Guarded := by
  obtain ⟨part,state⟩ := aside
  simp only [Server.part,Prod.mk.injEq] at part
  obtain ⟨clients,interacting,timer,_⟩ := part
  refine guarded.change interacting (by simp [clients]) (by simp [timer]) ?_
  rcases state with same | ⟨_,quiet⟩ | ⟨_,quiet⟩
  · intro saves
    unfold Protects at *
    rwa [same] at saves
  · exact fun saves => absurd saves (calm_not_protects (inl quiet))
  · exact fun saves => absurd saves (calm_not_protects (inr quiet))

theorem update_guarded (guarded : s.Guarded) (conn : Nat) (change : Client → Client)
    (stays : ∀ c, (change c).conn = c.conn) : (s.update conn change).Guarded := by
  refine guarded.change rfl ?_ id id
  intro other member
  obtain ⟨c,inside,rfl⟩ := mem_map.mp member
  refine mem_map.mpr ⟨_,mem_map.mpr ⟨c,inside,rfl⟩,?_⟩
  split <;> simp [stays]

theorem send_guarded (guarded : s.Guarded) (conns : List Nat) (message : Message) : (s.send conns message).Guarded :=
  guarded.change rfl (fun _ member => member) id id

theorem wmFirst_conns {conn : Nat} (member : conn ∈ s.clients.map Client.conn) : conn ∈ s.wmFirst.map Client.conn := by
  unfold wmFirst
  cases found : s.clients.find? fun (c : Client) => c.program = s.wm with
  | none => exact member
  | some wm =>
    obtain ⟨c,inside,rfl⟩ := mem_map.mp member
    by_cases same : c.conn = wm.conn
    · exact mem_map.mpr ⟨wm,mem_cons_self,same.symm⟩
    · refine mem_map.mpr ⟨c,mem_cons_of_mem _ (mem_filter.mpr ⟨inside,by simpa using same⟩),rfl⟩

theorem completeShutdownOrCheckpoint_frame (env : Env) (s : Server) :
    (s.completeShutdownOrCheckpoint env).clientInteracting = s.clientInteracting ∧
      (∀ conn ∈ s.clients.map Client.conn, conn ∈ (s.completeShutdownOrCheckpoint env).clients.map Client.conn) ∧
      (s.completeShutdownOrCheckpoint env).protectionTimer = s.protectionTimer ∧
      ((s.completeShutdownOrCheckpoint env).Protects → s.Protects) := by
  rcases s.completeShutdownOrCheckpoint_cases env with state | ⟨saves,_,⟨_,state⟩ | ⟨_,state⟩⟩
  · rw [state]
    exact ⟨rfl,fun _ member => member,rfl,id⟩
  · rw [state]
    refine ⟨rfl,?_,rfl,id⟩
    intro conn member
    obtain ⟨c,inside,rfl⟩ := mem_map.mp member
    refine mem_map.mpr ⟨_,mem_map.mpr ⟨c,inside,rfl⟩,?_⟩
    split <;> rfl
  · rw [state]
    obtain ⟨executed,config,clients,same,cases⟩ := s.completed_cases env saves
    have conns : ∀ conn ∈ s.clients.map Client.conn, conn ∈ clients.map Client.conn := by
      rcases same with rfl | rfl
      · exact fun _ member => member
      · exact fun _ member => wmFirst_conns member
    rcases cases with ⟨_,ended⟩ | ⟨_,ended⟩ | ⟨closing,ended⟩
    · rw [ended]
      exact ⟨rfl,conns,rfl,by rintro (saves | saves) <;> cases saves⟩
    · rw [ended]
      exact ⟨rfl,conns,rfl,by rintro (saves | saves) <;> cases saves⟩
    · rw [ended]
      rcases startKillingSubSession_cases
        { s with executed := executed, config := config, clients := clients } with ⟨_,killing⟩ | ⟨_,_,killing⟩
      · rw [killing]
        exact ⟨rfl,conns,rfl,fun _ => inr closing⟩
      · rw [killing]
        exact ⟨rfl,conns,rfl,fun _ => inr closing⟩

theorem completeShutdownOrCheckpoint_guarded (env : Env) (guarded : s.Guarded) :
    (s.completeShutdownOrCheckpoint env).Guarded := by
  obtain ⟨interacting,conns,timer,state⟩ := s.completeShutdownOrCheckpoint_frame env
  exact guarded.change interacting conns (fun runs => timer ▸ runs) state

theorem handlePendingInteractions_guarded
    (connected : ∀ conn, s.clientInteracting = some conn → conn ∈ s.clients.map Client.conn) :
    s.handlePendingInteractions.Guarded := by
  unfold handlePendingInteractions
  split
  · rename_i interacting
    exact ⟨connected,fun _ => inl interacting⟩
  · split
    · exact ⟨connected,fun _ => inr rfl⟩
    · rename_i c found
      refine ⟨?_,fun _ => inl rfl⟩
      rintro conn same
      obtain rfl : c.conn = conn := Option.some.inj same
      refine mem_map.mpr ⟨_,mem_map.mpr ⟨c,mem_of_find?_eq_some found,rfl⟩,?_⟩
      simp

theorem startProtection_guarded
    (connected : ∀ conn, s.clientInteracting = some conn → conn ∈ s.clients.map Client.conn) :
    s.startProtection.Guarded := ⟨connected,fun _ => inr rfl⟩

theorem wmPhase1Finished_guarded (guarded : s.Guarded) : s.wmPhase1Finished.Guarded := by
  have counted : ({ s with wmPhase1WaitingCount := s.wmPhase1WaitingCount-1 } : Server).Guarded :=
    guarded.change rfl (fun _ member => member) id id
  unfold wmPhase1Finished
  dsimp only
  split
  · exact send_guarded counted _ _
  · exact counted

theorem cancelShutdown_guarded (s : Server) : s.cancelShutdown.Guarded := by
  unfold cancelShutdown
  dsimp only
  split
  · refine ⟨fun _ same => (by cases same),?_⟩
    rintro (saves | saves) <;> cases saves
  · obtain ⟨executed,state⟩ := executeCommands_frame ({ s with clientInteracting := none }.send
      (s.clients.map Client.conn) .ShutdownCancelled) ((s.clients.filter Client.saveYourselfDone).map Client.discardCommand)
    rw [state]
    refine ⟨fun _ same => (by cases same),?_⟩
    rintro (saves | saves) <;> cases saves

theorem removeClient_guarded (guarded : s.Guarded) (conn : Nat) : (s.removeClient conn).Guarded := by
  unfold removeClient
  dsimp only
  split
  · exact handlePendingInteractions_guarded fun _ same => nomatch same
  · rename_i other
    refine ⟨?_,guarded.timed⟩
    intro interacting same
    obtain ⟨c,inside,rfl⟩ := mem_map.mp (guarded.connected interacting same)
    refine mem_map.mpr ⟨c,mem_filter.mpr ⟨inside,?_⟩,rfl⟩
    have apart : c.conn ≠ conn := fun equal => other (equal ▸ same)
    simpa using apart

theorem signalSubSessionClosed_guarded (guarded : s.Guarded) : s.signalSubSessionClosed.Guarded := by
  unfold signalSubSessionClosed
  split
  · exact guarded
  · refine guarded.change rfl (fun _ member => member) id ?_
    rintro (saves | saves) <;> cases saves

theorem completeKillingSubSession_guarded (guarded : s.Guarded) : s.completeKillingSubSession.Guarded := by
  unfold completeKillingSubSession
  split
  · split
    · exact guarded
    · exact signalSubSessionClosed_guarded guarded
  · exact guarded

theorem deleteClient_guarded (env : Env) (guarded : s.Guarded) (conn : Nat) : (s.deleteClient env conn).Guarded := by
  refine deleteClient_keeps (P := Guarded) guarded (removeClient_guarded guarded conn) ?_ ?_ ?_ ?_
  · exact fun kept => completeShutdownOrCheckpoint_guarded env kept
  · exact fun t kept => kept.aside t.completeKilling_aside
  · exact fun t kept => completeKillingSubSession_guarded kept
  · exact fun t kept => kept.aside t.completeKillingWM_aside

theorem askClients_guarded (env : Env) (guarded : s.Guarded) (shutdown : Bool) (interactStyle : InteractStyle) :
    (s.askClients env shutdown interactStyle).Guarded := by
  have asked : (s.askFirst shutdown interactStyle).Guarded := by
    have reset : ({ s with
        clients := s.clients.map Client.resetState
        wmPhase1WaitingCount := (s.clients.filter s.isWM).length } : Server).Guarded := by
      refine guarded.change rfl ?_ id id
      intro conn member
      obtain ⟨c,inside,rfl⟩ := mem_map.mp member
      exact mem_map.mpr ⟨_,mem_map.mpr ⟨c,inside,rfl⟩,rfl⟩
    unfold askFirst
    dsimp only
    split
    · exact send_guarded reset _ _
    · exact send_guarded reset _ _
  unfold askClients
  dsimp only
  split
  · exact completeShutdownOrCheckpoint_guarded env asked
  · exact asked

theorem shutdownConfirmed_guarded (env : Env) (sdtype : ShutdownType) (sdmode : ShutdownMode) (bopt : String)
    (connected : ∀ conn, s.clientInteracting = some conn → conn ∈ s.clients.map Client.conn) :
    (s.shutdownConfirmed env sdtype sdmode bopt).Guarded := by
  unfold shutdownConfirmed
  dsimp only
  split
  · refine askClients_guarded env ?_ _ _
    exact ⟨connected,fun _ => inr rfl⟩
  · refine askClients_guarded env ?_ _ _
    exact ⟨connected,fun _ => inr rfl⟩

theorem saveCurrentSession_guarded (env : Env) (guarded : s.Guarded) : (s.saveCurrentSession env).Guarded := by
  unfold saveCurrentSession
  dsimp only
  split
  · exact guarded
  · refine askClients_guarded env ?_ _ _
    split
    · refine guarded.change rfl (fun _ member => member) id ?_
      rintro (saves | saves) <;> cases saves
    · refine guarded.change rfl (fun _ member => member) id ?_
      rintro (saves | saves) <;> cases saves

theorem shutdown_guarded (env : Env) (guarded : s.Guarded) (confirm : ShutdownConfirm) (sdtype : ShutdownType)
    (sdmode : ShutdownMode) : (s.shutdown env confirm sdtype sdmode).Guarded := by
  have kept {s' : Server} (same : s'.clientInteracting = s.clientInteracting ∧ s'.clients = s.clients ∧
      s'.protectionTimer = s.protectionTimer ∧ s'.state = s.state) : s'.Guarded := by
    refine guarded.change same.1 (by simp [same.2.1]) (by simp [same.2.2.1]) ?_
    unfold Protects
    rw [same.2.2.2]
    exact id
  unfold shutdown
  dsimp only
  split
  · exact kept ⟨rfl,rfl,rfl,rfl⟩
  · split
    · exact kept ⟨rfl,rfl,rfl,rfl⟩
    · split
      · split
        · exact kept ⟨rfl,rfl,rfl,rfl⟩
        · exact kept ⟨rfl,rfl,rfl,rfl⟩
      · split
        · exact kept ⟨rfl,rfl,rfl,rfl⟩
        · split
          · exact kept ⟨rfl,rfl,rfl,rfl⟩
          · have confirmed := shutdownConfirmed_guarded
              (s := { s with pendingShutdown := false, dialogActive := true }) env
              (if !maysd env then .None else if sdtype = .Default then env.shutdownType else sdtype)
              (if sdmode = .Default then .Interactive else sdmode) "" guarded.connected
            exact confirmed.change rfl (fun _ member => member) id id

theorem registerClient_guarded (guarded : s.Guarded) (conn : Nat) (previousId : Option String) (generated : String) :
    (s.registerClient conn previousId generated).Guarded := by
  simp only [registerClient]
  split
  · exact guarded
  · have named := update_guarded guarded conn (fun c => { c with id := some (previousId.getD generated) }) fun _ => rfl
    exact (send_guarded (send_guarded named _ _) _ _).aside (clientRegistered_aside _ _)

theorem setProperty_guarded (guarded : s.Guarded) (conn : Nat) (property : Property) :
    (s.setProperty conn property).Guarded := by
  have set := update_guarded guarded conn property.set property.set_conn
  simp only [setProperty,clientSetProgram]
  split
  · exact guarded
  · split
    · split
      · exact set.aside (autoStart0_aside _)
      · exact set
    · exact set

theorem saveYourselfDone_guarded (env : Env) (guarded : s.Guarded) (conn : Nat) :
    (s.saveYourselfDone env conn).Guarded := by
  simp only [saveYourselfDone]
  split
  · exact guarded
  · rename_i client _
    split
    · obtain ⟨executed,state⟩ := s.executeCommand_frame client.discardCommand
      rw [state]
      exact guarded.change rfl (fun _ member => member) id id
    · have saved := completeShutdownOrCheckpoint_guarded env
        (update_guarded guarded conn (fun c => { c with saveYourselfDone := true }) fun _ => rfl)
      have timed := startProtection_guarded saved.connected
      split
      · exact wmPhase1Finished_guarded timed
      · exact timed

theorem phase2Request_guarded (env : Env) (guarded : s.Guarded) (conn : Nat) : (s.phase2Request env conn).Guarded := by
  simp only [phase2Request]
  split
  · exact guarded
  · have saved := completeShutdownOrCheckpoint_guarded env
      (update_guarded guarded conn (fun c => { c with waitForPhase2 := true, wasPhase2 := true }) fun _ => rfl)
    split
    · exact wmPhase1Finished_guarded saved
    · exact saved

theorem interactRequest_guarded (guarded : s.Guarded) (conn : Nat) : (s.interactRequest conn).Guarded := by
  simp only [interactRequest]
  split
  · exact guarded
  · split
    · have marked := update_guarded guarded conn (fun c => { c with pendingInteraction := true }) fun _ => rfl
      exact handlePendingInteractions_guarded marked.connected
    · exact handlePendingInteractions_guarded (send_guarded guarded _ _).connected

theorem saveSubSession_guarded (env : Env) (guarded : s.Guarded) (name : String) (saveAndClose saveOnly : List String) :
    (s.saveSubSession env name saveAndClose saveOnly).Guarded := by
  simp only [saveSubSession]
  split
  · exact guarded
  · refine completeShutdownOrCheckpoint_guarded env (send_guarded ?_ _ _)
    refine ⟨?_,fun _ => inr rfl⟩
    intro conn same
    obtain ⟨c,inside,rfl⟩ := mem_map.mp (guarded.connected conn same)
    refine mem_map.mpr ⟨_,mem_map.mpr ⟨c,inside,rfl⟩,?_⟩
    split <;> rfl

theorem protectionTimeout_guarded (env : Env) (guarded : s.Guarded) :
    ({ s with protectionTimer := false }.protectionTimeout env).Guarded := by
  simp only [protectionTimeout]
  split
  · rename_i either
    refine ⟨guarded.connected,fun saves => ?_⟩
    rcases either with other | interacting
    · rcases saves with state | state
      · exact absurd state other.1
      · exact absurd state other.2.2
    · exact inl interacting
  · refine startProtection_guarded ?_
    obtain ⟨interacting,conns,_,_⟩ := completeShutdownOrCheckpoint_frame env { s with
      protectionTimer := false
      clients := s.clients.map fun (c : Client) => if c.busy then { c with saveYourselfDone := true } else c }
    intro conn same
    refine conns conn ?_
    obtain ⟨c,inside,rfl⟩ := mem_map.mp (guarded.connected conn (interacting.symm.trans same))
    refine mem_map.mpr ⟨_,mem_map.mpr ⟨c,inside,rfl⟩,?_⟩
    split <;> rfl

theorem step_guarded (env : Env) (guarded : s.Guarded) (event : Event) : (s.step env event).Guarded := by
  by_cases aside : event.aside
  · exact guarded.aside (s.step_aside env aside)
  · cases event with
    | newClient =>
      refine guarded.change rfl ?_ id id
      intro conn member
      simpa [step,newClient] using inl (mem_map.mp member)
    | registerClient conn previousId generated => exact registerClient_guarded guarded conn previousId generated
    | setProperty conn property => exact setProperty_guarded guarded conn property
    | deleteProperty conn property => exact update_guarded guarded conn _ property.cleared.set_conn
    | saveYourselfRequest conn saveType shutdown interactStyle fast global =>
      simp only [step,saveYourselfRequest]
      split
      · exact shutdown_guarded env guarded _ _ _
      · split
        · exact send_guarded (send_guarded guarded _ _) _ _
        · exact guarded
    | saveYourselfDone conn => exact saveYourselfDone_guarded env guarded conn
    | phase2Request conn => exact phase2Request_guarded env guarded conn
    | interactRequest conn => exact interactRequest_guarded guarded conn
    | interactDone conn cancel =>
      simp only [step,interactDone]
      split
      · exact guarded
      · split
        · exact cancelShutdown_guarded _
        · exact handlePendingInteractions_guarded fun _ same => by cases same
    | deleteClient conn => exact deleteClient_guarded env guarded conn
    | logout confirm sdtype sdmode => exact shutdown_guarded env guarded confirm sdtype sdmode
    | dialogAnswered answer =>
      simp only [step,dialogAnswered]
      split
      · exact guarded
      · split
        · exact guarded.change rfl (fun _ member => member) id id
        · rename_i sdtype bopt
          have confirmed := shutdownConfirmed_guarded env sdtype s.dialogMode bopt guarded.connected
          exact confirmed.change rfl (fun _ member => member) id id
    | saveCurrentSession => exact saveCurrentSession_guarded env guarded
    | saveCurrentSessionAs session =>
      simp only [step,saveCurrentSessionAs]
      split
      · exact guarded
      · exact saveCurrentSession_guarded env (guarded.change rfl (fun _ member => member) id id)
    | saveSubSession name saveAndClose saveOnly =>
      exact saveSubSession_guarded env guarded name saveAndClose saveOnly
    | restoreSubSession name =>
      refine Guarded.aside ?_ (tryRestoreNext_aside _)
      refine guarded.change rfl (fun _ member => member) id ?_
      rintro (saves | saves) <;> cases saves
    | protectionTimeout =>
      simp only [step]
      split
      · exact protectionTimeout_guarded env guarded
      · exact guarded
    | pendingShutdownTimeout =>
      simp only [step,pendingShutdownTimeout]
      split
      · exact shutdown_guarded env guarded _ _ _
      · exact guarded
    | shot slot =>
      have undeclared : slot = .signalSubSessionClosed := by simpa [Event.aside] using aside
      simp only [step,undeclared,callSlot]
      split
      · exact signalSubSessionClosed_guarded (guarded.change rfl (fun _ member => member) id id)
      · exact guarded
    | _ => simp [Event.aside] at aside

theorem run_guarded (guarded : s.Guarded) (events : List (Env × Event)) : (s.run events).Guarded := by
  induction events generalizing s with
  | nil => exact guarded
  | cons head events ih => exact ih (step_guarded head.1 guarded head.2)

theorem initial_guarded (wm : String) (wmCommands : List String) (config : String → Group) :
    (initial wm wmCommands config).Guarded := by
  refine ⟨fun _ same => (by cases same),?_⟩
  rintro (saves | saves) <;> cases saves

/-- The clients when the time is up: whoever has not answered counts as done. -/
def timedOut (s : Server) : Server :=
  { s with
    clients := s.clients.map fun (c : Client) => if c.busy then { c with saveYourselfDone := true } else c }

theorem timedOut_settled {c : Client} (member : c ∈ s.timedOut.clients) : c.busy = false := by
  obtain ⟨d,_,rfl⟩ := mem_map.mp member
  by_cases busy : d.busy
  · rw [if_pos busy]
    rfl
  · rw [if_neg busy]
    simpa using busy

theorem timedOut_waits {c : Client} (member : c ∈ s.timedOut.clients) (notDone : ¬c.saveYourselfDone) :
    c ∈ s.clients := by
  obtain ⟨d,inside,rfl⟩ := mem_map.mp member
  by_cases busy : d.busy
  · simp [busy] at notDone
  · simpa [busy] using inside

/-- A client whose wait for the second phase has just ended by the message. -/
def SentPhase2 (s s' : Server) (c : Client) : Prop :=
  (∃ d ∈ s.clients, d.conn = c.conn ∧ d.waitForPhase2 ∧ ¬d.saveYourselfDone) ∧
    (c.conn,Message.SaveYourselfPhase2) ∈ s'.sent.drop s.sent.length

theorem complete_settled (env : Env) {c : Client} (member : c ∈ (s.timedOut.completeShutdownOrCheckpoint env).clients) :
    c.saveYourselfDone ∨ c.waitForPhase2 ∨ s.SentPhase2 (s.timedOut.completeShutdownOrCheckpoint env) c := by
  have settled {d : Client} (inside : d ∈ s.timedOut.clients) : d.saveYourselfDone ∨ d.waitForPhase2 := by
    have busy := timedOut_settled inside
    cases done : d.saveYourselfDone <;> simp_all [Client.busy]
  rcases s.timedOut.completeShutdownOrCheckpoint_cases env with state | ⟨saves,_,⟨_,state⟩ | ⟨_,state⟩⟩
  · rw [state] at member
    exact (settled member).imp_right inl
  · rw [state] at member ⊢
    obtain ⟨d,inside,rfl⟩ := mem_map.mp member
    by_cases asked : d.conn ∈ s.timedOut.phase2Clients
    · simp only [asked,if_true]
      by_cases done : d.saveYourselfDone
      · exact inl done
      · right; right
        refine ⟨⟨d,timedOut_waits inside done,rfl,(settled inside).resolve_left done,done⟩,?_⟩
        change _ ∈ (s.sent++_).drop s.sent.length
        rw [drop_left]
        exact mem_map.mpr ⟨d.conn,asked,rfl⟩
    · simp only [asked,if_false]
      exact (settled inside).imp_right inl
  · rw [state] at member ⊢
    obtain ⟨executed,config,clients,same,cases⟩ := s.timedOut.completed_cases env saves
    have stays {d : Client} (inside : d ∈ clients) : d ∈ s.timedOut.clients := by
      rcases same with rfl | rfl
      · exact inside
      · exact wmFirst_mem inside
    have inside : c ∈ clients := by
      rcases cases with ⟨_,ended⟩ | ⟨_,ended⟩ | ⟨_,ended⟩
      · simpa [ended] using member
      · simpa [ended] using member
      · rw [ended] at member
        rcases startKillingSubSession_cases
          { s.timedOut with executed := executed, config := config, clients := clients } with ⟨_,killing⟩ | ⟨_,_,killing⟩
        · simpa [killing] using member
        · simpa [killing] using member
    exact (settled (stays inside)).imp_right inl

/-- A silent client does not hold up the server: while clients save for a logout or the closing of a part of the
session, a connected client interacts or the timer runs; and where the time is up outside an interaction, nobody is
left who is neither done nor waiting, but those whose wait for the second phase it has just ended. -/
def Forced (s : Server) : Prop :=
  (s.Protects → (∃ c ∈ s.clients, s.clientInteracting = some c.conn) ∨ s.protectionTimer) ∧
    ∀ env, s.Saves → s.clientInteracting = none → ∀ c ∈ (s.protectionTimeout env).clients,
      c.saveYourselfDone ∨ c.waitForPhase2 ∨ s.SentPhase2 (s.protectionTimeout env) c

theorem run_forced (wm : String) (wmCommands : List String) (config : String → Group) (events : List (Env × Event)) :
    ((initial wm wmCommands config).run events).Forced := by
  have guarded := run_guarded (initial_guarded wm wmCommands config) events
  refine ⟨?_,?_⟩
  · intro saves
    refine (guarded.timed saves).imp_left fun interacting => ?_
    obtain ⟨conn,same⟩ := Option.isSome_iff_exists.mp interacting
    obtain ⟨c,member,rfl⟩ := mem_map.mp (guarded.connected conn same)
    exact ⟨c,member,same⟩
  · intro env saves quiet c member
    have applies : ¬((((initial wm wmCommands config).run events).state ≠ Shutdown ∧
        ((initial wm wmCommands config).run events).state ≠ Checkpoint ∧
        ((initial wm wmCommands config).run events).state ≠ ClosingSubSession) ∨
        ((initial wm wmCommands config).run events).clientInteracting.isSome) := by
      rw [quiet]
      rintro (other | interacting)
      · rcases saves with state | state | state
        · exact other.1 state
        · exact other.2.1 state
        · exact other.2.2 state
      · cases interacting
    unfold protectionTimeout at member ⊢
    rw [if_neg applies] at member ⊢
    exact complete_settled env member

/-- No timer is active and no single shot has been made. -/
def Untimed (s : Server) : Prop :=
  s.protectionTimer = false ∧ s.restoreTimer = false ∧ s.startupSuspendTimeoutTimer = false ∧
    s.pendingShutdown = false ∧ s.shots = []

instance (s : Server) : Decidable s.Untimed := by unfold Untimed; infer_instance

/-- A checkpoint starts no timer, and the closing of a part of the session makes its last single shot for a function
that is no slot; and a client which waits for its second phase when the time is up is asked then. -/
theorem silent_clients_hang :
    let fresh := initial "kwin" ["kwin"] fun _ => .empty
    let checkpoint := fresh.run [(.plain,.newClient),(.plain,.saveCurrentSession)]
    let closed := fresh.run [(.plain,.newClient),(.plain,.registerClient 0 (some "a") ""),
      (.plain,.saveSubSession "x" ["a"] []),(.plain,.saveYourselfDone 0),(.plain,.protectionTimeout)]
    let timedOut := fresh.run [(.plain,.newClient),(.plain,.newClient),(.plain,.logout .No .None .Default),
      (.plain,.phase2Request 1),(.plain,.protectionTimeout)]
    (checkpoint.state = Checkpoint ∧ checkpoint.clientInteracting = none ∧ checkpoint.Untimed) ∧
      (closed.state = KillingSubSession ∧ closed.clientInteracting = none ∧ closed.Untimed) ∧
      timedOut.state = Shutdown ∧ ∃ c ∈ timedOut.clients, ¬c.saveYourselfDone ∧ ¬c.waitForPhase2 := by
  refine ⟨by decide,by decide,by decide⟩

end KdeWorkspace.SessionServer.Server
