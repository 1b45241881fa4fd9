import KdeWorkspace.SessionSteps

/-!
Who is asked to save at a logout or a checkpoint.

The window managers are asked first, and a counter says how many of them are still in their first phase; the
others are asked when it reaches zero. Either everybody has been asked, or the counter is at most the number
of the window managers which are connected and in their first phase. A window manager that goes away without
being counted down, a timeout before the others were asked, and answers from clients which were not asked
break this.
-/
namespace KdeWorkspace.SessionServer
open List Function Bool
open Or (inl inr)

open State

/-- A client of its first phase: it has neither finished nor asked for a second one. -/
def Client.inPhase1 (c : Client) : Bool := !c.saveYourselfDone && !c.wasPhase2

/-- A logout or a checkpoint of the whole session. -/
inductive Operation
  | shutdown (sdtype : ShutdownType) (sdmode : ShutdownMode) (bopt : String)
  | saveCurrentSession

/-- When an operation begins: a logout which has been confirmed does in any case. -/
def Operation.begins (s : Server) : Operation → Prop
  | .shutdown _ _ _ => True
  | .saveCurrentSession => s.state = Idle ∧ ¬s.dialogActive

def Operation.begin (env : Env) (s : Server) : Operation → Server
  | .shutdown sdtype sdmode bopt => s.shutdownConfirmed env sdtype sdmode bopt
  | .saveCurrentSession => s.saveCurrentSession env

def Event.ofClients : Event → Bool
  | .newClient | .registerClient _ _ _ | .setProperty _ _ | .deleteProperty _ _ => true
  | .saveYourselfDone _ | .phase2Request _ | .interactRequest _ | .interactDone _ _ => true
  | .deleteClient _ | .protectionTimeout => true
  | _ => false

namespace Server

def inOperation (s : Server) : Prop := s.state = Shutdown ∨ s.state = Checkpoint

instance (s : Server) : Decidable s.inOperation := by unfold inOperation; infer_instance

/-- What a client is sent in the operation. -/
def saveMessage (s : Server) : Message :=
  .SaveYourself s.saveType (s.saveType ≠ .SmSaveLocal)
    (if s.saveType ≠ .SmSaveLocal then .SmInteractStyleAny else .SmInteractStyleNone) false

/-- A client which was connected before the operation. -/
def Present (start : Server) (c : Client) : Prop := c.conn ∈ start.clients.map Client.conn

instance (start : Server) (c : Client) : Decidable (start.Present c) := by unfold Present; infer_instance

/-- A client has been sent the message since the operation began. -/
def Asked (start s : Server) (c : Client) : Prop := (c.conn,s.saveMessage) ∈ s.sent.drop start.sent.length

def AllAsked (start s : Server) : Prop := ∀ c ∈ s.clients, start.Present c → start.Asked s c

instance (start s : Server) : Decidable (start.AllAsked s) := by unfold AllAsked Asked; infer_instance

/-- A window manager that was there when the operation began and is in its first phase. -/
def leads (start s : Server) (c : Client) : Bool := start.Present c && s.isWM c && c.inPhase1

/-- The others have not been asked: some window manager is waited for. -/
def Waiting (start s : Server) : Prop :=
  s.inOperation ∧ 0 < s.wmPhase1WaitingCount ∧ ∃ c ∈ s.clients, start.Present c ∧ ¬s.isWM c

/-- What must be true of an event while the others have not been asked.

A client answers, or goes, while another one is still waited for; enough window managers stay for the count;
the time is not up; and nobody becomes or ceases to be the window manager. -/
def Meets (start s : Server) : Event → Prop
  | .saveYourselfDone conn => start.Waiting s → ∃ c ∈ s.clients, c.conn ≠ conn ∧ c.busy
  | .phase2Request conn => start.Waiting s → ∃ c ∈ s.clients, c.conn ≠ conn ∧ c.busy
  | .deleteClient conn =>
    start.Waiting s → s.wmPhase1WaitingCount ≤ (s.clients.filter fun c => c.conn ≠ conn).countP (start.leads s)
  | .protectionTimeout => start.Waiting s → s.clientInteracting.isSome
  | .setProperty conn property =>
    start.Waiting s → ∀ c ∈ s.clients, c.conn = conn → start.Present c → s.isWM (property.set c) = s.isWM c
  | .deleteProperty conn property =>
    start.Waiting s → ∀ c ∈ s.clients, c.conn = conn → start.Present c → s.isWM (property.cleared.set c) = s.isWM c
  | _ => True

/-- A client cancels the logout. -/
def cancels (s : Server) : Event → Prop
  | .interactDone conn cancelShutdown => s.clientInteracting = some conn ∧ cancelShutdown
  | _ => False

/-- A run of the operation while it lasts, whose events meet the condition. -/
def During (start : Server) : Server → List (Env × Event) → Prop
  | _, [] => True
  | s, (env,event) :: events =>
    s.inOperation ∧ event.ofClients ∧ start.Meets s event ∧ start.During (s.step env event) events

/-- What is later in an operation: messages are added, and a client is one of before or a new one. -/
structure Later (s s' : Server) : Prop where
  saveType : s'.saveType = s.saveType
  sent : s.sent <+: s'.sent
  nextClient : s.nextClient ≤ s'.nextClient
  clients : ∀ c' ∈ s'.clients, (∃ c ∈ s.clients, c.conn = c'.conn) ∨ s.nextClient ≤ c'.conn

theorem Later.refl (s : Server) : s.Later s := ⟨rfl,prefix_refl _,Nat.le_refl _,fun c member => inl ⟨c,member,rfl⟩⟩

theorem Later.trans {s t u : Server} (first : s.Later t) (second : t.Later u) : s.Later u := by
  refine ⟨second.saveType.trans first.saveType,first.sent.trans second.sent,
    Nat.le_trans first.nextClient second.nextClient,?_⟩
  intro c member
  rcases second.clients c member with ⟨d,inside,same⟩ | fresh
  · rcases first.clients d inside with ⟨e,before,equal⟩ | fresh
    · exact inl ⟨e,before,equal.trans same⟩
    · exact inr (same ▸ fresh)
  · exact inr (Nat.le_trans first.nextClient fresh)

theorem Later.of_map {s s' : Server} (saveType : s'.saveType = s.saveType) (sent : s.sent <+: s'.sent)
    (nextClient : s'.nextClient = s.nextClient)
    (clients : ∀ c' ∈ s'.clients, ∃ c ∈ s.clients, c.conn = c'.conn) : s.Later s' :=
  ⟨saveType,sent,nextClient ▸ Nat.le_refl _,fun c member => inl (clients c member)⟩

variable {start s s' : Server}

theorem Asked.later {c c' : Client} (later : s.Later s') (same : c.conn = c'.conn)
    (asked : start.Asked s c) : start.Asked s' c' := by
  obtain ⟨rest,grown⟩ := later.sent
  unfold Asked saveMessage at *
  rw [← grown,drop_append,later.saveType,← same]
  exact mem_append_left _ asked

/-- The numbers of the clients which were there are used up. -/
def Known (start s : Server) : Prop := ∀ conn ∈ start.clients.map Client.conn, conn < s.nextClient

theorem AllAsked.later (known : start.Known s) (later : s.Later s') (all : start.AllAsked s) : start.AllAsked s' := by
  intro c member present
  rcases later.clients c member with ⟨d,inside,same⟩ | fresh
  · exact (all d inside (by unfold Present at *; rwa [same])).later later same
  · exact absurd (known c.conn present) (by omega)

theorem Known.later (known : start.Known s) (later : s.Later s') : start.Known s' :=
  fun conn member => Nat.lt_of_lt_of_le (known conn member) later.nextClient

theorem update_later (s : Server) (conn : Nat) (f : Client → Client) (stays : ∀ c, (f c).conn = c.conn) :
    s.Later (s.update conn f) := by
  refine .of_map rfl (prefix_refl _) rfl ?_
  intro c' member
  obtain ⟨c,inside,rfl⟩ := mem_map.mp member
  refine ⟨c,inside,?_⟩
  split <;> simp [stays]

theorem send_later (s : Server) (conns : List Nat) (message : Message) : s.Later (s.send conns message) :=
  .of_map rfl (prefix_append _ _) rfl fun c member => ⟨c,member,rfl⟩

theorem startProtection_later (s : Server) : s.Later s.startProtection := ⟨rfl,prefix_refl _,Nat.le_refl _,
  fun c member => inl ⟨c,member,rfl⟩⟩

theorem wmPhase1Finished_later (s : Server) : s.Later s.wmPhase1Finished := by
  have counted : s.Later { s with wmPhase1WaitingCount := s.wmPhase1WaitingCount-1 } :=
    .of_map rfl (prefix_refl _) rfl fun c member => ⟨c,member,rfl⟩
  unfold wmPhase1Finished
  dsimp only
  split
  · exact counted.trans (send_later _ _ _)
  · exact counted

theorem completed_later (env : Env) (s : Server) (operation : s.inOperation) : s.Later (s.completed env) := by
  have saves : s.Saves := operation.elim inl fun checkpoint => inr (inl checkpoint)
  obtain ⟨executed,config,clients,same,cases⟩ := s.completed_cases env saves
  have stay : ∀ c ∈ clients, ∃ d ∈ s.clients, d.conn = c.conn := by
    intro c member
    rcases same with rfl | rfl
    · exact ⟨c,member,rfl⟩
    · exact ⟨c,wmFirst_mem member,rfl⟩
  rcases cases with ⟨_,state⟩ | ⟨_,state⟩ | ⟨closing,_⟩
  · rw [state]
    exact .of_map rfl (prefix_refl _) rfl stay
  · rw [state]
    exact .of_map rfl (prefix_append _ _) rfl stay
  · rcases operation with other | other <;> simp [other] at closing

theorem completeShutdownOrCheckpoint_later (env : Env) (s : Server) (operation : s.inOperation) :
    s.Later (s.completeShutdownOrCheckpoint env) := by
  rcases s.completeShutdownOrCheckpoint_cases env with state | ⟨_,_,⟨_,state⟩ | ⟨_,state⟩⟩
  · rw [state]
    exact .refl s
  · rw [state]
    refine .of_map rfl (prefix_append _ _) rfl ?_
    intro c' member
    obtain ⟨c,inside,rfl⟩ := mem_map.mp member
    refine ⟨c,inside,?_⟩
    split <;> rfl
  · rw [state]
    exact s.completed_later env operation

theorem handlePendingInteractions_frame (s : Server) : ∃ clientInteracting protectionTimer clients sent,
    s.handlePendingInteractions = { s with
      clientInteracting := clientInteracting, protectionTimer := protectionTimer
      clients := clients, sent := sent } ∧ s.sent <+: sent ∧
    ∃ conn : Option Nat, clients = s.clients.map fun c =>
      if some c.conn = conn then { c with pendingInteraction := false } else c := by
  unfold handlePendingInteractions
  split
  · exact ⟨_,_,_,_,rfl,prefix_refl _,none,by simp⟩
  · split
    · exact ⟨_,_,_,_,rfl,prefix_refl _,none,by simp⟩
    · rename_i c found
      exact ⟨_,_,_,_,rfl,prefix_append _ _,some c.conn,by simp [update,endProtection]⟩

theorem handlePendingInteractions_later (s : Server) : s.Later s.handlePendingInteractions := by
  obtain ⟨_,_,_,_,state,grown,conn,rfl⟩ := s.handlePendingInteractions_frame
  rw [state]
  refine .of_map rfl grown rfl ?_
  intro c' member
  obtain ⟨c,inside,rfl⟩ := mem_map.mp member
  refine ⟨c,inside,?_⟩
  split <;> rfl

theorem cancelShutdown_later (s : Server) : s.Later s.cancelShutdown := by
  unfold cancelShutdown
  dsimp only
  split
  · exact .of_map rfl (prefix_refl _) rfl fun c member => ⟨c,member,rfl⟩
  · obtain ⟨executed,state⟩ := executeCommands_frame ({ s with clientInteracting := none }.send
      (s.clients.map Client.conn) .ShutdownCancelled) ((s.clients.filter Client.saveYourselfDone).map Client.discardCommand)
    rw [state]
    exact .of_map rfl (prefix_append _ _) rfl fun c member => ⟨c,member,rfl⟩

theorem autoStart0_idle (s : Server) (other : s.state ≠ LaunchingWM) : s.autoStart0 = s := by simp [autoStart0,other]

theorem tryRestoreNext_idle (s : Server) (operation : s.inOperation) : s.tryRestoreNext = s := by
  rcases operation with state | state <;> simp [tryRestoreNext,state]

theorem setProperty_operation (s : Server) (conn : Nat) (property : Property) (operation : s.inOperation) :
    s.setProperty conn property = s ∨ s.setProperty conn property = s.update conn property.set := by
  have other : (s.update conn property.set).state ≠ LaunchingWM := by
    rcases operation with state | state <;> simp [update,state]
  unfold setProperty clientSetProgram
  split
  · exact inl rfl
  · right
    dsimp only
    split
    · split
      · exact autoStart0_idle _ other
      · rfl
    · rfl

theorem registerClient_operation (s : Server) (conn : Nat) (previousId : Option String) (generated : String)
    (operation : s.inOperation) : s.registerClient conn previousId generated = s ∨
      s.registerClient conn previousId generated =
        ((s.update conn fun c => { c with id := some (previousId.getD generated) }).send [conn]
          (.SaveYourself .SmSaveLocal false .SmInteractStyleNone false)).send [conn] .SaveComplete := by
  unfold registerClient clientRegistered
  split
  · exact inl rfl
  · right
    dsimp only
    split
    · exact tryRestoreNext_idle _ operation
    · rfl

theorem interactRequest_later (s : Server) (conn : Nat) : s.Later (s.interactRequest conn) := by
  unfold interactRequest
  split
  · exact .refl s
  · dsimp only
    split
    · exact (s.update_later conn (fun c => { c with pendingInteraction := true }) fun c => rfl).trans
        (handlePendingInteractions_later _)
    · exact (s.send_later _ _).trans (handlePendingInteractions_later _)

theorem interactDone_later (s : Server) (conn : Nat) (cancel : Bool) : s.Later (s.interactDone conn cancel) := by
  have cleared : s.Later { s with clientInteracting := none } :=
    .of_map rfl (prefix_refl _) rfl fun c member => ⟨c,member,rfl⟩
  unfold interactDone
  split
  · exact .refl s
  · dsimp only
    split
    · exact cleared.trans (cancelShutdown_later _)
    · exact cleared.trans (handlePendingInteractions_later _)

theorem removeClient_later (s : Server) (conn : Nat) : s.Later (s.removeClient conn) := by
  have removed : s.Later { s with
      clients := s.clients.filter fun (c : Client) => c.conn ≠ conn
      clientsToKill := s.clientsToKill.filter (· ≠ conn)
      clientsToSave := s.clientsToSave.filter (· ≠ conn) } :=
    .of_map rfl (prefix_refl _) rfl fun c member => ⟨c,(mem_filter.mp member).1,rfl⟩
  unfold removeClient
  dsimp only
  split
  · refine removed.trans (Later.trans ?_ (handlePendingInteractions_later _))
    exact .of_map rfl (prefix_refl _) rfl fun c member => ⟨c,member,rfl⟩
  · exact removed

theorem handlePendingInteractions_state (s : Server) : s.handlePendingInteractions.state = s.state := by
  obtain ⟨_,_,_,_,state,_⟩ := s.handlePendingInteractions_frame
  rw [state]

theorem removeClient_state (s : Server) (conn : Nat) : (s.removeClient conn).state = s.state := by
  unfold removeClient
  dsimp only
  split
  · rw [handlePendingInteractions_state]
  · rfl

theorem completeShutdownOrCheckpoint_state (env : Env) (s : Server) (operation : s.inOperation) :
    (s.completeShutdownOrCheckpoint env).state = s.state ∨
      (s.completeShutdownOrCheckpoint env).state = WaitingForKNotify ∨
      (s.completeShutdownOrCheckpoint env).state = Idle := by
  rcases s.completeShutdownOrCheckpoint_cases env with state | ⟨saves,_,⟨_,state⟩ | ⟨_,state⟩⟩
  · exact inl (by rw [state])
  · exact inl (by rw [state]; rfl)
  · obtain ⟨_,_,_,_,cases⟩ := s.completed_cases env saves
    rcases cases with ⟨_,completed⟩ | ⟨_,completed⟩ | ⟨closing,_⟩
    · exact inr (inl (by rw [state,completed]))
    · exact inr (inr (by rw [state,completed]))
    · rcases operation with other | other <;> simp [other] at closing

theorem deleteClient_operation (env : Env) (s : Server) (conn : Nat) (operation : s.inOperation) :
    s.deleteClient env conn = s ∨ s.deleteClient env conn = (s.removeClient conn).completeShutdownOrCheckpoint env := by
  have still : (s.removeClient conn).inOperation := by unfold inOperation; rwa [removeClient_state]
  have saves : (s.removeClient conn).state = Shutdown ∨ (s.removeClient conn).state = Checkpoint ∨
      (s.removeClient conn).state = ClosingSubSession := still.elim inl fun checkpoint => inr (inl checkpoint)
  unfold deleteClient
  split
  · exact inl rfl
  · right
    dsimp only
    rw [if_pos saves]
    rcases completeShutdownOrCheckpoint_state env _ still with state | state | state
    · rcases still with shutdown | checkpoint
      · simp [state,shutdown]
      · simp [state,checkpoint]
    · simp [state]
    · simp [state]

theorem step_later (env : Env) (s : Server) (event : Event) (operation : s.inOperation) (clients : event.ofClients) :
    s.Later (s.step env event) := by
  cases event with
  | newClient =>
    refine ⟨rfl,prefix_refl _,Nat.le_succ _,?_⟩
    intro c member
    rcases mem_append.mp member with before | new
    · exact inl ⟨c,before,rfl⟩
    · exact inr (by simp [mem_singleton.mp new])
  | registerClient conn previousId generated =>
    rcases registerClient_operation s conn previousId generated operation with state | state
    · simpa [step,state] using Later.refl s
    · simp only [step,state]
      have registered := s.update_later conn (fun c => { c with id := some (previousId.getD generated) }) fun _ => rfl
      exact (registered.trans (send_later _ _ _)).trans (send_later _ _ _)
  | setProperty conn property =>
    rcases s.setProperty_operation conn property operation with state | state
    · simpa [step,state] using Later.refl s
    · simpa [step,state] using s.update_later conn property.set property.set_conn
  | deleteProperty conn property => exact s.update_later conn property.cleared.set property.cleared.set_conn
  | saveYourselfDone conn =>
    simp only [step,saveYourselfDone]
    split
    · exact .refl s
    · rename_i client _
      have notIdle : s.state ≠ Idle := by rcases operation with state | state <;> simp [state]
      have marked := s.update_later conn (fun c => { c with saveYourselfDone := true }) fun _ => rfl
      have completes := completeShutdownOrCheckpoint_later env
        (s.update conn fun c => { c with saveYourselfDone := true }) operation
      simp only [notIdle,if_false]
      have protectedLater := (marked.trans completes).trans (startProtection_later _)
      split
      · exact protectedLater.trans (wmPhase1Finished_later _)
      · exact protectedLater
  | phase2Request conn =>
    simp only [step,phase2Request]
    split
    · exact .refl s
    · have marked := s.update_later conn (fun c => { c with waitForPhase2 := true, wasPhase2 := true }) fun _ => rfl
      have completes := completeShutdownOrCheckpoint_later env
        (s.update conn fun c => { c with waitForPhase2 := true, wasPhase2 := true }) operation
      split
      · exact (marked.trans completes).trans (wmPhase1Finished_later _)
      · exact marked.trans completes
  | interactRequest conn => exact s.interactRequest_later conn
  | interactDone conn cancelShutdown => exact s.interactDone_later conn cancelShutdown
  | deleteClient conn =>
    rcases s.deleteClient_operation env conn operation with state | state
    · simpa [step,state] using Later.refl s
    · simp only [step,state]
      refine (s.removeClient_later conn).trans (completeShutdownOrCheckpoint_later env _ ?_)
      unfold inOperation
      rwa [removeClient_state]
  | protectionTimeout =>
    simp only [step,protectionTimeout]
    split
    · split
      · exact .of_map rfl (prefix_refl _) rfl fun c member => ⟨c,member,rfl⟩
      · have marked : s.Later { s with
            protectionTimer := false
            clients := s.clients.map fun c => if c.busy then { c with saveYourselfDone := true } else c } := by
          refine .of_map rfl (prefix_refl _) rfl ?_
          intro c' member
          obtain ⟨c,inside,rfl⟩ := mem_map.mp member
          exact ⟨c,inside,by split <;> rfl⟩
        exact (marked.trans (completeShutdownOrCheckpoint_later env _ operation)).trans (startProtection_later _)
    · exact .refl s
  | _ => simp [Event.ofClients] at clients

/-- The others have not been asked yet, and enough window managers are in their first phase. -/
structure Held (start s : Server) : Prop where
  distinct : (s.clients.map Client.conn).Nodup
  fresh : ∀ c ∈ s.clients, c.conn < s.nextClient
  second : ∀ c ∈ s.clients, c.waitForPhase2 → c.wasPhase2
  log : start.sent.length ≤ s.sent.length
  counted : 0 < s.wmPhase1WaitingCount
  wms : ∀ c ∈ s.clients, start.Present c → s.isWM c → start.Asked s c
  enough : s.wmPhase1WaitingCount ≤ s.clients.countP (start.leads s)

variable {change : Client → Client}

theorem Held.map (held : start.Held s) (later : s.Later s')
    (clients : s'.clients = s.clients.map change) (stays : ∀ c, (change c).conn = c.conn)
    (second : ∀ c ∈ s.clients, (change c).waitForPhase2 → (change c).wasPhase2)
    (wms : ∀ c ∈ s.clients, start.Present c → s'.isWM (change c) → s.isWM c) (counted : 0 < s'.wmPhase1WaitingCount)
    (enough : s'.wmPhase1WaitingCount ≤ s'.clients.countP (start.leads s')) : start.Held s' := by
  refine ⟨?_,?_,?_,?_,counted,?_,enough⟩
  · have conns : s'.clients.map Client.conn = s.clients.map Client.conn := by
      simp [clients,comp_def,stays]
    rw [conns]
    exact held.distinct
  · intro c' member
    rw [clients] at member
    obtain ⟨c,inside,rfl⟩ := mem_map.mp member
    rw [stays]
    exact Nat.lt_of_lt_of_le (held.fresh c inside) later.nextClient
  · intro c' member
    rw [clients] at member
    obtain ⟨c,inside,rfl⟩ := mem_map.mp member
    exact second c inside
  · exact Nat.le_trans held.log later.sent.length_le
  · intro c' member present wm
    rw [clients] at member
    obtain ⟨c,inside,rfl⟩ := mem_map.mp member
    have before : start.Present c := by unfold Present at *; rwa [stays] at present
    exact (held.wms c inside before (wms c inside before wm)).later later (stays c).symm

theorem countP_map_le {p q : Client → Bool} {clients : List Client}
    (keeps : ∀ c ∈ clients, p c → q (change c)) : clients.countP p ≤ (clients.map change).countP q := by
  rw [countP_map]
  exact countP_mono_left keeps

variable {conn : Nat}

theorem countP_update_le {p q : Client → Bool} {clients : List Client}
    (distinct : (clients.map Client.conn).Nodup) (keeps : ∀ c ∈ clients, c.conn ≠ conn → p c → q c) :
    clients.countP p ≤ (clients.map fun c => if c.conn = conn then change c else c).countP q+1 := by
  induction clients with
  | nil => simp
  | cons c rest ih =>
    have apart := nodup_cons.mp (map_cons ▸ distinct)
    by_cases this : c.conn = conn
    · have same : rest.map (fun c => if c.conn = conn then change c else c) = rest := by
        refine (map_congr_left fun d member => ?_).trans rest.map_id
        have other : d.conn ≠ conn := fun equal =>
          apart.1 (mem_map.mpr ⟨d,member,equal.trans this.symm⟩)
        simp [other]
      have le : rest.countP p ≤ rest.countP q := by
        refine countP_mono_left fun d member holds => ?_
        refine keeps d (mem_cons_of_mem _ member) (fun equal => ?_) holds
        exact apart.1 (mem_map.mpr ⟨d,member,equal.trans this.symm⟩)
      have first : (c :: rest).countP p ≤ rest.countP p+1 := by
        rw [countP_cons]; split <;> omega
      have last : rest.countP q ≤ (change c :: rest).countP q := by
        rw [countP_cons]; split <;> omega
      simp only [map_cons,this,if_true,same]
      omega
    · have others := ih apart.2 fun d member => keeps d (mem_cons_of_mem _ member)
      have first : p c → q c := keeps c mem_cons_self this
      simp only [map_cons,this,if_false,countP_cons]
      by_cases holds : p c
      · simp only [holds,first holds,if_true]
        omega
      · simp only [holds,if_false,false_eq_true]
        omega

theorem Held.busy {start s : Server} (held : start.Held s) : ∃ c ∈ s.clients, start.leads s c ∧ c.busy := by
  have some : 0 < s.clients.countP (start.leads s) := Nat.lt_of_lt_of_le held.counted held.enough
  obtain ⟨c,member,first⟩ := countP_pos_iff.mp some
  refine ⟨c,member,first,?_⟩
  have second := held.second c member
  simp only [leads,Client.inPhase1,and_eq_true,not_eq_true'] at first
  cases waits : c.waitForPhase2 with
  | true => exact absurd (second waits) (by simp [first.2.2])
  | false => simp [Client.busy,first.2.1,waits]

theorem Held.waiting {start s : Server} (held : start.Held s) (operation : s.inOperation)
    (left : ¬start.AllAsked s) : start.Waiting s := by
  refine ⟨operation,held.counted,?_⟩
  by_contra none
  refine left fun c member present => held.wms c member present ?_
  by_contra other
  exact none ⟨c,member,present,other⟩

theorem saveRest_all {start s : Server} (log : start.sent.length ≤ s.sent.length)
    (wms : ∀ c ∈ s.clients, start.Present c → s.isWM c → start.Asked s c) : start.AllAsked s.saveRest := by
  intro c member present
  by_cases wm : s.isWM c
  · exact (wms c member present wm).later (send_later _ _ _) rfl
  · have asked : (c.conn,s.saveMessage) ∈ s.saveRest.sent.drop start.sent.length := by
      change _ ∈ (s.sent++_).drop _
      rw [drop_append_of_le_length log]
      refine mem_append_right _ (mem_map.mpr ⟨c.conn,?_,rfl⟩)
      exact mem_map.mpr ⟨c,mem_filter.mpr ⟨member,by simp [wm]⟩,rfl⟩
    exact asked

theorem wmPhase1Finished_held (start s : Server) (distinct : (s.clients.map Client.conn).Nodup)
    (fresh : ∀ c ∈ s.clients, c.conn < s.nextClient) (second : ∀ c ∈ s.clients, c.waitForPhase2 → c.wasPhase2)
    (log : start.sent.length ≤ s.sent.length) (wms : ∀ c ∈ s.clients, start.Present c → s.isWM c → start.Asked s c)
    (enough : s.wmPhase1WaitingCount ≤ s.clients.countP (start.leads s)+1) :
    start.AllAsked s.wmPhase1Finished ∨ (start.Held s.wmPhase1Finished ∧ s.wmPhase1Finished.state = s.state) := by
  unfold wmPhase1Finished
  dsimp only
  split
  · exact inl (saveRest_all log wms)
  · rename_i more
    refine inr ⟨⟨distinct,fresh,second,log,Nat.pos_of_ne_zero more,wms,?_⟩,rfl⟩
    change s.wmPhase1WaitingCount-1 ≤ s.clients.countP (start.leads s)
    omega

theorem update_clients (s : Server) (conn : Nat) (change : Client → Client) :
    (s.update conn change).clients = s.clients.map fun c => if c.conn = conn then change c else c := rfl

variable {start s : Server}

theorem find_mem {client : Client} (found : s.find conn = some client) : client ∈ s.clients ∧ client.conn = conn :=
  ⟨mem_of_find?_eq_some found,by simpa using find?_some found⟩

theorem find_unique {client c : Client} (distinct : (s.clients.map Client.conn).Nodup)
    (found : s.find conn = some client) (member : c ∈ s.clients) (same : c.conn = conn) : c = client :=
  inj_on_of_nodup_map distinct member (find_mem found).1 (same.trans (find_mem found).2.symm)

theorem update_held (conn : Nat) (held : start.Held s)
    (stays : ∀ c, (change c).conn = c.conn ∧ (change c).program = c.program)
    (second : ∀ c, (c.waitForPhase2 → c.wasPhase2) → (change c).waitForPhase2 → (change c).wasPhase2) :
    let t := s.update conn change
    (t.clients.map Client.conn).Nodup ∧ (∀ c ∈ t.clients, c.conn < t.nextClient) ∧
      (∀ c ∈ t.clients, c.waitForPhase2 → c.wasPhase2) ∧
      (∀ c ∈ t.clients, start.Present c → t.isWM c → start.Asked t c) ∧
      t.wmPhase1WaitingCount ≤ t.clients.countP (start.leads t)+1 := by
  have conns (c : Client) : (if c.conn = conn then change c else c).conn = c.conn := by
    split <;> simp [stays]
  refine ⟨?_,?_,?_,?_,?_⟩
  · simpa [update_clients,comp_def,conns] using held.distinct
  · intro c' member
    obtain ⟨c,inside,rfl⟩ := mem_map.mp member
    rw [conns]
    exact held.fresh c inside
  · intro c' member
    obtain ⟨c,inside,rfl⟩ := mem_map.mp member
    split
    · exact second c (held.second c inside)
    · exact held.second c inside
  · intro c' member present wm
    obtain ⟨c,inside,rfl⟩ := mem_map.mp member
    have before : start.Present c := by unfold Present at *; rwa [conns] at present
    have leads : s.isWM c := by
      by_cases this : c.conn = conn
      · simpa [isWM,this,stays,update] using wm
      · simpa [isWM,this,update] using wm
    exact (held.wms c inside before leads).later (s.update_later conn change fun c => (stays c).1) (conns c).symm
  · have le : s.clients.countP (start.leads s) ≤
        (s.clients.map fun c => if c.conn = conn then change c else c).countP (start.leads s)+1 :=
      countP_update_le held.distinct fun _ _ _ holds => holds
    exact Nat.le_trans held.enough le

theorem answer_waits (env : Env) (operation : s.inOperation) (other : ∃ c ∈ s.clients, c.conn ≠ conn ∧ c.busy) :
    (s.update conn change).completeShutdownOrCheckpoint env = s.update conn change := by
  obtain ⟨c,member,apart,busy⟩ := other
  have closing : (s.update conn change).state ≠ ClosingSubSession := by
    rcases operation with state | state <;> simp [update,state]
  have stays : c ∈ (s.update conn change).clients := mem_map.mpr ⟨c,member,by simp [apart]⟩
  exact completeShutdownOrCheckpoint_busy env _ closing stays busy

theorem answer_held (conn : Nat) {client : Client} (held : start.Held s) (found : s.find conn = some client)
    (stays : ∀ c, (change c).conn = c.conn ∧ (change c).program = c.program)
    (second : ∀ c, (c.waitForPhase2 → c.wasPhase2) → (change c).waitForPhase2 → (change c).wasPhase2)
    (other : ¬start.leads s client) : start.Held (s.update conn change) := by
  obtain ⟨distinct,fresh,waits,wms,_⟩ := update_held conn held stays second
  refine ⟨distinct,fresh,waits,held.log,held.counted,wms,?_⟩
  refine Nat.le_trans held.enough (countP_map_le fun c member first => ?_)
  by_cases this : c.conn = conn
  · rw [find_unique held.distinct found member this] at first
    exact absurd first other
  · simp only [this,if_false]
    exact first

theorem Held.quiet {s' : Server} (held : start.Held s) (later : s.Later s')
    (clients : s'.clients = s.clients.map change)
    (stays : ∀ c, (change c).conn = c.conn ∧ (change c).saveYourselfDone = c.saveYourselfDone ∧
      (change c).waitForPhase2 = c.waitForPhase2 ∧ (change c).wasPhase2 = c.wasPhase2)
    (wms : ∀ c ∈ s.clients, start.Present c → s'.isWM (change c) = s.isWM c)
    (counted : s'.wmPhase1WaitingCount = s.wmPhase1WaitingCount) : start.Held s' := by
  refine held.map later clients (fun c => (stays c).1) ?_ ?_ (counted ▸ held.counted) ?_
  · intro c member
    rw [(stays c).2.2.1,(stays c).2.2.2]
    exact held.second c member
  · intro c member present wm
    rwa [wms c member present] at wm
  · rw [counted,clients]
    refine Nat.le_trans held.enough (countP_map_le fun c member first => ?_)
    simp only [leads,Client.inPhase1,and_eq_true,decide_eq_true_eq] at first ⊢
    obtain ⟨⟨present,wm⟩,phase⟩ := first
    refine ⟨⟨?_,?_⟩,?_⟩
    · unfold Present at *
      rwa [(stays c).1]
    · rw [wms c member present]
      exact wm
    · rw [(stays c).2.1,(stays c).2.2.2]
      exact phase

theorem handlePendingInteractions_held (held : start.Held s) : start.Held s.handlePendingInteractions := by
  have later := s.handlePendingInteractions_later
  obtain ⟨_,_,_,_,state,_,conn,rfl⟩ := s.handlePendingInteractions_frame
  rw [state] at later ⊢
  refine held.quiet later rfl ?_ ?_ rfl
  · intro c
    split <;> simp
  · intro c _ _
    simp only [isWM]
    split <;> rfl

theorem send_held (held : start.Held s) (conns : List Nat) (message : Message) : start.Held (s.send conns message) := by
  have same : (s.send conns message).clients = s.clients.map id := by simp [send]
  exact held.quiet (s.send_later conns message) same (fun _ => ⟨rfl,rfl,rfl,rfl⟩) (fun _ _ _ => rfl) rfl

theorem property_held (property : Property) (held : start.Held s)
    (same : ∀ c ∈ s.clients, c.conn = conn → start.Present c → s.isWM (property.set c) = s.isWM c) :
    start.Held (s.update conn property.set) := by
  refine held.quiet (s.update_later conn property.set property.set_conn) (update_clients s conn _) ?_ ?_ rfl
  · intro c
    split
    · cases property <;> simp [Property.set]
    · simp
  · intro c member present
    split
    · rename_i this
      exact same c member this present
    · rfl

theorem newClient_held (held : start.Held s) (known : start.Known s) : start.Held s.newClient := by
  have new : (s.newClient.clients.map Client.conn) = s.clients.map Client.conn++[s.nextClient] := by
    simp [newClient]
  refine ⟨?_,?_,?_,held.log,held.counted,?_,?_⟩
  · rw [new]
    refine nodup_append.mpr ⟨held.distinct,nodup_singleton _,?_⟩
    intro conn member other last
    obtain ⟨c,inside,rfl⟩ := mem_map.mp member
    rw [mem_singleton.mp last]
    exact Nat.ne_of_lt (held.fresh c inside)
  · intro c member
    rcases mem_append.mp member with before | last
    · exact Nat.lt_succ_of_lt (held.fresh c before)
    · simp [mem_singleton.mp last,newClient]
  · intro c member
    rcases mem_append.mp member with before | last
    · exact held.second c before
    · simp [mem_singleton.mp last]
  · intro c member present wm
    rcases mem_append.mp member with before | last
    · exact held.wms c before present wm
    · rw [mem_singleton.mp last] at present
      exact absurd (known _ present) (Nat.lt_irrefl _)
  · change s.wmPhase1WaitingCount ≤ (s.clients++_).countP (start.leads s)
    rw [countP_append]
    exact Nat.le_add_right_of_le held.enough

theorem deleteClient_held (env : Env) (held : start.Held s) (operation : s.inOperation)
    (enough : s.wmPhase1WaitingCount ≤ (s.clients.filter fun c => c.conn ≠ conn).countP (start.leads s)) :
    start.Held (s.deleteClient env conn) ∧ (s.deleteClient env conn).state = s.state := by
  have removed : start.Held { s with
      clients := s.clients.filter fun (c : Client) => c.conn ≠ conn
      clientsToKill := s.clientsToKill.filter (· ≠ conn)
      clientsToSave := s.clientsToSave.filter (· ≠ conn) } :=
    { distinct := held.distinct.sublist (filter_sublist.map Client.conn)
      fresh := fun c member => held.fresh c (mem_filter.mp member).1
      second := fun c member => held.second c (mem_filter.mp member).1
      log := held.log
      counted := held.counted
      wms := fun c member => held.wms c (mem_filter.mp member).1
      enough := enough }
  have left : start.Held (s.removeClient conn) := by
    unfold removeClient
    dsimp only
    split
    · exact handlePendingInteractions_held { removed with }
    · exact removed
  rcases s.deleteClient_operation env conn operation with state | state
  · rw [state]
    exact ⟨held,rfl⟩
  · obtain ⟨c,member,_,busy⟩ := left.busy
    have closing : (s.removeClient conn).state ≠ ClosingSubSession := by
      rw [removeClient_state]
      rcases operation with other | other <;> simp [other]
    rw [state,completeShutdownOrCheckpoint_busy env _ closing member busy]
    exact ⟨left,removeClient_state s conn⟩

theorem step_held (env : Env) (event : Event) (held : start.Held s) (known : start.Known s) (operation : s.inOperation)
    (waiting : start.Waiting s) (clients : event.ofClients) (meets : start.Meets s event) :
    start.AllAsked (s.step env event) ∨
      (start.Held (s.step env event) ∧ (s.step env event).state = s.state) ∨ s.cancels event := by
  have notIdle : s.state ≠ Idle := by rcases operation with state | state <;> simp [state]
  cases event with
  | newClient => exact inr (inl ⟨newClient_held held known,rfl⟩)
  | registerClient conn previousId generated =>
    right; left
    rcases registerClient_operation s conn previousId generated operation with state | state
    · simpa [step,state] using held
    · simp only [step,state]
      have named : start.Held (s.update conn fun c => { c with id := some (previousId.getD generated) }) := by
        refine held.quiet (s.update_later conn _ fun _ => rfl) (update_clients s conn _) ?_ ?_ rfl
        · intro c
          split <;> simp
        · intro c _ _
          simp only [isWM]
          split <;> rfl
      exact ⟨send_held (send_held named _ _) _ _,rfl⟩
  | setProperty conn property =>
    right; left
    rcases s.setProperty_operation conn property operation with state | state
    · simpa [step,state] using held
    · simp only [step,state]
      exact ⟨property_held property held (meets waiting),rfl⟩
  | deleteProperty conn property => exact inr (inl ⟨property_held property.cleared held (meets waiting),rfl⟩)
  | saveYourselfDone conn =>
    simp only [step,saveYourselfDone]
    split
    · exact inr (inl ⟨held,rfl⟩)
    · rename_i client found
      have stays (c : Client) : ({ c with saveYourselfDone := true } : Client).conn = c.conn ∧
          ({ c with saveYourselfDone := true } : Client).program = c.program := ⟨rfl,rfl⟩
      simp only [notIdle,if_false]
      rw [answer_waits env operation (meets waiting)]
      split
      · obtain ⟨distinct,fresh,waits,wms,enough⟩ := update_held conn held stays fun _ second => second
        rcases wmPhase1Finished_held start
          (s.update conn fun c => { c with saveYourselfDone := true }).startProtection
          distinct fresh waits held.log wms enough with all | ⟨more,state⟩
        · exact inl all
        · exact inr (inl ⟨more,state⟩)
      · rename_i other
        have apart : ¬start.leads s client := by
          intro first
          simp only [leads,Client.inPhase1,and_eq_true,not_eq_true'] at first
          exact other ⟨first.1.2,by simp [first.2.2],held.counted⟩
        have same := answer_held conn held found stays (fun _ second => second) apart
        exact inr (inl ⟨{ same with },rfl⟩)
  | phase2Request conn =>
    simp only [step,phase2Request]
    split
    · exact inr (inl ⟨held,rfl⟩)
    · rename_i client found
      have stays (c : Client) : ({ c with waitForPhase2 := true, wasPhase2 := true } : Client).conn = c.conn ∧
          ({ c with waitForPhase2 := true, wasPhase2 := true } : Client).program = c.program := ⟨rfl,rfl⟩
      rw [answer_waits env operation (meets waiting)]
      split
      · obtain ⟨distinct,fresh,waits,wms,enough⟩ := update_held conn held stays fun _ _ _ => rfl
        rcases wmPhase1Finished_held start
          (s.update conn fun c => { c with waitForPhase2 := true, wasPhase2 := true })
          distinct fresh waits held.log wms enough with all | ⟨more,state⟩
        · exact inl all
        · exact inr (inl ⟨more,state⟩)
      · rename_i other
        have apart : ¬start.leads s client := by
          intro first
          simp only [leads,and_eq_true] at first
          exact other ⟨first.1.2,held.counted⟩
        exact inr (inl ⟨answer_held conn held found stays (fun _ _ _ => rfl) apart,rfl⟩)
  | interactRequest conn =>
    right; left
    simp only [step,interactRequest]
    split
    · exact ⟨held,rfl⟩
    · split
      · have marked : start.Held (s.update conn fun c => { c with pendingInteraction := true }) := by
          refine held.quiet (s.update_later conn _ fun _ => rfl) (update_clients s conn _) ?_ ?_ rfl
          · intro c
            split <;> simp
          · intro c _ _
            simp only [isWM]
            split <;> rfl
        exact ⟨handlePendingInteractions_held marked,handlePendingInteractions_state _⟩
      · exact ⟨handlePendingInteractions_held (send_held held _ _),handlePendingInteractions_state _⟩
  | interactDone conn cancelShutdown =>
    right
    simp only [step,interactDone]
    split
    · exact inl ⟨held,rfl⟩
    · rename_i interacting
      split
      · rename_i cancel
        exact inr ⟨by simpa using interacting,cancel⟩
      · exact inl ⟨handlePendingInteractions_held { held with },handlePendingInteractions_state _⟩
  | deleteClient conn => exact inr (inl (deleteClient_held env held operation (meets waiting)))
  | protectionTimeout =>
    right; left
    simp only [step,protectionTimeout]
    split
    · rw [if_pos (inr (meets waiting))]
      exact ⟨{ held with },rfl⟩
    · exact ⟨held,rfl⟩
  | _ => simp [Event.ofClients] at clients

@[simp] theorem resetState_conn (c : Client) : c.resetState.conn = c.conn := rfl

@[simp] theorem isWM_resetState (s : Server) (c : Client) : s.isWM c.resetState = s.isWM c := rfl

theorem askFirst_led {shutdown : Bool} {interactStyle : InteractStyle} (clients : s.clients = start.clients)
    (sent : s.sent = start.sent) (message : s.saveMessage = .SaveYourself s.saveType shutdown interactStyle false)
    (distinct : (s.clients.map Client.conn).Nodup) (fresh : ∀ c ∈ s.clients, c.conn < s.nextClient) :
    start.AllAsked (s.askFirst shutdown interactStyle) ∨ start.Held (s.askFirst shutdown interactStyle) := by
  have asked {conns : List Nat} {conn : Nat} (member : conn ∈ conns) :
      (conn,s.saveMessage) ∈ (s.sent++conns.map (·,s.saveMessage)).drop start.sent.length := by
    rw [sent,drop_left]
    exact mem_map.mpr ⟨conn,member,rfl⟩
  unfold askFirst
  dsimp only
  rw [← message]
  split
  · rename_i counted
    right
    refine ⟨?_,?_,?_,?_,counted,?_,?_⟩
    · simpa [send,comp_def] using distinct
    · intro c' member
      obtain ⟨c,inside,rfl⟩ := mem_map.mp member
      exact fresh c inside
    · intro c' member
      obtain ⟨c,_,rfl⟩ := mem_map.mp member
      simp [Client.resetState]
    · simp [send,sent]
    · intro c member _ wm
      exact asked (mem_map.mpr ⟨c,mem_filter.mpr ⟨member,wm⟩,rfl⟩)
    · change (s.clients.filter s.isWM).length ≤ (s.clients.map Client.resetState).countP _
      rw [← countP_eq_length_filter]
      refine countP_map_le fun c member wm => ?_
      have present : start.Present c.resetState := by
        unfold Present
        rw [← clients]
        exact mem_map.mpr ⟨c,member,rfl⟩
      have still : s.isWM c.resetState := wm
      simp only [leads,and_eq_true,decide_eq_true_eq]
      exact ⟨⟨present,still⟩,rfl⟩
  · left
    intro c member _
    exact asked (mem_map.mpr ⟨c,member,rfl⟩)

/-- Either everybody has been asked, or the operation waits for window managers. -/
def Led (start s : Server) : Prop := start.Known s ∧ (start.AllAsked s ∨ (start.Held s ∧ s.inOperation))

theorem askClients_led (env : Env) {shutdown : Bool} {interactStyle : InteractStyle} (operation : s.inOperation)
    (clients : s.clients = start.clients) (sent : s.sent = start.sent)
    (message : s.saveMessage = .SaveYourself s.saveType shutdown interactStyle false)
    (distinct : (s.clients.map Client.conn).Nodup) (fresh : ∀ c ∈ s.clients, c.conn < s.nextClient) :
    start.Led (s.askClients env shutdown interactStyle) := by
  have still : (s.askFirst shutdown interactStyle).inOperation := by
    unfold askFirst
    dsimp only
    split <;> exact operation
  have known : start.Known (s.askFirst shutdown interactStyle) := by
    intro conn member
    rw [← clients] at member
    obtain ⟨c,inside,rfl⟩ := mem_map.mp member
    unfold askFirst
    dsimp only
    split <;> exact fresh c inside
  have first := askFirst_led clients sent message distinct fresh
  unfold askClients
  dsimp only
  split
  · rename_i empty
    have later := completeShutdownOrCheckpoint_later env _ still
    refine ⟨known.later later,inl (AllAsked.later known later ?_)⟩
    intro c member
    rw [isEmpty_iff.mp empty] at member
    exact absurd member not_mem_nil
  · exact ⟨known,first.imp_right fun held => ⟨held,still⟩⟩

theorem begin_led (env : Env) (operation : Operation) (distinct : (start.clients.map Client.conn).Nodup)
    (fresh : ∀ c ∈ start.clients, c.conn < start.nextClient) (begins : operation.begins start) :
    start.Led (operation.begin env start) := by
  cases operation with
  | shutdown sdtype sdmode bopt =>
    simp only [Operation.begin,shutdownConfirmed]
    split
    · refine askClients_led env (inl rfl) rfl rfl ?_ distinct fresh
      rename_i stored
      simp only [saveMessage,startProtection,enter,stored]
      rfl
    · refine askClients_led env (inl rfl) rfl rfl ?_ distinct fresh
      rename_i discarded
      simp only [saveMessage,startProtection,enter,discarded]
      rfl
  | saveCurrentSession =>
    obtain ⟨idle,quiet⟩ := begins
    simp only [Operation.begin,saveCurrentSession]
    rw [if_neg (by simp [idle,quiet])]
    split
    · exact askClients_led env (inr rfl) rfl rfl rfl distinct fresh
    · exact askClients_led env (inr rfl) rfl rfl rfl distinct fresh

/-- A client cancels in the run. -/
def Cancelled : Server → List (Env × Event) → Prop
  | _, [] => False
  | s, (env,event) :: events => s.cancels event ∨ Cancelled (s.step env event) events

theorem run_led (s : Server) (events : List (Env × Event)) (led : start.Led s) (during : start.During s events)
    (kept : ¬s.Cancelled events) : start.Led (s.run events) := by
  induction events generalizing s with
  | nil => exact led
  | cons head events ih =>
    obtain ⟨env,event⟩ := head
    obtain ⟨operation,clients,meets,rest⟩ := during
    obtain ⟨here,later⟩ := not_or.mp kept
    refine ih _ ?_ rest later
    have grows := s.step_later env event operation clients
    refine ⟨led.1.later grows,?_⟩
    by_cases all : start.AllAsked s
    · exact inl (AllAsked.later led.1 grows all)
    · have held : start.Held s := (led.2.resolve_left all).1
      rcases step_held env event held led.1 operation (held.waiting operation all) clients meets with
        asked | ⟨still,state⟩ | cancels
      · exact inl asked
      · refine inr ⟨still,?_⟩
        unfold inOperation
        rwa [state]
      · exact absurd cancels here

/-- No client is skipped: the operation is over, or no window manager is in its first phase any more, only where
everybody who was there and still is has been asked. -/
def NobodySkipped (start s : Server) : Prop :=
  (¬s.inOperation → start.AllAsked s) ∧ (s.inOperation → (∀ c ∈ s.clients, start.leads s c = false) → start.AllAsked s)

/-- A logout or a checkpoint in which no window manager goes uncounted, the time is not up before the others are
asked, and nobody who has not been asked is the last to answer. -/
theorem clients_asked (env : Env) (start : Server) (operation : Operation) (events : List (Env × Event))
    (distinct : (start.clients.map Client.conn).Nodup) (fresh : ∀ c ∈ start.clients, c.conn < start.nextClient)
    (begins : operation.begins start) (during : start.During (operation.begin env start) events)
    (kept : ¬(operation.begin env start).Cancelled events) :
    start.NobodySkipped ((operation.begin env start).run events) := by
  obtain ⟨_,led⟩ := run_led _ events (begin_led env operation distinct fresh begins) during kept
  refine ⟨fun ended => led.resolve_right fun held => ended held.2,fun _ none => led.resolve_right fun held => ?_⟩
  obtain ⟨c,member,first,_⟩ := held.1.busy
  rw [none c member] at first
  cases first

theorem clients_asked_manager : twoClients.NobodySkipped
    (((Operation.shutdown .None .Interactive "").begin .plain twoClients).run [(.plain,.saveYourselfDone 0)]) :=
  clients_asked .plain twoClients (.shutdown .None .Interactive "") [(.plain,.saveYourselfDone 0)] (by decide) (by decide)
    trivial ⟨by decide,rfl,fun _ => by decide,trivial⟩ (by simp [Cancelled,cancels])

/-- A window manager that goes is not counted down: the application is never asked, and the timeout then ends the
saving without it. -/
theorem departed_manager_skips :
    ¬(twoClients.NobodySkipped
      (((Operation.shutdown .None .Interactive "").begin .plain twoClients).run [(.plain,.deleteClient 0)])) ∧
    ¬(twoClients.NobodySkipped
      (((Operation.shutdown .None .Interactive "").begin .plain twoClients).run
        [(.plain,.deleteClient 0),(.plain,.protectionTimeout)])) := by
  constructor
  · intro promised
    exact absurd (promised.2 (by decide) (by decide)) (by decide)
  · intro promised
    exact absurd (promised.1 (by decide)) (by decide)

end Server
end KdeWorkspace.SessionServer
