import KdeWorkspace.LogoutTimers
import Mathlib.Data.List.Count

/-!
Interactions are granted to those who asked for them, in one logout or closing.

A request is a flag of its client, and a grant the client that is interacting and the message it is sent. No
flag and no grant is there while the server is idle, if no client cancels while another one still waits for an
interaction, and the closing of a part of the session is not completed while somebody interacts.
-/
namespace KdeWorkspace.SessionServer
open List Option Bool
open Or (inl inr)

open State

namespace Server

/-- A client of the connection waits for an interaction. -/
def pendingOf (s : Server) (conn : Nat) : Bool :=
  s.clients.any fun (c : Client) => c.conn = conn && c.pendingInteraction

def NoPending (s : Server) : Prop := ∀ c ∈ s.clients, c.pendingInteraction = false

instance (s : Server) : Decidable s.NoPending := by unfold NoPending; infer_instance

/-- The requests of an operation, and the number of the grants before it. -/
structure Ledger where
  requests : List Nat
  begun : Nat

/-- What an event does to the ledger: a client asks, or a logout or the closing of a part of the session begins. -/
def Ledger.note (ledger : Ledger) (s s' : Server) : Event → Ledger
  | .interactRequest conn => if (s.find conn).isSome then { ledger with requests := conn :: ledger.requests } else ledger
  | .dialogAnswered (some _) => if s.dialogActive then ⟨[],s.granted.length⟩ else ledger
  | _ => if s'.Protects ∧ s'.state ≠ s.state then ⟨[],s.granted.length⟩ else ledger

def runLedger (ledger : Ledger) (s : Server) : List (Env × Event) → Ledger
  | [] => ledger
  | (env,event) :: events => runLedger (ledger.note s (s.step env event) event) (s.step env event) events

/-- A client of those which are to save has not finished. -/
def unfinished (s : Server) (conn : Nat) : Bool :=
  conn ∈ s.clientsToSave && (s.find conn).any fun (c : Client) => !c.saveYourselfDone

/-- What must be true of an event: who cancels leaves nobody waiting for an interaction, and the closing of a part of
the session is not completed while somebody else interacts. The restoring of a part of the session has no part in it. -/
def Settles (s : Server) : Event → Prop
  | .interactDone conn cancelShutdown => s.clientInteracting = some conn → cancelShutdown → s.NoPending
  | .saveYourselfDone conn =>
    s.state = ClosingSubSession → s.clientInteracting.isSome → ∃ other ∈ s.clientsToSave, other ≠ conn ∧ s.unfinished other
  | .phase2Request _ =>
    s.state = ClosingSubSession → s.clientInteracting.isSome → ∃ other ∈ s.clientsToSave, s.unfinished other
  | .deleteClient conn =>
    s.state = ClosingSubSession →
      ((∃ other, s.clientInteracting = some other ∧ other ≠ conn) ∨
        ∃ c ∈ s.clients, c.conn ≠ conn ∧ c.pendingInteraction) →
      ∃ other ∈ s.clientsToSave, other ≠ conn ∧ s.unfinished other
  | .restoreSubSession _ => False
  | _ => True

/-- A run whose events meet that. -/
def AllSettle : Server → List (Env × Event) → Prop
  | _, [] => True
  | s, (env,event) :: events => s.Settles event ∧ AllSettle (s.step env event) events

/-- Nothing is asked for or granted: no flag is new, and no message grants an interaction. -/
structure Grantless (s s' : Server) : Prop where
  interacting : s'.clientInteracting = s.clientInteracting
  pending : ∀ conn, s'.pendingOf conn → s.pendingOf conn
  granted : s'.granted = s.granted

theorem Grantless.refl (s : Server) : s.Grantless s := ⟨rfl,fun _ => id,rfl⟩

theorem Grantless.trans {s t u : Server} (first : s.Grantless t) (second : t.Grantless u) : s.Grantless u :=
  ⟨second.interacting.trans first.interacting,fun conn pending => first.pending conn (second.pending conn pending),
    second.granted.trans first.granted⟩

variable {s : Server}

theorem pendingOf_iff {conn : Nat} : s.pendingOf conn ↔ ∃ c ∈ s.clients, c.conn = conn ∧ c.pendingInteraction := by
  simp [pendingOf]

theorem noPending_iff : s.NoPending ↔ ∀ conn, s.pendingOf conn = false := by
  constructor
  · intro none conn
    rw [← not_eq_true,pendingOf_iff]
    rintro ⟨c,member,_,pending⟩
    simp [none c member] at pending
  · intro none c member
    by_contra pending
    have some : s.pendingOf c.conn := pendingOf_iff.mpr ⟨c,member,rfl,by simpa using pending⟩
    simp [none c.conn] at some

variable {s' : Server}

theorem Grantless.noPending (grantless : s.Grantless s') (none : s.NoPending) : s'.NoPending := by
  rw [noPending_iff] at none ⊢
  intro conn
  by_contra pending
  have before := grantless.pending conn (by simpa using pending)
  simp [none conn] at before

theorem Grantless.of_clients (interacting : s'.clientInteracting = s.clientInteracting)
    (granted : s'.granted = s.granted)
    (clients : ∀ c' ∈ s'.clients, c'.pendingInteraction → ∃ c ∈ s.clients, c.conn = c'.conn ∧ c.pendingInteraction) :
    s.Grantless s' := by
  refine ⟨interacting,?_,granted⟩
  intro conn pending
  obtain ⟨c',member,rfl,flag⟩ := pendingOf_iff.mp pending
  exact pendingOf_iff.mpr (clients c' member flag)

theorem Aside.grantless (aside : s.Aside s') : s.Grantless s' := by
  obtain ⟨part,_⟩ := aside
  simp only [Server.part,Prod.mk.injEq] at part
  obtain ⟨clients,interacting,_,_,_,_,_,_,_,_,_,granted⟩ := part
  exact .of_clients interacting granted fun c member flag => ⟨c,clients ▸ member,rfl,flag⟩

theorem send_grantless (s : Server) (conns : List Nat) (message : Message) (other : message ≠ .Interact) :
    s.Grantless (s.send conns message) := by
  have part := s.send_part conns other
  simp only [Server.part,Prod.mk.injEq] at part
  obtain ⟨_,_,_,_,_,_,_,_,_,_,_,granted⟩ := part
  exact .of_clients rfl granted fun c member flag => ⟨c,member,rfl,flag⟩

theorem update_grantless (s : Server) (conn : Nat) (change : Client → Client)
    (stays : ∀ c, (change c).conn = c.conn) (flags : ∀ c, (change c).pendingInteraction → c.pendingInteraction) :
    s.Grantless (s.update conn change) := by
  refine .of_clients rfl rfl ?_
  intro c' member flag
  obtain ⟨c,inside,rfl⟩ := mem_map.mp member
  split at flag
  · rename_i this
    exact ⟨c,inside,by simp [this,stays],flags c flag⟩
  · rename_i this
    exact ⟨c,inside,by simp [this],flag⟩

theorem executeCommands_grantless (s : Server) (commands : List (List String)) :
    s.Grantless (commands.foldl executeCommand s) := by
  obtain ⟨executed,state⟩ := s.executeCommands_frame commands
  rw [state]
  exact .of_clients rfl rfl fun c member flag => ⟨c,member,rfl,flag⟩

theorem startKillingSubSession_grantless (s : Server) : s.Grantless s.startKillingSubSession := by
  have entered : s.Grantless (s.enter KillingSubSession) := .of_clients rfl rfl fun c member flag => ⟨c,member,rfl,flag⟩
  have told := entered.trans (send_grantless _ s.clientsToKill .Die (by simp))
  simp only [startKillingSubSession,singleShot,Slot.declared,false_eq_true,if_false]
  unfold completeKillingSubSession signalSubSessionClosed
  split
  · split
    · exact told
    · split
      · exact told
      · exact told.trans (.of_clients rfl rfl fun c member flag => ⟨c,member,rfl,flag⟩)
  · exact told

theorem completed_grantless (env : Env) (saves : s.Saves) : s.Grantless (s.completed env) := by
  obtain ⟨executed,config,clients,same,cases⟩ := s.completed_cases env saves
  have stays {c : Client} (inside : c ∈ clients) : c ∈ s.clients := by
    rcases same with rfl | rfl
    · exact inside
    · exact wmFirst_mem inside
  have stored (shots : List Slot) (state : State) (entered : List State) : s.Grantless { s with
      executed := executed, config := config, clients := clients, shots := shots, state := state
      entered := entered } :=
    .of_clients rfl rfl fun c member flag => ⟨c,stays member,rfl,flag⟩
  rcases cases with ⟨_,ended⟩ | ⟨_,ended⟩ | ⟨_,ended⟩
  · rw [ended]
    exact stored _ _ _
  · have sent := (stored s.shots s.state s.entered).trans
      (send_grantless _ (clients.map Client.conn) .SaveComplete (by simp))
    rw [ended]
    refine ⟨sent.interacting,sent.pending,?_⟩
    simp [granted]
  · rw [ended]
    exact (stored s.shots s.state s.entered).trans (startKillingSubSession_grantless _)

theorem completeShutdownOrCheckpoint_grantless (env : Env) (s : Server) :
    s.Grantless (s.completeShutdownOrCheckpoint env) := by
  rcases s.completeShutdownOrCheckpoint_cases env with state | ⟨saves,_,⟨_,state⟩ | ⟨_,state⟩⟩
  · rw [state]
    exact .refl s
  · rw [state]
    have moved : s.Grantless { s with
        clients := s.clients.map fun (c : Client) =>
          if c.conn ∈ s.phase2Clients then { c with waitForPhase2 := false } else c } := by
      refine .of_clients rfl rfl ?_
      intro c' member flag
      obtain ⟨c,inside,rfl⟩ := mem_map.mp member
      refine ⟨c,inside,?_,?_⟩
      · split <;> rfl
      · split at flag <;> exact flag
    exact moved.trans (send_grantless _ _ .SaveYourselfPhase2 (by simp))
  · rw [state]
    exact completed_grantless env saves

theorem wmPhase1Finished_grantless (s : Server) : s.Grantless s.wmPhase1Finished := by
  have counted : s.Grantless { s with wmPhase1WaitingCount := s.wmPhase1WaitingCount-1 } :=
    .of_clients rfl rfl fun c member flag => ⟨c,member,rfl,flag⟩
  unfold wmPhase1Finished
  dsimp only
  split
  · exact counted.trans (send_grantless _ _ _ (by simp))
  · exact counted

/-- The states in which nobody asks for interactions that are remembered, and which end in the idle one. -/
def quiet : State → Bool
  | KillingSubSession | Checkpoint => true
  | state => calm state

/-- Each grant of the operation, and each request that still waits, answers a request of that client. -/
def Owed (ledger : Ledger) (s : Server) : Prop :=
  ∀ conn, (s.granted.drop ledger.begun).count (conn,.Interact)+(s.pendingOf conn).toNat ≤ ledger.requests.count conn

structure Belongs (ledger : Ledger) (s : Server) : Prop where
  known : ledger.begun ≤ s.granted.length
  idle : quiet s.state → s.clientInteracting = none ∧ s.NoPending
  next : s.Protects → s.clientInteracting = none → s.NoPending
  owed : s.Protects → Owed ledger s

variable {ledger : Ledger}

theorem Owed.grantless (grantless : s.Grantless s') (owed : Owed ledger s) : Owed ledger s' := by
  intro conn
  have le : (s'.pendingOf conn).toNat ≤ (s.pendingOf conn).toNat := by
    cases after : s'.pendingOf conn with
    | false => simp
    | true => simp [grantless.pending conn after]
  have before := owed conn
  rw [grantless.granted]
  omega

theorem not_protects_of_quiet (idle : quiet s.state) : ¬s.Protects := by
  rintro (state | state) <;> simp [state,quiet,calm] at idle

theorem not_protects_of_leaving (leave : leaving s.state) : ¬s.Protects := by
  rintro (state | state) <;> simp [state,leaving] at leave

theorem not_quiet_of_leaving {state : State} (leave : leaving state) : ¬quiet state := by
  cases state <;> simp [leaving,quiet,calm] at *

theorem Belongs.change (belongs : Belongs ledger s) (grantless : s.Grantless s')
    (state : s'.state = s.state ∨ (quiet s.state ∧ quiet s'.state) ∨ leaving s'.state) : Belongs ledger s' := by
  have granted := congrArg length grantless.granted
  rcases state with same | ⟨before,after⟩ | leave
  · have protects : s'.Protects → s.Protects := by
      unfold Protects
      rw [same]
      exact id
    refine ⟨granted ▸ belongs.known,?_,?_,?_⟩
    · intro idle
      obtain ⟨nobody,none⟩ := belongs.idle (same ▸ idle)
      exact ⟨grantless.interacting.trans nobody,grantless.noPending none⟩
    · intro saves nobody
      exact grantless.noPending (belongs.next (protects saves) (grantless.interacting.symm.trans nobody))
    · exact fun saves => (belongs.owed (protects saves)).grantless grantless
  · obtain ⟨nobody,none⟩ := belongs.idle before
    refine ⟨granted ▸ belongs.known,?_,?_,?_⟩
    · exact fun _ => ⟨grantless.interacting.trans nobody,grantless.noPending none⟩
    · exact fun saves => absurd saves (not_protects_of_quiet after)
    · exact fun saves => absurd saves (not_protects_of_quiet after)
  · refine ⟨granted ▸ belongs.known,?_,?_,?_⟩
    · exact fun idle => absurd idle (not_quiet_of_leaving leave)
    · exact fun saves => absurd saves (not_protects_of_leaving leave)
    · exact fun saves => absurd saves (not_protects_of_leaving leave)

theorem quiet_of_calm {state : State} (idle : calm state) : quiet state := by
  cases state <;> simp [calm,quiet] at *

theorem Belongs.settled (known : ledger.begun ≤ s'.granted.length) (idle : quiet s'.state)
    (nobody : s'.clientInteracting = none) (none : s'.NoPending) : Belongs ledger s' :=
  ⟨known,fun _ => ⟨nobody,none⟩,fun saves => absurd saves (not_protects_of_quiet idle),
    fun saves => absurd saves (not_protects_of_quiet idle)⟩

theorem handlePendingInteractions_belongs (known : ledger.begun ≤ s.granted.length)
    (idle : quiet s.state → s.clientInteracting = none ∧ s.NoPending) (owed : s.Protects → Owed ledger s) :
    Belongs ledger s.handlePendingInteractions := by
  unfold handlePendingInteractions
  split
  · rename_i interacting
    refine ⟨known,idle,?_,owed⟩
    intro _ nobody
    simp [nobody] at interacting
  · rename_i nobody
    split
    · rename_i found
      have none : s.NoPending := by
        intro c member
        simpa using find?_eq_none.mp found c member
      refine ⟨known,fun _ => ⟨not_isSome_iff_eq_none.mp nobody,none⟩,fun _ _ => none,owed⟩
    · rename_i c found
      have member := mem_of_find?_eq_some found
      have flag : c.pendingInteraction := find?_some found
      have sent : (({ s with clientInteracting := some c.conn }.update c.conn fun c =>
          { c with pendingInteraction := false }).endProtection.send [c.conn] .Interact).granted =
          s.granted++[(c.conn,.Interact)] := by
        simp [granted,send,update,endProtection]
      refine ⟨?_,?_,?_,?_⟩
      · rw [sent]
        simpa using Nat.le_succ_of_le known
      · intro quiets
        have none := (idle quiets).2 c member
        simp [none] at flag
      · intro _ other
        cases other
      · intro saves conn
        have before := owed saves conn
        rw [sent,drop_append_of_le_length known,count_append]
        have pending : (({ s with clientInteracting := some c.conn }.update c.conn fun c =>
            { c with pendingInteraction := false }).endProtection.send [c.conn] .Interact).pendingOf conn =
            (s.pendingOf conn && decide (conn ≠ c.conn)) := by
          rw [Bool.eq_iff_iff,Bool.and_eq_true,pendingOf_iff,pendingOf_iff]
          constructor
          · rintro ⟨d',inside,same,pending⟩
            obtain ⟨d,before,rfl⟩ := mem_map.mp inside
            split at same
            · rename_i this
              simp [this] at pending
            · rename_i this
              simp only [this,if_false] at pending
              exact ⟨⟨d,before,same,pending⟩,by simpa [← same] using this⟩
          · rintro ⟨⟨d,inside,rfl,pending⟩,apart⟩
            have other : d.conn ≠ c.conn := by simpa using apart
            exact ⟨d,mem_map.mpr ⟨d,inside,by simp [other]⟩,rfl,pending⟩
        rw [pending]
        by_cases same : conn = c.conn
        · have was : s.pendingOf conn := pendingOf_iff.mpr ⟨c,member,same.symm,flag⟩
          simp only [same,ne_eq,not_true_eq_false,decide_false,Bool.and_false,Bool.toNat_false]
          simp only [was,Bool.toNat_true] at before
          simpa [same] using before
        · have other : [(c.conn,Message.Interact)].count (conn,.Interact) = 0 := by
            simp [Ne.symm same]
          rw [other]
          simpa [same] using before

/-- The ledger stays right, and the operation the same as long as it lasts. -/
def Keeps (ledger : Ledger) (state : State) (s : Server) : Prop := Belongs ledger s ∧ (s.Protects → s.state = state)

variable {state : State}

theorem Belongs.keeps (belongs : Belongs ledger s) : Keeps ledger s.state s := ⟨belongs,fun _ => rfl⟩

theorem Keeps.change (keeps : Keeps ledger state s) (grantless : s.Grantless s')
    (next : s'.state = s.state ∨ (quiet s.state ∧ quiet s'.state) ∨ leaving s'.state) : Keeps ledger state s' := by
  refine ⟨keeps.1.change grantless next,?_⟩
  intro saves
  rcases next with same | ⟨_,idle⟩ | leave
  · rw [same]
    refine keeps.2 ?_
    unfold Protects at *
    rwa [same] at saves
  · exact absurd saves (not_protects_of_quiet idle)
  · exact absurd saves (not_protects_of_leaving leave)

theorem Keeps.aside (keeps : Keeps ledger state s) (aside : s.Aside s') : Keeps ledger state s' := by
  refine keeps.change aside.grantless ?_
  rcases aside.2 with same | ⟨before,after⟩ | ⟨_,after⟩
  · exact inl same
  · exact inr (inl ⟨quiet_of_calm before,quiet_of_calm after⟩)
  · exact inr (inr after)

theorem Keeps.update (keeps : Keeps ledger state s) (conn : Nat) (change : Client → Client)
    (stays : ∀ c, (change c).conn = c.conn) (flags : ∀ c, (change c).pendingInteraction → c.pendingInteraction) :
    Keeps ledger state (s.update conn change) := keeps.change (update_grantless s conn change stays flags) (inl rfl)

theorem Keeps.send (keeps : Keeps ledger state s) (conns : List Nat) (message : Message) (other : message ≠ .Interact) :
    Keeps ledger state (s.send conns message) := keeps.change (send_grantless s conns message other) (inl rfl)

theorem unfinished_pending (closing : s.state = ClosingSubSession) {conn : Nat} (left : s.unfinished conn) :
    ∃ c ∈ s.pendingClients, ¬c.saveYourselfDone := by
  simp only [unfinished,and_eq_true,decide_eq_true_eq] at left
  obtain ⟨member,found⟩ := left
  obtain ⟨c,here,notDone⟩ := (any_eq_true _ _).mp found
  refine ⟨c,?_,by simpa using notDone⟩
  simp only [pendingClients,closing,if_true]
  exact mem_filterMap.mpr ⟨conn,mem_eraseDups.mpr member,here⟩

theorem all_done (answered : ∀ c ∈ s.pendingClients, c.busy = false) (none : s.phase2Clients = []) :
    ∀ c ∈ s.pendingClients, c.saveYourselfDone := by
  intro c member
  by_contra notDone
  have idle := answered c member
  have waits : c.waitForPhase2 := by
    by_contra other
    simp [Client.busy,notDone,other] at idle
  have listed : c.conn ∈ s.phase2Clients := mem_map.mpr ⟨c,mem_filter.mpr ⟨member,by simp [notDone,waits]⟩,rfl⟩
  rw [none] at listed
  exact absurd listed not_mem_nil

theorem completeShutdownOrCheckpoint_keeps (env : Env) (keeps : Keeps ledger state s)
    (settles : s.state = ClosingSubSession → s.clientInteracting.isSome → ∃ other, s.unfinished other) :
    Keeps ledger state (s.completeShutdownOrCheckpoint env) := by
  have grantless := s.completeShutdownOrCheckpoint_grantless env
  rcases s.completeShutdownOrCheckpoint_cases env with same | ⟨saves,answered,⟨_,same⟩ | ⟨none,same⟩⟩
  · rwa [same]
  · refine keeps.change grantless (inl ?_)
    rw [same]
    rfl
  · obtain ⟨executed,config,clients,_,cases⟩ := s.completed_cases env saves
    rcases cases with ⟨_,ended⟩ | ⟨checkpoint,ended⟩ | ⟨closing,ended⟩
    · refine keeps.change grantless (inr (inr ?_))
      rw [same,ended]
      rfl
    · refine keeps.change grantless (inr (inl ⟨by simp [checkpoint,quiet],?_⟩))
      rw [same,ended]
      rfl
    · have nobody : s.clientInteracting = Option.none := by
        by_contra somebody
        obtain ⟨other,left⟩ := settles closing (Option.isSome_iff_ne_none.mpr somebody)
        obtain ⟨c,member,notDone⟩ := unfinished_pending closing left
        exact notDone (all_done answered none c member)
      have idle : quiet (s.completeShutdownOrCheckpoint env).state := by
        rw [same,ended]
        rcases startKillingSubSession_cases
          { s with executed := executed, config := config, clients := clients } with ⟨_,killing⟩ | ⟨_,_,killing⟩
        · rw [killing]
          rfl
        · rw [killing]
          rfl
      refine ⟨.settled ?_ idle (grantless.interacting.trans nobody) ?_,?_⟩
      · rw [grantless.granted]
        exact keeps.1.known
      · exact grantless.noPending (keeps.1.next (inr closing) nobody)
      · exact fun protects => absurd protects (not_protects_of_quiet idle)

theorem startProtection_keeps (keeps : Keeps ledger state s) : Keeps ledger state s.startProtection :=
  keeps.change (.of_clients rfl rfl fun c member flag => ⟨c,member,rfl,flag⟩) (inl rfl)

theorem wmPhase1Finished_keeps (keeps : Keeps ledger state s) : Keeps ledger state s.wmPhase1Finished := by
  refine keeps.change s.wmPhase1Finished_grantless (inl ?_)
  unfold wmPhase1Finished
  dsimp only
  split <;> rfl

theorem find_update_other {conn other : Nat} {change : Client → Client} (apart : other ≠ conn)
    (stays : ∀ c, (change c).conn = c.conn) : (s.update conn change).find other = s.find other := by
  simp only [find,update_clients,find?_map]
  have same : (fun (c : Client) => decide (c.conn = other)) ∘ (fun c => if c.conn = conn then change c else c) =
      fun (c : Client) => decide (c.conn = other) := by
    funext c
    by_cases this : c.conn = conn <;> simp [this,stays]
  rw [same]
  cases found : s.clients.find? fun (c : Client) => decide (c.conn = other) with
  | none => rfl
  | some c =>
    have number : c.conn = other := by simpa using find?_some found
    simp [number,apart]

theorem unfinished_update {conn other : Nat} {change : Client → Client} (stays : ∀ c, (change c).conn = c.conn)
    (left : s.unfinished other) (open_ : other ≠ conn ∨ ∀ c, (change c).saveYourselfDone = c.saveYourselfDone) :
    (s.update conn change).unfinished other := by
  by_cases this : other = conn
  · have done := open_.resolve_left (not_not.mpr this)
    simp only [unfinished,and_eq_true,decide_eq_true_eq] at left ⊢
    refine ⟨left.1,?_⟩
    have same : (fun (c : Client) => decide (c.conn = other)) ∘ (fun c => if c.conn = conn then change c else c) =
        fun (c : Client) => decide (c.conn = other) := by
      funext c
      by_cases here : c.conn = conn <;> simp [here,stays]
    obtain ⟨c,found,notDone⟩ := (any_eq_true _ _).mp left.2
    refine (any_eq_true _ _).mpr ⟨if c.conn = conn then change c else c,?_,?_⟩
    · simp only [find,update_clients,find?_map,same]
      simp only [find] at found
      simp [found]
    · split <;> simpa [done] using notDone
  · simp only [unfinished,and_eq_true,decide_eq_true_eq] at left ⊢
    rw [find_update_other this stays]
    exact left

theorem unfinished_handlePendingInteractions {other : Nat} (left : s.unfinished other) :
    s.handlePendingInteractions.unfinished other := by
  unfold handlePendingInteractions
  split
  · exact left
  · split
    · exact left
    · rename_i c _
      exact unfinished_update (s := { s with clientInteracting := some c.conn }) (fun _ => rfl) left
        (inr fun _ => rfl)

theorem interaction_over (keeps : Keeps ledger state s) :
    Keeps ledger state { s with clientInteracting := none }.handlePendingInteractions := by
  have same := { s with clientInteracting := none }.handlePendingInteractions_state
  refine ⟨handlePendingInteractions_belongs keeps.1.known (fun idle => ⟨rfl,(keeps.1.idle idle).2⟩) keeps.1.owed,?_⟩
  unfold Protects at *
  rw [same]
  exact keeps.2

theorem removeClient_keeps (keeps : Keeps ledger state s) (conn : Nat) : Keeps ledger state (s.removeClient conn) := by
  have removed : Keeps ledger state { s with
      clients := s.clients.filter fun (c : Client) => c.conn ≠ conn
      clientsToKill := s.clientsToKill.filter (· ≠ conn)
      clientsToSave := s.clientsToSave.filter (· ≠ conn) } :=
    keeps.change (.of_clients rfl rfl fun c member flag => ⟨c,(mem_filter.mp member).1,rfl,flag⟩) (inl rfl)
  unfold removeClient
  dsimp only
  split
  · exact interaction_over removed
  · exact removed

theorem cancelShutdown_keeps (belongs : Belongs ledger s) (none : s.NoPending) :
    Keeps ledger state s.cancelShutdown := by
  unfold cancelShutdown
  dsimp only
  split
  · exact ⟨.settled belongs.known rfl rfl none,fun saves => by rcases saves with idle | idle <;> cases idle⟩
  · have grantless : Grantless { s with clientInteracting := Option.none } (((s.clients.filter
        Client.saveYourselfDone).map Client.discardCommand).foldl executeCommand
        ({ s with clientInteracting := Option.none }.send (s.clients.map Client.conn) .ShutdownCancelled)) :=
      (send_grantless _ _ _ (by simp)).trans (executeCommands_grantless _ _)
    refine ⟨.settled ?_ rfl grantless.interacting (grantless.noPending none),
      fun saves => by rcases saves with idle | idle <;> cases idle⟩
    exact (congrArg length grantless.granted).symm ▸ belongs.known

theorem interactRequest_belongs (belongs : Belongs ledger s) (conn : Nat) :
    Belongs (if (s.find conn).isSome then { ledger with requests := conn :: ledger.requests } else ledger)
      (s.interactRequest conn) := by
  simp only [interactRequest]
  cases found : s.find conn with
  | none => simpa using belongs
  | some client =>
    simp only [isSome_some,if_true]
    have more (owed : Owed ledger s) : Owed { ledger with requests := conn :: ledger.requests } s := by
      intro other
      exact Nat.le_trans (owed other) (count_le_count_cons)
    split
    · rename_i protects
      refine handlePendingInteractions_belongs belongs.known ?_ ?_
      · exact fun idle => absurd protects (not_protects_of_quiet idle)
      · intro _ other
        have before := belongs.owed protects other
        change (s.granted.drop ledger.begun).count (other,.Interact)+_ ≤ (conn :: ledger.requests).count other
        by_cases same : other = conn
        · have one : ((s.update conn fun c => { c with pendingInteraction := true }).pendingOf other).toNat ≤ 1 :=
            toNat_le _
          rw [same,count_cons_self]
          rw [same] at one before
          omega
        · have kept : ((s.update conn fun c => { c with pendingInteraction := true }).pendingOf other) →
              s.pendingOf other := by
            intro pending
            obtain ⟨c',member,rfl,flag⟩ := pendingOf_iff.mp pending
            obtain ⟨c,inside,rfl⟩ := mem_map.mp member
            by_cases this : c.conn = conn
            · simp [this] at same
            · simp only [this,if_false] at flag ⊢
              exact pendingOf_iff.mpr ⟨c,inside,rfl,flag⟩
          have le : ((s.update conn fun c => { c with pendingInteraction := true }).pendingOf other).toNat ≤
              (s.pendingOf other).toNat := by
            cases after : (s.update conn fun c => { c with pendingInteraction := true }).pendingOf other with
            | false => simp
            | true => simp [kept after]
          rw [count_cons_of_ne (Ne.symm same)]
          omega
    · rename_i other
      have longer : s.granted.length ≤ (s.send [conn] .Interact).granted.length := by
        simp [granted,Server.send]
      refine handlePendingInteractions_belongs (Nat.le_trans belongs.known longer) ?_ ?_
      · exact fun idle => belongs.idle idle
      · exact fun protects => absurd protects other

theorem Grantless.reset (s : Server) (count : Nat) :
    s.Grantless { s with clients := s.clients.map Client.resetState, wmPhase1WaitingCount := count } := by
  refine .of_clients rfl rfl ?_
  intro c' member flag
  obtain ⟨c,_,rfl⟩ := mem_map.mp member
  cases flag

theorem askFirst_grantless (s : Server) (shutdown : Bool) (interactStyle : InteractStyle) :
    s.Grantless (s.askFirst shutdown interactStyle) ∧ (s.askFirst shutdown interactStyle).NoPending ∧
      (s.askFirst shutdown interactStyle).state = s.state := by
  have reset := Grantless.reset s (s.clients.filter s.isWM).length
  have none : NoPending { s with
      clients := s.clients.map Client.resetState, wmPhase1WaitingCount := (s.clients.filter s.isWM).length } := by
    intro c' member
    obtain ⟨c,_,rfl⟩ := mem_map.mp member
    rfl
  unfold askFirst
  dsimp only
  split
  · exact ⟨reset.trans (send_grantless _ _ _ (by simp)),none,rfl⟩
  · exact ⟨reset.trans (send_grantless _ _ _ (by simp)),none,rfl⟩

theorem Belongs.fresh {begun : Nat} (before : s.granted.length = begun) (none : s.NoPending) (protects : s.Protects) :
    Belongs ⟨[],begun⟩ s := by
  refine ⟨Nat.le_of_eq before.symm,?_,fun _ _ => none,?_⟩
  · exact fun idle => absurd protects (not_protects_of_quiet idle)
  · intro _ conn
    have settled := noPending_iff.mp none conn
    simp [settled,← before]

theorem askClients_begins (env : Env) {begun : Nat} (shutdown_ : s.state = Shutdown) (before : s.granted.length = begun)
    (shutdown : Bool) (interactStyle : InteractStyle) :
    Keeps ⟨[],begun⟩ Shutdown (s.askClients env shutdown interactStyle) := by
  obtain ⟨grantless,none,same⟩ := s.askFirst_grantless shutdown interactStyle
  have state := same.trans shutdown_
  have begun : Keeps ⟨[],begun⟩ Shutdown (s.askFirst shutdown interactStyle) := by
    refine ⟨?_,fun _ => state⟩
    exact .fresh ((congrArg length grantless.granted).trans before) none (inl state)
  unfold askClients
  dsimp only
  split
  · refine completeShutdownOrCheckpoint_keeps env begun fun closing => ?_
    rw [state] at closing
    cases closing
  · exact begun

theorem shutdownConfirmed_begins (env : Env) (s : Server) (sdtype : ShutdownType) (sdmode : ShutdownMode) (bopt : String) :
    Keeps ⟨[],s.granted.length⟩ Shutdown (s.shutdownConfirmed env sdtype sdmode bopt) := by
  unfold shutdownConfirmed
  dsimp only
  split
  · refine askClients_begins env ?_ ?_ _ _ <;> rfl
  · refine askClients_begins env ?_ ?_ _ _ <;> rfl

/-- What begins a logout or a closing, and what keeps the operation. -/
def Goes (ledger : Ledger) (s s' : Server) : Prop :=
  Keeps ledger s.state s' ∨
    ∃ state, state ≠ s.state ∧ (state = Shutdown ∨ state = ClosingSubSession) ∧ Keeps ⟨[],s.granted.length⟩ state s'

theorem Goes.belongs (known : ledger.begun ≤ s.granted.length) (goes : Goes ledger s s') :
    Belongs (if s'.Protects ∧ s'.state ≠ s.state then ⟨[],s.granted.length⟩ else ledger) s' := by
  rcases goes with keeps | ⟨state,apart,_,begun⟩
  · rw [if_neg fun both => both.2 (keeps.2 both.1)]
    exact keeps.1
  · by_cases protects : s'.Protects
    · rw [if_pos ⟨protects,(begun.2 protects).symm ▸ apart⟩]
      exact begun.1
    · rw [if_neg fun both => protects both.1]
      exact ⟨Nat.le_trans known begun.1.known,begun.1.idle,fun saves => absurd saves protects,
        fun saves => absurd saves protects⟩

theorem shutdown_goes (env : Env) (belongs : Belongs ledger s) (confirm : ShutdownConfirm) (sdtype : ShutdownType)
    (sdmode : ShutdownMode) : Goes ledger s (s.shutdown env confirm sdtype sdmode) := by
  have kept {s' : Server} (same : s'.clientInteracting = s.clientInteracting ∧ s'.clients = s.clients ∧
      s'.sent = s.sent ∧ s'.state = s.state) : Goes ledger s s' := by
    refine inl (belongs.keeps.change (.of_clients same.1 ?_ ?_) (inl same.2.2.2))
    · unfold granted
      rw [same.2.2.1]
    · exact fun c member flag => ⟨c,same.2.1 ▸ member,rfl,flag⟩
  unfold shutdown
  dsimp only
  split
  · exact kept ⟨rfl,rfl,rfl,rfl⟩
  · split
    · exact kept ⟨rfl,rfl,rfl,rfl⟩
    · split
      · split
        · exact kept ⟨rfl,rfl,rfl,rfl⟩
        · exact kept ⟨rfl,rfl,rfl,rfl⟩
      · rename_i idle
        have state : s.state = Idle := not_not.mp idle
        split
        · exact kept ⟨rfl,rfl,rfl,rfl⟩
        · split
          · exact kept ⟨rfl,rfl,rfl,rfl⟩
          · refine inr ⟨Shutdown,by simp [state],inl rfl,?_⟩
            have confirmed := shutdownConfirmed_begins env { s with pendingShutdown := false, dialogActive := true }
              (if !maysd env then .None else if sdtype = .Default then env.shutdownType else sdtype)
              (if sdmode = .Default then .Interactive else sdmode) ""
            exact confirmed.change (.of_clients rfl rfl fun c member flag => ⟨c,member,rfl,flag⟩) (inl rfl)

theorem saveCurrentSession_keeps (env : Env) (belongs : Belongs ledger s) :
    Keeps ledger s.state (s.saveCurrentSession env) := by
  unfold saveCurrentSession
  dsimp only
  split
  · exact belongs.keeps
  · rename_i possible
    have idle : s.state = Idle := not_not.mp (not_or.mp possible).1
    have asked {t : Server} (keeps : Keeps ledger s.state t) (checkpoint : t.state = Checkpoint) :
        Keeps ledger s.state (t.askClients env false .SmInteractStyleNone) := by
      obtain ⟨grantless,_,same⟩ := t.askFirst_grantless false .SmInteractStyleNone
      have first := keeps.change grantless (inl same)
      unfold askClients
      dsimp only
      split
      · refine completeShutdownOrCheckpoint_keeps env first fun closing => ?_
        rw [same,checkpoint] at closing
        cases closing
      · exact first
    have quiets : quiet s.state := by simp [idle,quiet,calm]
    split
    · refine asked (belongs.keeps.change ?_ (inr (inl ⟨quiets,?_⟩))) ?_
      · exact .of_clients rfl rfl fun c member flag => ⟨c,member,rfl,flag⟩
      · rfl
      · rfl
    · refine asked (belongs.keeps.change ?_ (inr (inl ⟨quiets,?_⟩))) ?_
      · exact .of_clients rfl rfl fun c member flag => ⟨c,member,rfl,flag⟩
      · rfl
      · rfl

theorem saveSubSession_goes (env : Env) (belongs : Belongs ledger s) (name : String)
    (saveAndClose saveOnly : List String) : Goes ledger s (s.saveSubSession env name saveAndClose saveOnly) := by
  unfold saveSubSession
  split
  · exact inl belongs.keeps
  · rename_i possible
    have idle : s.state = Idle := not_not.mp possible
    obtain ⟨nobody,none⟩ := belongs.idle (by simp [idle,quiet,calm])
    refine inr ⟨ClosingSubSession,by simp [idle],inr rfl,?_⟩
    refine completeShutdownOrCheckpoint_keeps env ?_ fun _ somebody => ?_
    · refine Keeps.send ?_ _ _ ?_
      · refine ⟨.fresh ?_ ?_ (inr ?_),fun _ => rfl⟩
        · rfl
        rotate_left
        · rfl
        intro c' member
        obtain ⟨c,inside,rfl⟩ := mem_map.mp member
        split
        · rfl
        · exact none c inside
      · simp
    · change s.clientInteracting.isSome at somebody
      simp [nobody] at somebody

theorem signalSubSessionClosed_keeps (keeps : Keeps ledger state s) : Keeps ledger state s.signalSubSessionClosed := by
  unfold signalSubSessionClosed
  split
  · exact keeps
  · rename_i killing
    refine keeps.change (.of_clients rfl rfl fun c member flag => ⟨c,member,rfl,flag⟩) (inr (inl ⟨?_,rfl⟩))
    simp [not_not.mp killing,quiet]

theorem completeKillingSubSession_keeps (keeps : Keeps ledger state s) :
    Keeps ledger state s.completeKillingSubSession := by
  unfold completeKillingSubSession
  split
  · split
    · exact keeps
    · exact signalSubSessionClosed_keeps keeps
  · exact keeps

theorem interactDone_cancels (belongs : Belongs ledger s) (none : s.NoPending) :
    Keeps ledger s.state { s with clientInteracting := Option.none }.cancelShutdown := by
  have same : { s with clientInteracting := Option.none }.cancelShutdown = s.cancelShutdown := rfl
  rw [same]
  exact cancelShutdown_keeps belongs none

theorem removeClient_interacting {conn : Nat} (somebody : (s.removeClient conn).clientInteracting.isSome) :
    (∃ other, s.clientInteracting = some other ∧ other ≠ conn) ∨
      ∃ c ∈ s.clients, c.conn ≠ conn ∧ c.pendingInteraction := by
  unfold removeClient at somebody
  dsimp only at somebody
  split at somebody
  · right
    unfold handlePendingInteractions at somebody
    simp only [isSome_none,false_eq_true,if_false] at somebody
    split at somebody
    · simp [startProtection] at somebody
    · rename_i c found
      obtain ⟨inside,apart⟩ := mem_filter.mp (mem_of_find?_eq_some found)
      exact ⟨c,inside,by simpa using apart,find?_some found⟩
  · rename_i other
    obtain ⟨interacting,same⟩ := isSome_iff_exists.mp somebody
    exact inl ⟨interacting,same,fun equal => other (equal ▸ same)⟩

theorem unfinished_removeClient {conn other : Nat} (apart : other ≠ conn) (left : s.unfinished other) :
    (s.removeClient conn).unfinished other := by
  have removed : { s with
      clients := s.clients.filter fun (c : Client) => c.conn ≠ conn
      clientsToKill := s.clientsToKill.filter (· ≠ conn)
      clientsToSave := s.clientsToSave.filter (· ≠ conn) }.unfinished other := by
    simp only [unfinished,find,and_eq_true,decide_eq_true_eq,find?_filter] at left ⊢
    refine ⟨mem_filter.mpr ⟨left.1,by simpa using apart⟩,?_⟩
    have same : (fun (c : Client) => decide (c.conn ≠ conn ∧ c.conn = other)) =
        fun (c : Client) => decide (c.conn = other) := by
      funext c
      by_cases this : c.conn = other <;> simp [this,apart]
    rw [same]
    exact left.2
  unfold removeClient
  dsimp only
  split
  · exact unfinished_handlePendingInteractions removed
  · exact removed

theorem deleteClient_keeps_grants (env : Env) (belongs : Belongs ledger s) (conn : Nat)
    (settles : s.Settles (.deleteClient conn)) : Keeps ledger s.state (s.deleteClient env conn) := by
  refine deleteClient_keeps (P := Keeps ledger s.state) belongs.keeps (removeClient_keeps belongs.keeps conn) ?_ ?_ ?_ ?_
  · refine fun removed => completeShutdownOrCheckpoint_keeps env removed fun closing somebody => ?_
    rw [s.removeClient_state conn] at closing
    obtain ⟨other,_,apart,left⟩ := settles closing (removeClient_interacting somebody)
    exact ⟨other,unfinished_removeClient apart left⟩
  · exact fun t kept => kept.aside t.completeKilling_aside
  · exact fun t kept => completeKillingSubSession_keeps kept
  · exact fun t kept => kept.aside t.completeKillingWM_aside

theorem Ledger.note_aside (ledger : Ledger) (s s' : Server) {event : Event} (aside : event.aside) :
    ledger.note s s' event = if s'.Protects ∧ s'.state ≠ s.state then ⟨[],s.granted.length⟩ else ledger := by
  cases event with
  | interactRequest conn => simp [Event.aside] at aside
  | dialogAnswered answer => simp [Event.aside] at aside
  | _ => rfl

theorem newClient_keeps (belongs : Belongs ledger s) : Keeps ledger s.state s.newClient := by
  refine belongs.keeps.change (.of_clients rfl rfl ?_) (inl rfl)
  intro c member flag
  rcases mem_append.mp member with inside | new
  · exact ⟨c,inside,rfl,flag⟩
  · simp [mem_singleton.mp new] at flag

theorem registerClient_keeps (belongs : Belongs ledger s) (conn : Nat) (previousId : Option String) (generated : String) :
    Keeps ledger s.state (s.registerClient conn previousId generated) := by
  simp only [registerClient]
  split
  · exact belongs.keeps
  · have named := belongs.keeps.update conn (fun c => { c with id := some (previousId.getD generated) })
      (fun _ => rfl) fun _ => id
    exact ((named.send _ _ (by simp)).send _ .SaveComplete (by simp)).aside (clientRegistered_aside _ _)

theorem setProperty_keeps (belongs : Belongs ledger s) (conn : Nat) (property : Property) :
    Keeps ledger s.state (s.setProperty conn property) := by
  have set := belongs.keeps.update conn property.set property.set_conn fun c => by cases property <;> exact id
  simp only [setProperty,clientSetProgram]
  split
  · exact belongs.keeps
  · split
    · split
      · exact set.aside (autoStart0_aside _)
      · exact set
    · exact set

theorem saveYourselfDone_keeps (env : Env) (belongs : Belongs ledger s) (conn : Nat)
    (settles : s.Settles (.saveYourselfDone conn)) : Keeps ledger s.state (s.saveYourselfDone env conn) := by
  simp only [saveYourselfDone]
  split
  · exact belongs.keeps
  · rename_i client _
    split
    · exact belongs.keeps.change (executeCommands_grantless s [client.discardCommand])
        (inl (by obtain ⟨_,same⟩ := s.executeCommand_frame client.discardCommand; simp [same]))
    · have saved := completeShutdownOrCheckpoint_keeps env (belongs.keeps.update conn
        (fun c => { c with saveYourselfDone := true }) (fun _ => rfl) fun _ => id) fun closing somebody => by
          obtain ⟨other,_,apart,left⟩ := settles closing somebody
          exact ⟨other,unfinished_update (fun _ => rfl) left (inl apart)⟩
      split
      · exact wmPhase1Finished_keeps (startProtection_keeps saved)
      · exact startProtection_keeps saved

theorem phase2Request_keeps (env : Env) (belongs : Belongs ledger s) (conn : Nat)
    (settles : s.Settles (.phase2Request conn)) : Keeps ledger s.state (s.phase2Request env conn) := by
  simp only [phase2Request]
  split
  · exact belongs.keeps
  · have saved := completeShutdownOrCheckpoint_keeps env (belongs.keeps.update conn
      (fun c => { c with waitForPhase2 := true, wasPhase2 := true }) (fun _ => rfl) fun _ => id)
      fun closing somebody => by
        obtain ⟨other,_,left⟩ := settles closing somebody
        exact ⟨other,unfinished_update (fun _ => rfl) left (inr fun _ => rfl)⟩
    split
    · exact wmPhase1Finished_keeps saved
    · exact saved

theorem protectionTimeout_keeps (env : Env) (belongs : Belongs ledger s) :
    Keeps ledger s.state ({ s with protectionTimer := false }.protectionTimeout env) := by
  simp only [protectionTimeout]
  split
  · exact belongs.keeps.change (.of_clients rfl rfl fun c member flag => ⟨c,member,rfl,flag⟩) (inl rfl)
  · rename_i quiets
    have nobody : ¬s.clientInteracting.isSome := (not_or.mp quiets).2
    refine startProtection_keeps (completeShutdownOrCheckpoint_keeps env ?_ fun _ somebody => absurd somebody nobody)
    refine belongs.keeps.change (.of_clients rfl rfl ?_) (inl rfl)
    intro c' member flag
    obtain ⟨c,inside,rfl⟩ := mem_map.mp member
    refine ⟨c,inside,?_,?_⟩
    · split <;> rfl
    · split at flag <;> exact flag

theorem dialogAnswered_belongs (env : Env) (belongs : Belongs ledger s) (answer : Option (ShutdownType × String)) :
    Belongs (ledger.note s (s.dialogAnswered env answer) (.dialogAnswered answer)) (s.dialogAnswered env answer) := by
  cases answer with
  | none =>
    refine Goes.belongs belongs.known (inl ?_)
    simp only [dialogAnswered]
    split
    · exact belongs.keeps
    · exact belongs.keeps.change (.of_clients rfl rfl fun c member flag => ⟨c,member,rfl,flag⟩) (inl rfl)
  | some chosen =>
    obtain ⟨sdtype,bopt⟩ := chosen
    simp only [dialogAnswered,Ledger.note]
    by_cases active : s.dialogActive
    · simp only [active,Bool.not_true,Bool.false_eq_true,if_false,if_true]
      have confirmed := shutdownConfirmed_begins env s sdtype s.dialogMode bopt
      refine (confirmed.change ?_ (inl ?_)).1
      · exact .of_clients rfl rfl fun c member flag => ⟨c,member,rfl,flag⟩
      · rfl
    · simpa [active] using belongs

theorem step_belongs (env : Env) (belongs : Belongs ledger s) (event : Event) (settles : s.Settles event) :
    Belongs (ledger.note s (s.step env event) event) (s.step env event) := by
  have known := belongs.known
  have kept {s' : Server} (keeps : Keeps ledger s.state s') := Goes.belongs known (inl keeps)
  by_cases aside : event.aside
  · rw [Ledger.note_aside ledger s (s.step env event) aside]
    exact kept (belongs.keeps.aside (s.step_aside env aside))
  · cases event with
    | newClient => exact kept (newClient_keeps belongs)
    | registerClient conn previousId generated => exact kept (registerClient_keeps belongs conn previousId generated)
    | setProperty conn property => exact kept (setProperty_keeps belongs conn property)
    | deleteProperty conn property =>
      exact kept (belongs.keeps.update conn _ property.cleared.set_conn fun c => by cases property <;> exact id)
    | saveYourselfRequest conn saveType shutdown interactStyle fast global =>
      refine Goes.belongs known ?_
      simp only [step,saveYourselfRequest]
      split
      · exact shutdown_goes env belongs _ _ _
      · split
        · exact inl ((belongs.keeps.send _ _ (by simp)).send _ _ (by simp))
        · exact inl belongs.keeps
    | saveYourselfDone conn => exact kept (saveYourselfDone_keeps env belongs conn settles)
    | phase2Request conn => exact kept (phase2Request_keeps env belongs conn settles)
    | interactRequest conn => exact interactRequest_belongs belongs conn
    | interactDone conn cancel =>
      refine kept ?_
      simp only [step,interactDone]
      split
      · exact belongs.keeps
      · rename_i interacting
        split
        · rename_i cancels
          have none := settles (not_not.mp interacting) cancels
          exact interactDone_cancels belongs none
        · exact interaction_over belongs.keeps
    | deleteClient conn => exact kept (deleteClient_keeps_grants env belongs conn settles)
    | logout confirm sdtype sdmode => exact Goes.belongs known (shutdown_goes env belongs confirm sdtype sdmode)
    | dialogAnswered answer => exact dialogAnswered_belongs env belongs answer
    | saveCurrentSession => exact kept (saveCurrentSession_keeps env belongs)
    | saveCurrentSessionAs session =>
      refine kept ?_
      simp only [step,saveCurrentSessionAs]
      split
      · exact belongs.keeps
      · have named : Belongs ledger { s with sessionGroup := "Session: "++session } :=
          belongs.change (.of_clients rfl rfl fun c member flag => ⟨c,member,rfl,flag⟩) (inl rfl)
        have saved := saveCurrentSession_keeps env named
        exact saved
    | saveSubSession name saveAndClose saveOnly =>
      exact Goes.belongs known (saveSubSession_goes env belongs name saveAndClose saveOnly)
    | restoreSubSession name => exact settles.elim
    | protectionTimeout =>
      refine kept ?_
      simp only [step]
      split
      · exact protectionTimeout_keeps env belongs
      · exact belongs.keeps
    | pendingShutdownTimeout =>
      refine Goes.belongs known ?_
      simp only [step,pendingShutdownTimeout]
      split
      · exact shutdown_goes env belongs _ _ _
      · exact inl belongs.keeps
    | shot slot =>
      refine kept ?_
      have undeclared : slot = .signalSubSessionClosed := by simpa [Event.aside] using aside
      simp only [step,undeclared,callSlot]
      split
      · refine signalSubSessionClosed_keeps (belongs.keeps.change ?_ (inl rfl))
        exact .of_clients rfl rfl fun c member flag => ⟨c,member,rfl,flag⟩
      · exact belongs.keeps
    | _ => simp [Event.aside] at aside

theorem run_belongs (s : Server) (events : List (Env × Event)) (ledger : Ledger) (belongs : Belongs ledger s)
    (settle : s.AllSettle events) : Belongs (runLedger ledger s events) (s.run events) := by
  induction events generalizing s ledger with
  | nil => exact belongs
  | cons head events ih => exact ih _ _ (step_belongs head.1 belongs head.2 settle.1) settle.2

/-- Interaction grants belong to one operation: nobody interacts or waits for it while the server is idle; while clients
save, each grant of the operation answers a request that its client has made in it, one for one, and nobody waits
while nobody interacts. -/
def OwnGrants (ledger : Ledger) (s : Server) : Prop :=
  (s.state = Idle → s.clientInteracting = none ∧ s.NoPending) ∧
    (s.Protects → (∀ conn, (s.granted.drop ledger.begun).count (conn,.Interact) ≤ ledger.requests.count conn) ∧
      (s.clientInteracting = none → s.NoPending))

end Server
end KdeWorkspace.SessionServer
