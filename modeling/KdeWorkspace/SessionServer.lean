import Mathlib.Data.List.Basic

/-!
The session manager of KDE: the clients, the states and what a logout, a checkpoint and the closing of a part
of the session do to them.

A client stands for its connection, which has a number of its own, and what the server sends to it is
recorded. The dialog of a logout runs an event loop, and its answer is an event. A timer is whether it is
active. The sessions of legacy applications, the notifications, the shortcuts and the power management are
left out.
-/
namespace KdeWorkspace.SessionServer

inductive State
  | Idle
  | LaunchingWM
  | AutoStart0
  | KcmInitPhase1
  | AutoStart1
  | Restoring
  | FinishingStartup
  | Shutdown
  | Checkpoint
  | Killing
  | KillingWM
  | WaitingForKNotify
  | ClosingSubSession
  | KillingSubSession
  | RestoringSubSession
deriving DecidableEq, Repr

open State

/-- The place of a state in its enumeration, for `state >= Shutdown`. -/
def State.ordinal : State → Nat
  | Idle => 0
  | LaunchingWM => 1
  | AutoStart0 => 2
  | KcmInitPhase1 => 3
  | AutoStart1 => 4
  | Restoring => 5
  | FinishingStartup => 6
  | Shutdown => 7
  | Checkpoint => 8
  | Killing => 9
  | KillingWM => 10
  | WaitingForKNotify => 11
  | ClosingSubSession => 12
  | KillingSubSession => 13
  | RestoringSubSession => 14

inductive SaveType
  | SmSaveGlobal
  | SmSaveLocal
  | SmSaveBoth
deriving DecidableEq, Repr

inductive InteractStyle
  | SmInteractStyleNone
  | SmInteractStyleAny
deriving DecidableEq, Repr

inductive Message
  | SaveYourself (saveType : SaveType) (shutdown : Bool) (interactStyle : InteractStyle) (fast : Bool)
  | SaveYourselfPhase2
  | SaveComplete
  | Interact
  | ShutdownCancelled
  | Die
deriving DecidableEq, Repr

inductive ShutdownConfirm
  | Default
  | No
  | Yes
deriving DecidableEq, Repr

inductive ShutdownType
  | Default
  | None
  | Reboot
  | Halt
deriving DecidableEq, Repr

inductive ShutdownMode
  | Default
  | Schedule
  | TryNow
  | ForceNow
  | Interactive
deriving DecidableEq, Repr

/-- The hint that a client is not to be started again. -/
def SmRestartNever : Nat := 3

/-- A client; `conn` is the number of its connection, and the strings and lists are its properties. -/
structure Client where
  conn : Nat
  id : Option String
  program : String
  restartCommand : List String
  discardCommand : List String
  restartStyleHint : Nat
  userId : String
  saveYourselfDone : Bool
  pendingInteraction : Bool
  waitForPhase2 : Bool
  wasPhase2 : Bool
deriving DecidableEq, Repr

def Client.clientId (client : Client) : String := client.id.getD ""

def Client.resetState (client : Client) : Client :=
  { client with saveYourselfDone := false, pendingInteraction := false, waitForPhase2 := false, wasPhase2 := false }

/-- Neither done nor waiting for the second phase. -/
def Client.busy (client : Client) : Bool := !client.saveYourselfDone && !client.waitForPhase2

/-- What is stored about a client under its number. -/
structure Entry where
  program : String
  clientId : String
  restartCommand : List String
  discardCommand : List String
  restartStyleHint : Nat
  userId : String
  clientMachine : String
  wasWm : Bool
deriving DecidableEq, Repr

/-- What is read where nothing has been stored. -/
def Entry.missing : Entry := ⟨"","",[],[],0,"","",false⟩

/-- A group of the configuration: `count` and the entries by their numbers. -/
structure Group where
  count : Nat
  entry : Nat → Entry

def Group.empty : Group := ⟨0,fun _ => .missing⟩

/-- The slots which a single shot is made for. -/
inductive Slot
  | logoutSoundTimeout
  | timeoutQuit
  | timeoutWMQuit
  | signalSubSessionClosed
  | autoStart0
  | kcmPhase1Done
  | kcmPhase1Timeout
  | kcmPhase2Done
  | kcmPhase2Timeout
deriving DecidableEq, Repr

/-- Whether `server.h` declares it among the slots. -/
def Slot.declared : Slot → Bool
  | .signalSubSessionClosed => false
  | _ => true

/-- What the configuration and the system say; `canShutdown` is that of the display manager. -/
structure Env where
  confirmLogout : Bool
  offerShutdown : Bool
  canShutdown : Bool
  shutdownType : ShutdownType
  restorePreviousLogout : Bool
  excludeApps : List String
  kcminit : Bool
  toLower : String → String
  fileName : String → String

/-- A system which asks nothing and forbids nothing. -/
def Env.plain : Env := ⟨false,true,true,.None,true,[],true,id,id⟩

structure Server where
  state : State
  entered : List State
  dialogActive : Bool
  dialogType : ShutdownType
  dialogMode : ShutdownMode
  saveSession : Bool
  wmPhase1WaitingCount : Nat
  saveType : SaveType
  startupSuspendCount : List (String × Nat)
  shutdownType : ShutdownType
  shutdownMode : ShutdownMode
  bootOption : String
  clients : List Client
  clientInteracting : Option Nat
  wm : String
  wmCommands : List String
  sessionGroup : String
  protectionTimer : Bool
  restoreTimer : Bool
  startupSuspendTimeoutTimer : Bool
  waitAutoStart2 : Bool
  waitKcmInit2 : Bool
  pendingShutdown : Bool
  pendingShutdown_confirm : ShutdownConfirm
  pendingShutdown_sdtype : ShutdownType
  pendingShutdown_sdmode : ShutdownMode
  appsToStart : Nat
  lastAppStarted : Nat
  lastIdStarted : String
  klauncherSignals : List Nat
  kcminitSignals : Bool
  kcmPhase1Connected : Bool
  kcmPhase2Connected : Bool
  clientsToKill : List Nat
  clientsToSave : List Nat
  shots : List Slot
  nextClient : Nat
  config : String → Group
  sent : List (Nat × Message)
  started : List (List String × String × String)
  executed : List (List String)
  quit : Bool

namespace Server

def isWM (s : Server) (client : Client) : Bool := client.program = s.wm

def currentSession (s : Server) : String :=
  if "Session: ".toList.isPrefixOf s.sessionGroup.toList then String.ofList (s.sessionGroup.toList.drop 9) else ""

def defaultSession (s : Server) : Bool := s.sessionGroup = ""

def find (s : Server) (conn : Nat) : Option Client := s.clients.find? fun (c : Client) => c.conn = conn

/-- A change of the flags of one client. -/
def update (s : Server) (conn : Nat) (f : Client → Client) : Server :=
  { s with clients := s.clients.map fun (c : Client) => if c.conn = conn then f c else c }

/-- The states which are entered are recorded. -/
def enter (s : Server) (state : State) : Server := { s with state := state, entered := s.entered++[state] }

def send (s : Server) (conns : List Nat) (message : Message) : Server :=
  { s with sent := s.sent++conns.map (·,message) }

def executeCommand (s : Server) (command : List String) : Server :=
  if command = [] then s else { s with executed := s.executed++[command] }

/-- `QTimer::singleShot`, which connects to nothing where there is no such slot. -/
def singleShot (s : Server) (slot : Slot) : Server := if slot.declared then { s with shots := s.shots++[slot] } else s

def startProtection (s : Server) : Server := { s with protectionTimer := true }

def endProtection (s : Server) : Server := { s with protectionTimer := false }

/-- The window manager is put first, if it is there. -/
def wmFirst (s : Server) : List Client :=
  match s.clients.find? fun (c : Client) => c.program = s.wm with
  | none => s.clients
  | some c => c :: s.clients.filter fun (d : Client) => d.conn ≠ c.conn

/-- The clients which `storeSession` does not leave out. -/
def stores (env : Env) (s : Server) (c : Client) : Bool :=
  if c.restartStyleHint = SmRestartNever then false
  else if c.program = "" ∧ c.restartCommand = [] then false
  else if s.state = ClosingSubSession ∧ c.conn ∉ s.clientsToSave then false
  else if env.toLower c.program ∈ env.excludeApps ∨ env.toLower (env.fileName c.program) ∈ env.excludeApps then false
  else true

def entryOf (s : Server) (c : Client) : Entry :=
  { program := c.program, clientId := c.clientId, restartCommand := c.restartCommand
    discardCommand := c.discardCommand, restartStyleHint := c.restartStyleHint, userId := c.userId
    clientMachine := "", wasWm := s.isWM c }

/-- The loop over the clients, with the count as it goes. -/
def storeClients (env : Env) (s : Server) : List Client → Group → Group
  | [], group => group
  | c :: cs, group =>
    if s.stores env c then
      s.storeClients env cs
        { count := group.count+1
          entry := fun n => if n = group.count+1 then s.entryOf c else group.entry n }
    else s.storeClients env cs group

def storeSession (env : Env) (s : Server) : Server :=
  let old := s.config s.sessionGroup
  let discarded := (List.range' 1 old.count).filterMap fun i =>
    let discardCommand := (old.entry i).discardCommand
    if discardCommand = [] ∨ ∃ c ∈ s.clients, discardCommand = c.discardCommand then none else some discardCommand
  let s := discarded.foldl executeCommand s
  let s := if s.state ≠ ClosingSubSession then { s with clients := s.wmFirst } else s
  let group := s.storeClients env s.clients .empty
  { s with config := fun name => if name = s.sessionGroup then group else s.config name }

def discardSession (s : Server) : Server :=
  let old := s.config s.sessionGroup
  (s.clients.map Client.discardCommand).foldl (fun s discardCommand =>
    if discardCommand = [] then s
    else if ∃ i ∈ List.range' 1 old.count, (old.entry i).discardCommand = discardCommand then
      s.executeCommand discardCommand
    else s) s

def killingCompleted (s : Server) : Server := { s with quit := true }

def completeKillingWM (s : Server) : Server :=
  if s.state = KillingWM then if s.clients.isEmpty then s.killingCompleted else s else s

def killWM (s : Server) : Server :=
  if s.state ≠ Killing then s
  else
    let s : Server := s.enter KillingWM
    let wms : List Nat := (s.clients.filter s.isWM).map Client.conn
    let s : Server := s.send wms .Die
    if wms ≠ [] then s.completeKillingWM.singleShot .timeoutWMQuit else s.killingCompleted

def completeKilling (s : Server) : Server :=
  if s.state = Killing then if s.clients.any fun (c : Client) => !s.isWM c then s else s.killWM else s

def startKilling (s : Server) : Server :=
  let s : Server := s.enter Killing
  let s : Server := s.send ((s.clients.filter fun (c : Client) => !s.isWM c).map Client.conn) .Die
  s.completeKilling.singleShot .timeoutQuit

def logoutSoundFinished (s : Server) : Server := if s.state ≠ WaitingForKNotify then s else s.startKilling

def logoutSoundTimeout (s : Server) : Server := if s.state ≠ WaitingForKNotify then s else s.logoutSoundFinished

def timeoutQuit (s : Server) : Server := s.killWM

def timeoutWMQuit (s : Server) : Server := s.killingCompleted

def signalSubSessionClosed (s : Server) : Server :=
  if s.state ≠ KillingSubSession then s else { s with clientsToKill := [], clientsToSave := [] }.enter Idle

/-- Whether one of the clients is not the window manager. -/
def others (s : Server) (conns : List Nat) : Bool :=
  conns.any fun conn => match s.find conn with
    | none => true
    | some c => !s.isWM c

def completeKillingSubSession (s : Server) : Server :=
  if s.state = KillingSubSession then if s.others s.clientsToKill then s else s.signalSubSessionClosed else s

def startKillingSubSession (s : Server) : Server :=
  let s : Server := s.enter KillingSubSession
  let s := s.send s.clientsToKill .Die
  s.completeKillingSubSession.singleShot .signalSubSessionClosed

/-- The clients whose answers are waited for, each once. -/
def pendingClients (s : Server) : List Client :=
  if s.state = ClosingSubSession then s.clientsToSave.eraseDups.filterMap s.find else s.clients

def phase2Clients (s : Server) : List Nat :=
  (s.pendingClients.filter fun (c : Client) => !c.saveYourselfDone && c.waitForPhase2).map Client.conn

def askPhase2 (s : Server) (waiting : List Nat) : Server :=
  { s with
    clients := s.clients.map fun (c : Client) => if c.conn ∈ waiting then { c with waitForPhase2 := false } else c
  }.send waiting .SaveYourselfPhase2

def saveOrDiscard (env : Env) (s : Server) : Server := if s.saveSession then s.storeSession env else s.discardSession

/-- What follows once everybody has saved. -/
def completed (env : Env) (s : Server) : Server :=
  let s := s.saveOrDiscard env
  if s.state = Shutdown then (s.singleShot .logoutSoundTimeout).enter WaitingForKNotify
  else if s.state = Checkpoint then (s.send (s.clients.map Client.conn) .SaveComplete).enter Idle
  else s.startKillingSubSession

def completeShutdownOrCheckpoint (env : Env) (s : Server) : Server :=
  if s.state ≠ Shutdown ∧ s.state ≠ Checkpoint ∧ s.state ≠ ClosingSubSession then s
  else if s.pendingClients.any Client.busy then s
  else if s.phase2Clients ≠ [] then s.askPhase2 s.phase2Clients
  else s.completed env

/-- What the others are asked once the window managers have finished their first phase. -/
def saveRest (s : Server) : Server :=
  s.send ((s.clients.filter fun (c : Client) => !s.isWM c).map Client.conn)
    (.SaveYourself s.saveType (s.saveType ≠ .SmSaveLocal)
      (if s.saveType ≠ .SmSaveLocal then .SmInteractStyleAny else .SmInteractStyleNone) false)

/-- Both for `saveYourselfDone` and for `phase2Request`. -/
def wmPhase1Finished (s : Server) : Server :=
  let s : Server := { s with wmPhase1WaitingCount := s.wmPhase1WaitingCount-1 }
  if s.wmPhase1WaitingCount = 0 then s.saveRest else s

def saveYourselfDone (env : Env) (s : Server) (conn : Nat) : Server :=
  match s.find conn with
  | none => s
  | some client =>
    if s.state = Idle then s.executeCommand client.discardCommand
    else
      let s := (s.update conn fun (c : Client) => { c with saveYourselfDone := true }).completeShutdownOrCheckpoint env
      let s := s.startProtection
      if s.isWM client ∧ ¬client.wasPhase2 ∧ s.wmPhase1WaitingCount > 0 then s.wmPhase1Finished else s

def phase2Request (env : Env) (s : Server) (conn : Nat) : Server :=
  match s.find conn with
  | none => s
  | some client =>
    let s := (s.update conn fun (c : Client) => { c with waitForPhase2 := true, wasPhase2 := true }).completeShutdownOrCheckpoint env
    if s.isWM client ∧ s.wmPhase1WaitingCount > 0 then s.wmPhase1Finished else s

def handlePendingInteractions (s : Server) : Server :=
  if s.clientInteracting.isSome then s
  else
    match s.clients.find? Client.pendingInteraction with
    | none => s.startProtection
    | some c =>
      let s : Server := { s with clientInteracting := some c.conn }.update c.conn fun (c : Client) => { c with pendingInteraction := false }
      s.endProtection.send [c.conn] .Interact

def interactRequest (s : Server) (conn : Nat) : Server :=
  match s.find conn with
  | none => s
  | some _ =>
    let s : Server :=
      if s.state = Shutdown ∨ s.state = ClosingSubSession then
        s.update conn fun (c : Client) => { c with pendingInteraction := true }
      else s.send [conn] .Interact
    s.handlePendingInteractions

def cancelShutdown (s : Server) : Server :=
  let s : Server := { s with clientInteracting := none }
  let s : Server :=
    if s.state = ClosingSubSession then { s with clientsToKill := [], clientsToSave := [] }
    else
      ((s.clients.filter Client.saveYourselfDone).map Client.discardCommand).foldl executeCommand
        (s.send (s.clients.map Client.conn) .ShutdownCancelled)
  s.enter Idle

def interactDone (s : Server) (conn : Nat) (cancelShutdown_ : Bool) : Server :=
  if s.clientInteracting ≠ some conn then s
  else
    let s : Server := { s with clientInteracting := none }
    if cancelShutdown_ then s.cancelShutdown else s.handlePendingInteractions

def protectionTimeout (env : Env) (s : Server) : Server :=
  if (s.state ≠ Shutdown ∧ s.state ≠ Checkpoint ∧ s.state ≠ ClosingSubSession) ∨ s.clientInteracting.isSome then s
  else
    let s : Server := { s with clients := s.clients.map fun (c : Client) => if c.busy then { c with saveYourselfDone := true } else c }
    (s.completeShutdownOrCheckpoint env).startProtection

/-- The window managers are asked first, if there are any. -/
def askFirst (s : Server) (shutdown : Bool) (interactStyle : InteractStyle) : Server :=
  let s : Server := { s with
    clients := s.clients.map Client.resetState, wmPhase1WaitingCount := (s.clients.filter s.isWM).length }
  if s.wmPhase1WaitingCount > 0 then
    s.send ((s.clients.filter s.isWM).map Client.conn) (.SaveYourself s.saveType shutdown interactStyle false)
  else s.send (s.clients.map Client.conn) (.SaveYourself s.saveType shutdown interactStyle false)

/-- Both for `shutdown` and for `saveCurrentSession`. -/
def askClients (env : Env) (s : Server) (shutdown : Bool) (interactStyle : InteractStyle) : Server :=
  let s := s.askFirst shutdown interactStyle
  if s.clients.isEmpty then s.completeShutdownOrCheckpoint env else s

/-- What `shutdown` does once the logout has been confirmed. -/
def shutdownConfirmed (env : Env) (s : Server) (sdtype : ShutdownType) (sdmode : ShutdownMode) (bopt : String) : Server :=
  let s : Server := { s with
    shutdownType := sdtype, shutdownMode := sdmode, bootOption := bopt, saveSession := env.restorePreviousLogout }
  let s := if s.saveSession then { s with sessionGroup := "Session: saved at previous logout" } else s
  let s : Server := s.enter Shutdown
  let s : Server := { s with saveType := if s.saveSession then .SmSaveBoth else .SmSaveGlobal }
  let s := s.startProtection
  s.askClients env true .SmInteractStyleAny

/-- Whether a logout need not be confirmed. -/
def logoutConfirmed (env : Env) : ShutdownConfirm → Bool
  | .Yes => false
  | .No => true
  | .Default => !env.confirmLogout

def maysd (env : Env) : Bool := env.offerShutdown && env.canShutdown

/-- A logout which is to be confirmed opens the dialog, and `dialogAnswered` goes on from there. -/
def shutdown (env : Env) (s : Server) (confirm : ShutdownConfirm) (sdtype : ShutdownType) (sdmode : ShutdownMode) :
    Server :=
  let s : Server := { s with pendingShutdown := false }
  if s.dialogActive then s
  else if s.state.ordinal ≥ Shutdown.ordinal then s
  else if s.state ≠ Idle then
    if !s.pendingShutdown then
      { s with
        pendingShutdown := true, pendingShutdown_confirm := confirm, pendingShutdown_sdtype := sdtype
        pendingShutdown_sdmode := sdmode }
    else s
  else
    let confirmed := logoutConfirmed env confirm
    if !maysd env ∧ sdtype ≠ .None ∧ sdtype ≠ .Default ∧ confirmed then s
    else
      let sdtype := if !maysd env then .None else if sdtype = .Default then env.shutdownType else sdtype
      let sdmode := if sdmode = .Default then .Interactive else sdmode
      let s : Server := { s with dialogActive := true }
      if !confirmed then { s with dialogType := sdtype, dialogMode := sdmode }
      else { s.shutdownConfirmed env sdtype sdmode "" with dialogActive := false }

/-- The end of the dialog: the type and the boot option which have been chosen, if it has not been cancelled. -/
def dialogAnswered (env : Env) (s : Server) (answer : Option (ShutdownType × String)) : Server :=
  if !s.dialogActive then s
  else
    match answer with
    | none => { s with dialogActive := false }
    | some (sdtype,bopt) => { s.shutdownConfirmed env sdtype s.dialogMode bopt with dialogActive := false }

def pendingShutdownTimeout (env : Env) (s : Server) : Server :=
  s.shutdown env s.pendingShutdown_confirm s.pendingShutdown_sdtype s.pendingShutdown_sdmode

def saveCurrentSession (env : Env) (s : Server) : Server :=
  if s.state ≠ Idle ∨ s.dialogActive then s
  else
    let s : Server :=
      if s.currentSession = "" ∨ s.currentSession = "saved at previous logout" then
        { s with sessionGroup := "Session: saved by user" }
      else s
    let s : Server := s.enter Checkpoint
    let s : Server := { s with saveType := .SmSaveLocal, saveSession := true }
    s.askClients env false .SmInteractStyleNone

def saveCurrentSessionAs (env : Env) (s : Server) (session : String) : Server :=
  if s.state ≠ Idle ∨ s.dialogActive then s
  else { s with sessionGroup := "Session: "++session }.saveCurrentSession env

def saveSubSession (env : Env) (s : Server) (name : String) (saveAndClose saveOnly : List String) : Server :=
  if s.state ≠ Idle then s
  else
    let s : Server := s.enter ClosingSubSession
    let s : Server := { s with
      saveType := .SmSaveBoth, saveSession := true, sessionGroup := "SubSession: "++name }
    let s := s.startProtection
    let closed := s.clients.filter fun (c : Client) => c.clientId ∈ saveAndClose
    let saved := s.clients.filter fun (c : Client) => c.clientId ∈ saveAndClose ∨ c.clientId ∈ saveOnly
    let s : Server := { s with
      clients := s.clients.map fun (c : Client) => if c.clientId ∈ saveAndClose ∨ c.clientId ∈ saveOnly then c.resetState else c
      clientsToSave := s.clientsToSave++saved.map Client.conn
      clientsToKill := s.clientsToKill++closed.map Client.conn }
    let s := s.send (saved.map Client.conn) (.SaveYourself s.saveType true .SmInteractStyleAny false)
    s.completeShutdownOrCheckpoint env

def newClient (s : Server) : Server :=
  { s with
    clients := s.clients++[⟨s.nextClient,none,"",[],[],0,"",false,false,false,false⟩]
    nextClient := s.nextClient+1 }

/-- The lists and the interaction without a client that has gone. -/
def removeClient (s : Server) (conn : Nat) : Server :=
  let s : Server := { s with
    clients := s.clients.filter fun (c : Client) => c.conn ≠ conn
    clientsToKill := s.clientsToKill.filter (· ≠ conn)
    clientsToSave := s.clientsToSave.filter (· ≠ conn) }
  if s.clientInteracting = some conn then { s with clientInteracting := none }.handlePendingInteractions else s

def deleteClient (env : Env) (s : Server) (conn : Nat) : Server :=
  match s.find conn with
  | none => s
  | some _ =>
    let s := s.removeClient conn
    let s : Server :=
      if s.state = Shutdown ∨ s.state = Checkpoint ∨ s.state = ClosingSubSession then
        s.completeShutdownOrCheckpoint env
      else s
    let s : Server :=
      if s.state = Killing then s.completeKilling
      else if s.state = KillingSubSession then s.completeKillingSubSession
      else s
    if s.state = KillingWM then s.completeKillingWM else s

end Server
end KdeWorkspace.SessionServer
