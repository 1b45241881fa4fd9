import KdeWorkspace.SessionServer

/-!
The startup of a session, and everything that can happen to the session manager.

The phases follow one another as the launcher, the initialisation and the clients report, and an application
may suspend the startup, a number of times over. The signal of a phase which is awaited is disconnected when
it comes; a single shot which has been made may come at any time.
-/
namespace KdeWorkspace.SessionServer

open State

namespace Server

def checkStartupSuspend (s : Server) : Server × Bool :=
  if s.startupSuspendCount = [] then (s,true) else ({ s with startupSuspendTimeoutTimer := true },false)

/-- A map from the applications to their counts. -/
def countOf (app : String) (counts : List (String × Nat)) : Option Nat := (counts.find? fun p => p.1 = app).map Prod.snd

def setCount (app : String) (n : Nat) (counts : List (String × Nat)) : List (String × Nat) :=
  (app,n) :: counts.filter fun p => p.1 ≠ app

def removeCount (app : String) (counts : List (String × Nat)) : List (String × Nat) := counts.filter fun p => p.1 ≠ app

def suspendStartup (s : Server) (app : String) : Server :=
  { s with startupSuspendCount := setCount app (((countOf app s.startupSuspendCount).getD 0)+1) s.startupSuspendCount }

def finishStartup (s : Server) : Server :=
  if s.state ≠ FinishingStartup then s else if s.waitAutoStart2 || s.waitKcmInit2 then s else s.enter Idle

def autoStart2Done (s : Server) : Server :=
  if s.state ≠ FinishingStartup then s
  else { s with klauncherSignals := s.klauncherSignals.filter (· ≠ 2), waitAutoStart2 := false }.finishStartup

def kcmPhase2Done (s : Server) : Server :=
  if s.state ≠ FinishingStartup then s
  else
    let s : Server := if s.kcminitSignals then { s with kcmPhase2Connected := false, kcminitSignals := false } else s
    { s with waitKcmInit2 := false }.finishStartup

def kcmPhase2Timeout (s : Server) : Server := if !s.waitKcmInit2 then s else s.kcmPhase2Done

def autoStart2 (s : Server) : Server :=
  if s.state ≠ Restoring then s
  else
    match s.checkStartupSuspend with
    | (s,false) => s
    | (s,true) =>
      let s : Server := { s.enter FinishingStartup with waitAutoStart2 := true, waitKcmInit2 := true }
      if s.kcminitSignals then { s with kcmPhase2Connected := true }.singleShot .kcmPhase2Timeout
      else s.singleShot .kcmPhase2Done

def startApplication (s : Server) (command : List String) (clientMachine userId : String) : Server :=
  if command = [] then s else { s with started := s.started++[(command,clientMachine,userId)] }

/-- The loop of `tryRestoreNext`, which returns early where a client is waited for. -/
def restoreLoop (s : Server) : Nat → Server × Bool
  | 0 => (s,false)
  | n+1 =>
    let s : Server := { s with lastAppStarted := s.lastAppStarted+1 }
    let entry := (s.config s.sessionGroup).entry s.lastAppStarted
    if s.clients.any fun (c : Client) => c.clientId = entry.clientId then restoreLoop s n
    else if entry.restartCommand = [] ∨ entry.restartStyleHint = SmRestartNever then restoreLoop s n
    else if s.wm = entry.program then restoreLoop s n
    else if entry.wasWm then restoreLoop s n
    else
      let s : Server := s.startApplication entry.restartCommand entry.clientMachine entry.userId
      let s : Server := { s with lastIdStarted := entry.clientId }
      if s.lastIdStarted ≠ "" then ({ s with restoreTimer := true },true) else restoreLoop s n

def tryRestoreNext (s : Server) : Server :=
  if s.state ≠ Restoring ∧ s.state ≠ RestoringSubSession then s
  else
    let s : Server := { s with restoreTimer := false, startupSuspendTimeoutTimer := false }
    match s.restoreLoop (s.appsToStart-s.lastAppStarted) with
    | (s,true) => s
    | (s,false) =>
      let s : Server := { s with appsToStart := 0, lastIdStarted := "" }
      if s.state = Restoring then s.autoStart2 else s.enter Idle

/-- A string which is null is equal to the empty one. -/
def clientRegistered (s : Server) (previousId : Option String) : Server :=
  if previousId = some s.lastIdStarted then s.tryRestoreNext else s

def autoStart1Done (s : Server) : Server :=
  if s.state ≠ AutoStart1 then s
  else
    match { s with klauncherSignals := s.klauncherSignals.filter (· ≠ 1) }.checkStartupSuspend with
    | (s,false) => s
    | (s,true) =>
      let s : Server := { s with lastAppStarted := 0, lastIdStarted := "" }.enter Restoring
      if s.defaultSession then s.autoStart2 else s.tryRestoreNext

def autoStart1 (s : Server) : Server := if s.state ≠ KcmInitPhase1 then s else s.enter AutoStart1

def kcmPhase1Done (s : Server) : Server :=
  if s.state ≠ KcmInitPhase1 then s
  else
    let s : Server := if s.kcminitSignals then { s with kcmPhase1Connected := false } else s
    s.autoStart1

def kcmPhase1Timeout (s : Server) : Server := if s.state ≠ KcmInitPhase1 then s else s.kcmPhase1Done

def autoStart0Done (env : Env) (s : Server) : Server :=
  if s.state ≠ AutoStart0 then s
  else
    match { s with klauncherSignals := s.klauncherSignals.filter (· ≠ 0) }.checkStartupSuspend with
    | (s,false) => s
    | (s,true) =>
      let s : Server := s.enter KcmInitPhase1
      if !env.kcminit then { s with kcminitSignals := false }.singleShot .kcmPhase1Done
      else { s with kcminitSignals := true, kcmPhase1Connected := true }.singleShot .kcmPhase1Timeout

def autoStart0 (s : Server) : Server :=
  if s.state ≠ LaunchingWM then s
  else
    match s.checkStartupSuspend with
    | (s,false) => s
    | (s,true) => s.enter AutoStart0

def launchWM (s : Server) (wmStartCommands : List (List String)) : Server :=
  (s.startApplication (wmStartCommands.headD []) "" "").singleShot .autoStart0

/-- `notRunning` is what the process says of itself. -/
def wmProcessChange (s : Server) (notRunning : Bool) : Server :=
  if s.state ≠ LaunchingWM then s
  else if notRunning then
    if s.wm = "kwin" then s else { s with wm := "kwin", wmCommands := ["kwin"] }.launchWM [["kwin"]]
  else s

def restoreSession (s : Server) (sessionName : String) : Server :=
  if s.state ≠ Idle then s
  else
    let s : Server := { s.enter LaunchingWM with sessionGroup := "Session: "++sessionName }
    let group := s.config s.sessionGroup
    let s : Server := { s with appsToStart := group.count, klauncherSignals := [0,1,2] }
    let wmStartCommands :=
      if s.wm ≠ "" then
        ((List.range' 1 group.count).filter fun i => s.wm = (group.entry i).program).map fun i =>
          (group.entry i).restartCommand
      else []
    s.launchWM (if wmStartCommands = [] then [s.wmCommands] else wmStartCommands)

def startDefaultSession (s : Server) : Server :=
  if s.state ≠ Idle then s
  else { s.enter LaunchingWM with sessionGroup := "", klauncherSignals := [0,1,2] }.launchWM [s.wmCommands]

def resumeStartupInternal (env : Env) (s : Server) : Server :=
  let s : Server := { s with startupSuspendCount := [] }
  match s.state with
  | LaunchingWM => s.autoStart0
  | AutoStart0 => s.autoStart0Done env
  | AutoStart1 => s.autoStart1Done
  | Restoring => s.autoStart2
  | _ => s

def startupSuspendTimeout (env : Env) (s : Server) : Server := s.resumeStartupInternal env

/-- A count which is there is at least one. -/
def resumeStartup (env : Env) (s : Server) (app : String) : Server :=
  match countOf app s.startupSuspendCount with
  | none => s
  | some n =>
    if n-1 = 0 then
      let s : Server := { s with startupSuspendCount := removeCount app s.startupSuspendCount }
      if s.startupSuspendCount = [] ∧ s.startupSuspendTimeoutTimer then
        { s with startupSuspendTimeoutTimer := false }.resumeStartupInternal env
      else s
    else { s with startupSuspendCount := setCount app (n-1) s.startupSuspendCount }

def restoreSubSession (s : Server) (name : String) : Server :=
  let s : Server := { s with sessionGroup := "SubSession: "++name }
  let s : Server := { s with appsToStart := (s.config s.sessionGroup).count, lastAppStarted := 0, lastIdStarted := "" }
  (s.enter RestoringSubSession).tryRestoreNext

/-- `generated` is the identifier which is made up for a client that has not had one. -/
def registerClient (s : Server) (conn : Nat) (previousId : Option String) (generated : String) : Server :=
  match s.find conn with
  | none => s
  | some _ =>
    let s := s.update conn fun c => { c with id := some (previousId.getD generated) }
    ((s.send [conn] (.SaveYourself .SmSaveLocal false .SmInteractStyleNone false)).send [conn] .SaveComplete).clientRegistered
      previousId

end Server

inductive Property
  | Program (value : String)
  | RestartCommand (value : List String)
  | DiscardCommand (value : List String)
  | RestartStyleHint (value : Nat)
  | UserID (value : String)

def Property.set : Property → Client → Client
  | .Program value, c => { c with program := value }
  | .RestartCommand value, c => { c with restartCommand := value }
  | .DiscardCommand value, c => { c with discardCommand := value }
  | .RestartStyleHint value, c => { c with restartStyleHint := value }
  | .UserID value, c => { c with userId := value }

@[simp] theorem Property.set_conn (property : Property) (c : Client) : (property.set c).conn = c.conn := by
  cases property <;> rfl

/-- What a client has where the property is not there: the hint is then `SmRestartIfRunning`. -/
def Property.cleared : Property → Property
  | .Program _ => .Program ""
  | .RestartCommand _ => .RestartCommand []
  | .DiscardCommand _ => .DiscardCommand []
  | .RestartStyleHint _ => .RestartStyleHint 0
  | .UserID _ => .UserID ""

namespace Server

def clientSetProgram (s : Server) (program : String) : Server := if program = s.wm then s.autoStart0 else s

def setProperty (s : Server) (conn : Nat) (property : Property) : Server :=
  match s.find conn with
  | none => s
  | some _ =>
    let s := s.update conn property.set
    match property with
    | .Program program => s.clientSetProgram program
    | _ => s

def deleteProperty (s : Server) (conn : Nat) (property : Property) : Server := s.update conn property.cleared.set

def saveYourselfRequest (env : Env) (s : Server) (conn : Nat) (saveType : SaveType) (shutdown_ : Bool)
    (interactStyle : InteractStyle) (fast global : Bool) : Server :=
  if shutdown_ then s.shutdown env (if fast then .No else .Default) .Default .Default
  else if !global then
    (s.send [conn] (.SaveYourself saveType false interactStyle fast)).send [conn] .SaveComplete
  else s

end Server

/-- The messages, the requests, the signals and the timers. -/
inductive Event
  | restoreSession (sessionName : String)
  | startDefaultSession
  | wmProcessChange (notRunning : Bool)
  | autoStartDone (phase : Nat)
  | kcmPhase1Done
  | kcmPhase2Done
  | suspendStartup (app : String)
  | resumeStartup (app : String)
  | newClient
  | registerClient (conn : Nat) (previousId : Option String) (generated : String)
  | setProperty (conn : Nat) (property : Property)
  | deleteProperty (conn : Nat) (property : Property)
  | saveYourselfRequest (conn : Nat) (saveType : SaveType) (shutdown : Bool) (interactStyle : InteractStyle)
      (fast global : Bool)
  | saveYourselfDone (conn : Nat)
  | phase2Request (conn : Nat)
  | interactRequest (conn : Nat)
  | interactDone (conn : Nat) (cancelShutdown : Bool)
  | deleteClient (conn : Nat)
  | logout (confirm : ShutdownConfirm) (sdtype : ShutdownType) (sdmode : ShutdownMode)
  | dialogAnswered (answer : Option (ShutdownType × String))
  | saveCurrentSession
  | saveCurrentSessionAs (session : String)
  | saveSubSession (name : String) (saveAndClose saveOnly : List String)
  | restoreSubSession (name : String)
  | logoutSoundFinished
  | shot (slot : Slot)
  | protectionTimeout
  | restoreTimeout
  | startupSuspendTimeout
  | pendingShutdownTimeout

namespace Server

/-- The slot of a single shot. -/
def callSlot (s : Server) : Slot → Server
  | .logoutSoundTimeout => s.logoutSoundTimeout
  | .timeoutQuit => s.timeoutQuit
  | .timeoutWMQuit => s.timeoutWMQuit
  | .signalSubSessionClosed => s.signalSubSessionClosed
  | .autoStart0 => s.autoStart0
  | .kcmPhase1Done => s.kcmPhase1Done
  | .kcmPhase1Timeout => s.kcmPhase1Timeout
  | .kcmPhase2Done => s.kcmPhase2Done
  | .kcmPhase2Timeout => s.kcmPhase2Timeout

/-- What an event does. A timer comes only while it is active, and all but that of a remembered logout once. -/
def step (env : Env) (s : Server) : Event → Server
  | .restoreSession sessionName => s.restoreSession sessionName
  | .startDefaultSession => s.startDefaultSession
  | .wmProcessChange notRunning => s.wmProcessChange notRunning
  | .autoStartDone phase =>
    if phase ∉ s.klauncherSignals then s
    else
      match phase with
      | 0 => s.autoStart0Done env
      | 1 => s.autoStart1Done
      | _ => s.autoStart2Done
  | .kcmPhase1Done => if s.kcmPhase1Connected then s.kcmPhase1Done else s
  | .kcmPhase2Done => if s.kcmPhase2Connected then s.kcmPhase2Done else s
  | .suspendStartup app => s.suspendStartup app
  | .resumeStartup app => s.resumeStartup env app
  | .newClient => s.newClient
  | .registerClient conn previousId generated => s.registerClient conn previousId generated
  | .setProperty conn property => s.setProperty conn property
  | .deleteProperty conn property => s.deleteProperty conn property
  | .saveYourselfRequest conn saveType shutdown interactStyle fast global =>
    s.saveYourselfRequest env conn saveType shutdown interactStyle fast global
  | .saveYourselfDone conn => s.saveYourselfDone env conn
  | .phase2Request conn => s.phase2Request env conn
  | .interactRequest conn => s.interactRequest conn
  | .interactDone conn cancelShutdown => s.interactDone conn cancelShutdown
  | .deleteClient conn => s.deleteClient env conn
  | .logout confirm sdtype sdmode => s.shutdown env confirm sdtype sdmode
  | .dialogAnswered answer => s.dialogAnswered env answer
  | .saveCurrentSession => s.saveCurrentSession env
  | .saveCurrentSessionAs session => s.saveCurrentSessionAs env session
  | .saveSubSession name saveAndClose saveOnly => s.saveSubSession env name saveAndClose saveOnly
  | .restoreSubSession name => s.restoreSubSession name
  | .logoutSoundFinished => s.logoutSoundFinished
  | .shot slot => if slot ∈ s.shots then { s with shots := s.shots.erase slot }.callSlot slot else s
  | .protectionTimeout =>
    if s.protectionTimer then { s with protectionTimer := false }.protectionTimeout env else s
  | .restoreTimeout => if s.restoreTimer then { s with restoreTimer := false }.tryRestoreNext else s
  | .startupSuspendTimeout =>
    if s.startupSuspendTimeoutTimer then { s with startupSuspendTimeoutTimer := false }.startupSuspendTimeout env else s
  | .pendingShutdownTimeout => if s.pendingShutdown then s.pendingShutdownTimeout env else s

/-- A run; what the configuration says may be different at every event. -/
def run (s : Server) : List (Env × Event) → Server
  | [] => s
  | (env,event) :: events => (s.step env event).run events

/-- What the constructor leaves. -/
def initial (wm : String) (wmCommands : List String) (config : String → Group) : Server :=
  { state := Idle, entered := [], dialogActive := false, dialogType := .Default, dialogMode := .Default
    saveSession := false, wmPhase1WaitingCount := 0, saveType := .SmSaveGlobal, startupSuspendCount := []
    shutdownType := .None, shutdownMode := .Default, bootOption := "", clients := [], clientInteracting := none
    wm := wm, wmCommands := wmCommands, sessionGroup := "", protectionTimer := false, restoreTimer := false
    startupSuspendTimeoutTimer := false, waitAutoStart2 := false, waitKcmInit2 := false, pendingShutdown := false
    pendingShutdown_confirm := .Default, pendingShutdown_sdtype := .Default, pendingShutdown_sdmode := .Default
    appsToStart := 0, lastAppStarted := 0, lastIdStarted := "", klauncherSignals := [], kcminitSignals := false
    kcmPhase1Connected := false, kcmPhase2Connected := false, clientsToKill := [], clientsToSave := [], shots := []
    nextClient := 0, config := config, sent := [], started := [], executed := [], quit := false }

/-- A window manager and an application which are connected. -/
def twoClients : Server :=
  { initial "kwin" ["kwin"] fun _ => .empty with
    clients := [⟨0,some "w","kwin",["kwin"],[],0,"",false,false,false,false⟩,
      ⟨1,some "a","app",["app"],[],0,"",false,false,false,false⟩]
    nextClient := 2 }

end Server
end KdeWorkspace.SessionServer
