import KdeWorkspace.ControlCommands

/-!
The life of the displays of kdm, in a build with virtual terminals and XDMCP: how they are started
one X server after the other, stopped, restarted, suspended for a console login and handed over to
another host, while their processes end when they like.
-/
namespace KdeWorkspace.DisplayCycle
open ControlCommands (DisplayStatus DisplayType Lifetime SdRec TO_INF)

/-- What becomes of a display when its processes have ended. -/
inductive EndState
  | DS_RESTART
  | DS_TEXTMODE
  | DS_RESERVE
  | DS_REMOTE
  | DS_REMOVE
deriving Repr, DecidableEq

inductive ServerStatus
  | ignore
  | awaiting
  | starting
  | terminated
  | killed
  | pausing
deriving Repr, DecidableEq

inductive ServerCmd
  | XS_KEEP
  | XS_RESTART
  | XS_RETRY
deriving Repr, DecidableEq

/-- How a session can end. -/
inductive ExitCode
  | EX_NORMAL
  | EX_REMOTE
  | EX_RESERVE
  | EX_OPENFAILED_DPY
  | SIGTERM
  | EX_AL_RESERVER_DPY
  | EX_RESERVER_DPY
  | EX_UNMANAGE_DPY
  | other
deriving Repr, DecidableEq

/-- What the configuration says about a display. -/
structure Config where
  serverAttempts : Nat
  startAttempts : Nat
  serverTimeout : Nat
  openDelay : Nat
  terminateServer : Bool
  reqSrvVT : Int
deriving Repr, DecidableEq

/-- A display; `addr` stands for its address. There is no pid where there is no process. -/
structure Display where
  addr : Nat
  name : String
  displayType : DisplayType
  config : Config
  status : DisplayStatus
  zstatus : EndState
  pid : Option Nat
  serverPid : Option Nat
  serverVT : Int
  follower : Option Nat
  serverStatus : ServerStatus
  lastStart : Nat
  startTries : Nat
  stillThere : Bool
  userSess : Option Nat
deriving Repr, DecidableEq

/-- The daemon. No time stands for `TO_INF`, and `utmpList` says whether there is a console login.
    Displays that are freed are remembered in `removed`, as they were then. -/
structure Manager where
  displays : List Display
  removed : List Display
  startingServer : Option Nat
  serverTimeout : Option Nat
  utmpList : Bool
  sdRec : SdRec
  stopping : Bool
deriving Repr, DecidableEq

/-- What the system answers while an event is handled; `utmpLasts` says that the file of the logins can
    be read and that by it the console login has not timed out. -/
structure World where
  now : Nat
  forkServer : Nat → Option Nat
  forkSession : Nat → Option Nat
  loadDisplayResources : Display → Option Config
  consoleTTYs : Bool
  memory : Bool
  utmpLasts : Bool
  serverVTs : List Int
  busyVT : Nat → Bool

namespace Manager

def find (m : Manager) (a : Nat) : Option Display := m.displays.find? (·.addr = a)

def set (m : Manager) (a : Nat) (f : Display → Display) : Manager :=
  { m with displays := m.displays.map fun d => if d.addr = a then f d else d }

def statuses (m : Manager) : List (Nat × DisplayStatus) := m.displays.map fun d => (d.addr,d.status)

/-- Which server is being started, and until when it has time. -/
def withServer (m : Manager) (startingServer serverTimeout : Option Nat) : Manager :=
  { m with startingServer := startingServer, serverTimeout := serverTimeout }

/-- What follows depends on what the display is now. -/
def on (m : Manager) (a : Nat) (f : Display → Manager) : Manager := ((m.find a).map f).getD m

/-- `forEachDisplay`, for a function that removes no display but its own. -/
def forEachDisplay (m : Manager) (f : Manager → Nat → Manager) : Manager := (m.displays.map (·.addr)).foldl f m

def forEachDisplayRev (m : Manager) (f : Manager → Nat → Manager) : Manager :=
  (m.displays.map (·.addr)).reverse.foldl f m

def removeDisplay (m : Manager) (a : Nat) : Manager :=
  { m with
    displays := m.displays.filter fun d => d.addr ≠ a
    removed := m.displays.filter (fun d => d.addr = a) ++ m.removed }

/-- An address that no display has. -/
def fresh (m : Manager) : Nat := (m.displays.map (·.addr)).foldr max 0 + 1

def newborn (m : Manager) (name : String) : Display where
  addr := m.fresh
  name := name
  displayType := ⟨false,.dFromFile,.dTransient⟩
  config := ⟨0,0,0,0,false,0⟩
  status := .notRunning
  zstatus := .DS_RESTART
  pid := none
  serverPid := none
  serverVT := 0
  follower := none
  serverStatus := .ignore
  lastStart := 0
  startTries := 0
  stillThere := false
  userSess := none

def newDisplay (m : Manager) (name : String) : Manager := { m with displays := m.newborn name :: m.displays }

def wakeDisplay (d : Display) : Display :=
  if d.status = .textMode then
    { d with status := if d.displayType.lifetime = .dReserve then .reserve else .notRunning }
  else d

def wakeDisplays (m : Manager) : Manager := { m with displays := m.displays.map wakeDisplay, utmpList := false }

def checkUtmp (w : World) (m : Manager) : Manager := if m.utmpList ∧ ¬ w.utmpLasts then m.wakeDisplays else m

def switchToTTY (w : World) (m : Manager) : Manager :=
  if w.memory then { m with utmpList := true }.checkUtmp w else m.wakeDisplays

def checkTTYMode (w : World) (m : Manager) : Manager :=
  if m.displays.any (·.status = .zombie) then m else m.switchToTTY w

def abortStartServer (m : Manager) (a : Nat) : Manager :=
  if m.startingServer = some a then
    m.on a fun d =>
      if d.serverStatus ≠ .ignore then (m.set a fun d => { d with serverStatus := .ignore }).withServer none none
      else m.withServer none m.serverTimeout
  else m

def startRemoteLogin (w : World) (m : Manager) (a : Nat) : Manager :=
  m.set a fun d =>
    { d with serverPid := w.forkServer a, status := if w.forkServer a = none then .notRunning else .remoteLogin }

/-- What `rStopDisplay` does when it has left off starting the server. -/
def settle (w : World) (m : Manager) (a : Nat) (endState : EndState) (schedule : Bool) : Manager :=
  m.on a fun d =>
    if d.serverPid ≠ none ∨ d.pid ≠ none then m.set a fun d => { d with status := .zombie, zstatus := endState }
    else
      match endState with
      | .DS_TEXTMODE =>
        let m := m.set a fun d => { d with status := .textMode }
        if schedule then m else m.checkTTYMode w
      | .DS_RESERVE => m.set a fun d => { d with status := .reserve }
      | .DS_REMOTE => m.startRemoteLogin w a
      | .DS_RESTART | .DS_REMOVE => m.removeDisplay a

/-- `rStopDisplay`; with `schedule`, the console login is left to the caller. -/
def rStopDisplay (w : World) (m : Manager) (a : Nat) (endState : EndState) (schedule : Bool) : Manager :=
  (m.abortStartServer a).settle w a endState schedule

def stopDisplay (w : World) (m : Manager) (a : Nat) : Manager := m.rStopDisplay w a .DS_REMOVE false

def stopToTTY (w : World) (m : Manager) (a : Nat) : Manager :=
  m.on a fun d =>
    if d.displayType.dLocal ∧ d.status ≠ .reserve ∧ d.status ≠ .textMode then m.rStopDisplay w a .DS_TEXTMODE true
    else m

def stopInactiveDisplay (w : World) (m : Manager) (a : Nat) : Manager :=
  m.on a fun d => if d.status ≠ .remoteLogin ∧ d.userSess = none then m.stopDisplay w a else m

def stoppen (w : World) (m : Manager) (force : Bool) : Manager :=
  { m.forEachDisplay (if force then stopDisplay w else stopInactiveDisplay w) with stopping := true }

def startServerFailed (w : World) (m : Manager) (a : Nat) : Manager :=
  m.on a fun d =>
    if d.config.serverAttempts = 0 ∨ d.startTries < d.config.serverAttempts then
      (m.set a fun d => { d with serverStatus := .pausing }).withServer m.startingServer
        (some (d.config.openDelay+w.now))
    else ((m.set a fun d => { d with serverStatus := .ignore }).withServer none none).stopDisplay w a

def startServerOnce (w : World) (m : Manager) (a : Nat) : Manager :=
  m.on a fun d =>
    let m := m.set a fun d =>
      { d with startTries := d.startTries+1, serverStatus := .starting, serverPid := w.forkServer a }
    if w.forkServer a = none then m.startServerFailed w a
    else m.withServer m.startingServer (some (d.config.serverTimeout+w.now))

def startServer (w : World) (m : Manager) (a : Nat) : Manager :=
  ((m.set a fun d => { d with startTries := 0 }).withServer (some a) m.serverTimeout).startServerOnce w a

def startDisplayP2 (w : World) (m : Manager) (a : Nat) : Manager :=
  m.set a fun d =>
    { d with
      pid := w.forkSession a
      status := if w.forkSession a = none then .notRunning else d.status
      lastStart := if w.forkSession a = none then d.lastStart else w.now }

def startServerSuccess (w : World) (m : Manager) (a : Nat) : Manager :=
  ((m.set a fun d => { d with serverStatus := .ignore }).withServer m.startingServer none).startDisplayP2 w a

def startServerTimeout (w : World) (m : Manager) (a : Nat) : Manager :=
  m.on a fun d =>
    match d.serverStatus with
    | .ignore | .awaiting => m
    | .starting =>
      (m.set a fun d => { d with serverStatus := .terminated }).withServer m.startingServer
        (some (d.config.serverTimeout+w.now))
    | .terminated =>
      (m.set a fun d => { d with serverStatus := .killed }).withServer m.startingServer (some (10+w.now))
    | .killed => m.startServerFailed w a
    | .pausing => m.startServerOnce w a

def startDisplay (w : World) (m : Manager) (a : Nat) : Manager :=
  m.on a fun d =>
    if m.stopping then m.stopDisplay w a
    else if d.serverVT < 0 then m
    else if d.displayType.dLocal ∧ d.serverPid = none then
      m.set a fun d => { d with status := .running, serverStatus := .awaiting }
    else (m.set a fun d => { d with status := .running }).startDisplayP2 w a

def kickDisplay (w : World) (m : Manager) (a : Nat) : Manager :=
  let m := m.on a fun d => if d.status = .notRunning then m.startDisplay w a else m
  m.on a fun d => if d.serverStatus = .awaiting ∧ m.startingServer = none then m.startServer w a else m

def checkDisplayStatus (w : World) (m : Manager) (a : Nat) : Manager :=
  m.on a fun d =>
    if d.displayType.origin = .dFromFile ∧ ¬ d.stillThere then m.stopDisplay w a
    else if d.status = .notRunning then
      match w.loadDisplayResources d with
      | none => m.stopDisplay w a
      | some config => m.set a fun d => { d with config := config }
    else m

/-- The terminals that are tried, and whether each is left alone while it is used: those listed and
    then what comes after the last of them. -/
def candidates (serverVTs : List Int) : List (Nat × Bool) :=
  ((serverVTs.map fun v => (v.natAbs,decide (v < 0))).filter fun c => c.1 ≠ 0 ∧ c.1 < 16) ++
    ((List.range 16).filter fun tvt => ((serverVTs.getLast?).getD 0).natAbs < tvt).map (·,true)

inductive Inspection
  | taken
  | inherit (zombie : Nat)
  | free
deriving Repr, DecidableEq

/-- What the displays do with a terminal. -/
def inspect (tvt : Nat) : List Display → Inspection
  | [] => .free
  | cd :: rest =>
    if cd.config.reqSrvVT = tvt ∧ (cd.status ≠ .zombie ∨ cd.zstatus ≠ .DS_REMOVE) then .taken
    else if cd.serverVT = tvt then
      if cd.status ≠ .zombie ∨ cd.zstatus = .DS_REMOTE then .taken
      else if cd.follower = none then .inherit cd.addr
      else inspect tvt rest
    else inspect tvt rest

def pickVT (w : World) (m : Manager) (a : Nat) : List (Nat × Bool) → Manager
  | [] => m
  | (tvt,volun) :: rest =>
    match inspect tvt m.displays with
    | .taken => pickVT w m a rest
    | .inherit z =>
      (m.set a fun d => { d with serverVT := -1 }).set z fun cd => { cd with follower := some a }
    | .free =>
      if ¬ volun ∨ ¬ w.busyVT tvt then m.set a fun d => { d with serverVT := tvt } else pickVT w m a rest

def allocateVT (w : World) (m : Manager) (a : Nat) : Manager :=
  m.on a fun d =>
    if d.displayType.dLocal ∧ d.status = .notRunning ∧ d.serverVT = 0 ∧ 0 ≤ d.config.reqSrvVT then
      if d.config.reqSrvVT ≠ 0 ∧ d.config.reqSrvVT < 16 then m.set a fun d => { d with serverVT := d.config.reqSrvVT }
      else m.pickVT w a (candidates w.serverVTs)
    else m

def startDisplays (w : World) (m : Manager) : Manager :=
  let m := m.forEachDisplay (checkDisplayStatus w)
  let m := m.forEachDisplayRev (allocateVT w)
  m.forEachDisplay (kickDisplay w)

/-- A restart of the display after its session: with or without its server. -/
def restart (m : Manager) (a : Nat) (serverCmd : ServerCmd) : Manager :=
  m.set a fun d =>
    { d with
      startTries := if serverCmd = .XS_RETRY then d.startTries else 0
      status :=
        if d.serverPid ≠ none ∧ (serverCmd ≠ .XS_KEEP ∨ d.config.terminateServer) then .phoenix else .notRunning }

def exitDisplay (w : World) (m : Manager) (a : Nat) (endState : EndState) (serverCmd : ServerCmd) : Manager :=
  m.on a fun d =>
    let serverCmd := if d.status = .raiser then .XS_KEEP else serverCmd
    let endState := if m.sdRec.how ≠ .none ∧ m.sdRec.start = TO_INF then .DS_REMOVE else endState
    let m := m.set a fun d => { d with userSess := none }
    if d.status = .zombie then m.rStopDisplay w a d.zstatus false
    else if m.stopping then m.stopDisplay w a
    else if endState ≠ .DS_RESTART ∨ d.displayType.lifetime = .dTransient then m.rStopDisplay w a endState false
    else if serverCmd = .XS_RETRY ∧ d.displayType.dLocal then
      if w.now < d.lastStart+120 then m.stopDisplay w a else m.restart a serverCmd
    else if serverCmd = .XS_RETRY then
      let m := m.set a fun d => { d with startTries := d.startTries+1 }
      if d.config.startAttempts < d.startTries+1 then m.stopDisplay w a else m.restart a serverCmd
    else m.restart a serverCmd

/-- What is done about an exit code of a session. -/
def exitAction (d : Display) : ExitCode → EndState × ServerCmd
  | .EX_REMOTE => (.DS_REMOTE,.XS_KEEP)
  | .EX_NORMAL => if d.displayType.lifetime = .dReserve then (.DS_RESERVE,.XS_KEEP) else (.DS_RESTART,.XS_KEEP)
  | .EX_RESERVE => (.DS_RESERVE,.XS_KEEP)
  | .EX_OPENFAILED_DPY | .SIGTERM => (.DS_RESTART,.XS_RETRY)
  | .EX_AL_RESERVER_DPY | .EX_RESERVER_DPY => (.DS_RESTART,.XS_RESTART)
  | .EX_UNMANAGE_DPY | .other => (.DS_REMOVE,.XS_KEEP)

def sessionExit (w : World) (m : Manager) (a : Nat) (code : ExitCode) : Manager :=
  m.on a fun d =>
    (m.set a fun d => { d with pid := none }).exitDisplay w a (exitAction d code).1 (exitAction d code).2

/-- The terminal of a dead server goes to the display that waits for it. -/
def handOver (m : Manager) (a : Nat) : Manager :=
  m.on a fun d =>
    if d.serverVT ≠ 0 ∧ d.zstatus ≠ .DS_REMOTE then
      let m := match d.follower with
        | some f => (m.set f fun fd => { fd with serverVT := d.serverVT }).set a fun d => { d with follower := none }
        | none => m
      m.set a fun d => { d with serverVT := 0 }
    else m

def serverExit (w : World) (m : Manager) (a : Nat) : Manager :=
  m.on a fun d =>
    let m := m.set a fun d => { d with serverPid := none }
    match d.status with
    | .zombie => (m.handOver a).rStopDisplay w a d.zstatus false
    | .phoenix => m.set a fun d => { d with status := .notRunning }
    | .remoteLogin =>
      m.set a fun d => { d with status := if d.displayType.lifetime = .dReserve then .reserve else .notRunning }
    | .running => if m.startingServer = some a ∧ d.serverStatus ≠ .ignore then m.startServerFailed w a else m
    | .raiser | .notRunning | .textMode | .reserve => m

def reapChild (w : World) (m : Manager) (pid : Nat) (code : ExitCode) : Manager :=
  match m.displays.find? (·.pid = some pid) with
  | some d => m.sessionExit w d.addr code
  | none =>
    match m.displays.find? (·.serverPid = some pid) with
    | some d => m.serverExit w d.addr
    | none => m

def findDisplayByName (m : Manager) (name : String) : Option Display := m.displays.find? (·.name = name)

/-- What `addServers` does with a display that it has found or made. -/
def listed (lifetime : Lifetime) (name : String) (d : Display) : Display :=
  { d with
    stillThere := true
    displayType := ⟨name.toList.head? = some ':',.dFromFile,lifetime⟩
    status :=
      if lifetime = .dReserve then if d.status = .notRunning then .reserve else d.status
      else if d.status = .reserve then .notRunning else d.status }

def addServer (lifetime : Lifetime) (m : Manager) (name : String) : Manager :=
  match m.findDisplayByName name with
  | some d => m.set d.addr (listed lifetime name)
  | none => (m.newDisplay name).set m.fresh (listed lifetime name)

/-- The servers of a configuration file; `markDisplay` comes before it where the file must be read. -/
def scanServers (m : Manager) (staticServers reserveServers : List String) : Manager :=
  reserveServers.foldl (addServer .dReserve) (staticServers.foldl (addServer .dPermanent) m)

def markDisplays (m : Manager) : Manager := m.forEachDisplay fun m a => m.set a fun d => { d with stillThere := false }

def suicide (m : Manager) (a : Nat) : Manager :=
  m.on a fun d => if d.status = .running ∧ d.pid ≠ none then m.set a fun d => { d with status := .raiser } else m

def login (m : Manager) (a : Nat) (nuke : Bool) : Manager :=
  m.on a fun d =>
    if d.status = .running ∧ d.pid ≠ none ∧ (d.userSess = none ∨ nuke) then m.set a fun d => { d with status := .raiser }
    else if d.status = .reserve then m.set a fun d => { d with status := .notRunning }
    else m

def startReserveDisplay (m : Manager) : Manager :=
  match (m.displays.filter fun d => d.status = .reserve).getLast? with
  | some rd => m.set rd.addr fun d => { d with status := .notRunning }
  | none => m

end Manager

open Manager

inductive Event
  | startDisplays
  | serverTimeout
  | utmpTimeout
  | stoppen (force : Bool)
  | rescan (hangup : Bool) (staticServers reserveServers : List String)
  | childExit (pid : Nat) (code : ExitCode)
  | serverReady
  | stop (a : Nat)
  | manage (name : String) (displayType : DisplayType)
  | suicide (a : Nat)
  | login (a : Nat) (nuke : Bool)
  | reserve
  | resume
  | console
  | connOk
  | user (a : Nat) (userSess : Option Nat)
  | shutdown (sdRec : SdRec)
  | cancelShutdown

/-- One turn of the main loop, or a part of it. There is none for an event that cannot come now, and
    none where kdm follows a null pointer. -/
def step (w : World) (m : Manager) : Event → Option Manager
  | .startDisplays => if m.stopping then none else some (m.startDisplays w)
  | .serverTimeout =>
    if m.serverTimeout = none then none
    else m.startingServer.map fun a => (m.withServer m.startingServer none).startServerTimeout w a
  | .utmpTimeout => some (m.checkUtmp w)
  | .stoppen force => some (m.stoppen w force)
  | .rescan hangup staticServers reserveServers =>
    some ((if hangup then m.markDisplays else m).scanServers staticServers reserveServers)
  | .childExit pid code => some (m.reapChild w pid code)
  | .serverReady =>
    some <| (m.startingServer.map fun a =>
      m.on a fun d => if d.serverStatus = .starting then m.startServerSuccess w a else m).getD m
  | .stop a => some (m.stopDisplay w a)
  | .manage name displayType =>
    some ((m.newDisplay name).set m.fresh fun d => { d with displayType := displayType })
  | .suicide a => some (m.suicide a)
  | .login a nuke => some (m.login a nuke)
  | .reserve => some m.startReserveDisplay
  | .resume => some m.wakeDisplays
  | .console =>
    if w.consoleTTYs then some ((m.forEachDisplay (stopToTTY w)).checkTTYMode w) else some m
  | .connOk => some (m.withServer none m.serverTimeout)
  | .user a userSess => some (m.set a fun d => { d with userSess := userSess })
  | .shutdown sdRec => some { m with sdRec := sdRec }
  | .cancelShutdown => some { m with sdRec := .none, stopping := false }

/-- Before the configuration has been read for the first time. -/
def initial : Manager := ⟨[],[],none,none,false,.none,false⟩

def run (m : Manager) : List (World × Event) → Option Manager
  | [] => some m
  | (w,e) :: es => (step w m e).bind fun m => run m es

/-- What a run leads to if each of its steps meets a condition. -/
inductive Reached (condition : World → Manager → Event → Prop) : Manager → Prop
  | initial : Reached condition initial
  | step {m m' : Manager} {w : World} {e : Event} :
      Reached condition m → condition w m e → step w m e = some m' → Reached condition m'

/-- Each event of a run meets a condition when it comes. -/
def Follows (condition : World → Manager → Event → Prop) : Manager → List (World × Event) → Prop
  | _, [] => True
  | m, (w,e) :: es => condition w m e ∧ ∀ m', step w m e = some m' → Follows condition m' es

theorem Reached.follows {condition : World → Manager → Event → Prop} {m m' : Manager} (es : List (World × Event))
    (before : Reached condition m) (follows : Follows condition m es) (ran : run m es = some m') :
    Reached condition m' := by
  induction es generalizing m with
  | nil =>
    cases ran
    exact before
  | cons event es ih =>
    obtain ⟨meets,later⟩ := follows
    obtain ⟨next,stepped,rest⟩ := Option.bind_eq_some_iff.mp ran
    exact ih (.step before meets stepped) (later next stepped) rest

theorem Reached.mono {c c' : World → Manager → Event → Prop} (weaker : ∀ w m e, c w m e → c' w m e) {m : Manager}
    (reached : Reached c m) : Reached c' m := by
  induction reached with
  | initial => exact .initial
  | step _ meets stepped ih => exact .step ih (weaker _ _ _ meets) stepped

end KdeWorkspace.DisplayCycle
