import Mathlib.Algebra.Group.Int.Defs
import Mathlib.Algebra.Group.Nat.Defs
import Mathlib.Tactic.Common

/-!
The commands of kdm's control sockets (`processCtrl`), with the displays, the
pending shutdowns and the next logins they read and change. The model is of a
daemon built for virtual terminals and with XDMCP, whose memory does not run out.

A command is refused with an error code and a message. What a refused command
leaves behind is what was there before, except for a `manage` with the name of an
authorization but not its data (`refused_unchanged_iff`): the display is created
before its arguments are checked, and this one exit does not remove it again.
-/
namespace KdeWorkspace.ControlCommands

/-- The type of a shutdown (`SHUT_REBOOT`, `SHUT_HALT`), or none. -/
inductive How
  | none
  | reboot
  | halt
deriving Repr, DecidableEq

/-- What is done about user sessions when the time is up. -/
inductive Force
  | SHUT_CANCEL
  | SHUT_FORCEMY
  | SHUT_FORCE
  | SHUT_ASK
deriving Repr, DecidableEq

/-- A requested shutdown. -/
structure SdRec where
  how : How
  force : Force
  uid : Int
  start : Int
  timeout : Int
  osname : Option String
deriving Repr, DecidableEq

def SdRec.none : SdRec := ⟨.none,.SHUT_CANCEL,0,0,0,.none⟩

inductive DisplayStatus
  | notRunning
  | running
  | zombie
  | phoenix
  | raiser
  | textMode
  | reserve
  | remoteLogin
deriving Repr, DecidableEq

/-- Who may shut down, and who may end the sessions of others by it. -/
inductive Permission
  | SHUT_NONE
  | SHUT_ROOT
  | SHUT_ALL
deriving Repr, DecidableEq

inductive Lifetime
  | dTransient
  | dReserve
  | dPermanent
deriving Repr, DecidableEq

inductive Origin
  | dFromFile
  | dFromXDMCP
  | dFromCommand
deriving Repr, DecidableEq

/-- What becomes of a display when its processes have ended. -/
inductive EndState
  | DS_RESTART
  | DS_RESERVE
  | DS_REMOTE
  | DS_REMOVE
deriving Repr, DecidableEq

structure DisplayType where
  dLocal : Bool
  origin : Origin
  lifetime : Lifetime
deriving Repr, DecidableEq

/-- A display; `addr` stands for its address. A pid is -1 where there is no process,
    and `userSess` where there is no session. -/
structure Display where
  addr : Nat
  name : String
  class2 : Option String
  displayType : DisplayType
  status : DisplayStatus
  zstatus : EndState
  pid : Int
  serverPid : Int
  serverVT : Int
  userSess : Int
  sdRec : SdRec
  allowShutdown : Permission
  allowNuke : Permission
  authorizations : List (String × List Nat)
deriving Repr, DecidableEq

/-- What is kept of a display when it is gone: its screen lock and the next login. -/
structure DispHist where
  name : String
  rLogin : Nat
  lock : Bool
  nuser : Option String
  npass : Option String
  nargs : Option String
deriving Repr, DecidableEq

structure Manager where
  displays : List Display
  disphist : List DispHist
  sdRec : SdRec
  stopping : Bool
  listenSockets : Bool
  fifoAllowShutdown : Bool
  fifoAllowNuke : Bool
deriving Repr, DecidableEq

inductive BootError
  | BO_NOMAN
  | BO_NOENT
  | BO_IO
deriving Repr, DecidableEq

/-- The configuration files as they are read: servers with their classes, and
    whether there are addresses to listen on for XDMCP. -/
structure Config where
  listens : Bool
  staticServers : List (String × Option String)
  reserveServers : List (String × Option String)
  fifoAllowShutdown : Bool
  fifoAllowNuke : Bool

/-- What the daemon reads of the system while it processes a command. -/
structure System where
  now : Int
  time : Int
  nowMonotonic : Bool
  hasBootManager : Bool
  setBootOption : String → Except BootError String
  getBootOptions : Except BootError (List String × Int × Int)
  activateVT : Int → Bool
  ttyLogins : List (Option Int)
  sessionText : Option Display → Bool → Bool → String
  config : Option Config

/-- What is written to the socket: a result, or an error code with its message and what the message is about. -/
inductive Reply
  | ok (text : String)
  | error (sts msg : String) (about : List String)
deriving Repr, DecidableEq

def Reply.isOk : Reply → Bool
  | .ok _ => true
  | .error _ _ _ => false

def missing : Reply := .error "bad" "missing argument(s)" []

def excess : Reply := .error "bad" "excess argument(s)" []

namespace Manager

def findDisplayByName (m : Manager) (name : String) : Option Display := m.displays.find? (·.name = name)

/-- Changes the display at the address. -/
def setDisplay (m : Manager) (addr : Nat) (f : Display → Display) : Manager :=
  { m with displays := m.displays.map fun d => if d.addr = addr then f d else d }

/-- Changes the history entry of the name. -/
def setHist (m : Manager) (name : String) (f : DispHist → DispHist) : Manager :=
  { m with disphist := m.disphist.map fun he => if he.name = name then f he else he }

def findHist (m : Manager) (name : String) : Option DispHist := m.disphist.find? (·.name = name)

def anyReserveDisplays (m : Manager) : Bool := m.displays.any fun d => d.displayType.lifetime = .dReserve

def idleReserveDisplays (m : Manager) : Nat := m.displays.countP fun d => d.status = .reserve

def startReserveDisplay (m : Manager) : Option Manager :=
  (m.displays.filter fun d => d.status = .reserve).getLast?.map fun rd =>
    m.setDisplay rd.addr fun d => { d with status := .notRunning }

/-- An address that no display has. -/
def fresh (m : Manager) : Nat := (m.displays.map (·.addr)).foldr max 0 + 1

def newDisplay (m : Manager) (name : String) : Manager × Nat :=
  let disphist := if (m.findHist name).isSome then m.disphist else ⟨name,0,false,none,none,none⟩ :: m.disphist
  let d : Display := ⟨m.fresh,name,none,⟨false,.dFromFile,.dTransient⟩,.notRunning,.DS_RESTART,-1,-1,0,-1,
    .none,.SHUT_NONE,.SHUT_NONE,[]⟩
  ({ m with displays := d :: m.displays, disphist := disphist },m.fresh)

def removeDisplay (m : Manager) (addr : Nat) : Manager :=
  { m with displays := m.displays.eraseP fun d => d.addr = addr }

def setNLogin (m : Manager) (d : Display) (nuser npass nargs : Option String) (rl : Nat) : Manager :=
  m.setHist d.name fun he => { he with rLogin := rl, nuser := nuser, npass := npass, nargs := nargs }

/-- `rStopDisplay`: what still runs is killed, and the display waits for that.
    The process of a server for a remote login is `server`, -1 where it cannot start. -/
def rStopDisplay (m : Manager) (d : Display) (endState : EndState) (server : Int) : Manager :=
  if d.serverPid ≠ -1 ∨ d.pid ≠ -1 then m.setDisplay d.addr fun d => { d with status := .zombie, zstatus := endState }
  else
    match endState with
    | .DS_RESERVE => m.setDisplay d.addr fun d => { d with status := .reserve }
    | .DS_REMOTE => m.setDisplay d.addr fun d =>
        { d with serverPid := server, status := if server = -1 then .notRunning else .remoteLogin }
    | .DS_RESTART | .DS_REMOVE => m.removeDisplay d.addr

def stopDisplay (m : Manager) (d : Display) : Manager := m.rStopDisplay d .DS_REMOVE (-1)

def wakeDisplay (d : Display) : Display :=
  if d.status = .textMode then
    { d with status := if d.displayType.lifetime = .dReserve then .reserve else .notRunning }
  else d

def wakeDisplays (m : Manager) : Manager := { m with displays := m.displays.map wakeDisplay }

def addServer (lifetime : Lifetime) (m : Manager) (server : String × Option String) : Manager :=
  let (m,addr) := match m.findDisplayByName server.1 with
    | some d => (m,d.addr)
    | none => m.newDisplay server.1
  m.setDisplay addr fun d => { d with
    class2 := server.2
    displayType := ⟨server.1.toList.head? = some ':',.dFromFile,lifetime⟩
    status :=
      if lifetime = .dReserve then if d.status = .notRunning then .reserve else d.status
      else if d.status = .reserve then .notRunning else d.status }

def rescanConfigs (m : Manager) (config : Option Config) : Manager :=
  match config with
  | none => m
  | some config =>
    let m := { m with
      listenSockets := config.listens
      fifoAllowShutdown := config.fifoAllowShutdown
      fifoAllowNuke := config.fifoAllowNuke }
    let m := config.staticServers.foldl (addServer .dPermanent) m
    config.reserveServers.foldl (addServer .dReserve) m

def cancelShutdown (m : Manager) (sys : System) : Manager :=
  rescanConfigs { m with sdRec := { m.sdRec with how := .none, osname := none }, stopping := false } sys.config

/-- Whether there is a session of another user than `uid`; of any, where it is negative. -/
def anyUserLogins (m : Manager) (sys : System) (uid : Int) : Bool :=
  (m.displays.any fun d => d.status = .remoteLogin || (0 ≤ d.userSess && d.userSess ≠ uid)) ||
    sys.ttyLogins.any fun login => uid < 0 || login ≠ some uid

end Manager

/-- `TO_INF`, also the start of a shutdown that is due. -/
def TO_INF : Int := 0x7fffffff

/-- A number as it is stored in an `int`. -/
def toInt (n : Int) : Int := n.bmod (2^32)

def isSpace (c : Char) : Bool := c = ' ' || (9 ≤ c.toNat && c.toNat ≤ 13)

def digits (cs : List Char) : Int := cs.foldl (fun n c => n*10+(c.toNat - '0'.toNat : Int)) 0

/-- `strtol` with base 10: the number and what stands behind it; nothing where there is no number. -/
def strtol (word : List Char) : Option (Int × List Char) :=
  let word := word.dropWhile isSpace
  let (negative,word) := match word with
    | '-' :: rest => (true,rest)
    | '+' :: rest => (false,rest)
    | _ => (false,word)
  let number := word.takeWhile Char.isDigit
  if number = [] then none
  else
    let n := if negative then -digits number else digits number
    some (max (-2^63) (min (2^63-1) n),word.dropWhile Char.isDigit)

def atoi (word : List Char) : Int := ((strtol word).map fun n => toInt n.1).getD 0

/-- `unQuote`: the escapes for newlines, tabs and backslashes. -/
def unQuote : List Char → List Char
  | [] => []
  | ['\\'] => ['\\']
  | '\\' :: '\\' :: rest => '\\' :: unQuote rest
  | '\\' :: 'n' :: rest => '\n' :: unQuote rest
  | '\\' :: 't' :: rest => '\t' :: unQuote rest
  | '\\' :: c :: rest => '\\' :: c :: unQuote rest
  | c :: rest => c :: unQuote rest

/-- The arguments of a command line; an argument ends where it holds a NUL. -/
def arguments (line : String) : List String :=
  (line.toList.splitOn '\t').map fun word => String.ofList (word.takeWhile (· ≠ '\x00'))

def atox (c : Char) : Option Nat :=
  if '0' ≤ c ∧ c ≤ '9' then some (c.toNat - '0'.toNat)
  else if 'a' ≤ c ∧ c ≤ 'f' then some (c.toNat - 'a'.toNat+10)
  else if 'A' ≤ c ∧ c ≤ 'F' then some (c.toNat - 'A'.toNat+10)
  else none

/-- `hexToBinary` -/
def hexToBinary : List Char → Option (List Nat)
  | [] => some []
  | [_] => none
  | a :: b :: rest => do
    let top ← atox a
    let bottom ← atox b
    let bytes ← hexToBinary rest
    some ((top*16+bottom) :: bytes)

/-- The time that a word names, counted from `base` where it starts with a plus. -/
def absolute (sys : System) (word : String) (n base : Int) : Int :=
  if word.toList.head? = some '+' then toInt (n+base)
  else if sys.nowMonotonic ∧ n ≠ 0 then toInt (toInt (n-sys.time)+sys.now)
  else n

/-- The end of a request that names a start time: the timeout and what is done then. -/
def parseTimeout (sys : System) (onDisplay : Bool) (third : String) (start : Int) :
    List String → Except Reply (Int × Force × List String)
  | [] => .error missing
  | word :: rest =>
    match strtol word.toList with
    | some (n,[]) =>
      let timeout := toInt n
      if timeout < 0 then .ok (TO_INF,.SHUT_CANCEL,rest)
      else
        let timeout := absolute sys word timeout (if start ≠ 0 then start else sys.now)
        match rest with
        | [] => .error missing
        | action :: rest =>
          if action = "force" then .ok (timeout,.SHUT_FORCE,rest)
          else if onDisplay ∧ action = "forcemy" then .ok (timeout,.SHUT_FORCEMY,rest)
          else if action = "cancel" then .ok (timeout,.SHUT_CANCEL,rest)
          else .error (.error "bad" "invalid timeout action %\"s" [action])
    | _ => .error (.error "bad" "invalid timeout %\"s" [third])

/-- The end of a request that names a mode. -/
def parseMode (onDisplay : Bool) (word : String) : Except Reply (Int × Force) :=
  if onDisplay ∧ word = "ask" then .ok (0,.SHUT_ASK)
  else if word = "forcenow" then .ok (0,.SHUT_FORCE)
  else if word = "schedule" then .ok (TO_INF,.SHUT_CANCEL)
  else if word = "trynow" then .ok (0,.SHUT_CANCEL)
  else .error (.error "bad" "invalid mode %\"s" [word])

def noMore : List String → Except Reply Unit
  | [] => .ok ()
  | _ :: _ => .error excess

def bootError : BootError → Reply
  | .BO_NOMAN => .error "notsup" "boot options unavailable" []
  | .BO_NOENT => .error "noent" "no such boot option" []
  | BootError.BO_IO => .error "io" "io error" []

def parseType (word : String) : Except Reply How :=
  if word = "reboot" then .ok .reboot
  else if word = "halt" then .ok .halt
  else .error (.error "bad" "invalid type %\"s" [word])

/-- The boot option, where there is one. -/
def parseBootOption (sys : System) : List String → Except Reply (Option String × List String)
  | [] => .error missing
  | word :: rest =>
    if word.toList.head? = some '=' then
      match sys.setBootOption (String.ofList word.toList.tail) with
      | .error e => .error (bootError e)
      | .ok osname => .ok (some osname,rest)
    else .ok (none,word :: rest)

/-- The record that the arguments of `shutdown` ask for; its `how` is none for a
    cancellation, which starts at `TO_INF` where it is of the global record. -/
def parseShutdown (sys : System) (onDisplay : Bool) (ar : List String) : Except Reply SdRec :=
  match ar.tail with
  | [] => .error missing
  | "cancel" :: [] => .ok ⟨.none,.SHUT_CANCEL,-1,0,0,none⟩
  | "cancel" :: scope :: rest =>
    if !onDisplay then .error excess
    else if scope = "global" then (noMore rest).map fun _ => ⟨.none,.SHUT_CANCEL,-1,TO_INF,0,none⟩
    else if scope = "local" then (noMore rest).map fun _ => ⟨.none,.SHUT_CANCEL,-1,0,0,none⟩
    else .error (.error "bad" "invalid cancel scope %\"s" [scope])
  | type :: rest => do
    let how ← parseType type
    let (osname,rest) ← parseBootOption sys rest
    match rest with
    | [] => .error missing
    | word :: rest =>
      match strtol word.toList with
      | some (n,[]) =>
        let start := absolute sys word (toInt n) sys.now
        let (timeout,force,rest) ← parseTimeout sys onDisplay (ar.getD 3 "") start rest
        noMore rest
        .ok ⟨how,force,-1,start,timeout,osname⟩
      | _ =>
        let (timeout,force) ← parseMode onDisplay word
        noMore rest
        .ok ⟨how,force,-1,0,timeout,osname⟩

/-- A session of the user may not force a shutdown on the display. -/
def nukeForbidden (d : Display) (uid : Int) : Prop := d.allowNuke = .SHUT_NONE ∨ (d.allowNuke = .SHUT_ROOT ∧ uid ≠ 0)

instance (d : Display) (uid : Int) : Decidable (nukeForbidden d uid) := inferInstanceAs (Decidable (_ ∨ _))

/-- A request of the user may not take the place of this one. -/
def overrideForbidden (pending : SdRec) (d : Display) (uid : Int) : Prop :=
  (d.allowNuke = .SHUT_NONE ∧ pending.uid ≠ uid) ∨ (d.allowNuke = .SHUT_ROOT ∧ uid ≠ 0)

instance (pending : SdRec) (d : Display) (uid : Int) : Decidable (overrideForbidden pending d uid) :=
  inferInstanceAs (Decidable (_ ∨ _))

def done : Reply := .ok "ok\n"

/-- The user of the session on the display; root where there is none. -/
def sessionUser (d : Display) : Int := if d.userSess ≥ 0 then d.userSess else 0

/-- The display does not allow the request at all. -/
def shutdownForbidden (d : Display) (sdr : SdRec) : Prop :=
  d.allowShutdown = .SHUT_NONE ∨ (d.allowShutdown = .SHUT_ROOT ∧ sdr.uid ≠ 0 ∧ sdr.force ≠ .SHUT_ASK)

instance (d : Display) (sdr : SdRec) : Decidable (shutdownForbidden d sdr) := inferInstanceAs (Decidable (_ ∨ _))

/-- A request on the socket of the display. -/
def shutdownOnDisplay (sys : System) (m : Manager) (d : Display) (sdr : SdRec) : Manager × Reply :=
  let sdr := { sdr with uid := sessionUser d }
  if shutdownForbidden d sdr then (m,.error "perm" "shutdown forbidden" [])
  else if sdr.how = .none ∧ sdr.start = 0 then (m.setDisplay d.addr fun d => { d with sdRec := sdr },done)
  else if m.sdRec.how ≠ .none ∧ m.sdRec.force = .SHUT_FORCE ∧ overrideForbidden m.sdRec d sdr.uid then
    (m,.error "perm" "overriding forced shutdown forbidden" [])
  else if sdr.force = .SHUT_FORCE ∧ nukeForbidden d sdr.uid then (m,.error "perm" "forced shutdown forbidden" [])
  else if sdr.start = 0 then (m.setDisplay d.addr fun d => { d with sdRec := sdr },done)
  else if sdr.how = .none then (m.cancelShutdown sys,done)
  else ({ m with sdRec := sdr },done)

/-- A request on the global socket. -/
def shutdownGlobal (sys : System) (m : Manager) (sdr : SdRec) : Manager × Reply :=
  if !m.fifoAllowShutdown then (m,.error "perm" "shutdown forbidden" [])
  else if m.sdRec.how ≠ .none ∧ m.sdRec.force = .SHUT_FORCE ∧ m.sdRec.uid ≠ -1 ∧ !m.fifoAllowNuke then
    (m,.error "perm" "overriding forced shutdown forbidden" [])
  else if sdr.how = .none then (m.cancelShutdown sys,done)
  else if sdr.force ≠ .SHUT_CANCEL then
    if !m.fifoAllowNuke then (m,.error "perm" "forced shutdown forbidden" [])
    else ({ m with sdRec := { sdr with uid := -1 } },done)
  else if sdr.start = 0 ∧ sdr.timeout = 0 ∧ m.anyUserLogins sys (-1) then
    (m,.error "busy" "user sessions running" [])
  else ({ m with sdRec := { sdr with uid := -1 } },done)

def sdCat (sys : System) (sdr : SdRec) : String :=
  let delta := if sys.nowMonotonic then sys.time-sys.now else 0
  let shifted (n : Int) : String := toString (if n ≠ 0 then n+delta else 0)
  (if sdr.how = .halt then "halt," else "reboot,") ++
    (if sdr.start = TO_INF then "0," else shifted sdr.start ++ ",") ++
    (if sdr.timeout = TO_INF then "-1," else shifted sdr.timeout ++ ",") ++
    (match sdr.force with
      | .SHUT_ASK => "ask"
      | .SHUT_FORCE => "force"
      | .SHUT_FORCEMY => "forcemy"
      | .SHUT_CANCEL => "cancel") ++
    "," ++ toString sdr.uid ++ "," ++ sdr.osname.getD "-"

def shutdownStatus (sys : System) (m : Manager) (d : Option Display) (rest : List String) : Reply :=
  match rest with
  | _ :: _ => excess
  | [] => .ok ("ok" ++ (if m.sdRec.how ≠ .none then "\tglobal," ++ sdCat sys m.sdRec else "") ++
      (match d with
        | some d => if d.sdRec.how ≠ .none then "\tlocal," ++ sdCat sys d.sdRec else ""
        | none => "") ++ "\n")

def ctrlShutdown (sys : System) (m : Manager) (d : Option Display) (ar : List String) : Manager × Reply :=
  match ar with
  | _ :: "status" :: rest => (m,shutdownStatus sys m d rest)
  | _ =>
    match parseShutdown sys d.isSome ar with
    | .error reply => (m,reply)
    | .ok sdr =>
      match d with
      | some d => shutdownOnDisplay sys m d sdr
      | none => shutdownGlobal sys m sdr

def ctrlCaps (sys : System) (m : Manager) (d : Option Display) (ar : List String) : Reply :=
  if ar.length > 1 then excess
  else
    let reserve := if m.anyReserveDisplays then s!"reserve {m.idleReserveDisplays}\t" else ""
    .ok ("ok\tkdm\tlist\t" ++ (if sys.hasBootManager then "bootoptions\t" else "") ++
      match d with
      | some d =>
        (if d.displayType.dLocal then "local\tactivate\t" else "") ++
        (if d.allowShutdown ≠ .SHUT_NONE then
          (if d.allowShutdown = .SHUT_ROOT ∧ d.userSess ≠ 0 then "shutdown root\t" else "shutdown\t") ++
          "shutdown ask\t" ++
          (if d.allowNuke ≠ .SHUT_NONE then
            if d.allowNuke = .SHUT_ROOT ∧ d.userSess ≠ 0 then "nuke root\t" else "nuke\t"
          else "")
        else "") ++
        (if d.displayType.dLocal then reserve else "") ++ "lock\tsuicide\n"
      | none =>
        (if m.fifoAllowShutdown then "shutdown\t" ++ (if m.fifoAllowNuke then "nuke\t" else "") else "") ++
        reserve ++ "activate\tresume\tmanage\tlogin\n")

def ctrlList (sys : System) (d : Option Display) (ar : List String) : Reply :=
  match ar.tail with
  | [] => .ok ("ok" ++ sys.sessionText d true false ++ "\n")
  | scope :: rest =>
    if scope ≠ "all" ∧ scope ≠ "alllocal" then .error "bad" "invalid list scope %\"s" [scope]
    else if rest ≠ [] then excess
    else .ok ("ok" ++ sys.sessionText d (scope = "all") true ++ "\n")

def notLocal (d : Option Display) : Bool := d.any fun d => !d.displayType.dLocal

def ctrlReserve (m : Manager) (d : Option Display) (ar : List String) : Manager × Reply :=
  if ar.length > 2 then (m,excess)
  else if notLocal d then (m,.error "perm" "display is not local" [])
  else
    match m.startReserveDisplay with
    | none => (m,.error "noent" "no reserve display available" [])
    | some m => (m,done)

def ctrlActivate (sys : System) (m : Manager) (d : Option Display) (ar : List String) : Reply :=
  match ar.tail with
  | [] => missing
  | _ :: _ :: _ => excess
  | [target] =>
    if notLocal d then .error "perm" "display is not local" []
    else
      let number := atoi (target.toList.drop 2)
      if target.toList.take 2 = ['v','t'] ∧ number > 0 then
        if sys.activateVT number then done else .error "inval" "VT switch failed" []
      else
        match m.findDisplayByName target with
        | none => .error "noent" "display not found" []
        | some di =>
          if !di.displayType.dLocal then .error "inval" "target display is not local" []
          else if di.serverVT = 0 then .error "noent" "target display has no VT assigned" []
          else if sys.activateVT di.serverVT then done
          else .error "inval" "VT switch failed" []

/-- The boot options, with their blanks escaped. -/
def ctrlListBootOptions (sys : System) (ar : List String) : Reply :=
  if ar.length > 1 then excess
  else
    match sys.getBootOptions with
    | .error e => bootError e
    | .ok (opts,default,current) =>
      .ok ("ok\t" ++ " ".intercalate (opts.map fun opt => opt.replace " " "\\s") ++ s!"\t{default}\t{current}\n")

def ctrlLock (m : Manager) (d : Display) (ar : List String) (lock : Bool) : Manager × Reply :=
  if ar.length > 1 then (m,excess) else (m.setHist d.name fun he => { he with lock := lock },done)

def ctrlSuicide (m : Manager) (d : Display) (ar : List String) : Manager × Reply :=
  if ar.length > 1 then (m,excess)
  else if d.status = .running ∧ d.pid ≠ -1 then (m.setDisplay d.addr fun d => { d with status := .raiser },done)
  else (m,done)

/-- What `login` does with the display, once the login is set. -/
def loginStatus (nuke : Bool) (d : Display) : DisplayStatus :=
  match d.status with
  | .running => if d.pid ≠ -1 ∧ (d.userSess < 0 ∨ nuke = true) then .raiser else .running
  | .reserve => .notRunning
  | status => status

def ctrlLogin (m : Manager) (ar : List String) : Manager × Reply :=
  match ar.tail with
  | name :: moment :: user :: pass :: rest =>
    match m.findDisplayByName name with
    | none => (m,.error "noent" "display %s not found" [name])
    | some di =>
      if rest.length > 1 then (m,excess)
      else
        let args := rest.head?.map fun args => String.ofList (unQuote args.toList)
        let m := m.setNLogin di (some user) (some pass) args 2
        (m.setDisplay di.addr fun d => { d with status := loginStatus (moment = "now") d },done)
  | _ => (m,missing)

def ctrlResume (m : Manager) (ar : List String) : Manager × Reply :=
  if ar.length > 1 then (m,excess) else (m.wakeDisplays,done)

/-- The type of a display that a command created. -/
def onDemand : DisplayType := ⟨false,.dFromCommand,.dPermanent⟩

/-- `manage`: the display is created first, and its arguments are looked at then. -/
def ctrlManage (m : Manager) (ar : List String) : Manager × Reply :=
  match ar.tail with
  | [] => (m,missing)
  | name :: rest =>
    if name.toList.head? = some ':' then (m,.error "bad" "display needs host (try localhost?)" [])
    else if (m.findDisplayByName name).isSome then (m,.error "exists" "display is already being managed" [])
    else
      let (m,di) := m.newDisplay name
      let m := m.setDisplay di fun d => { d with displayType := onDemand }
      match rest with
      | [] => (m,done)
      | class2 :: rest =>
        let m := m.setDisplay di fun d => { d with class2 := if class2 = "" then none else some class2 }
        match rest with
        | [] => (m,done)
        | [_] => (m,missing)
        | _ :: _ :: _ :: _ => (m.removeDisplay di,excess)
        | [authorization,data] =>
          match hexToBinary data.toList with
          | none | some [] => (m.removeDisplay di,.error "bad" "invalid authorization data" [])
          | some bytes => (m.setDisplay di fun d => { d with authorizations := [(authorization,bytes)] },done)

def ctrlUnmanage (m : Manager) (ar : List String) : Manager × Reply :=
  match ar.tail with
  | [] => (m,missing)
  | _ :: _ :: _ => (m,excess)
  | [name] =>
    match m.findDisplayByName name with
    | none => (m,.error "noent" "display %s not found" [name])
    | some di =>
      if di.displayType.origin ≠ .dFromCommand then (m,.error "perm" "not an on-demand display" [])
      else (m.stopDisplay di,done)

def unknown : Reply := .error "nosys" "unknown command" []

/-- A command line on the global socket, or on the one of a display. -/
def processCtrl (sys : System) (m : Manager) (d : Option Display) (line : String) : Manager × Reply :=
  let ar := arguments line
  match ar.headD "",d with
  | "caps",_ => (m,ctrlCaps sys m d ar)
  | "list",_ => (m,ctrlList sys d ar)
  | "reserve",_ => ctrlReserve m d ar
  | "activate",_ => (m,ctrlActivate sys m d ar)
  | "shutdown",_ => ctrlShutdown sys m d ar
  | "listbootoptions",_ => (m,ctrlListBootOptions sys ar)
  | "lock",some d => ctrlLock m d ar true
  | "unlock",some d => ctrlLock m d ar false
  | "suicide",some d => ctrlSuicide m d ar
  | "login",none => ctrlLogin m ar
  | "resume",none => ctrlResume m ar
  | "manage",none => ctrlManage m ar
  | "unmanage",none => ctrlUnmanage m ar
  | _,_ => (m,unknown)

/-- The displays with their status, requests, next logins and locks, and the global request are the same. -/
structure Unchanged (m m' : Manager) : Prop where
  displays : m'.displays = m.displays
  sdRec : m'.sdRec = m.sdRec
  hist : ∀ d ∈ m.displays, m'.findHist d.name = m.findHist d.name

/-- A `manage` of a new display that ends with the name of an authorization. -/
def Unfinished (m : Manager) (d : Option Display) (line : String) : Prop :=
  d = none ∧ ∃ name class2 authorization, arguments line = ["manage",name,class2,authorization] ∧
    name.toList.head? ≠ some ':' ∧ m.findDisplayByName name = none

theorem Unchanged.rfl (m : Manager) : Unchanged m m := ⟨.refl _,.refl _,fun _ _ => .refl _⟩

variable {m : Manager}

theorem addr_lt_fresh {d : Display} (within : d ∈ m.displays) : d.addr < m.fresh := by
  have below (l : List Nat) {n : Nat} (within : n ∈ l) : n ≤ l.foldr max 0 := by
    induction l with
    | nil => simp at within
    | cons a l ih =>
      rcases List.mem_cons.mp within with same | within
      · subst same
        exact Nat.le_max_left _ _
      · exact Nat.le_trans (ih within) (Nat.le_max_right _ _)
  exact Nat.lt_succ_of_le (below _ (List.mem_map_of_mem within))

/-- The list with a new display in front of it. -/
structure Created (m m' : Manager) (name : String) : Prop where
  displays : ∃ d, d.addr = m.fresh ∧ m'.displays = d :: m.displays
  sdRec : m'.sdRec = m.sdRec
  hist : ∀ other, other ≠ name → m'.findHist other = m.findHist other

theorem newDisplay_created (m : Manager) (name : String) : Created m (m.newDisplay name).1 name := by
  refine ⟨⟨_,rfl,rfl⟩,rfl,?_⟩
  intro other differ
  simp only [Manager.newDisplay]
  cases known : (m.findHist name).isSome with
  | true => simp [Manager.findHist]
  | false =>
    simp only [Manager.findHist,Bool.false_eq_true,if_false]
    rw [List.find?_cons_of_neg]
    simpa using Ne.symm differ

theorem Created.setDisplay {m m' : Manager} {name : String} (created : Created m m' name) {f : Display → Display}
    (keeps : ∀ d, (f d).addr = d.addr) : Created m (m'.setDisplay m.fresh f) name := by
  obtain ⟨d,addr,displays⟩ := created.displays
  refine ⟨⟨f d,(keeps d).trans addr,?_⟩,created.sdRec,created.hist⟩
  rw [Manager.setDisplay,displays,List.map_cons,if_pos addr]
  have others : m.displays.map (fun d => if d.addr = m.fresh then f d else d) = m.displays := by
    refine (List.map_congr_left fun other within => ?_).trans (List.map_id _)
    rw [if_neg (Nat.ne_of_lt (addr_lt_fresh within)),id]
  exact congrArg _ others

theorem Created.removeDisplay {m m' : Manager} {name : String} (created : Created m m' name)
    (free : m.findDisplayByName name = none) : Unchanged m (m'.removeDisplay m.fresh) := by
  obtain ⟨d,addr,displays⟩ := created.displays
  refine ⟨?_,created.sdRec,?_⟩
  · rw [Manager.removeDisplay,displays,List.eraseP_cons_of_pos]
    simpa using addr
  · intro other within
    refine created.hist other.name ?_
    intro same
    have differ := List.find?_eq_none.mp free other within
    simp [same] at differ

variable {ar : List String}

/-- A refused `manage` that is complete leaves nothing of the display it created. -/
theorem ctrlManage_refused (command : ar.headD "" = "manage")
    (refused : (ctrlManage m ar).2.isOk = false) (complete : ¬ ∃ name class2 authorization,
      ar = ["manage",name,class2,authorization] ∧ name.toList.head? ≠ some ':' ∧ m.findDisplayByName name = none) :
    Unchanged m (ctrlManage m ar).1 := by
  match ar with
  | [] => exact .rfl m
  | [_] => exact .rfl m
  | first :: name :: rest =>
    change first = "manage" at command
    subst command
    simp only [ctrlManage,List.tail_cons] at refused ⊢
    by_cases host : name.toList.head? = some ':'
    · rw [if_pos host]
      exact .rfl m
    by_cases known : (m.findDisplayByName name).isSome = true
    · rw [if_neg host,if_pos known]
      exact .rfl m
    rw [if_neg host,if_neg known] at refused ⊢
    have free : m.findDisplayByName name = none := by simpa using known
    have created : Created m ((m.newDisplay name).1.setDisplay m.fresh fun d => { d with displayType := onDemand })
        name := (newDisplay_created m name).setDisplay fun _ => rfl
    have classed (class2 : String) : Created m (((m.newDisplay name).1.setDisplay m.fresh
        fun d => { d with displayType := onDemand }).setDisplay m.fresh
        fun d => { d with class2 := if class2 = "" then none else some class2 }) name :=
      created.setDisplay fun _ => rfl
    match rest with
    | [] => cases refused
    | [_] => cases refused
    | [class2,authorization] => exact absurd ⟨name,class2,authorization,rfl,host,free⟩ complete
    | class2 :: _ :: _ :: _ :: _ => exact (classed class2).removeDisplay free
    | [class2,authorization,data] =>
      simp only at refused ⊢
      split at refused
      · exact (classed class2).removeDisplay free
      · exact (classed class2).removeDisplay free
      · cases refused

/-- A `manage` that ends with the name of an authorization is refused, and keeps the display. -/
theorem ctrlManage_unfinished {name : String} (class2 authorization : String)
    (host : name.toList.head? ≠ some ':') (free : m.findDisplayByName name = none) :
    (ctrlManage m ["manage",name,class2,authorization]).2.isOk = false ∧
      (ctrlManage m ["manage",name,class2,authorization]).1.displays.length = m.displays.length+1 := by
  simp only [ctrlManage,List.tail_cons,if_neg host,free,Option.isSome_none,Bool.false_eq_true,if_false]
  exact ⟨rfl,by simp [Manager.setDisplay,Manager.newDisplay]⟩

/-- What a request on the socket of a display does, and what is checked before. -/
inductive OnDisplay (sys : System) (m : Manager) (d : Display) (sdr : SdRec) : Manager × Reply → Prop
  | refused (msg : String) : OnDisplay sys m d sdr (m,.error "perm" msg [])
  | cancelLocal (allowed : ¬ shutdownForbidden d sdr) (how : sdr.how = .none) (start : sdr.start = 0) :
      OnDisplay sys m d sdr (m.setDisplay d.addr fun d => { d with sdRec := sdr },done)
  | requestLocal (allowed : ¬ shutdownForbidden d sdr)
      (overrides : ¬ (m.sdRec.how ≠ .none ∧ m.sdRec.force = .SHUT_FORCE ∧ overrideForbidden m.sdRec d sdr.uid))
      (nuke : ¬ (sdr.force = .SHUT_FORCE ∧ nukeForbidden d sdr.uid)) (how : sdr.how ≠ .none) (start : sdr.start = 0) :
      OnDisplay sys m d sdr (m.setDisplay d.addr fun d => { d with sdRec := sdr },done)
  | cancelGlobal (allowed : ¬ shutdownForbidden d sdr)
      (overrides : ¬ (m.sdRec.how ≠ .none ∧ m.sdRec.force = .SHUT_FORCE ∧ overrideForbidden m.sdRec d sdr.uid))
      (how : sdr.how = .none) (start : sdr.start ≠ 0) : OnDisplay sys m d sdr (m.cancelShutdown sys,done)
  | requestGlobal (allowed : ¬ shutdownForbidden d sdr)
      (overrides : ¬ (m.sdRec.how ≠ .none ∧ m.sdRec.force = .SHUT_FORCE ∧ overrideForbidden m.sdRec d sdr.uid))
      (nuke : ¬ (sdr.force = .SHUT_FORCE ∧ nukeForbidden d sdr.uid)) (how : sdr.how ≠ .none) (start : sdr.start ≠ 0) :
      OnDisplay sys m d sdr ({ m with sdRec := sdr },done)

theorem shutdownOnDisplay_spec (sys : System) (m : Manager) (d : Display) (sdr : SdRec) :
    OnDisplay sys m d { sdr with uid := sessionUser d } (shutdownOnDisplay sys m d sdr) := by
  simp only [shutdownOnDisplay]
  split_ifs with forbidden cancels overrides nuke start how
  · exact .refused _
  · exact .cancelLocal forbidden cancels.1 cancels.2
  · exact .refused _
  · exact .refused _
  · refine .requestLocal forbidden overrides nuke (fun how => ?_) start
    exact cancels ⟨how,start⟩
  · exact .cancelGlobal forbidden overrides how start
  · exact .requestGlobal forbidden overrides nuke how start

theorem shutdownOnDisplay_refused {sys : System} {d : Display} {sdr : SdRec}
    (refused : (shutdownOnDisplay sys m d sdr).2.isOk = false) : (shutdownOnDisplay sys m d sdr).1 = m := by
  have spec := shutdownOnDisplay_spec sys m d sdr
  generalize shutdownOnDisplay sys m d sdr = result at spec refused ⊢
  cases spec with
  | refused => rfl
  | cancelLocal | requestLocal | cancelGlobal | requestGlobal => cases refused

theorem shutdownGlobal_refused {sys : System} {sdr : SdRec}
    (refused : (shutdownGlobal sys m sdr).2.isOk = false) : (shutdownGlobal sys m sdr).1 = m := by
  revert refused
  unfold shutdownGlobal
  split_ifs <;> simp [done,Reply.isOk]

theorem ctrlShutdown_refused {sys : System} {d : Option Display}
    (refused : (ctrlShutdown sys m d ar).2.isOk = false) : (ctrlShutdown sys m d ar).1 = m := by
  revert refused
  unfold ctrlShutdown
  intro refused
  split at refused
  · rfl
  · split at refused
    · simp [*]
    · split at refused
      · simpa [*] using shutdownOnDisplay_refused refused
      · simpa [*] using shutdownGlobal_refused refused

theorem ctrlReserve_refused {d : Option Display}
    (refused : (ctrlReserve m d ar).2.isOk = false) : (ctrlReserve m d ar).1 = m := by
  revert refused
  unfold ctrlReserve
  split_ifs
  · simp
  · simp
  · cases m.startReserveDisplay <;> simp [done,Reply.isOk]

theorem ctrlLock_refused {d : Display} {lock : Bool}
    (refused : (ctrlLock m d ar lock).2.isOk = false) : (ctrlLock m d ar lock).1 = m := by
  revert refused
  unfold ctrlLock
  split_ifs <;> simp [done,Reply.isOk]

theorem ctrlSuicide_refused {d : Display}
    (refused : (ctrlSuicide m d ar).2.isOk = false) : (ctrlSuicide m d ar).1 = m := by
  revert refused
  unfold ctrlSuicide
  split_ifs <;> simp [done,Reply.isOk]

theorem ctrlResume_refused (refused : (ctrlResume m ar).2.isOk = false) : (ctrlResume m ar).1 = m := by
  revert refused
  unfold ctrlResume
  split_ifs <;> simp [done,Reply.isOk]

theorem ctrlLogin_refused (refused : (ctrlLogin m ar).2.isOk = false) : (ctrlLogin m ar).1 = m := by
  revert refused
  unfold ctrlLogin
  split
  · split
    · simp
    · split_ifs <;> simp [done,Reply.isOk]
  · simp

theorem ctrlUnmanage_refused (refused : (ctrlUnmanage m ar).2.isOk = false) : (ctrlUnmanage m ar).1 = m := by
  revert refused
  unfold ctrlUnmanage
  split
  · simp
  · simp
  · split
    · simp
    · split_ifs <;> simp [done,Reply.isOk]

/-- A refused command other than `manage` changes nothing at all. -/
theorem refused_same {sys : System} {d : Option Display} {line : String}
    (other : ¬ (d = none ∧ (arguments line).headD "" = "manage"))
    (refused : (processCtrl sys m d line).2.isOk = false) : (processCtrl sys m d line).1 = m := by
  revert refused
  unfold processCtrl
  simp only
  split
  · simp
  · simp
  · exact ctrlReserve_refused
  · simp
  · exact ctrlShutdown_refused
  · simp
  · exact ctrlLock_refused
  · exact ctrlLock_refused
  · exact ctrlSuicide_refused
  · exact ctrlLogin_refused
  · exact ctrlResume_refused
  · rename_i command
    exact absurd ⟨rfl,command⟩ other
  · exact ctrlUnmanage_refused
  · simp

theorem processCtrl_manage (sys : System) (m : Manager) {line : String}
    (command : (arguments line).headD "" = "manage") :
    processCtrl sys m none line = ctrlManage m (arguments line) := by
  unfold processCtrl
  dsimp only
  rw [command]
  rfl

/-- A command that is refused leaves the displays, the requests, the next logins and
    the locks as they were, unless it is a `manage` that is not finished. -/
theorem refused_unchanged_iff (sys : System) (m : Manager) (d : Option Display) (line : String) :
    ((processCtrl sys m d line).2.isOk = false → Unchanged m (processCtrl sys m d line).1) ↔ ¬ Unfinished m d line := by
  constructor
  · rintro unchanged ⟨rfl,name,class2,authorization,args,host,free⟩
    have manage : processCtrl sys m none line = ctrlManage m ["manage",name,class2,authorization] := by
      rw [processCtrl_manage sys m (by rw [args]; rfl),args]
    obtain ⟨refused,longer⟩ := ctrlManage_unfinished class2 authorization host free
    rw [← manage] at refused longer
    rw [(unchanged refused).displays] at longer
    omega
  · intro complete refused
    by_cases manage : d = none ∧ (arguments line).headD "" = "manage"
    · obtain ⟨rfl,command⟩ := manage
      rw [processCtrl_manage sys m command] at refused ⊢
      refine ctrlManage_refused command refused ?_
      rintro ⟨name,class2,authorization,args,host,free⟩
      exact complete ⟨rfl,name,class2,authorization,args,host,free⟩
    · rw [refused_same manage refused]
      exact .rfl m

/-- A daemon without displays, and a system that has nothing to offer. -/
def idle : Manager := ⟨[],[],.none,false,false,true,true⟩

def bare : System := ⟨0,0,false,false,fun _ => .error .BO_NOMAN,.error .BO_NOMAN,fun _ => false,[],fun _ _ _ => "",none⟩

/-- The display is managed although the command is refused. -/
theorem manage_without_data :
    (processCtrl bare idle none "manage\thost:1\tclass\tMIT-MAGIC-COOKIE-1").2 = missing ∧
      ¬ Unchanged idle (processCtrl bare idle none "manage\thost:1\tclass\tMIT-MAGIC-COOKIE-1").1 := by
  refine ⟨by decide +kernel,?_⟩
  intro unchanged
  have displays := unchanged.displays
  revert displays
  decide +kernel

end KdeWorkspace.ControlCommands
