import KdeWorkspace.ControlCommands
import KdeWorkspace.PipeCodec
import Mathlib.Data.Nat.Digits.Defs

/-!
The list of the local sessions, as kdm writes it on a control socket and as `KDisplayManager` reads it.

Both sides are C programs which see bytes; what `QString` makes of the bytes of a name is left to it.
-/
namespace KdeWorkspace.SessionList
open ControlCommands (DisplayStatus Permission)
open PipeCodec (Bytes CInt stringAt)

def byte (c : Char) : UInt8 := UInt8.ofNat c.toNat

def text (s : String) : Bytes := s.toList.map byte

def tab : UInt8 := 9
def newline : UInt8 := 10
def comma : UInt8 := byte ','

/-- A name which neither ends a string nor separates the fields, the records or the replies. -/
structure Name where
  chars : Bytes
  clean : ∀ c ∈ chars, c ≠ 0 ∧ c ≠ tab ∧ c ≠ newline ∧ c ≠ comma
deriving DecidableEq

instance : Inhabited Name := ⟨⟨[],nofun⟩⟩

def Name.ofOption (name : Option Name) : Bytes := (name.map Name.chars).getD []

/-- A display; `addr` stands for its address. -/
structure Display where
  addr : Nat
  name : Name
  dLocal : Bool
  status : DisplayStatus
  serverVT : CInt
  remoteHost : Name
  userName : Option Name
  sessName : Option Name
  userSess : CInt
  allowNuke : Permission
deriving DecidableEq

/-- An entry of the file of the logins. Its strings are as long as they fit. -/
structure Utmp where
  userProcess : Bool
  alive : Bool
  ut_line : Name
  ut_user : Name
  ut_host : Name
  line_fits : ut_line.chars.length ≤ 32
  user_fits : ut_user.chars.length ≤ 32
  host_fits : ut_host.chars.length ≤ 256

/-- What kdm has been built with and what it knows. -/
structure Manager where
  HAVE_VTS : Bool
  XDMCP : Bool
  displays : List Display
  logins : List Utmp
  fifoAllowNuke : Bool
  getpwnam : Bytes → Option CInt

/-- `%d` -/
def decimal (n : Int) : Bytes :=
  (if n < 0 then [byte '-'] else []) ++ ((Nat.digits 10 n.natAbs).map fun d => UInt8.ofNat (48+d)).reverse

def strCatL (str : Bytes) (max : Nat) : Bytes := str.take max

def displayName (di : Display) : Bytes :=
  if text "localhost:" <+: di.name.chars then di.name.chars.drop 9 else di.name.chars

def TTYtoVT (tty : Bytes) : CInt :=
  if text "tty" <+: tty then BitVec.ofInt 32 (ControlCommands.atoi ((tty.drop 3).map fun c => Char.ofNat c.toNat))
  else 0

def vtField (m : Manager) (vt : CInt) : Bytes := if m.HAVE_VTS ∧ vt ≠ 0 then text "vt" ++ decimal vt.toInt else []

/-- Whether the display that asks may not end the session of another. -/
def sessionGuarded (m : Manager) (d : Option Display) (di : Display) : Bool :=
  decide (0 ≤ di.userSess.toInt) && match d with
    | some d => d.userSess != di.userSess &&
        (d.allowNuke = .SHUT_NONE || (d.allowNuke = .SHUT_ROOT && d.userSess != 0))
    | none => !m.fifoAllowNuke

def isRemote (m : Manager) (di : Display) : Bool := m.XDMCP && di.status = .remoteLogin

def isSelf (d : Option Display) (di : Display) : Bool := d.any fun d => d.addr = di.addr

def emitXSessC (m : Manager) (d : Option Display) (di : Display) : Bytes :=
  [tab] ++ strCatL (displayName di) 512 ++ [comma] ++ vtField m di.serverVT ++ [comma] ++
  (if isRemote m di then [comma] ++ strCatL di.remoteHost.chars 341
   else strCatL (Name.ofOption di.userName) 204 ++ [comma] ++ strCatL (Name.ofOption di.sessName) 204) ++
  [comma] ++ (if isSelf d di then [byte '*'] else []) ++ (if sessionGuarded m d di then [byte '!'] else [])

def loginGuarded (m : Manager) (d : Option Display) (user : Bytes) : Bool :=
  user ≠ [] && match d with
    | some d => (d.allowNuke = .SHUT_NONE || (d.allowNuke = .SHUT_ROOT && d.userSess != 0)) &&
        (m.getpwnam user).all (d.userSess ≠ ·)
    | none => !m.fifoAllowNuke

def userOf (ut : Utmp) : Bytes := if ut.userProcess then ut.ut_user.chars else []

def emitTTYSessC (m : Manager) (d : Option Display) (ut : Utmp) : Bytes :=
  [tab] ++ strCatL ut.ut_line.chars 32 ++ [comma] ++
  (if ut.ut_host.chars ≠ [] then [byte '@'] ++ strCatL ut.ut_host.chars 256
   else vtField m (TTYtoVT ut.ut_line.chars)) ++ [comma] ++
  userOf ut ++ [comma] ++ [comma] ++ [byte 't'] ++ (if loginGuarded m d (userOf ut) then [byte '!'] else [])

/-- What `listSessions` hands out. -/
inductive Session
  | x (di : Display)
  | tty (ut : Utmp)

/-- The local displays that have a session or show one of another host. -/
def listedDisplay (di : Display) : Bool := di.dLocal && (di.status = .remoteLogin || di.status = .running)

/-- The users on a terminal of this host. -/
def listedLogin (ut : Utmp) : Bool :=
  ut.userProcess && ut.alive && ut.ut_host.chars = [] &&
  (text "tty" <+: ut.ut_line.chars && ut.ut_line.chars[3]?.any fun c => 48 ≤ c ∧ c ≤ 57) &&
  byte ':' ∉ ut.ut_line.chars

/-- `listSessions` for the flags `lstPassive | lstTTY`. -/
def listSessions (m : Manager) : List Session :=
  (m.displays.filter listedDisplay).map .x ++ (m.logins.filter listedLogin).map .tty

def emit (m : Manager) (d : Option Display) : Session → Bytes
  | .x di => emitXSessC m d di
  | .tty ut => emitTTYSessC m d ut

/-- The reply to `list alllocal`, sent by the display `d` or, where there is none, globally. -/
def alllocal (m : Manager) (d : Option Display) : Bytes := text "ok" ++ (listSessions m).flatMap (emit m d) ++ [newline]

/-- `resize` for a larger size; what is in the memory it adds is not said. -/
def resize (fresh : Nat → Nat → UInt8) (buf : Bytes) (size : Nat) : Bytes :=
  buf ++ (List.range (size-buf.length)).map (fresh buf.length)

def makeRoom (fresh : Nat → Nat → UInt8) (buf : Bytes) (len : Nat) : Bytes :=
  if buf.length < 128 then resize fresh buf 128
  else if buf.length < len*2 then resize fresh buf (len*2) else buf

/-- How much a `read` gets after `len` bytes have been read: at least a byte, unless nothing will ever come. -/
def readSize (sizes : Nat → Nat) (len space left : Nat) : Nat := min (max 1 (sizes len)) (min space left)

theorem readSize_le (sizes : Nat → Nat) (len space left : Nat) : readSize sizes len space left ≤ left :=
  Nat.le_trans (Nat.min_le_right _ _) (Nat.min_le_right _ _)

def isOk (buf : Bytes) (len : Nat) : Bool :=
  2 < len && (buf[0]? = some (byte 'o') || buf[0]? = some (byte 'O')) &&
  (buf[1]? = some (byte 'k') || buf[1]? = some (byte 'K')) && buf[2]?.any (· ≤ byte ' ')

/-- The loop of `exec` after the command has been sent: what it returns, with the buffer. -/
def exec (sizes : Nat → Nat) (fresh : Nat → Nat → UInt8) (reply buf : Bytes) (len : Nat) : Bool × Bytes :=
  let room := makeRoom fresh buf len
  let tl := readSize sizes len (room.length-len) reply.length
  if tl = 0 then (false,[])
  else
    let got := room.take len ++ reply.take tl ++ room.drop (len+tl)
    if got[len+tl-1]? = some newline then (isOk (got.set (len+tl-1) 0) (len+tl),got.set (len+tl-1) 0)
    else exec sizes fresh (reply.drop tl) got (len+tl)
termination_by reply.length
decreasing_by
  have within : tl ≤ reply.length := readSize_le sizes len _ _
  have less : reply.length-tl < reply.length := by omega
  exact (List.length_drop (l := reply) (i := tl)).symm ▸ less

structure SessEnt where
  display : Bytes
  vt : CInt
  user : Bytes
  session : Bytes
  self : Bool
  tty : Bool
deriving Repr, DecidableEq

def isDigit (c : UInt8) : Bool := 48 ≤ c && c ≤ 57

def isSpace (c : UInt8) : Bool := c = 32 || (9 ≤ c && c ≤ 13)

def toNat (digits : Bytes) : Nat := digits.foldl (fun n c => n*10+(c.toNat-48)) 0

/-- `QString::toInt`, which is zero where there is no integer. -/
def toInt (str : Bytes) : CInt :=
  let trimmed := ((str.dropWhile isSpace).reverse.dropWhile isSpace).reverse
  let (neg,digits) := match trimmed with
    | c :: rest => if c = byte '-' then (true,rest) else if c = byte '+' then (false,rest) else (false,trimmed)
    | [] => (false,[])
  let n : Int := if neg then -toNat digits else toNat digits
  if digits ≠ [] ∧ digits.all isDigit ∧ -2^31 ≤ n ∧ n < 2^31 then BitVec.ofInt 32 n else 0

/-- A record; none if a field is missing, where `QStringList` is read past its end. -/
def sessEnt (record : Bytes) : Option SessEnt := do
  let ts := record.splitOn comma
  let display ← ts[0]?
  let vt ← ts[1]?
  let user ← ts[2]?
  let session ← ts[3]?
  let flags ← ts[4]?
  return ⟨display,toInt (vt.drop 2),user,session,byte '*' ∈ flags,byte 't' ∈ flags⟩

def sessions (re : Bytes) : Option (List SessEnt) := (((stringAt (re.drop 3)).splitOn tab).filter (· ≠ [])).mapM sessEnt

/-- `localSessions` of a program whose display is managed by this kdm: what it returns, with the list. -/
def localSessions (sizes : Nat → Nat) (fresh : Nat → Nat → UInt8) (reply re : Bytes) : Option (Bool × List SessEnt) :=
  match exec sizes fresh reply re 0 with
  | (true,re) => (sessions re).map (true,·)
  | (false,_) => some (false,[])

def sessionOf (m : Manager) (d : Option Display) : Session → SessEnt
  | .x di =>
    { display := displayName di,
      vt := if m.HAVE_VTS then di.serverVT else 0,
      user := if isRemote m di then [] else Name.ofOption di.userName,
      session := if isRemote m di then di.remoteHost.chars else Name.ofOption di.sessName,
      self := isSelf d di,
      tty := false }
  | .tty ut =>
    { display := ut.ut_line.chars,
      vt := if m.HAVE_VTS then TTYtoVT ut.ut_line.chars else 0,
      user := ut.ut_user.chars,
      session := [],
      self := false,
      tty := true }

/-- The names of a session are no longer than the parts of the buffer kept for them. -/
def Fits (m : Manager) : Session → Prop
  | .x di => (displayName di).length ≤ 512 ∧
      (if isRemote m di then di.remoteHost.chars.length ≤ 341
       else (Name.ofOption di.userName).length ≤ 204 ∧ (Name.ofOption di.sessName).length ≤ 204)
  | .tty _ => True

end KdeWorkspace.SessionList
