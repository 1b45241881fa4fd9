import Mathlib.Algebra.GroupWithZero.Nat
import Mathlib.Data.List.Nodup

/-!
The sessions of displays that ask for one by XDMCP (`request_respond`, `manage`).

A REQUEST opens a session with an ID of its own, a MANAGE with that ID turns it into a
display. Packets come in any order, get lost and come twice. The build is one without
XDM-AUTHORIZATION-1, secure RPC and Kerberos; memory does not run out.
-/
namespace KdeWorkspace.Xdmcp

abbrev Bytes := List UInt8

def bytes (text : String) : Bytes := text.toList.map fun c => c.toNat.toUInt8

/-- What `addressEqual` compares of a socket address. -/
structure NetAddress where
  family : Nat
  port : Bytes
  address : Bytes
deriving Repr, DecidableEq

/-- A display as its packets name it. -/
structure Sender where
  address : NetAddress
  displayNumber : Nat
deriving Repr, DecidableEq

structure Xauth where
  name : Bytes
  data : Bytes
deriving Repr, DecidableEq

/-- A REQUEST, with the time at which it comes and the random bytes that are there for it. -/
structure Request where
  sender : Sender
  connectionTypes : List Nat
  connectionAddresses : List Bytes
  authenticationName : Bytes
  authenticationData : Bytes
  authorizationNames : List Bytes
  manufacturerDisplayID : Bytes
  length : Nat
  now : Nat
  authData : Option Bytes
deriving Repr, DecidableEq

structure Manage where
  sender : Sender
  sessionID : Nat
  displayClass : Bytes
  length : Nat
deriving Repr, DecidableEq

structure ProtoDisplay where
  sender : Sender
  date : Nat
  connectionType : Nat
  connectionAddress : Bytes
  sessionID : Nat
  fileAuthorization : Option Xauth
  xdmcpAuthorization : Option Xauth
deriving Repr, DecidableEq

/-- A display of the list; `busy` while a process of it is left. -/
structure Display where
  name : String
  class2 : Option Bytes
  fromXDMCP : Bool
  sender : Sender
  sessionID : Nat
  authorizations : List Xauth
  busy : Bool
  zombie : Bool
deriving Repr, DecidableEq

structure Manager where
  protoDisplays : List ProtoDisplay
  displays : List Display
  globalSessionID : Nat
deriving Repr, DecidableEq

/-- What the manager does on a packet: the answers it sends and the displays it creates. -/
inductive Reply
  | accept (receiver : Sender) (sessionID : Nat) (authenticationName authenticationData : Bytes)
      (authorizationName authorizationData : Bytes)
  | decline (receiver : Sender) (status : Bytes) (authenticationName authenticationData : Bytes)
  | refuse (receiver : Sender) (sessionID : Nat)
  | newDisplay (d : Display)
deriving Repr, DecidableEq

def noValidAddr : Bytes := bytes "No valid address"
def noValidAuth : Bytes := bytes "No valid authorization"

def protoTimeout : Nat := 30*60

/-- The protocols that authorizations can be made for. None of them has its own way of making one for XDMCP. -/
def authProtocols : List Bytes := [bytes "MIT-MAGIC-COOKIE-1"]

def findProtocol (name : Bytes) : Option Bytes := authProtocols.find? (· == name)

def validAuthorization (name : Bytes) : Bool := (findProtocol name).isSome

/-- The authorization that goes with each authentication. -/
def auth : List (Bytes × Bytes) := [([],[])]

def selectAuthorizationTypeIndex (authenticationName : Bytes) (authorizationNames : List Bytes) : Option Nat :=
  match auth.find? (·.1 == authenticationName) with
  | some pair =>
    match authorizationNames.findIdx? (· == pair.2) with
    | some i => some i
    | none => authorizationNames.findIdx? validAuthorization
  | none => authorizationNames.findIdx? validAuthorization

def familyInternet : Nat := 0
def familyInternet6 : Nat := 6
def familyLocal : Nat := 256

def selectConnectionTypeIndex (connectionTypes : List Nat) : Option Nat :=
  connectionTypes.findIdx? fun type => type == familyLocal || type == familyInternet || type == familyInternet6

namespace Request

def expectlen (r : Request) : Nat :=
  2+(1+2*r.connectionTypes.length)+1+(r.connectionAddresses.map (2+·.length)).sum
    +(2+r.authenticationName.length)+(2+r.authenticationData.length)
    +1+(r.authorizationNames.map (2+·.length)).sum+(2+r.manufacturerDisplayID.length)

/-- One address for each connection type, and at least one. -/
def hasAddresses (r : Request) : Bool :=
  r.connectionTypes.length != 0 && r.connectionAddresses.length == r.connectionTypes.length

/-- The position of the authorization to be used; it may lie behind the list when that is empty. -/
def authorizationIndex (r : Request) : Option Nat :=
  if r.authorizationNames.length = 0 then some 0
  else selectAuthorizationTypeIndex r.authenticationName r.authorizationNames

end Request

namespace ProtoDisplay

/-- `setProtoDisplayAuthorization` makes a new authorization each time. -/
def setAuthorization (p : ProtoDisplay) (name : Bytes) (authData : Option Bytes) : ProtoDisplay :=
  match findProtocol name with
  | some _ => { p with xdmcpAuthorization := none, fileAuthorization := authData.map (⟨name,·⟩) }
  | none => { p with xdmcpAuthorization := none, fileAuthorization := none }

/-- The session with the authorization that a request asks for. -/
def authorize (p : ProtoDisplay) (r : Request) (j : Nat) : ProtoDisplay :=
  match r.authorizationNames[j]? with
  | some name => p.setAuthorization name r.authData
  | none => p

/-- The authorization that goes into the answer; none for a request that names none. -/
def answered (p : ProtoDisplay) (r : Request) (j : Nat) : Option Xauth :=
  if j < r.authorizationNames.length then p.xdmcpAuthorization <|> p.fileAuthorization else none

end ProtoDisplay

namespace Manager

def findProtoDisplay (s : Manager) (sender : Sender) : Option ProtoDisplay := s.protoDisplays.find? (·.sender == sender)

/-- The session goes; it is the one `findProtoDisplay` gives. -/
def disposeProtoDisplay (s : Manager) (sender : Sender) : Manager :=
  { s with protoDisplays := s.protoDisplays.eraseP (·.sender == sender) }

/-- The session that `findProtoDisplay` gives is changed in its place. -/
def setProtoDisplay (s : Manager) (p : ProtoDisplay) : Manager :=
  { s with protoDisplays := s.protoDisplays.replaceF fun q => if q.sender == p.sender then some p else none }

def timeoutProtoDisplays (s : Manager) (now : Nat) : Manager :=
  { s with protoDisplays := s.protoDisplays.filter fun p => !(p.date < now-protoTimeout : Bool) }

/-- The counter is wider than the 32 bits of an ID. -/
def nextSessionID (s : Manager) : Nat := (s.globalSessionID+1)%2^32

def newProtoDisplay (s : Manager) (r : Request) (i : Nat) : ProtoDisplay where
  sender := r.sender
  date := r.now
  connectionType := r.connectionTypes.getD i 0
  connectionAddress := r.connectionAddresses.getD i []
  sessionID := s.nextSessionID
  fileAuthorization := none
  xdmcpAuthorization := none

def addProtoDisplay (s : Manager) (r : Request) (i : Nat) : Manager :=
  let kept := s.timeoutProtoDisplays r.now
  { kept with
    protoDisplays := s.newProtoDisplay r i :: kept.protoDisplays
    globalSessionID := s.globalSessionID+1 }

/-- A request whose session is there. -/
def answerRequest (s : Manager) (pdpy : ProtoDisplay) (r : Request) : Manager × List Reply :=
  match r.authorizationIndex with
  | none =>
    (s.disposeProtoDisplay r.sender, [.decline r.sender noValidAuth r.authenticationName r.authenticationData])
  | some j =>
    let pdpy := pdpy.authorize r j
    let auth := pdpy.answered r j
    (s.setProtoDisplay pdpy,
      [.accept r.sender pdpy.sessionID r.authenticationName r.authenticationData
        (auth.elim [] (·.name)) (auth.elim [] (·.data))])

def request_respond (s : Manager) (r : Request) : Manager × List Reply :=
  if r.expectlen ≠ r.length then (s,[])
  else if !r.hasAddresses then
    (s,[.decline r.sender noValidAddr r.authenticationName r.authenticationData])
  else
    match s.findProtoDisplay r.sender with
    | some pdpy => s.answerRequest pdpy r
    | none =>
      match selectConnectionTypeIndex r.connectionTypes with
      | none => (s,[.decline r.sender noValidAddr r.authenticationName r.authenticationData])
      | some i => (s.addProtoDisplay r i).answerRequest (s.newProtoDisplay r i) r

/-- The latest display of the list that this sender started. -/
def findDisplayByAddress (s : Manager) (sender : Sender) : Option Display :=
  s.displays.find? fun d => d.fromXDMCP && d.sender == sender

/-- `stopDisplay` for the first display of a name. It stays in the list as long as a process of it is left. -/
def stopNamed (name : String) : List Display → List Display
  | [] => []
  | d :: rest =>
    if d.name = name then
      if d.busy then { d with zombie := true } :: rest else rest
    else d :: stopNamed name rest

def started (name : String) (pdpy : ProtoDisplay) (m : Manage) : Display where
  name := name
  class2 := if m.displayClass.length = 0 then none else some m.displayClass
  fromXDMCP := true
  sender := m.sender
  sessionID := pdpy.sessionID
  authorizations := pdpy.fileAuthorization.toList
  busy := false
  zombie := false

def Manage.expectlen (m : Manage) : Nat := 4+2+(2+m.displayClass.length)

section
variable (networkAddressToName : Nat → Bytes → Sender → String)

/-- The name of the display whose session this is. -/
def nameOf (pdpy : ProtoDisplay) : String := networkAddressToName pdpy.connectionType pdpy.connectionAddress pdpy.sender

def manage (s : Manager) (m : Manage) : Manager × List Reply :=
  if Manage.expectlen m ≠ m.length then (s,[])
  else
    match s.findProtoDisplay m.sender with
    | none =>
      match s.findDisplayByAddress m.sender with
      | some d => if d.sessionID = m.sessionID then (s,[]) else (s,[.refuse m.sender m.sessionID])
      | none => (s,[.refuse m.sender m.sessionID])
    | some pdpy =>
      if pdpy.sessionID ≠ m.sessionID then (s,[.refuse m.sender m.sessionID])
      else
        let name := nameOf networkAddressToName pdpy
        let d := started name pdpy m
        ({ s with displays := d :: stopNamed name s.displays }.disposeProtoDisplay m.sender,[.newDisplay d])

/-- What happens to a manager. Besides the packets, the rest of the program adds displays of other origin,
    starts a process for a display or ends one, and removes displays. -/
inductive Event
  | request (r : Request)
  | manage (m : Manage)
  | added (d : Display) (elsewhere : d.fromXDMCP = false)
  | processes (i : Nat) (busy : Bool)
  | removed (i : Nat)

def step (s : Manager) : Event → Manager × List Reply
  | .request r => s.request_respond r
  | .manage m => s.manage networkAddressToName m
  | .added d _ => ({ s with displays := d :: s.displays },[])
  | .processes i busy => ({ s with displays := s.displays.modify i fun d => { d with busy := busy } },[])
  | .removed i => ({ s with displays := s.displays.eraseIdx i },[])

def run (s : Manager) : List Event → Manager × List Reply
  | [] => (s,[])
  | event :: rest =>
    let next := s.step networkAddressToName event
    let later := run next.1 rest
    (later.1,next.2 ++ later.2)

end

theorem findProtoDisplay_split {s : Manager} {sender : Sender} {p : ProtoDisplay}
    (found : s.findProtoDisplay sender = some p) :
    ∃ front rest, s.protoDisplays = front ++ p :: rest ∧ p.sender = sender ∧ (∀ q ∈ front, q.sender ≠ sender) ∧
      (s.disposeProtoDisplay sender).protoDisplays = front ++ rest ∧
      ∀ q : ProtoDisplay, q.sender = sender → (s.setProtoDisplay q).protoDisplays = front ++ q :: rest := by
  obtain ⟨same,front,rest,split,before⟩ := List.find?_eq_some_iff_append.mp found
  have ours : p.sender = sender := by simpa using same
  refine ⟨front,rest,split,ours,fun q inside => by simpa using before q inside,?_,?_⟩
  · unfold disposeProtoDisplay
    dsimp only
    rw [split,List.eraseP_append_right _ (by simpa using before)]
    simp [ours]
  · intro q theirs
    unfold setProtoDisplay
    dsimp only
    rw [split,theirs]
    clear split found
    induction front with
    | nil => simp [List.replaceF,ours]
    | cons first front ih =>
      have other : (first.sender == sender) = false := by simpa using before first (by simp)
      simp only [List.cons_append,List.replaceF,other]
      rw [ih fun a inside => before a (by simp [inside])]
      rfl

theorem authorize_sender (p : ProtoDisplay) (r : Request) (j : Nat) :
    (p.authorize r j).sender = p.sender ∧ (p.authorize r j).sessionID = p.sessionID := by
  unfold ProtoDisplay.authorize ProtoDisplay.setAuthorization
  split
  · split
    · exact ⟨rfl,rfl⟩
    · exact ⟨rfl,rfl⟩
  · exact ⟨rfl,rfl⟩

end Manager

def terminal : Sender := ⟨⟨2,[0,177],[10,0,0,2]⟩,0⟩

/-- Its REQUEST for a cookie, when these random bytes are there. -/
def cookieRequest (authData : Bytes) : Request where
  sender := terminal
  connectionTypes := [familyInternet]
  connectionAddresses := [[10,0,0,2]]
  authenticationName := []
  authenticationData := []
  authorizationNames := [bytes "MIT-MAGIC-COOKIE-1"]
  manufacturerDisplayID := []
  length := 39
  now := 5000
  authData := some authData

def manageFirst : Manage := ⟨terminal,1,[],8⟩

def newManager : Manager := ⟨[],[],0⟩

def firstNames : Nat → Bytes → Sender → String := fun _ _ _ => "10.0.0.2:0"

end KdeWorkspace.Xdmcp
