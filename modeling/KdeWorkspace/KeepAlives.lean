import KdeWorkspace.Xdmcp

/-!
The answers to KEEPALIVE packets (`send_alive`).

The display is looked up by the session ID of the packet among all displays, and
only those of XDMCP have been given one. The others keep the zero that
`newDisplay` leaves, so a packet with the ID zero can find a local display, and
is told that a session runs (`send_alive_iff`).
-/
namespace KdeWorkspace.KeepAlives
open Xdmcp (Bytes NetAddress)

inductive DisplayStatus where
  | notRunning
  | running
  | zombie
  | phoenix
  | raiser
  | textMode
  | reserve
  | remoteLogin
deriving Repr, DecidableEq
open DisplayStatus

inductive Origin where
  | dFromFile
  | dFromXDMCP
  | dFromCommand
deriving Repr, DecidableEq
open Origin

inductive Location where
  | dLocal
  | dForeign
deriving Repr, DecidableEq
open Location

/-- A display of the list. Only `manage` gives one a session ID. -/
structure Display where
  location : Location
  origin : Origin
  status : DisplayStatus
  sessionID : Nat
  displayNumber : Nat
  source : NetAddress
  noID : origin ≠ dFromXDMCP → sessionID = 0
deriving Repr, DecidableEq

/-- A KEEPALIVE: the address it comes from, the length that its header says, and its body. -/
structure KeepAlive where
  sender : NetAddress
  length : Nat
  body : Bytes
deriving Repr, DecidableEq

structure Alive where
  sendRunning : Bool
  sendSessionID : Nat
deriving Repr, DecidableEq

def readCARD16 : Bytes → Option (Nat × Bytes)
  | high :: low :: rest => some (high.toNat*256+low.toNat,rest)
  | _ => none

def readCARD32 (buffer : Bytes) : Option (Nat × Bytes) := do
  let (high,buffer) ← readCARD16 buffer
  let (low,buffer) ← readCARD16 buffer
  some (high*65536+low,buffer)

def findDisplayBySessionID (displays : List Display) (sessionID : Nat) : Option Display :=
  displays.find? fun d => d.sessionID == sessionID

def findDisplayByAddress (displays : List Display) (addr : NetAddress) (displayNumber : Nat) : Option Display :=
  displays.find? fun d => d.origin == dFromXDMCP && d.displayNumber == displayNumber && d.source == addr

/-- The answer for the display that is found. -/
def alive (found : Option Display) (sessionID : Nat) : Alive :=
  match found with
  | some d => if d.status = running then ⟨d.sessionID == sessionID,d.sessionID⟩ else ⟨false,0⟩
  | none => ⟨false,0⟩

/-- The number of the display and the session ID, where the packet has both and nothing else. -/
def KeepAlive.read (packet : KeepAlive) : Option (Nat × Nat) := do
  let (displayNumber,buffer) ← readCARD16 packet.body
  let (sessionID,_) ← readCARD32 buffer
  if packet.length = 6 then some (displayNumber,sessionID) else none

/-- A packet that cannot be read is not answered. -/
def send_alive (displays : List Display) (packet : KeepAlive) : Option Alive := do
  let (displayNumber,sessionID) ← packet.read
  let d := (findDisplayBySessionID displays sessionID).or (findDisplayByAddress displays packet.sender displayNumber)
  some (alive d sessionID)

/-- A session of XDMCP with the ID runs. -/
def SessionRuns (displays : List Display) (sessionID : Nat) : Prop :=
  ∃ d ∈ displays, d.origin = dFromXDMCP ∧ d.sessionID = sessionID ∧ d.status = running

/-- The first display without a session ID runs. -/
def StrayRuns (displays : List Display) : Prop := ∃ d, findDisplayBySessionID displays 0 = some d ∧ d.status = running

theorem alive_running {displays : List Display} {addr : NetAddress} {displayNumber sessionID : Nat} :
    (alive ((findDisplayBySessionID displays sessionID).or (findDisplayByAddress displays addr displayNumber)) sessionID).sendRunning
        = true ↔
      ∃ d, findDisplayBySessionID displays sessionID = some d ∧ d.status = running := by
  cases found : findDisplayBySessionID displays sessionID with
  | some d =>
    have same := List.find?_some found
    rw [Option.some_or,alive]
    by_cases runs : d.status = running
    · simp only [runs,if_true,same,Option.some.injEq,exists_eq_left']
    · simp only [runs,if_false,Bool.false_eq_true,Option.some.injEq,exists_eq_left']
  | none =>
    have other := List.find?_eq_none.mp found
    simp only [Option.none_or,reduceCtorEq,false_and,exists_false,iff_false]
    intro answer
    cases address : findDisplayByAddress displays addr displayNumber with
    | none =>
      rw [address] at answer
      cases answer
    | some d =>
      have differs := other d (List.mem_of_find?_eq_some address)
      rw [address,alive] at answer
      split at answer
      · exact differs answer
      · cases answer

/-- The answer that a session runs is right exactly when the packet is not answered, or asks for an ID other than
    zero, or the first display without an ID does not run, or a session of XDMCP with the ID zero does. -/
theorem send_alive_iff (displays : List Display) (packet : KeepAlive) :
    (∀ answer, send_alive displays packet = some answer → answer.sendRunning = true →
        ∃ displayNumber sessionID, packet.read = some (displayNumber,sessionID) ∧ SessionRuns displays sessionID) ↔
      ∀ displayNumber sessionID, packet.read = some (displayNumber,sessionID) →
        sessionID ≠ 0 ∨ ¬ StrayRuns displays ∨ SessionRuns displays 0 := by
  cases read : packet.read with
  | none =>
    refine iff_of_true ?_ (fun _ _ impossible => nomatch impossible)
    intro answer answered
    rw [send_alive,read] at answered
    cases answered
  | some pair =>
    obtain ⟨displayNumber,sessionID⟩ := pair
    have answered : send_alive displays packet = some (alive ((findDisplayBySessionID displays sessionID).or
        (findDisplayByAddress displays packet.sender displayNumber)) sessionID) := by
      rw [send_alive,read]
      rfl
    constructor
    · intro right number id same
      obtain ⟨rfl,rfl⟩ := Prod.mk.inj (Option.some.inj same)
      by_cases zero : sessionID = 0
      · subst zero
        by_cases stray : StrayRuns displays
        · obtain ⟨_,_,reread,runs⟩ := right _ answered (alive_running.mpr stray)
          obtain ⟨rfl,rfl⟩ := Prod.mk.inj (Option.some.inj reread)
          exact .inr (.inr runs)
        · exact .inr (.inl stray)
      · exact .inl zero
    · intro careful answer given running
      rw [answered] at given
      obtain rfl := Option.some.inj given
      obtain ⟨d,found,runs⟩ := alive_running.mp running
      have same : d.sessionID = sessionID := by simpa using List.find?_some found
      refine ⟨displayNumber,sessionID,rfl,?_⟩
      by_cases origin : d.origin = dFromXDMCP
      · exact ⟨d,List.mem_of_find?_eq_some found,origin,same,runs⟩
      -- a display of another origin has no ID, so the packet asks for zero
      · have zero : sessionID = 0 := same ▸ d.noID origin
        subst zero
        rcases careful _ _ rfl with nonzero | idle | session
        · exact absurd rfl nonzero
        · exact absurd ⟨d,found,runs⟩ idle
        · exact session

/-- The local display that runs at the console. -/
def console : Display := ⟨dLocal,dFromFile,running,0,0,⟨0,[],[]⟩,fun _ => rfl⟩

/-- A packet with the session ID zero is told that the session of the console runs. -/
theorem console_answers_zero :
    send_alive [console] ⟨⟨2,[0,177],[10,0,0,9]⟩,6,[0,0,0,0,0,0]⟩ = some ⟨true,0⟩ ∧ ¬ SessionRuns [console] 0 := by
  refine ⟨by decide,?_⟩
  rintro ⟨d,member,origin,_⟩
  rw [List.mem_singleton.mp member] at origin
  cases origin

end KdeWorkspace.KeepAlives
