import KdeWorkspace.Lists
import KdeWorkspace.Search

/-!
Clients, window groups and the workspace that holds them (`Client`, `Group`,
`Workspace`), with what the transiency code asks of a client.

A client is transient for its main window (`transientFor`), for its group
(`groupTransient`) or not at all. `hasTransient` follows both kinds; for a group
transient it is a search along the lists of transients (`hasTransient_iff`).
-/
namespace KdeWorkspace.Clients
open Relation Relations Lists Search

/-- The address of a client object. -/
abbrev ClientRef := Nat

/-- The address of a group object. -/
abbrev GroupRef := Nat

/-- The number the X server gives a window. -/
abbrev WindowId := Nat

/-- `XCB_WINDOW_NONE`. -/
def windowNone : WindowId := 0

/-- The types of managed windows, `NET::WindowType`. -/
inductive WindowType
  | Unknown
  | Normal
  | Desktop
  | Dock
  | Toolbar
  | Menu
  | Dialog
  | TopMenu
  | Utility
  | Splash
deriving Repr, DecidableEq

/-- What the transiency code reads of a client. `declaredType` is the type of the
    window after the rules for it; a client with a main window holds its id. -/
structure Client where
  window : WindowId
  declaredType : WindowType
  modal : Bool
  wmClientLeaderWin : WindowId
  windowGroup : WindowId
  originalTransientForId : WindowId
  transientForId : WindowId
  transientFor : Option ClientRef
  holdsId : transientFor ≠ none → transientForId ≠ windowNone
  transientsList : List ClientRef
  inGroup : Option GroupRef

structure Group where
  leaderWid : WindowId
  members : List ClientRef
  refcount : Int

/-- The workspace and the objects of its clients and groups: `objects` are the clients that exist, managed or not yet,
    and `nextGroup` is the address of the next group. -/
structure Workspace where
  rootWindow : WindowId
  rootExists : rootWindow ≠ windowNone
  objects : List ClientRef
  client : ClientRef → Client
  clients : List ClientRef
  desktops : List ClientRef
  groups : List GroupRef
  group : GroupRef → Group
  nextGroup : GroupRef

theorem one_exists : (1 : WindowId) ≠ windowNone := by decide

theorem none_holdsId {id : WindowId} : (none : Option ClientRef) ≠ none → id ≠ windowNone := by simp

namespace Workspace
variable (ws : Workspace)

/-- All managed clients, in the order in which a client is searched. -/
def managed : List ClientRef := ws.clients ++ ws.desktops

def findClient (w : WindowId) : Option ClientRef := ws.managed.find? fun c => (ws.client c).window = w

/-- `Toplevel::wmClientLeader`: the window itself stands in for a leader that is not set. -/
def wmClientLeader (c : ClientRef) : WindowId :=
  if (ws.client c).wmClientLeaderWin ≠ windowNone then (ws.client c).wmClientLeaderWin else (ws.client c).window

def isTransient (c : ClientRef) : Bool := (ws.client c).transientForId ≠ windowNone

def groupTransient (c : ClientRef) : Bool := (ws.client c).transientForId = ws.rootWindow

def windowType (c : ClientRef) : WindowType :=
  if (ws.client c).declaredType = .Unknown then
    if ws.isTransient c then .Dialog else .Normal
  else (ws.client c).declaredType

def isSplash (c : ClientRef) : Bool := ws.windowType c = .Splash

def isDialog (c : ClientRef) : Bool := ws.windowType c = .Dialog

def isDock (c : ClientRef) : Bool := ws.windowType c = .Dock

def isDesktop (c : ClientRef) : Bool := ws.windowType c = .Desktop

def groupMembers (c : ClientRef) : List ClientRef :=
  match (ws.client c).inGroup with
  | some g => (ws.group g).members
  | none => []

/-- The workspace with other lists of transients. -/
def withTransients (lists : ClientRef → List ClientRef) : Workspace :=
  { ws with client := fun c => { ws.client c with transientsList := lists c } }

/-- `transients_list.removeAll` for the list of one client. -/
def eraseTransient (c cl : ClientRef) : Workspace :=
  ws.withTransients fun it =>
    if it = c then removeAll (ws.client it).transientsList cl else (ws.client it).transientsList

/-- The main window of a client, the main window of that, and so on. -/
def mainChain (c : ClientRef) : List ClientRef := follow (fun it => (ws.client it).transientFor) ws.objects.length c

/-- `Client::hasTransientInternal`, with the set it is passed and hands back.
    Every call that goes on puts another client into the set. -/
def hasTransientInternal (indirect : Bool) : Nat → ClientRef → ClientRef → List ClientRef → Bool × List ClientRef
  | 0, _, _, set => (false,set)
  | fuel+1, this, cl, set =>
    match (ws.client cl).transientFor with
    | some main =>
      if main = this then (true,set)
      else if !indirect then (false,set)
      else if cl ∈ set then (false,set)
      else hasTransientInternal indirect fuel this main (set ++ [cl])
    | none =>
      if !ws.isTransient cl then (false,set)
      else if (ws.client this).inGroup ≠ (ws.client cl).inGroup then (false,set)
      -- cl is group transient, search from top
      else if cl ∈ (ws.client this).transientsList then (true,set)
      else if !indirect then (false,set)
      else if this ∈ set then (false,set)
      else anyCall (fun it set => hasTransientInternal indirect fuel it cl set)
        (ws.client this).transientsList (set ++ [this])

def hasTransient (this cl : ClientRef) (indirect : Bool) : Bool :=
  (ws.hasTransientInternal indirect (ws.objects.length+1) this cl []).1

def mainClients (c : ClientRef) : List ClientRef :=
  if !ws.isTransient c then []
  else match (ws.client c).transientFor with
    | some main => [main]
    | none => (ws.groupMembers c).filter fun it => ws.hasTransient it c false

end Workspace

variable {ws : Workspace}

theorem isTransient_of_transientFor {t m : ClientRef} (main : (ws.client t).transientFor = some m) :
    ws.isTransient t = true :=
  decide_eq_true ((ws.client t).holdsId (by simp [main]))

theorem isTransient_of_groupTransient {c : ClientRef} (groupTransient : ws.groupTransient c = true) :
    ws.isTransient c = true := by
  have id : (ws.client c).transientForId = ws.rootWindow := of_decide_eq_true groupTransient
  exact decide_eq_true (by rw [id]; exact ws.rootExists)

/-- Without `indirect` a group transient is looked up in one list. -/
theorem hasTransient_direct {this cl : ClientRef} (no_main : (ws.client cl).transientFor = none) :
    ws.hasTransient this cl false = true ↔
      ws.isTransient cl = true ∧ (ws.client this).inGroup = (ws.client cl).inGroup ∧
        cl ∈ (ws.client this).transientsList := by
  unfold Workspace.hasTransient Workspace.hasTransientInternal
  rw [no_main]
  by_cases isTransient : ws.isTransient cl <;> by_cases same : (ws.client this).inGroup = (ws.client cl).inGroup <;>
    by_cases member : cl ∈ (ws.client this).transientsList <;> simp [isTransient,same,member]

/-- One client is transient for another one as for its main window. -/
def TransientFor (ws : Workspace) (t m : ClientRef) : Prop := (ws.client t).transientFor = some m

/-- The pointers of clients lead to clients that exist. -/
structure Closed (ws : Workspace) : Prop where
  transients : ∀ c ∈ ws.objects, ∀ t ∈ (ws.client c).transientsList, t ∈ ws.objects
  transientFor : ∀ c m, TransientFor ws c m → m ∈ ws.objects

theorem mem_mainChain (closed : Closed ws) (acyclic : Acyclic (TransientFor ws)) {c m : ClientRef} :
    m ∈ ws.mainChain c ↔ TransGen (TransientFor ws) c m := by
  refine mem_follow_iff acyclic (fun m path => ?_) le_rfl
  obtain ⟨_,_,last⟩ := TransGen.tail'_iff.mp path
  exact closed.transientFor _ _ last

/-- The step of a search for a group transient: from a client of its group to a transient of that client. -/
def LeadsTo (ws : Workspace) (cl : ClientRef) (a b : ClientRef) : Prop :=
  (ws.client a).inGroup = (ws.client cl).inGroup ∧ b ∈ (ws.client a).transientsList

private theorem hasTransientInternal_eq_search {cl : ClientRef} (no_main : (ws.client cl).transientFor = none)
    (isTransient : ws.isTransient cl = true) (fuel : Nat) (this : ClientRef) (set : List ClientRef) :
    ws.hasTransientInternal true fuel this cl set =
      search (fun a => (ws.client a).inGroup = (ws.client cl).inGroup)
        (fun a => cl ∈ (ws.client a).transientsList) (fun a => (ws.client a).transientsList) fuel this set := by
  induction fuel generalizing this set with
  | zero => rfl
  | succ fuel ih =>
    unfold Workspace.hasTransientInternal search
    rw [no_main]
    by_cases same : (ws.client this).inGroup = (ws.client cl).inGroup
    · simp only [isTransient,same,ih]
      simp
    · simp [isTransient,same]

/-- `hasTransient` finds a group transient exactly when a path along the lists of
    transients leads to it inside its group. -/
theorem hasTransient_iff (closed : Closed ws)
    {this cl : ClientRef} (object : this ∈ ws.objects) (no_main : (ws.client cl).transientFor = none)
    (isTransient : ws.isTransient cl = true) :
    ws.hasTransient this cl true = true ↔
      ∃ a, ReflTransGen (LeadsTo ws cl) this a ∧ (ws.client a).inGroup = (ws.client cl).inGroup ∧
        cl ∈ (ws.client a).transientsList := by
  unfold Workspace.hasTransient
  rw [hasTransientInternal_eq_search no_main isTransient,search_iff closed.transients object (by omega)]
  have same : Leads (fun a => decide ((ws.client a).inGroup = (ws.client cl).inGroup))
      (fun a => (ws.client a).transientsList) = LeadsTo ws cl := by
    funext a b
    simp [Leads,LeadsTo]
  simp only [same,decide_eq_true_eq]

end KdeWorkspace.Clients
