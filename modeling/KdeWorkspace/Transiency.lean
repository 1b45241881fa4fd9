import KdeWorkspace.GroupTransients
import KdeWorkspace.Loops

/-!
The operations on windows and window groups: a window is mapped, its properties
change, groups of one client leader are merged, and the window goes away.

`checkGroup` with a group to set does not look for another group, so the merging
of groups in `findClientLeaderGroup` comes between its two cases. What loops over
windows of the X server or over transient-for ids is a relation to its result
(`VerifyTransientFor`).
-/
namespace KdeWorkspace.Transiency
open Relations Lists Loops Clients GroupTransients

def removeGroup (ws : Workspace) (g : GroupRef) : Workspace := { ws with groups := removeAll ws.groups g }

def setGroup (ws : Workspace) (g : GroupRef) (group : Group) : Workspace :=
  { ws with group := fun h => if h = g then group else ws.group h }

/-- `new Group(leader)`. -/
def newGroup (ws : Workspace) (leader : WindowId) : Workspace × GroupRef :=
  ({ ws with
      groups := ws.groups ++ [ws.nextGroup]
      group := fun h => if h = ws.nextGroup then ⟨leader,[],0⟩ else ws.group h
      nextGroup := ws.nextGroup+1 },
    ws.nextGroup)

def addMember (ws : Workspace) (g : GroupRef) (c : ClientRef) : Workspace :=
  setGroup ws g { ws.group g with members := (ws.group g).members ++ [c] }

def removeMember (ws : Workspace) (g : GroupRef) (c : ClientRef) : Workspace :=
  let members := removeAll (ws.group g).members c
  let removed := setGroup ws g { ws.group g with members := members }
  if (ws.group g).refcount = 0 ∧ members = [] then removeGroup removed g else removed

/-- `Group::ref` for a group that is there. -/
def ref (ws : Workspace) : Option GroupRef → Workspace
  | some g => setGroup ws g { ws.group g with refcount := (ws.group g).refcount+1 }
  | none => ws

/-- `Group::deref` for a group that is there. -/
def deref (ws : Workspace) : Option GroupRef → Workspace
  | some g =>
    let derefed := setGroup ws g { ws.group g with refcount := (ws.group g).refcount-1 }
    if (ws.group g).refcount-1 = 0 ∧ (ws.group g).members = [] then removeGroup derefed g else derefed
  | none => ws

def lostLeader (ws : Workspace) (g : GroupRef) : Workspace := if (ws.group g).members = [] then removeGroup ws g else ws

def findGroup (ws : Workspace) (leader : WindowId) : Option GroupRef :=
  ws.groups.find? fun g => (ws.group g).leaderWid = leader

def setInGroup (ws : Workspace) (c : ClientRef) (g : Option GroupRef) : Workspace :=
  { ws with client := fun it => { ws.client it with inGroup := if it = c then g else (ws.client it).inGroup } }

/-- The transient-for id of a client is set, and its main window with it. -/
def pointTo (ws : Workspace) (c : ClientRef) (w : WindowId) : Workspace :=
  { ws with client := fun it => { ws.client it with
      transientForId := if it = c then w else (ws.client it).transientForId
      transientFor :=
        if it = c then if w ≠ windowNone ∧ w ≠ ws.rootWindow then ws.findClient w else none
        else (ws.client it).transientFor
      holdsId := by
        intro main
        split at main
        · rw [if_pos (by assumption)]
          intro none
          simp [none] at main
        · rw [if_neg (by assumption)]
          exact (ws.client it).holdsId main } }

def addTransient (ws : Workspace) (c cl : ClientRef) : Workspace :=
  ws.withTransients fun it =>
    if it = c then (ws.client it).transientsList ++ [cl] else (ws.client it).transientsList

/-- `Client::removeTransient`. A client that loses its main window this way has the
    id `windowNone` at once, so that its `setTransient` finds nothing to change. -/
def removeTransient (ws : Workspace) (c cl : ClientRef) : Workspace :=
  let removed := ws.eraseTransient c cl
  if (ws.client cl).transientFor = some c then pointTo removed cl windowNone else removed

def removeFromMainClients (ws : Workspace) (this : ClientRef) : Workspace :=
  let ws := match (ws.client this).transientFor with
    | some main => removeTransient ws main this
    | none => ws
  if ws.groupTransient this then (ws.groupMembers this).foldl (fun ws it => removeTransient ws it this) ws else ws

/-- The client goes from its group to another one. -/
def joinGroup (ws : Workspace) (this : ClientRef) (new_group : GroupRef) : Workspace :=
  if (ws.client this).inGroup = some new_group then ws
  else
    let ws := match (ws.client this).inGroup with
      | some g => removeMember ws g this
      | none => ws
    addMember (setInGroup ws this (some new_group)) new_group this

def joinOrCreate (ws : Workspace) (this : ClientRef) (new_group : Option GroupRef) (leader : WindowId) : Workspace :=
  match new_group with
  | some g => joinGroup ws this g
  | none => joinGroup (newGroup ws leader).1 this (newGroup ws leader).2

/-- Group transients of other groups are no longer transient for the client. -/
def dropOtherGroups (ws : Workspace) (this : ClientRef) : Workspace :=
  ws.withTransients fun it =>
    if it = this then
      (ws.client it).transientsList.filter fun t =>
        !(ws.groupTransient t && decide ((ws.client t).inGroup ≠ (ws.client this).inGroup))
    else (ws.client it).transientsList

/-- A group transient leaves the lists of its old group, and goes into those of the
    windows that were in its new group before it. -/
def moveGroupTransient (ws : Workspace) (this : ClientRef) (old_group : Option GroupRef) : Workspace :=
  let ws := match old_group with
    | some g => (ws.group g).members.foldl (fun ws it => removeTransient ws it this) ws
    | none => ws
  ((ws.groupMembers this).takeWhile fun it => it ≠ this).foldl (fun ws it => addTransient ws it this) ws

/-- Splashscreens are transient even for windows that are mapped later. -/
def addSplashes (ws : Workspace) (this : ClientRef) : Workspace :=
  (ws.groupMembers this).foldl (fun ws it =>
    if !ws.isSplash it then ws
    else if !ws.groupTransient it then ws
    else if it = this || ws.hasTransient this it true then ws
    else addTransient ws this it) ws

/-- The part of `Client::checkGroup` after the choice of the group. -/
def updateTransients (ws : Workspace) (this : ClientRef) (old_group : Option GroupRef) (force : Bool) : Workspace :=
  let ws :=
    if (ws.client this).inGroup ≠ old_group ∨ force = true then
      let ws := dropOtherGroups ws this
      let ws := if ws.groupTransient this then moveGroupTransient ws this old_group else ws
      addSplashes ws this
    else ws
  checkGroupTransients (deref ws old_group) this

/-- `Client::checkGroup` with a group to set. -/
def checkGroupSet (ws : Workspace) (this : ClientRef) (set_group : GroupRef) (force : Bool) : Workspace :=
  let old_group := (ws.client this).inGroup
  updateTransients (joinGroup (ref ws old_group) this set_group) this old_group force

def changeClientLeaderGroup (ws : Workspace) (this : ClientRef) (gr : GroupRef) : Workspace :=
  if (ws.client this).transientFor ≠ none then ws
  else if (ws.client this).windowGroup ≠ windowNone then ws
  else checkGroupSet ws this gr false

/-- One round of the search of `findClientLeaderGroup`. -/
def searchLeaderGroup (c : ClientRef) (s : Workspace × Option GroupRef) (it : ClientRef) :
    Workspace × Option GroupRef :=
  if it = c then s
  else if s.1.wmClientLeader it = s.1.wmClientLeader c then
    match s.2 with
    | none => (s.1,(s.1.client it).inGroup)
    | some ret =>
      if (s.1.client it).inGroup = some ret then s
      else
        -- two groups with the same client leader are merged
        ((s.1.groupMembers it).foldl (fun ws tmp => if tmp ≠ c then changeClientLeaderGroup ws tmp ret else ws) s.1,
          some ret)
  else s

def findClientLeaderGroup (ws : Workspace) (c : ClientRef) : Workspace × Option GroupRef :=
  ws.clients.foldl (searchLeaderGroup c) (ws,none)

/-- The group of a window that has a window group set, if there is one: that of the
    main window where that is another one. -/
def findWindowGroup (ws : Workspace) (this : ClientRef) : Option GroupRef :=
  let new_group := findGroup ws (ws.client this).windowGroup
  match (ws.client this).transientFor with
  | some main => if (ws.client main).inGroup ≠ new_group then (ws.client main).inGroup else new_group
  | none => new_group

/-- The client leaves its group when that is not its new one. -/
def leaveOther (ws : Workspace) (this : ClientRef) (new_group : Option GroupRef) : Workspace :=
  match (ws.client this).inGroup with
  | some g => if new_group ≠ some g then setInGroup (removeMember ws g this) this none else ws
  | none => ws

/-- The client, which may be in no group, enters one. -/
def enterGroup (ws : Workspace) (this : ClientRef) (new_group : GroupRef) : Workspace :=
  if (ws.client this).inGroup ≠ some new_group then addMember (setInGroup ws this (some new_group)) new_group this
  else ws

/-- The group of a window without a window group that is not transient. -/
def chooseLeaderGroup (ws : Workspace) (this : ClientRef) : Workspace :=
  let found := findClientLeaderGroup ws this
  let ws := leaveOther found.1 this found.2
  match found.2 with
  | some g => enterGroup ws this g
  | none => enterGroup (newGroup ws windowNone).1 this (newGroup ws windowNone).2

/-- The part of `Client::checkGroup` that chooses the group. -/
def chooseGroup (ws : Workspace) (this : ClientRef) : Workspace :=
  if (ws.client this).windowGroup ≠ windowNone then
    joinOrCreate ws this (findWindowGroup ws this) (ws.client this).windowGroup
  else
    match (ws.client this).transientFor with
    | some main =>
      match (ws.client main).inGroup with
      | some g => joinGroup ws this g
      | none => ws -- a main window has a group
    | none =>
      if ws.groupTransient this then
        let found := findClientLeaderGroup ws this
        joinOrCreate found.1 this found.2 windowNone
      else chooseLeaderGroup ws this

def checkGroup (ws : Workspace) (this : ClientRef) (set_group : Option GroupRef) (force : Bool) : Workspace :=
  match set_group with
  | some g => checkGroupSet ws this g force
  | none =>
    let old_group := (ws.client this).inGroup
    updateTransients (chooseGroup (ref ws old_group) this) this old_group force

def setTransient (ws : Workspace) (this : ClientRef) (new_transient_for_id : WindowId) : Workspace :=
  if new_transient_for_id ≠ (ws.client this).transientForId then
    let ws := pointTo (removeFromMainClients ws this) this new_transient_for_id
    let ws := match (ws.client this).transientFor with
      | some main => addTransient ws main this
      | none => ws
    checkGroup ws this none true
  else ws

/-- One round of the search for the managed client that embeds a window; `parent` is
    the window tree of the X server. -/
def searchEmbedder (ws : Workspace) (parent : WindowId → Option WindowId) (w : WindowId) : Round WindowId WindowId :=
  if w ≠ windowNone ∧ w ≠ ws.rootWindow ∧ ws.findClient w = none then
    match parent w with
    | some p => .next p
    | none => .done w
  else .done w

structure LoopDetection where
  count : Int
  loop_pos : WindowId
  new_transient_for : WindowId

/-- One round of the loop detection, which goes on after it has found a loop. -/
def detectLoop (ws : Workspace) (this : ClientRef) (s : LoopDetection) : Round LoopDetection WindowId :=
  if s.loop_pos ≠ windowNone ∧ s.loop_pos ≠ ws.rootWindow then
    match ws.findClient s.loop_pos with
    | none => .done s.new_transient_for
    | some pos =>
      .next {
        count := s.count-1
        loop_pos := (ws.client pos).transientForId
        new_transient_for := if s.count-1 = 0 ∨ pos = this then ws.rootWindow else s.new_transient_for }
  else .done s.new_transient_for

/-- The two values that `Client::verifyTransientFor` works on. -/
structure Request where
  new_transient_for : WindowId
  new_property_value : WindowId

/-- The start of `Client::verifyTransientFor`: nothing when it returns at once. -/
def request (ws : Workspace) (this : ClientRef) (new_transient_for : WindowId) (set : Bool) : Option Request :=
  let splashed := if ws.isSplash this ∧ new_transient_for = windowNone then ws.rootWindow else new_transient_for
  if splashed = windowNone ∧ set = false then none
  else
    -- sometimes WM_TRANSIENT_FOR is set to None, instead of root window
    let r : Request := if splashed = windowNone then ⟨ws.rootWindow,ws.rootWindow⟩ else ⟨splashed,new_transient_for⟩
    some (if r.new_transient_for = (ws.client this).window then ⟨ws.rootWindow,ws.rootWindow⟩ else r)

/-- The request for the managed client that embeds the window, if there is one. -/
def Request.adjust (ws : Workspace) (r : Request) (found : WindowId) : Request :=
  if ws.findClient found ≠ none then
    ⟨found,if found ≠ r.new_transient_for then found else r.new_property_value⟩
  else r

/-- The result of `Client::verifyTransientFor`, and the property it writes if it writes one. -/
structure Verified where
  transientFor : WindowId
  property : Option WindowId

/-- The end of `Client::verifyTransientFor`. -/
def answer (ws : Workspace) (this : ClientRef) (new_property_value new_transient_for : WindowId) : Verified where
  transientFor :=
    if new_transient_for ≠ ws.rootWindow ∧ ws.findClient new_transient_for = none then ws.rootWindow
    else new_transient_for
  property := if new_property_value ≠ (ws.client this).originalTransientForId then some new_property_value else none

/-- `Client::verifyTransientFor` ends with the result. -/
def VerifyTransientFor (ws : Workspace) (parent : WindowId → Option WindowId) (this : ClientRef)
    (new_transient_for : WindowId) (set : Bool) (result : Verified) : Prop :=
  match request ws this new_transient_for set with
  | none => result = ⟨windowNone,none⟩
  | some r =>
    ∃ found, Ends (searchEmbedder ws parent) r.new_transient_for found ∧
      ∃ checked, Ends (detectLoop ws this)
        ⟨20,(r.adjust ws found).new_transient_for,(r.adjust ws found).new_transient_for⟩ checked ∧
        result = answer ws this (r.adjust ws found).new_property_value checked

def setOriginalTransientForId (ws : Workspace) (c : ClientRef) (w : WindowId) : Workspace :=
  { ws with client := fun it => { ws.client it with
      originalTransientForId := if it = c then w else (ws.client it).originalTransientForId } }

/-- `Client::readTransient` with the value of the property, if the window has it. -/
def ReadTransient (ws : Workspace) (parent : WindowId → Option WindowId) (this : ClientRef) (value : Option WindowId)
    (after : Workspace) : Prop :=
  let new_transient_for_id := value.getD windowNone
  let ws := setOriginalTransientForId ws this new_transient_for_id
  ∃ result, VerifyTransientFor ws parent this new_transient_for_id value.isSome result ∧
    after = setTransient ws this result.transientFor

def CheckTransient (ws : Workspace) (parent : WindowId → Option WindowId) (this : ClientRef) (w : WindowId)
    (after : Workspace) : Prop :=
  if (ws.client this).originalTransientForId ≠ w then after = ws
  else ∃ result, VerifyTransientFor ws parent this w true result ∧ after = setTransient ws this result.transientFor

/-- `Workspace::checkTransients`. -/
def CheckTransients (ws : Workspace) (parent : WindowId → Option WindowId) (w : WindowId) (after : Workspace) : Prop :=
  Run (fun before it after => CheckTransient before parent it w after) ws ws.clients after

/-- The first loop of `Client::cleanGrouping`, which starts again after every removal. -/
def removeTransients (this : ClientRef) : Nat → Workspace → Workspace
  | 0, ws => ws
  | fuel+1, ws =>
    match (ws.client this).transientsList.find? fun it => (ws.client it).transientFor = some this with
    | some it => removeTransients this fuel (removeTransient ws this it)
    | none => ws

def cleanGrouping (ws : Workspace) (this : ClientRef) : Workspace :=
  let ws := removeFromMainClients ws this
  let ws := removeTransients this (ws.client this).transientsList.length ws
  let group_members := ws.groupMembers this
  let ws := match (ws.client this).inGroup with
    | some g => removeMember ws g this
    | none => ws
  let ws := setInGroup ws this none
  group_members.foldl (fun ws it => removeTransient ws it this) ws

/-- What `Client::manage` reads of a new window before it needs the group. -/
structure NewWindow where
  window : WindowId
  declaredType : WindowType
  modal : Bool
  wmClientLeaderWin : WindowId

/-- The client that the constructor of `Client` leaves. -/
def NewWindow.client (new : NewWindow) : Client where
  window := new.window
  declaredType := new.declaredType
  modal := new.modal
  wmClientLeaderWin := new.wmClientLeaderWin
  windowGroup := windowNone
  originalTransientForId := windowNone
  transientForId := windowNone
  transientFor := none
  holdsId := none_holdsId
  transientsList := []
  inGroup := none

def construct (ws : Workspace) (c : ClientRef) (new : NewWindow) : Workspace :=
  { ws with
    objects := ws.objects ++ [c]
    client := fun it => if it = c then new.client else ws.client it }

def setWindowGroup (ws : Workspace) (c : ClientRef) (w : WindowId) : Workspace :=
  { ws with client := fun it => { ws.client it with windowGroup := if it = c then w else (ws.client it).windowGroup } }

/-- `Client::getWMHints` with the window group in the hints, or `windowNone`. -/
def getWMHints (ws : Workspace) (this : ClientRef) (windowGroup : WindowId) : Workspace :=
  checkGroup (setWindowGroup ws this windowGroup) this none false

/-- The part of `Workspace::addClient` that makes the client known. -/
def appendClient (ws : Workspace) (c : ClientRef) : Workspace :=
  if ws.isDesktop c then { ws with desktops := ws.desktops ++ [c] } else { ws with clients := ws.clients ++ [c] }

/-- A window is mapped: `Client::manage` and `Workspace::addClient`. -/
def Manage (ws : Workspace) (parent : WindowId → Option WindowId) (c : ClientRef) (new : NewWindow)
    (windowGroup : WindowId) (value : Option WindowId) (after : Workspace) : Prop :=
  ∃ read, ReadTransient (getWMHints (construct ws c new) c windowGroup) parent c value read ∧
    CheckTransients (appendClient read c) parent new.window after

/-- `Workspace::removeClient`. -/
def removeClient (ws : Workspace) (c : ClientRef) : Workspace :=
  let ws := { ws with clients := removeAll ws.clients c, desktops := removeAll ws.desktops c }
  match findGroup ws (ws.client c).window with
  | some g => lostLeader ws g
  | none => ws

/-- `Client::deleteClient`: nothing of the client is left. -/
def deleteClient (ws : Workspace) (c : ClientRef) : Workspace :=
  { ws with
    objects := removeAll ws.objects c
    client := fun it => if it = c then NewWindow.client ⟨windowNone,.Unknown,false,windowNone⟩ else ws.client it }

/-- A window goes away: the grouping part of `Client::destroyClient`. -/
def destroyClient (ws : Workspace) (c : ClientRef) : Workspace := deleteClient (removeClient (cleanGrouping ws c) c) c

end KdeWorkspace.Transiency
