import KdeWorkspace.Lists

/-!
The model over the groups of the task bar.

A group tells those who are connected to it that a member is about to be added, removed or moved, and that it has been.
`TasksModel` connects to the groups that are there when it is populated, and turns what they tell into calls that
announce rows. Who hears the calls is a parameter; the grouping and sorting strategies act between the operations.
-/
namespace KdeWorkspace.TasksModel
open List

abbrev Id := Nat

/-- The root group, or the group that is the item of a number. -/
inductive TaskGroup
  | rootGroup
  | item (id : Id)
deriving DecidableEq, Repr

inductive ItemType
  | GroupItemType
  | TaskItemType
  | LauncherItemType
deriving DecidableEq, Repr

/-- What `GroupManager` says of launchers; `launcherIndex` takes the item for its address. -/
structure GroupManager where
  separateLaunchers : Bool
  launcherIndex : Id → Int

structure Tree where
  itemType : Id → ItemType
  members : TaskGroup → List Id
  parentGroup : Id → Option TaskGroup
  signalRemovalsFor : TaskGroup → List Id

/-- The calls of `TasksModel` that announce rows, with a group for its index. -/
inductive Call
  | beginInsertRows (parent : TaskGroup) (row : Int)
  | endInsertRows
  | beginRemoveRows (parent : TaskGroup) (row : Int)
  | endRemoveRows
  | beginMoveRows (parent : TaskGroup) (row child : Int)
  | endMoveRows
deriving DecidableEq, Repr

inductive Signal
  | itemAboutToBeAdded (item : Id) (index : Int)
  | itemAdded
  | itemAboutToBeRemoved (item : Id)
  | itemRemoved
  | itemAboutToMove (item : Id) (currentIndex newIndex : Int)
  | itemPositionChanged

/-- Who hears the calls, and can read the groups at that moment. -/
class View (V : Type) where
  hear : Tree → Call → V → V

/-- `connected` says which groups `TasksModel` is connected to. -/
structure State (V : Type) where
  tree : Tree
  manager : GroupManager
  connected : TaskGroup → Bool
  view : V

namespace Tree

def parentOf (t : Tree) : TaskGroup → Option TaskGroup
  | .rootGroup => none
  | .item id => t.parentGroup id

/-- The group of an index; an invalid index stands for the root. -/
def parentIdx (t : Tree) (parent : Option TaskGroup) : TaskGroup :=
  match parent with
  | some g => if (t.parentOf g).isSome then g else .rootGroup
  | none => .rootGroup

def indexOf (t : Tree) (item : Id) : Int :=
  match t.parentGroup item with
  | some g => (t.members g).idxOf item
  | none => -1

/-- The slots of `TasksModel`. -/
def slot (t : Tree) (sender : TaskGroup) : Signal → Call
  | .itemAboutToBeAdded item index => .beginInsertRows (t.parentIdx (t.parentGroup item)) index
  | .itemAdded => .endInsertRows
  | .itemAboutToBeRemoved item => .beginRemoveRows (t.parentIdx (some sender)) (t.indexOf item)
  | .itemRemoved => .endRemoveRows
  | .itemAboutToMove item currentIndex newIndex =>
    .beginMoveRows (t.parentIdx (t.parentGroup item)) currentIndex
      (if newIndex > currentIndex then newIndex+1 else newIndex)
  | .itemPositionChanged => .endMoveRows

def setParentGroup (t : Tree) (item : Id) (parent : Option TaskGroup) : Tree :=
  { t with parentGroup := Function.update t.parentGroup item parent }

def setMembers (t : Tree) (g : TaskGroup) (members : List Id) : Tree :=
  { t with members := Function.update t.members g members }

/-- The group loses a member. -/
def without (t : Tree) (g : TaskGroup) (item : Id) : Tree := t.setMembers g ((t.members g).filter (· ≠ item))

end Tree

/-- `QList::insert`; beyond the end it appends. -/
def insert (members : List Id) (index : Nat) (item : Id) : List Id := members.take index++item :: members.drop index

/-- `QList::move`, within the list. -/
def move (members : List Id) (oldIndex newIndex : Nat) : List Id :=
  match members[oldIndex]? with
  | some item => insert (members.eraseIdx oldIndex) newIndex item
  | none => members

/-- Where `TaskGroup::add` puts an item for which no index is given. -/
def GroupManager.indexFor (manager : GroupManager) (t : Tree) (g : TaskGroup) (item : Id) : Nat :=
  let members := t.members g
  if manager.separateLaunchers then
    if t.itemType item = .LauncherItemType then
      let maxIndex := manager.launcherIndex item
      let maxIndex := if maxIndex < 0 ∨ maxIndex ≥ members.length then (members.length : Int)-1 else maxIndex
      ((members.take maxIndex.toNat).takeWhile fun member => t.itemType member = .LauncherItemType).length
    else members.length
  else
    let urlIdx := manager.launcherIndex item
    if urlIdx ≥ 0 then
      (members.takeWhile fun member =>
        ¬(urlIdx < manager.launcherIndex member ∨ manager.launcherIndex member < 0)).length
    else members.length

namespace State
variable {V : Type} [View V]

def emit (s : State V) (sender : TaskGroup) (signal : Signal) : State V :=
  if s.connected sender then { s with view := View.hear s.tree (s.tree.slot sender signal) s.view } else s

/-- `TaskGroup::remove`. -/
def remove (s : State V) (g : TaskGroup) (item : Id) : State V :=
  if item ∈ s.tree.members g then
    let s := s.emit g (.itemAboutToBeRemoved item)
    let s := { s with tree := (s.tree.without g item).setParentGroup item none }
    s.emit g .itemRemoved
  else s

/-- The end of `TaskGroup::add`: an item that is in no group is put into one. -/
def insertItem (s : State V) (g : TaskGroup) (item : Id) (insertIndex : Int) : State V :=
  let index : Int := if insertIndex < 0 then s.manager.indexFor s.tree g item else insertIndex
  let s := { s with tree := s.tree.setParentGroup item (some g) }
  let s := s.emit g (.itemAboutToBeAdded item index)
  let s := { s with tree := s.tree.setMembers g (insert (s.tree.members g) index.toNat item) }
  s.emit g .itemAdded

/-- `TaskGroup::add`. -/
def add (s : State V) (g : TaskGroup) (item : Id) (insertIndex : Int) : State V :=
  if item ∈ s.tree.members g then s
  else
    let s := match s.tree.parentGroup item with
      | some old => s.remove old item
      | none => s
    s.insertItem g item insertIndex

/-- `TaskGroup::moveItem`. -/
def moveItem (s : State V) (g : TaskGroup) (oldIndex newIndex : Int) : State V × Bool :=
  let count : Int := (s.tree.members g).length
  if count ≤ newIndex ∨ newIndex < 0 ∨ count ≤ oldIndex ∨ oldIndex < 0 then (s,false)
  else match (s.tree.members g)[oldIndex.toNat]? with
    | some item =>
      let s := s.emit g (.itemAboutToMove item oldIndex newIndex)
      let s := { s with tree := s.tree.setMembers g (move (s.tree.members g) oldIndex.toNat newIndex.toNat) }
      (s.emit g .itemPositionChanged,true)
    | none => (s,false)

/-- `TaskGroup::Private::itemDestroyed`; a timer for `signalRemovals` is started. -/
def itemDestroyed (s : State V) (g : TaskGroup) (item : Id) : State V :=
  let s := s.emit g (.itemAboutToBeRemoved item)
  let t := s.tree.without g item
  { s with tree := { t with
    signalRemovalsFor := Function.update t.signalRemovalsFor g (t.signalRemovalsFor g++[item]) } }

/-- An item is destroyed: the group that it is in hears of it, and what it held and was connected to is gone. -/
def destroy (s : State V) (item : Id) : State V :=
  let s := match s.tree.parentGroup item with
    | some g => s.itemDestroyed g item
    | none => s
  { s with
    connected := Function.update s.connected (.item item) false
    tree := { s.tree with
      members := Function.update s.tree.members (.item item) []
      parentGroup := fun x =>
        if x = item ∨ s.tree.parentGroup x = some (.item item) then none else s.tree.parentGroup x
      signalRemovalsFor := Function.update s.tree.signalRemovalsFor (.item item) [] } }

/-- `TaskGroup::Private::signalRemovals`. -/
def signalRemovals (s : State V) (g : TaskGroup) : State V :=
  let s := (s.tree.signalRemovalsFor g).foldl (fun s _ => s.emit g .itemRemoved) s
  { s with tree := { s.tree with signalRemovalsFor := Function.update s.tree.signalRemovalsFor g [] } }

def isGrouped (t : Tree) (item : Id) : Bool :=
  match t.parentGroup item with
  | some g => (t.parentOf g).isSome
  | none => false

/-- The group in which `createGroup` places the new one. -/
def oldGroup (t : Tree) : List Id → TaskGroup
  | [] => .rootGroup
  | first :: _ => if isGrouped t first then (t.parentGroup first).getD .rootGroup else .rootGroup

/-- The place of the first of the items among the members. -/
def firstIndex (oldGroupMembers items : List Id) : Nat :=
  items.foldl (fun index item =>
    if item ∈ oldGroupMembers ∧ oldGroupMembers.idxOf item < index then oldGroupMembers.idxOf item else index)
    oldGroupMembers.length

/-- `AbstractGroupingStrategy::createGroup`; the new group is given by its number. -/
def createGroup (s : State V) (items : List Id) (newGroup : Id) : State V :=
  let old := oldGroup s.tree items
  let index := firstIndex (s.tree.members old) items
  let s := items.foldl (fun s item => s.add (.item newGroup) item (-1)) s
  s.add old newGroup index

/-- `AbstractGroupingStrategy::closeGroup`; the group is destroyed later. -/
def closeGroup (s : State V) (group : Id) : State V :=
  let parent := (s.tree.parentGroup group).getD .rootGroup
  let members := s.tree.members parent
  let index : Int := if group ∈ members then members.idxOf group else -1
  let s := (s.tree.members (.item group)).foldl (fun s item => s.add parent item index) s
  s.remove parent group

end State

/-- The groups that are connected to, down to a depth. -/
def populate (t : Tree) : Nat → TaskGroup → (TaskGroup → Bool) → TaskGroup → Bool
  | 0, g, connected => Function.update connected g true
  | depth+1, g, connected =>
    ((t.members g).filter (t.itemType · = .GroupItemType)).foldl
      (fun connected x => populate t depth (.item x) connected) (Function.update connected g true)

/-- `TasksModel::populateModel`; the view starts over. -/
def populateModel {V : Type} (tree : Tree) (manager : GroupManager) (depth : Nat) (reset : V) : State V :=
  ⟨tree,manager,populate tree depth .rootGroup fun _ => false,reset⟩

/-- What may happen after the model has been populated. -/
inductive Event
  | add (g : TaskGroup) (item : Id) (insertIndex : Int)
  | remove (g : TaskGroup) (item : Id)
  | moveItem (g : TaskGroup) (oldIndex newIndex : Int)
  | destroy (item : Id)
  | signalRemovals (g : TaskGroup)
  | createGroup (items : List Id) (newGroup : Id)
  | closeGroup (group : Id)
  | launchersChanged (manager : GroupManager)

def State.after {V : Type} [View V] (s : State V) : Event → State V
  | .add g item insertIndex => s.add g item insertIndex
  | .remove g item => s.remove g item
  | .moveItem g oldIndex newIndex => (s.moveItem g oldIndex newIndex).1
  | .destroy item => s.destroy item
  | .signalRemovals g => s.signalRemovals g
  | .createGroup items newGroup => s.createGroup items newGroup
  | .closeGroup group => s.closeGroup group
  | .launchersChanged manager => { s with manager }

namespace Tree

def Under (t : Tree) : TaskGroup → TaskGroup → Prop := Relation.ReflTransGen fun g h => ∃ x ∈ t.members g, h = .item x

/-- The groups of the tree. -/
def Attached (t : Tree) (g : TaskGroup) : Prop := t.Under .rootGroup g

/-- What is in a group has it as its parent, and is there once. -/
structure Consistent (t : Tree) : Prop where
  parent : ∀ x g, t.parentGroup x = some g ↔ x ∈ t.members g
  nodup : ∀ g, (t.members g).Nodup

variable {t t' : Tree} {g h : TaskGroup} {item x : Id}

theorem Under.mono (sub : ∀ g, t'.members g ⊆ t.members g) (path : t'.Under g h) : t.Under g h :=
  Relation.ReflTransGen.mono (fun k _ ⟨x,member,same⟩ => ⟨x,sub k member,same⟩) _ _ path

theorem Consistent.attached_parent (consistent : t.Consistent) (attached : t.Attached (.item x)) :
    ∃ g, t.parentGroup x = some g := by
  obtain same | ⟨g,-,y,member,same⟩ := Relation.ReflTransGen.cases_tail attached
  · cases same
  · cases same
    exact ⟨g,(consistent.parent x g).mpr member⟩

theorem attached_of_unattached (others : ∀ k, k ≠ g → t'.members k = t.members k) (apart : ¬t.Attached g)
    (attached : t'.Attached h) : t.Attached h := by
  induction attached with
  | refl => exact .refl
  | @tail k l _ edge ih =>
    obtain ⟨x,member,rfl⟩ := edge
    have other : k ≠ g := fun same => apart (same ▸ ih)
    exact ih.tail ⟨x,others k other ▸ member,rfl⟩

theorem attached_insert (others : ∀ k, k ≠ g → t'.members k = t.members k)
    (inside : ∀ x ∈ t'.members g, x = item ∨ x ∈ t.members g) (attached : t'.Attached h) :
    t'.Under (.item item) h ∨ t.Attached h := by
  induction attached with
  | refl => exact .inr .refl
  | @tail k l _ edge ih =>
    obtain ⟨x,member,rfl⟩ := edge
    rcases ih with below | before
    · exact .inl (below.tail ⟨x,member,rfl⟩)
    · by_cases here : k = g
      · subst here
        rcases inside x member with same | old
        · exact .inl (same ▸ .refl)
        · exact .inr (before.tail ⟨x,old,rfl⟩)
      · exact .inr (before.tail ⟨x,others k here ▸ member,rfl⟩)

end Tree

theorem mem_insert {members : List Id} {index : Nat} {item x : Id} :
    x ∈ insert members index item ↔ x = item ∨ x ∈ members := by
  have whole : x ∈ members ↔ x ∈ members.take index ∨ x ∈ members.drop index := by
    rw [← mem_append,take_append_drop]
  rw [insert,whole]
  simp only [mem_append,mem_cons]
  exact or_left_comm

theorem insert_perm (members : List Id) (index : Nat) (item : Id) :
    (insert members index item).Perm (item :: members) := by
  have whole : (insert members index item).Perm (item :: (members.take index++members.drop index)) := perm_middle
  rwa [take_append_drop] at whole

theorem insert_at {members : List Id} {index : Nat} (item : Id) (bound : index ≤ members.length) :
    (insert members index item)[index]? = some item := by
  have length : (members.take index).length = index := length_take_of_le bound
  rw [insert,getElem?_append_right (by omega),length]
  simp

theorem move_same (members : List Id) (index : Nat) : move members index index = members := by
  cases found : members[index]? with
  | none => simp [move,found]
  | some item =>
    obtain ⟨bound,rfl⟩ := List.getElem?_eq_some_iff.mp found
    have front : (members.eraseIdx index).take index = members.take index := by
      rw [List.eraseIdx_eq_take_drop_succ,List.take_append_of_le_length (by simp; omega),List.take_take,Nat.min_self]
    have back : (members.eraseIdx index).drop index = members.drop (index+1) := by
      rw [eraseIdx_eq_take_drop_succ,drop_append_of_le_length (by simp; omega)]
      simp
    simp only [move,found,insert,front,back]
    simp

theorem move_perm (members : List Id) (oldIndex newIndex : Nat) : (move members oldIndex newIndex).Perm members := by
  cases found : members[oldIndex]? with
  | none => simp [move,found]
  | some item =>
    obtain ⟨bound,rfl⟩ := List.getElem?_eq_some_iff.mp found
    simp only [move,found]
    exact (insert_perm _ _ _).trans (List.getElem_cons_eraseIdx_perm bound)

theorem eraseIdx_idxOf {members : List Id} {item : Id} (nodup : members.Nodup) :
    members.eraseIdx (members.idxOf item) = members.filter (· ≠ item) := by
  rw [← erase_eq_eraseIdx_of_idxOf rfl]
  exact (Lists.removeAll_eq_erase nodup item).symm

theorem indexFor_le (manager : GroupManager) (t : Tree) (g : TaskGroup) (item : Id) :
    manager.indexFor t g item ≤ (t.members g).length := by
  simp only [GroupManager.indexFor]
  split
  · split
    · exact ((takeWhile_sublist _).trans (take_sublist _ _)).length_le
    · exact Nat.le_refl _
  · split
    · exact (takeWhile_sublist _).length_le
    · exact Nat.le_refl _

end KdeWorkspace.TasksModel
