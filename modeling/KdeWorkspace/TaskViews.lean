import KdeWorkspace.TasksModel

/-!
Views of the groups of the task bar.

A view keeps a copy of the groups, changes it when rows have been announced, and reads the groups at and below a row
that has been inserted. `Reached.announced` says that it has the groups of the tree as long as only groups change that
the model is connected to, their indices are right, and nothing happens between a destruction and the timer after it.
-/
namespace KdeWorkspace.TasksModel
open Option Function

/-- `opened` is the call whose end has not come yet; `failed` says that calls did not fit. -/
structure Copy where
  members : TaskGroup → List Id
  opened : Option Call
  failed : Bool

namespace Copy

def fail (v : Copy) : Copy := { v with failed := true }

/-- Calls are not nested. -/
def begin (v : Copy) (call : Call) : Copy := if v.opened = none then { v with opened := some call } else v.fail

/-- The members of a group become others, and what was opened ends. -/
def close (v : Copy) (g : TaskGroup) (members : List Id) : Copy :=
  { v with opened := none, members := Function.update v.members g members }

open Classical in
/-- The groups at and below an item are read. -/
noncomputable def read (v : Copy) (t : Tree) (item : Id) : Copy :=
  { v with members := fun g => if t.Under (.item item) g then t.members g else v.members g }

/-- `beginMoveRows` refuses to move a row to where it is. -/
noncomputable def hear (t : Tree) : Call → Copy → Copy
  | .beginInsertRows p row,v => v.begin (.beginInsertRows p row)
  | .beginRemoveRows p row,v => v.begin (.beginRemoveRows p row)
  | .beginMoveRows p row child,v =>
    if row ≤ child ∧ child ≤ row+1 then v else v.begin (.beginMoveRows p row child)
  | .endInsertRows,v =>
    match v.opened with
    | some (.beginInsertRows p row) =>
      match (t.members p)[row.toNat]? with
      | some item => (v.close p (insert (v.members p) row.toNat item)).read t item
      | none => v.fail
    | _ => v.fail
  | .endRemoveRows,v =>
    match v.opened with
    | some (.beginRemoveRows p row) => v.close p ((v.members p).eraseIdx row.toNat)
    | _ => v.fail
  | .endMoveRows,v =>
    match v.opened with
    | some (.beginMoveRows p row child) =>
      v.close p (move (v.members p) row.toNat (if child > row then child-1 else child).toNat)
    | _ => v.fail

/-- What the view has when a removal that has been begun is counted as done. -/
def settled (v : Copy) : TaskGroup → List Id :=
  match v.opened with
  | some (.beginRemoveRows p row) => Function.update v.members p ((v.members p).eraseIdx row.toNat)
  | _ => v.members

theorem settled_of_closed {v : Copy} (closed : v.opened = none) : v.settled = v.members := by
  simp [settled,closed]

end Copy

noncomputable instance : View Copy := ⟨Copy.hear⟩

namespace State

section
variable {V : Type} (s : State V)

/-- No removal is outstanding in the groups that the model is connected to. -/
def Idle : Prop := ∀ g, s.connected g = true → s.tree.signalRemovalsFor g = []

/-- The index of the group is not taken for that of the root. -/
def Located (g : TaskGroup) : Prop := g = .rootGroup ∨ (s.tree.parentOf g).isSome

/-- The model can tell of a change in the group, or the group is not in the tree and the model does not. -/
def Reports (g : TaskGroup) : Prop :=
  (s.connected g = true → s.Idle ∧ s.Located g) ∧ (s.connected g = false → ¬s.tree.Attached g)

/-- A new object, that is not among the items. -/
def Fresh (items : List Id) (id : Id) : Prop :=
  s.tree.itemType id = .GroupItemType ∧ s.tree.members (.item id) = [] ∧ s.tree.parentGroup id = none ∧
    s.connected (.item id) = false ∧ s.tree.signalRemovalsFor (.item id) = [] ∧ id ∉ items

def Possible : Event → Prop
  | .createGroup items newGroup => s.Fresh items newGroup
  | _ => True

/-- The operation is one that the model can tell of. -/
def Meets : Event → Prop
  | .add g item insertIndex => item ∉ s.tree.members g →
    (∀ old, s.tree.parentGroup item = some old → s.Reports old) ∧ s.Reports g ∧
      (s.connected g = true → insertIndex ≤ (s.tree.members g).length)
  | .remove g item => item ∈ s.tree.members g → s.Reports g
  | .moveItem g oldIndex newIndex =>
    0 ≤ oldIndex ∧ oldIndex < (s.tree.members g).length ∧ 0 ≤ newIndex ∧ newIndex < (s.tree.members g).length →
      (oldIndex ≠ newIndex → s.Reports g) ∧ (oldIndex = newIndex → s.connected g = false)
  | .destroy item =>
    (∀ g, s.tree.parentGroup item = some g → s.Reports g ∧ g ≠ .item item) ∧
      (s.connected (.item item) = true → s.tree.signalRemovalsFor (.item item) = [])
  | .createGroup items _ =>
    (∀ item ∈ items, ∀ old, s.tree.parentGroup item = some old → s.Reports old) ∧ s.Reports (oldGroup s.tree items)
  | .closeGroup group =>
    (s.tree.members (.item group) ≠ [] ∨ (s.tree.parentGroup group).isSome →
      s.Reports ((s.tree.parentGroup group).getD .rootGroup)) ∧
      (s.tree.members (.item group) ≠ [] → s.connected (.item group) = true → s.Idle ∧ s.Located (.item group))
  | .signalRemovals _ => True
  | .launchersChanged _ => True

end

/-- What holds between the operations. The view may be wrong about the groups that are `hidden`. -/
structure Shows (hidden : TaskGroup → Prop) (s : State Copy) : Prop where
  consistent : s.tree.Consistent
  sound : s.view.failed = false
  same : ∀ g, s.tree.Attached g → ¬hidden g → s.view.settled g = s.tree.members g
  rows : (s.view.opened = none ∧ s.Idle) ∨
    ∃ g p row x, s.view.opened = some (.beginRemoveRows p row) ∧ s.connected g = true ∧
      s.tree.signalRemovalsFor g = [x] ∧ ∀ h, s.connected h = true → h ≠ g → s.tree.signalRemovalsFor h = []

variable {hidden : TaskGroup → Prop} {s : State Copy} {g h : TaskGroup} {item : Id}

theorem Shows.closed (shows : s.Shows hidden) (idle : s.Idle) : s.view.opened = none := by
  rcases shows.rows with ⟨closed,-⟩ | ⟨g,p,row,x,-,connected,outstanding,-⟩
  · exact closed
  · rw [idle g connected] at outstanding
    cases outstanding

theorem Shows.copied (shows : s.Shows hidden) (idle : s.Idle) (attached : s.tree.Attached g) (shown : ¬hidden g) :
    s.view.members g = s.tree.members g := by
  rw [← Copy.settled_of_closed (shows.closed idle)]
  exact shows.same g attached shown

theorem Shows.quiet (shows : s.Shows hidden) {t : Tree} (consistent : t.Consistent)
    (removals : ∀ g, s.connected g = true → t.signalRemovalsFor g = s.tree.signalRemovalsFor g)
    (kept : ∀ g, t.Attached g → ¬hidden g → s.tree.Attached g ∧ t.members g = s.tree.members g) :
    Shows hidden { s with tree := t } where
  consistent := consistent
  sound := shows.sound
  same g attached shown := by
    obtain ⟨before,same⟩ := kept g attached shown
    exact (shows.same g before shown).trans same.symm
  rows := by
    rcases shows.rows with ⟨closed,idle⟩ | ⟨g,p,row,x,opened,connected,outstanding,others⟩
    · exact .inl ⟨closed,fun g connected => (removals g connected).trans (idle g connected)⟩
    · refine .inr ⟨g,p,row,x,opened,connected,(removals g connected).trans outstanding,fun h is_connected other => ?_⟩
      exact (removals h is_connected).trans (others h is_connected other)

theorem Shows.told (shows : s.Shows hidden) (idle : s.Idle) {t : Tree} {v : Copy} (consistent : t.Consistent)
    (removals : ∀ g, s.connected g = true → t.signalRemovalsFor g = s.tree.signalRemovalsFor g)
    (sound : v.failed = s.view.failed) (closed : v.opened = none)
    (same : ∀ g, t.Attached g → ¬hidden g → v.members g = t.members g) :
    Shows hidden { s with tree := t, view := v } where
  consistent := consistent
  sound := sound.trans shows.sound
  same g attached shown := by
    rw [Copy.settled_of_closed closed]
    exact same g attached shown
  rows := .inl ⟨closed,fun g connected => (removals g connected).trans (idle g connected)⟩

section
variable {V : Type} {s : State V} {g h : TaskGroup} {item x : Id}

theorem parentIdx_located (located : s.Located g) : s.tree.parentIdx (some g) = g := by
  rcases located with rfl | parent
  · rfl
  · simp [Tree.parentIdx,parent]

variable [View V]

@[simp] theorem emit_tree (s : State V) (g : TaskGroup) (signal : Signal) : (s.emit g signal).tree = s.tree := by
  rw [emit]
  split <;> rfl

@[simp] theorem emit_connected (s : State V) (g : TaskGroup) (signal : Signal) :
    (s.emit g signal).connected = s.connected := by
  rw [emit]
  split <;> rfl

@[simp] theorem emit_manager (s : State V) (g : TaskGroup) (signal : Signal) :
    (s.emit g signal).manager = s.manager := by
  rw [emit]
  split <;> rfl

theorem emit_told (connected : s.connected g = true) (signal : Signal) :
    s.emit g signal = { s with view := View.hear s.tree (s.tree.slot g signal) s.view } := if_pos connected

theorem emit_untold (unconnected : s.connected g = false) (signal : Signal) : s.emit g signal = s :=
  if_neg (by simp [unconnected])

theorem remove_tree (s : State V) (member : item ∈ s.tree.members g) :
    (s.remove g item).tree = (s.tree.without g item).setParentGroup item none := by
  simp [remove,member]

@[simp] theorem remove_connected (s : State V) (g : TaskGroup) (item : Id) :
    (s.remove g item).connected = s.connected := by
  rw [remove]
  split <;> simp

theorem insertItem_tree (s : State V) (g : TaskGroup) (item : Id) (insertIndex : Int) :
    (s.insertItem g item insertIndex).tree = (s.tree.setParentGroup item (some g)).setMembers g
      (insert (s.tree.members g)
        (if insertIndex < 0 then (s.manager.indexFor s.tree g item : Int) else insertIndex).toNat item) := by
  simp [insertItem,Tree.setParentGroup]

@[simp] theorem insertItem_connected (s : State V) (g : TaskGroup) (item : Id) (insertIndex : Int) :
    (s.insertItem g item insertIndex).connected = s.connected := by
  simp [insertItem]

end

end State

namespace Tree
variable {t : Tree} {g h : TaskGroup} {item x : Id}

@[simp] theorem setParentGroup_members (t : Tree) (item : Id) (parent : Option TaskGroup) :
    (t.setParentGroup item parent).members = t.members := rfl

@[simp] theorem setParentGroup_signalRemovalsFor (t : Tree) (item : Id) (parent : Option TaskGroup) :
    (t.setParentGroup item parent).signalRemovalsFor = t.signalRemovalsFor := rfl

@[simp] theorem setMembers_signalRemovalsFor (t : Tree) (g : TaskGroup) (members : List Id) :
    (t.setMembers g members).signalRemovalsFor = t.signalRemovalsFor := rfl

@[simp] theorem without_signalRemovalsFor (t : Tree) (g : TaskGroup) (item : Id) :
    (t.without g item).signalRemovalsFor = t.signalRemovalsFor := rfl

@[simp] theorem setMembers_parentGroup (t : Tree) (g : TaskGroup) (members : List Id) :
    (t.setMembers g members).parentGroup = t.parentGroup := rfl

@[simp] theorem without_parentGroup (t : Tree) (g : TaskGroup) (item : Id) :
    (t.without g item).parentGroup = t.parentGroup := rfl

theorem setMembers_self (t : Tree) (g : TaskGroup) (members : List Id) : (t.setMembers g members).members g = members :=
  update_self ..

theorem setMembers_other (other : h ≠ g) (members : List Id) : (t.setMembers g members).members h = t.members h :=
  update_of_ne other ..

theorem without_subset (t : Tree) (g : TaskGroup) (item : Id) (h : TaskGroup) :
    (t.without g item).members h ⊆ t.members h := by
  by_cases here : h = g
  · subst here
    rw [without,setMembers_self]
    exact fun x => List.mem_of_mem_filter
  · rw [without,setMembers_other here]
    exact List.Subset.refl _

theorem Consistent.without (consistent : t.Consistent) (member : item ∈ t.members g) :
    ((t.without g item).setParentGroup item none).Consistent := by
  have parent := (consistent.parent item g).mpr member
  constructor
  · intro x h
    simp only [setParentGroup,update_apply,without_parentGroup]
    by_cases here : h = g
    · subst here
      rw [Tree.without,setMembers_self,List.mem_filter,← consistent.parent]
      by_cases same : x = item <;> simp [same]
    · rw [Tree.without,setMembers_other here,← consistent.parent]
      by_cases same : x = item
      · subst same
        simp [parent,Ne.symm here]
      · simp [same]
  · intro h
    by_cases here : h = g
    · subst here
      simp only [Tree.without,setParentGroup_members,setMembers_self]
      exact (consistent.nodup h).filter _
    · simp only [Tree.without,setParentGroup_members,setMembers_other here]
      exact consistent.nodup h

theorem Consistent.insert (consistent : t.Consistent) (parentless : t.parentGroup item = none) (g : TaskGroup)
    (index : Nat) :
    ((t.setParentGroup item (some g)).setMembers g (TasksModel.insert (t.members g) index item)).Consistent := by
  have absent (h : TaskGroup) : item ∉ t.members h := fun member => by
    rw [← consistent.parent,parentless] at member
    cases member
  constructor
  · intro x h
    simp only [setMembers_parentGroup,setParentGroup,update_apply]
    by_cases here : h = g
    · subst here
      rw [setMembers_self,mem_insert,← consistent.parent]
      by_cases same : x = item <;> simp [same]
    · rw [setMembers_other here]
      by_cases same : x = item
      · subst same
        simpa [Ne.symm here] using absent h
      · simpa [same] using consistent.parent x h
  · intro h
    by_cases here : h = g
    · subst here
      rw [setMembers_self,(insert_perm _ _ _).nodup_iff]
      exact List.nodup_cons.mpr ⟨absent h,consistent.nodup h⟩
    · rw [setMembers_other here]
      exact consistent.nodup h

end Tree

namespace State
variable {hidden : TaskGroup → Prop} {s : State Copy} {g h : TaskGroup} {item : Id}

theorem Shows.unattached (shows : s.Shows hidden) (apart : ¬s.tree.Attached g) {t : Tree} (consistent : t.Consistent)
    (removals : ∀ g, s.connected g = true → t.signalRemovalsFor g = s.tree.signalRemovalsFor g)
    (others : ∀ h, h ≠ g → t.members h = s.tree.members h) : Shows hidden { s with tree := t } := by
  refine shows.quiet consistent removals fun h attached _ => ?_
  have before := Tree.attached_of_unattached others apart attached
  exact ⟨before,others h fun same => apart (same ▸ before)⟩

theorem Shows.remove (shows : s.Shows hidden)
    (tells : item ∈ s.tree.members g → s.Reports g ∨ (s.connected g = false ∧ hidden g)) :
    (s.remove g item).Shows hidden := by
  by_cases member : item ∈ s.tree.members g
  · have parent := (shows.consistent.parent item g).mpr member
    have consistent := shows.consistent.without member
    have before {h : TaskGroup} (attached : ((s.tree.without g item).setParentGroup item none).Attached h) :
        s.tree.Attached h := Tree.Under.mono (s.tree.without_subset g item) attached
    have others (h : TaskGroup) (other : h ≠ g) :
        ((s.tree.without g item).setParentGroup item none).members h = s.tree.members h := Tree.setMembers_other other _
    cases connected : s.connected g with
    | true =>
      obtain ⟨idle,located⟩ : s.Idle ∧ s.Located g := by
        rcases tells member with reports | ⟨unconnected,-⟩
        · exact reports.1 connected
        · rw [connected] at unconnected
          cases unconnected
      have closed := shows.closed idle
      have told : s.remove g item = { s with
          tree := (s.tree.without g item).setParentGroup item none
          view := s.view.close g ((s.view.members g).eraseIdx ((s.tree.members g).idxOf item)) } := by
        simp only [State.remove,if_pos member,emit_told connected]
        rw [emit_told (by exact connected)]
        simp [Tree.slot,parentIdx_located located,Tree.indexOf,parent,View.hear,Copy.hear,Copy.begin,closed,Copy.close]
      rw [told]
      refine shows.told idle consistent (fun _ _ => rfl) rfl rfl fun h attached shown => ?_
      by_cases here : h = g
      · subst here
        have copied := shows.copied idle (before attached) shown
        simp only [Copy.close,update_self,copied,eraseIdx_idxOf (shows.consistent.nodup h),
          Tree.setParentGroup_members,Tree.without,Tree.setMembers_self]
      · rw [others h here]
        exact (update_of_ne here ..).trans (shows.copied idle (before attached) shown)
    | false =>
      have untold : s.remove g item = { s with tree := (s.tree.without g item).setParentGroup item none } := by
        simp only [State.remove,if_pos member,emit_untold connected]
        exact emit_untold (by exact connected) _
      rw [untold]
      refine shows.quiet consistent (fun _ _ => rfl) fun h attached shown => ⟨before attached,others h ?_⟩
      rintro rfl
      rcases tells member with reports | ⟨-,is_hidden⟩
      · exact reports.2 connected (before attached)
      · exact shown is_hidden
  · rw [State.remove,if_neg member]
    exact shows

theorem Shows.insertItem {insertIndex : Int} (shows : s.Shows hidden) (parentless : s.tree.parentGroup item = none)
    (tells : s.connected g = true → s.Idle ∧ (s.Located g ∨ g = .item item))
    (apart : s.connected g = false → ¬s.tree.Attached g)
    (bound : s.connected g = true → insertIndex ≤ (s.tree.members g).length) :
    (s.insertItem g item insertIndex).Shows hidden := by
  obtain ⟨index,is_index⟩ : ∃ index : Int,
    (if insertIndex < 0 then (s.manager.indexFor s.tree g item : Int) else insertIndex) = index := ⟨_,rfl⟩
  have consistent := shows.consistent.insert parentless g index.toNat
  have others (h : TaskGroup) (other : h ≠ g) : ((s.tree.setParentGroup item (some g)).setMembers g
      (insert (s.tree.members g) index.toNat item)).members h = s.tree.members h := Tree.setMembers_other other _
  cases connected : s.connected g with
  | true =>
    obtain ⟨idle,located⟩ := tells connected
    have closed := shows.closed idle
    have fits : index.toNat ≤ (s.tree.members g).length := by
      have default := indexFor_le s.manager s.tree g item
      have given := bound connected
      split at is_index <;> omega
    have told : s.insertItem g item insertIndex = { s with
        tree := (s.tree.setParentGroup item (some g)).setMembers g (insert (s.tree.members g) index.toNat item)
        view := (s.view.close g (insert (s.view.members g) index.toNat item)).read
          ((s.tree.setParentGroup item (some g)).setMembers g (insert (s.tree.members g) index.toNat item)) item } := by
      have there : State.Located { s with tree := s.tree.setParentGroup item (some g) } g := by
        cases g with
        | rootGroup => exact .inl rfl
        | item id =>
          refine .inr ?_
          by_cases same : id = item
          · simp [Tree.parentOf,Tree.setParentGroup,same]
          · simpa [State.Located,Tree.parentOf,Tree.setParentGroup,same] using located
      have index_of := parentIdx_located there
      have placed : (s.tree.setParentGroup item (some g)).parentGroup item = some g := update_self ..
      simp only [State.insertItem,is_index]
      rw [emit_told (by simpa using connected),emit_told (by exact connected)]
      simp only [Tree.slot,placed,View.hear,Copy.hear,Copy.begin,closed,if_true]
      rw [index_of]
      simp [Tree.setMembers_self,insert_at item fits,Copy.close]
    rw [told]
    refine shows.told idle consistent (fun _ _ => rfl) rfl rfl fun h attached shown => ?_
    simp only [Copy.read]
    split
    · rfl
    · rename_i apart
      have before : s.tree.Attached h := by
        refine (Tree.attached_insert others (fun x member => ?_) attached).resolve_left apart
        rwa [Tree.setMembers_self,mem_insert] at member
      by_cases here : h = g
      · subst here
        have copied := shows.copied idle before shown
        simp only [Copy.close,update_self,copied,Tree.setMembers_self]
      · rw [others h here]
        exact (update_of_ne here ..).trans (shows.copied idle before shown)
  | false =>
    have untold : s.insertItem g item insertIndex = { s with
        tree := (s.tree.setParentGroup item (some g)).setMembers g
          (insert (s.tree.members g) index.toNat item) } := by
      simp only [State.insertItem,is_index]
      rw [emit_untold (by simpa using connected),emit_untold (by exact connected)]
      rfl
    rw [untold]
    exact shows.unattached (apart connected) consistent (fun _ _ => rfl) others

end State

namespace Tree
variable {t : Tree} {g h : TaskGroup} {item x : Id}

/-- The item is in no group any more. -/
def taken (t : Tree) (item : Id) : Tree :=
  match t.parentGroup item with
  | some old => (t.without old item).setParentGroup item none
  | none => t

theorem Consistent.taken (consistent : t.Consistent) : (t.taken item).Consistent := by
  cases parent : t.parentGroup item with
  | none => simpa [Tree.taken,parent] using consistent
  | some old => simpa [Tree.taken,parent] using consistent.without ((consistent.parent item old).mp parent)

theorem taken_parent (t : Tree) (item x : Id) :
    (t.taken item).parentGroup x = if x = item then none else t.parentGroup x := by
  cases parent : t.parentGroup item with
  | none =>
    by_cases same : x = item
    · simp [taken,parent,same]
    · simp [taken,parent,same]
  | some old => simp [taken,parent,setParentGroup,update_apply]

theorem taken_members (consistent : t.Consistent) (absent : item ∉ t.members g) :
    (t.taken item).members g = t.members g := by
  cases parent : t.parentGroup item with
  | none => simp [taken,parent]
  | some old =>
    have other : g ≠ old := fun same => absent (same ▸ (consistent.parent item old).mp parent)
    simp [taken,parent,without,setMembers_other other]

theorem taken_subset (t : Tree) (item : Id) (g : TaskGroup) : (t.taken item).members g ⊆ t.members g := by
  cases parent : t.parentGroup item with
  | none => simp [taken,parent]
  | some old => simpa [taken,parent] using t.without_subset old item g

@[simp] theorem taken_signalRemovalsFor (t : Tree) (item : Id) :
    (t.taken item).signalRemovalsFor = t.signalRemovalsFor := by
  cases parent : t.parentGroup item <;> simp [taken,parent]

end Tree

namespace State

section
variable {V : Type} [View V] {s : State V} {g h : TaskGroup} {item x : Id} {insertIndex : Int}

/-- An item is removed from the group that it is in. -/
def taken (s : State V) (item : Id) : State V :=
  match s.tree.parentGroup item with
  | some old => s.remove old item
  | none => s

theorem add_absent (absent : item ∉ s.tree.members g) :
    s.add g item insertIndex = (s.taken item).insertItem g item insertIndex := if_neg absent

theorem add_member (member : item ∈ s.tree.members g) : s.add g item insertIndex = s := if_pos member

theorem taken_tree (consistent : s.tree.Consistent) : (s.taken item).tree = s.tree.taken item := by
  cases parent : s.tree.parentGroup item with
  | none => simp [taken,Tree.taken,parent]
  | some old =>
    simpa [taken,Tree.taken,parent] using remove_tree s ((consistent.parent item old).mp parent)

@[simp] theorem taken_connected (s : State V) (item : Id) : (s.taken item).connected = s.connected := by
  cases parent : s.tree.parentGroup item <;> simp [taken,parent]

@[simp] theorem add_connected (s : State V) (g : TaskGroup) (item : Id) (insertIndex : Int) :
    (s.add g item insertIndex).connected = s.connected := by
  by_cases member : item ∈ s.tree.members g
  · rw [add_member member]
  · rw [add_absent member,insertItem_connected,taken_connected]

theorem add_tree (consistent : s.tree.Consistent) (absent : item ∉ s.tree.members g) (insertIndex : Int) :
    ∃ index, (s.add g item insertIndex).tree = ((s.tree.taken item).setParentGroup item (some g)).setMembers g
      (insert (s.tree.members g) index item) := by
  rw [add_absent absent,insertItem_tree,taken_tree consistent,Tree.taken_members consistent absent]
  exact ⟨_,rfl⟩

theorem add_signalRemovalsFor (consistent : s.tree.Consistent) :
    (s.add g item insertIndex).tree.signalRemovalsFor = s.tree.signalRemovalsFor := by
  by_cases member : item ∈ s.tree.members g
  · rw [add_member member]
  · obtain ⟨index,tree⟩ := add_tree consistent member insertIndex
    simp [tree]

theorem add_parent (consistent : s.tree.Consistent) :
    (s.add g item insertIndex).tree.parentGroup x = if x = item then some g else s.tree.parentGroup x := by
  by_cases member : item ∈ s.tree.members g
  · rw [add_member member]
    split
    · rename_i same
      exact same ▸ (consistent.parent item g).mpr member
    · rfl
  · obtain ⟨index,tree⟩ := add_tree consistent member insertIndex
    by_cases same : x = item
    · simp [tree,Tree.setParentGroup,same]
    · simp [tree,Tree.setParentGroup,same,Tree.taken_parent]

theorem add_idle (consistent : s.tree.Consistent) (idle : s.Idle) : (s.add g item insertIndex).Idle := by
  intro h connected
  rw [add_signalRemovalsFor consistent]
  exact idle h (by simpa using connected)

theorem add_located (consistent : s.tree.Consistent) (located : s.Located h) :
    (s.add g item insertIndex).Located h := by
  rcases located with root | parent
  · exact .inl root
  · cases h with
    | rootGroup => exact .inl rfl
    | item id =>
      refine .inr ?_
      simp only [Tree.parentOf,add_parent consistent] at parent ⊢
      split
      · rfl
      · exact parent

theorem add_unattached (consistent : s.tree.Consistent) (apart : ¬s.tree.Attached g)
    (attached : (s.add g item insertIndex).tree.Attached h) : s.tree.Attached h := by
  by_cases member : item ∈ s.tree.members g
  · rwa [add_member member] at attached
  · obtain ⟨index,tree⟩ := add_tree consistent member insertIndex
    rw [tree] at attached
    have before {k : TaskGroup} : (s.tree.taken item).Attached k → s.tree.Attached k :=
      Tree.Under.mono (s.tree.taken_subset item)
    exact before (Tree.attached_of_unattached (fun k other => Tree.setMembers_other other _)
      (fun still => apart (before still)) attached)

theorem add_reports (consistent : s.tree.Consistent) (reports : s.Reports h)
    (steady : s.connected h = true ∨ ¬s.tree.Attached g) : (s.add g item insertIndex).Reports h := by
  constructor
  · intro connected
    obtain ⟨idle,located⟩ := reports.1 (by simpa using connected)
    exact ⟨add_idle consistent idle,add_located consistent located⟩
  · intro unconnected attached
    rw [add_connected] at unconnected
    have apart : ¬s.tree.Attached g := steady.resolve_left (by simp [unconnected])
    exact reports.2 unconnected (add_unattached consistent apart attached)

theorem add_length (consistent : s.tree.Consistent) :
    (s.tree.members g).length ≤ ((s.add g item insertIndex).tree.members g).length := by
  by_cases member : item ∈ s.tree.members g
  · simp [add_member member]
  · obtain ⟨index,tree⟩ := add_tree consistent member insertIndex
    rw [tree,Tree.setMembers_self,(insert_perm _ _ _).length_eq]
    exact Nat.le_succ _

end

variable {hidden : TaskGroup → Prop} {s : State Copy} {g h : TaskGroup} {item : Id} {insertIndex : Int}

theorem Shows.taken (shows : s.Shows hidden)
    (tells : ∀ old, s.tree.parentGroup item = some old → s.Reports old ∨ (s.connected old = false ∧ hidden old)) :
    (s.taken item).Shows hidden := by
  cases parent : s.tree.parentGroup item with
  | none => simpa [State.taken,parent] using shows
  | some old => simpa [State.taken,parent] using shows.remove fun _ => tells old parent

theorem Shows.add (shows : s.Shows hidden)
    (tells : item ∉ s.tree.members g → (∀ old, s.tree.parentGroup item = some old →
      s.Reports old ∨ (s.connected old = false ∧ hidden old)) ∧ s.Reports g ∧
        (s.connected g = true → insertIndex ≤ (s.tree.members g).length)) : (s.add g item insertIndex).Shows hidden := by
  by_cases member : item ∈ s.tree.members g
  · rwa [add_member member]
  · obtain ⟨from_old,reports,bound⟩ := tells member
    have consistent := shows.consistent
    have parentless : (s.taken item).tree.parentGroup item = none := by
      rw [taken_tree consistent,Tree.taken_parent,if_pos rfl]
    rw [add_absent member]
    refine (shows.taken from_old).insertItem parentless (fun connected => ?_) (fun unconnected attached => ?_)
      fun connected => ?_
    · obtain ⟨idle,located⟩ := reports.1 (by simpa using connected)
      refine ⟨fun h connected => ?_,?_⟩
      · rw [taken_tree consistent,Tree.taken_signalRemovalsFor]
        exact idle h (by simpa using connected)
      · cases g with
        | rootGroup => exact .inl (.inl rfl)
        | item id =>
          by_cases same : id = item
          · exact .inr (congrArg _ same)
          · exact .inl (by simpa [Located,Tree.parentOf,taken_tree consistent,Tree.taken_parent,same] using located)
    · rw [taken_tree consistent] at attached
      exact reports.2 (by simpa using unconnected) (Tree.Under.mono (s.tree.taken_subset item) attached)
    · rw [taken_tree consistent,Tree.taken_members consistent member]
      exact bound (by simpa using connected)

theorem setMembers_consistent (consistent : s.tree.Consistent) {others : List Id} (perm : others.Perm (s.tree.members g)) :
    (s.tree.setMembers g others).Consistent ∧
      ∀ h x, x ∈ (s.tree.setMembers g others).members h ↔ x ∈ s.tree.members h := by
  have sameMembers (h : TaskGroup) (x : Id) : x ∈ (s.tree.setMembers g others).members h ↔ x ∈ s.tree.members h := by
    by_cases here : h = g
    · subst here
      rw [Tree.setMembers_self]
      exact perm.mem_iff
    · rw [Tree.setMembers_other here]
  refine ⟨⟨fun x h => (consistent.parent x h).trans (sameMembers h x).symm,fun h => ?_⟩,sameMembers⟩
  by_cases here : h = g
  · subst here
    rw [Tree.setMembers_self]
    exact perm.nodup_iff.mpr (consistent.nodup h)
  · rw [Tree.setMembers_other here]
    exact consistent.nodup h

theorem move_told {oldIndex newIndex : Int} (connected : s.connected g = true) (located : s.Located g)
    (parent : s.tree.parentGroup item = some g) (closed : s.view.opened = none) (distinct : oldIndex ≠ newIndex)
    (t : Tree) : { s.emit g (.itemAboutToMove item oldIndex newIndex) with tree := t }.emit g .itemPositionChanged =
      { s with tree := t, view := s.view.close g (move (s.view.members g) oldIndex.toNat newIndex.toNat) } := by
  generalize is_child : (if newIndex > oldIndex then newIndex+1 else newIndex) = child
  have accepted : ¬(oldIndex ≤ child ∧ child ≤ oldIndex+1) := by
    split at is_child <;> omega
  have returned : (if child > oldIndex then child-1 else child) = newIndex := by
    split at is_child <;> split <;> omega
  rw [emit_told (by simpa using connected),emit_told connected]
  simp only [Tree.slot,parent,parentIdx_located located,View.hear,Copy.hear,Copy.begin,is_child,if_neg accepted,closed,
    if_true,returned,Copy.close]

theorem Shows.moveItem {oldIndex newIndex : Int} (shows : s.Shows hidden)
    (tells : 0 ≤ oldIndex ∧ oldIndex < (s.tree.members g).length ∧ 0 ≤ newIndex ∧
      newIndex < (s.tree.members g).length →
        (oldIndex ≠ newIndex → s.Reports g) ∧ (oldIndex = newIndex → s.connected g = false)) :
    (s.moveItem g oldIndex newIndex).1.Shows hidden := by
  rw [State.moveItem]
  split
  · exact shows
  · rename_i range
    obtain ⟨differs,equal⟩ := tells (by omega)
    cases found : (s.tree.members g)[oldIndex.toNat]? with
    | none => exact shows
    | some item =>
      have parent := (shows.consistent.parent item g).mpr (List.mem_of_getElem? found)
      obtain ⟨consistent,sameMembers⟩ := setMembers_consistent shows.consistent
        (move_perm (s.tree.members g) oldIndex.toNat newIndex.toNat)
      simp only [emit_tree]
      cases connected : s.connected g with
      | true =>
        have distinct : oldIndex ≠ newIndex := fun same => by
          rw [equal same] at connected
          cases connected
        obtain ⟨idle,located⟩ := (differs distinct).1 connected
        rw [move_told connected located parent (shows.closed idle) distinct]
        refine shows.told idle consistent (fun _ _ => rfl) rfl rfl fun h attached shown => ?_
        have before : s.tree.Attached h := Tree.Under.mono (fun h x => (sameMembers h x).mp) attached
        have copied := shows.copied idle before shown
        by_cases here : h = g
        · subst here
          simp only [Copy.close,update_self,copied,Tree.setMembers_self]
        · rw [Tree.setMembers_other here]
          exact (update_of_ne here ..).trans copied
      | false =>
        rw [emit_untold (by simpa using connected),emit_untold connected]
        by_cases same : oldIndex = newIndex
        · have kept : s.tree.setMembers g (move (s.tree.members g) oldIndex.toNat newIndex.toNat) = s.tree := by
            rw [← same,move_same,Tree.setMembers,update_eq_self]
          rw [kept]
          exact shows
        · exact shows.unattached ((differs same).2 connected) consistent (fun _ _ => rfl)
            fun h other => Tree.setMembers_other other _

theorem signalRemovals_nothing (nothing : s.tree.signalRemovalsFor g = []) : s.signalRemovals g = s := by
  rw [State.signalRemovals,nothing,List.foldl_nil,← nothing,update_eq_self]

theorem Shows.signalRemovals (shows : s.Shows hidden) (g : TaskGroup) : (s.signalRemovals g).Shows hidden := by
  cases connected : s.connected g with
  | false =>
    have untold : ∀ items : List Id, items.foldl (fun s _ => s.emit g .itemRemoved) s = s := by
      intro items
      induction items with
      | nil => rfl
      | cons x items ih => rw [List.foldl_cons,emit_untold connected,ih]
    rw [State.signalRemovals,untold]
    refine shows.quiet ⟨shows.consistent.parent,shows.consistent.nodup⟩ (fun h told => ?_)
      fun h attached _ => ⟨attached,rfl⟩
    refine update_of_ne ?_ ..
    rintro rfl
    rw [connected] at told
    cases told
  | true =>
    rcases shows.rows with ⟨-,idle⟩ | ⟨k,p,row,x,opened,-,outstanding,others⟩
    · rwa [signalRemovals_nothing (idle g connected)]
    · by_cases here : g = k
      · subst here
        rw [State.signalRemovals,outstanding,List.foldl_cons,List.foldl_nil,emit_told connected]
        simp only [Tree.slot,View.hear,Copy.hear,opened]
        refine ⟨⟨shows.consistent.parent,shows.consistent.nodup⟩,shows.sound,fun h attached shown => ?_,
          .inl ⟨rfl,fun h told => ?_⟩⟩
        · have same := shows.same h attached shown
          rw [Copy.settled,opened] at same
          exact same
        · by_cases same : h = g
          · exact same ▸ update_self ..
          · exact (update_of_ne same ..).trans (others h told same)
      · rwa [signalRemovals_nothing (others g connected here)]

theorem destroy_connected (s : State Copy) (item : Id) :
    (s.destroy item).connected = Function.update s.connected (.item item) false := by
  cases parent : s.tree.parentGroup item <;> simp [State.destroy,itemDestroyed,parent]

theorem destroy_parent (s : State Copy) (item x : Id) : (s.destroy item).tree.parentGroup x =
    if x = item ∨ s.tree.parentGroup x = some (.item item) then none else s.tree.parentGroup x := by
  cases parent : s.tree.parentGroup item <;> simp [State.destroy,itemDestroyed,parent]

theorem destroy_members (s : State Copy) (item : Id) (h : TaskGroup) : (s.destroy item).tree.members h =
    if h = .item item then [] else if s.tree.parentGroup item = some h then (s.tree.members h).filter (· ≠ item)
      else s.tree.members h := by
  cases parent : s.tree.parentGroup item with
  | none => simp [State.destroy,parent,update_apply]
  | some g =>
    by_cases here : h = g
    · subst here
      simp [State.destroy,itemDestroyed,parent,update_apply,Tree.without,Tree.setMembers]
    · simp [State.destroy,itemDestroyed,parent,update_apply,Tree.without,Tree.setMembers,here,Ne.symm here]

theorem destroy_signalRemovalsFor (s : State Copy) (item : Id) (h : TaskGroup) :
    (s.destroy item).tree.signalRemovalsFor h =
      if h = .item item then [] else if s.tree.parentGroup item = some h then s.tree.signalRemovalsFor h++[item]
        else s.tree.signalRemovalsFor h := by
  cases parent : s.tree.parentGroup item with
  | none => simp [State.destroy,parent,update_apply]
  | some g =>
    by_cases here : h = g
    · subst here
      simp [State.destroy,itemDestroyed,parent,update_apply]
    · simp [State.destroy,itemDestroyed,parent,update_apply,here,Ne.symm here]

theorem destroy_view (s : State Copy) (item : Id) : (s.destroy item).view =
    match s.tree.parentGroup item with
    | some g => (s.emit g (.itemAboutToBeRemoved item)).view
    | none => s.view := by
  cases parent : s.tree.parentGroup item <;> simp [State.destroy,itemDestroyed,parent]

theorem mem_destroy (consistent : s.tree.Consistent) {h : TaskGroup} {x : Id} :
    x ∈ (s.destroy item).tree.members h ↔ x ∈ s.tree.members h ∧ x ≠ item ∧ h ≠ .item item := by
  rw [destroy_members]
  split
  · rename_i own
    simp [own]
  · rename_i other
    split
    · simp [other]
    · rename_i elsewhere
      refine ⟨fun member => ⟨member,?_,other⟩,And.left⟩
      rintro rfl
      exact elsewhere ((consistent.parent x h).mpr member)

theorem destroy_consistent (consistent : s.tree.Consistent) (item : Id) : (s.destroy item).tree.Consistent := by
  constructor
  · intro x h
    rw [mem_destroy consistent,destroy_parent,← consistent.parent]
    split
    · rename_i gone
      refine ⟨(nomatch ·),fun ⟨parent,other,elsewhere⟩ => ?_⟩
      rcases gone with same | inside
      · exact absurd same other
      · rw [parent] at inside
        exact absurd (some.inj inside) elsewhere
    · rename_i kept
      refine ⟨fun parent => ⟨parent,fun same => kept (.inl same),?_⟩,And.left⟩
      rintro rfl
      exact kept (.inr parent)
  · intro h
    rw [destroy_members]
    split
    · exact List.nodup_nil
    · split
      · exact (consistent.nodup h).filter _
      · exact consistent.nodup h

theorem Shows.destroy (shows : s.Shows hidden)
    (tells : ∀ g, s.tree.parentGroup item = some g → s.Reports g ∧ g ≠ .item item)
    (settles : s.connected (.item item) = true → s.tree.signalRemovalsFor (.item item) = []) :
    (s.destroy item).Shows hidden := by
  have consistent := destroy_consistent shows.consistent item
  have before {h : TaskGroup} (attached : (s.destroy item).tree.Attached h) : s.tree.Attached h :=
    Tree.Under.mono (fun h x member => ((mem_destroy shows.consistent).mp member).1) attached
  have gone {h : TaskGroup} (attached : (s.destroy item).tree.Attached h) : h ≠ .item item := by
    rintro rfl
    obtain ⟨g,parent⟩ := consistent.attached_parent attached
    rw [destroy_parent,if_pos (.inl rfl)] at parent
    cases parent
  have still {h : TaskGroup} (connected : (s.destroy item).connected h = true) : s.connected h = true ∧ h ≠ .item item := by
    rw [destroy_connected,update_apply] at connected
    split at connected
    · cases connected
    · rename_i other
      exact ⟨connected,other⟩
  -- Where nothing is told, the group is not one of the tree and no end of a removal is waited for in it.
  have untold (apart : ∀ g, s.tree.parentGroup item = some g → s.connected g = false ∧ ¬s.tree.Attached g)
      (view : (s.destroy item).view = s.view) : (s.destroy item).Shows hidden := by
    have removals {h : TaskGroup} (connected : s.connected h = true) (other : h ≠ .item item) :
        (s.destroy item).tree.signalRemovalsFor h = s.tree.signalRemovalsFor h := by
      rw [destroy_signalRemovalsFor,if_neg other,if_neg fun parent => ?_]
      rw [(apart h parent).1] at connected
      cases connected
    refine ⟨consistent,view ▸ shows.sound,fun h attached shown => ?_,?_⟩
    · rw [view,destroy_members,if_neg (gone attached),if_neg fun parent => (apart h parent).2 (before attached)]
      exact shows.same h (before attached) shown
    · rw [view]
      rcases shows.rows with ⟨closed,idle⟩ | ⟨k,p,row,x,opened,connected,outstanding,others⟩
      · refine .inl ⟨closed,fun h connected => ?_⟩
        rw [removals (still connected).1 (still connected).2]
        exact idle h (still connected).1
      · have other : k ≠ .item item := by
          rintro rfl
          rw [settles connected] at outstanding
          cases outstanding
        refine .inr ⟨k,p,row,x,opened,?_,(removals connected other).trans outstanding,fun h is_connected differs => ?_⟩
        · rw [destroy_connected,update_of_ne other]
          exact connected
        · rw [removals (still is_connected).1 (still is_connected).2]
          exact others h (still is_connected).1 differs
  cases parent : s.tree.parentGroup item with
  | none =>
    refine untold (fun g parented => ?_) (by rw [destroy_view,parent])
    rw [parent] at parented
    cases parented
  | some g =>
    obtain ⟨reports,other⟩ := tells g parent
    cases connected : s.connected g with
    | false =>
      refine untold (fun k parented => ?_) ?_
      · rw [parent] at parented
        cases parented
        exact ⟨connected,reports.2 connected⟩
      · simp only [destroy_view,parent]
        rw [emit_untold connected]
    | true =>
      obtain ⟨idle,located⟩ := reports.1 connected
      have closed := shows.closed idle
      have told : (s.destroy item).view =
          { s.view with opened := some (.beginRemoveRows g ((s.tree.members g).idxOf item : Nat)) } := by
        simp only [destroy_view,parent]
        rw [emit_told connected]
        simp [Tree.slot,parentIdx_located located,Tree.indexOf,parent,View.hear,Copy.hear,Copy.begin,closed]
      refine ⟨consistent,by rw [told]; exact shows.sound,fun h attached shown => ?_,?_⟩
      · have copied := shows.copied idle (before attached) shown
        rw [told,destroy_members,if_neg (gone attached),parent]
        by_cases here : h = g
        · subst here
          simp only [Copy.settled,update_self,copied,if_true,Int.toNat_natCast]
          exact eraseIdx_idxOf (shows.consistent.nodup h)
        · rw [if_neg fun same => here (some.inj same).symm]
          exact (update_of_ne here ..).trans copied
      · refine .inr ⟨g,g,_,item,by rw [told],?_,?_,fun h is_connected differs => ?_⟩
        · rw [destroy_connected,update_of_ne other]
          exact connected
        · rw [destroy_signalRemovalsFor,if_neg other,if_pos parent,idle g connected]
          rfl
        · have kept : s.tree.parentGroup item ≠ some h := by
            rw [parent]
            exact fun same => differs (some.inj same).symm
          rw [destroy_signalRemovalsFor,if_neg (still is_connected).2,if_neg kept]
          exact idle h (still is_connected).1

end State

end KdeWorkspace.TasksModel
