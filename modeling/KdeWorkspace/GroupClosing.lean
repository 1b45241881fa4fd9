import KdeWorkspace.TaskRows
import Mathlib.Data.List.TakeWhile

/-!
A group that is created from tasks of one group, and closed again.

The tasks go to the new group one by one, and the group takes the place of the first of them
(`createGroup_places`). When it is closed they are put back one by one, each at the index that the group has
had, so each in front of the one before it (`closeGroup_reverses`).
-/
namespace KdeWorkspace.TasksModel
open List
namespace State

variable {V : Type} [View V] {s u : State V} {g h old : TaskGroup} {item x : Id} {insertIndex : Int}

@[simp] theorem add_manager (s : State V) (g : TaskGroup) (item : Id) (insertIndex : Int) :
    (s.add g item insertIndex).manager = s.manager := by
  by_cases member : item ∈ s.tree.members g
  · rw [add_member member]
  · rw [add_absent member]
    cases parent : s.tree.parentGroup item with
    | none => simp [taken,parent,insertItem]
    | some old =>
      by_cases there : item ∈ s.tree.members old
      · simp [taken,parent,insertItem,remove,there]
      · simp [taken,parent,insertItem,remove,there]

theorem taken_itemType (t : Tree) (item : Id) : (t.taken item).itemType = t.itemType := by
  cases parent : t.parentGroup item with
  | none => simp [Tree.taken,parent]
  | some old => simp [Tree.taken,parent,Tree.without,Tree.setMembers,Tree.setParentGroup]

theorem add_itemType (consistent : s.tree.Consistent) : (s.add g item insertIndex).tree.itemType = s.tree.itemType := by
  by_cases member : item ∈ s.tree.members g
  · rw [add_member member]
  · obtain ⟨index,tree⟩ := add_tree consistent member insertIndex
    rw [tree]
    exact taken_itemType s.tree item

theorem add_consistent (consistent : s.tree.Consistent) : (s.add g item insertIndex).tree.Consistent := by
  by_cases member : item ∈ s.tree.members g
  · rwa [add_member member]
  · obtain ⟨index,tree⟩ := add_tree consistent member insertIndex
    rw [tree,← Tree.taken_members consistent member]
    apply Tree.Consistent.insert consistent.taken
    rw [Tree.taken_parent,if_pos rfl]

theorem taken_manager (s : State V) (item : Id) : (s.taken item).manager = s.manager := by
  cases parent : s.tree.parentGroup item with
  | none => simp [taken,parent]
  | some old =>
    by_cases there : item ∈ s.tree.members old
    · simp [taken,parent,remove,there]
    · simp [taken,parent,remove,there]

theorem add_members_here (consistent : s.tree.Consistent) (absent : item ∉ s.tree.members g) (insertIndex : Int) :
    (s.add g item insertIndex).tree.members g = insert (s.tree.members g)
      (if insertIndex < 0 then (s.manager.indexFor (s.tree.taken item) g item : Int) else insertIndex).toNat item := by
  rw [add_absent absent,insertItem_tree,Tree.setMembers_self,taken_tree consistent,Tree.taken_members consistent absent,
    taken_manager]

theorem add_members_there (consistent : s.tree.Consistent) (parent : s.tree.parentGroup item = some old)
    (other : old ≠ g) (insertIndex : Int) :
    (s.add g item insertIndex).tree.members old = (s.tree.members old).filter (· ≠ item) := by
  have absent : item ∉ s.tree.members g := by
    intro member
    rw [(consistent.parent item g).mpr member] at parent
    exact other (Option.some.inj parent).symm
  obtain ⟨index,tree⟩ := add_tree consistent absent insertIndex
  rw [tree,Tree.setMembers_other other,Tree.taken,parent]
  simp [Tree.without,Tree.setMembers_self]

theorem indexFor_task {manager : GroupManager} {t : Tree} (separate : manager.separateLaunchers = true)
    (task : t.itemType item = .TaskItemType) : manager.indexFor t g item = (t.members g).length := by
  simp [GroupManager.indexFor,separate,task]

theorem insert_end (members : List Id) (item : Id) : insert members members.length item = members ++ [item] := by
  simp [insert]

theorem insert_front (front back : List Id) (item : Id) :
    insert (front ++ back) front.length item = front ++ item :: back := by
  simp [insert]

variable {items done : List Id} {newGroup : Id}

/-- Some of the items have gone from a group to the new one. -/
structure Moved (s : State V) (g : TaskGroup) (newGroup : Id) (done : List Id) (u : State V) : Prop where
  consistent : u.tree.Consistent
  types : u.tree.itemType = s.tree.itemType
  manager : u.manager = s.manager
  own : u.tree.members (.item newGroup) = done
  left : u.tree.members g = (s.tree.members g).filter (· ∉ done)
  parentless : u.tree.parentGroup newGroup = none

theorem Moved.add (moved : Moved s g newGroup done u) (other : g ≠ .item newGroup)
    (separate : s.manager.separateLaunchers = true) (task : s.tree.itemType item = .TaskItemType)
    (member : item ∈ s.tree.members g) (fresh : item ∉ done) (apart : newGroup ≠ item) :
    Moved s g newGroup (done ++ [item]) (u.add (.item newGroup) item (-1)) := by
  have here : item ∈ u.tree.members g := by
    rw [moved.left]
    exact mem_filter.mpr ⟨member,by simp [fresh]⟩
  have parent := (moved.consistent.parent item g).mpr here
  have absent : item ∉ u.tree.members (.item newGroup) := by rwa [moved.own]
  refine ⟨add_consistent moved.consistent,(add_itemType moved.consistent).trans moved.types,
    (add_manager ..).trans moved.manager,?_,?_,?_⟩
  · have ends : u.manager.indexFor (u.tree.taken item) (.item newGroup) item = done.length := by
      rw [indexFor_task (by rw [moved.manager,separate]) (by rw [taken_itemType,moved.types,task]),
        Tree.taken_members moved.consistent absent,moved.own]
    rw [add_members_here moved.consistent absent,if_pos (by decide),ends,moved.own,Int.toNat_natCast]
    exact insert_end done item
  · rw [add_members_there moved.consistent parent other,moved.left,filter_filter]
    apply filter_congr
    intro x _
    simp [and_comm]
  · rw [add_parent moved.consistent,if_neg apart]
    exact moved.parentless

theorem Moved.fold (more : List Id) (moved : Moved s g newGroup done u) (other : g ≠ .item newGroup)
    (separate : s.manager.separateLaunchers = true) (tasks : ∀ item ∈ more, s.tree.itemType item = .TaskItemType)
    (members : ∀ item ∈ more, item ∈ s.tree.members g) (nodup : (done ++ more).Nodup) (apart : newGroup ∉ more) :
    Moved s g newGroup (done ++ more) (more.foldl (fun s item => s.add (.item newGroup) item (-1)) u) := by
  induction more generalizing done u with
  | nil =>
    rw [append_nil]
    exact moved
  | cons item more ih =>
    have same : done ++ item :: more = done ++ [item] ++ more := by simp
    have fresh : item ∉ done := by
      intro twice
      exact (nodup_append.mp nodup).2.2 item twice item mem_cons_self rfl
    have distinct : newGroup ≠ item := by
      rintro rfl
      exact apart mem_cons_self
    rw [same] at nodup ⊢
    exact ih (moved.add other separate (tasks item mem_cons_self) (members item mem_cons_self) fresh distinct)
      (fun x mem => tasks x (mem_cons_of_mem item mem)) (fun x mem => members x (mem_cons_of_mem item mem)) nodup
      (fun mem => apart (mem_cons_of_mem item mem))

theorem firstIndex_ge {front members items : List Id} {index : Nat} (least : front.length ≤ index)
    (behind : ∀ item ∈ items, item ∉ front) (starts : front <+: members) :
    front.length ≤ items.foldl (fun index item =>
      if item ∈ members ∧ members.idxOf item < index then members.idxOf item else index) index := by
  induction items generalizing index with
  | nil => exact least
  | cons item items ih =>
    rw [foldl_cons]
    apply ih
    · split
      · obtain ⟨back,rfl⟩ := starts
        rw [idxOf_append_of_notMem (behind item mem_cons_self)]
        exact Nat.le_add_right _ _
      · exact least
    · exact fun x mem => behind x (mem_cons_of_mem item mem)

theorem firstIndex_first {front : List Id} {first : Id} (inside : first ∈ items)
    (behind : ∀ item ∈ items, item ∉ front) (back : List Id) : firstIndex (front ++ first :: back) items = front.length := by
  apply Nat.le_antisymm
  · have bound := (firstIndex_bound (front ++ first :: back) items (front ++ first :: back).length).2 first inside
      (mem_append_right front mem_cons_self)
    rw [idxOf_append_of_notMem (behind first inside),idxOf_cons_self,Nat.add_zero] at bound
    exact bound
  · exact firstIndex_ge (by simp) behind ⟨first :: back,rfl⟩

theorem oldGroup_eq {t : Tree} {first : Id} {others : List Id} (parent : t.parentGroup first = some g)
    (located : g = .rootGroup ∨ (t.parentOf g).isSome) : oldGroup t (first :: others) = g := by
  rw [oldGroup,isGrouped,parent]
  rcases located with rfl | grouped
  · simp [Tree.parentOf]
  · simp [grouped]

/-- The members in front of the first of the items. -/
def front (members items : List Id) : List Id := members.takeWhile (· ∉ items)

/-- The members behind the first of the items, without the others. -/
def back (members items : List Id) : List Id := (members.dropWhile (· ∉ items)).filter (· ∉ items)

theorem front_apart (members items : List Id) : ∀ x ∈ front members items, x ∉ items := by
  intro x mem
  have kept := mem_takeWhile_imp mem
  rwa [decide_eq_true_iff] at kept

theorem left_eq (members items : List Id) : members.filter (· ∉ items) = front members items ++ back members items := by
  have parts : members = members.takeWhile (· ∉ items) ++ members.dropWhile (· ∉ items) :=
    takeWhile_append_dropWhile.symm
  calc members.filter (· ∉ items)
    _ = (members.takeWhile (· ∉ items) ++ members.dropWhile (· ∉ items)).filter (· ∉ items) := by rw [← parts]
    _ = front members items ++ back members items := by
      rw [filter_append]
      congr 1
      exact filter_eq_self.mpr fun x mem => decide_eq_true (front_apart members items x mem)

theorem firstIndex_eq {members items : List Id} {x : Id} (inside : x ∈ items) (member : x ∈ members) :
    firstIndex members items = (front members items).length := by
  have parts : members.takeWhile (· ∉ items) ++ members.dropWhile (· ∉ items) = members := takeWhile_append_dropWhile
  have apart := front_apart members items
  cases rest : members.dropWhile (· ∉ items) with
  | nil =>
    rw [rest,append_nil] at parts
    rw [← parts] at member
    exact absurd inside (apart x member)
  | cons first others =>
    have stops : first ∈ items := by
      have filled : members.dropWhile (· ∉ items) ≠ [] := by
        rw [rest]
        exact cons_ne_nil _ _
      have head := head_dropWhile_not (· ∉ items) filled
      simp only [rest,head_cons] at head
      simpa using head
    rw [rest] at parts
    have place := firstIndex_first stops (fun item mem inFront => apart item inFront mem) others
    rw [← parts]
    rw [front] at place ⊢
    rw [parts] at place ⊢
    exact place

/-- Tasks of a group of the tree in their order, and a new object to be their group. -/
structure Selected (s : State V) (g : TaskGroup) (items : List Id) (newGroup : Id) : Prop where
  consistent : s.tree.Consistent
  located : s.Located g
  separate : s.manager.separateLaunchers = true
  tasks : ∀ item ∈ items, s.tree.itemType item = .TaskItemType
  inOrder : items.Sublist (s.tree.members g)
  empty : s.tree.members (.item newGroup) = []
  parentless : s.tree.parentGroup newGroup = none

/-- The new group has the items, and the place of the first of them. -/
structure Created (s : State V) (g : TaskGroup) (items : List Id) (newGroup : Id) (u : State V) : Prop where
  consistent : u.tree.Consistent
  own : u.tree.members (.item newGroup) = items
  placed : u.tree.members g = front (s.tree.members g) items ++ newGroup :: back (s.tree.members g) items
  parent : u.tree.parentGroup newGroup = some g

omit [View V] in
theorem Selected.outside (selected : Selected s g items newGroup) : newGroup ∉ s.tree.members g := by
  intro member
  have parent := (selected.consistent.parent newGroup g).mpr member
  rw [selected.parentless] at parent
  cases parent

omit [View V] in
theorem Selected.other (selected : Selected s g items newGroup) (some_items : items ≠ []) : g ≠ .item newGroup := by
  rintro rfl
  have none := selected.inOrder
  rw [selected.empty] at none
  exact some_items (sublist_nil.mp none)

theorem createGroup_places (selected : Selected s g items newGroup) (some_items : items ≠ []) :
    Created s g items newGroup (s.createGroup items newGroup) := by
  obtain ⟨first,others,rfl⟩ := exists_cons_of_ne_nil some_items
  have outside := selected.outside
  have other := selected.other some_items
  have first_member : first ∈ s.tree.members g := selected.inOrder.subset mem_cons_self
  have old : oldGroup s.tree (first :: others) = g :=
    oldGroup_eq ((selected.consistent.parent first g).mpr first_member) selected.located
  have start : Moved s g newGroup [] s :=
    ⟨selected.consistent,rfl,rfl,selected.empty,(filter_eq_self.mpr (by simp)).symm,selected.parentless⟩
  have moved := start.fold (first :: others) other selected.separate selected.tasks
    (fun x mem => selected.inOrder.subset mem) (selected.inOrder.nodup (selected.consistent.nodup g))
    (fun mem => outside (selected.inOrder.subset mem))
  rw [nil_append] at moved
  rw [createGroup,old,firstIndex_eq mem_cons_self first_member]
  generalize (first :: others).foldl (fun s item => s.add (.item newGroup) item (-1)) s = u at moved
  have absent : newGroup ∉ u.tree.members g := by
    intro member
    rw [moved.left] at member
    exact outside (mem_filter.mp member).1
  refine ⟨add_consistent moved.consistent,?_,?_,?_⟩
  · obtain ⟨index,tree⟩ := add_tree moved.consistent absent ((front (s.tree.members g) (first :: others)).length : Int)
    rw [tree,Tree.setMembers_other other.symm,Tree.setParentGroup_members,Tree.taken,moved.parentless]
    exact moved.own
  · rw [add_members_here moved.consistent absent,if_neg (by omega),Int.toNat_natCast,moved.left,left_eq]
    exact insert_front _ _ newGroup
  · rw [add_parent moved.consistent,if_pos rfl]

/-- Some of the items are in front of the group again, the last one first. -/
structure Returned (g : TaskGroup) (newGroup : Id) (items front back done : List Id) (u : State V) : Prop where
  consistent : u.tree.Consistent
  own : u.tree.members (.item newGroup) = items.filter (· ∉ done)
  placed : u.tree.members g = front ++ (done.reverse ++ newGroup :: back)

theorem Returned.add {front back : List Id} (returned : Returned g newGroup items front back done u)
    (other : g ≠ .item newGroup) (member : item ∈ items) (fresh : item ∉ done) :
    Returned g newGroup items front back (done ++ [item]) (u.add g item front.length) := by
  have here : item ∈ u.tree.members (.item newGroup) := by
    rw [returned.own]
    exact mem_filter.mpr ⟨member,by simp [fresh]⟩
  have parent := (returned.consistent.parent item _).mpr here
  have absent : item ∉ u.tree.members g := by
    intro there
    rw [(returned.consistent.parent item g).mpr there] at parent
    exact other (Option.some.inj parent)
  refine ⟨add_consistent returned.consistent,?_,?_⟩
  · rw [add_members_there returned.consistent parent other.symm,returned.own,filter_filter]
    apply filter_congr
    intro x _
    simp [and_comm]
  · rw [add_members_here returned.consistent absent,if_neg (by omega),Int.toNat_natCast,returned.placed,insert_front]
    simp

theorem Returned.fold {front back : List Id} (more : List Id) (returned : Returned g newGroup items front back done u)
    (other : g ≠ .item newGroup) (members : ∀ item ∈ more, item ∈ items) (nodup : (done ++ more).Nodup) :
    Returned g newGroup items front back (done ++ more) (more.foldl (fun s item => s.add g item front.length) u) := by
  induction more generalizing done u with
  | nil =>
    rw [append_nil]
    exact returned
  | cons item more ih =>
    have same : done ++ item :: more = done ++ [item] ++ more := by simp
    have fresh : item ∉ done := by
      intro twice
      exact (nodup_append.mp nodup).2.2 item twice item mem_cons_self rfl
    rw [same] at nodup ⊢
    exact ih (returned.add other (members item mem_cons_self) fresh)
      (fun x mem => members x (mem_cons_of_mem item mem)) nodup

theorem closeGroup_reverses (selected : Selected s g items newGroup) (some_items : items ≠ [])
    (created : Created s g items newGroup u) :
    (u.closeGroup newGroup).tree.members g =
      front (s.tree.members g) items ++ items.reverse ++ back (s.tree.members g) items := by
  have outside := selected.outside
  have other := selected.other some_items
  have member : newGroup ∈ u.tree.members g := (created.consistent.parent newGroup g).mp created.parent
  have notFront : newGroup ∉ front (s.tree.members g) items := fun mem => outside (takeWhile_subset _ mem)
  have notBack : newGroup ∉ back (s.tree.members g) items :=
    fun mem => outside ((dropWhile_suffix _).subset (mem_filter.mp mem).1)
  have notItem : newGroup ∉ items := fun mem => outside (selected.inOrder.subset mem)
  have index : (u.tree.members g).idxOf newGroup = (front (s.tree.members g) items).length := by
    rw [created.placed,idxOf_append_of_notMem notFront,idxOf_cons_self,Nat.add_zero]
  have start : Returned g newGroup items (front (s.tree.members g) items) (back (s.tree.members g) items) [] u :=
    ⟨created.consistent,by rw [created.own]; exact (filter_eq_self.mpr (by simp)).symm,created.placed⟩
  have nodup : ([] ++ items).Nodup := selected.inOrder.nodup (selected.consistent.nodup g)
  have returned := start.fold items other (fun x mem => mem) nodup
  rw [closeGroup,created.parent,Option.getD_some,if_pos member,index,created.own]
  generalize items.foldl (fun w item => w.add g item ((front (s.tree.members g) items).length : Int)) u = v at returned ⊢
  rw [nil_append] at returned
  have there : newGroup ∈ v.tree.members g := by
    rw [returned.placed]
    exact mem_append_right _ (mem_append_right _ mem_cons_self)
  have kept : ∀ l : List Id, newGroup ∉ l → l.filter (· ≠ newGroup) = l := by
    intro l absent
    apply filter_eq_self.mpr
    intro x mem
    apply decide_eq_true
    rintro rfl
    exact absent mem
  rw [remove_tree v there,Tree.setParentGroup_members,Tree.without,Tree.setMembers_self,returned.placed]
  rw [filter_append,filter_append,kept _ notFront,kept _ (fun mem => notItem (mem_reverse.mp mem)),
    filter_cons_of_neg (by simp),kept _ notBack,append_assoc]

/-- The group holds the items in their order at the place of the first of them, and when it is closed again the items
are there in their order, with the other members as before. -/
def Restores (s : State V) (g : TaskGroup) (items : List Id) (newGroup : Id) : Prop :=
  ((s.createGroup items newGroup).tree.members (.item newGroup) = items ∧
    (s.createGroup items newGroup).tree.members g =
      front (s.tree.members g) items ++ newGroup :: back (s.tree.members g) items) ∧
  ((s.createGroup items newGroup).closeGroup newGroup).tree.members g =
    front (s.tree.members g) items ++ items ++ back (s.tree.members g) items

theorem reverse_eq_iff {items : List Id} (nodup : items.Nodup) : items.reverse = items ↔ items.length ≤ 1 := by
  cases items with
  | nil => simp
  | cons first others =>
    constructor
    · intro same
      by_contra long
      cases others with
      | nil => exact long (Nat.le_refl _)
      | cons second others =>
        -- the last item would be the first one
        have last : (first :: second :: others).getLast? = some first := by
          rw [← head?_reverse,same]
          rfl
        rw [getLast?_cons_cons] at last
        exact (nodup_cons.mp nodup).1 (mem_of_getLast? last)
    · intro short
      have none : others = [] := length_eq_zero_iff.mp (by simpa using short)
      rw [none]
      rfl

/-- Exactly a single task comes back as it has been; more of them come back in the opposite order. -/
theorem restores_iff (selected : Selected s g items newGroup) (some_items : items ≠ []) :
    Restores s g items newGroup ↔ items.length = 1 := by
  have created := createGroup_places selected some_items
  have closed := closeGroup_reverses selected some_items created
  have nodup : items.Nodup := selected.inOrder.nodup (selected.consistent.nodup g)
  have filled := length_pos_iff.mpr some_items
  have single : items.length = 1 ↔ items.length ≤ 1 := by omega
  rw [single,← reverse_eq_iff nodup,Restores,closed]
  constructor
  · rintro ⟨-,same⟩
    exact append_cancel_left (append_cancel_right same)
  · intro same
    rw [same]
    exact ⟨⟨created.own,created.placed⟩,rfl⟩

open Reached (twoTasks twoTasks_proper)

/-- The two tasks, with launchers apart from them. -/
def separateTasks : State Copy := populateModel twoTasks ⟨true,fun _ => -1⟩ 0 ⟨twoTasks.members,none,false⟩

theorem twoTasks_selected (items : List Id) (inOrder : items.Sublist [1,2]) :
    Selected separateTasks .rootGroup items 3 := by
  refine ⟨twoTasks_proper.1,.inl rfl,rfl,?_,inOrder,rfl,rfl⟩
  intro item mem
  have one : item ∈ [1,2] := inOrder.subset mem
  revert one
  simp only [mem_cons,not_mem_nil,or_false]
  rintro (rfl | rfl) <;> rfl

/-- A group of two tasks that is closed again has changed their order. -/
theorem two_tasks_swapped :
    separateTasks.tree.members .rootGroup = [1,2] ∧
      ((separateTasks.createGroup [1,2] 3).closeGroup 3).tree.members .rootGroup = [2,1] ∧
      ¬ Restores separateTasks .rootGroup [1,2] 3 := by
  have selected := twoTasks_selected [1,2] (List.Sublist.refl _)
  have closed := closeGroup_reverses selected (by decide) (createGroup_places selected (by decide))
  refine ⟨rfl,closed,?_⟩
  rintro ⟨-,same⟩
  have equal : ([2,1] : List Id) = [1,2] := closed.symm.trans same
  revert equal
  decide

theorem one_task_restored : Restores separateTasks .rootGroup [2] 3 :=
  (restores_iff (twoTasks_selected [2] (by decide)) (by decide)).mpr rfl

end State
end KdeWorkspace.TasksModel
