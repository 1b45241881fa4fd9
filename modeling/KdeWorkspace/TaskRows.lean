import KdeWorkspace.TaskViews

/-!
The rows of the task bar over whole runs.

`createGroup` fills the new group before it puts it into the tree, where it is read; `closeGroup` empties a group that
the model may not be connected to, and takes it out of the tree. `Reached.announced` is about every order of the
operations.
-/
namespace KdeWorkspace.TasksModel
open List
namespace State

section
variable {members items : List Id} {item x : Id} {index : Nat}

theorem firstIndex_bound (members items : List Id) (index : Nat) :
    items.foldl (fun index item => if item ∈ members ∧ members.idxOf item < index then members.idxOf item else index)
      index ≤ index ∧
    ∀ x ∈ items, x ∈ members → items.foldl (fun index item =>
      if item ∈ members ∧ members.idxOf item < index then members.idxOf item else index) index ≤ members.idxOf x := by
  induction items generalizing index with
  | nil => exact ⟨Nat.le_refl _,fun x member => nomatch member⟩
  | cons item items ih =>
    rw [foldl_cons]
    generalize is_next : (if item ∈ members ∧ members.idxOf item < index then members.idxOf item else index) = next
    have below : next ≤ index := by
      split at is_next <;> omega
    obtain ⟨le,each⟩ := ih next
    refine ⟨Nat.le_trans le below,fun x inside member => ?_⟩
    rcases mem_cons.mp inside with rfl | later
    · refine Nat.le_trans le ?_
      split at is_next
      · exact Nat.le_of_eq is_next.symm
      · rename_i far
        have reached : ¬members.idxOf x < index := fun near => far ⟨member,near⟩
        omega
    · exact each x later member

theorem firstIndex_le (members items : List Id) : firstIndex members items ≤ members.length :=
  (firstIndex_bound members items _).1

theorem not_mem_front (nodup : members.Nodup) (inside : x ∈ items) : x ∉ members.take (firstIndex members items) := by
  intro member
  obtain ⟨j,bound,rfl⟩ := mem_iff_getElem.mp member
  rw [length_take] at bound
  have le := (firstIndex_bound members items members.length).2 _ inside (mem_of_mem_take member)
  rw [getElem_take,nodup.idxOf_getElem] at le
  rw [firstIndex] at bound
  omega

end

/-- While the new group is filled. -/
structure Filling (hidden : TaskGroup → Prop) (s : State Copy) (items : List Id) (newGroup : Id) (old : TaskGroup)
    (u : State Copy) : Prop where
  shows : u.Shows hidden
  connected : u.connected = s.connected
  apart : ¬u.tree.Attached (.item newGroup)
  reports : ∀ h, s.Reports h → u.Reports h
  parents : ∀ x ∈ items, u.tree.parentGroup x = some (.item newGroup) ∨ u.tree.parentGroup x = s.tree.parentGroup x
  parentless : u.tree.parentGroup newGroup = none
  front : ((s.tree.members old).take (firstIndex (s.tree.members old) items)).Sublist (u.tree.members old)

variable {hidden : TaskGroup → Prop} {s u : State Copy} {items : List Id} {newGroup item : Id} {old : TaskGroup}

theorem add_front {front : List Id} (consistent : s.tree.Consistent) {g h : TaskGroup} (other : h ≠ g)
    (sublist : front.Sublist (s.tree.members h)) (absent : item ∉ front) (insertIndex : Int) :
    front.Sublist ((s.add g item insertIndex).tree.members h) := by
  by_cases member : item ∈ s.tree.members g
  · rwa [add_member member]
  · obtain ⟨index,tree⟩ := add_tree consistent member insertIndex
    rw [tree,Tree.setMembers_other other]
    cases parent : s.tree.parentGroup item with
    | none => simpa [Tree.taken,parent] using sublist
    | some from_group =>
      by_cases here : h = from_group
      · subst here
        have kept : front.filter (· ≠ item) = front :=
          filter_eq_self.mpr fun x inside => by
            have distinct : x ≠ item := fun same => absent (same ▸ inside)
            simp [distinct]
        have filtered := sublist.filter (· ≠ item)
        rw [kept] at filtered
        simpa [Tree.taken,parent,Tree.without,Tree.setMembers_self] using filtered
      · simpa [Tree.taken,parent,Tree.without,Tree.setMembers_other here] using sublist

theorem Filling.add (filling : Filling hidden s items newGroup old u) (nodup : (s.tree.members old).Nodup)
    (unconnected : s.connected (.item newGroup) = false) (fresh : newGroup ∉ items) (other : old ≠ .item newGroup)
    (tells : ∀ item ∈ items, ∀ old, s.tree.parentGroup item = some old → s.Reports old) (member : item ∈ items) :
    Filling hidden s items newGroup old (u.add (.item newGroup) item (-1)) := by
  have consistent := filling.shows.consistent
  have apart := filling.apart
  have newUnconnected : u.connected (.item newGroup) = false := by rw [filling.connected,unconnected]
  refine ⟨filling.shows.add fun absent => ⟨fun g parent => ?_,?_,fun connected => ?_⟩,?_,?_,fun h reports => ?_,
    fun x inside => ?_,?_,?_⟩
  · rcases filling.parents item member with new | before
    · rw [new] at parent
      cases parent
      exact absurd ((consistent.parent item _).mp new) absent
    · exact .inl (filling.reports g (tells item member g (before ▸ parent)))
  · exact ⟨fun connected => absurd connected (by simp [newUnconnected]),fun _ => apart⟩
  · rw [newUnconnected] at connected
    cases connected
  · rw [add_connected,filling.connected]
  · exact fun attached => apart (add_unattached consistent apart attached)
  · exact add_reports consistent (filling.reports h reports) (.inr apart)
  · rw [add_parent consistent]
    split
    · exact .inl rfl
    · exact filling.parents x inside
  · have distinct : newGroup ≠ item := fun same => fresh (same ▸ member)
    rw [add_parent consistent,if_neg distinct]
    exact filling.parentless
  · exact add_front consistent other filling.front (not_mem_front nodup member) _

theorem Filling.fold (start : Filling hidden s items newGroup old u) (nodup : (s.tree.members old).Nodup)
    (unconnected : s.connected (.item newGroup) = false) (fresh : newGroup ∉ items) (other : old ≠ .item newGroup)
    (tells : ∀ item ∈ items, ∀ old, s.tree.parentGroup item = some old → s.Reports old) :
    ∀ more : List Id, more ⊆ items → Filling hidden s items newGroup old
      (more.foldl (fun s item => s.add (.item newGroup) item (-1)) u) := by
  intro more sub
  induction more generalizing u with
  | nil => exact start
  | cons item more ih =>
    have next := start.add nodup unconnected fresh other tells (sub (mem_cons_self ..))
    exact ih next fun x member => sub (mem_cons_of_mem _ member)

theorem Shows.createGroup (shows : s.Shows hidden) (fresh : s.Fresh items newGroup)
    (tells : ∀ item ∈ items, ∀ old, s.tree.parentGroup item = some old → s.Reports old)
    (reports : s.Reports (oldGroup s.tree items)) : (s.createGroup items newGroup).Shows hidden := by
  obtain ⟨-,empty,parentless,unconnected,-,absent⟩ := fresh
  have consistent := shows.consistent
  have other : oldGroup s.tree items ≠ .item newGroup := by
    intro same
    cases items with
    | nil => cases same
    | cons first items =>
      rw [oldGroup] at same
      split at same
      · cases parent : s.tree.parentGroup first with
        | none => simp [parent] at same
        | some g =>
          rw [parent,Option.getD_some] at same
          have member := (consistent.parent first g).mp parent
          rw [same,empty] at member
          cases member
      · cases same
  have apart : ¬s.tree.Attached (.item newGroup) := fun attached => by
    obtain ⟨g,parent⟩ := consistent.attached_parent attached
    rw [parentless] at parent
    cases parent
  have nodup := consistent.nodup (oldGroup s.tree items)
  have start : Filling hidden s items newGroup (oldGroup s.tree items) s :=
    ⟨shows,rfl,apart,fun _ => id,fun _ _ => .inr rfl,parentless,take_sublist _ _⟩
  have filled := start.fold nodup unconnected absent other tells items (List.Subset.refl _)
  rw [State.createGroup]
  refine filled.shows.add fun _ => ⟨fun g parent => ?_,filled.reports _ reports,fun _ => ?_⟩
  · rw [filled.parentless] at parent
    cases parent
  · have length := filled.front.length_le
    rw [length_take_of_le (firstIndex_le _ _)] at length
    exact Int.ofNat_le.mpr length

theorem Shows.hiding {hides : TaskGroup → Prop} (shows : s.Shows hidden)
    (gone : ∀ g, s.tree.Attached g → hidden g → hides g) : s.Shows hides :=
  ⟨shows.consistent,shows.sound,fun g attached shown => shows.same g attached fun was => shown (gone g attached was),
    shows.rows⟩

/-- While the items of a group are put into its parent. -/
structure Emptying (s : State Copy) (group : Id) (parent : TaskGroup) (index : Int) (u : State Copy) : Prop where
  shows : u.Shows (· = .item group)
  connected : u.connected = s.connected
  reports : u.Reports parent
  tells : s.connected (.item group) = true → u.Idle ∧ u.Located (.item group)
  parents : ∀ x ∈ s.tree.members (.item group),
    u.tree.parentGroup x = some (.item group) ∨ u.tree.parentGroup x = some parent
  own : u.tree.parentGroup group = s.tree.parentGroup group
  fits : index ≤ (u.tree.members parent).length

variable {group : Id} {parent : TaskGroup} {index : Int}

theorem Emptying.add (emptying : Emptying s group parent index u) (member : item ∈ s.tree.members (.item group))
    (other : item ≠ group) : Emptying s group parent index (u.add parent item index) := by
  have consistent := emptying.shows.consistent
  have steady : u.connected parent = true ∨ ¬u.tree.Attached parent := by
    cases connected : u.connected parent with
    | true => exact .inl rfl
    | false => exact .inr (emptying.reports.2 connected)
  refine ⟨emptying.shows.add fun absent => ⟨fun g is_parent => ?_,emptying.reports,fun _ => emptying.fits⟩,?_,
    add_reports consistent emptying.reports steady,fun connected => ?_,fun x inside => ?_,?_,?_⟩
  · rcases emptying.parents item member with own | new
    · rw [own] at is_parent
      cases is_parent
      cases connected : u.connected (.item group) with
      | true =>
        refine .inl ⟨fun _ => emptying.tells (emptying.connected ▸ connected),fun unconnected => ?_⟩
        rw [connected] at unconnected
        cases unconnected
      | false => exact .inr ⟨rfl,rfl⟩
    · exact absurd ((consistent.parent item parent).mp new) absent
  · rw [add_connected,emptying.connected]
  · obtain ⟨idle,located⟩ := emptying.tells connected
    exact ⟨add_idle consistent idle,add_located consistent located⟩
  · rw [add_parent consistent]
    split
    · exact .inr rfl
    · exact emptying.parents x inside
  · rw [add_parent consistent,if_neg (Ne.symm other)]
    exact emptying.own
  · have length : (u.tree.members parent).length ≤ ((u.add parent item index).tree.members parent).length :=
      add_length consistent
    have fits := emptying.fits
    omega

theorem Emptying.fold (start : Emptying s group parent index u) (apart : group ∉ s.tree.members (.item group)) :
    ∀ items : List Id, items ⊆ s.tree.members (.item group) →
      Emptying s group parent index (items.foldl (fun s item => s.add parent item index) u) := by
  intro items sub
  induction items generalizing u with
  | nil => exact start
  | cons item items ih =>
    have member := sub (mem_cons_self ..)
    have next := start.add member fun same => apart (same ▸ member)
    exact ih next fun x inside => sub (mem_cons_of_mem _ inside)

theorem foldl_add_members (parent : TaskGroup) (index : Int) :
    ∀ items : List Id, items ⊆ s.tree.members parent → items.foldl (fun s item => s.add parent item index) s = s := by
  intro items sub
  induction items with
  | nil => rfl
  | cons item items ih =>
    rw [foldl_cons,add_member (sub (mem_cons_self ..))]
    exact ih fun x inside => sub (mem_cons_of_mem _ inside)

theorem Shows.closeGroup (shows : s.Shows fun _ => False)
    (tells : s.tree.members (.item group) ≠ [] ∨ (s.tree.parentGroup group).isSome →
      s.Reports ((s.tree.parentGroup group).getD .rootGroup))
    (own : s.tree.members (.item group) ≠ [] → s.connected (.item group) = true → s.Idle ∧ s.Located (.item group)) :
    (s.closeGroup group).Shows fun _ => False := by
  have consistent := shows.consistent
  rw [State.closeGroup]
  obtain ⟨parent,is_parent⟩ : ∃ parent, (s.tree.parentGroup group).getD .rootGroup = parent := ⟨_,rfl⟩
  simp only [is_parent] at tells ⊢
  generalize is_index : (if group ∈ s.tree.members parent then ((s.tree.members parent).idxOf group : Int) else -1) = index
  by_cases plain : s.tree.members (.item group) = [] ∨ parent = .item group
  · have unfilled : (s.tree.members (.item group)).foldl (fun s item => s.add parent item index) s = s := by
      refine foldl_add_members parent index _ fun x inside => ?_
      rcases plain with empty | self
      · rw [empty] at inside
        cases inside
      · rwa [self]
    rw [unfilled]
    refine shows.remove fun member => .inl (tells (.inr ?_))
    rw [(consistent.parent group parent).mpr member]
    rfl
  · obtain ⟨items,other⟩ := not_or.mp plain
    have apart : group ∉ s.tree.members (.item group) := fun member => by
      rw [(consistent.parent group _).mpr member] at is_parent
      exact other is_parent.symm
    have fits : index ≤ (s.tree.members parent).length := by
      have bound := idxOf_le_length (a := group) (l := s.tree.members parent)
      split at is_index <;> omega
    have start : Emptying s group parent index s :=
      ⟨shows.hiding fun _ _ none => none.elim,rfl,tells (.inl items),own items,
        fun x member => .inl ((consistent.parent x _).mpr member),rfl,fits⟩
    have emptied := start.fold apart (s.tree.members (.item group)) (List.Subset.refl _)
    generalize (s.tree.members (.item group)).foldl (fun s item => s.add parent item index) s = u at emptied
    have closed : (u.remove parent group).Shows (· = .item group) := emptied.shows.remove fun _ => .inl emptied.reports
    refine closed.hiding fun g attached same => ?_
    subst same
    obtain ⟨g,still⟩ := closed.consistent.attached_parent attached
    by_cases member : group ∈ u.tree.members parent
    · rw [remove_tree u member] at still
      simp [Tree.setParentGroup] at still
    · rw [State.remove,if_neg member,emptied.own] at still
      rw [still,Option.getD_some] at is_parent
      rw [← is_parent] at member
      exact member ((emptied.shows.consistent.parent group g).mp (emptied.own.trans still))

end State

/-- The groups below a group end before a depth. -/
def Tree.Ends (t : Tree) : Nat → TaskGroup → Prop
  | 0,g => ∀ x ∈ t.members g, t.itemType x ≠ .GroupItemType
  | depth+1,g => ∀ x ∈ t.members g, t.itemType x = .GroupItemType → t.Ends depth (.item x)

/-- What may be when the model is populated: no removal is outstanding. -/
structure Tree.Proper (t : Tree) (depth : Nat) : Prop where
  consistent : t.Consistent
  settled : ∀ g, t.signalRemovalsFor g = []
  ends : t.Ends depth .rootGroup

/-- The states after operations that the model can tell of. -/
inductive Reached : State Copy → Prop
  | populated (t : Tree) (manager : GroupManager) (depth : Nat) (proper : t.Proper depth) :
    Reached (populateModel t manager depth ⟨t.members,none,false⟩)
  | step {s : State Copy} {e : Event} (reached : Reached s) (possible : s.Possible e) (meets : s.Meets e) :
    Reached (s.after e)

namespace Reached
variable {s : State Copy}

theorem step_shows {e : Event} (shows : s.Shows fun _ => False) (possible : s.Possible e) (meets : s.Meets e) :
    (s.after e).Shows fun _ => False := by
  cases e with
  | add g item insertIndex =>
    refine shows.add fun absent => ?_
    obtain ⟨reports,own,fits⟩ := meets absent
    exact ⟨fun old parent => .inl (reports old parent),own,fits⟩
  | remove g item => exact shows.remove fun member => .inl (meets member)
  | moveItem g oldIndex newIndex => exact shows.moveItem meets
  | destroy item => exact shows.destroy meets.1 meets.2
  | signalRemovals g => exact shows.signalRemovals g
  | createGroup items newGroup => exact shows.createGroup possible meets.1 meets.2
  | closeGroup group => exact shows.closeGroup meets.1 meets.2
  | launchersChanged _ => exact ⟨shows.consistent,shows.sound,shows.same,shows.rows⟩

theorem shows (reached : Reached s) : s.Shows fun _ => False := by
  induction reached with
  | populated _ _ _ proper =>
    exact ⟨proper.consistent,rfl,fun _ _ _ => rfl,.inl ⟨rfl,fun g _ => proper.settled g⟩⟩
  | step _ possible meets ih => exact step_shows ih possible meets

/-- The calls fit, and a view has the members of every group in order. -/
theorem announced (reached : Reached s) :
    s.view.failed = false ∧ (∀ g, s.tree.Attached g → s.view.settled g = s.tree.members g) ∧
      (s.Idle → s.view.opened = none ∧ ∀ g, s.tree.Attached g → s.view.members g = s.tree.members g) :=
  have shows := reached.shows
  ⟨shows.sound,fun g attached => shows.same g attached id,
    fun idle => ⟨shows.closed idle,fun _ attached => shows.copied idle attached id⟩⟩

/-- Two tasks; the third item is to be a group. -/
def twoTasks : Tree where
  itemType x := if x = 3 then .GroupItemType else .TaskItemType
  members g := if g = .rootGroup then [1,2] else []
  parentGroup x := if x ∈ [1,2] then some .rootGroup else none
  signalRemovalsFor _ := []

/-- The model with the two tasks, and the view. -/
def ofTwoTasks : State Copy := populateModel twoTasks ⟨false,fun _ => -1⟩ 0 ⟨twoTasks.members,none,false⟩

theorem twoTasks_proper : twoTasks.Proper 0 := by
  refine ⟨⟨fun x g => ?_,fun g => ?_⟩,fun _ => rfl,by simp [Tree.Ends,twoTasks]⟩
  · by_cases root : g = .rootGroup
    · simp [twoTasks,root,or_iff_not_imp_left]
    · simp [twoTasks,root,Ne.symm root]
  · simp only [twoTasks]
    split <;> decide

theorem reports_root : ofTwoTasks.Reports .rootGroup :=
  ⟨fun _ => ⟨fun _ _ => rfl,.inl rfl⟩,fun unconnected => nomatch unconnected⟩

theorem reached_grouped (items : List Id) (absent : 3 ∉ items) : Reached (ofTwoTasks.after (.createGroup items 3)) := by
  have parents (x : Id) (old : TaskGroup) (parent : twoTasks.parentGroup x = some old) : old = .rootGroup := by
    simp only [twoTasks] at parent
    split at parent
    · exact (Option.some.inj parent).symm
    · cases parent
  refine .step (.populated _ _ _ twoTasks_proper) ⟨rfl,rfl,rfl,rfl,rfl,absent⟩ ⟨fun x _ old parent => ?_,?_⟩
  · rw [parents x old parent]
    exact reports_root
  · cases items with
    | nil => exact reports_root
    | cons first items =>
      have ungrouped : State.isGrouped twoTasks first = false := by
        cases parent : twoTasks.parentGroup first with
        | none => simp [State.isGrouped,parent]
        | some g => simp [State.isGrouped,parent,parents first g parent,Tree.parentOf]
      rw [State.oldGroup,if_neg (by exact Bool.eq_false_iff.mp ungrouped)]
      exact reports_root

theorem announced_grouped : (ofTwoTasks.after (.createGroup [1,2] 3)).view.members .rootGroup = [3] ∧
    (ofTwoTasks.after (.createGroup [1,2] 3)).view.members (.item 3) = [1,2] := by
  obtain ⟨-,-,copied⟩ := announced (reached_grouped [1,2] (by decide))
  obtain ⟨-,same⟩ := copied fun _ _ => rfl
  have root : (ofTwoTasks.after (.createGroup [1,2] 3)).tree.members .rootGroup = [3] := rfl
  exact ⟨same _ .refl,same _ (.single ⟨3,by rw [root]; simp,rfl⟩)⟩

/-- A task is put into a group that has been created since: the view loses it. -/
theorem created_unannounced : ∃ s : State Copy,
    s = (ofTwoTasks.after (.createGroup [1] 3)).after (.add (.item 3) 2 (-1)) ∧ twoTasks.Proper 0 ∧
      s.tree.Attached (.item 3) ∧ s.Idle ∧ s.tree.members (.item 3) = [1,2] ∧ s.view.members .rootGroup = [3] ∧
        s.view.members (.item 3) = [1] := by
  have shows := (reached_grouped [1] (by decide)).shows
  have before : (ofTwoTasks.after (.createGroup [1] 3)).tree.Attached (.item 3) := by
    have root : (ofTwoTasks.after (.createGroup [1] 3)).tree.members .rootGroup = [3,2] := rfl
    exact .single ⟨3,by rw [root]; simp,rfl⟩
  have group := shows.copied (fun _ _ => rfl) before id
  have top := shows.copied (fun _ _ => rfl) .refl id
  refine ⟨_,rfl,twoTasks_proper,?_,fun _ _ => rfl,rfl,?_,?_⟩
  · have root : ((ofTwoTasks.after (.createGroup [1] 3)).after (.add (.item 3) 2 (-1))).tree.members .rootGroup = [3] :=
      rfl
    exact .single ⟨3,by rw [root]; simp,rfl⟩
  · exact congrArg (·.eraseIdx 1) top
  · exact group

end Reached

end KdeWorkspace.TasksModel
