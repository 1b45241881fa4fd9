import KdeWorkspace.TaskGroups

/-!
The filters of the task bar.

Whether a window is shown is decided twice: a change of its task is answered by what the last of the changed
attributes says, and adding the task asks all filters and refuses, but does not remove. `shown_iff` says for which
changes both agree.
-/
namespace KdeWorkspace.TaskFilters
open TaskGroups List

abbrev WId := Nat

/-- What is shown for a window, or for a program that is starting. -/
inductive Item
  | task (window : WId)
  | startup (id : Nat)
deriving DecidableEq, Repr

/-- A task as the filters and the grouping strategies see it. -/
structure Task where
  showInTaskbar : Bool
  demandsAttention : Bool
  isOnCurrentDesktop : Bool
  isOnCurrentActivity : Bool
  isMinimized : Bool
  utility : Bool
  classClass : String
deriving DecidableEq, Repr

/-- The flags of `TaskChanges` that count. -/
structure TaskChanges where
  DesktopChanged : Bool
  ActivitiesChanged : Bool
  StateChanged : Bool
  AttentionChanged : Bool
  ClassChanged : Bool
deriving DecidableEq, Repr

inductive TaskGroupingStrategy
  | NoGrouping
  | ManualGrouping
  | ProgramGrouping
deriving DecidableEq, Repr

/-- The filter for the screen is off, and changes are listened to since another one is on. -/
structure Settings where
  showOnlyCurrentDesktop : Bool
  showOnlyCurrentActivity : Bool
  showOnlyMinimized : Bool
  listening : (showOnlyCurrentDesktop || showOnlyCurrentActivity || showOnlyMinimized) = true
  groupingStrategy : TaskGroupingStrategy
  forceGrouping : Bool
  blackList : List String

structure Startup where
  id : Nat
  windows : List WId
deriving DecidableEq, Repr

/-- `tasks` are those of the task manager, and `root` the members of the current root group. Launchers have no windows
and are left out. -/
structure State where
  tasks : WId → Option Task
  root : List (Member Item)
  startupList : List Startup
  nextGroup : Nat

/-- What is to be shown: what demands attention, or passes every filter that is on and is not a utility window. -/
def Admitted (settings : Settings) (task : Task) : Prop :=
  task.showInTaskbar ∧ (task.demandsAttention ∨
    ((settings.showOnlyCurrentDesktop → task.isOnCurrentDesktop) ∧
      (settings.showOnlyCurrentActivity → task.isOnCurrentActivity) ∧
      (settings.showOnlyMinimized → task.isMinimized) ∧ ¬task.utility))

section
open Member

mutual
def memberByWId (id : WId) : Member Item → Option Item
  | .item (.task window) => if window = id then some (.task window) else none
  | .item (.startup _) => none
  | .group _ members => getMemberByWId id members

/-- `TaskGroup::getMemberByWId`. -/
def getMemberByWId (id : WId) : List (Member Item) → Option Item
  | [] => none
  | m :: members => (memberByWId id m).or (getMemberByWId id members)
end

/-- `TaskGroup::add` for an item and the root group; its place there is up to the sorting. -/
def addToRoot (root : List (Member Item)) (i : Item) : List (Member Item) :=
  if root.any (·.key = .inl i) then root else withoutIn i root++[.item i]

/-- `TaskGroup::add` for an item and another group. -/
def addToGroup (root : List (Member Item)) (id : Nat) (i : Item) : List (Member Item) :=
  if ((findIn id root).getD []).any (·.key = .inl i) then root
  else changeIn id (·++[.item i]) (withoutIn i root)

/-- The tasks of the same class among the members of a group. -/
def sameClass (tasks : WId → Option Task) (window : WId) (name : String) (members : List (Member Item)) : List Item :=
  members.filterMap fun
    | .item (.task other) =>
      if other ≠ window ∧ (tasks other).map Task.classClass = some name then some (.task other) else none
    | _ => none

mutual
def joins (tasks : WId → Option Task) (window : WId) (name : String) : Member Item → Option Nat
  | .item _ => none
  | .group id members =>
    (subgroupFor tasks window name members).or
      (if sameClass tasks window name members = [] then none else some id)

/-- The group below the members that `programGrouping` adds a task to. -/
def subgroupFor (tasks : WId → Option Task) (window : WId) (name : String) : List (Member Item) → Option Nat
  | [] => none
  | m :: members => (joins tasks window name m).or (subgroupFor tasks window name members)
end

/-- `createGroup` for items of the root group, and one that need not be there. The group is placed where the first of
them was. -/
def createGroup (s : State) (items : List Item) : State :=
  let index := s.root.findIdx fun m => items.any fun i => m.key = .inl i
  let rest := items.foldl (fun root i => withoutIn i root) s.root
  { s with
    root := rest.take index++.group s.nextGroup (items.map .item) :: rest.drop index
    nextGroup := s.nextGroup+1 }

def handleItem (settings : Settings) (s : State) (window : WId) (task : Task) : State :=
  match settings.groupingStrategy with
  | .ProgramGrouping =>
    if !settings.forceGrouping && settings.blackList.contains task.classClass then
      { s with root := addToRoot s.root (.task window) }
    else
      match subgroupFor s.tasks window task.classClass s.root with
      | some id => { s with root := addToGroup s.root id (.task window) }
      | none =>
        let list := sameClass s.tasks window task.classClass s.root
        if list = [] then { s with root := addToRoot s.root (.task window) }
        else createGroup s (list++[.task window])
  | _ => { s with root := addToRoot s.root (.task window) }

/-- `closeGroup`. -/
def closeGroup (s : State) (id : Nat) : State := { s with root := dissolveIn id s.root }

/-- `checkGroup`, which comes queued after a member has been removed from the group. -/
def checkGroup (settings : Settings) (s : State) (id : Nat) : State :=
  match findIn id s.root,settings.groupingStrategy with
  | some members,.ManualGrouping => if members.length ≤ 0 then closeGroup s id else s
  | some members,.ProgramGrouping => if members.length < 2 then closeGroup s id else s
  | _,_ => s

/-- `TaskGroup::moveItem`, by which members are sorted. -/
def moveMember (members : List (Member Item)) (oldIndex newIndex : Nat) : List (Member Item) :=
  match members[oldIndex]? with
  | some m =>
    if newIndex < members.length then
      (members.eraseIdx oldIndex).take newIndex++m :: (members.eraseIdx oldIndex).drop newIndex
    else members
  | none => members

/-- The item of a program that has started becomes that of its window. -/
def setTaskPointer (id : Nat) (window : WId) (root : List (Member Item)) : List (Member Item) :=
  mapItems (fun i => if i = .startup id then .task window else i) root

/-- Whether `addTask` skips the task. -/
def skip (settings : Settings) (task : Task) : Bool :=
  !task.showInTaskbar ||
    (!task.demandsAttention &&
      ((settings.showOnlyCurrentDesktop && !task.isOnCurrentDesktop) ||
        (settings.showOnlyCurrentActivity && !task.isOnCurrentActivity) ||
        (settings.showOnlyMinimized && !task.isMinimized) || task.utility))

/-- The task is put where it belongs; one that demands attention is not grouped. -/
def place (settings : Settings) (s : State) (window : WId) (task : Task) : State :=
  if settings.forceGrouping || !task.demandsAttention then handleItem settings s window task
  else { s with root := addToRoot s.root (.task window) }

def addTask (settings : Settings) (s : State) (window : WId) (task : Task) : State :=
  if (getMemberByWId window s.root).isNone || skip settings task then
    match s.startupList.find? fun startup => startup.windows.contains window with
    | some startup =>
      let s := { s with startupList := s.startupList.erase startup }
      if skip settings task then { s with root := withoutIn (.startup startup.id) s.root }
      else place settings { s with root := setTaskPointer startup.id window s.root } window task
    | none => if skip settings task then s else place settings s window task
  else place settings s window task

def removeTask (s : State) (window : WId) : State :=
  match getMemberByWId window s.root with
  | some i => { s with root := withoutIn i s.root }
  | none => s

def taskChanged (settings : Settings) (s : State) (window : WId) (task : Task) (changes : TaskChanges) : State :=
  let (takeAction,show_) := (false,true)
  let (takeAction,show_) :=
    if settings.showOnlyCurrentDesktop && changes.DesktopChanged then (true,task.isOnCurrentDesktop)
    else (takeAction,show_)
  let (takeAction,show_) :=
    if settings.showOnlyCurrentActivity && changes.ActivitiesChanged then (true,task.isOnCurrentActivity)
    else (takeAction,show_)
  let (takeAction,show_) :=
    if settings.showOnlyMinimized && changes.StateChanged then (true,task.isMinimized) else (takeAction,show_)
  let (takeAction,show_) := if changes.AttentionChanged then (true,true) else (takeAction,show_)
  let s := if changes.ClassChanged then addTask settings (removeTask s window) window task else s
  if !takeAction then s
  else if show_ then addTask settings s window task
  else removeTask s window

def addStartup (s : State) (startup : Startup) : State :=
  if s.startupList.any (·.id = startup.id) then s
  else { s with startupList := s.startupList++[startup], root := addToRoot s.root (.startup startup.id) }

def removeStartup (s : State) (id : Nat) : State :=
  if s.startupList.any (·.id = id) then
    { s with startupList := s.startupList.filter (·.id ≠ id), root := withoutIn (.startup id) s.root }
  else s

end

/-- What happens: to tasks, to starting programs, and what is left for later by the groups and the sorting. A task
that is added is as it says if it is not known already. -/
inductive Event
  | addTask (window : WId) (task : Task)
  | removeTask (window : WId)
  | taskChanged (window : WId) (task : Task) (changes : TaskChanges)
  | addStartup (startup : Startup)
  | addWindowMatch (id : Nat) (window : WId)
  | removeStartup (id : Nat)
  | checkGroup (id : Nat)
  | moveItem (group : Option Nat) (oldIndex newIndex : Nat)

namespace State

def initial : State := ⟨fun _ => none,[],[],0⟩

/-- The task manager tells only of its own tasks. -/
def step (settings : Settings) (s : State) : Event → State
  | .addTask window task =>
    let task := (s.tasks window).getD task
    addTask settings { s with tasks := Function.update s.tasks window (some task) } window task
  | .removeTask window => removeTask { s with tasks := Function.update s.tasks window none } window
  | .taskChanged window task changes =>
    if (s.tasks window).isSome then
      taskChanged settings { s with tasks := Function.update s.tasks window (some task) } window task changes
    else s
  | .addStartup startup => addStartup s startup
  | .addWindowMatch id window =>
    { s with startupList := s.startupList.map fun startup =>
        if startup.id = id then { startup with windows := startup.windows++[window] } else startup }
  | .removeStartup id => removeStartup s id
  | .checkGroup id => checkGroup settings s id
  | .moveItem none oldIndex newIndex => { s with root := moveMember s.root oldIndex newIndex }
  | .moveItem (some id) oldIndex newIndex =>
    { s with root := Member.changeIn id (fun members => moveMember members oldIndex newIndex) s.root }

/-- The windows with an item in the current root group or one of its subgroups, each time that there is one. -/
def shown (s : State) : List WId :=
  (Member.keys s.root).filterMap fun
    | .inl (.task window) => some window
    | _ => none

end State

theorem skip_eq_false (settings : Settings) (task : Task) : skip settings task = false ↔ Admitted settings task := by
  cases shown : task.showInTaskbar <;> cases attention : task.demandsAttention <;>
    cases utility : task.utility <;> simp [skip,Admitted,shown,attention,utility,and_assoc]

section
open Member

theorem getMemberByWId_isSome (w : WId) (root : List (Member Item)) :
    (getMemberByWId w root).isSome ↔ .inl (.task w) ∈ keys root := by
  induction root using members_induction with
  | nil => simp [getMemberByWId]
  | item i root ih =>
    cases i with
    | task v =>
      by_cases same : v = w
      · simp [getMemberByWId,memberByWId,same]
      · simp [getMemberByWId,memberByWId,same,ih,Ne.symm same]
    | startup id => simp [getMemberByWId,memberByWId,ih]
  | group id inner root ihInner ih => simp [getMemberByWId,memberByWId,ihInner,ih]

theorem getMemberByWId_eq {w : WId} {root : List (Member Item)} {i : Item} (found : getMemberByWId w root = some i) :
    i = .task w := by
  induction root using members_induction with
  | nil => simp [getMemberByWId] at found
  | item j root ih =>
    cases j with
    | task v =>
      by_cases same : v = w
      · simpa [getMemberByWId,memberByWId,same] using found.symm
      · exact ih (by simpa [getMemberByWId,memberByWId,same] using found)
    | startup id => exact ih (by simpa [getMemberByWId,memberByWId] using found)
  | group id inner root ihInner ih =>
    simp only [getMemberByWId,memberByWId,Option.or_eq_some_iff] at found
    rcases found with below | ⟨-,later⟩
    · exact ihInner below
    · exact ih later

/-- Everything is in the tree once, and the numbers of the groups have been given. -/
structure Consistent (s : State) : Prop where
  once : (keys s.root).Nodup
  given : ∀ id, .inr id ∈ keys s.root → id < s.nextGroup

/-- An item is added, or has been there. -/
structure Adds (i : Item) (root after : List (Member Item)) : Prop where
  once : (keys after).Nodup
  items : ∀ j, .inl j ∈ keys after ↔ j = i ∨ .inl j ∈ keys root
  groups : ∀ id, .inr id ∈ keys after ↔ .inr id ∈ keys root

variable {root : List (Member Item)}

theorem withoutIn_nodup (once : (keys root).Nodup) (i : Item) : (keys (withoutIn i root)).Nodup := by
  rw [keys_withoutIn]
  exact once.filter _

theorem mem_withoutIn (i : Item) (k : Key Item) : k ∈ keys (withoutIn i root) ↔ k ∈ keys root ∧ k ≠ .inl i := by
  simp [keys_withoutIn]

theorem mem_of_any {members : List (Member Item)} {i : Item} (direct : (members.any fun m => m.key = .inl i) = true) :
    .inl i ∈ keys members := by
  obtain ⟨m,member,same⟩ := any_eq_true.mp direct
  rw [decide_eq_true_eq] at same
  exact same ▸ key_mem_keys member

theorem addToRoot_adds (once : (keys root).Nodup) (i : Item) : Adds i root (addToRoot root i) := by
  by_cases direct : (root.any fun m => m.key = .inl i) = true
  · rw [addToRoot,if_pos direct]
    refine ⟨once,fun j => ⟨.inr,?_⟩,fun id => Iff.rfl⟩
    rintro (same | there)
    · exact same ▸ mem_of_any direct
    · exact there
  · rw [addToRoot,if_neg direct]
    refine ⟨?_,fun j => ?_,fun id => ?_⟩
    · rw [Member.keys_append,nodup_append]
      refine ⟨withoutIn_nodup once i,by simp,fun k member l last same => ?_⟩
      rw [mem_withoutIn] at member
      simp only [keys_item,Member.keys_nil,mem_singleton] at last
      exact member.2 (same.trans last)
    · by_cases same : j = i
      · simp [same]
      · simp [mem_withoutIn,same]
    · simp [mem_withoutIn]

theorem findIn_withoutIn_mem {id : Nat} (i : Item) (present : .inr id ∈ keys root) :
    ∃ found, findIn id (withoutIn i root) = some found := by
  cases found : findIn id (withoutIn i root) with
  | some members => exact ⟨members,rfl⟩
  | none => exact absurd ((mem_withoutIn i _).mpr ⟨present,by simp⟩) (findIn_none found)

theorem addToGroup_adds (once : (keys root).Nodup) {id : Nat} (present : .inr id ∈ keys root) (i : Item) :
    Adds i root (addToGroup root id i) := by
  by_cases direct : (((findIn id root).getD []).any fun m => m.key = .inl i) = true
  · rw [addToGroup,if_pos direct]
    refine ⟨once,fun j => ⟨.inr,?_⟩,fun id => Iff.rfl⟩
    rintro (same | there)
    · cases found : findIn id root with
      | none => simp [found] at direct
      | some members =>
        rw [found,Option.getD_some] at direct
        exact same ▸ keys_findIn found (mem_of_any direct)
    · exact there
  · rw [addToGroup,if_neg direct]
    obtain ⟨found,is_found⟩ := findIn_withoutIn_mem i present
    have perm := keys_changeIn [.inl i] (f := (·++[item i])) (withoutIn_nodup once i) is_found (by
      rw [Member.keys_append]
      exact perm_append_comm)
    refine ⟨?_,fun j => ?_,fun id => ?_⟩
    · rw [perm.nodup_iff,singleton_append,nodup_cons]
      exact ⟨fun member => ((mem_withoutIn i _).mp member).2 rfl,withoutIn_nodup once i⟩
    · rw [perm.mem_iff]
      by_cases same : j = i
      · simp [same]
      · simp [mem_withoutIn,same]
    · rw [perm.mem_iff]
      simp [mem_withoutIn]

theorem sameClass_sublist (tasks : WId → Option Task) (w : WId) (name : String) (members : List (Member Item)) :
    ((sameClass tasks w name members).map Sum.inl).Sublist (keys members) := by
  induction members with
  | nil => exact .slnil
  | cons m members ih =>
    match m with
    | item (.task v) =>
      by_cases same : v ≠ w ∧ (tasks v).map Task.classClass = some name
      · simp only [sameClass,filterMap_cons,if_pos same,map_cons,keys_item]
        exact ih.cons_cons _
      · simp only [sameClass,filterMap_cons,if_neg same]
        exact ih.cons _
    | item (.startup id) => exact ih.cons _
    | group id inner =>
      refine (ih.trans (sublist_append_right _ _)).cons _

theorem not_mem_sameClass (tasks : WId → Option Task) (w : WId) (name : String) (members : List (Member Item)) :
    .task w ∉ sameClass tasks w name members := by
  intro member
  simp only [sameClass,mem_filterMap] at member
  obtain ⟨m,-,found⟩ := member
  split at found
  · split at found
    · next different =>
      cases found
      exact different.1 rfl
    · cases found
  · cases found

theorem subgroupFor_mem {tasks : WId → Option Task} {w : WId} {name : String} {members : List (Member Item)} {id : Nat}
    (found : subgroupFor tasks w name members = some id) : .inr id ∈ keys members := by
  induction members using members_induction with
  | nil => simp [subgroupFor] at found
  | item i members ih =>
    simp only [subgroupFor,joins,Option.none_or] at found
    simpa using ih found
  | group own inner members ihInner ih =>
    simp only [subgroupFor,joins] at found
    rcases Option.or_eq_some_iff.mp found with here | ⟨-,later⟩
    · rcases Option.or_eq_some_iff.mp here with below | ⟨-,own_group⟩
      · simp [ihInner below]
      · by_cases none : sameClass tasks w name inner = []
        · simp [none] at own_group
        · rw [if_neg none] at own_group
          cases own_group
          simp
    · simp [ih later]

theorem withoutAll (items : List Item) (once : (keys root).Nodup) :
    (keys (items.foldl (fun root i => withoutIn i root) root)).Nodup ∧
      ∀ k, k ∈ keys (items.foldl (fun root i => withoutIn i root) root) ↔ k ∈ keys root ∧ ∀ i ∈ items, k ≠ .inl i := by
  induction items generalizing root with
  | nil => simpa using once
  | cons i items ih =>
    obtain ⟨nodup,mem⟩ := ih (withoutIn_nodup once i)
    refine ⟨nodup,fun k => ?_⟩
    rw [foldl_cons,mem,mem_withoutIn,forall_mem_cons,and_assoc]

/-- What `handleItem` and `place` make of the tree. -/
structure Placed (s : State) (w : WId) (after : State) : Prop where
  consistent : Consistent after
  items : ∀ j, .inl j ∈ keys after.root ↔ j = .task w ∨ .inl j ∈ keys s.root
  tasks : after.tasks = s.tasks

variable {s : State}

theorem Adds.placed {w : WId} {after : List (Member Item)} (adds : Adds (.task w) s.root after)
    (consistent : Consistent s) : Placed s w { s with root := after } :=
  ⟨⟨adds.once,fun id member => consistent.given id ((adds.groups id).mp member)⟩,adds.items,rfl⟩

theorem createGroup_placed (consistent : Consistent s) (w : WId) (list : List Item)
    (direct : (list.map Sum.inl).Sublist (keys s.root)) (other : .task w ∉ list) :
    Placed s w (createGroup s (list++[Item.task w])) := by
  obtain ⟨nodup,mem⟩ := withoutAll (list++[Item.task w]) consistent.once
  have listed : ∀ members : List Item, keys (members.map item) = members.map Sum.inl := by
    intro members
    induction members with
    | nil => rfl
    | cons i members ih => simp [ih]
  have perm : (keys (createGroup s (list++[Item.task w])).root).Perm (.inr s.nextGroup ::
      ((list++[Item.task w]).map Sum.inl++keys ((list++[Item.task w]).foldl (fun root i => withoutIn i root) s.root))) := by
    refine (keys_perm perm_middle).trans ?_
    rw [take_append_drop,keys_group,listed]
  generalize (list++[Item.task w]).foldl (fun root i => withoutIn i root) s.root = rest at nodup mem perm
  have fresh : .inr s.nextGroup ∉ keys s.root := fun member => Nat.lt_irrefl _ (consistent.given _ member)
  have once : (list++[Item.task w]).Nodup := by
    rw [nodup_append]
    refine ⟨List.Nodup.of_map _ (direct.nodup consistent.once),by simp,fun i member j last same => ?_⟩
    rw [mem_singleton] at last
    exact other (last ▸ same ▸ member)
  refine ⟨⟨?_,fun id member => ?_⟩,fun j => ?_,rfl⟩
  · rw [perm.nodup_iff,nodup_cons,nodup_append]
    refine ⟨?_,once.map fun _ _ => Sum.inl.inj,nodup,fun k first l later same => ?_⟩
    · simp [mem,fresh]
    · obtain ⟨i,inside,rfl⟩ := mem_map.mp first
      exact ((mem l).mp later).2 i inside same.symm
  · rw [perm.mem_iff] at member
    simp only [mem_cons,mem_append,mem_map,reduceCtorEq,and_false,exists_false,false_or,mem, Sum.inr.injEq] at member
    rcases member with same | ⟨before,-⟩
    · rw [same]
      exact Nat.lt_succ_self _
    · exact Nat.lt_succ_of_lt (consistent.given id before)
  · have listed_before : j ∈ list → .inl j ∈ keys s.root := fun member =>
      direct.subset (mem_map_of_mem member)
    rw [perm.mem_iff]
    simp only [mem_cons,mem_append,mem_map,reduceCtorEq,false_or,mem,not_mem_nil,or_false]
    constructor
    · rintro (⟨i,inside,same⟩ | ⟨before,-⟩)
      · cases same
        rcases inside with member | last
        · exact .inr (listed_before member)
        · exact .inl last
      · exact .inr before
    · rintro (rfl | before)
      · exact .inl ⟨_,.inr rfl,rfl⟩
      · by_cases member : j ∈ list ∨ j = .task w
        · exact .inl ⟨j,member,rfl⟩
        · refine .inr ⟨before,fun i inside same => member ?_⟩
          cases same
          exact inside

theorem handleItem_placed (settings : Settings) (consistent : Consistent s) (w : WId) (task : Task) :
    Placed s w (handleItem settings s w task) := by
  have root := (addToRoot_adds consistent.once (.task w)).placed consistent
  cases strategy : settings.groupingStrategy with
  | NoGrouping => simpa [handleItem,strategy] using root
  | ManualGrouping => simpa [handleItem,strategy] using root
  | ProgramGrouping =>
    simp only [handleItem,strategy]
    split
    · exact root
    · split
      · next id found =>
        exact (addToGroup_adds consistent.once (subgroupFor_mem found) (.task w)).placed consistent
      · split
        · exact root
        · exact createGroup_placed consistent w _ (sameClass_sublist _ _ _ _) (not_mem_sameClass _ _ _ _)

theorem place_placed (settings : Settings) (consistent : Consistent s) (w : WId) (task : Task) :
    Placed s w (place settings s w task) := by
  rw [place]
  split
  · exact handleItem_placed settings consistent w task
  · exact (addToRoot_adds consistent.once (.task w)).placed consistent

theorem setTaskPointer_consistent (consistent : Consistent s) {w : WId} (id : Nat)
    (absent : .inl (.task w) ∉ keys s.root) : Consistent { s with root := setTaskPointer id w s.root } := by
  have keyed := keys_mapItems (fun i => if i = Item.startup id then .task w else i) s.root
  constructor
  · simp only [setTaskPointer,keyed]
    refine (nodup_map_iff_inj_on consistent.once).mpr fun k first l second same => ?_
    match k,l with
    | .inr a,.inr b => exact congrArg Sum.inr (Sum.inr.inj same)
    | .inl i,.inr b => cases same
    | .inr a,.inl j => cases same
    | .inl i,.inl j =>
      have renamed : (if i = Item.startup id then .task w else i) = if j = .startup id then .task w else j :=
        Sum.inl.inj same
      by_cases one : i = .startup id
      · by_cases two : j = .startup id
        · rw [one,two]
        · rw [if_pos one,if_neg two] at renamed
          exact absurd (renamed ▸ second) absent
      · by_cases two : j = .startup id
        · rw [if_neg one,if_pos two] at renamed
          exact absurd (renamed ▸ first) absent
        · rw [if_neg one,if_neg two] at renamed
          rw [renamed]
  · intro group member
    simp only [setTaskPointer,keyed,mem_map] at member
    obtain ⟨k,inside,same⟩ := member
    match k with
    | .inl i => cases same
    | .inr a =>
      cases same
      exact consistent.given a inside

theorem mem_setTaskPointer (root : List (Member Item)) (id : Nat) {v w : WId} (other : v ≠ w) :
    .inl (.task v) ∈ keys (setTaskPointer id w root) ↔ .inl (.task v) ∈ keys root := by
  rw [setTaskPointer,keys_mapItems,mem_map]
  constructor
  · rintro ⟨k,inside,same⟩
    match k with
    | .inr a => cases same
    | .inl i =>
      have renamed : (if i = Item.startup id then .task w else i) = .task v := Sum.inl.inj same
      by_cases here : i = .startup id
      · rw [if_pos here] at renamed
        cases renamed
        exact absurd rfl other
      · rw [if_neg here] at renamed
        exact renamed ▸ inside
  · intro inside
    exact ⟨_,inside,by simp⟩

/-- What becomes of the tasks in the tree. -/
structure Leaves (s : State) (present : WId → Prop) (after : State) : Prop where
  consistent : Consistent after
  present : ∀ v, .inl (.task v) ∈ keys after.root ↔ present v
  tasks : after.tasks = s.tasks

theorem addTask_leaves (settings : Settings) (consistent : Consistent s) (w : WId) (task : Task) :
    Leaves s (fun v => (v = w ∧ Admitted settings task) ∨ .inl (.task v) ∈ keys s.root)
      (addTask settings s w task) := by
  have placed : ∀ {t : State}, t.tasks = s.tasks → Consistent t → skip settings task = false →
      (∀ v, v ≠ w → (.inl (.task v) ∈ keys t.root ↔ .inl (.task v) ∈ keys s.root)) →
      Leaves s (fun v => (v = w ∧ Admitted settings task) ∨ .inl (.task v) ∈ keys s.root)
        (place settings t w task) := by
    intro t tasks before admitted others
    have place := place_placed settings before w task
    refine ⟨place.consistent,fun v => ?_,place.tasks.trans tasks⟩
    rw [place.items]
    by_cases same : v = w
    · simp [same,(skip_eq_false settings task).mp admitted]
    · simp [same,others v same]
  by_cases skipped : skip settings task = true
  · have refused : ¬Admitted settings task := fun admitted => by
      rw [(skip_eq_false settings task).mpr admitted] at skipped
      cases skipped
    simp only [addTask,skipped,Bool.or_true,if_true]
    split
    · refine ⟨⟨withoutIn_nodup consistent.once _,fun id member => ?_⟩,fun v => ?_,rfl⟩
      · exact consistent.given id ((mem_withoutIn _ _).mp member).1
      · simp [mem_withoutIn,refused]
    · exact ⟨consistent,fun v => by simp [refused],rfl⟩
  · rw [Bool.not_eq_true] at skipped
    simp only [addTask,skipped,Bool.or_false,Bool.false_eq_true,if_false]
    split
    · next missing =>
      have absent : .inl (.task w) ∉ keys s.root := fun member => by
        rw [← getMemberByWId_isSome] at member
        rw [Option.isNone_iff_eq_none] at missing
        rw [missing] at member
        cases member
      split
      · next startup _ =>
        exact placed rfl (setTaskPointer_consistent (s := { s with startupList := s.startupList.erase startup })
          ⟨consistent.once,consistent.given⟩ startup.id absent) skipped
          fun v other => mem_setTaskPointer s.root startup.id other
      · exact placed rfl consistent skipped fun v _ => Iff.rfl
    · exact placed rfl consistent skipped fun v _ => Iff.rfl

theorem removeTask_leaves (consistent : Consistent s) (w : WId) :
    Leaves s (fun v => v ≠ w ∧ .inl (.task v) ∈ keys s.root) (removeTask s w) := by
  rw [removeTask]
  split
  · next i found =>
    rw [getMemberByWId_eq found]
    refine ⟨⟨withoutIn_nodup consistent.once _,fun id member => ?_⟩,fun v => ?_,rfl⟩
    · exact consistent.given id ((mem_withoutIn _ _).mp member).1
    · rw [mem_withoutIn]
      simp [and_comm]
  · next missing =>
    refine ⟨consistent,fun v => ⟨fun there => ⟨fun same => ?_,there⟩,And.right⟩,rfl⟩
    rw [same,← getMemberByWId_isSome,missing] at there
    cases there

end

/-- What the last of the filters says that are on and whose attribute has changed. -/
def verdict (settings : Settings) (task : Task) (changes : TaskChanges) : Option Bool :=
  if settings.showOnlyMinimized && changes.StateChanged then some task.isMinimized
  else if settings.showOnlyCurrentActivity && changes.ActivitiesChanged then some task.isOnCurrentActivity
  else if settings.showOnlyCurrentDesktop && changes.DesktopChanged then some task.isOnCurrentDesktop
  else none

theorem taskChanged_eq (settings : Settings) (s : State) (w : WId) (task : Task) (changes : TaskChanges) :
    taskChanged settings s w task changes =
      let s := if changes.ClassChanged then addTask settings (removeTask s w) w task else s
      if changes.AttentionChanged = true ∨ verdict settings task changes = some true then addTask settings s w task
      else if verdict settings task changes = some false then removeTask s w
      else s := by
  cases attention : changes.AttentionChanged <;>
    by_cases minimized : (settings.showOnlyMinimized && changes.StateChanged) = true <;>
    by_cases activity : (settings.showOnlyCurrentActivity && changes.ActivitiesChanged) = true <;>
    by_cases desktop : (settings.showOnlyCurrentDesktop && changes.DesktopChanged) = true <;>
    cases isMinimized : task.isMinimized <;> cases onActivity : task.isOnCurrentActivity <;>
    cases onDesktop : task.isOnCurrentDesktop <;>
    simp [taskChanged,verdict,attention,minimized,activity,desktop,isMinimized,onActivity,onDesktop]

/-- Whether a task is in the tree after a change. -/
def PresentAfter (settings : Settings) (task : Task) (changes : TaskChanges) (before : Prop) : Prop :=
  if changes.AttentionChanged = true ∨ verdict settings task changes = some true then
    Admitted settings task ∨ (changes.ClassChanged = false ∧ before)
  else if verdict settings task changes = some false then False
  else if changes.ClassChanged then Admitted settings task
  else before

section
open Member

variable {s : State}

theorem taskChanged_leaves (settings : Settings) (consistent : Consistent s) (w : WId) (task : Task)
    (changes : TaskChanges) :
    Leaves s (fun v => if v = w then PresentAfter settings task changes (.inl (.task w) ∈ keys s.root)
      else .inl (.task v) ∈ keys s.root) (taskChanged settings s w task changes) := by
  obtain ⟨t,first,state⟩ : ∃ t, Leaves s (fun v => if v = w then
      if changes.ClassChanged then Admitted settings task else .inl (.task w) ∈ keys s.root
      else .inl (.task v) ∈ keys s.root) t ∧
      (if changes.ClassChanged then addTask settings (removeTask s w) w task else s) = t := by
    refine ⟨_,?_,rfl⟩
    cases changes.ClassChanged with
    | false =>
      refine ⟨consistent,fun v => ?_,rfl⟩
      by_cases same : v = w
      · simp [same]
      · simp [same]
    | true =>
      have removed := removeTask_leaves consistent w
      have added := addTask_leaves settings removed.consistent w task
      refine ⟨added.consistent,fun v => ?_,added.tasks.trans removed.tasks⟩
      rw [if_pos rfl,added.present,removed.present]
      by_cases same : v = w
      · simp [same]
      · simp [same]
  rw [taskChanged_eq]
  simp only [state]
  by_cases shows : changes.AttentionChanged = true ∨ verdict settings task changes = some true
  · rw [if_pos shows]
    have added := addTask_leaves settings first.consistent w task
    refine ⟨added.consistent,fun v => ?_,added.tasks.trans first.tasks⟩
    rw [added.present,first.present]
    by_cases same : v = w
    · cases class_ : changes.ClassChanged <;> simp [same,PresentAfter,shows,class_]
    · simp [same]
  · rw [if_neg shows]
    by_cases hides : verdict settings task changes = some false
    · rw [if_pos hides]
      have removed := removeTask_leaves first.consistent w
      refine ⟨removed.consistent,fun v => ?_,removed.tasks.trans first.tasks⟩
      rw [removed.present,first.present]
      by_cases same : v = w
      · rw [if_pos same,PresentAfter,if_neg shows,if_pos hides]
        simp [same]
      · simp [same]
    · rw [if_neg hides]
      refine ⟨first.consistent,fun v => ?_,first.tasks⟩
      rw [first.present]
      by_cases same : v = w
      · simp [same,PresentAfter,hides,shows]
      · simp [same]

theorem moveMember_perm (members : List (Member Item)) (oldIndex newIndex : Nat) :
    (moveMember members oldIndex newIndex).Perm members := by
  rw [moveMember]
  split
  · next m found =>
    split
    · obtain ⟨inBounds,here⟩ := List.getElem?_eq_some_iff.mp found
      refine List.perm_middle.trans ?_
      rw [List.take_append_drop,← here]
      exact getElem_cons_eraseIdx_perm inBounds
    · exact .refl _
  · exact .refl _

theorem Leaves.of_perm {s after : State} (consistent : Consistent s) (perm : (keys after.root).Perm (keys s.root))
    (groups : after.nextGroup = s.nextGroup) (tasks : after.tasks = s.tasks) :
    Leaves s (fun v => .inl (.task v) ∈ keys s.root) after := by
  refine ⟨⟨perm.nodup_iff.mpr consistent.once,fun id member => ?_⟩,fun v => perm.mem_iff,tasks⟩
  rw [groups]
  exact consistent.given id (perm.mem_iff.mp member)

theorem moveItem_leaves (settings : Settings) (consistent : Consistent s) (group : Option Nat)
    (oldIndex newIndex : Nat) :
    Leaves s (fun v => .inl (.task v) ∈ keys s.root) (s.step settings (.moveItem group oldIndex newIndex)) := by
  cases group with
  | none => exact .of_perm consistent (keys_perm (moveMember_perm _ _ _)) rfl rfl
  | some id =>
    refine .of_perm consistent ?_ rfl rfl
    simp only [State.step]
    cases found : findIn id s.root with
    | none => rw [changeIn_absent _ (findIn_none found)]
    | some members =>
      exact keys_changeIn [] consistent.once found (keys_perm (moveMember_perm _ _ _))

theorem closeGroup_leaves (consistent : Consistent s) (id : Nat) :
    Leaves s (fun v => .inl (.task v) ∈ keys s.root) (closeGroup s id) := by
  have perm := keys_dissolveIn id consistent.once
  refine ⟨⟨perm.nodup_iff.mpr (consistent.once.filter _),fun group member => ?_⟩,fun v => ?_,rfl⟩
  · exact consistent.given group (mem_of_mem_filter (perm.mem_iff.mp member))
  · rw [closeGroup,perm.mem_iff]
    simp

theorem checkGroup_leaves (settings : Settings) (consistent : Consistent s) (id : Nat) :
    Leaves s (fun v => .inl (.task v) ∈ keys s.root) (checkGroup settings s id) := by
  have kept : Leaves s (fun v => .inl (.task v) ∈ keys s.root) s := ⟨consistent,fun _ => Iff.rfl,rfl⟩
  rw [checkGroup]
  split
  · split
    · exact closeGroup_leaves consistent id
    · exact kept
  · split
    · exact closeGroup_leaves consistent id
    · exact kept
  · exact kept

theorem addStartup_leaves (consistent : Consistent s) (startup : Startup) :
    Leaves s (fun v => .inl (.task v) ∈ keys s.root) (addStartup s startup) := by
  rw [addStartup]
  split
  · exact ⟨consistent,fun _ => Iff.rfl,rfl⟩
  · have adds := addToRoot_adds consistent.once (.startup startup.id)
    refine ⟨⟨adds.once,fun id member => consistent.given id ((adds.groups id).mp member)⟩,fun v => ?_,rfl⟩
    rw [adds.items]
    simp

theorem removeStartup_leaves (consistent : Consistent s) (id : Nat) :
    Leaves s (fun v => .inl (.task v) ∈ keys s.root) (removeStartup s id) := by
  rw [removeStartup]
  split
  · refine ⟨⟨withoutIn_nodup consistent.once _,fun group member => ?_⟩,fun v => ?_,rfl⟩
    · exact consistent.given group ((mem_withoutIn _ _).mp member).1
    · simp [mem_withoutIn]
  · exact ⟨consistent,fun _ => Iff.rfl,rfl⟩

end

/-- The task bar shows exactly what the filters admit, and nothing twice. -/
def Correct (settings : Settings) (s : State) : Prop :=
  ∀ w, (w ∈ s.shown ↔ ∃ task, s.tasks w = some task ∧ Admitted settings task) ∧ s.shown.count w ≤ 1

/-- When a change of a known task is answered rightly. The task demands no attention if the last of its filters that
have to say something hides it, it is still admitted if that filter or the attention shows it, and nothing has changed
about it if there is nothing to say; a change of its class makes the last two needless. -/
def Agree (settings : Settings) (old new : Task) (changes : TaskChanges) : Prop :=
  (changes.AttentionChanged = false → verdict settings new changes = some false →
      ¬(new.showInTaskbar ∧ new.demandsAttention)) ∧
    (changes.ClassChanged = false → changes.AttentionChanged = true ∨ verdict settings new changes = some true →
      Admitted settings old → Admitted settings new) ∧
    (changes.ClassChanged = false → changes.AttentionChanged = false → verdict settings new changes = none →
      (Admitted settings old ↔ Admitted settings new))

def Fine (settings : Settings) (s : State) : Event → Prop
  | .taskChanged window task changes => ∀ old, s.tasks window = some old → Agree settings old task changes
  | _ => True

inductive Reached (settings : Settings) : State → Prop
  | initial : Reached settings .initial
  | step {s : State} (reached : Reached settings s) {event : Event} (fine : Fine settings s event) :
    Reached settings (s.step settings event)

section
open Member

theorem mem_shown (s : State) (w : WId) : w ∈ s.shown ↔ .inl (.task w) ∈ keys s.root := by
  simp only [State.shown,mem_filterMap]
  constructor
  · rintro ⟨k,member,found⟩
    split at found
    · cases found
      exact member
    · cases found
  · intro member
    exact ⟨_,member,rfl⟩

theorem correct_iff {settings : Settings} {s : State} (consistent : Consistent s) :
    Correct settings s ↔
      ∀ w, .inl (.task w) ∈ keys s.root ↔ ∃ task, s.tasks w = some task ∧ Admitted settings task := by
  have once : s.shown.Nodup := by
    refine List.Nodup.filterMap (fun k l w first second => ?_) consistent.once
    split at first
    · split at second
      · cases first
        cases second
        rfl
      · cases second
    · cases first
  constructor
  · exact fun correct w => (mem_shown s w).symm.trans (correct w).1
  · exact fun present w => ⟨(mem_shown s w).trans (present w),nodup_iff_count_le_one.mp once w⟩

theorem admitted_of_rejected {settings : Settings} {task : Task} {changes : TaskChanges}
    (rejected : verdict settings task changes = some false) :
    Admitted settings task ↔ (task.showInTaskbar ∧ task.demandsAttention) := by
  refine ⟨fun admitted => ⟨admitted.1,?_⟩,fun attention => ⟨attention.1,.inl attention.2⟩⟩
  refine admitted.2.resolve_right fun passes => ?_
  obtain ⟨desktop,activity,minimized,-⟩ := passes
  rw [verdict] at rejected
  split at rejected
  · next flagged =>
    rw [Bool.and_eq_true] at flagged
    simp [minimized flagged.1] at rejected
  · split at rejected
    · next flagged =>
      rw [Bool.and_eq_true] at flagged
      simp [activity flagged.1] at rejected
    · split at rejected
      · next flagged =>
        rw [Bool.and_eq_true] at flagged
        simp [desktop flagged.1] at rejected
      · cases rejected

theorem presentAfter_iff (settings : Settings) (old new : Task) (changes : TaskChanges) :
    (PresentAfter settings new changes (Admitted settings old) ↔ Admitted settings new) ↔
      Agree settings old new changes := by
  rw [PresentAfter,Agree]
  by_cases shows : changes.AttentionChanged = true ∨ verdict settings new changes = some true
  · have first : changes.AttentionChanged = false → verdict settings new changes = some false →
        ¬(new.showInTaskbar ∧ new.demandsAttention) := fun quiet hidden => by simp [quiet,hidden] at shows
    have third : ¬(changes.AttentionChanged = false ∧ verdict settings new changes = none) := fun ⟨quiet,nothing⟩ => by
      simp [quiet,nothing] at shows
    rw [if_pos shows]
    constructor
    · intro same
      exact ⟨first,fun class_ _ admitted => same.mp (.inr ⟨class_,admitted⟩),
        fun _ quiet nothing => absurd ⟨quiet,nothing⟩ third⟩
    · rintro ⟨-,kept,-⟩
      refine ⟨fun present => ?_,.inl⟩
      rcases present with admitted | ⟨class_,admitted⟩
      · exact admitted
      · exact kept class_ shows admitted
  · rw [if_neg shows]
    have quiet : changes.AttentionChanged = false := by simpa using fun yes => shows (.inl yes)
    cases answered : verdict settings new changes with
    | some answer =>
      cases answer with
      | true => exact absurd (.inr answered) shows
      | false =>
        have rejected := admitted_of_rejected answered
        simp only [if_true,quiet,reduceCtorEq,Option.some.injEq,Bool.false_eq_true,or_self,false_imp_iff,implies_true,
          and_true,true_imp_iff,false_iff,rejected]
    | none =>
      cases class_ : changes.ClassChanged with
      | true => simp [quiet]
      | false =>
        simp [quiet]

theorem step_correct (settings : Settings) {s : State} (consistent : Consistent s) (correct : Correct settings s)
    (event : Event) :
    Consistent (s.step settings event) ∧ (Correct settings (s.step settings event) ↔ Fine settings s event) := by
  have before := (correct_iff consistent).mp correct
  have quiet : ∀ {after : State}, Leaves s (fun v => .inl (.task v) ∈ keys s.root) after →
      Consistent after ∧ (Correct settings after ↔ True) := by
    intro after leaves
    refine ⟨leaves.consistent,iff_true_intro ((correct_iff leaves.consistent).mpr fun w => ?_)⟩
    rw [leaves.present,leaves.tasks,before]
  cases event with
  | addTask w task =>
    simp only [State.step,Fine]
    generalize known : (s.tasks w).getD task = added
    have leaves := addTask_leaves settings (s := { s with tasks := Function.update s.tasks w (some added) })
      ⟨consistent.once,consistent.given⟩ w added
    refine ⟨leaves.consistent,iff_true_intro ((correct_iff leaves.consistent).mpr fun v => ?_)⟩
    rw [leaves.present,leaves.tasks,before]
    by_cases same : v = w
    · subst same
      have admitted_before : ∀ old, s.tasks v = some old → old = added := fun old there => by simpa [there] using known
      simp only [true_and,Function.update_self,Option.some.injEq,exists_eq_left']
      constructor
      · rintro (admitted | ⟨old,there,admitted⟩)
        · exact admitted
        · exact admitted_before old there ▸ admitted
      · exact .inl
    · simp [same]
  | removeTask w =>
    simp only [State.step,Fine]
    have leaves := removeTask_leaves (s := { s with tasks := Function.update s.tasks w none })
      ⟨consistent.once,consistent.given⟩ w
    refine ⟨leaves.consistent,iff_true_intro ((correct_iff leaves.consistent).mpr fun v => ?_)⟩
    rw [leaves.present,leaves.tasks,before]
    by_cases same : v = w
    · simp [same]
    · simp [same]
  | taskChanged w task changes =>
    simp only [State.step,Fine]
    cases known : s.tasks w with
    | none => simpa [known] using ⟨consistent,correct⟩
    | some old =>
      have leaves := taskChanged_leaves settings (s := { s with tasks := Function.update s.tasks w (some task) })
        ⟨consistent.once,consistent.given⟩ w task changes
      rw [if_pos (by simp)]
      refine ⟨leaves.consistent,(correct_iff leaves.consistent).trans ?_⟩
      have old_present : .inl (.task w) ∈ keys s.root ↔ Admitted settings old := by simp [before,known]
      have agree := presentAfter_iff settings old task changes
      rw [← old_present] at agree
      simp only [Option.some.injEq,forall_eq']
      rw [← agree]
      constructor
      · intro present
        have here := present w
        rw [leaves.present,leaves.tasks] at here
        simpa using here
      · intro here v
        rw [leaves.present,leaves.tasks]
        by_cases same : v = w
        · subst same
          simpa using here
        · simp [same,before]
  | addStartup startup => exact quiet (addStartup_leaves consistent startup)
  | addWindowMatch id w => exact quiet ⟨⟨consistent.once,consistent.given⟩,fun _ => Iff.rfl,rfl⟩
  | removeStartup id => exact quiet (removeStartup_leaves consistent id)
  | checkGroup id => exact quiet (checkGroup_leaves settings consistent id)
  | moveItem group oldIndex newIndex => exact quiet (moveItem_leaves settings consistent group oldIndex newIndex)

/-- In every run whose changes agree with the filters the task bar shows what they admit, and one that does not agree
leaves it wrong. -/
theorem shown_iff {settings : Settings} {s : State} (reached : Reached settings s) :
    Correct settings s ∧ ∀ event, Correct settings (s.step settings event) ↔ Fine settings s event := by
  have holds : Consistent s ∧ Correct settings s := by
    induction reached with
    | initial =>
      refine ⟨⟨nodup_nil,fun id member => absurd member (by simp [State.initial])⟩,fun w => ?_⟩
      simp [State.shown,State.initial]
    | step reached fine ih =>
      obtain ⟨next,correct⟩ := step_correct settings ih.1 ih.2 _
      exact ⟨next,correct.mpr fine⟩
  exact ⟨holds.2,fun event => (step_correct settings holds.1 holds.2 event).2⟩

end

def onlyDesktop : Settings := ⟨true,false,false,rfl,.NoGrouping,false,[]⟩

def elsewhere (attention : Bool) : Task := ⟨true,attention,false,true,false,false,"mail"⟩

theorem shown_iff_attention :
    Correct onlyDesktop (State.initial.step onlyDesktop (.addTask 1 (elsewhere true))) ∧
      ∀ event, Correct onlyDesktop ((State.initial.step onlyDesktop (.addTask 1 (elsewhere true))).step onlyDesktop
        event) ↔ Fine onlyDesktop (State.initial.step onlyDesktop (.addTask 1 (elsewhere true))) event :=
  shown_iff (.step .initial trivial)

/-- It stays when it no longer demands attention. -/
theorem attention_ends_and_stays :
    ∃ s, s = (State.initial.step onlyDesktop (.addTask 1 (elsewhere true))).step onlyDesktop
        (.taskChanged 1 (elsewhere false) ⟨false,false,true,true,false⟩) ∧
      1 ∈ s.shown ∧ s.tasks 1 = some (elsewhere false) ∧ ¬Admitted onlyDesktop (elsewhere false) :=
  ⟨_,rfl,by decide,rfl,by simp [Admitted,onlyDesktop,elsewhere]⟩

end KdeWorkspace.TaskFilters
