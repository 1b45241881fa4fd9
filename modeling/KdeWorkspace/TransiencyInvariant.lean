import KdeWorkspace.Transiency

/-!
What holds of windows, groups and lists of transients at all times (`Good`), and
that the choice of a group keeps it (`checkGroup_good`).

Most changes touch lists and groups only (`Regrouped`), so the part about windows
carries over. A client that is between two groups is the reason why `Lists` has
the group of every client as an argument.
-/
namespace KdeWorkspace.TransiencyInvariant
open Relation Relations Lists Loops Clients GroupTransients
  KdeWorkspace.Transiency

/-- The managed windows and the transient-for ids: every id is that of a managed client, which is then the main
    window, or no window, or the root window, and main windows make no cycle. -/
structure Windows (ws : Workspace) : Prop where
  managed : ∀ c ∈ ws.managed, c ∈ ws.objects
  exist : ∀ c ∈ ws.managed, (ws.client c).window ≠ windowNone ∧ (ws.client c).window ≠ ws.rootWindow
  unique : ∀ c ∈ ws.managed, ∀ d ∈ ws.managed, (ws.client c).window = (ws.client d).window → c = d
  link : ∀ t m, TransientFor ws t m → m ∈ ws.managed ∧ (ws.client t).transientForId = (ws.client m).window
  unlinked : ∀ t, (ws.client t).transientFor = none →
    (ws.client t).transientForId = windowNone ∨ (ws.client t).transientForId = ws.rootWindow
  unknown : ∀ c, c ∉ ws.objects → (ws.client c).transientForId = windowNone
  acyclic : Acyclic (TransientFor ws)

/-- Every client is a member of exactly the group that it points to. -/
structure Groups (ws : Workspace) : Prop where
  member : ∀ c g, (ws.client c).inGroup = some g ↔ g ∈ ws.groups ∧ c ∈ (ws.group g).members
  fresh : ∀ g ∈ ws.groups, g < ws.nextGroup
  object : ∀ c, (ws.client c).inGroup ≠ none → c ∈ ws.objects

/-- The lists of transients agree with the main windows, and every other entry is a
    group transient of the same group. -/
structure Lists (ws : Workspace) (groupOf : ClientRef → Option GroupRef) : Prop where
  listed : ∀ t m, TransientFor ws t m → t ∈ (ws.client m).transientsList
  entries : ∀ c t, t ∈ (ws.client c).transientsList →
    TransientFor ws t c ∨ ws.groupTransient t = true ∧ groupOf t = groupOf c ∧ groupOf c ≠ none

/-- The group of every client. -/
def groupOf (ws : Workspace) (c : ClientRef) : Option GroupRef := (ws.client c).inGroup

/-- What holds between the operations on one window. -/
structure Good (ws : Workspace) : Prop where
  windows : Windows ws
  groups : Groups ws
  lists : Lists ws (groupOf ws)
  grouped : ∀ c ∈ ws.managed, groupOf ws c ≠ none

namespace Windows
variable {ws : Workspace} (windows : Windows ws)
include windows

theorem noMain {t : ClientRef} (groupTransient : ws.groupTransient t = true) : (ws.client t).transientFor = none := by
  cases main : (ws.client t).transientFor with
  | none => rfl
  | some m =>
    obtain ⟨member,id⟩ := windows.link t m main
    have root : (ws.client t).transientForId = ws.rootWindow := of_decide_eq_true groupTransient
    exact absurd (id.symm.trans root) (windows.exist m member).2

theorem findClient_window {c : ClientRef} (member : c ∈ ws.managed) : ws.findClient (ws.client c).window = some c := by
  cases found : ws.findClient (ws.client c).window with
  | none => simpa using List.find?_eq_none.mp found c member
  | some d =>
    have same := List.find?_some found
    simp only [decide_eq_true_eq] at same
    rw [windows.unique d (List.mem_of_find?_eq_some found) c member same]

end Windows

theorem findClient_some {ws : Workspace} {w : WindowId} {c : ClientRef} (found : ws.findClient w = some c) :
    c ∈ ws.managed ∧ (ws.client c).window = w := by
  have same := List.find?_some found
  simp only [decide_eq_true_eq] at same
  exact ⟨List.mem_of_find?_eq_some found,same⟩

/-- The workspace with other lists of transients and other groups. -/
def reshape (ws : Workspace) (lists : ClientRef → List ClientRef) (inGroups : ClientRef → Option GroupRef)
    (groups : List GroupRef) (group : GroupRef → Group) (nextGroup : GroupRef) : Workspace :=
  { ws with
    client := fun c => { ws.client c with transientsList := lists c, inGroup := inGroups c }
    groups := groups
    group := group
    nextGroup := nextGroup }

/-- Only lists of transients and groups have changed. -/
def Regrouped (before after : Workspace) : Prop :=
  ∃ lists inGroups groups group nextGroup, after = reshape before lists inGroups groups group nextGroup

namespace Regrouped
variable {before after last : Workspace}

theorem refl (ws : Workspace) : Regrouped ws ws := ⟨_,_,_,_,_,rfl⟩

theorem trans (first : Regrouped before after) (second : Regrouped after last) : Regrouped before last := by
  obtain ⟨_,_,_,_,_,rfl⟩ := first
  obtain ⟨_,_,_,_,_,rfl⟩ := second
  exact ⟨_,_,_,_,_,rfl⟩

theorem windows (regrouped : Regrouped before after) (windows : Windows before) : Windows after := by
  obtain ⟨_,_,_,_,_,rfl⟩ := regrouped
  exact ⟨windows.managed,windows.exist,windows.unique,windows.link,windows.unlinked,windows.unknown,windows.acyclic⟩

theorem transientFor (regrouped : Regrouped before after) : TransientFor after = TransientFor before := by
  obtain ⟨_,_,_,_,_,rfl⟩ := regrouped
  rfl

theorem groupTransient (regrouped : Regrouped before after) (c : ClientRef) :
    after.groupTransient c = before.groupTransient c := by
  obtain ⟨_,_,_,_,_,rfl⟩ := regrouped
  rfl

theorem objects (regrouped : Regrouped before after) : after.objects = before.objects := by
  obtain ⟨_,_,_,_,_,rfl⟩ := regrouped
  rfl

theorem managed (regrouped : Regrouped before after) : after.managed = before.managed := by
  obtain ⟨_,_,_,_,_,rfl⟩ := regrouped
  rfl

theorem of_withTransients (ws : Workspace) (lists : ClientRef → List ClientRef) :
    Regrouped ws (ws.withTransients lists) := ⟨_,_,_,_,_,rfl⟩

theorem of_setGroup (ws : Workspace) (g : GroupRef) (group : Group) : Regrouped ws (setGroup ws g group) :=
  ⟨_,_,_,_,_,rfl⟩

theorem of_removeGroup (ws : Workspace) (g : GroupRef) : Regrouped ws (removeGroup ws g) := ⟨_,_,_,_,_,rfl⟩

theorem of_newGroup (ws : Workspace) (leader : WindowId) : Regrouped ws (newGroup ws leader).1 := ⟨_,_,_,_,_,rfl⟩

theorem of_setInGroup (ws : Workspace) (c : ClientRef) (g : Option GroupRef) : Regrouped ws (setInGroup ws c g) :=
  ⟨_,_,_,_,_,rfl⟩

end Regrouped

section
variable {ws : Workspace} (groups : Groups ws)
include groups

variable {g : GroupRef}

theorem Groups.alive {c : ClientRef} (inGroup : (ws.client c).inGroup = some g) :
    g ∈ ws.groups ∧ c ∈ (ws.group g).members := (groups.member c g).mp inGroup

private theorem setGroup_groups {group : Group} (same : group.members = (ws.group g).members) :
    Groups (setGroup ws g group) := by
  refine ⟨fun c h => ?_,groups.fresh,groups.object⟩
  show (ws.client c).inGroup = some h ↔ h ∈ ws.groups ∧ c ∈ (if h = g then group else ws.group h).members
  rw [groups.member]
  by_cases here : h = g
  · subst here
    rw [if_pos rfl,same]
  · rw [if_neg here]

theorem removeGroup_groups (empty : (ws.group g).members = []) : Groups (removeGroup ws g) := by
  refine ⟨fun c h => ?_,fun h member => groups.fresh h (mem_removeAll.mp member).1,groups.object⟩
  show (ws.client c).inGroup = some h ↔ h ∈ removeAll ws.groups g ∧ c ∈ (ws.group h).members
  rw [groups.member,mem_removeAll]
  constructor
  · rintro ⟨alive,member⟩
    refine ⟨⟨alive,?_⟩,member⟩
    rintro rfl
    rw [empty] at member
    cases member
  · rintro ⟨⟨alive,_⟩,member⟩
    exact ⟨alive,member⟩

private theorem ref_groups (g : Option GroupRef) : Groups (ref ws g) := by
  cases g with
  | none => exact groups
  | some g => exact setGroup_groups groups rfl

private theorem deref_groups (g : Option GroupRef) : Groups (deref ws g) := by
  cases g with
  | none => exact groups
  | some g =>
    have derefed : Groups (setGroup ws g { ws.group g with refcount := (ws.group g).refcount-1 }) :=
      setGroup_groups groups rfl
    unfold deref
    dsimp only
    split
    · rename_i last
      refine removeGroup_groups derefed ?_
      show (if g = g then _ else _ : Group).members = []
      rw [if_pos rfl]
      exact last.2
    · exact derefed

private theorem newGroup_groups (leader : WindowId) : Groups (newGroup ws leader).1 := by
  refine ⟨fun c h => ?_,fun h member => ?_,groups.object⟩
  · show (ws.client c).inGroup = some h ↔ h ∈ ws.groups ++ [ws.nextGroup] ∧
      c ∈ (if h = ws.nextGroup then ⟨leader,[],0⟩ else ws.group h : Group).members
    have old : h = ws.nextGroup → h ∉ ws.groups := fun same member => Nat.ne_of_lt (groups.fresh h member) same
    rw [groups.member,List.mem_append,List.mem_singleton]
    by_cases here : h = ws.nextGroup
    · rw [if_pos here]
      exact ⟨fun ⟨member,_⟩ => absurd member (old here),fun ⟨_,nobody⟩ => by cases nobody⟩
    · rw [if_neg here,or_iff_left here]
  · show h < ws.nextGroup+1
    rcases List.mem_append.mp member with earlier | last
    · exact (groups.fresh h earlier).trans (Nat.lt_succ_self _)
    · rw [List.mem_singleton.mp last]
      exact Nat.lt_succ_self _

private theorem leave_groups {this : ClientRef} (inGroup : (ws.client this).inGroup = some g) :
    Groups (setInGroup (removeMember ws g this) this none) := by
  have left : Groups (setInGroup (setGroup ws g
      { ws.group g with members := removeAll (ws.group g).members this }) this none) := by
    refine ⟨fun c h => ?_,groups.fresh,fun c there => groups.object c ?_⟩
    · show (if c = this then none else (ws.client c).inGroup) = some h ↔ h ∈ ws.groups ∧
        c ∈ (if h = g then { ws.group g with members := removeAll (ws.group g).members this } else ws.group h : Group).members
      by_cases self : c = this
      · subst self
        by_cases here : h = g
        · simp [here]
        · simp only [↓reduceIte,here,reduceCtorEq,false_iff,not_and]
          intro alive member
          have other := (groups.member c h).mpr ⟨alive,member⟩
          rw [inGroup] at other
          exact here (Option.some.inj other).symm
      · rw [if_neg self,groups.member]
        by_cases here : h = g
        · subst here
          simp [self]
        · simp [here]
    · change (if c = this then none else (ws.client c).inGroup) ≠ none at there
      split at there
      · exact absurd rfl there
      · exact there
  unfold removeMember
  dsimp only
  split
  · rename_i last
    refine removeGroup_groups left ?_
    show (if g = g then _ else _ : Group).members = []
    rw [if_pos rfl]
    exact last.2
  · exact left

private theorem enter_groups {this : ClientRef} (outside : (ws.client this).inGroup = none)
    (alive : g ∈ ws.groups) (object : this ∈ ws.objects) :
    Groups (addMember (setInGroup ws this (some g)) g this) := by
  refine ⟨fun c h => ?_,groups.fresh,fun c there => ?_⟩
  · show (if c = this then some g else (ws.client c).inGroup) = some h ↔ h ∈ ws.groups ∧
      c ∈ (if h = g then { ws.group g with members := (ws.group g).members ++ [this] } else ws.group h : Group).members
    by_cases self : c = this
    · subst self
      by_cases here : h = g
      · simp [here,alive]
      · simp only [↓reduceIte,here,Option.some.injEq,Ne.symm here,false_iff,not_and]
        intro alive member
        have other := (groups.member c h).mpr ⟨alive,member⟩
        rw [outside] at other
        cases other
    · rw [if_neg self,groups.member]
      by_cases here : h = g
      · subst here
        simp [self]
      · simp [here]
  · change (if c = this then some g else (ws.client c).inGroup) ≠ none at there
    split at there
    · rename_i self
      exact self ▸ object
    · exact groups.object c there

end

/-- The client has been moved to the group and nothing else. -/
private structure Joined (before after : Workspace) (this : ClientRef) (g : GroupRef) : Prop where
  regrouped : Regrouped before after
  groups : Groups after
  lists : ∀ c, (after.client c).transientsList = (before.client c).transientsList
  self : groupOf after this = some g
  others : ∀ c, c ≠ this → groupOf after c = groupOf before c

/-- The client has been taken out of its group and nothing else. -/
structure Left (before after : Workspace) (this : ClientRef) : Prop where
  regrouped : Regrouped before after
  groups : Groups after
  lists : ∀ c, (after.client c).transientsList = (before.client c).transientsList
  self : groupOf after this = none
  others : ∀ c, c ≠ this → groupOf after c = groupOf before c

variable {this : ClientRef}

private theorem Left.joined {before middle after : Workspace} {g : GroupRef}
    (left : Left before middle this) (joined : Joined middle after this g) : Joined before after this g :=
  ⟨left.regrouped.trans joined.regrouped,joined.groups,fun c => (joined.lists c).trans (left.lists c),joined.self,
    fun c other => (joined.others c other).trans (left.others c other)⟩

private theorem removeMember_client (ws : Workspace) (g : GroupRef) (c : ClientRef) :
    (removeMember ws g c).client = ws.client := by
  unfold removeMember
  dsimp only
  split <;> rfl

private theorem removeMember_regrouped (ws : Workspace) (g : GroupRef) (c : ClientRef) :
    Regrouped ws (removeMember ws g c) := by
  unfold removeMember
  dsimp only
  split
  · exact (Regrouped.of_setGroup _ _ _).trans (.of_removeGroup _ _)
  · exact .of_setGroup _ _ _

variable {ws : Workspace}

private theorem mem_groups_removeMember {g h : GroupRef} (c : ClientRef) (alive : h ∈ ws.groups)
    (other : h ≠ g) : h ∈ (removeMember ws g c).groups := by
  unfold removeMember
  dsimp only
  split
  · exact mem_removeAll.mpr ⟨alive,other⟩
  · exact alive

private theorem setInGroup_again (ws : Workspace) (c : ClientRef) (g h : Option GroupRef) :
    setInGroup (setInGroup ws c g) c h = setInGroup ws c h := by
  unfold setInGroup
  congr 1
  funext it
  by_cases self : it = c <;> simp [self]

theorem leave_left (groups : Groups ws) {g : GroupRef}
    (inGroup : groupOf ws this = some g) : Left ws (setInGroup (removeMember ws g this) this none) this := by
  refine ⟨(removeMember_regrouped ws g this).trans (.of_setInGroup _ this none),leave_groups groups inGroup,
    fun c => ?_,if_pos rfl,fun c other => ?_⟩
  · show ((removeMember ws g this).client c).transientsList = _
    rw [removeMember_client]
  · show (if c = this then none else ((removeMember ws g this).client c).inGroup) = _
    rw [if_neg other,removeMember_client]
    rfl

private theorem enter_joined (groups : Groups ws) {g : GroupRef}
    (outside : groupOf ws this = none) (alive : g ∈ ws.groups) (object : this ∈ ws.objects) :
    Joined ws (addMember (setInGroup ws this (some g)) g this) this g :=
  ⟨(Regrouped.of_setInGroup _ _ _).trans (.of_setGroup _ _ _),enter_groups groups outside alive object,fun _ => rfl,
    if_pos rfl,fun _ other => if_neg other⟩

private theorem leave_enter_joined (groups : Groups ws) {g h : GroupRef}
    (inGroup : groupOf ws this = some h) (alive : g ∈ ws.groups) (other : g ≠ h) (object : this ∈ ws.objects) :
    Joined ws (addMember (setInGroup (setInGroup (removeMember ws h this) this none) this (some g)) g this) this g := by
  have left := leave_left groups inGroup
  exact left.joined (enter_joined left.groups left.self (mem_groups_removeMember this alive other)
    (by rw [left.regrouped.objects]; exact object))

private theorem joinGroup_joined (groups : Groups ws) {g : GroupRef}
    (alive : g ∈ ws.groups) (object : this ∈ ws.objects) : Joined ws (joinGroup ws this g) this g := by
  unfold joinGroup
  by_cases same : (ws.client this).inGroup = some g
  · rw [if_pos same]
    exact ⟨.refl ws,groups,fun _ => rfl,same,fun _ _ => rfl⟩
  · rw [if_neg same]
    dsimp only
    cases old : (ws.client this).inGroup with
    | none => exact enter_joined groups old alive object
    | some h =>
      have other : g ≠ h := by
        rintro rfl
        exact same old
      have joined := leave_enter_joined groups old alive other object
      rwa [setInGroup_again] at joined

private theorem joinOrCreate_joined (groups : Groups ws) {new_group : Option GroupRef}
    (alive : ∀ g, new_group = some g → g ∈ ws.groups) (object : this ∈ ws.objects) (leader : WindowId) :
    ∃ g, Joined ws (joinOrCreate ws this new_group leader) this g := by
  cases new_group with
  | some g => exact ⟨g,joinGroup_joined groups (alive g rfl) object⟩
  | none =>
    have joined := joinGroup_joined (newGroup_groups groups leader)
      (show ws.nextGroup ∈ ws.groups ++ [ws.nextGroup] by simp) object
    exact ⟨_,(Regrouped.of_newGroup ws leader).trans joined.regrouped,joined.groups,joined.lists,joined.self,
      joined.others⟩

/-- Only lists of transients have changed. -/
def Relisted (before after : Workspace) : Prop := ∃ lists, after = before.withTransients lists

namespace Relisted
variable {before after last : Workspace}

theorem refl (ws : Workspace) : Relisted ws ws := ⟨fun c => (ws.client c).transientsList,rfl⟩

theorem trans (first : Relisted before after) (second : Relisted after last) : Relisted before last := by
  obtain ⟨_,rfl⟩ := first
  obtain ⟨lists,rfl⟩ := second
  exact ⟨lists,rfl⟩

theorem regrouped (relisted : Relisted before after) : Regrouped before after := by
  obtain ⟨lists,rfl⟩ := relisted
  exact .of_withTransients before lists

theorem groupOf (relisted : Relisted before after) : groupOf after = groupOf before := by
  obtain ⟨lists,rfl⟩ := relisted
  rfl

theorem groupMembers (relisted : Relisted before after) (c : ClientRef) :
    after.groupMembers c = before.groupMembers c := by
  obtain ⟨lists,rfl⟩ := relisted
  rfl

theorem groups (relisted : Relisted before after) (groups : Groups before) : Groups after := by
  obtain ⟨lists,rfl⟩ := relisted
  exact ⟨groups.member,groups.fresh,groups.object⟩

end Relisted

variable {ws : Workspace}

theorem mem_groupMembers (groups : Groups ws) {c this : ClientRef} :
    c ∈ ws.groupMembers this ↔ groupOf ws c = groupOf ws this ∧ groupOf ws this ≠ none := by
  unfold Workspace.groupMembers groupOf
  cases inGroup : (ws.client this).inGroup with
  | none => simp
  | some g =>
    have alive := (groups.alive inGroup).1
    simp only [groups.member c g,alive,true_and,ne_eq,reduceCtorEq,not_false_eq_true,and_true]

theorem mem_addTransient {c cl a t : ClientRef} :
    t ∈ ((addTransient ws c cl).client a).transientsList ↔ t ∈ (ws.client a).transientsList ∨ a = c ∧ t = cl := by
  simp only [addTransient,Workspace.withTransients]
  by_cases here : a = c <;> simp [here]

private theorem removeTransient_of_noMain {c cl : ClientRef}
    (noMain : (ws.client cl).transientFor = none) : removeTransient ws c cl = ws.eraseTransient c cl := by
  unfold removeTransient
  rw [noMain]
  rfl

theorem foldl_removeTransient {cl : ClientRef} (noMain : (ws.client cl).transientFor = none)
    (members : List ClientRef) :
    members.foldl (fun ws it => removeTransient ws it cl) ws = ws.withTransients fun c =>
      if c ∈ members then removeAll (ws.client c).transientsList cl else (ws.client c).transientsList := by
  induction members generalizing ws with
  | nil => rfl
  | cons first rest ih =>
    have still : ((ws.eraseTransient first cl).client cl).transientFor = none := noMain
    rw [List.foldl_cons,removeTransient_of_noMain noMain,ih still]
    unfold Workspace.eraseTransient Workspace.withTransients
    congr 1
    funext c
    by_cases here : c = first <;> by_cases later : c ∈ rest <;> simp [here,later]

private theorem foldl_removeTransient_relisted {cl : ClientRef}
    (noMain : (ws.client cl).transientFor = none) (members : List ClientRef) :
    Relisted ws (members.foldl (fun ws it => removeTransient ws it cl) ws) :=
  ⟨_,foldl_removeTransient noMain members⟩

private theorem addTransient_lists {groupOf : ClientRef → Option GroupRef} (lists : Lists ws groupOf)
    {c cl : ClientRef} (groupTransient : ws.groupTransient cl = true) (same : groupOf cl = groupOf c)
    (grouped : groupOf c ≠ none) : Lists (addTransient ws c cl) groupOf := by
  refine ⟨fun t m main => mem_addTransient.mpr (Or.inl (lists.listed t m main)),fun a t entry => ?_⟩
  rcases mem_addTransient.mp entry with earlier | ⟨rfl,rfl⟩
  · exact lists.entries a t earlier
  · exact Or.inr ⟨groupTransient,same,grouped⟩

private theorem pruned_lists {before after : Workspace} {groupOf : ClientRef → Option GroupRef}
    (noMain : ∀ c, before.groupTransient c = true → (before.client c).transientFor = none)
    (lists : Lists before groupOf) (pruned : Pruned before after) : Lists after groupOf := by
  refine ⟨fun t m main => ?_,fun c t entry => ?_⟩
  · rw [pruned.transientFor] at main
    refine pruned.kept m t (lists.listed t m main) ?_
    by_contra groupTransient
    have absent := noMain t (by simpa using groupTransient)
    rw [show (before.client t).transientFor = some m from main] at absent
    cases absent
  · rw [pruned.transientFor,pruned.groupTransient]
    exact lists.entries c t (pruned.subset c entry)

/-- The group of every client before one client has come from its old group. -/
private def groupBefore (ws : Workspace) (this : ClientRef) (old_group : Option GroupRef) (c : ClientRef) :
    Option GroupRef :=
  if c = this then old_group else groupOf ws c

section
variable {ws : Workspace} {this : ClientRef} {old_group : Option GroupRef}

private theorem dropOtherGroups_lists (windows : Windows ws) (lists : Lists ws (groupBefore ws this old_group))
    (grouped : groupOf ws this ≠ none) :
    (∀ t m, TransientFor ws t m → t ∈ ((dropOtherGroups ws this).client m).transientsList) ∧
    ∀ c t, t ∈ ((dropOtherGroups ws this).client c).transientsList →
      (TransientFor ws t c ∨ ws.groupTransient t = true ∧ groupOf ws t = groupOf ws c ∧ groupOf ws c ≠ none) ∨
      t = this ∧ ws.groupTransient this = true ∧ groupOf ws c = old_group ∧ old_group ≠ none := by
  constructor
  · intro t m main
    have there := lists.listed t m main
    have normal : ws.groupTransient t = false := by
      by_contra groupTransient
      have noMain := windows.noMain (by simpa using groupTransient)
      rw [show (ws.client t).transientFor = some m from main] at noMain
      cases noMain
    simp only [dropOtherGroups,Workspace.withTransients]
    split
    · rw [List.mem_filter]
      exact ⟨there,by simp [normal]⟩
    · exact there
  · intro c t entry
    simp only [dropOtherGroups,Workspace.withTransients] at entry
    by_cases self : c = this
    · subst self
      rw [if_pos rfl,List.mem_filter] at entry
      left
      refine (lists.entries c t entry.1).imp id fun inGroup => ⟨inGroup.1,?_,grouped⟩
      have kept := entry.2
      rw [inGroup.1,Bool.true_and,Bool.not_eq_true',decide_eq_false_iff_not,not_not] at kept
      exact kept
    · rw [if_neg self] at entry
      rcases lists.entries c t entry with main | ⟨groupTransient,same,member⟩
      · exact Or.inl (Or.inl main)
      · simp only [groupBefore,if_neg self] at same member
        by_cases moved : t = this
        · subst moved
          rw [if_pos rfl] at same
          exact Or.inr ⟨rfl,groupTransient,same.symm,same ▸ member⟩
        · rw [if_neg moved] at same
          exact Or.inl (Or.inr ⟨groupTransient,same,member⟩)

private theorem addToEarlier_lists {base : Workspace} (groups : Groups base) (groupTransient : base.groupTransient this = true)
    (relisted : Relisted base ws) (lists : Lists ws (groupOf base)) :
    Relisted base (((ws.groupMembers this).takeWhile fun it => it ≠ this).foldl (fun ws it => addTransient ws it this) ws) ∧
    Lists (((ws.groupMembers this).takeWhile fun it => it ≠ this).foldl (fun ws it => addTransient ws it this) ws)
      (groupOf base) := by
  rw [relisted.groupMembers]
  refine List.foldlRecOn (motive := fun after => Relisted base after ∧ Lists after (groupOf base)) _ _ ⟨relisted,lists⟩ ?_
  rintro after ⟨relisted,lists⟩ it before
  have member := (mem_groupMembers groups).mp ((List.takeWhile_sublist _).subset before)
  refine ⟨relisted.trans ⟨_,rfl⟩,addTransient_lists lists ?_ member.1.symm (member.1 ▸ member.2)⟩
  rw [relisted.regrouped.groupTransient,groupTransient]

private theorem moveGroupTransient_lists (windows : Windows ws) (groups : Groups ws)
    (groupTransient : ws.groupTransient this = true)
    (listed : ∀ t m, TransientFor ws t m → t ∈ (ws.client m).transientsList)
    (entries : ∀ c t, t ∈ (ws.client c).transientsList →
      (TransientFor ws t c ∨ ws.groupTransient t = true ∧ groupOf ws t = groupOf ws c ∧ groupOf ws c ≠ none) ∨
      t = this ∧ ws.groupTransient this = true ∧ groupOf ws c = old_group ∧ old_group ≠ none) :
    Relisted ws (moveGroupTransient ws this old_group) ∧ Lists (moveGroupTransient ws this old_group) (groupOf ws) := by
  have noMain := windows.noMain groupTransient
  cases old_group with
  | none =>
    have lists : Lists ws (groupOf ws) :=
      ⟨listed,fun c t entry => (entries c t entry).resolve_right fun ⟨_,_,_,outside⟩ => outside rfl⟩
    exact addToEarlier_lists groups groupTransient (.refl ws) lists
  | some g =>
    -- the client leaves the lists of its old group
    refine addToEarlier_lists groups groupTransient (foldl_removeTransient_relisted noMain _) ?_
    dsimp only
    rw [foldl_removeTransient noMain]
    refine ⟨fun t m main => ?_,fun c t entry => ?_⟩
    · have other : t ≠ this := by
        rintro rfl
        rw [show (ws.client t).transientFor = some m from main] at noMain
        cases noMain
      have there := listed t m main
      show t ∈ (if m ∈ (ws.group g).members then removeAll (ws.client m).transientsList this
        else (ws.client m).transientsList)
      split
      · exact mem_removeAll.mpr ⟨there,other⟩
      · exact there
    · change t ∈ (if c ∈ (ws.group g).members then removeAll (ws.client c).transientsList this
        else (ws.client c).transientsList) at entry
      by_cases member : c ∈ (ws.group g).members
      · rw [if_pos member,mem_removeAll] at entry
        exact (entries c t entry.1).resolve_right fun ⟨self,_⟩ => entry.2 self
      · rw [if_neg member] at entry
        refine (entries c t entry).resolve_right fun ⟨_,_,inOld,_⟩ => member ?_
        exact (groups.alive inOld).2

private theorem addSplashes_lists {base : Workspace} (groups : Groups base) (relisted : Relisted base ws)
    (lists : Lists ws (groupOf base)) :
    Relisted base (addSplashes ws this) ∧ Lists (addSplashes ws this) (groupOf base) := by
  unfold addSplashes
  rw [relisted.groupMembers]
  refine List.foldlRecOn (motive := fun after => Relisted base after ∧ Lists after (groupOf base)) _ _ ⟨relisted,lists⟩ ?_
  rintro after ⟨relisted,lists⟩ it there
  have member := (mem_groupMembers groups).mp there
  split
  · exact ⟨relisted,lists⟩
  · split
    · exact ⟨relisted,lists⟩
    · rename_i groupTransient
      split
      · exact ⟨relisted,lists⟩
      · exact ⟨relisted.trans ⟨_,rfl⟩,addTransient_lists lists (by simpa using groupTransient) member.1 member.2⟩

private theorem updateTransients_good (windows : Windows ws) (groups : Groups ws)
    (lists : Lists ws (groupBefore ws this old_group)) (grouped : groupOf ws this ≠ none)
    (others : ∀ c ∈ ws.managed, groupOf ws c ≠ none) (force : Bool) :
    Good (updateTransients ws this old_group force) ∧ Regrouped ws (updateTransients ws this old_group force) ∧
      groupOf (updateTransients ws this old_group force) = groupOf ws := by
  have updated : ∃ middle, updateTransients ws this old_group force = checkGroupTransients (deref middle old_group) this ∧
      Relisted ws middle ∧ Lists middle (groupOf ws) := by
    refine ⟨_,rfl,?_⟩
    split
    · obtain ⟨listed,entries⟩ := dropOtherGroups_lists windows lists grouped
      have dropped : Relisted ws (dropOtherGroups ws this) := ⟨_,rfl⟩
      dsimp only
      by_cases groupTransient : (dropOtherGroups ws this).groupTransient this = true
      · rw [if_pos groupTransient]
        obtain ⟨moved,lists⟩ := moveGroupTransient_lists (dropped.regrouped.windows windows) (dropped.groups groups)
          groupTransient listed entries
        exact addSplashes_lists groups (dropped.trans moved) lists
      · rw [if_neg groupTransient]
        refine addSplashes_lists groups dropped ⟨listed,fun c t entry => ?_⟩
        exact (entries c t entry).resolve_right fun ⟨_,also,_⟩ => groupTransient also
    · rename_i unchanged
      have same : old_group = groupOf ws this := by
        by_contra different
        exact unchanged (Or.inl (Ne.symm different))
      refine ⟨.refl ws,?_⟩
      have before : groupBefore ws this old_group = groupOf ws := by
        funext c
        by_cases self : c = this
        · rw [groupBefore,if_pos self,same,self]
        · rw [groupBefore,if_neg self]
      rwa [before] at lists
  obtain ⟨middle,equal,relisted,lists⟩ := updated
  have derefed : Regrouped middle (deref middle old_group) ∧ (deref middle old_group).client = middle.client := by
    unfold deref
    split
    · dsimp only
      split
      · exact ⟨(Regrouped.of_setGroup _ _ _).trans (.of_removeGroup _ _),rfl⟩
      · exact ⟨.of_setGroup _ _ _,rfl⟩
    · exact ⟨.refl _,rfl⟩
  have regrouped := relisted.regrouped.trans derefed.1
  have windows' := regrouped.windows windows
  have lists' : Lists (deref middle old_group) (groupOf ws) := by
    refine ⟨fun t m main => ?_,fun c t entry => ?_⟩
    · rw [derefed.1.transientFor] at main
      rw [derefed.2]
      exact lists.listed t m main
    · rw [derefed.2] at entry
      rw [derefed.1.transientFor,derefed.1.groupTransient]
      exact lists.entries c t entry
  have pruned := checkGroupTransients_pruned (fun c => windows'.noMain) this
  have last : Relisted (deref middle old_group) (checkGroupTransients (deref middle old_group) this) := pruned.only
  have same : groupOf (checkGroupTransients (deref middle old_group) this) = groupOf ws := by
    rw [last.groupOf,← relisted.groupOf]
    funext c
    rw [groupOf,derefed.2,groupOf]
  rw [equal]
  refine ⟨⟨last.regrouped.windows windows',last.groups (deref_groups (relisted.groups groups) old_group),?_,?_⟩,
    regrouped.trans last.regrouped,same⟩
  · rw [same]
    exact pruned_lists (fun c => windows'.noMain) lists' pruned
  · rw [same,(regrouped.trans last.regrouped).managed]
    exact others

end

section
variable {ws : Workspace} (good : Good ws)
include good

variable {this : ClientRef}

private theorem joined_good {after : Workspace} {g : GroupRef} (joined : Joined ws after this g) (force : Bool) :
    Good (updateTransients after this (groupOf ws this) force) ∧
      Regrouped ws (updateTransients after this (groupOf ws this) force) ∧
      groupOf (updateTransients after this (groupOf ws this) force) = groupOf after := by
  have windows := joined.regrouped.windows good.windows
  have before : groupBefore after this (groupOf ws this) = groupOf ws := by
    funext c
    by_cases self : c = this
    · rw [groupBefore,if_pos self,self]
    · rw [groupBefore,if_neg self,joined.others c self]
  have lists : Lists after (groupBefore after this (groupOf ws this)) := by
    rw [before]
    refine ⟨fun t m main => ?_,fun c t entry => ?_⟩
    · rw [joined.regrouped.transientFor] at main
      rw [joined.lists]
      exact good.lists.listed t m main
    · rw [joined.lists] at entry
      rw [joined.regrouped.transientFor,joined.regrouped.groupTransient]
      exact good.lists.entries c t entry
  have grouped : groupOf after this ≠ none := by
    rw [joined.self]
    exact Option.some_ne_none g
  have others : ∀ c ∈ after.managed, groupOf after c ≠ none := by
    intro c member
    rw [joined.regrouped.managed] at member
    by_cases self : c = this
    · rw [self]
      exact grouped
    · rw [joined.others c self]
      exact good.grouped c member
  obtain ⟨updated,regrouped,same⟩ := updateTransients_good windows joined.groups lists grouped others force
  exact ⟨updated,joined.regrouped.trans regrouped,same⟩

private theorem ref_good (g : Option GroupRef) : Good (ref ws g) ∧ Regrouped ws (ref ws g) ∧
    (ref ws g).client = ws.client ∧ (ref ws g).groups = ws.groups := by
  have groups := ref_groups good.groups g
  cases g with
  | none => exact ⟨good,.refl ws,rfl,rfl⟩
  | some g =>
    refine ⟨⟨(Regrouped.of_setGroup ws g _).windows good.windows,groups,⟨good.lists.listed,good.lists.entries⟩,good.grouped⟩,
      .of_setGroup ws g _,rfl,rfl⟩

theorem checkGroupSet_good {g : GroupRef} (alive : g ∈ ws.groups) (object : this ∈ ws.objects) (force : Bool) :
    Good (checkGroupSet ws this g force) ∧ Regrouped ws (checkGroupSet ws this g force) ∧
      groupOf (checkGroupSet ws this g force) this = some g ∧
      ∀ c, c ≠ this → groupOf (checkGroupSet ws this g force) c = groupOf ws c := by
  obtain ⟨refGood,refRegrouped,client,groups⟩ := ref_good good (ws.client this).inGroup
  have group (c : ClientRef) : groupOf (ref ws (ws.client this).inGroup) c = groupOf ws c := by
    rw [groupOf,client,groupOf]
  have joined := joinGroup_joined refGood.groups (show g ∈ _ by rw [groups]; exact alive)
    (show this ∈ _ by rw [refRegrouped.objects]; exact object)
  obtain ⟨updated,regrouped,same⟩ := joined_good refGood joined force
  rw [group this] at updated regrouped same
  unfold checkGroupSet
  refine ⟨updated,refRegrouped.trans regrouped,?_,fun c other => ?_⟩
  · rw [show groupOf ws this = (ws.client this).inGroup from rfl] at same
    rw [same,joined.self]
  · rw [show groupOf ws this = (ws.client this).inGroup from rfl] at same
    rw [same,joined.others c other,group]

theorem changeClientLeaderGroup_good {g : GroupRef} (alive : g ∈ ws.groups) (object : this ∈ ws.objects) :
    Good (changeClientLeaderGroup ws this g) ∧ Regrouped ws (changeClientLeaderGroup ws this g) ∧
      g ∈ (changeClientLeaderGroup ws this g).groups ∧
      ∀ c, c ≠ this → groupOf (changeClientLeaderGroup ws this g) c = groupOf ws c := by
  unfold changeClientLeaderGroup
  split
  · exact ⟨good,.refl ws,alive,fun _ _ => rfl⟩
  · split
    · exact ⟨good,.refl ws,alive,fun _ _ => rfl⟩
    · obtain ⟨after,regrouped,self,others⟩ := checkGroupSet_good good alive object false
      exact ⟨after,regrouped,(after.groups.alive self).1,others⟩

/-- What holds while the group for a client is searched. -/
structure Searched (ws : Workspace) (c : ClientRef) (s : Workspace × Option GroupRef) : Prop where
  good : Good s.1
  regrouped : Regrouped ws s.1
  self : groupOf s.1 c = groupOf ws c
  alive : ∀ g, s.2 = some g → g ∈ s.1.groups

omit good in
private theorem searchLeaderGroup_searched {c it : ClientRef} {s : Workspace × Option GroupRef}
    (searched : Searched ws c s) : Searched ws c (searchLeaderGroup c s it) := by
  have grouped {d : ClientRef} {g : GroupRef} (inGroup : groupOf s.1 d = some g) : g ∈ s.1.groups :=
    (searched.good.groups.alive inGroup).1
  unfold searchLeaderGroup
  split
  · exact searched
  · split
    · cases found : s.2 with
      | none => exact ⟨searched.good,searched.regrouped,searched.self,fun g inGroup => grouped inGroup⟩
      | some ret =>
        dsimp only
        split
        · exact searched
        · -- the members of the other group come over, one by one
          refine List.foldlRecOn (motive := fun after => Searched ws c (after,some ret)) _ _ ?_ ?_
          · exact ⟨searched.good,searched.regrouped,searched.self,fun g same => searched.alive g (found.trans same)⟩
          · intro after safe tmp member
            by_cases self : tmp = c
            · rw [if_neg (not_not.mpr self)]
              exact safe
            · rw [if_pos self]
              have inGroup := (mem_groupMembers searched.good.groups).mp member
              have object : tmp ∈ after.objects := by
                rw [safe.regrouped.objects,← searched.regrouped.objects]
                exact searched.good.groups.object tmp (show groupOf s.1 tmp ≠ none from inGroup.1 ▸ inGroup.2)
              obtain ⟨changed,regrouped,alive,others⟩ := changeClientLeaderGroup_good safe.good (safe.alive ret rfl) object
              exact ⟨changed,safe.regrouped.trans regrouped,(others c (Ne.symm self)).trans safe.self,
                fun g same => by cases same; exact alive⟩
    · exact searched

theorem findClientLeaderGroup_searched (c : ClientRef) : Searched ws c (findClientLeaderGroup ws c) := by
  have start : Searched ws c (ws,none) := ⟨good,.refl ws,rfl,fun g found => by cases found⟩
  exact List.foldlRecOn (motive := Searched ws c) _ _ start fun s searched it _ => searchLeaderGroup_searched searched

/-- The group of a client has been chosen: after the search for it, the client has joined it. -/
private structure Chosen (before after : Workspace) (this : ClientRef) : Prop where
  chosen : ∃ middle g, Good middle ∧ Regrouped before middle ∧ groupOf middle this = groupOf before this ∧
    Joined middle after this g

omit good in
private theorem enterGroup_joined (groups : Groups ws) {g : GroupRef}
    (outside : groupOf ws this = none) (alive : g ∈ ws.groups) (object : this ∈ ws.objects) :
    Joined ws (enterGroup ws this g) this g := by
  unfold enterGroup
  rw [if_pos (fun inGroup => by rw [groupOf,inGroup] at outside; cases outside)]
  exact enter_joined groups outside alive object

omit good in
private theorem createGroup_joined (groups : Groups ws) (outside : groupOf ws this = none)
    (object : this ∈ ws.objects) (leader : WindowId) :
    Joined ws (enterGroup (newGroup ws leader).1 this (newGroup ws leader).2) this ws.nextGroup := by
  have entered := enterGroup_joined (newGroup_groups groups leader) (show groupOf (newGroup ws leader).1 this = none from outside)
    (show ws.nextGroup ∈ ws.groups ++ [ws.nextGroup] by simp) object
  exact ⟨(Regrouped.of_newGroup ws leader).trans entered.regrouped,entered.groups,entered.lists,entered.self,
    entered.others⟩

private theorem chooseLeaderGroup_chosen (object : this ∈ ws.objects) : Chosen ws (chooseLeaderGroup ws this) this := by
  have searched := findClientLeaderGroup_searched good this
  have object' : this ∈ (findClientLeaderGroup ws this).1.objects := by
    rw [searched.regrouped.objects]
    exact object
  suffices joined : ∃ g, Joined (findClientLeaderGroup ws this).1 (chooseLeaderGroup ws this) this g by
    obtain ⟨g,joined⟩ := joined
    exact ⟨_,g,searched.good,searched.regrouped,searched.self,joined⟩
  unfold chooseLeaderGroup
  generalize findClientLeaderGroup ws this = found at searched object' ⊢
  have groups := searched.good.groups
  dsimp only
  unfold leaveOther
  cases old : (found.1.client this).inGroup with
  | none =>
    cases new_group : found.2 with
    | none => exact ⟨_,createGroup_joined groups old object' windowNone⟩
    | some g => exact ⟨g,enterGroup_joined groups old (searched.alive g new_group) object'⟩
  | some h =>
    have left := leave_left groups old
    have object_left : this ∈ (setInGroup (removeMember found.1 h this) this none).objects := by
      rw [left.regrouped.objects]
      exact object'
    cases new_group : found.2 with
    | none => exact ⟨_,left.joined (createGroup_joined left.groups left.self object_left windowNone)⟩
    | some g =>
      dsimp only
      by_cases same : g = h
      · subst same
        rw [if_neg (not_not.mpr rfl),enterGroup,if_neg (not_not.mpr old)]
        exact ⟨g,.refl _,groups,fun _ => rfl,old,fun _ _ => rfl⟩
      · rw [if_pos (by simpa using same)]
        exact ⟨g,left.joined (enterGroup_joined left.groups left.self
          (mem_groups_removeMember this (searched.alive g new_group) same) object_left)⟩

private theorem findWindowGroup_alive (this : ClientRef) (g : GroupRef) (found : findWindowGroup ws this = some g) :
    g ∈ ws.groups := by
  have known (found : findGroup ws (ws.client this).windowGroup = some g) : g ∈ ws.groups :=
    List.mem_of_find?_eq_some found
  unfold findWindowGroup at found
  dsimp only at found
  split at found
  · split at found
    · exact (good.groups.alive found).1
    · exact known found
  · exact known found

private theorem chooseGroup_chosen (object : this ∈ ws.objects) : Chosen ws (chooseGroup ws this) this := by
  have here {after : Workspace} {g : GroupRef} (joined : Joined ws after this g) : Chosen ws after this :=
    ⟨ws,g,good,.refl ws,rfl,joined⟩
  unfold chooseGroup
  split
  · obtain ⟨g,joined⟩ := joinOrCreate_joined good.groups (findWindowGroup_alive good this) object
      (ws.client this).windowGroup
    exact here joined
  · split
    · rename_i main transient
      have member := (good.windows.link this main transient).1
      cases inGroup : (ws.client main).inGroup with
      | none => exact absurd inGroup (good.grouped main member)
      | some g => exact here (joinGroup_joined good.groups (good.groups.alive inGroup).1 object)
    · split
      · have searched := findClientLeaderGroup_searched good this
        obtain ⟨g,joined⟩ := joinOrCreate_joined searched.good.groups searched.alive
          (show this ∈ _ by rw [searched.regrouped.objects]; exact object) windowNone
        exact ⟨_,g,searched.good,searched.regrouped,searched.self,joined⟩
      · exact chooseLeaderGroup_chosen good object

theorem checkGroup_good {set_group : Option GroupRef} (alive : ∀ g, set_group = some g → g ∈ ws.groups)
    (object : this ∈ ws.objects) (force : Bool) :
    Good (checkGroup ws this set_group force) ∧ Regrouped ws (checkGroup ws this set_group force) ∧
      groupOf (checkGroup ws this set_group force) this ≠ none := by
  cases set_group with
  | some g =>
    obtain ⟨after,regrouped,self,_⟩ := checkGroupSet_good good (alive g rfl) object force
    refine ⟨after,regrouped,?_⟩
    show groupOf (checkGroupSet ws this g force) this ≠ none
    rw [self]
    exact Option.some_ne_none g
  | none =>
    obtain ⟨refGood,refRegrouped,client,_⟩ := ref_good good (ws.client this).inGroup
    obtain ⟨middle,g,middleGood,regrouped,self,joined⟩ := (chooseGroup_chosen refGood
      (show this ∈ _ by rw [refRegrouped.objects]; exact object)).chosen
    have same : groupOf middle this = (ws.client this).inGroup := by
      rw [self,groupOf,client]
    obtain ⟨updated,last,group⟩ := joined_good middleGood joined force
    rw [same] at updated last group
    refine ⟨updated,(refRegrouped.trans regrouped).trans last,?_⟩
    show groupOf (updateTransients _ this (ws.client this).inGroup force) this ≠ none
    rw [group,joined.self]
    exact Option.some_ne_none g

end

end KdeWorkspace.TransiencyInvariant
