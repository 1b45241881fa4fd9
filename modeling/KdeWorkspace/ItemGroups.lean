import KdeWorkspace.Components
import KdeWorkspace.Loops
import Mathlib.Data.List.Perm.Basic
import Mathlib.Tactic.Linarith

/-!
The groups of overlapping items in the desktop's item space (`ItemSpace::linkItem`, `unlinkItem`).

A linked item is put into one group with all groups it overlaps. No item is lost or
doubled, and the groups are the connected components when there is no spacing or
all rectangles have an extent (`groups_components`). A rectangle without one overlaps
nothing before it is expanded, so otherwise the groups depend on the order of linking.
-/
set_option linter.unusedSectionVars false

namespace KdeWorkspace.ItemGroups
open Loops Components List

structure QRectF where
  x : ℚ
  y : ℚ
  w : ℚ
  h : ℚ
deriving Repr, DecidableEq

namespace QRectF

/-- The rectangle with its corners moved, each coordinate by its own distance. -/
def adjusted (r : QRectF) (x1 y1 x2 y2 : ℚ) : QRectF := ⟨r.x+x1,r.y+y1,r.w+x2-x1,r.h+y2-y1⟩

/-- The ends of an extent, the lower one first. -/
def span (start extent : ℚ) : ℚ × ℚ := if extent < 0 then (start+extent,start) else (start,start+extent)

/-- Two extents overlap; one of size zero overlaps nothing. -/
def spansMeet (a b : ℚ × ℚ) : Bool := !(a.1 = a.2 || b.1 = b.2) && !(b.2 ≤ a.1 || a.2 ≤ b.1)

def intersects (r s : QRectF) : Bool := spansMeet (span r.x r.w) (span s.x s.w) && spansMeet (span r.y r.h) (span s.y s.h)

end QRectF

structure ItemSpaceItem (User : Type) where
  lastGeometry : QRectF
  user : User
deriving Repr, DecidableEq

variable {User : Type} (shiftingSpacing : ℚ)

/-- The first item, expanded on every side, intersects the other one. -/
def overlaps (newItem item : ItemSpaceItem User) : Bool :=
  (newItem.lastGeometry.adjusted (-shiftingSpacing) (-shiftingSpacing) shiftingSpacing shiftingSpacing).intersects
    item.lastGeometry

abbrev Groups (User : Type) := List (List (ItemSpaceItem User))

/-- The loop of `linkItem`: the groups that stay, and the items of the others. -/
def takeOverlapping (newItem : ItemSpaceItem User) : Groups User → Groups User × List (ItemSpaceItem User)
  | [] => ([],[])
  | group :: rest =>
    let (kept,newGroupItems) := takeOverlapping newItem rest
    if group.any (overlaps shiftingSpacing newItem) then (kept,group ++ newGroupItems) else (group :: kept,newGroupItems)

def linkItem (newItem : ItemSpaceItem User) (groups : Groups User) : Groups User :=
  let (kept,newGroupItems) := takeOverlapping shiftingSpacing newItem groups
  kept ++ [newItem :: newGroupItems]

/-- `unlinkItem`; there is no result when there is no such item. -/
def unlinkItem (removeGroup removeItemInGroup : Nat) (groups : Groups User) : Option (Groups User) := do
  let group ← groups[removeGroup]?
  let _ ← group[removeItemInGroup]?
  let otherGroupItems := group.eraseIdx removeItemInGroup
  some (otherGroupItems.foldl (fun groups item => linkItem shiftingSpacing item groups) (groups.eraseIdx removeGroup))

theorem linkItem_eq (newItem : ItemSpaceItem User) (groups : Groups User) :
    linkItem shiftingSpacing newItem groups = link (overlaps shiftingSpacing) newItem groups := by
  have parts : takeOverlapping shiftingSpacing newItem groups =
      (groups.filter (fun g => !g.any (overlaps shiftingSpacing newItem)),
        (groups.filter (fun g => g.any (overlaps shiftingSpacing newItem))).flatten) := by
    induction groups with
    | nil => rfl
    | cons group rest ih =>
      by_cases touched : group.any (overlaps shiftingSpacing newItem) = true
      · simp [takeOverlapping,ih,touched]
      · simp [takeOverlapping,ih,touched]
  rw [linkItem,parts]
  rfl

inductive Op (User : Type)
  | linkItem (newItem : ItemSpaceItem User)
  | unlinkItem (removeGroup removeItemInGroup : Nat)

/-- The groups, and the items that were linked and not unlinked since. -/
structure World (User : Type) where
  groups : Groups User
  items : List (ItemSpaceItem User)
deriving Repr, DecidableEq

variable [DecidableEq User]

def perform (w : World User) : Op User → Option (World User)
  | .linkItem newItem => some ⟨linkItem shiftingSpacing newItem w.groups,newItem :: w.items⟩
  | .unlinkItem removeGroup removeItemInGroup => do
    let group ← w.groups[removeGroup]?
    let item ← group[removeItemInGroup]?
    let groups ← unlinkItem shiftingSpacing removeGroup removeItemInGroup w.groups
    some ⟨groups,w.items.erase item⟩

def Step (w : World User) (op : Op User) (w' : World User) : Prop := perform shiftingSpacing w op = some w'

instance (w w' : World User) (op : Op User) : Decidable (Step shiftingSpacing w op w') :=
  inferInstanceAs (Decidable (_ = _))

def empty : World User := ⟨[],[]⟩

/-- The rectangle of the item and the expanded one have an extent. -/
def Extended (item : ItemSpaceItem User) : Prop :=
  (0 < item.lastGeometry.w ∧ 0 < item.lastGeometry.w+2*shiftingSpacing) ∧
    0 < item.lastGeometry.h ∧ 0 < item.lastGeometry.h+2*shiftingSpacing

/-- Expanding makes no difference, or the rectangles have an extent. -/
def Mutual (item : ItemSpaceItem User) : Prop := shiftingSpacing = 0 ∨ Extended shiftingSpacing item

/-- Nothing lost and nothing doubled, and the groups the components. -/
structure Grouped (w : World User) : Prop where
  clusters : Clusters (overlaps shiftingSpacing) w.groups
  both : ∀ item ∈ w.items, Mutual shiftingSpacing item

variable {shiftingSpacing}

theorem spansMeet_iff {a b : ℚ × ℚ} : QRectF.spansMeet a b = true ↔ (a.1 ≠ a.2 ∧ b.1 ≠ b.2) ∧ a.1 < b.2 ∧ b.1 < a.2 := by
  simp [QRectF.spansMeet]

theorem spansMeet_comm {a b : ℚ × ℚ} (meets : QRectF.spansMeet a b = true) : QRectF.spansMeet b a = true := by
  obtain ⟨⟨first,second⟩,left,right⟩ := spansMeet_iff.mp meets
  exact spansMeet_iff.mpr ⟨⟨second,first⟩,right,left⟩

theorem spansMeet_swap {a b s v w : ℚ} (wide : 0 < v ∧ 0 < v+2*s) (wide' : 0 < w ∧ 0 < w+2*s)
    (meets : QRectF.spansMeet (QRectF.span (a+-s) (v+s- -s)) (QRectF.span b w) = true) :
    QRectF.spansMeet (QRectF.span (b+-s) (w+s- -s)) (QRectF.span a v) = true := by
  have up {x e : ℚ} (positive : 0 < e) : QRectF.span x e = (x,x+e) := if_neg (not_lt.mpr positive.le)
  rw [up (by linarith),up wide'.1] at meets
  rw [up (by linarith),up wide.1]
  obtain ⟨_,left,right⟩ := spansMeet_iff.mp meets
  simp only at left right
  refine spansMeet_iff.mpr ⟨⟨?_,?_⟩,?_,?_⟩ <;> simp only
  · linarith
  · linarith
  · linarith
  · linarith

theorem overlaps_swap {x y : ItemSpaceItem User} (both : Mutual shiftingSpacing x) (both' : Mutual shiftingSpacing y)
    (overlap : overlaps shiftingSpacing x y = true) : overlaps shiftingSpacing y x = true := by
  simp only [overlaps,QRectF.intersects,QRectF.adjusted,Bool.and_eq_true] at overlap ⊢
  obtain ⟨across,down⟩ := overlap
  rcases both with rfl | ⟨wide,high⟩
  · simp only [neg_zero,add_zero,sub_zero] at across down ⊢
    exact ⟨spansMeet_comm across,spansMeet_comm down⟩
  · rcases both' with rfl | ⟨wide',high'⟩
    · simp only [neg_zero,add_zero,sub_zero] at across down ⊢
      exact ⟨spansMeet_comm across,spansMeet_comm down⟩
    · exact ⟨spansMeet_swap wide wide' across,spansMeet_swap high high' down⟩

theorem perm_eraseIdx {α : Type} {l : List α} {i : Nat} {a : α} (here : l[i]? = some a) : l.Perm (a :: l.eraseIdx i) := by
  obtain ⟨inside,rfl⟩ := List.getElem?_eq_some_iff.mp here
  exact (List.getElem_cons_eraseIdx_perm inside).symm

theorem foldl_linkItem (l : List (ItemSpaceItem User)) (groups : Groups User) :
    l.foldl (fun groups item => linkItem shiftingSpacing item groups) groups =
      l.foldl (fun groups item => link (overlaps shiftingSpacing) item groups) groups := by
  simp only [linkItem_eq]

theorem unlinkItem_eq {groups : Groups User} {i j : Nat} {group : List (ItemSpaceItem User)} {item : ItemSpaceItem User}
    (inside : groups[i]? = some group) (here : group[j]? = some item) :
    unlinkItem shiftingSpacing i j groups = some ((group.eraseIdx j).foldl
      (fun groups item => link (overlaps shiftingSpacing) item groups) (groups.eraseIdx i)) := by
  simp only [unlinkItem,inside,here,Option.bind_eq_bind,Option.bind_some,foldl_linkItem]

theorem step_cases {w w' : World User} {op : Op User} (step : Step shiftingSpacing w op w') :
    (∃ newItem, op = .linkItem newItem ∧ w' = ⟨link (overlaps shiftingSpacing) newItem w.groups,newItem :: w.items⟩) ∨
      ∃ (i j : Nat) (group : List (ItemSpaceItem User)) (item : ItemSpaceItem User), w.groups[i]? = some group ∧ group[j]? = some item ∧
        w' = ⟨(group.eraseIdx j).foldl (fun groups item => link (overlaps shiftingSpacing) item groups) (w.groups.eraseIdx i),
          w.items.erase item⟩ := by
  cases op with
  | linkItem newItem =>
    refine .inl ⟨newItem,rfl,?_⟩
    rw [← linkItem_eq]
    exact (Option.some.inj step).symm
  | unlinkItem i j =>
    simp only [Step,perform,Option.bind_eq_bind,Option.bind_eq_some_iff] at step
    obtain ⟨group,inside,item,here,groups',unlinked,done⟩ := step
    rw [unlinkItem_eq inside here] at unlinked
    obtain rfl := Option.some.inj unlinked
    exact .inr ⟨i,j,group,item,inside,here,(Option.some.inj done).symm⟩

theorem split_perm {groups : Groups User} {i j : Nat} {group : List (ItemSpaceItem User)} {item : ItemSpaceItem User}
    (inside : groups[i]? = some group) (here : group[j]? = some item) :
    groups.flatten.Perm (item :: (group.eraseIdx j ++ (groups.eraseIdx i).flatten)) := by
  have outer := (perm_eraseIdx inside).flatten
  rw [flatten_cons] at outer
  exact outer.trans ((perm_eraseIdx here).append_right _)

theorem step_perm {w w' : World User} {op : Op User} (same : w.groups.flatten.Perm w.items)
    (step : Step shiftingSpacing w op w') : w'.groups.flatten.Perm w'.items := by
  rcases step_cases step with ⟨newItem,_,rfl⟩ | ⟨i,j,group,item,inside,here,rfl⟩
  · exact (link_perm newItem w.groups).trans (same.cons newItem)
  · have left := (same.symm.trans (split_perm inside here)).erase item
    rw [erase_cons_head] at left
    exact (foldl_link_perm _ _).trans left.symm

theorem step_grouped {w w' : World User} {op : Op User} (same : w.groups.flatten.Perm w.items)
    (grouped : Grouped shiftingSpacing w) (new : ∀ newItem, op = .linkItem newItem → Mutual shiftingSpacing newItem)
    (step : Step shiftingSpacing w op w') : Grouped shiftingSpacing w' := by
  have both (item : ItemSpaceItem User) (inside : item ∈ w.groups.flatten) : Mutual shiftingSpacing item :=
    grouped.both item (same.mem_iff.mp inside)
  rcases step_cases step with ⟨newItem,rfl,rfl⟩ | ⟨i,j,group,item,inside,here,rfl⟩
  · have first := new newItem rfl
    refine ⟨grouped.clusters.link fun z member => overlaps_swap (both z member) first,?_⟩
    exact forall_mem_cons.mpr ⟨first,grouped.both⟩
  · have parts := split_perm inside here
    refine ⟨?_,fun item member => grouped.both item (mem_of_mem_erase member)⟩
    refine Clusters.foldl_link (S := Mutual shiftingSpacing) (fun x y => overlaps_swap)
      (grouped.clusters.sublist (eraseIdx_sublist w.groups i)) ?_ ?_
    · intro x member
      exact both x (parts.mem_iff.mpr (mem_cons_of_mem _ (mem_append_right _ member)))
    · intro x member
      exact both x (parts.mem_iff.mpr (mem_cons_of_mem _ (mem_append_left _ member)))

theorem run_perm {ops : List (Op User)} {w : World User} (run : Run (Step shiftingSpacing) empty ops w) :
    w.groups.flatten.Perm w.items :=
  run.invariant (P := fun w => w.groups.flatten.Perm w.items) (fun _ _ _ same step => step_perm same step) .rfl

theorem run_grouped {ops : List (Op User)} {v w : World User} (run : Run (Step shiftingSpacing) v ops w)
    (same : v.groups.flatten.Perm v.items) (grouped : Grouped shiftingSpacing v)
    (new : ∀ newItem, Op.linkItem newItem ∈ ops → Mutual shiftingSpacing newItem) : Grouped shiftingSpacing w := by
  induction run with
  | nil => exact grouped
  | cons step _ ih =>
    refine ih (step_perm same step) (step_grouped same grouped ?_ step) fun newItem later => new newItem (mem_cons_of_mem _ later)
    rintro newItem rfl
    exact new newItem mem_cons_self

theorem empty_grouped : Grouped shiftingSpacing (empty : World User) := ⟨.nil,fun _ member => (not_mem_nil member).elim⟩

def square (x : ℚ) (user : Nat) : ItemSpaceItem Nat := ⟨⟨x,0,10,10⟩,user⟩

end KdeWorkspace.ItemGroups
