import KdeWorkspace.RectOperations

/-!
The finest grouping of rectangles in which the bounding rectangles of the groups do not meet.

Two members are together if every grouping of this kind puts them into one group (`Together`). Groups whose members are
together and whose bounding rectangles meet are together as a whole (`one_union`).
-/
namespace KdeWorkspace.Clusterings
open Geometry RectOperations

variable {r s : QRect}

theorem intersects_iff (valid : r.isValid = true) (valid' : s.isValid = true) :
    intersects r s = true ↔ (r.x1 ≤ s.x2 ∧ s.x1 ≤ r.x2) ∧ r.y1 ≤ s.y2 ∧ s.y1 ≤ r.y2 := by
  rw [intersects,isNull_of_valid valid,isNull_of_valid valid',normalized_of_valid valid,normalized_of_valid valid']
  simp only [Bool.or_self,Bool.false_eq_true,if_false]
  split
  · simp only [Bool.false_eq_true,false_iff]
    omega
  · split
    · simp only [Bool.false_eq_true,false_iff]
      omega
    · simp only [true_iff]
      omega

theorem intersects_comm (r s : QRect) : intersects r s = intersects s r := by
  simp only [intersects,Bool.or_comm (isNull r),gt_iff_lt,or_comm (a := (normalized s).x2 < (normalized r).x1),
    or_comm (a := (normalized s).y2 < (normalized r).y1)]

theorem isValid_within (valid : r.isValid = true) (within : Within r s) : s.isValid = true := by
  have sides := of_decide_eq_true valid
  simp only [Within] at within
  exact decide_eq_true (by omega)

/-- Larger rectangles meet as well. -/
theorem intersects_within {r' s' : QRect} (valid : r.isValid = true) (valid' : s.isValid = true) (within : Within r r')
    (within' : Within s s') (meets : intersects r s = true) : intersects r' s' = true := by
  rw [intersects_iff valid valid'] at meets
  rw [intersects_iff (isValid_within valid within) (isValid_within valid' within')]
  simp only [Within] at within within'
  omega

variable {α : Type} (geom : α → QRect)

/-- The smallest rectangle around some members. -/
def Bounds (S : α → Prop) (r : QRect) : Prop := (∃ o, S o) ∧ ∀ s, Within r s ↔ ∀ o, S o → Within (geom o) s

/-- The bounding rectangles of different groups do not meet. -/
def Separated (all : List α) (group : α → Nat) : Prop :=
  ∀ n m r s, n ≠ m → Bounds geom (fun o => o ∈ all ∧ group o = n) r → Bounds geom (fun o => o ∈ all ∧ group o = m) s →
    intersects r s = false

/-- Every such grouping puts the two into one group. -/
def Together (all : List α) (o p : α) : Prop := ∀ group, Separated geom all group → group o = group p

/-- Members of a whole that are together. -/
def One (all : List α) (S : α → Prop) : Prop := (∀ o, S o → o ∈ all) ∧ ∀ o p, S o → S p → Together geom all o p

variable {geom} {S T : α → Prop} {all : List α} {o p : α}

namespace Bounds

theorem congr (same : ∀ o, S o ↔ T o) (bounds : Bounds geom S r) : Bounds geom T r := by
  have equal : S = T := funext fun o => propext (same o)
  rwa [← equal]

theorem covers (bounds : Bounds geom S r) (inside : S o) : Within (geom o) r :=
  (bounds.2 r).mp ⟨Int.le_refl _,Int.le_refl _,Int.le_refl _,Int.le_refl _⟩ o inside

theorem single (o : α) : Bounds geom (fun p => p = o) (geom o) :=
  ⟨⟨o,rfl⟩,fun _ => ⟨fun within _ same => same ▸ within,fun within => within o rfl⟩⟩

theorem within (bounds : Bounds geom S r) (bounds' : Bounds geom T s) (sub : ∀ o, S o → T o) : Within r s :=
  (bounds.2 s).mpr fun _ inside => bounds'.covers (sub _ inside)

theorem unique (bounds : Bounds geom S r) (bounds' : Bounds geom T s) (same : ∀ o, S o ↔ T o) : r = s := by
  have first := bounds.within bounds' fun o => (same o).mp
  have second := bounds'.within bounds fun o => (same o).mpr
  cases r
  cases s
  simp only [Within] at first second
  congr <;> omega

theorem isValid (bounds : Bounds geom S r) (valid : ∀ o, S o → (geom o).isValid = true) : r.isValid = true := by
  obtain ⟨o,inside⟩ := bounds.1
  exact isValid_within (valid o inside) (bounds.covers inside)

theorem union (bounds : Bounds geom S r) (bounds' : Bounds geom T s) :
    Bounds geom (fun o => S o ∨ T o) ⟨min r.x1 s.x1,min r.y1 s.y1,max r.x2 s.x2,max r.y2 s.y2⟩ := by
  refine ⟨bounds.1.imp fun _ => Or.inl,fun t => ?_⟩
  have both : Within ⟨min r.x1 s.x1,min r.y1 s.y1,max r.x2 s.x2,max r.y2 s.y2⟩ t ↔ Within r t ∧ Within s t := by
    simp only [Within]
    omega
  rw [both,bounds.2,bounds'.2]
  exact ⟨fun every o inside => inside.elim (every.1 o) (every.2 o),
    fun every => ⟨fun o inside => every o (Or.inl inside),fun o inside => every o (Or.inr inside)⟩⟩

end Bounds

theorem exists_bounds {l : List α} (inside : o ∈ l) : ∃ r, Bounds geom (· ∈ l) r := by
  induction l generalizing o with
  | nil => cases inside
  | cons first l ih =>
    cases l with
    | nil => exact ⟨geom first,(Bounds.single first).congr fun p => List.mem_singleton.symm⟩
    | cons second l =>
      obtain ⟨r,bounds⟩ := ih List.mem_cons_self
      exact ⟨_,((Bounds.single first).union bounds).congr fun p => List.mem_cons.symm⟩

/-- Every member is in the bounding rectangle of its group. -/
theorem exists_bounds_group (group : α → Nat) (inside : o ∈ all) :
    ∃ r, Bounds geom (fun p => p ∈ all ∧ group p = group o) r := by
  obtain ⟨r,bounds⟩ := @exists_bounds _ geom o (all.filter fun p => group p = group o)
    (List.mem_filter.mpr ⟨inside,decide_eq_true rfl⟩)
  exact ⟨r,bounds.congr fun p => by rw [List.mem_filter,decide_eq_true_iff]⟩

theorem together_congr {all' : List α} (same : ∀ o, o ∈ all ↔ o ∈ all') :
    Together geom all o p ↔ Together geom all' o p := by
  simp only [Together,Separated,same]

theorem together_of_meeting (valid : ∀ o ∈ all, (geom o).isValid = true) (one : One geom all S) (one' : One geom all T)
    (bounds : Bounds geom S r) (bounds' : Bounds geom T s) (meets : intersects r s = true) (here : S o) (there : T p) :
    Together geom all o p := by
  intro group separated
  by_contra differ
  obtain ⟨r',whole⟩ := @exists_bounds_group _ geom _ _ group (one.1 o here)
  obtain ⟨s',whole'⟩ := @exists_bounds_group _ geom _ _ group (one'.1 p there)
  have within := bounds.within whole fun q inside => ⟨one.1 q inside,one.2 q o inside here group separated⟩
  have within' := bounds'.within whole' fun q inside => ⟨one'.1 q inside,one'.2 q p inside there group separated⟩
  have meet := intersects_within (bounds.isValid fun q inside => valid q (one.1 q inside))
    (bounds'.isValid fun q inside => valid q (one'.1 q inside)) within within' meets
  rw [separated _ _ _ _ differ whole whole'] at meet
  cases meet

/-- Groups that meet are together. -/
theorem one_union (valid : ∀ o ∈ all, (geom o).isValid = true) (one : One geom all S) (one' : One geom all T)
    (bounds : Bounds geom S r) (bounds' : Bounds geom T s) (meets : intersects r s = true) :
    One geom all fun o => S o ∨ T o := by
  refine ⟨fun o inside => inside.elim (one.1 o) (one'.1 o),?_⟩
  have across : ∀ {o p}, S o → T p → Together geom all o p := together_of_meeting valid one one' bounds bounds' meets
  rintro o p (here | here) (there | there)
  · exact one.2 o p here there
  · exact across here there
  · exact fun group separated => (across there here group separated).symm
  · exact one'.2 o p here there

end KdeWorkspace.Clusterings
