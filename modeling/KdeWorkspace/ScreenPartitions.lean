import KdeWorkspace.RealLayouts
import KdeWorkspace.SharedSets
import Mathlib.Data.Finset.Union

/-!
The connected parts of a layout without one of its screens, and the free cells where that screen may be put.

The parts are sets that are shared through pointers. When two of them are united, only one of the positions that point to
the second is told, so that the result is right only if no more point to it. `partition_iff` says when.
-/
namespace KdeWorkspace.ScreenPartitions
open Geometry OrderedMaps RealLayouts SharedSets List
open Or (inr inl)

/-- The places of the screens on the grid. -/
structure Layout where
  positions : OrderedMap Int QPoint
  distinct : positions.values.Nodup

structure HashOrder where
  order : List Nat → List Nat
  perm : ∀ l, (order l).Perm l

/-- The positions that are gone through, in the order of the ids. -/
def others (layout : OrderedMap Int QPoint) (screen : Int) : List QPoint :=
  match layout.lookup screen with
  | none => layout.values
  | some excludePoint => layout.values.filter fun p => p ≠ excludePoint

/-- The neighbours of a position with which its part is united. -/
def connected (st : Sets QPoint) (p : QPoint) : List QPoint :=
  [⟨p.x+1,p.y⟩,⟨p.x,p.y+1⟩].filter fun c => (st.partitions c).isSome

def uniteAround (st : Sets QPoint) (p : QPoint) : Option (Sets QPoint) :=
  (connected st p).foldlM (fun st c => unite st p c) st

/-- There is no result if a part is used that has been freed. -/
def partition (hash : HashOrder) (layout : OrderedMap Int QPoint) (screen : Int) : Option (List (Finset QPoint)) := do
  let points := others layout screen
  let st ← points.foldlM uniteAround (allocate points 0 ⟨fun _ => none,fun _ => none⟩)
  collect hash.order points st

def border (screens : Finset QPoint) : Finset QPoint :=
  screens.biUnion fun p =>
    ({⟨p.x+1,p.y⟩,⟨p.x,p.y+1⟩,⟨p.x-1,p.y⟩,⟨p.x,p.y-1⟩} : Finset QPoint).filter fun c => c ∉ screens

/-- There is no result if the first of no parts is taken either. -/
def possiblePositions (hash : HashOrder) (layout : OrderedMap Int QPoint) (screen : Int) : Option (Finset QPoint) := do
  let partitions ← partition hash layout screen
  let first ← partitions[0]?
  some (partitions.foldl (fun result part => result ∩ border part) (border first))

/-- Connected through horizontal and vertical neighbours. -/
def Linked (points : List QPoint) : QPoint → QPoint → Prop :=
  Relation.ReflTransGen fun p q => (p ∈ points ∧ q ∈ points) ∧ Adjacent p q

def Components (points : List QPoint) (parts : List (Finset QPoint)) : Prop :=
  parts.Nodup ∧ ∀ s, s ∈ parts ↔ ∃ p ∈ points, ∀ q, q ∈ s ↔ q ∈ points ∧ Linked points p q

/-- The free cells beside every component. -/
def Possible (points : List QPoint) (parts : List (Finset QPoint)) (cells : Finset QPoint) : Prop :=
  ∀ c, c ∈ cells ↔ c ∉ points ∧ ∀ part ∈ parts, ∃ p ∈ part, Adjacent p c

/-- The parts are the components, and the possible positions are found. -/
def Right (hash : HashOrder) (layout : OrderedMap Int QPoint) (screen : Int) : Prop :=
  ∃ parts, partition hash layout screen = some parts ∧ Components (others layout screen) parts ∧
    ∃ cells, possiblePositions hash layout screen = some cells ∧ Possible (others layout screen) parts cells

/-- The neighbours right of and below each position, in the order in which they are gone through. -/
def pairs (points : List QPoint) : List (QPoint × QPoint) :=
  points.flatMap fun p => ([⟨p.x+1,p.y⟩,⟨p.x,p.y+1⟩].filter fun c => c ∈ points).map (Prod.mk p)

/-- There is another screen, and whenever a neighbour is not connected by the earlier pairs, it is connected with no other
position by them. -/
def Holds (layout : OrderedMap Int QPoint) (screen : Int) : Prop :=
  others layout screen ≠ [] ∧ Smooth (others layout screen) [] (pairs (others layout screen))

variable {points : List QPoint} {st next : Sets QPoint} {p q : QPoint}

theorem adjacent_symm (beside : Adjacent p q) : Adjacent q p := by
  rcases beside with rfl | rfl | rfl | rfl
  · exact inr (inl (by simp))
  · exact inl (by simp)
  · exact inr (inr (inr (by simp)))
  · exact inr (inr (inl (by simp)))

theorem mem_pairs : (p,q) ∈ pairs points ↔ (p ∈ points ∧ q ∈ points) ∧ (q = ⟨p.x+1,p.y⟩ ∨ q = ⟨p.x,p.y+1⟩) := by
  simp only [pairs,mem_flatMap,mem_map,mem_filter,Prod.mk.injEq]
  constructor
  · rintro ⟨r,inside,c,⟨beside,there⟩,rfl,rfl⟩
    exact ⟨⟨inside,of_decide_eq_true there⟩,by simpa using beside⟩
  · rintro ⟨⟨inside,there⟩,beside⟩
    exact ⟨p,inside,q,⟨by simpa using beside,decide_eq_true there⟩,rfl,rfl⟩

theorem joined_pairs_iff : Joined (pairs points) p q ↔ Linked points p q := by
  have back : ∀ {p q}, Linked points p q → Linked points q p := by
    intro p q linked
    induction linked with
    | refl => exact .refl
    | tail _ step ih => exact .head ⟨step.1.symm,adjacent_symm step.2⟩ ih
  constructor
  · intro joined
    induction joined with
    | rel p q there =>
      obtain ⟨both,rfl | rfl⟩ := mem_pairs.mp there
      · exact .single ⟨both,inl rfl⟩
      · exact .single ⟨both,inr (inr (inl rfl))⟩
    | refl p => exact .refl
    | symm p q _ ih => exact back ih
    | trans p q r _ _ first second => exact first.trans second
  · intro linked
    induction linked with
    | refl => exact .refl _
    | @tail q r _ step ih =>
      refine ih.trans _ _ _ ?_
      obtain ⟨both,rfl | rfl | rfl | rfl⟩ := step
      · exact .rel _ _ (mem_pairs.mpr ⟨both,inl rfl⟩)
      · exact .symm _ _ (.rel _ _ (mem_pairs.mpr ⟨both.symm,inl (by simp)⟩))
      · exact .rel _ _ (mem_pairs.mpr ⟨both,inr rfl⟩)
      · exact .symm _ _ (.rel _ _ (mem_pairs.mpr ⟨both.symm,inr (by simp)⟩))

theorem classes_pairs (parts : List (Finset QPoint)) : Classes points (pairs points) parts ↔ Components points parts := by
  simp only [Classes,Components,joined_pairs_iff]

/-- A position has a pointer exactly if it is gone through. -/
def Pointed (points : List QPoint) (st : Sets QPoint) : Prop := ∀ q, (st.partitions q).isSome = decide (q ∈ points)

theorem unite_all_pointed (pointed : Pointed points st) (around : List QPoint)
    (result : around.foldlM (fun st c => unite st p c) st = some next) : Pointed points next := by
  induction around generalizing st with
  | nil =>
    obtain rfl := Option.some.inj result
    exact pointed
  | cons c around ih =>
    rw [foldlM_cons] at result
    obtain ⟨mid,one,rest⟩ := Option.bind_eq_some_iff.mp result
    exact ih (fun q => (unite_pointed one q).trans (pointed q)) rest

theorem loop_eq (pointed : Pointed points st) (some_points : List QPoint) :
    some_points.foldlM uniteAround st =
      (some_points.flatMap fun p => ([⟨p.x+1,p.y⟩,⟨p.x,p.y+1⟩].filter fun c => c ∈ points).map (Prod.mk p)).foldlM
        (fun st e => unite st e.1 e.2) st := by
  induction some_points generalizing st with
  | nil => rfl
  | cons p some_points ih =>
    have around : connected st p = [⟨p.x+1,p.y⟩,⟨p.x,p.y+1⟩].filter fun c => c ∈ points := by
      rw [connected]
      congr 1
      funext c
      exact pointed c
    rw [foldlM_cons,flatMap_cons,foldlM_append,foldlM_map,← around,uniteAround]
    dsimp only
    cases first : (connected st p).foldlM (fun st c => unite st p c) st with
    | none => rfl
    | some mid => exact ih (unite_all_pointed pointed _ first)

theorem others_nodup (layout : Layout) (screen : Int) : (others layout.positions screen).Nodup := by
  rw [others]
  split
  · exact layout.distinct
  · exact layout.distinct.filter _

theorem pairs_inside : ∀ e ∈ pairs points, e.1 ∈ points ∧ e.2 ∈ points := by
  rintro ⟨p,q⟩ there
  exact (mem_pairs.mp there).1

theorem partition_eq (hash : HashOrder) (layout : Layout) (screen : Int) :
    partition hash layout.positions screen =
      ((pairs (others layout.positions screen)).foldlM (fun st e => unite st e.1 e.2)
        (allocate (others layout.positions screen) 0 ⟨fun _ => none,fun _ => none⟩)).bind
          (collect hash.order (others layout.positions screen)) := by
  have shares := shares_allocate (others_nodup layout screen)
  have pointed : Pointed (others layout.positions screen)
      (allocate (others layout.positions screen) 0 ⟨fun _ => none,fun _ => none⟩) := by
    intro q
    rw [Bool.eq_iff_iff,decide_eq_true_iff,Option.isSome_iff_exists]
    exact ⟨fun ⟨_,found⟩ => shares.member found,shares.pointer⟩
  rw [partition,loop_eq pointed]
  rfl

theorem partition_smooth (hash : HashOrder) (layout : Layout) (screen : Int)
    (smooth : Smooth (others layout.positions screen) [] (pairs (others layout.positions screen))) :
    ∃ parts, partition hash layout.positions screen = some parts ∧ Components (others layout.positions screen) parts := by
  obtain ⟨next,run,shares⟩ := run_shares (shares_allocate (others_nodup layout screen)) pairs_inside smooth
  obtain ⟨parts,collected,classes⟩ := collect_shares hash.perm shares
  refine ⟨parts,?_,(classes_pairs parts).mp classes⟩
  rw [partition_eq,run,Option.bind_some,collected]

theorem partition_rough (hash : HashOrder) (layout : Layout) (screen : Int)
    (rough : ¬ Smooth (others layout.positions screen) [] (pairs (others layout.positions screen))) :
    partition hash layout.positions screen = none := by
  rw [partition_eq,Option.bind_eq_none_iff]
  intro next run
  exact collect_dangling hash.perm (run_dangles (shares_allocate (others_nodup layout screen)) pairs_inside rough run)

theorem mem_border {screens : Finset QPoint} {c : QPoint} :
    c ∈ border screens ↔ c ∉ screens ∧ ∃ p ∈ screens, Adjacent p c := by
  simp only [border,Finset.mem_biUnion,Finset.mem_filter,Finset.mem_insert,Finset.mem_singleton,Adjacent]
  constructor
  · rintro ⟨p,inside,beside,free⟩
    exact ⟨free,p,inside,by tauto⟩
  · rintro ⟨free,p,inside,beside⟩
    exact ⟨p,inside,by tauto,free⟩

variable {parts : List (Finset QPoint)}

theorem mem_foldl_inter {start : Finset QPoint} {c : QPoint} :
    c ∈ parts.foldl (fun result part => result ∩ border part) start ↔ c ∈ start ∧ ∀ part ∈ parts, c ∈ border part := by
  induction parts generalizing start with
  | nil => simp
  | cons part parts ih => rw [foldl_cons,ih,Finset.mem_inter,forall_mem_cons,and_assoc]

theorem exists_component (components : Components points parts) (inside : p ∈ points) : ∃ part ∈ parts, p ∈ part := by
  classical
  have members : ∀ q, q ∈ points.toFinset.filter (Linked points p) ↔ q ∈ points ∧ Linked points p q := by
    intro q
    rw [Finset.mem_filter,mem_toFinset]
  exact ⟨_,(components.2 _).mpr ⟨p,inside,members⟩,(members p).mpr ⟨inside,.refl⟩⟩

theorem possible_of_parts {hash : HashOrder} {layout : OrderedMap Int QPoint} {screen : Int}
    (found : partition hash layout screen = some parts)
    (components : Components (others layout screen) parts) (any : others layout screen ≠ []) :
    ∃ cells, possiblePositions hash layout screen = some cells ∧ Possible (others layout screen) parts cells := by
  obtain ⟨p,rest,points⟩ := exists_cons_of_ne_nil any
  obtain ⟨one,inside,_⟩ := exists_component components (points ▸ mem_cons_self : p ∈ others layout screen)
  obtain ⟨first,more,rfl⟩ := exists_cons_of_ne_nil (ne_nil_of_mem inside)
  refine ⟨(first :: more).foldl (fun result part => result ∩ border part) (border first),?_,?_⟩
  · rw [possiblePositions,found]
    rfl
  · intro c
    rw [mem_foldl_inter]
    constructor
    · rintro ⟨_,beside⟩
      refine ⟨?_,fun part there => (mem_border.mp (beside part there)).2⟩
      intro taken
      obtain ⟨part,there,mine⟩ := exists_component components taken
      exact (mem_border.mp (beside part there)).1 mine
    · rintro ⟨free,beside⟩
      have all : ∀ part ∈ first :: more, c ∈ border part := by
        intro part there
        refine mem_border.mpr ⟨?_,beside part there⟩
        intro mine
        obtain ⟨q,_,members⟩ := (components.2 part).mp there
        exact free ((members c).mp mine).1
      exact ⟨all first mem_cons_self,all⟩

theorem no_parts (components : Components [] parts) : parts = [] := by
  rw [eq_nil_iff_forall_not_mem]
  intro s inside
  obtain ⟨p,there,_⟩ := (components.2 s).mp inside
  cases there

/-- The parts and the possible positions are right exactly if there is another screen and whenever a neighbour is not
connected by the earlier pairs, it is connected with no other position by them. -/
theorem partition_iff (hash : HashOrder) (layout : Layout) (screen : Int) :
    Right hash layout.positions screen ↔ Holds layout.positions screen := by
  by_cases smooth : Smooth (others layout.positions screen) [] (pairs (others layout.positions screen))
  · obtain ⟨parts,found,components⟩ := partition_smooth hash layout screen smooth
    by_cases any : others layout.positions screen = []
    · constructor
      · rintro ⟨again,same,_,cells,possible,_⟩
        rw [any] at components
        rw [possiblePositions,found,no_parts components] at possible
        cases possible
      · exact fun holds => absurd any holds.1
    · exact ⟨fun _ => ⟨any,smooth⟩,fun _ => ⟨parts,found,components,possible_of_parts found components any⟩⟩
  · constructor
    · rintro ⟨parts,found,_⟩
      rw [partition_rough hash layout screen smooth] at found
      cases found
    · exact fun holds => absurd holds.2 smooth

/-- A row of three screens of which the second one has the first id. -/
def row : Layout := ⟨⟨[(0,⟨1,0⟩),(1,⟨0,0⟩),(2,⟨2,0⟩)],by decide⟩,by decide⟩

def sameOrder : HashOrder := ⟨id,.refl⟩

/-- The part of the second screen is freed while the third one still points to it. -/
theorem freed_used : ¬ ∀ (hash : HashOrder) (layout : Layout) (screen : Int), Right hash layout.positions screen := by
  intro all
  obtain ⟨parts,found,_⟩ := all sameOrder row 3
  have freed : partition sameOrder row.positions 3 = none := by decide +kernel
  rw [freed] at found
  cases found

end KdeWorkspace.ScreenPartitions
