import KdeWorkspace.Clusterings
import KdeWorkspace.OrderedMaps
import Mathlib.Algebra.Order.Group.Int
import Mathlib.Data.List.Induction
import Mathlib.Data.List.Pairwise

/-!
How the screens are built from the outputs: every output is put into the first screen that it meets, into a screen that
is still empty or into a new one, then screens that meet are merged, and the screens that are left are renumbered.

Whatever the order of the outputs and the screens before are, the screens are in the end the finest grouping of the
outputs in which no two screens meet (`rebuildScreens_built`).
-/
namespace KdeWorkspace.ScreenBuilding
open Geometry RectOperations OrderedMaps Clusterings List
open OrderedMap (mem_keys_iff lookup_insert lookup_erase lookup_of_mem)

/-- An output, known by its number. -/
structure Output where
  number : Nat
  isConnected : Bool
  isActivated : Bool
  geom : QRect
deriving Repr, DecidableEq

structure Screen where
  id : Int
  outputs : List Output
  geom : QRect
deriving Repr, DecidableEq

abbrev Screens := OrderedMap Int Screen

/-- `QRect::isEmpty`. -/
def isEmpty (r : QRect) : Bool := decide (r.x1 > r.x2 ∨ r.y1 > r.y2)

/-- The geometry of a screen with one more output. -/
def extend (geom : QRect) (output : Output) : QRect := if isEmpty geom then output.geom else united geom output.geom

def Screen.add (s : Screen) (output : Output) : Screen :=
  { s with outputs := s.outputs ++ [output], geom := extend s.geom output }

/-- A screen without outputs, new or cleared. -/
def emptyScreen (id : Int) : Screen := ⟨id,[],nullRect⟩

def findId (screens : Screens) : Int :=
  let free : Nat := ((List.range screens.entries.length).find? fun (i : Nat) => screens.lookup i = none).getD screens.entries.length
  free

def assign (screens : Screens) (output : Output) : Screens :=
  if !output.isConnected || !output.isActivated then screens
  else
    match screens.entries.find? fun e => intersects e.2.geom output.geom with
    | some e => screens.insert e.1 (e.2.add output)
    | none =>
      match screens.entries.find? fun e => e.2.outputs.isEmpty with
      | some e => screens.insert e.1 (e.2.add output)
      | none => screens.insert (findId screens) ((emptyScreen (findId screens)).add output)

def removeEmpty (screens : Screens) : Screens := screens.filter fun _ s => !s.outputs.isEmpty

/-- The first two screens that meet. -/
def firstMeeting : List (Int × Screen) → Option ((Int × Screen) × (Int × Screen))
  | [] => none
  | i :: entries =>
    match entries.find? fun j => intersects i.2.geom j.2.geom with
    | some j => some (i,j)
    | none => firstMeeting entries

def merge (screens : Screens) (i j : Int × Screen) : Screens :=
  (screens.insert i.1 (j.2.outputs.foldl Screen.add i.2)).erase j.1

/-- There is no result if the loop takes more rounds than are given. -/
def mergeAll : Nat → Screens → Option Screens
  | 0, _ => none
  | rounds+1, screens =>
    match firstMeeting screens.entries with
    | none => some screens
    | some (i,j) => mergeAll rounds (merge screens i j)

/-- The loop over the keys for the lowest one. -/
def lowest : List (Int × Screen) → Int → Int
  | [], min => min
  | e :: entries, min => lowest entries (if min = -1 ∨ e.1 < min then e.1 else min)

def renumberAt (screens : Screens) (i : Nat) : Screens :=
  match screens.lookup i with
  | some _ => screens
  | none =>
    let min := lowest screens.entries (-1)
    match screens.lookup min with
    | none => screens
    | some screen => (screens.erase min).insert i { screen with id := i }

/-- The number of screens stays the same in the loop. -/
def renumber (screens : Screens) : Screens := (List.range screens.entries.length).foldl renumberAt screens

def Screen.clearOutputs (s : Screen) : Screen := { s with outputs := [], geom := nullRect }

def buildScreens (rounds : Nat) (outputs : List Output) (screens : Screens) : Option Screens :=
  (mergeAll rounds (removeEmpty (outputs.foldl assign screens))).map renumber

def rebuildScreens (rounds : Nat) (outputs : List Output) (screens : Screens) : Option Screens :=
  buildScreens rounds outputs (screens.mapValues Screen.clearOutputs)

/-- The outputs; those that are used are not empty. -/
structure Outputs where
  outputs : List Output
  nodup : outputs.Nodup
  valid : ∀ o ∈ outputs, o.isConnected → o.isActivated → o.geom.isValid = true

def active (outputs : List Output) : List Output := outputs.filter fun o => o.isConnected && o.isActivated

/-- The outputs and the geometry of a screen. -/
abbrev Face := List Output × QRect

def Screen.face (s : Screen) : Face := (s.outputs,s.geom)

def faces (screens : Screens) : List Face := screens.entries.map fun e => e.2.face

/-- The outputs are in exactly one screen each, and two of them in the same screen if every grouping in which no two
screens meet has them together. -/
structure Built (all : List Output) (faces : List Face) : Prop where
  each_once : (faces.flatMap Prod.fst).Perm all
  nonempty : ∀ f ∈ faces, f.1 ≠ []
  bounds : ∀ f ∈ faces, Bounds Output.geom (· ∈ f.1) f.2
  apart : faces.Pairwise fun f g => intersects f.2 g.2 = false
  finest : ∀ f ∈ faces, ∀ o ∈ f.1, ∀ p ∈ all, p ∈ f.1 ↔ Together Output.geom all o p

/-- The rectangle around some outputs, each added to the ones before. -/
def geomOf (outputs : List Output) : QRect := outputs.foldl extend nullRect

variable {all done g h : List Output} {o : Output} {r : QRect} {screens : Screens} {f : Face} {l l' : List Face}
  {e i j : Int × Screen} {n : Int} {s : Screen}

theorem geomOf_append (g h : List Output) : geomOf (g ++ h) = h.foldl extend (geomOf g) := foldl_append

theorem extend_valid (valid : r.isValid = true) : extend r o = united r o.geom := by
  have sides := of_decide_eq_true valid
  apply if_neg
  rw [isEmpty,decide_eq_true_iff]
  omega

/-- The rectangle that grows with the outputs is the smallest one around them. -/
theorem bounds_geomOf (valid : ∀ o ∈ g, o.geom.isValid = true) (any : g ≠ []) :
    Bounds Output.geom (· ∈ g) (geomOf g) := by
  induction g using reverseRecOn with
  | nil => exact absurd rfl any
  | append_singleton g o ih =>
    rw [geomOf_append,foldl_cons,foldl_nil]
    by_cases first : g = []
    · subst first
      exact (Bounds.single o).congr fun p => mem_singleton.symm
    · have bounds := ih (fun p inside => valid p (mem_append_left _ inside)) first
      have box := bounds.isValid fun p inside => valid p (mem_append_left _ inside)
      have last := valid o (mem_append_right _ (mem_singleton_self o))
      rw [extend_valid box,united_of_valid box last]
      refine (bounds.union (Bounds.single o)).congr fun p => ?_
      rw [mem_append,mem_singleton]

theorem foldl_add (s : Screen) (outputs : List Output) :
    (outputs.foldl Screen.add s).face = (s.outputs ++ outputs,outputs.foldl extend s.geom) := by
  induction outputs generalizing s with
  | nil => rw [append_nil]; rfl
  | cons o outputs ih =>
    rw [foldl_cons,ih,Screen.add,append_assoc]
    rfl

/-- What a screen holds is together. -/
def Part (all : List Output) (f : Face) : Prop := f.2 = geomOf f.1 ∧ One Output.geom all (· ∈ f.1)

theorem part_single (inside : o ∈ all) : Part all ([o],o.geom) := by
  refine ⟨rfl,fun p here => mem_singleton.mp here ▸ inside,?_⟩
  intro p q here there
  rw [mem_singleton.mp here,mem_singleton.mp there]
  exact fun _ _ => rfl

section
variable (valid : ∀ o ∈ all, o.geom.isValid = true)
include valid

theorem Part.bounds (part : Part all f) (any : f.1 ≠ []) : Bounds Output.geom (· ∈ f.1) f.2 := by
  rw [part.1]
  exact bounds_geomOf (fun o inside => valid o (part.2.1 o inside)) any

/-- Screens that meet make one. -/
theorem Part.append (first : Part all (g,r)) (second : Part all f) (meets : intersects r f.2 = true) (any : f.1 ≠ []) :
    Part all (g ++ f.1,f.1.foldl extend r) := by
  have some : g ≠ [] := by
    rintro rfl
    have blank : r = nullRect := first.1
    rw [blank] at meets
    cases meets
  have one := one_union valid first.2 second.2 (first.bounds valid some) (second.bounds valid any) meets
  refine ⟨?_,fun o here => one.1 o (mem_append.mp here),?_⟩
  · rw [geomOf_append,← first.1]
  · exact fun o p here there => one.2 o p (mem_append.mp here) (mem_append.mp there)

end

structure Parts (all done : List Output) (l : List Face) : Prop where
  each_once : (l.flatMap Prod.fst).Perm done
  part : ∀ f ∈ l, Part all f

theorem Parts.perm (parts : Parts all done l) (same : l.Perm l') : Parts all done l' :=
  ⟨(same.symm.flatMap_right _).trans parts.each_once,fun f inside => parts.part f (same.mem_iff.mpr inside)⟩

theorem faces_insert (screens : Screens) (n : Int) (s : Screen) :
    (faces (screens.insert n s)).Perm (s.face :: faces (screens.erase n)) :=
  (OrderedMap.insert_perm screens n s).map _

theorem faces_erase (found : screens.lookup n = some s) : (faces screens).Perm (s.face :: faces (screens.erase n)) :=
  (OrderedMap.erase_perm found).map _

theorem erase_absent (absent : screens.lookup n = none) : screens.erase n = screens := by
  apply OrderedMap.ext_lookup
  intro m
  rw [lookup_erase]
  split
  case isTrue here => rw [here,absent]
  case isFalse => rfl

/-- An output is added to a screen. -/
theorem Parts.add (parts : Parts all done (faces screens)) (found : screens.lookup n = some s)
    (fits : Part all (s.add o).face) : Parts all (done ++ [o]) (faces (screens.insert n (s.add o))) := by
  have before := parts.perm (faces_erase found)
  refine Parts.perm ⟨?_,?_⟩ (faces_insert screens n (s.add o)).symm
  · refine Perm.trans ?_ (before.each_once.append_right [o])
    rw [flatMap_cons,flatMap_cons,append_assoc]
    change (s.outputs ++ [o] ++ _).Perm (s.outputs ++ _)
    rw [append_assoc]
    exact perm_append_comm.append_left _
  · exact forall_mem_cons.mpr ⟨fits,(forall_mem_cons.mp before.part).2⟩

theorem lookup_findId (screens : Screens) : screens.lookup (findId screens) = none := by
  rw [findId]
  cases search : (range screens.entries.length).find? fun (i : Nat) => decide (screens.lookup i = none) with
  | some i =>
    have free := find?_some search
    exact of_decide_eq_true free
  | none =>
    rw [Option.getD_none,OrderedMap.lookup_eq_none_iff]
    intro inside
    rw [find?_eq_none] at search
    have sub : (range (screens.entries.length+1)).map Nat.cast ⊆ screens.keys := by
      intro n there
      obtain ⟨i,below,rfl⟩ := mem_map.mp there
      rcases Nat.lt_succ_iff_lt_or_eq.mp (mem_range.mp below) with before | rfl
      · by_contra absent
        exact search i (mem_range.mpr before) (decide_eq_true (OrderedMap.lookup_eq_none_iff.mpr absent))
      · exact inside
    have few := (subperm_of_subset (nodup_range.map fun _ _ => Int.ofNat.inj) sub).length_le
    rw [length_map,length_range,OrderedMap.keys,length_map] at few
    omega

theorem assign_parts (valid : ∀ o ∈ all, o.geom.isValid = true) (inside : o ∈ all) (parts : Parts all done (faces screens))
    (used : (o.isConnected && o.isActivated) = true) : Parts all (done ++ [o]) (faces (assign screens o)) := by
  obtain ⟨connected,activated⟩ := Bool.and_eq_true_iff.mp used
  have part : ∀ e ∈ screens.entries, Part all e.2.face := fun e there => parts.part _ (mem_map_of_mem there)
  rw [assign,connected,activated]
  simp only [Bool.not_true,Bool.or_self,Bool.false_eq_true,if_false]
  split
  case h_1 e search =>
    have there := mem_of_find?_eq_some search
    have meets := find?_some search
    exact parts.add (lookup_of_mem there)
      ((part e there).append valid (part_single inside) meets (cons_ne_nil _ _))
  case h_2 =>
    split
    case h_1 e search =>
      have there := mem_of_find?_eq_some search
      have none := find?_some search
      have blank := List.isEmpty_iff.mp none
      refine parts.add (lookup_of_mem there) ?_
      have geom : e.2.geom = geomOf e.2.outputs := (part e there).1
      rw [Screen.face,Screen.add,geom,blank]
      exact part_single inside
    case h_2 =>
      refine Parts.perm ⟨?_,?_⟩ (faces_insert _ _ _).symm
      · rw [erase_absent (lookup_findId screens)]
        exact (parts.each_once.cons o).trans (perm_append_singleton o done).symm
      · rw [erase_absent (lookup_findId screens)]
        exact forall_mem_cons.mpr ⟨part_single inside,parts.part⟩

theorem foldl_assign {outputs : List Output} (valid : ∀ o ∈ all, o.geom.isValid = true) (sub : ∀ o ∈ active outputs, o ∈ all)
    (parts : Parts all done (faces screens)) : Parts all (done ++ active outputs) (faces (outputs.foldl assign screens)) := by
  induction outputs generalizing screens done with
  | nil =>
    rw [active,filter_nil,append_nil]
    exact parts
  | cons o outputs ih =>
    rw [foldl_cons]
    cases used : o.isConnected && o.isActivated with
    | false =>
      have skips : active (o :: outputs) = active outputs := filter_cons_of_neg (Bool.eq_false_iff.mp used)
      have still : assign screens o = screens := by
        rw [assign,← Bool.not_and,used]
        rfl
      rw [skips] at sub ⊢
      rw [still]
      exact ih sub parts
    | true =>
      have takes : active (o :: outputs) = o :: active outputs := filter_cons_of_pos used
      rw [takes] at sub ⊢
      obtain ⟨first,later⟩ := forall_mem_cons.mp sub
      rw [← singleton_append,← append_assoc]
      exact ih later (assign_parts valid first parts used)

theorem removeEmpty_parts (parts : Parts all done (faces screens)) :
    Parts all done (faces (removeEmpty screens)) ∧ ∀ f ∈ faces (removeEmpty screens), f.1 ≠ [] := by
  have kept : faces (removeEmpty screens) = (faces screens).filter fun f => !f.1.isEmpty := by
    rw [faces,faces,filter_map]
    rfl
  have same : ∀ l : List Face, (l.filter fun f => !f.1.isEmpty).flatMap Prod.fst = l.flatMap Prod.fst := by
    intro l
    induction l with
    | nil => rfl
    | cons f l ih =>
      cases blank : f.1.isEmpty with
      | true => rw [filter_cons_of_neg (by simp [blank]),ih,flatMap_cons,List.isEmpty_iff.mp blank,nil_append]
      | false => rw [filter_cons_of_pos (by simp [blank]),flatMap_cons,flatMap_cons,ih]
  rw [kept]
  refine ⟨⟨?_,fun f inside => parts.part f (mem_filter.mp inside).1⟩,fun f inside => ?_⟩
  · rw [same]
    exact parts.each_once
  · exact List.isEmpty_eq_false_iff.mp (by simpa using (mem_filter.mp inside).2)

theorem firstMeeting_some {entries : List (Int × Screen)} (sorted : entries.Pairwise (·.1 < ·.1))
    (found : firstMeeting entries = some (i,j)) :
    i ∈ entries ∧ j ∈ entries ∧ i.1 ≠ j.1 ∧ intersects i.2.geom j.2.geom = true := by
  induction entries with
  | nil => cases found
  | cons e entries ih =>
    obtain ⟨least,rest⟩ := pairwise_cons.mp sorted
    rw [firstMeeting] at found
    split at found
    case h_1 other search =>
      rw [Option.some.injEq,Prod.mk.injEq] at found
      obtain ⟨rfl,rfl⟩ := found
      have inside := mem_of_find?_eq_some search
      have meets := find?_some search
      exact ⟨mem_cons_self,mem_cons_of_mem _ inside,ne_of_lt (least _ inside),meets⟩
    case h_2 =>
      obtain ⟨first,second,apart,meets⟩ := ih rest found
      exact ⟨mem_cons_of_mem e first,mem_cons_of_mem e second,apart,meets⟩

theorem firstMeeting_none {entries : List (Int × Screen)} (none : firstMeeting entries = none) :
    entries.Pairwise fun i j => intersects i.2.geom j.2.geom = false := by
  induction entries with
  | nil => exact Pairwise.nil
  | cons e entries ih =>
    rw [firstMeeting] at none
    split at none
    case h_1 => cases none
    case h_2 search =>
      rw [find?_eq_none] at search
      exact pairwise_cons.mpr ⟨fun j inside => Bool.eq_false_iff.mpr (search j inside),ih none⟩

/-- The two screens are one screen afterwards, the others stay. -/
theorem merge_parts (valid : ∀ o ∈ all, o.geom.isValid = true) (parts : Parts all done (faces screens))
    (full : ∀ f ∈ faces screens, f.1 ≠ []) (found : firstMeeting screens.entries = some (i,j)) :
    (Parts all done (faces (merge screens i j)) ∧ ∀ f ∈ faces (merge screens i j), f.1 ≠ []) ∧
      (faces (merge screens i j)).length < (faces screens).length := by
  obtain ⟨first,second,apart,meets⟩ := firstMeeting_some screens.sorted found
  have rest : (faces screens).Perm (i.2.face :: j.2.face :: faces ((screens.erase i.1).erase j.1)) := by
    refine (faces_erase (lookup_of_mem first)).trans (Perm.cons _ (faces_erase ?_))
    rw [lookup_erase,if_neg (Ne.symm apart)]
    exact lookup_of_mem second
  have into := foldl_add i.2 j.2.outputs
  have after : (faces (merge screens i j)).Perm
      ((j.2.outputs.foldl Screen.add i.2).face :: faces ((screens.erase i.1).erase j.1)) := by
    have other : (screens.insert i.1 (j.2.outputs.foldl Screen.add i.2)).lookup j.1 = some j.2 := by
      rw [lookup_insert,if_neg (Ne.symm apart)]
      exact lookup_of_mem second
    have kept : (screens.erase i.1).lookup j.1 = some j.2 := by
      rw [lookup_erase,if_neg (Ne.symm apart)]
      exact lookup_of_mem second
    apply Perm.cons_inv
    refine (faces_erase other).symm.trans ((faces_insert screens i.1 _).trans ?_)
    exact ((faces_erase kept).cons _).trans (Perm.swap _ _ _)
  have before := parts.perm rest
  obtain ⟨one,two,others⟩ : Part all i.2.face ∧ Part all j.2.face ∧ ∀ f ∈ faces ((screens.erase i.1).erase j.1), Part all f := by
    simpa using before.part
  have some : j.2.outputs ≠ [] := full _ (mem_map_of_mem second)
  rw [into] at after
  refine ⟨⟨Parts.perm ⟨?_,forall_mem_cons.mpr ⟨one.append valid two meets some,others⟩⟩ after.symm,?_⟩,?_⟩
  · refine Perm.trans ?_ before.each_once
    rw [flatMap_cons,flatMap_cons,flatMap_cons,← append_assoc]
    exact Perm.refl _
  · intro f inside
    rcases mem_cons.mp (after.mem_iff.mp inside) with rfl | there
    · exact fun none => some (append_eq_nil_iff.mp none).2
    · exact full f (rest.mem_iff.mpr (mem_cons_of_mem _ (mem_cons_of_mem _ there)))
  · rw [after.length_eq,rest.length_eq]
    exact Nat.lt_succ_self _

theorem mergeAll_parts (valid : ∀ o ∈ all, o.geom.isValid = true) {rounds : Nat} (parts : Parts all done (faces screens))
    (full : ∀ f ∈ faces screens, f.1 ≠ []) (enough : (faces screens).length < rounds) :
    ∃ merged, mergeAll rounds screens = some merged ∧ Parts all done (faces merged) ∧ (∀ f ∈ faces merged, f.1 ≠ []) ∧
      (faces merged).Pairwise fun f g => intersects f.2 g.2 = false := by
  induction rounds generalizing screens with
  | zero => cases enough
  | succ rounds ih =>
    rw [mergeAll]
    cases found : firstMeeting screens.entries with
    | none => exact ⟨screens,rfl,parts,full,pairwise_map.mpr (firstMeeting_none found)⟩
    | some ij =>
      obtain ⟨i,j⟩ := ij
      obtain ⟨⟨parts',full'⟩,fewer⟩ := merge_parts valid parts full found
      exact ih parts' full' (by omega)

/-- A new number changes no screen. -/
theorem renumberAt_faces (screens : Screens) (i : Nat) : (faces (renumberAt screens i)).Perm (faces screens) := by
  rw [renumberAt]
  split
  case h_1 => exact Perm.refl _
  case h_2 free =>
    dsimp only
    split
    case h_1 => exact Perm.refl _
    case h_2 screen found =>
      refine (faces_insert _ _ _).trans (Perm.trans ?_ (faces_erase found).symm)
      rw [erase_absent]
      · exact Perm.refl _
      · rw [lookup_erase,free,ite_self]

theorem renumber_faces (screens : Screens) : (faces (renumber screens)).Perm (faces screens) := by
  rw [renumber]
  generalize range screens.entries.length = l
  induction l generalizing screens with
  | nil => exact Perm.refl _
  | cons i l ih => exact (ih _).trans (renumberAt_faces screens i)

theorem Parts.unique (parts : Parts all all l) (nodup : all.Nodup) {f g : Face} (first : f ∈ l) (second : g ∈ l)
    (here : o ∈ f.1) (there : o ∈ g.1) : f = g := by
  by_contra other
  obtain ⟨_,apart⟩ := nodup_flatMap.mp (parts.each_once.nodup_iff.mpr nodup)
  have symm : Std.Symm (Function.onFun Disjoint (Prod.fst : Face → List Output)) :=
    ⟨fun _ _ apart _ here there => apart there here⟩
  exact apart.forall first second other here there

/-- Screens that do not meet are a grouping. -/
theorem Parts.together (nodup : all.Nodup) (valid : ∀ o ∈ all, o.geom.isValid = true) (parts : Parts all all l)
    (full : ∀ f ∈ l, f.1 ≠ []) (apart : l.Pairwise fun f g => intersects f.2 g.2 = false) {x y : Output} (inside : f ∈ l)
    (here : x ∈ f.1) (there : y ∈ all) (together : Together Output.geom all x y) : y ∈ f.1 := by
  obtain ⟨group,at_group⟩ : ∃ group : Output → Nat, ∀ o ∈ all, ∃ f, l[group o]? = some f ∧ o ∈ f.1 := by
    refine ⟨fun o => l.findIdx fun f => decide (o ∈ f.1),fun o inside => ?_⟩
    obtain ⟨f,known,holds⟩ := mem_flatMap.mp (parts.each_once.mem_iff.mpr inside)
    have below := findIdx_lt_length_of_exists (p := fun f => decide (o ∈ f.1)) ⟨f,known,decide_eq_true holds⟩
    have found := @findIdx_getElem _ _ _ below
    exact ⟨_,getElem?_eq_getElem below,of_decide_eq_true found⟩
  have cover : ∀ {n r f}, Bounds Output.geom (fun o => o ∈ all ∧ group o = n) r → l[n]? = some f →
      r.isValid = true ∧ Within r f.2 := by
    intro n r f bounds found
    have known := mem_of_getElem? found
    refine ⟨bounds.isValid fun o inside => valid o inside.1,?_⟩
    refine bounds.within ((parts.part f known).bounds valid (full f known)) ?_
    rintro o ⟨inside,rfl⟩
    obtain ⟨f',found',holds⟩ := at_group o inside
    rw [found'] at found
    exact Option.some.inj found ▸ holds
  have separated : Separated Output.geom all group := by
    intro n m r s other bounds bounds'
    by_contra meets
    rw [Bool.not_eq_false] at meets
    obtain ⟨o,inside,rfl⟩ := bounds.1
    obtain ⟨o',inside',rfl⟩ := bounds'.1
    obtain ⟨f,found,_⟩ := at_group o inside
    obtain ⟨f',found',_⟩ := at_group o' inside'
    obtain ⟨box,within⟩ := cover bounds found
    obtain ⟨box',within'⟩ := cover bounds' found'
    have meet := intersects_within box box' within within' meets
    rw [pairwise_iff_getElem] at apart
    obtain ⟨below,rfl⟩ := List.getElem?_eq_some_iff.mp found
    obtain ⟨below',rfl⟩ := List.getElem?_eq_some_iff.mp found'
    rcases lt_or_gt_of_ne other with before | after
    · rw [apart _ _ below below' before] at meet
      cases meet
    · rw [intersects_comm,apart _ _ below' below after] at meet
      cases meet
  obtain ⟨g,found,holds⟩ := at_group x ((parts.part f inside).2.1 x here)
  obtain ⟨g',found',holds'⟩ := at_group y there
  rw [← together group separated,found] at found'
  rw [parts.unique nodup inside (mem_of_getElem? found) here holds,Option.some.inj found']
  exact holds'

theorem length_le_outputs (full : ∀ f ∈ l, f.1 ≠ []) : l.length ≤ (l.flatMap Prod.fst).length := by
  induction l with
  | nil => exact le_rfl
  | cons f l ih =>
    obtain ⟨here,rest⟩ := forall_mem_cons.mp full
    have := ih rest
    have := length_pos_iff.mpr here
    rw [flatMap_cons,length_append,length_cons]
    omega

/-- There is only one finest grouping. -/
theorem Built.alike {all' : List Output} (built : Built all l) (built' : Built all' l') (nodup : all.Nodup)
    (same : all.Perm all') (inside : f ∈ l) : ∃ f' ∈ l', f'.1.Perm f.1 ∧ f'.2 = f.2 := by
  have known : ∀ p ∈ f.1, p ∈ all := fun p here => built.each_once.mem_iff.mp (mem_flatMap.mpr ⟨f,inside,here⟩)
  obtain ⟨o,here⟩ := exists_mem_of_ne_nil _ (built.nonempty f inside)
  obtain ⟨f',inside',here'⟩ := mem_flatMap.mp (built'.each_once.mem_iff.mpr (same.mem_iff.mp (known o here)))
  have known' : ∀ p ∈ f'.1, p ∈ all := fun p there =>
    same.mem_iff.mpr (built'.each_once.mem_iff.mp (mem_flatMap.mpr ⟨f',inside',there⟩))
  have alike : ∀ p, p ∈ f'.1 ↔ p ∈ f.1 := by
    intro p
    by_cases there : p ∈ all
    · rw [built.finest f inside o here p there,built'.finest f' inside' o here' p (same.mem_iff.mp there)]
      exact together_congr fun q => same.mem_iff.symm
    · exact iff_of_false (fun yes => there (known' p yes)) fun yes => there (known p yes)
  have once := (nodup_flatMap.mp (built.each_once.nodup_iff.mpr nodup)).1 f inside
  have once' := (nodup_flatMap.mp (built'.each_once.nodup_iff.mpr (same.nodup_iff.mp nodup))).1 f' inside'
  exact ⟨f',inside',(perm_ext_iff_of_nodup once' once).mpr alike,
    (built'.bounds f' inside').unique (built.bounds f inside) alike⟩

theorem rebuilds (outputs : Outputs) (previous : Screens) (extra : Nat) :
    ∃ screens, rebuildScreens (outputs.outputs.length+1+extra) outputs.outputs previous = some screens ∧
      Built (active outputs.outputs) (faces screens) := by
  obtain ⟨outputs,nodup,valid⟩ := outputs
  dsimp only
  have usable : ∀ o ∈ active outputs, o.geom.isValid = true := by
    intro o inside
    obtain ⟨known,used⟩ := mem_filter.mp inside
    obtain ⟨connected,activated⟩ := Bool.and_eq_true_iff.mp used
    exact valid o known connected activated
  have distinct : (active outputs).Nodup := nodup.filter _
  have cleared : Parts (active outputs) [] (faces (previous.mapValues Screen.clearOutputs)) := by
    have blank : ∀ f ∈ faces (previous.mapValues Screen.clearOutputs), f = ([],nullRect) := by
      intro f inside
      obtain ⟨e,there,rfl⟩ := mem_map.mp inside
      obtain ⟨e',_,rfl⟩ := mem_map.mp there
      rfl
    refine ⟨?_,fun f inside => ?_⟩
    · rw [flatMap_eq_nil_iff.mpr fun f inside => by rw [blank f inside]]
    · rw [blank f inside]
      exact ⟨rfl,fun o none => (nomatch none),fun o p none => (nomatch none)⟩
  have assigned := foldl_assign usable (fun o inside => inside) cleared
  rw [nil_append] at assigned
  obtain ⟨parts,full⟩ := removeEmpty_parts assigned
  have few := length_le_outputs full
  have fewer : (active outputs).length ≤ outputs.length := length_filter_le _ _
  rw [parts.each_once.length_eq] at few
  obtain ⟨merged,result,parts,full,apart⟩ := mergeAll_parts usable parts full
    (show _ < outputs.length+1+extra by omega)
  refine ⟨renumber merged,by rw [rebuildScreens,buildScreens,result]; rfl,?_⟩
  have same := (renumber_faces merged).symm
  have parts' := parts.perm same
  have full' : ∀ f ∈ faces (renumber merged), f.1 ≠ [] := fun f inside => full f (same.mem_iff.mpr inside)
  have apart' := same.pairwise apart fun apart => by rw [intersects_comm,apart]
  refine ⟨parts'.each_once,full',fun f inside => (parts'.part f inside).bounds usable (full' f inside),apart',?_⟩
  intro f inside o here p there
  exact ⟨fun also => (parts'.part f inside).2.2 o p here also,
    fun together => parts'.together distinct usable full' apart' inside here there together⟩

/-- The same outputs in another order, and after other screens, make the same screens but for their numbers. -/
theorem rebuildScreens_built (outputs : Outputs) (previous : Screens) (extra : Nat) :
    ∃ screens, rebuildScreens (outputs.outputs.length+1+extra) outputs.outputs previous = some screens ∧
      Built (active outputs.outputs) (faces screens) ∧
      ∀ (outputs' : Outputs) (previous' : Screens) (extra' : Nat), outputs.outputs.Perm outputs'.outputs →
        ∃ screens', rebuildScreens (outputs'.outputs.length+1+extra') outputs'.outputs previous' = some screens' ∧
          ∀ f ∈ faces screens, ∃ f' ∈ faces screens', f'.1.Perm f.1 ∧ f'.2 = f.2 := by
  obtain ⟨screens,result,built⟩ := rebuilds outputs previous extra
  refine ⟨screens,result,built,fun outputs' previous' extra' same => ?_⟩
  obtain ⟨screens',result',built'⟩ := rebuilds outputs' previous' extra'
  exact ⟨screens',result',fun f inside => built.alike built' (outputs.nodup.filter _) (same.filter _) inside⟩

theorem lowest_least {min : Int} {entries : List (Int × Screen)} (least : ∀ e ∈ entries, min < e.1) (low : 0 ≤ min) :
    lowest entries min = min := by
  induction entries with
  | nil => rfl
  | cons e entries ih =>
    obtain ⟨first,rest⟩ := forall_mem_cons.mp least
    rw [lowest,if_neg (by omega),ih rest]

/-- There are screens, and no number is negative. -/
def Good (screens : Screens) : Prop := screens.entries ≠ [] ∧ ∀ n ∈ screens.keys, 0 ≤ n

/-- A number that is missing is given to the screen with the lowest one. -/
theorem renumberAt_keys (good : Good screens) (i : Nat) :
    ((i : Int) ∈ screens.keys ∧ renumberAt screens i = screens) ∨
      (i : Int) ∉ screens.keys ∧ Good (renumberAt screens i) ∧ ∃ min ∈ screens.keys, (∀ n ∈ screens.keys, min ≤ n) ∧
        ∀ n, n ∈ (renumberAt screens i).keys ↔ n = i ∨ n ∈ screens.keys ∧ n ≠ min := by
  rw [renumberAt]
  split
  case h_1 found => exact .inl ⟨mem_keys_iff.mpr ⟨_,found⟩,rfl⟩
  case h_2 free =>
    obtain ⟨e,rest,shape⟩ := exists_cons_of_ne_nil good.1
    have sorted := screens.sorted
    rw [shape] at sorted
    obtain ⟨least,_⟩ := pairwise_cons.mp sorted
    have known : e.1 ∈ screens.keys := mem_map_of_mem (shape ▸ mem_cons_self)
    obtain ⟨s,found⟩ := mem_keys_iff.mp known
    simp only [shape,lowest,true_or,if_true,lowest_least least (good.2 _ known),found]
    have keys : ∀ n, n ∈ ((screens.erase e.1).insert i { s with id := i }).keys ↔ n = i ∨ n ∈ screens.keys ∧ n ≠ e.1 := by
      intro n
      simp only [mem_keys_iff,lookup_insert,lookup_erase]
      by_cases here : n = i
      · simp [here]
      · by_cases last : n = e.1
        · subst last
          simp [here]
        · simp [here,last]
    refine .inr ⟨OrderedMap.lookup_eq_none_iff.mp free,⟨fun none => ?_,fun n inside => ?_⟩,e.1,known,fun n inside => ?_,keys⟩
    · have moved := (keys i).mpr (.inl rfl)
      rw [OrderedMap.keys,none] at moved
      cases moved
    · rcases (keys n).mp inside with rfl | ⟨inside,_⟩
      · omega
      · exact good.2 n inside
    · rw [OrderedMap.keys,shape] at inside
      rcases mem_cons.mp inside with rfl | later
      · exact le_rfl
      · obtain ⟨e',there,rfl⟩ := mem_map.mp later
        exact le_of_lt (least e' there)

/-- Screen 0 is lost at the first number after it that is missing. -/
theorem renumber_later {l : List Nat} (later : ∀ i ∈ l, i ≠ 0) (good : Good screens)
    (zero : 0 ∈ (l.foldl renumberAt screens).keys) :
    l.foldl renumberAt screens = screens ∧ ∀ i ∈ l, (i : Int) ∈ screens.keys := by
  induction l generalizing screens with
  | nil => exact ⟨rfl,nofun⟩
  | cons i l ih =>
    obtain ⟨notZero,later⟩ := forall_mem_cons.mp later
    rw [foldl_cons] at zero ⊢
    rcases renumberAt_keys good i with ⟨here,same⟩ | ⟨_,good',min,known,least,keys⟩
    · rw [same] at zero ⊢
      obtain ⟨still,rest⟩ := ih later good zero
      exact ⟨still,forall_mem_cons.mpr ⟨here,rest⟩⟩
    · rw [(ih later good' zero).1] at zero
      have low := good.2 min known
      rcases (keys 0).mp zero with same | ⟨zero,other⟩
      · omega
      · have := least 0 zero
        omega

/-- The numbers are those from 0 on. -/
def Numbered (screens : Screens) : Prop := ∀ n : Int, n ∈ screens.keys ↔ 0 ≤ n ∧ n < screens.entries.length

/-- Unless there is one screen only, a gap in the numbers stays. -/
theorem renumber_iff (screens : Screens) (nonneg : ∀ n ∈ screens.keys, 0 ≤ n) :
    Numbered (renumber screens) ↔ Numbered screens ∨ screens.entries.length = 1 := by
  have length : (renumber screens).entries.length = screens.entries.length := by
    simpa [faces] using (renumber_faces screens).length_eq
  constructor
  · intro numbered
    cases count : screens.entries.length with
    | zero =>
      rw [renumber,count] at numbered
      exact .inl numbered
    | succ k =>
      have zero := (numbered 0).mpr ⟨le_rfl,by omega⟩
      rw [renumber,count,range_succ_eq_map,foldl_cons] at numbered zero
      have good : Good screens := ⟨fun none => by simp [none] at count,nonneg⟩
      rcases renumberAt_keys good 0 with ⟨_,same⟩ | ⟨absent,good',min,known,least,keys⟩
      · rw [same] at numbered zero
        rw [(renumber_later (by simp) good zero).1] at numbered
        exact .inl numbered
      · right
        by_contra more
        have low := nonneg min known
        rcases (keys 1).mp ((renumber_later (by simp) good' zero).2 1 (by simp; omega)) with same | ⟨one,other⟩
        · cases same
        · have := least 1 one
          rw [show min = 0 by omega] at known
          exact absent known
  · rintro (numbered | single)
    · have fixed : renumber screens = screens := by
        refine foldlRecOn (motive := (· = screens)) _ _ rfl fun s same i inside => ?_
        obtain ⟨_,found⟩ := mem_keys_iff.mp ((numbered i).mpr ⟨by omega,by simpa using inside⟩)
        rw [same,renumberAt,found]
      rwa [fixed]
    · obtain ⟨e,shape⟩ := length_eq_one_iff.mp single
      have only : ∀ n, n ∈ screens.keys ↔ n = e.1 := by simp [OrderedMap.keys,shape]
      intro n
      rw [length,single,renumber,single,range_one,foldl_cons,foldl_nil]
      rcases renumberAt_keys ⟨by simp [shape],nonneg⟩ 0 with ⟨here,same⟩ | ⟨_,_,min,known,_,keys⟩
      · rw [only] at here
        rw [same,only]
        omega
      · rw [only] at known
        rw [keys,only]
        omega

def gap : Screens := ⟨[(0,emptyScreen 0),(2,emptyScreen 2)],by decide⟩

/-- Screen 0 becomes screen 1. -/
theorem renumber_gap : ¬Numbered (renumber gap) := by
  intro numbered
  rcases (renumber_iff gap (by decide)).mp numbered with whole | single
  · exact absurd ((whole 1).mpr (by decide)) (by decide)
  · cases single

end KdeWorkspace.ScreenBuilding
