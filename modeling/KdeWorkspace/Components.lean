import Mathlib.Data.List.Basic
import Mathlib.Data.List.Pairwise

/-!
Connected components of a list that grows and shrinks, kept as groups of its members.

A new member is put together with all groups it touches (`link`). The groups stay
the components as long as touching goes both ways (`Clusters.link`); whether it
does or not, none is lost or doubled (`link_perm`).
-/
namespace KdeWorkspace.Components
open List
universe u
variable {α : Type u} (touch : α → α → Bool)

def Touching (x y : α) : Prop := touch x y = true ∨ touch y x = true

/-- Connected through members of the list. -/
def Connected (l : List α) : α → α → Prop := Relation.ReflTransGen fun x y => (x ∈ l ∧ y ∈ l) ∧ Touching touch x y

def Apart (g h : List α) : Prop := ∀ x ∈ g, ∀ y ∈ h, ¬ Touching touch x y

/-- Groups that are connected in themselves, and of which no two touch. -/
structure Clusters (groups : List (List α)) : Prop where
  nonempty : [] ∉ groups
  joined : ∀ g ∈ groups, ∀ x ∈ g, ∀ y ∈ g, Connected touch g x y
  apart : groups.Pairwise (Apart touch)

/-- The groups that the new member does not touch, and one of it and all others. -/
def link (x : α) (groups : List (List α)) : List (List α) :=
  groups.filter (fun g => !g.any (touch x)) ++ [x :: (groups.filter (fun g => g.any (touch x))).flatten]

variable {touch} {groups : List (List α)} {x y : α}

theorem Touching.symm (touching : Touching touch x y) : Touching touch y x := Or.symm touching

theorem Connected.symm {l : List α} (connected : Connected touch l x y) : Connected touch l y x := by
  induction connected with
  | refl => exact .refl
  | tail _ step ih => exact .head ⟨step.1.symm,step.2.symm⟩ ih

theorem Connected.mono {l l' : List α} (inside : ∀ x ∈ l, x ∈ l') (connected : Connected touch l x y) :
    Connected touch l' x y := by
  induction connected with
  | refl => exact .refl
  | tail _ step ih => exact .tail ih ⟨⟨inside _ step.1.1,inside _ step.1.2⟩,step.2⟩

instance : Std.Symm (Apart touch) := ⟨fun _ _ apart x here y there touching => apart y there x here touching.symm⟩

namespace Clusters

theorem mem_iff (clusters : Clusters touch groups) {g : List α} (member : g ∈ groups) (inside : x ∈ g) :
    y ∈ g ↔ Connected touch groups.flatten x y := by
  constructor
  · intro inside'
    exact (clusters.joined g member x inside y inside').mono fun z here => mem_flatten.mpr ⟨g,member,here⟩
  · intro connected
    induction connected with
    | refl => exact inside
    | @tail y z _ step ih =>
      obtain ⟨h,other,there⟩ := mem_flatten.mp step.1.2
      by_contra outside
      have different : g ≠ h := by
        rintro rfl
        exact outside there
      exact clusters.apart.forall member other different y ih z there step.2

theorem nil : Clusters touch [] := ⟨not_mem_nil,fun _ member => (not_mem_nil member).elim,List.Pairwise.nil⟩

theorem sublist {fewer : List (List α)} (clusters : Clusters touch groups) (sub : fewer.Sublist groups) : Clusters touch fewer :=
  ⟨fun member => clusters.nonempty (sub.subset member),fun g member => clusters.joined g (sub.subset member),
    clusters.apart.sublist sub⟩

theorem link (clusters : Clusters touch groups) (back : ∀ z ∈ groups.flatten, touch z x = true → touch x z = true) :
    Clusters touch (link touch x groups) := by
  have far (g : List α) (member : g ∈ groups.filter (fun g => !g.any (touch x))) (z : α) (inside : z ∈ g) :
      ¬ Touching touch x z := by
    obtain ⟨old,none⟩ := mem_filter.mp member
    rw [Bool.not_eq_true',any_eq_false] at none
    rintro (touching | touching)
    · exact none z inside touching
    · exact none z inside (back z (mem_flatten.mpr ⟨g,old,inside⟩) touching)
  have reached (y : α) (inside : y ∈ x :: (groups.filter (fun g => g.any (touch x))).flatten) :
      Connected touch (x :: (groups.filter (fun g => g.any (touch x))).flatten) x y := by
    rcases mem_cons.mp inside with rfl | inside
    · exact .refl
    · obtain ⟨g,member,here⟩ := mem_flatten.mp inside
      obtain ⟨old,some⟩ := mem_filter.mp member
      obtain ⟨z,there,touching⟩ := any_eq_true.mp some
      have all (w : α) (w_inside : w ∈ g) : w ∈ x :: (groups.filter (fun g => g.any (touch x))).flatten :=
        mem_cons_of_mem x (mem_flatten.mpr ⟨g,member,w_inside⟩)
      have first : Connected touch (x :: (groups.filter (fun g => g.any (touch x))).flatten) x z :=
        .single ⟨⟨mem_cons_self,all z there⟩,.inl touching⟩
      exact first.trans ((clusters.joined g old z there y here).mono all)
  refine ⟨?_,?_,?_⟩
  · intro empty
    rcases mem_append.mp empty with old | new
    · exact clusters.nonempty (mem_of_mem_filter old)
    · cases mem_singleton.mp new
  · intro g member y inside z inside'
    rcases mem_append.mp member with old | new
    · exact clusters.joined g (mem_of_mem_filter old) y inside z inside'
    · obtain rfl := mem_singleton.mp new
      exact (reached y inside).symm.trans (reached z inside')
  · refine pairwise_append.mpr ⟨clusters.apart.sublist filter_sublist,pairwise_singleton _ _,?_⟩
    intro g member h new y here z there
    obtain rfl := mem_singleton.mp new
    rcases mem_cons.mp there with rfl | there
    · exact fun touching => far g member y here touching.symm
    · obtain ⟨h,member',inside⟩ := mem_flatten.mp there
      have different : g ≠ h := by
        rintro rfl
        have no := (mem_filter.mp member).2
        rw [(mem_filter.mp member').2] at no
        cases no
      exact clusters.apart.forall (mem_of_mem_filter member) (mem_of_mem_filter member') different y here z inside

end Clusters

theorem link_perm (x : α) (groups : List (List α)) : (link touch x groups).flatten.Perm (x :: groups.flatten) := by
  rw [link,flatten_append,flatten_singleton]
  have parts : (groups.filter (fun g => !g.any (touch x)) ++ groups.filter (fun g => g.any (touch x))).Perm groups :=
    perm_append_comm.trans (filter_append_perm _ groups)
  have flat := parts.flatten
  rw [flatten_append] at flat
  exact perm_middle.trans (flat.cons x)

theorem foldl_link_perm (l : List α) (groups : List (List α)) :
    (l.foldl (fun groups x => link touch x groups) groups).flatten.Perm (l ++ groups.flatten) := by
  induction l generalizing groups with
  | nil => exact .refl _
  | cons x rest ih =>
    refine (ih (link touch x groups)).trans ?_
    exact ((link_perm x groups).append_left rest).trans perm_middle

theorem Clusters.foldl_link {S : α → Prop} (both : ∀ x y, S x → S y → touch x y = true → touch y x = true) {l : List α}
    (clusters : Clusters touch groups) (old : ∀ x ∈ groups.flatten, S x) (new : ∀ x ∈ l, S x) :
    Clusters touch (l.foldl (fun groups x => Components.link touch x groups) groups) := by
  induction l generalizing groups with
  | nil => exact clusters
  | cons x rest ih =>
    obtain ⟨here,later⟩ := forall_mem_cons.mp new
    refine ih (clusters.link fun z member => both z x (old z member) here) ?_ later
    intro z member
    rcases mem_cons.mp ((link_perm x groups).mem_iff.mp member) with rfl | inside
    · exact here
    · exact old z inside

end KdeWorkspace.Components
