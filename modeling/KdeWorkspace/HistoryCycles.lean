import KdeWorkspace.ClipboardHistory

/-!
Cycling through Klipper's history (`cycleNext`, `cyclePrev`).

Both exchange the top item with another one of the ring. `cyclePrev` undoes
`cycleNext` wherever the cycle stands, and a cycle that starts below the top makes
each other item the top once, in their order, and then stands still
(`cycling`). This is about every history that is a ring, as all are that a careful
run reaches (`run_intact`).
-/
namespace KdeWorkspace.ClipboardHistory
open Rings
variable {Uuid Ref : Type} [DecidableEq Uuid] [DecidableEq Ref]
namespace History

/-- The history after so many calls of `cycleNext`. -/
def cycled : Nat → History Uuid Ref → Option (History Uuid Ref)
  | 0,h => some h
  | j+1,h => h.cycleNext.bind (cycled j)

variable {h : History Uuid Ref}

theorem cycleNext_undone {t : Ref} {rest : List Ref} (ringed : h.Ringed (t :: rest)) :
    ∃ h', h.cycleNext = some h' ∧ (h' ≠ h → ∃ h'', h'.cyclePrev = some h'' ∧ h''.Ringed (t :: rest) ∧
      h''.top = h.top ∧ h''.nextCycle = h.nextCycle) := by
  by_cases left : ∀ n, h.nextCycle = some n → h.top = some n
  · exact ⟨h,cycleNext_still left,fun changed => absurd rfl changed⟩
  · simp only [not_forall] at left
    obtain ⟨n,current,other⟩ := left
    have top : h.top = some t := ringed.top
    have differ : n ≠ t := fun same => other (same ▸ top)
    obtain ⟨l,l',rfl⟩ := List.append_of_mem ((List.mem_cons.mp (ringed.cycle n current)).resolve_left differ)
    obtain ⟨h',moved,ringed',_,current'⟩ := cycleNext_moves ringed current
    obtain ⟨h'',back,ringed'',_,current''⟩ := cyclePrev_moves ringed' current'
    exact ⟨h',moved,fun _ => ⟨h'',back,ringed'',ringed''.top.trans top.symm,current''.trans current.symm⟩⟩

theorem cycled_tops {t : Ref} (passed : List Ref) {coming : List Ref} (ringed : h.Ringed (t :: (passed ++ coming)))
    (current : h.nextCycle = some (coming.headD t)) {j : Nat} (within : j ≤ coming.length) :
    ∃ h', cycled j h = some h' ∧ h'.top = (t :: coming)[j]? ∧ (h'.cycleNext = some h' ↔ j = coming.length) := by
  induction j generalizing h t passed coming with
  | zero =>
    refine ⟨h,rfl,ringed.top,?_⟩
    cases coming with
    | nil => exact iff_of_true (cycleNext_still fun n next => by rw [← next,current]; exact ringed.top) rfl
    | cons n coming =>
      obtain ⟨h',moved,ringed',_,_⟩ := cycleNext_moves ringed current
      refine iff_of_false (fun still => ?_) (Nat.succ_ne_zero _).symm
      obtain rfl := Option.some.inj (moved.symm.trans still)
      have same : n = t := Option.some.inj (ringed'.top.symm.trans ringed.top)
      have nodup := ringed.listed.nodup
      grind
  | succ j ih =>
    cases coming with
    | nil => exact absurd within (Nat.not_succ_le_zero j)
    | cons n coming =>
      obtain ⟨h',moved,ringed',_,current'⟩ := cycleNext_moves ringed current
      rw [List.append_cons] at ringed'
      obtain ⟨h'',more,top,ends⟩ := ih (passed ++ [t]) ringed' current' (Nat.le_of_succ_le_succ within)
      refine ⟨h'',by rw [cycled,moved]; exact more,top,?_⟩
      rw [ends,List.length_cons,Nat.succ_inj]

/-- In a ring of two items or more, wherever the cycle stands, `cyclePrev` takes back what `cycleNext` has changed; and
    from right below the top on, as many calls of `cycleNext` as there are other items make each of these the top, in
    their order, before a call changes nothing. -/
theorem cycling {t : Ref} {rest : List Ref} (ringed : h.Ringed (t :: rest)) (several : rest ≠ []) :
    (∃ h', h.cycleNext = some h' ∧ (h' ≠ h → ∃ h'', h'.cyclePrev = some h'' ∧ h''.Ringed (t :: rest) ∧
      h''.top = h.top ∧ h''.nextCycle = h.nextCycle)) ∧
    (h.nextCycle = rest.head? → ∀ j, j ≤ rest.length →
      ∃ h', cycled j h = some h' ∧ h'.top = (t :: rest)[j]? ∧ (h'.cycleNext = some h' ↔ j = rest.length)) := by
  refine ⟨cycleNext_undone ringed,fun below j within => ?_⟩
  have current : h.nextCycle = some (rest.headD t) := by
    rw [below]
    cases rest with
    | nil => exact absurd rfl several
    | cons a rest => rfl
  exact cycled_tops [] ringed current within

/-- Two items, and a cycle that starts at the second one. -/
def pair : History Nat Nat where
  heap := fun r => if r = 1 then some ⟨2,1,2⟩ else if r = 2 then some ⟨1,2,1⟩ else none
  items := AList.insert 1 (some 1) (AList.insert 2 (some 2) ∅)
  top := some 1
  maxSize := 7
  topIsUserSelected := false
  nextCycle := some 2

theorem pair_ringed : pair.Ringed [1,2] where
  listed := by
    have none : Listed pair.heap ∅ [] := ⟨.nil,by simp,by simp,rfl⟩
    have one := none.insert (k := 2) (r := 2) (by simp) rfl
    exact one.insert (k := 1) (r := 1) (by decide) rfl
  linked := by
    have there : pair.heap.Linked 1 2 := ⟨⟨2,1,2⟩,⟨1,2,1⟩,rfl,rfl,rfl,rfl⟩
    have back : pair.heap.Linked 2 1 := ⟨⟨1,2,1⟩,⟨2,1,2⟩,rfl,rfl,rfl,rfl⟩
    exact ring_cons.mpr (path_iff.mpr ⟨there,by simp,back⟩)
  top := rfl
  cycle := by
    intro c current
    obtain rfl := Option.some.inj current
    simp

theorem pair_cycling :
    (∃ h', pair.cycleNext = some h' ∧ (h' ≠ pair → ∃ h'', h'.cyclePrev = some h'' ∧ h''.Ringed [1,2] ∧
      h''.top = pair.top ∧ h''.nextCycle = pair.nextCycle)) ∧
    (pair.nextCycle = some 2 → ∀ j, j ≤ 1 →
      ∃ h', cycled j pair = some h' ∧ h'.top = [1,2][j]? ∧ (h'.cycleNext = some h' ↔ j = 1)) :=
  cycling pair_ringed (by simp)

end History
end KdeWorkspace.ClipboardHistory
