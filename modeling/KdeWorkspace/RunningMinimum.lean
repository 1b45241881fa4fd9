import Mathlib.Order.Lattice

/-!
A running minimum: the choice kept so far and its cost, which an offer of a strictly
lower cost replaces. The cost at the start need not be the cost of a choice.
-/
namespace KdeWorkspace.RunningMinimum

structure Best (α β : Type) where
  choice : α
  cost : β
deriving Repr, DecidableEq

section
variable {α β : Type} [LinearOrder β]

/-- The first of the cheapest choices is kept. -/
def offer (cost : α → β) (best : Best α β) (x : α) : Best α β := if cost x < best.cost then ⟨x,cost x⟩ else best

variable {cost : α → β}

theorem offer_cheaper {best : Best α β} {x : α} (cheaper : cost x < best.cost) : offer cost best x = ⟨x,cost x⟩ :=
  if_pos cheaper

theorem offer_kept {best : Best α β} {x : α} (least : best.cost ≤ cost x) : offer cost best x = best :=
  if_neg (not_lt.mpr least)

theorem offer_le_kept (best : Best α β) (x : α) : (offer cost best x).cost ≤ best.cost := by
  rcases lt_or_ge (cost x) best.cost with cheaper | least
  · rw [offer_cheaper cheaper]
    exact le_of_lt cheaper
  · rw [offer_kept least]

theorem offer_le_offered (best : Best α β) (x : α) : (offer cost best x).cost ≤ cost x := by
  rcases lt_or_ge (cost x) best.cost with cheaper | least
  · rw [offer_cheaper cheaper]
  · rw [offer_kept least]
    exact least

variable (cost)

theorem offers_le_kept (xs : List α) (best : Best α β) : (xs.foldl (offer cost) best).cost ≤ best.cost := by
  induction xs generalizing best with
  | nil => exact le_refl _
  | cons x rest ih => exact le_trans (ih (offer cost best x)) (offer_le_kept best x)

theorem offers_least (xs : List α) (best : Best α β) : ∀ x ∈ xs, (xs.foldl (offer cost) best).cost ≤ cost x := by
  induction xs generalizing best with
  | nil => intro x member; cases member
  | cons first rest ih =>
    intro x member
    rcases List.mem_cons.mp member with rfl | later
    · exact le_trans (offers_le_kept cost rest (offer cost best x)) (offer_le_offered best x)
    · exact ih (offer cost best first) x later

theorem offers_kept (xs : List α) (best : Best α β) (least : ∀ x ∈ xs, best.cost ≤ cost x) :
    xs.foldl (offer cost) best = best := by
  induction xs with
  | nil => rfl
  | cons first rest ih =>
    rw [List.foldl_cons,offer_kept (least first List.mem_cons_self)]
    exact ih (fun x member => least x (List.mem_cons_of_mem first member))

theorem offers_chosen (xs : List α) (best : Best α β) :
    xs.foldl (offer cost) best = best ∨ ∃ x ∈ xs, xs.foldl (offer cost) best = ⟨x,cost x⟩ := by
  induction xs generalizing best with
  | nil => exact .inl rfl
  | cons first rest ih =>
    rcases ih (offer cost best first) with same | ⟨x,member,chosen⟩
    · rcases lt_or_ge (cost first) best.cost with cheaper | least
      · exact .inr ⟨first,List.mem_cons_self,same.trans (offer_cheaper cheaper)⟩
      · exact .inl (same.trans (offer_kept least))
    · exact .inr ⟨x,List.mem_cons_of_mem first member,chosen⟩

end

end KdeWorkspace.RunningMinimum
