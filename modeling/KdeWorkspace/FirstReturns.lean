import Mathlib.GroupTheory.OrderOfElement

/-!
First returns. A permutation of a finite type moves every element round a cycle.
From an element of a set, the first element of the set on the way round is its
first return (`FirstReturn`). Every element of the set has one
(`exists_firstReturn`), and the first return under the inverse permutation leads
back (`FirstReturn.symm`).

Two relations that are total, determine their second element and are converse to
each other are a permutation and its inverse (`exists_perm`).
-/
namespace KdeWorkspace.FirstReturns
universe u

section
variable {α : Type u} {move : Equiv.Perm α} {marked : α → Prop} {a b : α}

/-- `b` is the first marked element after one or more steps from `a`. -/
def FirstReturn (move : Equiv.Perm α) (marked : α → Prop) (a b : α) : Prop :=
  ∃ k, 1 ≤ k ∧ (move ^ k) a = b ∧ marked b ∧ ∀ j, 1 ≤ j → j < k → ¬ marked ((move ^ j) a)

theorem FirstReturn.there (first : FirstReturn move marked a b) : marked b := by
  obtain ⟨-,-,-,there,-⟩ := first
  exact there

theorem exists_firstReturn [Finite α] (move : Equiv.Perm α) (marked : α → Prop) (here : marked a) : ∃ b, FirstReturn move marked a b := by
  classical
  have returns : ∃ k, 1 ≤ k ∧ marked ((move ^ k) a) := by
    refine ⟨orderOf move,orderOf_pos move,?_⟩
    rw [pow_orderOf_eq_one]
    exact here
  obtain ⟨positive,there⟩ := Nat.find_spec returns
  refine ⟨_,Nat.find returns,positive,rfl,there,fun j least before marks => ?_⟩
  exact Nat.find_min returns before ⟨least,marks⟩

theorem FirstReturn.symm (first : FirstReturn move marked a b) (here : marked a) : FirstReturn move⁻¹ marked b a := by
  obtain ⟨k,positive,rfl,-,none⟩ := first
  have back : ∀ j, j ≤ k → (move⁻¹ ^ j) ((move ^ k) a) = (move ^ (k-j)) a := by
    intro j le
    have split : move ^ k = move ^ j*move ^ (k-j) := by rw [← pow_add]; congr 1; omega
    rw [split,← Equiv.Perm.mul_apply,← mul_assoc,inv_pow,inv_mul_cancel,one_mul]
  refine ⟨k,positive,?_,here,fun j least before => ?_⟩
  · rw [back k (Nat.le_refl k),Nat.sub_self,pow_zero,Equiv.Perm.one_apply]
  · rw [back j (by omega)]
    exact none (k-j) (by omega) (by omega)

end

theorem exists_perm {α : Type u} {R S : α → α → Prop} (total : ∀ a, ∃ b, R a b) (total' : ∀ a, ∃ b, S a b)
    (unique : ∀ {a b c}, R a b → R a c → b = c) (unique' : ∀ {a b c}, S a b → S a c → b = c)
    (converse : ∀ a b, R a b ↔ S b a) :
    ∃ σ : Equiv.Perm α, (∀ a, R a (σ a)) ∧ ∀ a, S a (σ.symm a) := by
  choose f forward using total
  choose g backward using total'
  refine ⟨⟨f,g,fun a => ?_,fun a => ?_⟩,forward,backward⟩
  · exact unique' (backward (f a)) ((converse a (f a)).mp (forward a))
  · exact unique (forward (g a)) ((converse (g a) a).mpr (backward a))

end KdeWorkspace.FirstReturns
