import Mathlib.Order.WellFoundedSet

/-!
Relations without cycles (`Acyclic`). Taking pairs away keeps a relation acyclic
(`Acyclic.mono`), only the pairs on its cycles matter (`Acyclic.of_returning`), and
one element may be made to point somewhere else (`Acyclic.redirect`). On finitely
many elements an acyclic relation is well founded (`Acyclic.wellFounded_on`), and
as many steps as there are elements follow a partial function without cycles to
its end (`mem_follow_iff`).
-/
namespace KdeWorkspace.Relations
open Relation
universe u
variable {α : Type u} {r s : α → α → Prop}

/-- No element reaches itself. -/
def Acyclic (r : α → α → Prop) : Prop := ∀ a, ¬ TransGen r a a

theorem Acyclic.mono (acyclic : Acyclic r) (fewer : ∀ a b, s a b → r a b) : Acyclic s :=
  fun a cycle => acyclic a (TransGen.mono fewer a a cycle)

theorem Acyclic.irrefl (acyclic : Acyclic r) (a : α) : ¬ r a a := fun edge => acyclic a (.single edge)

theorem Acyclic.flip (acyclic : Acyclic r) : Acyclic (fun a b => r b a) :=
  fun a cycle => acyclic a (transGen_swap.mp cycle)

theorem acyclic_of_rank (rank : α → Nat) (lowers : ∀ a b, r a b → rank b < rank a) : Acyclic r := by
  have path {a b : α} (reaches : TransGen r a b) : rank b < rank a := by
    induction reaches with
    | single edge => exact lowers _ _ edge
    | tail _ edge ih => exact (lowers _ _ edge).trans ih
  exact fun a cycle => Nat.lt_irrefl _ (path cycle)

theorem Acyclic.wellFounded_on (acyclic : Acyclic r) (elements : List α) :
    WellFounded (fun a b => r a b ∧ a ∈ elements ∧ b ∈ elements) := by
  have order : IsStrictOrder α (TransGen r) := {
    irrefl := acyclic
    trans := fun _ _ _ => TransGen.trans }
  have wellFounded := (List.finite_toSet elements).wellFoundedOn (r := TransGen r)
  rw [Set.wellFoundedOn_iff] at wellFounded
  exact Subrelation.wf (fun ⟨edge,left,right⟩ => ⟨.single edge,left,right⟩) wellFounded

theorem Acyclic.of_returning (acyclic : Acyclic s) (returning : ∀ a b, r a b → ReflTransGen r b a → s a b) :
    Acyclic r := by
  intro a cycle
  have path {b : α} (there : TransGen r a b) (back : ReflTransGen r b a) : TransGen s a b := by
    induction there with
    | single edge => exact .single (returning _ _ edge back)
    | @tail b c before edge ih =>
      have rest : ReflTransGen r b a := .head edge back
      exact (ih rest).tail (returning _ _ edge (back.trans before.to_reflTransGen))
  exact acyclic a (path cycle .refl)

theorem Acyclic.redirect (acyclic : Acyclic r) {x : α} (others : ∀ a b, s a b → a ≠ x → r a b)
    (away : ∀ b, s x b → ¬ ReflTransGen r b x) : Acyclic s := by
  have toward {b : α} (path : ReflTransGen s b x) : ReflTransGen r b x := by
    induction path using ReflTransGen.head_induction_on with
    | refl => exact .refl
    | @head b c edge _ ih =>
      by_cases here : b = x
      · rw [here]
      · exact .head (others b c edge here) ih
  -- a path goes by the old pairs only, or passes the element
  have passes {a b : α} (path : TransGen s a b) : TransGen r a b ∨ ReflTransGen s a x ∧ TransGen s x b := by
    induction path with
    | @single b edge =>
      by_cases here : a = x
      · subst here
        exact Or.inr ⟨.refl,.single edge⟩
      · exact Or.inl (.single (others a b edge here))
    | @tail b c before edge ih =>
      rcases ih with old | ⟨front,back⟩
      · by_cases here : b = x
        · subst here
          exact Or.inr ⟨before.to_reflTransGen,.single edge⟩
        · exact Or.inl (old.tail (others b c edge here))
      · exact Or.inr ⟨front,back.tail edge⟩
  intro a cycle
  rcases passes cycle with old | ⟨front,back⟩
  · exact acyclic a old
  · obtain ⟨b,first,rest⟩ := TransGen.head'_iff.mp back
    exact away b first (toward (rest.trans front))

/-- The elements that a partial function leads to, one after the other. -/
def follow (next : α → Option α) : Nat → α → List α
  | 0, _ => []
  | steps+1, a =>
    match next a with
    | some b => b :: follow next steps b
    | none => []

theorem follow_sound {next : α → Option α} {steps : Nat} {a b : α} (member : b ∈ follow next steps a) :
    TransGen (fun a b => next a = some b) a b := by
  induction steps generalizing a with
  | zero => cases member
  | succ steps ih =>
    unfold follow at member
    cases first : next a with
    | none => simp [first] at member
    | some c =>
      simp only [first] at member
      rcases List.mem_cons.mp member with rfl | later
      · exact .single first
      · exact .head first (ih later)

theorem mem_follow_iff [DecidableEq α] {next : α → Option α} (acyclic : Acyclic fun a b => next a = some b) {steps : Nat}
    {a : α} {elements : List α} (reach : ∀ b, TransGen (fun a b => next a = some b) a b → b ∈ elements)
    (enough : elements.length ≤ steps) {b : α} :
    b ∈ follow next steps a ↔ TransGen (fun a b => next a = some b) a b := by
  refine ⟨follow_sound,fun path => ?_⟩
  induction steps generalizing a elements with
  | zero =>
    rw [List.eq_nil_of_length_eq_zero (Nat.le_zero.mp enough)] at reach
    cases reach b path
  | succ steps ih =>
    obtain ⟨c,first,rest⟩ := TransGen.head'_iff.mp path
    have member := reach c (.single first)
    have fewer := List.length_erase_of_mem member
    have positive := List.length_pos_of_mem member
    -- the first element leads to all others, but not to itself
    have reach_rest (d : α) (onward : TransGen (fun a b => next a = some b) c d) : d ∈ elements.erase c := by
      refine (List.mem_erase_of_ne ?_).mpr (reach d (.head first onward))
      rintro rfl
      exact acyclic d onward
    simp only [follow,first,List.mem_cons]
    rcases ReflTransGen.cases_head rest with rfl | ⟨d,second,more⟩
    · exact Or.inl rfl
    · exact Or.inr (ih reach_rest (by omega) (.head' second more))

end KdeWorkspace.Relations
