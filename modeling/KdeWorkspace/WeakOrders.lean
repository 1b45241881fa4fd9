import Mathlib.Data.Set.Operations
import Mathlib.Order.Lattice
import Mathlib.Tactic.Common

/-!
Strict weak orders on a set, which is what a sort asks of its comparison, and two ways to get one: a key in a
linear order, and a comparison by tags that looks further where the tags are equal (`strictWeakOn_tagged`).
-/
namespace KdeWorkspace.WeakOrders
variable {α τ κ : Type*} {less less' : α → α → Prop} {s : Set α}

/-- Neither one is before the other. -/
def Level (less : α → α → Prop) (a b : α) : Prop := ¬ less a b ∧ ¬ less b a

structure StrictWeakOn (less : α → α → Prop) (s : Set α) : Prop where
  irrefl : ∀ a ∈ s, ¬ less a a
  asymm : ∀ a ∈ s, ∀ b ∈ s, less a b → ¬ less b a
  trans : ∀ a ∈ s, ∀ b ∈ s, ∀ c ∈ s, less a b → less b c → less a c
  level_trans : ∀ a ∈ s, ∀ b ∈ s, ∀ c ∈ s, Level less a b → Level less b c → Level less a c

theorem StrictWeakOn.between (weak : StrictWeakOn less s) {a b c : α} (ha : a ∈ s) (hb : b ∈ s) (hc : c ∈ s)
    (before : less a c) : less a b ∨ less b c := by
  by_contra neither
  rw [not_or] at neither
  obtain ⟨left,right⟩ := neither
  have first : ¬ less b a := fun back => right (weak.trans b hb a ha c hc back before)
  have second : ¬ less c b := fun back => left (weak.trans a ha c hc b hb before back)
  exact (weak.level_trans a ha b hb c hc ⟨left,first⟩ ⟨right,second⟩).1 before

theorem strictWeakOn_iff : StrictWeakOn less s ↔ (∀ a ∈ s, ∀ b ∈ s, less a b → ¬ less b a) ∧
    ∀ a ∈ s, ∀ b ∈ s, ∀ c ∈ s, less a c → less a b ∨ less b c := by
  constructor
  · intro weak
    exact ⟨weak.asymm,fun a ha b hb c hc before => weak.between ha hb hc before⟩
  · rintro ⟨asymm,between⟩
    refine ⟨fun a ha before => asymm a ha a ha before before,asymm,?_,?_⟩
    · intro a ha b hb c hc first second
      rcases between a ha c hc b hb first with before | back
      · exact before
      · exact absurd back (asymm b hb c hc second)
    · rintro a ha b hb c hc ⟨ab,ba⟩ ⟨bc,cb⟩
      constructor
      · intro before
        rcases between a ha b hb c hc before with left | right
        · exact ab left
        · exact bc right
      · intro before
        rcases between c hc b hb a ha before with left | right
        · exact cb left
        · exact ba right

theorem StrictWeakOn.congr (weak : StrictWeakOn less s) (same : ∀ a ∈ s, ∀ b ∈ s, (less a b ↔ less' a b)) :
    StrictWeakOn less' s := by
  rw [strictWeakOn_iff]
  constructor
  · intro a ha b hb before back
    exact weak.asymm a ha b hb ((same a ha b hb).mpr before) ((same b hb a ha).mpr back)
  · intro a ha b hb c hc before
    rw [← same a ha b hb,← same b hb c hc]
    exact weak.between ha hb hc ((same a ha c hc).mpr before)

theorem strictWeakOn_congr (same : ∀ a ∈ s, ∀ b ∈ s, (less a b ↔ less' a b)) :
    StrictWeakOn less s ↔ StrictWeakOn less' s := by
  constructor
  · intro weak
    exact weak.congr same
  · intro weak
    exact weak.congr fun a ha b hb => (same a ha b hb).symm

section
variable [LinearOrder κ]

theorem strictWeakOn_key (key : α → κ) (s : Set α) : StrictWeakOn (fun a b => key a < key b) s := by
  rw [strictWeakOn_iff]
  refine ⟨fun a _ b _ before => lt_asymm before,?_⟩
  intro a _ b _ c _ before
  rcases lt_or_ge (key a) (key b) with left | right
  · exact .inl left
  · exact .inr (lt_of_le_of_lt right before)

theorem strictWeakOn_key_gt (key : α → κ) (s : Set α) : StrictWeakOn (fun a b => key b < key a) s := by
  rw [strictWeakOn_iff]
  refine ⟨fun a _ b _ before => lt_asymm before,?_⟩
  intro a _ b _ c _ before
  rcases lt_or_ge (key b) (key a) with left | right
  · exact .inl left
  · exact .inr (lt_of_lt_of_le before right)

/-- By the tags where they differ, and by a finer key where they do not. -/
def Tagged [DecidableEq τ] (tag : α → τ) (r : τ → τ → Prop) (fine : α → κ) (a b : α) : Prop :=
  if tag a = tag b then fine a < fine b else r (tag a) (tag b)

section
variable [DecidableEq τ] {tag : α → τ} {r : τ → τ → Prop} {fine : α → κ} {a b : α}

theorem tagged_equal (same : tag a = tag b) : Tagged tag r fine a b ↔ fine a < fine b := by
  rw [Tagged,if_pos same]

theorem tagged_differ (other : tag a ≠ tag b) : Tagged tag r fine a b ↔ r (tag a) (tag b) := by
  rw [Tagged,if_neg other]

theorem StrictWeakOn.tags (weak : StrictWeakOn (Tagged tag r fine) s) :
    StrictWeakOn (fun t u => t ≠ u ∧ r t u) (tag '' s) := by
  rw [strictWeakOn_iff]
  constructor
  · rintro _ ⟨a,ha,rfl⟩ _ ⟨b,hb,rfl⟩ ⟨other,before⟩ ⟨_,back⟩
    exact weak.asymm a ha b hb ((tagged_differ other).mpr before) ((tagged_differ other.symm).mpr back)
  · rintro _ ⟨a,ha,rfl⟩ _ ⟨b,hb,rfl⟩ _ ⟨c,hc,rfl⟩ ⟨other,before⟩
    by_cases left : tag a = tag b
    · exact .inr ⟨left ▸ other,left ▸ before⟩
    · by_cases right : tag b = tag c
      · exact .inl ⟨right ▸ other,right ▸ before⟩
      · rcases weak.between ha hb hc ((tagged_differ other).mpr before) with first | second
        · exact .inl ⟨left,(tagged_differ left).mp first⟩
        · exact .inr ⟨right,(tagged_differ right).mp second⟩

theorem StrictWeakOn.not_fine {c : α} (weak : StrictWeakOn (Tagged tag r fine) s) (ha : a ∈ s) (hb : b ∈ s) (hc : c ∈ s)
    (same : tag a = tag b) (other : tag c ≠ tag a) (notBefore : ¬ r (tag a) (tag c)) (notBehind : ¬ r (tag c) (tag a)) :
    ¬ fine a < fine b := by
  intro before
  rcases weak.between ha hc hb ((tagged_equal same).mpr before) with first | second
  · exact notBefore ((tagged_differ other.symm).mp first)
  · refine notBehind ?_
    rw [same] at other ⊢
    exact (tagged_differ other).mp second

theorem StrictWeakOn.tagged (weak : StrictWeakOn (fun t u => t ≠ u ∧ r t u) (tag '' s))
    (level : ∀ a ∈ s, ∀ b ∈ s, ∀ c ∈ s, tag a = tag b → tag c ≠ tag a → ¬ r (tag a) (tag c) → ¬ r (tag c) (tag a) →
      ¬ fine a < fine b) : StrictWeakOn (Tagged tag r fine) s := by
  rw [strictWeakOn_iff]
  constructor
  · intro a ha b hb before back
    by_cases same : tag a = tag b
    · exact lt_asymm ((tagged_equal same).mp before) ((tagged_equal same.symm).mp back)
    · exact weak.asymm _ ⟨a,ha,rfl⟩ _ ⟨b,hb,rfl⟩ ⟨same,(tagged_differ same).mp before⟩
        ⟨Ne.symm same,(tagged_differ (Ne.symm same)).mp back⟩
  · intro a ha b hb c hc before
    by_cases ends : tag a = tag c
    · have smaller := (tagged_equal ends).mp before
      by_cases left : tag a = tag b
      · rw [tagged_equal left,tagged_equal (left.symm.trans ends)]
        exact (strictWeakOn_key fine s).between ha hb hc smaller
      · have right : tag b ≠ tag c := ends ▸ Ne.symm left
        rw [tagged_differ left,tagged_differ right,← ends]
        by_contra neither
        rw [not_or] at neither
        exact level a ha c hc b hb ends (Ne.symm left) neither.1 neither.2 smaller
    · have larger := (tagged_differ ends).mp before
      by_cases left : tag a = tag b
      · right
        rw [tagged_differ (left ▸ ends),← left]
        exact larger
      · by_cases right : tag b = tag c
        · left
          rw [tagged_differ left,right]
          exact larger
        · rw [tagged_differ left,tagged_differ right]
          rcases weak.between ⟨a,ha,rfl⟩ ⟨b,hb,rfl⟩ ⟨c,hc,rfl⟩ ⟨ends,larger⟩ with first | second
          · exact .inl first.2
          · exact .inr second.2

end

theorem strictWeakOn_tagged [DecidableEq τ] (tag : α → τ) (r : τ → τ → Prop) (fine : α → κ) :
    StrictWeakOn (Tagged tag r fine) s ↔ StrictWeakOn (fun t u => t ≠ u ∧ r t u) (tag '' s) ∧
      ∀ a ∈ s, ∀ b ∈ s, ∀ c ∈ s, tag a = tag b → tag c ≠ tag a → ¬ r (tag a) (tag c) → ¬ r (tag c) (tag a) →
        ¬ fine a < fine b := by
  constructor
  · intro weak
    exact ⟨weak.tags,fun a ha b hb c hc => weak.not_fine ha hb hc⟩
  · rintro ⟨weak,level⟩
    exact weak.tagged level

end

end KdeWorkspace.WeakOrders
