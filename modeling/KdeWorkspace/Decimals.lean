import Mathlib.Data.List.Basic

/-!
Decimal numbers as strings of digits, without leading zeros: when one of them is the beginning of another.
-/
namespace KdeWorkspace.Decimals

/-- The digits of a number, the first of which is 0 for the number 0 only. -/
def number (n : Nat) : List Char := Nat.toDigits 10 n

theorem number_ne_nil (n : Nat) : number n ≠ [] := Nat.toDigits_ne_nil

theorem isDigit_of_mem {n : Nat} {c : Char} (member : c ∈ number n) : c.isDigit :=
  Nat.isDigit_of_mem_toDigits (by decide) (by decide) member

theorem number_injective {m n : Nat} (same : number m = number n) : m = n := by
  have value := congrArg (Nat.ofDigitChars 10 · 0) same
  simpa [number,Nat.ofDigitChars_ten_toDigits] using value

theorem number_small {n : Nat} (small : n < 10) : number n = [n.digitChar] := Nat.toDigits_of_lt_base small

theorem number_large {n : Nat} (large : 10 ≤ n) : number n = number (n/10)++[(n%10).digitChar] :=
  Nat.toDigits_of_base_le (by decide) large

theorem number_ten {n : Nat} (positive : 1 ≤ n) : number (10*n) = number n++number 0 := by
  have joined := Nat.toDigits_append_toDigits (b := 10) (n := n) (d := 0) (by decide) positive (by decide)
  exact joined.symm

theorem length_number_mono {m n : Nat} (le : m ≤ n) : (number m).length ≤ (number n).length := by
  induction n using Nat.strongRecOn generalizing m with
  | ind n ih =>
    by_cases small : n < 10
    · rw [number_small small,number_small (by omega : m < 10)]
      exact Nat.le_refl 1
    · rw [number_large (by omega : 10 ≤ n)]
      by_cases less : m < 10
      · rw [number_small less]
        simp
      · rw [number_large (by omega : 10 ≤ m)]
        have rest := ih (n/10) (by omega) (show m/10 ≤ n/10 by omega)
        simpa using rest

theorem number_beginning {m n : Nat} (beginning : number m <+: number n) : m = n ∨ (1 ≤ m ∧ 10*m ≤ n) := by
  induction n using Nat.strongRecOn with
  | ind n ih =>
    by_cases small : n < 10
    · left
      rw [number_small small] at beginning
      rcases List.prefix_cons_iff.mp beginning with none | ⟨rest,split,nothing⟩
      · exact absurd none (number_ne_nil m)
      · rw [List.prefix_nil.mp nothing] at split
        exact number_injective (split.trans (number_small small).symm)
    · have large : 10 ≤ n := by omega
      rw [number_large large] at beginning
      rcases List.prefix_concat_iff.mp beginning with whole | shorter
      · left
        exact number_injective (whole.trans (number_large large).symm)
      · right
        rcases ih (n/10) (by omega) shorter with same | ⟨positive,less⟩
        · omega
        · omega

theorem number_append {m n : Nat} (less : m < n) {s t : List Char} (same : number m++s = number n++t) :
    1 ≤ m ∧ 10*m ≤ n ∧ ∃ c rest, s = c :: rest ∧ c.isDigit := by
  have left : number m <+: number n++t := ⟨s,same⟩
  have beginning := List.prefix_of_prefix_length_le left (List.prefix_append (number n) t)
    (length_number_mono (Nat.le_of_lt less))
  obtain ⟨positive,bound⟩ := (number_beginning beginning).resolve_left (Nat.ne_of_lt less)
  refine ⟨positive,bound,?_⟩
  obtain ⟨more,whole⟩ := beginning
  rw [← whole,List.append_assoc] at same
  cases more with
  | nil =>
    rw [List.append_nil] at whole
    exact absurd (number_injective whole) (Nat.ne_of_lt less)
  | cons c rest =>
    refine ⟨c,rest++t,List.append_cancel_left same,isDigit_of_mem (n := n) ?_⟩
    rw [← whole]
    simp

end KdeWorkspace.Decimals
