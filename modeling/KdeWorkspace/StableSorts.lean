import Mathlib.Data.List.Nodup
import Mathlib.Order.Lattice

/-!
Stable sorting of lists without duplicates, and how runs that are sorted get longer.

A list is the stable sort of another one when each two elements are in the order
they had, unless the comparison puts the second one strictly before the first
(`StableSort`). Merging keeps this (`StableSort.merge`), so a pass that merges
neighbouring runs doubles their length (`Passed.chunked`); and there is only one
stable sort (`StableSort.unique`), which `List.mergeSort` finds, so two comparisons have
the same one just when they agree on the pairs of the list (`StableSort.agree_iff`).
-/
namespace KdeWorkspace.StableSorts
open List
universe u
variable {α : Type u} {le : α → α → Bool} {l l' r r' : List α} {i j : α} {k : Nat}

/-- The elements of a list, sorted so that what is equal keeps its order. -/
structure StableSort (le : α → α → Bool) (l l' : List α) : Prop where
  perm : l'.Perm l
  keeps : ∀ i j, [i,j].Sublist l → le i j = true → [i,j].Sublist l'
  swaps : ∀ i j, [i,j].Sublist l → le i j = false → [j,i].Sublist l'

theorem pair_cons {a : α} (member : j ∈ l) : [a,j].Sublist (a :: l) := (singleton_sublist.mpr member).cons_cons a

theorem pair_mem (pair : [i,j].Sublist l) : i ∈ l ∧ j ∈ l := ⟨pair.subset (by simp),pair.subset (by simp)⟩

theorem pair_or (first : i ∈ l) (second : j ∈ l) (other : i ≠ j) : [i,j].Sublist l ∨ [j,i].Sublist l := by
  induction l with
  | nil => cases first
  | cons a rest ih =>
    rcases mem_cons.mp first with rfl | later
    · exact .inl (pair_cons ((mem_cons.mp second).resolve_left (Ne.symm other)))
    · rcases mem_cons.mp second with rfl | later'
      · exact .inr (pair_cons later)
      · exact (ih later later').imp (.cons a) (.cons a)

theorem pair_antisymm (nodup : l.Nodup) (pair : [i,j].Sublist l) : ¬ [j,i].Sublist l := by
  induction l with
  | nil => cases pair
  | cons a rest ih =>
    obtain ⟨absent,nodup⟩ := nodup_cons.mp nodup
    intro back
    cases pair with
    | cons _ pair =>
      cases back with
      | cons _ back => exact ih nodup pair back
      | cons_cons _ back => exact absent (pair_mem pair).2
    | cons_cons _ pair =>
      cases back with
      | cons _ back => exact absent (pair_mem back).2
      | cons_cons _ back => exact absent (singleton_sublist.mp pair)

theorem pair_append (pair : [i,j].Sublist (l ++ r)) : [i,j].Sublist l ∨ (i ∈ l ∧ j ∈ r) ∨ [i,j].Sublist r := by
  induction l with
  | nil => exact .inr (.inr pair)
  | cons a rest ih =>
    cases pair with
    | cons _ pair =>
      rcases ih pair with left | ⟨first,second⟩ | right
      · exact .inl (left.cons a)
      · exact .inr (.inl ⟨mem_cons_of_mem a first,second⟩)
      · exact .inr (.inr right)
    | cons_cons _ pair =>
      rcases mem_append.mp (singleton_sublist.mp pair) with left | right
      · exact .inl (pair_cons left)
      · exact .inr (.inl ⟨mem_cons_self,right⟩)

theorem StableSort.nodup (sorts : StableSort le l l') (nodup : l.Nodup) : l'.Nodup := sorts.perm.symm.nodup nodup

theorem StableSort.sorted (sorts : StableSort le l l') (nodup : l.Nodup) (total : ∀ a b, le a b = true ∨ le b a = true) :
    l'.Pairwise fun a b => le a b = true := by
  refine pairwise_iff_forall_sublist.mpr fun {a b} pair => ?_
  have nodup' := sorts.nodup nodup
  obtain ⟨first,second⟩ := pair_mem pair
  have other : a ≠ b := by
    rintro rfl
    exact nodup_iff_sublist.mp nodup' a pair
  rcases pair_or (sorts.perm.mem_iff.mp first) (sorts.perm.mem_iff.mp second) other with before | after
  · by_contra greater
    exact pair_antisymm nodup' pair (sorts.swaps a b before (Bool.not_eq_true _ ▸ greater))
  · by_contra greater
    have less := (total a b).resolve_left greater
    exact pair_antisymm nodup' pair (sorts.keeps b a after less)

theorem stableSort_nil : StableSort le [] [] := ⟨.rfl,fun _ _ pair => (nomatch pair),fun _ _ pair => (nomatch pair)⟩

theorem stableSort_singleton (a : α) : StableSort le [a] [a] := by
  refine ⟨.rfl,fun i j pair => ?_,fun i j pair => ?_⟩
  · exact absurd pair.length_le (by simp)
  · exact absurd pair.length_le (by simp)

theorem sublist_merge (l r : List α) : l.Sublist (l.merge r le) ∧ r.Sublist (l.merge r le) := by
  induction l generalizing r with
  | nil => simp
  | cons a l ih =>
    induction r with
    | nil => simp
    | cons b r ih' =>
      by_cases first : le a b = true
      · rw [cons_merge_cons_pos le l r first]
        exact ⟨(ih (b :: r)).1.cons_cons a,(ih (b :: r)).2.cons a⟩
      · rw [cons_merge_cons_neg le l r first]
        exact ⟨ih'.1.cons b,ih'.2.cons_cons b⟩

theorem merge_across (trans : ∀ a b c, le a b = true → le b c = true → le a c = true)
    (sorted : l.Pairwise fun a b => le a b = true) (sorted' : r.Pairwise fun a b => le a b = true) (first : i ∈ l) (second : j ∈ r) :
    (le i j = true → [i,j].Sublist (l.merge r le)) ∧ (le i j = false → [j,i].Sublist (l.merge r le)) := by
  induction l generalizing r with
  | nil => cases first
  | cons a l ih =>
    induction r with
    | nil => cases second
    | cons b r ih' =>
      obtain ⟨least,tail⟩ := pairwise_cons.mp sorted
      obtain ⟨least',tail'⟩ := pairwise_cons.mp sorted'
      by_cases before : le a b = true
      · -- the head of the first list is taken, which is not behind any of the second one
        rw [cons_merge_cons_pos le l r before]
        have below : le a j = true := by
          rcases mem_cons.mp second with rfl | later
          · exact before
          · exact trans a b j before (least' j later)
        rcases mem_cons.mp first with rfl | later
        · refine ⟨fun _ => pair_cons ((sublist_merge l (b :: r)).2.subset second),fun greater => ?_⟩
          rw [below] at greater
          cases greater
        · obtain ⟨keeps,swaps⟩ := ih tail sorted' later second
          exact ⟨fun less => (keeps less).cons a,fun greater => (swaps greater).cons a⟩
      · rw [cons_merge_cons_neg le l r before]
        rcases mem_cons.mp second with rfl | later
        · have above : ¬ le i j = true := by
            rcases mem_cons.mp first with rfl | later
            · exact before
            · exact fun less => before (trans a i j (least i later) less)
          exact ⟨fun less => absurd less above,fun _ => pair_cons ((sublist_merge (a :: l) r).1.subset first)⟩
        · obtain ⟨keeps,swaps⟩ := ih' tail' later
          exact ⟨fun less => (keeps less).cons b,fun greater => (swaps greater).cons b⟩

theorem StableSort.merge (trans : ∀ a b c, le a b = true → le b c = true → le a c = true)
    (total : ∀ a b, le a b = true ∨ le b a = true) (nodup : (l ++ r).Nodup) (left : StableSort le l l')
    (right : StableSort le r r') : StableSort le (l ++ r) (l'.merge r' le) := by
  obtain ⟨nodupL,nodupR,_⟩ := nodup_append.mp nodup
  have sorted := left.sorted nodupL total
  have sorted' := right.sorted nodupR total
  obtain ⟨subL,subR⟩ := @sublist_merge _ le l' r'
  have across (i j : α) (first : i ∈ l) (second : j ∈ r) :=
    merge_across trans sorted sorted' (left.perm.mem_iff.mpr first) (right.perm.mem_iff.mpr second)
  refine ⟨(merge_perm_append le).trans (left.perm.append right.perm),fun i j pair less => ?_,fun i j pair greater => ?_⟩
  · rcases pair_append pair with both | ⟨first,second⟩ | both
    · exact (left.keeps i j both less).trans subL
    · exact (across i j first second).1 less
    · exact (right.keeps i j both less).trans subR
  · rcases pair_append pair with both | ⟨first,second⟩ | both
    · exact (left.swaps i j both greater).trans subL
    · exact (across i j first second).2 greater
    · exact (right.swaps i j both greater).trans subR

/-- Each run of `k` elements is the stable sort of the elements that stood there. -/
inductive Chunked (le : α → α → Bool) (k : Nat) : List α → List α → Prop
  | nil : Chunked le k [] []
  | cons {l l' : List α} (some : l ≠ []) (run : StableSort le (l.take k) (l'.take k))
      (rest : Chunked le k (l.drop k) (l'.drop k)) : Chunked le k l l'

/-- A pass that merges neighbouring runs of `k` elements, with the number of merges. -/
inductive Passed (le : α → α → Bool) (k : Nat) : List α → List α → Nat → Prop
  | nil : Passed le k [] [] 0
  | cons {l out : List α} {n : Nat} (some : l ≠ []) (rest : Passed le k (l.drop (k+k)) out n) :
      Passed le k l ((l.take k).merge ((l.drop k).take k) le ++ out) (n+1)

theorem chunked_one (l : List α) : Chunked le 1 l l := by
  induction l with
  | nil => exact .nil
  | cons a rest ih => exact .cons (cons_ne_nil a rest) (stableSort_singleton a) ih

theorem Passed.perm {out : List α} {n : Nat} (passed : Passed le k l out n) : out.Perm l := by
  induction passed with
  | nil => exact .rfl
  | @cons l out n some rest ih =>
    have front : ((l.take k).merge ((l.drop k).take k) le).Perm (l.take (k+k)) := by
      rw [take_add]
      exact merge_perm_append le
    have parts := front.append ih
    rwa [take_append_drop] at parts

theorem Chunked.head (chunked : Chunked le k l l') : StableSort le (l.take k) (l'.take k) := by
  cases chunked with
  | nil => simpa using stableSort_nil
  | cons some run rest => exact run

theorem Chunked.tail (chunked : Chunked le k l l') : Chunked le k (l.drop k) (l'.drop k) := by
  cases chunked with
  | nil => simpa using Chunked.nil
  | cons some run rest => exact rest

theorem Chunked.length (chunked : Chunked le k l l') : l'.length = l.length := by
  induction chunked with
  | nil => rfl
  | cons some run rest ih =>
    have front := run.perm.length_eq
    simp only [length_take,length_drop] at front ih
    omega

theorem merged_front {out : List α} {n : Nat} (rest : Passed le k (l.drop (k+k)) out n) :
    let front := (l.take k).merge ((l.drop k).take k) le
    (front ++ out).take (k+k) = front ∧ (front ++ out).drop (k+k) = out := by
  intro front
  have length : front.length = min k l.length+min k (l.length-k) := by
    simp [front,length_merge]
  by_cases long : k+k ≤ l.length
  · have full : front.length = k+k := by omega
    exact ⟨take_left' full,drop_left' full⟩
  · have short : front.length ≤ k+k := by omega
    have ended := rest.perm
    rw [drop_eq_nil_of_le (by omega)] at ended
    obtain rfl := ended.eq_nil
    rw [append_nil]
    exact ⟨take_of_length_le short,drop_eq_nil_of_le short⟩

theorem Passed.chunked (trans : ∀ a b c, le a b = true → le b c = true → le a c = true)
    (total : ∀ a b, le a b = true ∨ le b a = true) {m out : List α} {n : Nat} (nodup : l.Nodup) (chunked : Chunked le k l m)
    (passed : Passed le k m out n) : Chunked le (k+k) l out := by
  induction passed generalizing l with
  | nil =>
    have empty : l = [] := length_eq_zero_iff.mp chunked.length.symm
    subst empty
    exact .nil
  | @cons m out n some rest ih =>
    have nonempty : l ≠ [] := by
      rintro rfl
      exact some (length_eq_zero_iff.mp chunked.length)
    obtain ⟨front,behind⟩ := merged_front rest
    refine .cons nonempty ?_ ?_
    · rw [front,take_add]
      refine StableSort.merge trans total ?_ chunked.head chunked.tail.head
      rw [← take_add]
      exact (take_sublist _ l).nodup nodup
    · rw [behind]
      have two := chunked.tail.tail
      rw [drop_drop,drop_drop] at two
      exact ih ((drop_sublist _ l).nodup nodup) two

theorem Passed.eq_nil {out : List α} (passed : Passed le k l out 0) : l = [] := by
  generalize none : 0 = n at passed
  cases passed with
  | nil => rfl
  | cons => cases none

theorem Passed.long {out : List α} {n : Nat} (passed : Passed le k l out n) (several : 1 < n) : k+k < l.length := by
  cases passed with
  | nil => cases several
  | @cons _ out n some rest =>
    by_contra short
    have ended : l.drop (k+k) = [] := drop_eq_nil_of_le (Nat.le_of_not_lt short)
    rw [ended] at rest
    cases rest with
    | nil => cases several with | step impossible => cases impossible
    | cons some rest => exact some rfl

theorem Passed.sorted (trans : ∀ a b c, le a b = true → le b c = true → le a c = true)
    (total : ∀ a b, le a b = true ∨ le b a = true) {m out : List α} {n : Nat} (nodup : l.Nodup) (chunked : Chunked le k l m)
    (passed : Passed le k m out n) (few : n ≤ 1) : StableSort le l out := by
  have runs := (passed.chunked trans total nodup chunked).head
  have length := chunked.length
  have short : m.length ≤ k+k := by
    cases passed with
    | nil => exact Nat.zero_le _
    | @cons _ _ n some rest =>
      obtain rfl : n = 0 := by omega
      exact drop_eq_nil_iff.mp rest.eq_nil
  have length' := passed.perm.length_eq
  rwa [take_of_length_le (by omega),take_of_length_le (by omega)] at runs

theorem StableSort.agree_iff (le' : α → α → Bool) (nodup : l.Nodup) (sorts : StableSort le l l') :
    StableSort le' l l' ↔ ∀ i j, [i,j].Sublist l → le i j = le' i j := by
  constructor
  · intro sorts' i j pair
    have nodup' := sorts.nodup nodup
    cases less : le i j <;> cases less' : le' i j
    · rfl
    · exact absurd (sorts.swaps i j pair less) (pair_antisymm nodup' (sorts'.keeps i j pair less'))
    · exact absurd (sorts'.swaps i j pair less') (pair_antisymm nodup' (sorts.keeps i j pair less))
    · rfl
  · intro agree
    refine ⟨sorts.perm,fun i j pair less => ?_,fun i j pair greater => ?_⟩
    · exact sorts.keeps i j pair ((agree i j pair).trans less)
    · exact sorts.swaps i j pair ((agree i j pair).trans greater)

theorem eq_of_pairs (nodup : l.Nodup) (perm : l'.Perm l) (same : ∀ i j, [i,j].Sublist l → [i,j].Sublist l') : l = l' := by
  induction l generalizing l' with
  | nil => exact perm.eq_nil.symm
  | cons a rest ih =>
    obtain ⟨absent,nodup'⟩ := nodup_cons.mp nodup
    have both := perm.symm.nodup nodup
    obtain ⟨b,rest',rfl⟩ := exists_cons_of_ne_nil (fun empty => by simpa [empty] using perm.length_eq : l' ≠ [])
    have first : b = a := by
      by_contra other
      have later : b ∈ rest := (mem_cons.mp (perm.mem_iff.mp mem_cons_self)).resolve_left other
      have behind : a ∈ rest' := (mem_cons.mp (perm.mem_iff.mpr mem_cons_self)).resolve_left (Ne.symm other)
      exact pair_antisymm both (pair_cons behind) (same a b (pair_cons later))
    subst first
    rw [ih nodup' (perm_cons b |>.mp perm)]
    intro i j pair
    have other : i ≠ b := fun here => absent (here ▸ (pair_mem pair).1)
    cases same i j (pair.cons b) with
    | cons _ tail => exact tail
    | cons_cons _ tail => exact absurd rfl other

theorem StableSort.unique {other : List α} (nodup : l.Nodup) (sorts : StableSort le l l') (sorts' : StableSort le l other) :
    l' = other := by
  have nodup' := sorts.nodup nodup
  refine eq_of_pairs nodup' (sorts'.perm.trans sorts.perm.symm) fun i j pair => ?_
  obtain ⟨first,second⟩ := pair_mem pair
  have distinct : i ≠ j := by
    rintro rfl
    exact nodup_iff_sublist.mp nodup' i pair
  rcases pair_or (sorts.perm.mem_iff.mp first) (sorts.perm.mem_iff.mp second) distinct with before | after
  · cases less : le i j with
    | true => exact sorts'.keeps i j before less
    | false => exact absurd (sorts.swaps i j before less) (pair_antisymm nodup' pair)
  · cases less : le j i with
    | true => exact absurd (sorts.keeps j i after less) (pair_antisymm nodup' pair)
    | false => exact sorts'.swaps j i after less

theorem stableSort_self (sorted : l.Pairwise fun a b => le a b = true) : StableSort le l l := by
  refine ⟨.rfl,fun i j pair _ => pair,fun i j pair greater => ?_⟩
  have less : le i j = true := pairwise_iff_forall_sublist.mp sorted pair
  rw [greater] at less
  cases less

theorem stableSort_mergeSort (trans : ∀ a b c, le a b = true → le b c = true → le a c = true)
    (total : ∀ a b, le a b = true ∨ le b a = true) (nodup : l.Nodup) : StableSort le l (l.mergeSort le) := by
  have total' : ∀ a b, (le a b || le b a) = true := fun a b => Bool.or_eq_true _ _ |>.mpr (total a b)
  have perm := mergeSort_perm l le
  refine ⟨perm,fun i j pair less => pair_sublist_mergeSort trans total' less pair,fun i j pair greater => ?_⟩
  obtain ⟨first,second⟩ := pair_mem pair
  have distinct : i ≠ j := by
    rintro rfl
    exact nodup_iff_sublist.mp nodup i pair
  refine (pair_or (perm.mem_iff.mpr first) (perm.mem_iff.mpr second) distinct).resolve_left fun before => ?_
  have less : le i j = true := pairwise_iff_forall_sublist.mp (pairwise_mergeSort trans total' l) before
  rw [greater] at less
  cases less

theorem StableSort.erase [DecidableEq α] (nodup : l.Nodup) (x : α) (sorts : StableSort le l l') :
    StableSort le (l.erase x) (l'.erase x) := by
  have kept : ∀ {i j : α}, [i,j].Sublist (l.erase x) → [i,j].erase x = [i,j] := by
    intro i j pair
    obtain ⟨first,second⟩ := pair_mem pair
    have apart : x ∉ [i,j] := by
      simp only [mem_cons,not_mem_nil,or_false]
      rintro (rfl | rfl)
      · exact nodup.not_mem_erase first
      · exact nodup.not_mem_erase second
    exact erase_of_not_mem apart
  have back : ∀ {i j : α}, [i,j].Sublist (l.erase x) → [j,i].erase x = [j,i] := by
    intro i j pair
    have same := kept pair
    apply erase_of_not_mem
    intro inside
    have there : x ∈ [i,j] := by
      simpa [or_comm] using inside
    have shorter := length_erase_of_mem there
    rw [same] at shorter
    simp at shorter
  refine ⟨sorts.perm.erase x,fun i j pair less => ?_,fun i j pair greater => ?_⟩
  · rw [← kept pair]
    exact (sorts.keeps i j (pair.trans erase_sublist) less).erase x
  · rw [← back pair]
    exact (sorts.swaps i j (pair.trans erase_sublist) greater).erase x

theorem StableSort.others [DecidableEq α] (nodup : l.Nodup) {x : α} (sorts : StableSort le l l')
    (sorted : (l.erase x).Pairwise fun a b => le a b = true) : l'.erase x = l.erase x :=
  (sorts.erase nodup x).unique (nodup.erase x) (stableSort_self sorted)

/-- A comparison that sorting can rely on: what is not before one another is not told apart. -/
structure WeakOrder (less : α → α → Bool) : Prop where
  asymm : ∀ a b, less a b = true → less b a = false
  between : ∀ a b c, less a c = true → less a b = true ∨ less b c = true

def upTo (less : α → α → Bool) (a b : α) : Bool := !less b a

variable {less : α → α → Bool}

theorem WeakOrder.trans (weak : WeakOrder less) (a b c : α) (first : upTo less a b = true)
    (second : upTo less b c = true) : upTo less a c = true := by
  unfold upTo at first second ⊢
  rw [Bool.not_eq_true'] at first second ⊢
  by_contra behind
  rcases weak.between c b a (Bool.not_eq_false _ ▸ behind) with after | after
  · rw [second] at after
    cases after
  · rw [first] at after
    cases after

theorem WeakOrder.total (weak : WeakOrder less) (a b : α) : upTo less a b = true ∨ upTo less b a = true := by
  unfold upTo
  cases after : less b a with
  | true => exact .inr (by rw [weak.asymm b a after]; rfl)
  | false => exact .inl rfl

theorem weakOrder_key {κ : Type} [LinearOrder κ] (key : α → κ) : WeakOrder fun a b => decide (key a < key b) := by
  refine ⟨fun a b before => ?_,fun a b c before => ?_⟩
  · rw [decide_eq_true_iff] at before
    exact decide_eq_false (not_lt_of_gt before)
  · rw [decide_eq_true_iff] at before
    rw [decide_eq_true_iff,decide_eq_true_iff]
    exact (lt_or_ge (key a) (key b)).imp_right fun behind => lt_of_le_of_lt behind before

/-- A new element goes in front of the first one that is not before it. -/
def insertFront (less : α → α → Bool) (x : α) : List α → List α
  | [] => [x]
  | a :: rest => if less a x then a :: insertFront less x rest else x :: a :: rest

theorem insertFront_perm (less : α → α → Bool) (x : α) (l : List α) : (insertFront less x l).Perm (x :: l) := by
  induction l with
  | nil => exact .rfl
  | cons a rest ih =>
    rw [insertFront]
    split
    · exact (ih.cons a).trans (.swap x a rest)
    · exact .rfl

theorem sublist_insertFront (less : α → α → Bool) (x : α) (l : List α) : l.Sublist (insertFront less x l) := by
  induction l with
  | nil => exact nil_sublist _
  | cons a rest ih =>
    rw [insertFront]
    split
    · exact ih.cons_cons a
    · exact sublist_cons_self x _

theorem insertFront_pair (weak : WeakOrder less) {x : α}
    (sorted : l.Pairwise fun a b => upTo less a b = true) (member : i ∈ l) :
    (less i x = true → [i,x].Sublist (insertFront less x l)) ∧ (less i x = false → [x,i].Sublist (insertFront less x l)) := by
  induction l with
  | nil => cases member
  | cons a rest ih =>
    obtain ⟨first,tail⟩ := pairwise_cons.mp sorted
    rw [insertFront]
    by_cases before : less a x = true
    · rw [if_pos before]
      rcases mem_cons.mp member with rfl | later
      · refine ⟨fun _ => pair_cons ((insertFront_perm less x rest).mem_iff.mpr mem_cons_self),fun behind => ?_⟩
        rw [before] at behind
        cases behind
      · exact ⟨fun less => ((ih tail later).1 less).cons a,fun greater => ((ih tail later).2 greater).cons a⟩
    · rw [if_neg before]
      refine ⟨fun less' => absurd less' ?_,fun _ => pair_cons member⟩
      -- nothing behind `a` is before `x` when `a` is not
      rcases mem_cons.mp member with rfl | later
      · exact before
      · intro early
        have order := first i later
        unfold upTo at order
        rw [Bool.not_eq_true'] at order
        rcases weak.between i a x early with after | after
        · rw [order] at after
          cases after
        · exact before after

theorem StableSort.insertFront (weak : WeakOrder less) {x : α} (sorts : StableSort less l l')
    (sorted : l'.Pairwise fun a b => upTo less a b = true) : StableSort less (l ++ [x]) (insertFront less x l') := by
  have perm : (StableSorts.insertFront less x l').Perm (l ++ [x]) :=
    (insertFront_perm less x l').trans ((sorts.perm.cons x).trans (perm_append_singleton x l).symm)
  have kept := sublist_insertFront less x l'
  refine ⟨perm,fun i j pair before => ?_,fun i j pair behind => ?_⟩
  · rcases pair_append pair with both | ⟨first,second⟩ | both
    · exact (sorts.keeps i j both before).trans kept
    · rw [mem_singleton.mp second] at before ⊢
      exact (insertFront_pair weak sorted (sorts.perm.mem_iff.mpr first)).1 before
    · exact absurd both.length_le (by simp)
  · rcases pair_append pair with both | ⟨first,second⟩ | both
    · exact (sorts.swaps i j both behind).trans kept
    · rw [mem_singleton.mp second] at behind ⊢
      exact (insertFront_pair weak sorted (sorts.perm.mem_iff.mpr first)).2 behind
    · exact absurd both.length_le (by simp)

theorem insertFront_sorted (weak : WeakOrder less) {x : α} (sorted : l.Pairwise fun a b => upTo less a b = true) :
    (insertFront less x l).Pairwise fun a b => upTo less a b = true := by
  induction l with
  | nil => exact pairwise_singleton _ x
  | cons a rest ih =>
    obtain ⟨first,tail⟩ := pairwise_cons.mp sorted
    rw [insertFront]
    by_cases before : less a x = true
    · rw [if_pos before]
      refine pairwise_cons.mpr ⟨fun b mem => ?_,ih tail⟩
      rcases mem_cons.mp ((insertFront_perm less x rest).mem_iff.mp mem) with rfl | later
      · unfold upTo
        rw [weak.asymm a b before]
        rfl
      · exact first b later
    · rw [if_neg before]
      refine pairwise_cons.mpr ⟨fun b mem => ?_,sorted⟩
      have order : upTo less x a = true := by
        unfold upTo
        rw [Bool.not_eq_true] at before
        rw [before]
        rfl
      rcases mem_cons.mp mem with rfl | later
      · exact order
      · exact weak.trans x a b order (first b later)

theorem StableSort.parts {p : α → Bool} {other : List α} (sorts : StableSort le (l.filter p) l')
    (sorts' : StableSort le (l.filter fun a => !p a) other)
    (before : ∀ a b, p a = true → p b = false → le a b = true ∧ le b a = false) : StableSort le l (l' ++ other) := by
  have front := sublist_append_left l' other
  have behind := sublist_append_right l' other
  have left {i j : α} (pair : [i,j].Sublist l) (first : p i = true) (second : p j = true) : [i,j].Sublist (l.filter p) := by
    have kept := pair.filter p
    rwa [filter_cons_of_pos first,filter_cons_of_pos second] at kept
  have right {i j : α} (pair : [i,j].Sublist l) (first : p i = false) (second : p j = false) :
      [i,j].Sublist (l.filter fun a => !p a) := by
    have kept := pair.filter fun a => !p a
    rwa [filter_cons_of_pos (by simp [first]),filter_cons_of_pos (by simp [second])] at kept
  have across {i j : α} (one : i ∈ l) (two : j ∈ l) (first : p i = true) (second : p j = false) :
      [i,j].Sublist (l' ++ other) := by
    have early := sorts.perm.mem_iff.mpr (mem_filter.mpr ⟨one,first⟩)
    have late := sorts'.perm.mem_iff.mpr (mem_filter.mpr ⟨two,by simp [second]⟩)
    exact (singleton_sublist.mpr early).append (singleton_sublist.mpr late)
  refine ⟨(sorts.perm.append sorts'.perm).trans (filter_append_perm p l),fun i j pair less => ?_,fun i j pair greater => ?_⟩
  · obtain ⟨one,two⟩ := pair_mem pair
    cases first : p i <;> cases second : p j
    · exact (sorts'.keeps i j (right pair first second) less).trans behind
    · rw [(before j i second first).2] at less
      cases less
    · exact across one two first second
    · exact (sorts.keeps i j (left pair first second) less).trans front
  · obtain ⟨one,two⟩ := pair_mem pair
    cases first : p i <;> cases second : p j
    · exact (sorts'.swaps i j (right pair first second) greater).trans behind
    · exact across two one second first
    · rw [(before i j first second).1] at greater
      cases greater
    · exact (sorts.swaps i j (left pair first second) greater).trans front

end KdeWorkspace.StableSorts
