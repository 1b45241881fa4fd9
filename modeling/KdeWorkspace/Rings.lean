import Mathlib.Data.List.Cycle

/-!
Rings: lists whose elements a relation links one to the next, and the last one to
the first (`Ring`). A stretch of a ring is a path between two elements (`Path`),
and is made of its two outer links and its inner ones (`path_iff`).

Linking `a` to `b` takes from `a` its link onwards and from `b` the link to it
(`Relinked`). An element is taken out of a ring by one such step
(`ring_remove`), put in front by two (`ring_insert`), and two elements change
places by four (`ring_swap`); one step closes a chain (`ring_close`).
-/
namespace KdeWorkspace.Rings
open List
universe u
variable {α : Type u} {R S : α → α → Prop}

/-- The relation links the elements of the list in a ring. -/
def Ring (R : α → α → Prop) (l : List α) : Prop := Cycle.Chain R (l : Cycle α)

/-- The relation leads from `x` through the list to `y`. -/
def Path (R : α → α → Prop) (x : α) (l : List α) (y : α) : Prop := List.IsChain R (x :: (l ++ [y]))

/-- `R` once `a` has been linked to `b`. -/
def Relinked (R : α → α → Prop) (a b : α) : α → α → Prop := fun x y => x = a ∧ y = b ∨ x ≠ a ∧ y ≠ b ∧ R x y

@[simp]
theorem relinked_self (a b : α) : Relinked R a b a b := .inl ⟨rfl,rfl⟩

variable {l : List α}

theorem path_iff {x y : α} : Path R x l y ↔ R x (l.headD y) ∧ l.IsChain R ∧ R (l.getLastD x) y := by
  cases l with
  | nil => simp [Path]
  | cons a l =>
    rw [Path,cons_append,isChain_cons_cons,← cons_append,isChain_append]
    simp [getLast?_cons]

variable {x : α}

theorem ring_cons : Ring R (x :: l) ↔ Path R x l x := Iff.rfl

theorem Ring.imp (ring : Ring R l) (imp : ∀ a b, R a b → S a b) : Ring S l := Cycle.Chain.imp imp ring

theorem ring_rotate (l l' : List α) : Ring R (l ++ l') ↔ Ring R (l' ++ l) := by
  have same : ((l ++ l' : List α) : Cycle α) = (l' ++ l : List α) := Cycle.coe_eq_coe.mpr isRotated_append
  rw [Ring,Ring,same]

theorem Ring.chain (ring : Ring R l) : l.IsChain R := by
  cases l with
  | nil => exact .nil
  | cons x l =>
    have closed : ((x :: l) ++ [x]).IsChain R := ring
    exact closed.left_of_append

theorem ring_two {x y : α} {l l' : List α} : Ring R (x :: (l ++ y :: l')) ↔ Path R x l y ∧ Path R y l' x := by
  rw [ring_cons,Path,Path,Path,append_assoc,cons_append,← cons_append,isChain_split,cons_append]

theorem Ring.neighbours {l l' : List α} (ring : Ring R (l ++ x :: l')) :
    R x ((l' ++ l).headD x) ∧ R ((l' ++ l).getLastD x) x := by
  rw [ring_rotate,cons_append,ring_cons,path_iff] at ring
  exact ⟨ring.1,ring.2.2⟩

theorem isChain_relinked {a b : α} (chain : l.IsChain R) (source : a ∉ l.dropLast) (target : b ∉ l.tail) :
    l.IsChain (Relinked R a b) := by
  induction chain with
  | nil => exact .nil
  | singleton x => exact .singleton x
  | @cons_cons x y l link chain ih =>
    simp only [dropLast_cons_cons,mem_cons,not_or,tail_cons] at source target
    exact .cons_cons (.inr ⟨Ne.symm source.1,Ne.symm target.1,link⟩) (ih source.2 target.2)

theorem headD_mem_or (x : α) (l : List α) : l.headD x ∈ l ∨ l = [] ∧ l.headD x = x := by
  cases l <;> simp

theorem getLastD_mem_or (x : α) (l : List α) : l.getLastD x ∈ l ∨ l = [] ∧ l.getLastD x = x := by
  cases l using reverseRecOn <;> simp

theorem exists_head (some : l ≠ []) : ∃ a ∈ l, ∀ x, l.headD x = a := by
  cases l with
  | nil => exact absurd rfl some
  | cons a l => exact ⟨a,mem_cons_self,fun _ => rfl⟩

theorem exists_last (some : l ≠ []) : ∃ a ∈ l, ∀ x, l.getLastD x = a := by
  cases l using reverseRecOn with
  | nil => exact absurd rfl some
  | append_singleton l a => exact ⟨a,by simp,fun _ => getLastD_concat⟩

theorem predecessor {t c : α} (within : c ∈ t :: l) :
    l.headD t = c ∨ ∃ before p behind, l = before ++ p :: behind ∧ behind.headD t = c := by
  rcases mem_cons.mp within with rfl | within
  · cases l using reverseRecOn with
    | nil => exact .inl rfl
    | append_singleton l p => exact .inr ⟨l,p,[],rfl,rfl⟩
  · obtain ⟨before,behind,rfl⟩ := append_of_mem within
    cases before using reverseRecOn with
    | nil => exact .inl rfl
    | append_singleton before p => exact .inr ⟨before,p,c :: behind,by simp,rfl⟩

theorem headD_holds {P : α → Prop} (here : P x) (all : ∀ a ∈ l, P a) : P (l.headD x) := by
  rcases headD_mem_or x l with there | ⟨_,same⟩
  · exact all _ there
  · rw [same]
    exact here

theorem getLastD_holds {P : α → Prop} (here : P x) (all : ∀ a ∈ l, P a) : P (l.getLastD x) := by
  rcases getLastD_mem_or x l with there | ⟨_,same⟩
  · exact all _ there
  · rw [same]
    exact here

theorem headD_mem {l l' : List α} (here : x ∈ l') (within : ∀ a ∈ l, a ∈ l') : l.headD x ∈ l' := headD_holds here within

theorem getLastD_mem {l l' : List α} (here : x ∈ l') (within : ∀ a ∈ l, a ∈ l') : l.getLastD x ∈ l' :=
  getLastD_holds here within

theorem headD_notMem_tail (nodup : l.Nodup) (absent : x ∉ l) : l.headD x ∉ l.tail := by
  cases l with
  | nil => simp
  | cons a l => exact (nodup_cons.mp nodup).1

theorem getLastD_notMem_dropLast (nodup : l.Nodup) (absent : x ∉ l) : l.getLastD x ∉ l.dropLast := by
  cases l using reverseRecOn with
  | nil => simp
  | append_singleton l a =>
    have last := nodup_append.mp nodup
    simpa using fun within => last.2.2 a within a (by simp) rfl

theorem end_notMem_dropLast {t : α} (nodup : (t :: l).Nodup) : l.getLastD t ∉ (t :: l).dropLast := by
  cases l with
  | nil => simp
  | cons a l =>
    intro within
    rw [dropLast_cons_cons,mem_cons] at within
    obtain ⟨absent,nodup⟩ := nodup_cons.mp nodup
    rcases within with same | within
    · rcases getLastD_mem_or t (a :: l) with last | ⟨empty,_⟩
      · exact absent (same ▸ last)
      · simp at empty
    · exact getLastD_notMem_dropLast nodup absent within

theorem ring_remove (ring : Ring R (x :: l)) (nodup : (x :: l).Nodup) :
    Ring (Relinked R (l.getLastD x) (l.headD x)) l := by
  obtain ⟨absent,nodup⟩ := nodup_cons.mp nodup
  obtain ⟨_,chain,_⟩ := path_iff.mp (ring_cons.mp ring)
  have source := getLastD_notMem_dropLast nodup absent
  have target := headD_notMem_tail nodup absent
  have inner := isChain_relinked chain source target
  cases l with
  | nil => trivial
  | cons a l =>
    rw [Ring,Cycle.chain_coe_cons,← cons_append,isChain_append]
    refine ⟨inner,.singleton a,?_⟩
    simp [getLast?_cons]

theorem ring_insert {x t : α} (ring : Ring R (t :: l)) (nodup : (x :: t :: l).Nodup) :
    Ring (Relinked (Relinked R (l.getLastD t) x) x t) (x :: t :: l) := by
  obtain ⟨absent,nodup⟩ := nodup_cons.mp nodup
  have last : l.getLastD t ∈ t :: l := getLastD_mem mem_cons_self fun a => mem_cons_of_mem t
  have source := end_notMem_dropLast nodup
  have inner := isChain_relinked ring.chain source (fun later => absent (mem_of_mem_tail later))
  have inner := isChain_relinked inner (fun earlier => absent (mem_of_mem_dropLast earlier)) (nodup_cons.mp nodup).1
  rw [ring_cons,path_iff]
  rw [headD_cons,getLastD_cons]
  refine ⟨.inl ⟨rfl,rfl⟩,inner,.inr ⟨?_,?_,.inl ⟨rfl,rfl⟩⟩⟩
  · intro same
    exact absent (same ▸ last)
  · intro same
    exact absent (same ▸ mem_cons_self)

theorem ring_close {t : α} (chain : (t :: l).IsChain R) (nodup : (t :: l).Nodup) :
    Ring (Relinked R (l.getLastD t) t) (t :: l) := by
  have inner := isChain_relinked chain (end_notMem_dropLast nodup) (nodup_cons.mp nodup).1
  rw [Ring,Cycle.chain_coe_cons,← cons_append,isChain_append]
  refine ⟨inner,.singleton t,?_⟩
  simp [getLast?_cons]

/-- Two elements of a ring change places. Where they are the last and the first
    one, `t` may first have been linked to the one after it. -/
theorem ring_swap {t n after : α} {l l' : List α} (ring : Ring R (t :: (l ++ n :: l')))
    (nodup : (t :: (l ++ n :: l')).Nodup) (next : after = l'.headD n ∨ l' = [] ∧ after = l.headD t) :
    Ring (Relinked (Relinked (Relinked (Relinked R (l.getLastD n) t) t after) (l'.getLastD t) n) n (l.headD t))
      (n :: (l ++ t :: l')) := by
  obtain ⟨left,right⟩ := ring_two.mp ring
  obtain ⟨_,inner,_⟩ := path_iff.mp left
  obtain ⟨_,inner',_⟩ := path_iff.mp right
  obtain ⟨absent,nodup⟩ := nodup_cons.mp nodup
  obtain ⟨apart,nodup⟩ := nodup_middle.mp nodup |> nodup_cons.mp
  obtain ⟨nodup,nodup',disjoint⟩ := nodup_append.mp nodup
  have absentL : t ∉ l ∧ n ∉ l := by grind
  have absentL' : t ∉ l' ∧ n ∉ l' := by grind
  have differ : t ≠ n := by grind
  have endL := getLastD_notMem_dropLast (x := n) nodup absentL.2
  have endL' := getLastD_notMem_dropLast (x := t) nodup' absentL'.1
  have startL := headD_notMem_tail (x := t) nodup absentL.1
  have startL' := headD_notMem_tail (x := n) nodup' absentL'.2
  have sub {x : α} (absent : x ∉ l) : x ∉ l.dropLast ∧ x ∉ l.tail :=
    ⟨fun within => absent (mem_of_mem_dropLast within),fun within => absent (mem_of_mem_tail within)⟩
  have sub' {x : α} (absent : x ∉ l') : x ∉ l'.dropLast ∧ x ∉ l'.tail :=
    ⟨fun within => absent (mem_of_mem_dropLast within),fun within => absent (mem_of_mem_tail within)⟩
  -- what each stretch begins and ends with is not in the other one
  have only (a : α) (within : a ∈ l) : a ∉ l' := fun within' => disjoint a within a within' rfl
  have only' (a : α) (within : a ∈ l') : a ∉ l := fun within' => disjoint a within' a within rfl
  have headOut : l.headD t ∉ l' := headD_holds (P := (· ∉ l')) absentL'.1 only
  have headOut' : l'.headD n ∉ l := headD_holds (P := (· ∉ l)) absentL.2 only'
  have lastOut : l.getLastD n ∉ l' := getLastD_holds (P := (· ∉ l')) absentL'.2 only
  have lastOut' : l'.getLastD t ∉ l := getLastD_holds (P := (· ∉ l)) absentL.1 only'
  have notT : l'.headD n ≠ t := headD_holds (P := fun a => a ≠ t) differ.symm (fun a within same => absentL'.1 (same ▸ within))
  have notN : l.headD t ≠ n := headD_holds (P := fun a => a ≠ n) differ (fun a within same => absentL.2 (same ▸ within))
  have heads : l'.headD n ≠ l.headD t :=
    headD_holds (P := fun a => l'.headD n ≠ a) notT (fun a within same => headOut' (same ▸ within))
  rw [ring_two,path_iff,path_iff]
  refine ⟨⟨?_,?_,?_⟩,?_,?_,?_⟩
  · exact .inl ⟨rfl,rfl⟩
  · have outside : after ∉ l.tail := by
      rcases next with rfl | ⟨_,rfl⟩
      · exact (sub headOut').2
      · exact startL
    have atT := isChain_relinked inner endL (sub absentL.1).2
    have fromT := isChain_relinked atT (sub absentL.1).1 outside
    have atN := isChain_relinked fromT (sub lastOut').1 (sub absentL.2).2
    exact isChain_relinked atN (sub absentL.2).1 startL
  · cases l with
    | nil => exact .inl ⟨rfl,rfl⟩
    | cons a l =>
      have last : (a :: l).getLastD n ∈ a :: l := getLastD_mem_or n (a :: l) |>.resolve_right (fun empty => nomatch empty.1)
      have further : t ≠ after := by
        rcases next with rfl | ⟨_,rfl⟩
        · exact notT.symm
        · exact fun same => absentL.1 (same ▸ mem_cons_self)
      refine .inr ⟨fun same => absentL.2 (same ▸ last),fun same => absentL.1 (same ▸ mem_cons_self),
        .inr ⟨fun same => lastOut' (same ▸ last),differ,
          .inr ⟨fun same => absentL.1 (same ▸ last),further,.inl ⟨rfl,rfl⟩⟩⟩⟩
  · refine .inr ⟨differ,heads,?_⟩
    cases l' with
    | nil => exact .inl ⟨rfl,rfl⟩
    | cons b l' =>
      have last : (b :: l').getLastD t ∈ b :: l' := getLastD_mem_or t (b :: l') |>.resolve_right (fun empty => nomatch empty.1)
      have here : b = after := next.elim Eq.symm (fun none => nomatch none.1)
      exact .inr ⟨fun same => absentL'.1 (same ▸ last),fun same => absentL'.2 (same ▸ mem_cons_self),.inl ⟨rfl,here⟩⟩
  · have outside : after ∉ l'.tail := by
      rcases next with rfl | ⟨rfl,_⟩
      · exact startL'
      · exact not_mem_nil
    have atT := isChain_relinked inner' (sub' lastOut).1 (sub' absentL'.1).2
    have fromT := isChain_relinked atT (sub' absentL'.1).1 outside
    have atN := isChain_relinked fromT endL' (sub' absentL'.2).2
    exact isChain_relinked atN (sub' absentL'.2).1 (sub' headOut).2
  · have lastN : l'.getLastD t ≠ n :=
      getLastD_holds (P := fun a => a ≠ n) differ (fun a within same => absentL'.2 (same ▸ within))
    exact .inr ⟨lastN,notN.symm,.inl ⟨rfl,rfl⟩⟩

end KdeWorkspace.Rings
