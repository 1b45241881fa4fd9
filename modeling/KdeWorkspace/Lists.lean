import Mathlib.Data.List.Nodup
import Mathlib.Data.List.Perm.Basic

/-!
Lists that are edited in place: taking every occurrence of an element out
(`removeAll`), putting one in at an index (`insertAt`) and searching backwards
(`findBackwards`). Taking an element out and putting it back in at any index
(`Moved`) keeps a list without duplicates and the order of the other elements.
-/
namespace KdeWorkspace.Lists
open List
universe u v
variable {α : Type u}

/-- The list with the element put in at the index: in front for an index below
    zero, at the end for one past the end. -/
def insertAt (list : List α) (index : Int) (a : α) : List α := list.take index.toNat ++ a :: list.drop index.toNat

/-- The last index below the given one whose element meets the test. -/
def findBackwards (test : α → Bool) (list : List α) : Nat → Option Nat
  | 0 => none
  | i+1 => if (list[i]?).any test then some i else findBackwards test list i

theorem insertAt_perm (list : List α) (index : Int) (a : α) : (insertAt list index a).Perm (a :: list) := by
  have split : (insertAt list index a).Perm (a :: (list.take index.toNat ++ list.drop index.toNat)) := perm_middle
  rwa [take_append_drop] at split

variable {list : List α}

@[simp] theorem mem_insertAt {index : Int} {a b : α} : b ∈ insertAt list index a ↔ b = a ∨ b ∈ list := by
  rw [(insertAt_perm list index a).mem_iff,mem_cons]

theorem getElem?_insertAt {index : Nat} (le : index ≤ list.length) (a : α) (j : Nat) :
    (insertAt list index a)[j]? = if j < index then list[j]? else if j = index then some a else list[j-1]? := by
  have length : (list.take index).length = index := by rw [length_take,Nat.min_eq_left le]
  simp only [insertAt,Int.toNat_natCast]
  by_cases below : j < index
  · rw [if_pos below,getElem?_append_left (by omega),getElem?_take_of_lt below]
  · rw [if_neg below,getElem?_append_right (by omega),length]
    by_cases here : j = index
    · simp [here]
    · rw [if_neg here,getElem?_cons,if_neg (by omega),getElem?_drop]
      congr 1
      omega

theorem findBackwards_none {test : α → Bool} {bound : Nat}
    (absent : findBackwards test list bound = none) : ∀ i a, i < bound → list[i]? = some a → test a = false := by
  induction bound with
  | zero => exact fun i a lt => absurd lt (by omega)
  | succ bound ih =>
    intro i a lt element
    unfold findBackwards at absent
    by_cases here : (list[bound]?).any test
    · rw [if_pos here] at absent; cases absent
    · rw [if_neg here] at absent
      by_cases last : i = bound
      · subst last
        rw [element] at here
        simpa using here
      · exact ih absent i a (by omega) element

theorem foldl_establishes {β : Type v} {f : β → α → β} {P : β → Prop} {Q : α → β → Prop} (list : List α) {b : β}
    (keeps : ∀ b, ∀ a ∈ list, P b → P (f b a)) (makes : ∀ b, ∀ a ∈ list, P b → Q a (f b a))
    (stays : ∀ b a, ∀ later ∈ list, P b → Q a b → Q a (f b later)) (start : P b) :
    P (list.foldl f b) ∧ ∀ a ∈ list, Q a (list.foldl f b) := by
  induction list generalizing b with
  | nil => exact ⟨start,by simp⟩
  | cons first rest ih =>
    obtain ⟨kept,made⟩ := ih (fun b a member => keeps b a (mem_cons_of_mem first member))
      (fun b a member => makes b a (mem_cons_of_mem first member))
      (fun b a later member => stays b a later (mem_cons_of_mem first member))
      (keeps b first mem_cons_self start)
    refine ⟨kept,fun a member => ?_⟩
    rcases mem_cons.mp member with rfl | later
    · have now := makes b a mem_cons_self start
      have state := keeps b a mem_cons_self start
      refine (foldlRecOn (motive := fun b => P b ∧ Q a b) rest f ⟨state,now⟩ ?_).2
      intro b ⟨safe,so_far⟩ later inRest
      have there := mem_cons_of_mem a inRest
      exact ⟨keeps b later there safe,stays b a later there safe so_far⟩
    · exact made a later

/-- One element stands in front of another. -/
def Before (list : List α) (a b : α) : Prop := [a,b].Sublist list

theorem before_iff {a b : α} : Before list a b ↔ ∃ i j : Nat, i < j ∧ list[i]? = some a ∧ list[j]? = some b := by
  constructor
  · intro before
    obtain ⟨front,back,rfl,left,right⟩ := cons_sublist_iff.mp before
    obtain ⟨i,lt,atI⟩ := getElem_of_mem left
    obtain ⟨j,ltJ,atJ⟩ := getElem_of_mem (singleton_sublist.mp right)
    refine ⟨i,front.length+j,by omega,?_,?_⟩
    · rw [getElem?_append_left lt,getElem?_eq_getElem lt,atI]
    · rw [getElem?_append_right (by omega),Nat.add_sub_cancel_left,getElem?_eq_getElem ltJ,atJ]
  · rintro ⟨i,j,lt,atI,atJ⟩
    have left : a ∈ list.take j := mem_of_getElem? (i := i) (by rw [getElem?_take_of_lt lt,atI])
    have right : b ∈ list.drop j := mem_of_getElem? (i := 0) (by rw [getElem?_drop,Nat.add_zero,atJ])
    have both := (singleton_sublist.mpr left).append (singleton_sublist.mpr right)
    rwa [take_append_drop] at both

theorem Before.asymm (nodup : list.Nodup) {a b : α} (before : Before list a b) : ¬ Before list b a := by
  intro back
  obtain ⟨i,j,lt,atI,atJ⟩ := before_iff.mp before
  obtain ⟨i',j',lt',atI',atJ'⟩ := before_iff.mp back
  have first := (List.getElem?_inj (List.getElem?_eq_some_iff.mp atI).1 nodup).mp (atI.trans atJ'.symm)
  have second := (List.getElem?_inj (List.getElem?_eq_some_iff.mp atJ).1 nodup).mp (atJ.trans atI'.symm)
  omega

section
variable [DecidableEq α]

/-- The list without the element. -/
def removeAll (list : List α) (a : α) : List α := list.filter (fun b => b ≠ a)

variable {list : List α}

@[simp] theorem mem_removeAll {a b : α} : b ∈ removeAll list a ↔ b ∈ list ∧ b ≠ a := by
  simp [removeAll]

theorem removeAll_nodup (nodup : list.Nodup) (a : α) : (removeAll list a).Nodup := nodup.filter _

theorem removeAll_of_not_mem {a : α} (absent : a ∉ list) : removeAll list a = list := by
  rw [removeAll,filter_eq_self]
  intro b member
  rw [decide_eq_true_eq]
  rintro rfl
  exact absent member

@[simp] theorem removeAll_idem (list : List α) (a : α) : removeAll (removeAll list a) a = removeAll list a :=
  removeAll_of_not_mem (by simp)

@[simp] theorem removeAll_insertAt (list : List α) (index : Int) (a : α) :
    removeAll (insertAt list index a) a = removeAll list a := by
  have split : removeAll list a = removeAll (list.take index.toNat) a ++ removeAll (list.drop index.toNat) a := by
    rw [removeAll,removeAll,removeAll,← filter_append,take_append_drop]
  rw [split]
  simp [insertAt,removeAll]

theorem removeAll_eq_erase (nodup : list.Nodup) (a : α) : removeAll list a = list.erase a := by
  rw [nodup.erase_eq_filter,removeAll]
  congr 1
  funext b
  by_cases equal : b = a <;> simp [equal]

theorem length_removeAll (nodup : list.Nodup) {a : α} (member : a ∈ list) :
    (removeAll list a).length+1 = list.length := by
  have positive := length_pos_of_mem member
  rw [removeAll_eq_erase nodup,length_erase_of_mem member]
  omega

theorem eraseIdx_eq_removeAll (nodup : list.Nodup) {i : Nat} {a : α} (here : list[i]? = some a) :
    list.eraseIdx i = removeAll list a := by
  obtain ⟨lt,rfl⟩ := List.getElem?_eq_some_iff.mp here
  rw [removeAll_eq_erase nodup,nodup.erase_getElem i lt]

theorem before_removeAll {a b c : α} (left : a ≠ c) (right : b ≠ c) :
    Before (removeAll list c) a b ↔ Before list a b := by
  constructor
  · exact fun before => before.trans filter_sublist
  · intro before
    have kept := List.Sublist.filter (fun d => decide (d ≠ c)) before
    simpa [Before,removeAll,left,right] using kept

/-- The element is taken out of the list and put in again at some index. -/
def Moved (a : α) (before after : List α) : Prop := ∃ index, after = insertAt (removeAll before a) index a

namespace Moved
variable {a : α} {before after : List α}

theorem mem (moved : Moved a before after) : a ∈ after := by
  obtain ⟨index,rfl⟩ := moved
  simp

theorem nodup (moved : Moved a before after) (nodup : before.Nodup) : after.Nodup := by
  obtain ⟨index,rfl⟩ := moved
  rw [(insertAt_perm _ index a).nodup_iff,nodup_cons]
  exact ⟨by simp,removeAll_nodup nodup a⟩

theorem others (moved : Moved a before after) : removeAll after a = removeAll before a := by
  obtain ⟨index,rfl⟩ := moved
  simp

theorem before_iff (moved : Moved a before after) {b c : α} (left : b ≠ a) (right : c ≠ a) :
    Before after b c ↔ Before before b c := by
  rw [← before_removeAll left right,moved.others,before_removeAll left right]

end Moved
end

section
variable {β : Type v} [BEq α] [LawfulBEq α] {keys : List α} {values : List β} {k : α}

theorem lookup_zip_of_not_mem (absent : k ∉ keys) : (keys.zip values).lookup k = none := by
  rw [lookup_eq_none_iff]
  rintro ⟨a,b⟩ among
  rw [bne_iff_ne]
  rintro rfl
  exact absent (of_mem_zip among).1

theorem lookup_zip_eq_some_iff (nodup : keys.Nodup) {value : β} :
    (keys.zip values).lookup k = some value ↔ ∃ i : Nat, keys[i]? = some k ∧ values[i]? = some value := by
  induction keys generalizing values with
  | nil => simp
  | cons key keys ih =>
    obtain ⟨new,rest⟩ := nodup_cons.mp nodup
    cases values with
    | nil => simp
    | cons first values =>
      rw [zip_cons_cons]
      by_cases here : k = key
      · subst here
        rw [lookup_cons_self]
        constructor
        · intro same
          exact ⟨0,rfl,same⟩
        · rintro ⟨i,at_key,at_value⟩
          cases i with
          | zero => exact at_value
          | succ i =>
            rw [getElem?_cons_succ] at at_key
            exact absurd (mem_of_getElem? at_key) new
      · have other : ((key,first) :: keys.zip values).lookup k = (keys.zip values).lookup k := by
          rw [lookup_cons,beq_false_of_ne here]
        rw [other,ih rest]
        constructor
        · rintro ⟨i,found⟩
          exact ⟨i+1,found⟩
        · rintro ⟨i,at_key,at_value⟩
          cases i with
          | zero => exact absurd (Option.some.inj at_key).symm here
          | succ i => exact ⟨i,at_key,at_value⟩

end

end KdeWorkspace.Lists
