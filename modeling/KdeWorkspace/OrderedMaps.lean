import Mathlib.Data.List.Nodup
import Mathlib.Data.List.Perm.Subperm
import Mathlib.Order.Lattice

/-!
Maps over ordered keys that are gone through in the order of their keys (`OrderedMap`): the entries are a list, so a
loop over a map is a recursion on it, and what an operation does is said by `lookup`.
-/
namespace KdeWorkspace.OrderedMaps
open List
universe u v w
variable {κ : Type u} {ν : Type v} {μ : Type w} [LinearOrder κ]

/-- The entries with the value put in at its key. -/
def insertEntry (k : κ) (value : ν) : List (κ × ν) → List (κ × ν)
  | [] => [(k,value)]
  | e :: entries =>
    if k < e.1 then (k,value) :: e :: entries
    else if k = e.1 then (k,value) :: entries
    else e :: insertEntry k value entries

theorem mem_insertEntry {k : κ} {value : ν} {entries : List (κ × ν)} {e : κ × ν}
    (inside : e ∈ insertEntry k value entries) : e = (k,value) ∨ e ∈ entries := by
  induction entries with
  | nil => exact Or.inl (mem_singleton.mp inside)
  | cons first entries ih =>
    rw [insertEntry] at inside
    split at inside
    · exact mem_cons.mp inside
    · split at inside
      · rcases mem_cons.mp inside with here | later
        · exact Or.inl here
        · exact Or.inr (mem_cons_of_mem _ later)
      · rcases mem_cons.mp inside with rfl | later
        · exact Or.inr mem_cons_self
        · rcases ih later with here | before
          · exact Or.inl here
          · exact Or.inr (mem_cons_of_mem _ before)

theorem insertEntry_sorted (k : κ) (value : ν) {entries : List (κ × ν)} (sorted : entries.Pairwise (·.1 < ·.1)) :
    (insertEntry k value entries).Pairwise (·.1 < ·.1) := by
  induction entries with
  | nil => exact pairwise_singleton _ _
  | cons first entries ih =>
    obtain ⟨least,rest⟩ := pairwise_cons.mp sorted
    rw [insertEntry]
    split
    case isTrue below =>
      refine pairwise_cons.mpr ⟨?_,sorted⟩
      intro e inside
      rcases mem_cons.mp inside with rfl | later
      · exact below
      · exact lt_trans below (least e later)
    case isFalse not_below =>
      split
      case isTrue same =>
        subst same
        exact pairwise_cons.mpr ⟨least,rest⟩
      case isFalse other =>
        refine pairwise_cons.mpr ⟨?_,ih rest⟩
        intro e inside
        rcases mem_insertEntry inside with rfl | before
        · exact lt_of_le_of_ne (not_lt.mp not_below) (Ne.symm other)
        · exact least e before

/-- A map with its entries in the order of their keys. -/
structure OrderedMap (κ : Type u) (ν : Type v) [LinearOrder κ] where
  entries : List (κ × ν)
  sorted : entries.Pairwise (·.1 < ·.1)

namespace OrderedMap

def empty : OrderedMap κ ν := ⟨[],.nil⟩

def keys (m : OrderedMap κ ν) : List κ := m.entries.map (·.1)

def values (m : OrderedMap κ ν) : List ν := m.entries.map (·.2)

def lookup (m : OrderedMap κ ν) (k : κ) : Option ν := m.entries.lookup k

def insert (m : OrderedMap κ ν) (k : κ) (value : ν) : OrderedMap κ ν :=
  ⟨insertEntry k value m.entries,insertEntry_sorted k value m.sorted⟩

def filter (m : OrderedMap κ ν) (test : κ → ν → Bool) : OrderedMap κ ν :=
  ⟨m.entries.filter fun e => test e.1 e.2,m.sorted.filter _⟩

def erase (m : OrderedMap κ ν) (k : κ) : OrderedMap κ ν := m.filter fun key _ => key ≠ k

def mapValues (m : OrderedMap κ ν) (f : ν → μ) : OrderedMap κ μ :=
  ⟨m.entries.map fun e => (e.1,f e.2),List.pairwise_map.mpr m.sorted⟩

variable {m : OrderedMap κ ν} {k : κ} {value : ν}

theorem keys_nodup (m : OrderedMap κ ν) : m.keys.Nodup := (pairwise_map.mpr m.sorted).imp ne_of_lt

theorem mem_entries_iff : (k,value) ∈ m.entries ↔ m.lookup k = some value := by
  obtain ⟨entries,sorted⟩ := m
  change (k,value) ∈ entries ↔ entries.lookup k = some value
  induction entries with
  | nil => simp
  | cons first entries ih =>
    obtain ⟨least,rest⟩ := pairwise_cons.mp sorted
    obtain ⟨key,other⟩ := first
    by_cases here : k = key
    · subst here
      rw [lookup_cons_self,mem_cons]
      constructor
      · rintro (same | later)
        · rw [Prod.mk.injEq] at same
          rw [same.2]
        · exact absurd (least _ later) (lt_irrefl k)
      · intro same
        rw [Option.some.inj same]
        exact Or.inl rfl
    · rw [lookup_cons,beq_false_of_ne here,mem_cons,Prod.mk.injEq]
      dsimp only
      rw [← ih rest]
      exact or_iff_right fun same => here same.1

theorem lookup_of_mem (inside : (k,value) ∈ m.entries) : m.lookup k = some value := mem_entries_iff.mp inside

theorem mem_keys_iff : k ∈ m.keys ↔ ∃ value, m.lookup k = some value := by
  rw [keys,mem_map]
  constructor
  · rintro ⟨⟨key,value⟩,inside,rfl⟩
    exact ⟨value,lookup_of_mem inside⟩
  · rintro ⟨value,found⟩
    exact ⟨(k,value),mem_entries_iff.mpr found,rfl⟩

theorem lookup_eq_none_iff : m.lookup k = none ↔ k ∉ m.keys := by
  rw [mem_keys_iff]
  cases m.lookup k <;> simp

@[simp] theorem lookup_empty (k : κ) : (empty : OrderedMap κ ν).lookup k = none := rfl

theorem lookup_cons (k other : κ) (value : ν) (entries : List (κ × ν)) :
    ((k,value) :: entries).lookup other = if other = k then some value else entries.lookup other := by
  rw [List.lookup_cons]
  by_cases here : other = k
  · rw [if_pos here,beq_iff_eq.mpr here]
  · rw [if_neg here,beq_false_of_ne here]

theorem lookup_insertEntry (entries : List (κ × ν)) (k other : κ) (value : ν) :
    (insertEntry k value entries).lookup other = if other = k then some value else entries.lookup other := by
  induction entries with
  | nil => exact lookup_cons k other value []
  | cons first entries ih =>
    obtain ⟨key,old⟩ := first
    rw [insertEntry]
    split
    · exact lookup_cons k other value _
    · split
      case isTrue same =>
        dsimp only at same
        subst same
        by_cases here : other = k <;> simp [lookup_cons,here]
      case isFalse differs =>
        rw [lookup_cons,lookup_cons,ih]
        by_cases here : other = k
        · have elsewhere : other ≠ key := by rwa [here]
          rw [if_neg elsewhere,if_pos here,if_pos here]
        · rw [if_neg here,if_neg here]

@[simp] theorem lookup_insert (m : OrderedMap κ ν) (k other : κ) (value : ν) :
    (m.insert k value).lookup other = if other = k then some value else m.lookup other :=
  lookup_insertEntry m.entries k other value

@[simp] theorem lookup_filter (m : OrderedMap κ ν) (test : κ → ν → Bool) (k : κ) :
    (m.filter test).lookup k = (m.lookup k).filter (test k) := by
  apply Option.ext
  intro value
  rw [← mem_entries_iff,filter,mem_filter,mem_entries_iff,Option.filter_eq_some_iff]

@[simp] theorem lookup_erase (m : OrderedMap κ ν) (k other : κ) :
    (m.erase k).lookup other = if other = k then none else m.lookup other := by
  rw [erase,lookup_filter]
  by_cases here : other = k
  · cases m.lookup other <;> simp [here]
  · cases m.lookup other <;> simp [here]

@[simp] theorem lookup_mapValues (m : OrderedMap κ ν) (f : ν → μ) (k : κ) :
    (m.mapValues f).lookup k = (m.lookup k).map f := by
  apply Option.ext
  intro value
  rw [← mem_entries_iff,mapValues,mem_map,Option.map_eq_some_iff]
  constructor
  · rintro ⟨⟨key,old⟩,inside,same⟩
    rw [Prod.mk.injEq] at same
    obtain ⟨rfl,rfl⟩ := same
    exact ⟨old,lookup_of_mem inside,rfl⟩
  · rintro ⟨old,found,rfl⟩
    exact ⟨(k,old),mem_entries_iff.mpr found,rfl⟩

theorem ext_lookup {m n : OrderedMap κ ν} (same : ∀ k, m.lookup k = n.lookup k) : m = n := by
  have perm : m.entries.Perm n.entries := by
    apply (perm_ext_iff_of_nodup m.keys_nodup.of_map n.keys_nodup.of_map).mpr
    rintro ⟨k,value⟩
    rw [mem_entries_iff,mem_entries_iff,same]
  have equal : m.entries = n.entries :=
    List.Perm.eq_of_pairwise (fun a b _ _ before after => absurd (lt_trans before after) (lt_irrefl _))
      m.sorted n.sorted perm
  cases m
  cases n
  congr

theorem eq_empty_iff : m.entries = [] ↔ ∀ k, m.lookup k = none := by
  constructor
  · intro none k
    rw [lookup,none]
    rfl
  · intro none
    rw [eq_nil_iff_forall_not_mem]
    rintro ⟨k,value⟩ inside
    rw [mem_entries_iff,none] at inside
    cases inside

theorem mem_values_iff : value ∈ m.values ↔ ∃ k, m.lookup k = some value := by
  rw [values,mem_map]
  constructor
  · rintro ⟨⟨k,other⟩,inside,rfl⟩
    exact ⟨k,lookup_of_mem inside⟩
  · rintro ⟨k,found⟩
    exact ⟨(k,value),mem_entries_iff.mpr found,rfl⟩

theorem key_unique (nodup : m.values.Nodup) {other : κ} (here : m.lookup k = some value)
    (there : m.lookup other = some value) : k = other :=
  congrArg Prod.fst (inj_on_of_nodup_map nodup (mem_entries_iff.mpr here) (mem_entries_iff.mpr there) rfl)

theorem entries_nodup (m : OrderedMap κ ν) : m.entries.Nodup := m.keys_nodup.of_map

theorem length_le_of_sub {m n : OrderedMap κ ν} (sub : ∀ {k value}, m.lookup k = some value → n.lookup k = some value) :
    m.entries.length ≤ n.entries.length := by
  apply (subperm_of_subset m.entries_nodup ?_).length_le
  rintro ⟨k,value⟩ inside
  exact mem_entries_iff.mpr (sub (mem_entries_iff.mp inside))

theorem erase_perm (found : m.lookup k = some value) : m.entries.Perm ((k,value) :: (m.erase k).entries) := by
  have absent : (k,value) ∉ (m.erase k).entries := by
    rw [mem_entries_iff,lookup_erase,if_pos rfl]
    exact nofun
  apply (perm_ext_iff_of_nodup m.entries_nodup (nodup_cons.mpr ⟨absent,(m.erase k).entries_nodup⟩)).mpr
  rintro ⟨key,other⟩
  rw [mem_cons,mem_entries_iff,mem_entries_iff,lookup_erase,Prod.mk.injEq]
  by_cases here : key = k
  · subst here
    rw [found,if_pos rfl,Option.some.injEq]
    simp [eq_comm]
  · simp [here]

theorem insert_perm (m : OrderedMap κ ν) (k : κ) (value : ν) :
    (m.insert k value).entries.Perm ((k,value) :: (m.erase k).entries) := by
  have same : (m.insert k value).erase k = m.erase k := by
    apply ext_lookup
    intro other
    by_cases here : other = k <;> simp [here]
  rw [← same]
  exact erase_perm (by simp)

theorem length_erase_lt (found : m.lookup k = some value) : (m.erase k).entries.length < m.entries.length := by
  apply length_filter_lt_length_iff_exists.mpr
  exact ⟨(k,value),mem_entries_iff.mpr found,by simp⟩

theorem lookup_insert_entries (test : κ → ν → Bool) (f : κ → ν → μ) {entries : List (κ × ν)}
    (sorted : entries.Pairwise (·.1 < ·.1)) (start : OrderedMap κ μ) (k : κ) :
    (entries.foldl (fun m e => if test e.1 e.2 then m.insert e.1 (f e.1 e.2) else m) start).lookup k =
      (((entries.lookup k).filter (test k)).map (f k)).or (start.lookup k) := by
  induction entries generalizing start with
  | nil => simp
  | cons e entries ih =>
    obtain ⟨least,rest⟩ := pairwise_cons.mp sorted
    obtain ⟨key,value⟩ := e
    rw [foldl_cons,ih rest,lookup_cons]
    by_cases here : k = key
    · subst here
      have absent : entries.lookup k = none := by
        rw [List.lookup_eq_none_iff]
        intro p inside
        rw [bne_iff_ne]
        exact ne_of_lt (least p inside)
      rw [absent,if_pos rfl]
      cases meets : test k value <;> simp [meets,Option.filter]
    · rw [if_neg here]
      cases meets : test key value <;> simp [here]

theorem lookup_foldl_insert (test : κ → ν → Bool) (f : κ → ν → μ) (m : OrderedMap κ ν) (start : OrderedMap κ μ) (k : κ) :
    (m.entries.foldl (fun m e => if test e.1 e.2 then m.insert e.1 (f e.1 e.2) else m) start).lookup k =
      (((m.lookup k).filter (test k)).map (f k)).or (start.lookup k) :=
  lookup_insert_entries test f m.sorted start k

end OrderedMap
end KdeWorkspace.OrderedMaps
