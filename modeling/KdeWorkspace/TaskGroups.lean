import Mathlib.Data.List.Nodup
import Mathlib.Data.List.Perm.Basic

/-!
The groups of the task manager as a tree: members are items or groups with members of their own.

`keys` lists everything in a tree, each time that it is there. What an operation does is stated as what becomes of
the keys.
-/
namespace KdeWorkspace.TaskGroups
open List

inductive Member (α : Type)
  | item (a : α)
  | group (id : Nat) (members : List (Member α))

namespace Member
variable {α : Type}

/-- An item, or a group by its number. -/
abbrev Key (α : Type) := α ⊕ Nat

def key : Member α → Key α
  | item a => .inl a
  | group id _ => .inr id

@[elab_as_elim]
theorem members_induction {motive : List (Member α) → Prop} (nil : motive [])
    (item : ∀ a members, motive members → motive (.item a :: members))
    (group : ∀ id inner members, motive inner → motive members → motive (.group id inner :: members))
    (members : List (Member α)) : motive members :=
  @Member.rec_1 α (fun m => ∀ members, motive members → motive (m :: members)) motive item
    (fun id inner ih members rest => group id inner members ih rest) nil
    (fun _ members head tail => head members tail) members

mutual
def allKeys : Member α → List (Key α)
  | item a => [.inl a]
  | group id members => .inr id :: keys members

/-- The keys of the members and of all below them. -/
def keys : List (Member α) → List (Key α)
  | [] => []
  | m :: members => m.allKeys++keys members
end

@[simp] theorem keys_nil : keys ([] : List (Member α)) = [] := rfl

@[simp] theorem keys_item (a : α) (members : List (Member α)) : keys (item a :: members) = .inl a :: keys members := rfl

@[simp] theorem keys_group (id : Nat) (inner members : List (Member α)) :
    keys (group id inner :: members) = .inr id :: (keys inner++keys members) := rfl

theorem keys_cons (m : Member α) (members : List (Member α)) : keys (m :: members) = m.allKeys++keys members := rfl

@[simp] theorem keys_append (first second : List (Member α)) : keys (first++second) = keys first++keys second := by
  induction first with
  | nil => rfl
  | cons m first ih => simp [keys_cons,ih]

theorem keys_perm {first second : List (Member α)} (perm : first.Perm second) : (keys first).Perm (keys second) := by
  induction perm with
  | nil => exact .nil
  | cons m _ ih => exact ih.append_left m.allKeys
  | swap m n members =>
    simp only [keys_cons,← append_assoc]
    exact perm_append_comm.append_right _
  | trans _ _ ih ih' => exact ih.trans ih'

theorem key_mem_allKeys (m : Member α) : m.key ∈ m.allKeys := by
  cases m with
  | item a => simp [key,allKeys]
  | group id members => simp [key,allKeys]

theorem allKeys_subset {m : Member α} {members : List (Member α)} (member : m ∈ members) :
    m.allKeys ⊆ keys members := by
  induction members with
  | nil => cases member
  | cons first members ih =>
    rw [keys_cons]
    rcases mem_cons.mp member with same | later
    · rw [same]
      exact subset_append_left _ _
    · exact List.Subset.trans (ih later) (subset_append_right _ _)

theorem key_mem_keys {m : Member α} {members : List (Member α)} (member : m ∈ members) : m.key ∈ keys members :=
  allKeys_subset member m.key_mem_allKeys

mutual
def change (id : Nat) (f : List (Member α) → List (Member α)) : Member α → Member α
  | item a => item a
  | group own members => group own (if own = id then f members else changeIn id f members)

/-- The members of the group with a number are changed, wherever it is. -/
def changeIn (id : Nat) (f : List (Member α) → List (Member α)) : List (Member α) → List (Member α)
  | [] => []
  | m :: members => m.change id f :: changeIn id f members
end

mutual
def find (id : Nat) : Member α → Option (List (Member α))
  | item _ => none
  | group own members => if own = id then some members else findIn id members

/-- The members of the group with a number. -/
def findIn (id : Nat) : List (Member α) → Option (List (Member α))
  | [] => none
  | m :: members => (m.find id).or (findIn id members)
end

theorem findIn_none {id : Nat} {members : List (Member α)} (none : findIn id members = .none) :
    (.inr id : Key α) ∉ keys members := by
  induction members using members_induction with
  | nil => simp
  | item a members ih =>
    simp only [findIn,find,Option.none_or] at none
    simpa using ih none
  | group own inner members ihInner ih =>
    simp only [findIn,find] at none
    by_cases same : own = id
    · simp [same] at none
    · simp only [if_neg same,Option.or_eq_none_iff] at none
      simpa [Ne.symm same] using ⟨ihInner none.1,ih none.2⟩

theorem findIn_mem {id : Nat} {members found : List (Member α)} (is_found : findIn id members = some found) :
    (.inr id : Key α) ∈ keys members := by
  by_contra absent
  have none : findIn id members = .none := by
    clear is_found
    induction members using members_induction with
    | nil => rfl
    | item a members ih =>
      simp only [keys_item,mem_cons,reduceCtorEq,false_or] at absent
      simp [findIn,find,ih absent]
    | group own inner members ihInner ih =>
      simp only [keys_group,mem_cons,mem_append,not_or] at absent
      have other : own ≠ id := fun same => absent.1 (by rw [same])
      simp [findIn,find,other,ihInner absent.2.1,ih absent.2.2]
  rw [none] at is_found
  cases is_found

theorem keys_findIn {id : Nat} {members found : List (Member α)} (is_found : findIn id members = some found) :
    keys found ⊆ keys members := by
  induction members using members_induction with
  | nil => simp [findIn] at is_found
  | item a members ih =>
    simp only [findIn,find,Option.none_or] at is_found
    exact List.Subset.trans (ih is_found) (subset_cons_self _ _)
  | group own inner members ihInner ih =>
    simp only [findIn,find] at is_found
    have inside : keys inner ⊆ keys (group own inner :: members) :=
      List.Subset.trans (subset_append_left _ _) (subset_cons_self _ _)
    have later : keys members ⊆ keys (group own inner :: members) :=
      List.Subset.trans (subset_append_right _ _) (subset_cons_self _ _)
    rcases Option.or_eq_some_iff.mp is_found with here | ⟨-,there⟩
    · by_cases same : own = id
      · rw [if_pos same] at here
        cases here
        exact inside
      · rw [if_neg same] at here
        exact List.Subset.trans (ihInner here) inside
    · exact List.Subset.trans (ih there) later

theorem changeIn_absent {id : Nat} (f : List (Member α) → List (Member α)) {members : List (Member α)}
    (absent : (.inr id : Key α) ∉ keys members) : changeIn id f members = members := by
  induction members using members_induction with
  | nil => rfl
  | item a members ih =>
    simp only [keys_item,mem_cons,reduceCtorEq,false_or] at absent
    simp [changeIn,change,ih absent]
  | group own inner members ihInner ih =>
    simp only [keys_group,mem_cons,mem_append,not_or] at absent
    have other : own ≠ id := fun same => absent.1 (by rw [same])
    simp [changeIn,change,other,ihInner absent.2.1,ih absent.2.2]

theorem keys_changeIn {id : Nat} {f : List (Member α) → List (Member α)} {members found : List (Member α)}
    (more : List (Key α)) (once : (keys members).Nodup) (is_found : findIn id members = some found)
    (adds : (keys (f found)).Perm (more++keys found)) : (keys (changeIn id f members)).Perm (more++keys members) := by
  induction members using members_induction with
  | nil => simp [findIn] at is_found
  | item a members ih =>
    simp only [keys_item,nodup_cons] at once
    simp only [findIn,find,Option.none_or] at is_found
    simp only [changeIn,change,keys_item]
    exact ((ih once.2 is_found).cons _).trans perm_middle.symm
  | group own inner members ihInner ih =>
    simp only [keys_group,nodup_cons,mem_append,not_or,nodup_append] at once
    obtain ⟨⟨notInner,notLater⟩,onceInner,onceLater,apart⟩ := once
    simp only [findIn,find] at is_found
    by_cases same : own = id
    · rw [if_pos same] at is_found
      cases is_found
      subst same
      simp only [changeIn,change,if_true,keys_group,changeIn_absent f notLater]
      refine ((adds.append_right _).cons _).trans ?_
      rw [append_assoc]
      exact perm_middle.symm
    · rw [if_neg same] at is_found
      simp only [changeIn,change,if_neg same,keys_group]
      cases inside : findIn id inner with
      | some here =>
        rw [inside] at is_found
        cases is_found
        have absent : (.inr id : Key α) ∉ keys members := fun later => apart _ (findIn_mem inside) _ later rfl
        rw [changeIn_absent f absent]
        refine (((ihInner onceInner inside).append_right _).cons _).trans ?_
        rw [append_assoc]
        exact perm_middle.symm
      | none =>
        rw [inside,Option.none_or] at is_found
        rw [changeIn_absent f (findIn_none inside)]
        refine (((ih onceLater is_found).append_left _).cons _).trans ?_
        refine ((perm_append_comm_assoc _ _ _).cons _).trans ?_
        exact perm_middle.symm

mutual
def mapItem (f : α → α) : Member α → Member α
  | item a => item (f a)
  | group id members => group id (mapItems f members)

def mapItems (f : α → α) : List (Member α) → List (Member α)
  | [] => []
  | m :: members => m.mapItem f :: mapItems f members
end

theorem keys_mapItems (f : α → α) (members : List (Member α)) :
    keys (mapItems f members) = (keys members).map (Sum.map f id) := by
  induction members using members_induction with
  | nil => rfl
  | item a members ih => simp [mapItems,mapItem,ih]
  | group id inner members ihInner ih => simp [mapItems,mapItem,ihInner,ih]

section
variable [DecidableEq α]

mutual
def without (a : α) : Member α → List (Member α)
  | item b => if b = a then [] else [item b]
  | group id members => [group id (withoutIn a members)]

/-- An item is taken out, wherever it is. -/
def withoutIn (a : α) : List (Member α) → List (Member α)
  | [] => []
  | m :: members => m.without a++withoutIn a members
end

theorem keys_withoutIn (a : α) (members : List (Member α)) :
    keys (withoutIn a members) = (keys members).filter (· ≠ .inl a) := by
  induction members using members_induction with
  | nil => rfl
  | item b members ih =>
    by_cases same : b = a
    · simp [withoutIn,without,same,ih]
    · simp [withoutIn,without,same,ih]
  | group id inner members ihInner ih => simp [withoutIn,without,ihInner,ih]

end

mutual
def dissolve (id : Nat) : Member α → List (Member α)
  | item a => [item a]
  | group own members => if own = id then members.reverse else [group own (dissolveIn id members)]

/-- The members of a group take its place, each in front of those before it, wherever the group is. -/
def dissolveIn (id : Nat) : List (Member α) → List (Member α)
  | [] => []
  | m :: members => m.dissolve id++dissolveIn id members
end

theorem dissolveIn_absent {id : Nat} {members : List (Member α)} (absent : (.inr id : Key α) ∉ keys members) :
    dissolveIn id members = members := by
  induction members using members_induction with
  | nil => rfl
  | item a members ih =>
    simp only [keys_item,mem_cons,reduceCtorEq,false_or] at absent
    simp [dissolveIn,dissolve,ih absent]
  | group own inner members ihInner ih =>
    simp only [keys_group,mem_cons,mem_append,not_or] at absent
    have other : own ≠ id := fun same => absent.1 (by rw [same])
    simp [dissolveIn,dissolve,other,ihInner absent.2.1,ih absent.2.2]

theorem keys_dissolveIn [DecidableEq α] (id : Nat) {members : List (Member α)} (once : (keys members).Nodup) :
    (keys (dissolveIn id members)).Perm ((keys members).filter (· ≠ .inr id)) := by
  induction members using members_induction with
  | nil => exact .nil
  | item a members ih =>
    simp only [keys_item,nodup_cons] at once
    simpa [dissolveIn,dissolve] using ih once.2
  | group own inner members ihInner ih =>
    simp only [keys_group,nodup_cons,mem_append,not_or,nodup_append] at once
    obtain ⟨⟨notInner,notLater⟩,onceInner,onceLater,-⟩ := once
    by_cases same : own = id
    · subst same
      have kept : ∀ {ms : List (Member α)}, (.inr own : Key α) ∉ keys ms →
          (keys ms).filter (· ≠ .inr own) = keys ms := fun absent =>
        filter_eq_self.mpr fun k member => by
          have different : k ≠ .inr own := fun same => absent (same ▸ member)
          simpa using different
      simp only [dissolveIn,dissolve,if_true,keys_append,keys_group,dissolveIn_absent notLater]
      rw [filter_cons_of_neg (by simp),filter_append,kept notInner,kept notLater]
      exact (keys_perm (reverse_perm inner)).append_right _
    · simp only [dissolveIn,dissolve,if_neg same,keys_append,keys_group,keys_nil,cons_append]
      rw [filter_cons_of_pos (by simpa using same),filter_append]
      exact ((ihInner onceInner).append (ih onceLater)).cons _

end Member
end KdeWorkspace.TaskGroups
