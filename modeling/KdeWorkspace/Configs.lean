import Mathlib.Data.List.Basic

/-!
Configurations: groups of entries that are found by their keys, where the last one that has been written counts.
-/
namespace KdeWorkspace.Configs

/-- The entries with their groups and keys, the last one written first. -/
structure Config (Group Key Value : Type) where
  entries : List (Group × Key × Value)

namespace Config
variable {Group Key Value : Type} [DecidableEq Group] [DecidableEq Key]

def empty : Config Group Key Value := ⟨[]⟩

def write (config : Config Group Key Value) (group : Group) (key : Key) (value : Value) : Config Group Key Value :=
  ⟨(group,key,value) :: config.entries⟩

def read (config : Config Group Key Value) (group : Group) (key : Key) : Option Value :=
  (config.entries.find? fun entry => entry.1 = group && entry.2.1 = key).map fun entry => entry.2.2

def has (config : Config Group Key Value) (group : Group) : Bool := config.entries.any fun entry => entry.1 = group

@[simp] theorem read_write (config : Config Group Key Value) (group group' : Group) (key key' : Key) (value : Value) :
    (config.write group key value).read group' key' =
      if group = group' ∧ key = key' then some value else config.read group' key' := by
  by_cases same : group = group' ∧ key = key'
  · simp [write,read,same]
  · rw [if_neg same]
    simp only [write,read]
    rw [List.find?_cons_of_neg (by simpa using same)]

omit [DecidableEq Key] in
@[simp] theorem has_write (config : Config Group Key Value) (group group' : Group) (key : Key) (value : Value) :
    (config.write group key value).has group' = (decide (group = group') || config.has group') := rfl

omit [DecidableEq Key] in
@[simp] theorem has_empty (group : Group) : (empty : Config Group Key Value).has group = false := rfl

@[simp] theorem read_empty (group : Group) (key : Key) : (empty : Config Group Key Value).read group key = none := rfl

/-- Two configurations with the same entries in some groups. -/
structure Agree (groups : List Group) (c d : Config Group Key Value) : Prop where
  read : ∀ group ∈ groups, ∀ key, c.read group key = d.read group key
  has : ∀ group ∈ groups, c.has group = d.has group

namespace Agree
variable {groups fewer : List Group} {c d e : Config Group Key Value}

theorem refl (groups : List Group) (c : Config Group Key Value) : Agree groups c c := ⟨fun _ _ _ => rfl,fun _ _ => rfl⟩

theorem trans (first : Agree groups c d) (second : Agree groups d e) : Agree groups c e :=
  ⟨fun group member key => (first.read group member key).trans (second.read group member key),
    fun group member => (first.has group member).trans (second.has group member)⟩

theorem mono (agree : Agree groups c d) (subset : fewer ⊆ groups) : Agree fewer c d :=
  ⟨fun group member => agree.read group (subset member),fun group member => agree.has group (subset member)⟩

theorem write {group : Group} (key : Key) (value : Value) (agree : Agree groups c d) (apart : group ∉ groups) :
    Agree groups c (d.write group key value) := by
  refine ⟨fun other member key' => ?_,fun other member => ?_⟩
  · have different : group ≠ other := fun same => apart (same ▸ member)
    rw [agree.read other member,read_write,if_neg (fun same => different same.1)]
  · have different : group ≠ other := fun same => apart (same ▸ member)
    simpa [different] using agree.has other member

end Agree
end Config
end KdeWorkspace.Configs
