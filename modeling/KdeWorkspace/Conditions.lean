import KdeWorkspace.Configs
import KdeWorkspace.Decimals

/-!
The conditions of khotkeys and their groups in the configuration.

The group of a child is named after its parent's, with the number of the child behind it and nothing between.
Nothing else than the groups of the tree is written: `write_apart`.
-/
namespace KdeWorkspace.Conditions
open Configs (Config)
open Decimals (number)

abbrev Name := List Char

inductive Value
  | text (value : String)
  | int (value : Int)
  | bool (value : Bool)
  | texts (values : List String)
deriving DecidableEq, Repr

abbrev KConfig := Config Name String Value

def readText (config : KConfig) (group : Name) (key : String) : String :=
  match config.read group key with
  | some (.text value) => value
  | _ => ""

def readInt (config : KConfig) (group : Name) (key : String) (default : Int) : Int :=
  match config.read group key with
  | some (.int value) => value
  | _ => default

def readBool (config : KConfig) (group : Name) (key : String) (default : Bool) : Bool :=
  match config.read group key with
  | some (.bool value) => value
  | _ => default

inductive substr_type_t
  | NOT_IMPORTANT
  | CONTAINS
  | IS
  | REGEXP
  | CONTAINS_NOT
  | IS_NOT
  | REGEXP_NOT
deriving DecidableEq, Repr

namespace substr_type_t

def toInt : substr_type_t → Int
  | NOT_IMPORTANT => 0
  | CONTAINS => 1
  | IS => 2
  | REGEXP => 3
  | CONTAINS_NOT => 4
  | IS_NOT => 5
  | REGEXP_NOT => 6

/-- The cast; a number of no enumerator is never written. -/
def ofInt (n : Int) : substr_type_t :=
  if n = 1 then CONTAINS else if n = 2 then IS else if n = 3 then REGEXP else if n = 4 then CONTAINS_NOT
  else if n = 5 then IS_NOT else if n = 6 then REGEXP_NOT else NOT_IMPORTANT

@[simp] theorem ofInt_toInt (type : substr_type_t) : ofInt type.toInt = type := by cases type <;> rfl

end substr_type_t

structure Windowdef_simple where
  comment : String
  title : String
  title_match_type : substr_type_t
  wclass : String
  wclass_match_type : substr_type_t
  role : String
  role_match_type : substr_type_t
  window_types : Int
deriving DecidableEq, Repr

namespace Windowdef_simple

def cfg_write (w : Windowdef_simple) (cfg : Name) (config : KConfig) : KConfig :=
  let config := (config.write cfg "Type" (.text "ERROR")).write cfg "Comment" (.text w.comment)
  let config := (config.write cfg "Title" (.text w.title)).write cfg "TitleType" (.int w.title_match_type.toInt)
  let config := (config.write cfg "Class" (.text w.wclass)).write cfg "ClassType" (.int w.wclass_match_type.toInt)
  let config := (config.write cfg "Role" (.text w.role)).write cfg "RoleType" (.int w.role_match_type.toInt)
  (config.write cfg "WindowTypes" (.int w.window_types)).write cfg "Type" (.text "SIMPLE")

def cfg_read (config : KConfig) (cfg : Name) : Windowdef_simple :=
  { comment := readText config cfg "Comment", title := readText config cfg "Title"
    title_match_type := .ofInt (readInt config cfg "TitleType" 0), wclass := readText config cfg "Class"
    wclass_match_type := .ofInt (readInt config cfg "ClassType" 0), role := readText config cfg "Role"
    role_match_type := .ofInt (readInt config cfg "RoleType" 0), window_types := readInt config cfg "WindowTypes" 0 }

/-- `Windowdef::create_cfg_read`. -/
def create_cfg_read (config : KConfig) (cfg : Name) : Option Windowdef_simple :=
  if readText config cfg "Type" = "SIMPLE" then some (cfg_read config cfg) else none

end Windowdef_simple

structure Windowdef_list where
  comment : String
  windows : List Windowdef_simple
deriving DecidableEq, Repr

namespace Windowdef_list

/-- The loop over the windows, from the one with number `i` on. -/
def write_windows (cfg : Name) : Nat → List Windowdef_simple → KConfig → KConfig
  | _, [], config => config
  | i, w :: windows, config => write_windows cfg (i+1) windows (w.cfg_write (cfg++number i) config)

def cfg_write (l : Windowdef_list) (cfg : Name) (config : KConfig) : KConfig :=
  let config := write_windows cfg 0 l.windows config
  (config.write cfg "WindowsCount" (.int l.windows.length)).write cfg "Comment" (.text l.comment)

/-- The loop of the reading constructor, for `n` windows from the one with number `i` on. -/
def read_windows (config : KConfig) (cfg : Name) : Nat → Nat → List Windowdef_simple
  | _, 0 => []
  | i, n+1 => (Windowdef_simple.create_cfg_read config (cfg++number i)).toList++read_windows config cfg (i+1) n

def cfg_read (config : KConfig) (cfg : Name) : Windowdef_list :=
  { comment := readText config cfg "Comment"
    windows := read_windows config cfg 0 (readInt config cfg "WindowsCount" 0).toNat }

end Windowdef_list

inductive WindowCondition
  | ACTIVE_WINDOW
  | EXISTING_WINDOW
deriving DecidableEq, Repr

def WindowCondition.type : WindowCondition → String
  | ACTIVE_WINDOW => "ACTIVE_WINDOW"
  | EXISTING_WINDOW => "EXISTING_WINDOW"

inductive ListCondition
  | NOT
  | AND
  | OR
deriving DecidableEq, Repr

def ListCondition.type : ListCondition → String
  | NOT => "NOT"
  | AND => "AND"
  | OR => "OR"

inductive Condition
  | window (kind : WindowCondition) (window : Windowdef_list)
  | list (kind : ListCondition) (children : List Condition)

structure Condition_list where
  comment : String
  children : List Condition

def windowGroup (cfg : Name) : Name := cfg++['W','i','n','d','o','w']

namespace Condition

mutual
/-- `cfg_write` of the classes, each with what its base class writes first. -/
def cfg_write : Condition → Name → KConfig → KConfig
  | window kind w, cfg, config =>
    (w.cfg_write (windowGroup cfg) (config.write cfg "Type" (.text "ERROR"))).write cfg "Type" (.text kind.type)
  | list kind children, cfg, config =>
    ((write_children children cfg 0 config).write cfg "ConditionsCount" (.int children.length)).write cfg "Type"
      (.text kind.type)

/-- The loop of `Condition_list_base::cfg_write`, from the child with number `i` on. -/
def write_children : List Condition → Name → Nat → KConfig → KConfig
  | [], _, _, config => config
  | child :: children, cfg, i, config => write_children children cfg (i+1) (child.cfg_write (cfg++number i) config)
end

/-- The loop of the reading constructor of `Condition_list_base`, for `n` children from the one with number `i` on.
A child of an unknown type is not appended. The outer `none` is that the depth is exceeded. -/
def read_children (create : Name → Option (Option Condition)) (cfg : Name) : Nat → Nat → Option (List Condition)
  | _, 0 => some []
  | i, n+1 => do
    let child ← create (cfg++number i)
    let children ← read_children create cfg (i+1) n
    return child.toList++children

/-- `Condition::create_cfg_read`, for trees up to a depth. -/
def create_cfg_read (config : KConfig) : Nat → Name → Option (Option Condition)
  | 0, _ => none
  | depth+1, cfg =>
    let type := readText config cfg "Type"
    let read_list (kind : ListCondition) :=
      (read_children (create_cfg_read config depth) cfg 0 (readInt config cfg "ConditionsCount" 0).toNat).map
        fun children => some (list kind children)
    if type = "ACTIVE_WINDOW" then
      some (some (window .ACTIVE_WINDOW (Windowdef_list.cfg_read config (windowGroup cfg))))
    else if type = "EXISTING_WINDOW" then
      some (some (window .EXISTING_WINDOW (Windowdef_list.cfg_read config (windowGroup cfg))))
    else if type = "NOT" then read_list .NOT
    else if type = "AND" then read_list .AND
    else if type = "OR" then read_list .OR
    else some none

end Condition

namespace Condition_list

def cfg_write (l : Condition_list) (cfg : Name) (config : KConfig) : KConfig :=
  ((Condition.write_children l.children cfg 0 config).write cfg "ConditionsCount" (.int l.children.length)).write cfg
    "Comment" (.text l.comment)

def cfg_read (config : KConfig) (depth : Nat) (cfg : Name) : Option Condition_list := do
  let children ← Condition.read_children (Condition.create_cfg_read config depth) cfg 0
    (readInt config cfg "ConditionsCount" 0).toNat
  return ⟨readText config cfg "Comment",children⟩

end Condition_list

def Windowdef_list.window_groups (cfg : Name) : Nat → List Windowdef_simple → List Name
  | _, [] => []
  | i, _ :: windows => (cfg++number i) :: window_groups cfg (i+1) windows

def Windowdef_list.groups (l : Windowdef_list) (cfg : Name) : List Name := cfg :: window_groups cfg 0 l.windows

theorem Windowdef_list.mem_window_groups {cfg g : Name} {windows : List Windowdef_simple} {i : Nat}
    (member : g ∈ window_groups cfg i windows) : ∃ j, i ≤ j ∧ g = cfg++number j := by
  induction windows generalizing i with
  | nil => simp [window_groups] at member
  | cons w windows ih =>
    simp only [window_groups,List.mem_cons] at member
    rcases member with first | later
    · exact ⟨i,Nat.le_refl i,first⟩
    · obtain ⟨j,le,named⟩ := ih later
      exact ⟨j,by omega,named⟩

namespace Condition

mutual
def groups : Condition → Name → List Name
  | window _ w, cfg => cfg :: w.groups (windowGroup cfg)
  | list _ children, cfg => cfg :: child_groups children cfg 0

def child_groups : List Condition → Name → Nat → List Name
  | [], _, _ => []
  | child :: children, cfg, i => child.groups (cfg++number i)++child_groups children cfg (i+1)
end

mutual
def depth : Condition → Nat
  | window _ _ => 1
  | list _ children => depths children+1

def depths : List Condition → Nat
  | [] => 0
  | child :: children => max child.depth (depths children)
end

end Condition

namespace Condition_list

def groups (l : Condition_list) (cfg : Name) : List Name := cfg :: Condition.child_groups l.children cfg 0

def depth (l : Condition_list) : Nat := Condition.depths l.children

end Condition_list

theorem readText_eq {groups : List Name} {c d : KConfig} (agree : Config.Agree groups c d) {cfg : Name}
    (member : cfg ∈ groups) (key : String) : readText d cfg key = readText c cfg key := by
  simp only [readText,agree.read cfg member key]

theorem readInt_eq {groups : List Name} {c d : KConfig} (agree : Config.Agree groups c d) {cfg : Name}
    (member : cfg ∈ groups) (key : String) (default : Int) : readInt d cfg key default = readInt c cfg key default := by
  simp only [readInt,agree.read cfg member key]

theorem Windowdef_simple.write_apart (w : Windowdef_simple) {cfg : Name} {config d : KConfig} {others : List Name}
    (apart : cfg ∉ others) (agree : Config.Agree others d config) :
    Config.Agree others d (w.cfg_write cfg config) := by
  simp only [cfg_write]
  iterate 10 refine Config.Agree.write _ _ ?_ apart
  exact agree

namespace Windowdef_list

theorem write_windows_apart {cfg : Name} {others : List Name} (windows : List Windowdef_simple) {i : Nat}
    {config d : KConfig} (apart : ∀ g ∈ window_groups cfg i windows, g ∉ others)
    (agree : Config.Agree others d config) : Config.Agree others d (write_windows cfg i windows config) := by
  induction windows generalizing i config with
  | nil => exact agree
  | cons w windows ih =>
    simp only [window_groups,List.forall_mem_cons] at apart
    exact ih apart.2 (w.write_apart apart.1 agree)

theorem write_apart (l : Windowdef_list) {cfg : Name} {others : List Name} {config d : KConfig}
    (apart : ∀ g ∈ l.groups cfg, g ∉ others) (agree : Config.Agree others d config) :
    Config.Agree others d (l.cfg_write cfg config) := by
  simp only [groups,List.forall_mem_cons] at apart
  simp only [cfg_write]
  exact ((write_windows_apart l.windows apart.2 agree).write _ _ apart.1).write _ _ apart.1

end Windowdef_list

namespace Condition

mutual
theorem write_apart : ∀ (t : Condition) {cfg : Name} {others : List Name} {config d : KConfig},
    (∀ g ∈ t.groups cfg, g ∉ others) → Config.Agree others d config → Config.Agree others d (t.cfg_write cfg config)
  | window kind w, cfg, others, config, d, apart, agree => by
    simp only [groups,List.forall_mem_cons] at apart
    simp only [cfg_write]
    exact (w.write_apart apart.2 (agree.write _ _ apart.1)).write _ _ apart.1
  | list kind children, cfg, others, config, d, apart, agree => by
    simp only [groups,List.forall_mem_cons] at apart
    simp only [cfg_write]
    exact ((write_children_apart children apart.2 agree).write _ _ apart.1).write _ _ apart.1

theorem write_children_apart : ∀ (children : List Condition) {cfg : Name} {i : Nat} {others : List Name}
    {config d : KConfig}, (∀ g ∈ child_groups children cfg i, g ∉ others) → Config.Agree others d config →
      Config.Agree others d (write_children children cfg i config)
  | [], cfg, i, others, config, d, apart, agree => agree
  | child :: children, cfg, i, others, config, d, apart, agree => by
    simp only [child_groups,List.forall_mem_append] at apart
    exact write_children_apart children apart.2 (child.write_apart apart.1 agree)
end

end Condition
end KdeWorkspace.Conditions
