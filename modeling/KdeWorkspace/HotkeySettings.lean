import KdeWorkspace.Conditions
import Mathlib.Algebra.Group.Int.Defs

/-!
The settings of khotkeys, and how they are written and read.

The actions and groups are a tree. The reader adds to the tree of the settings, also in places where it is not
reading, so a group is known by its address, the numbers of the children on the way to it: children are only
appended, and the address of a group remains its address.
-/
namespace KdeWorkspace.HotkeySettings
open Configs (Config)
open Conditions (Name Value KConfig Windowdef_list readText readInt readBool)
open Decimals (number)

inductive system_group_t
  | SYSTEM_NONE
  | SYSTEM_MENUENTRIES
  | SYSTEM_ROOT
deriving DecidableEq, Repr

namespace system_group_t

def toInt : system_group_t → Int
  | SYSTEM_NONE => 0
  | SYSTEM_MENUENTRIES => 1
  | SYSTEM_ROOT => 2

/-- The number as an `unsigned int`, without those from `SYSTEM_MAX` on. -/
def ofInt (n : Int) : system_group_t := if n = 1 then SYSTEM_MENUENTRIES else if n = 2 then SYSTEM_ROOT else SYSTEM_NONE

end system_group_t

inductive ActionType
  | GENERIC
  | MENUENTRY_SHORTCUT
  | SIMPLE
deriving DecidableEq, Repr

namespace ActionType

/-- What is written for the type. -/
def text : ActionType → String
  | GENERIC => "GENERIC_ACTION_DATA"
  | MENUENTRY_SHORTCUT => "MENUENTRY_SHORTCUT_ACTION_DATA"
  | SIMPLE => "SIMPLE_ACTION_DATA"

/-- What is read from it; there are names of older types. -/
def ofText (type : String) : Option ActionType :=
  if type = "GENERIC_ACTION_DATA" then some GENERIC
  else if type = "MENUENTRY_SHORTCUT_ACTION_DATA" then some MENUENTRY_SHORTCUT
  else if type = "SIMPLE_ACTION_DATA" || type = "COMMAND_URL_SHORTCUT_ACTION_DATA" ||
      type = "DCOP_SHORTCUT_ACTION_DATA" || type = "DBUS_SHORTCUT_ACTION_DATA" ||
      type = "KEYBOARD_INPUT_GESTURE_ACTION_DATA" || type = "KEYBOARD_INPUT_SHORTCUT_ACTION_DATA" ||
      type = "ACTIVATE_WINDOW_SHORTCUT_ACTION_DATA" then some SIMPLE
  else none

@[simp] theorem ofText_text (type : ActionType) : ofText type.text = some type := by cases type <;> rfl

theorem text_ne_group (type : ActionType) : type.text ≠ "ACTION_DATA_GROUP" := by cases type <;> decide

end ActionType

/-- What an object writes besides its own entries. -/
inductive Part
  | Conditions
  | Triggers
  | Actions
deriving DecidableEq, Repr

def Part.suffix : Part → Name
  | Conditions => ['C','o','n','d','i','t','i','o','n','s']
  | Triggers => ['T','r','i','g','g','e','r','s']
  | Actions => ['A','c','t','i','o','n','s']

/-- An entry of a part, in a group whose name goes on with `rest` behind that of the part. -/
structure PartEntry where
  part : Part
  rest : Name
  key : String
  value : Value
deriving DecidableEq, Repr

structure ActionDataBase where
  name : String
  comment : String
  enabled : Bool
  importId : String
  allowMerging : Bool
  parts : List PartEntry
deriving DecidableEq, Repr

inductive Node
  | action (type : ActionType) (base : ActionDataBase)
  | group (system : system_group_t) (base : ActionDataBase) (children : List Node)

namespace Node

def base : Node → ActionDataBase
  | action _ base => base
  | group _ base _ => base

def children : Node → List Node
  | action _ _ => []
  | group _ _ children => children

def is_group : Node → Bool
  | action _ _ => false
  | group _ _ _ => true

/-- The `system_group` of a group. -/
def system : Node → Option system_group_t
  | action _ _ => none
  | group system _ _ => some system

def add_children (more : List Node) : Node → Node
  | action type base => action type base
  | group system base children => group system base (children++more)

def setEnabled (enabled : Bool) : Node → Node
  | action type base => action type { base with enabled := enabled }
  | group system base children => group system { base with enabled := enabled } children

abbrev Address := List Nat

def get : Node → Address → Option Node
  | t, [] => some t
  | t, i :: address => t.children[i]?.bind fun child => child.get address

def modify : Node → Address → (Node → Node) → Node
  | t, [], f => f t
  | group system base children, i :: address, f =>
    group system base (children.modify i fun child => child.modify address f)
  | action type base, _ :: _, _ => action type base

def add_child (root : Node) (parent : Address) (child : Node) : Node := root.modify parent (add_children [child])

end Node

structure Settings where
  actions : Node
  daemon_disabled : Bool
  already_imported : List String
  gestures_disabled : Bool
  gesture_mouse_button : Int
  gesture_timeout : Int
  gestures_exclude : Option Windowdef_list
  voice_shortcut : String

section
open Node

/-- With the state `Retain`. -/
def visitActionDataBase (base : ActionDataBase) (cfg : Name) (config : KConfig) : KConfig :=
  let config := (config.write cfg "Type" (.text "ERROR")).write cfg "Name" (.text base.name)
  let config := (config.write cfg "Comment" (.text base.comment)).write cfg "Enabled" (.bool base.enabled)
  base.parts.foldl (fun config e => config.write (cfg++e.part.suffix++e.rest) e.key e.value) config

def childGroup (cfg : Name) (i : Nat) : Name := cfg++('_' :: number i)

mutual
/-- `accept`, when settings are not exported. -/
def visit : Node → Name → KConfig → KConfig
  | action type base, cfg, config => (visitActionDataBase base cfg config).write cfg "Type" (.text type.text)
  | group system base children, cfg, config =>
    let config := (visitActionDataBase base cfg config).write cfg "SystemGroup" (.int system.toInt)
    let config := visit_children children cfg 1 (config.write cfg "Type" (.text "ACTION_DATA_GROUP"))
    let config := config.write cfg "DataCount" (.int children.length)
    let config := if base.importId ≠ "" then config.write cfg "ImportId" (.text base.importId) else config
    if base.allowMerging then config.write cfg "AllowMerge" (.bool base.allowMerging) else config

def visit_children : List Node → Name → Nat → KConfig → KConfig
  | [], _, _, config => config
  | child :: children, cfg, i, config => visit_children children cfg (i+1) (visit child (childGroup cfg i) config)
end

def main : Name := ['M','a','i','n']
def data : Name := ['D','a','t','a']
def gestures : Name := ['G','e','s','t','u','r','e','s']
def gesturesExclude : Name := ['G','e','s','t','u','r','e','s','E','x','c','l','u','d','e']
def voice : Name := ['V','o','i','c','e']

/-- All groups that there are have been deleted before. -/
def writeTo (s : Settings) : KConfig :=
  let config := (Config.empty.write main "Version" (.int 2)).write main "AlreadyImported" (.texts s.already_imported)
  let config := config.write main "Disabled" (.bool s.daemon_disabled)
  let config := (visit_children s.actions.children data 1 config).write data "DataCount"
    (.int s.actions.children.length)
  let config := config.write gestures "Disabled" (.bool s.gestures_disabled)
  let config := config.write gestures "MouseButton" (.int s.gesture_mouse_button)
  let config := config.write gestures "Timeout" (.int s.gesture_timeout)
  let config := match s.gestures_exclude with
    | some windows => windows.cfg_write gesturesExclude config
    | none => config
  config.write voice "Shortcut" (.text s.voice_shortcut)

end

def readTexts (config : KConfig) (group : Name) (key : String) : List String :=
  match config.read group key with
  | some (.texts values) => values
  | _ => []

/-- `Settings::get_system_group`, with the address of the group: the one for the menu entries is created. -/
def get_system_group (root : Node) (id : system_group_t) : Node × Option Node.Address :=
  match root.children.findIdx? (fun element => element.system = some id) with
  | some i => (root,some [i])
  | none =>
    match id with
    | .SYSTEM_MENUENTRIES =>
      (root.add_child [] (.group .SYSTEM_MENUENTRIES
        ⟨"KMenuEdit","KMenuEdit Global Shortcuts",true,"",false,[]⟩ []),some [root.children.length])
    | _ => (root,none)

/-- What `visitActionDataBase` of the reader sets, without the parts. -/
def readBase (config : KConfig) (cfg : Name) : ActionDataBase :=
  { name := readText config cfg "Name", comment := readText config cfg "Comment", enabled := false
    importId := readText config cfg "ImportId", allowMerging := readBool config cfg "AllowMerge" false, parts := [] }

/-- The loop over `n` children of a group from the one with number `i` on. -/
def read_children (read : Name → Node.Address → Node → Option Node) (cfg : Name) (parent : Node.Address) :
    Nat → Nat → Node → Option Node
  | _, 0, root => some root
  | i, n+1, root => do
    let root ← read (childGroup cfg i) parent root
    read_children read cfg parent (i+1) n root

/-- The group into which `readGroup` loads the children. -/
def groupFor (config : KConfig) (cfg : Name) (parent : Node.Address) (root : Node) : Node × Node.Address :=
  let siblings := ((root.get parent).map Node.children).getD []
  let existing :=
    if readBool config cfg "AllowMerge" false then
      (siblings.findIdx? fun child => child.is_group && child.base.name = readText config cfg "Name").map
        fun i => parent++[i]
    else none
  let system_group_tmp := readInt config cfg "SystemGroup" 0 % 2^32
  let (root,found) :=
    if system_group_tmp ≠ 0 ∧ system_group_tmp < 3 then get_system_group root (.ofInt system_group_tmp)
    else (root,existing)
  match found with
  | some address => (root,address)
  | none =>
    (root.add_child parent (.group (.ofInt system_group_tmp) (readBase config cfg) []),parent++[siblings.length])

/-- `readActionData` with `readGroup`, for trees up to a depth, as `reread_settings(true)` uses it: everything is
loaded, and whether it is enabled is retained. -/
def readActionData (config : KConfig) : Nat → Name → Node.Address → Node → Option Node
  | 0, _, _, _ => none
  | depth+1, cfg, parent, root =>
    let type := readText config cfg "Type"
    if type = "ACTION_DATA_GROUP" then do
      let (root,group) := groupFor config cfg parent root
      let root ← read_children (readActionData config depth) cfg group 1 (readInt config cfg "DataCount" 0).toNat root
      return root.modify group (Node.setEnabled (readBool config cfg "Enabled" false))
    else
      match ActionType.ofText type with
      | none => some root
      | some type =>
        let (root,parent) :=
          if type = .MENUENTRY_SHORTCUT then
            ((get_system_group root .SYSTEM_MENUENTRIES).1,(get_system_group root .SYSTEM_MENUENTRIES).2.getD [])
          else (root,parent)
        some (root.add_child parent (.action type
          { readBase config cfg with enabled := readBool config cfg "Enabled" false }))

def read (config : KConfig) (depth : Nat) (root : Node) : Option Node :=
  read_children (readActionData config depth) data [] 1 (readInt config data "DataCount" 0).toNat root

namespace Settings

/-- With the root of the tree that `setActions` makes. -/
def reinitialized : Settings :=
  { actions := .group .SYSTEM_ROOT ⟨"should never see","should never see",true,"",false,[]⟩ []
    daemon_disabled := false, already_imported := [], gestures_disabled := true, gesture_mouse_button := 2
    gesture_timeout := 300, gestures_exclude := none, voice_shortcut := "" }

def validate (s : Settings) : Settings := { s with actions := (get_system_group s.actions .SYSTEM_MENUENTRIES).1 }

/-- `reread_settings(true)` for trees up to a depth, with what it returns. Without a main group it loads the
`defaults`, from another file. -/
def reread_settings (config : KConfig) (depth : Nat) (defaults : Settings) : Option (Settings × Bool) :=
  if !config.has main then some (defaults.validate,false)
  else do
    let button := readInt config gestures "MouseButton" reinitialized.gesture_mouse_button
    let timeout := readInt config gestures "Timeout" reinitialized.gesture_timeout
    let s := { reinitialized with
      daemon_disabled := readBool config main "Disabled" reinitialized.daemon_disabled
      already_imported := readTexts config main "AlreadyImported"
      gestures_disabled := readBool config gestures "Disabled" reinitialized.gestures_disabled
      gesture_mouse_button := max 2 (min button 9)
      gesture_timeout := if timeout < 100 then 300 else timeout
      gestures_exclude := some (Windowdef_list.cfg_read config gesturesExclude)
      voice_shortcut := readText config voice "Shortcut" }
    if readInt config main "Version" (-1234576) ≠ 2 then return (s.validate,false)
    else
      let actions ← read config depth s.actions
      return ({ s with actions := actions }.validate,true)

end Settings
end KdeWorkspace.HotkeySettings
