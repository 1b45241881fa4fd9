import KdeWorkspace.HotkeyEntries

/-!
Reading the settings of khotkeys that have been written.

`reread_written` says what tree is read: the one that has been written, where the group of the menu entries has its
fixed name and is there also if it was not. Groups that are merged into others are left out.
-/
namespace KdeWorkspace.HotkeySettings
open List
open Configs (Config)
open Conditions (Name Value KConfig readText readInt readBool)
open Decimals (number)
open Node

namespace Node
variable {root t : Node} {p : Address}

theorem modify_append (root : Node) (p q : Address) (f : Node → Node) :
    root.modify (p++q) f = root.modify p fun t => t.modify q f := by
  induction p generalizing root with
  | nil => simp [modify]
  | cons i p ih =>
    cases root with
    | action type base => rfl
    | group system base children => simp [modify,ih]

theorem modify_modify (root : Node) (p : Address) (f g : Node → Node) :
    (root.modify p f).modify p g = root.modify p fun t => g (f t) := by
  induction p generalizing root with
  | nil => simp [modify]
  | cons i p ih =>
    cases root with
    | action type base => rfl
    | group system base children => simp [modify,modify_modify_eq,Function.comp_def,ih]

theorem get_modify (found : root.get p = some t) (f : Node → Node) : (root.modify p f).get p = some (f t) := by
  induction p generalizing root with
  | nil =>
    cases found
    simp [modify,get]
  | cons i p ih =>
    cases root with
    | action type base => simp [get,children] at found
    | group system base children =>
      simp only [get,Node.children,Option.bind_eq_some_iff] at found
      obtain ⟨child,at_i,below⟩ := found
      simp [modify,get,Node.children,at_i,ih below]

theorem modify_congr (found : root.get p = some t) {f g : Node → Node} (same : f t = g t) :
    root.modify p f = root.modify p g := by
  induction p generalizing root with
  | nil =>
    cases found
    simp [modify,same]
  | cons i p ih =>
    cases root with
    | action type base => rfl
    | group system base children =>
      simp only [get,Node.children,Option.bind_eq_some_iff] at found
      obtain ⟨child,at_i,below⟩ := found
      simp only [modify]
      congr 1
      apply ext_getElem?
      intro j
      rw [getElem?_modify,getElem?_modify]
      by_cases here : i = j
      · rw [← here,at_i]
        simp [ih below]
      · simp [here]

theorem modify_last (children : List Node) (child : Node) (f : Node → Node) :
    (children++[child]).modify children.length f = children++[f child] := by
  induction children with
  | nil => rfl
  | cons first children ih => simp [ih]

theorem add_child_modify {system : system_group_t} {base : ActionDataBase} {children : List Node}
    (found : root.get p = some (group system base children)) (child : Node) (f : Node → Node) :
    (root.add_child p child).modify (p++[children.length]) f = root.add_child p (f child) := by
  rw [add_child,modify_append,modify_modify,add_child]
  refine modify_congr found ?_
  simp [add_children,modify,modify_last]

theorem get_add_child {system : system_group_t} {base : ActionDataBase} {children : List Node}
    (found : root.get p = some (group system base children)) (child : Node) :
    (root.add_child p child).get (p++[children.length]) = some child := by
  have get_append : ∀ (q : Address) (t : Node), t.get (q++[children.length]) =
      (t.get q).bind fun u => u.children[children.length]? := by
    intro q
    induction q with
    | nil =>
      intro t
      cases at_end : t.children[children.length]? <;> simp [get,at_end]
    | cons i q ih =>
      intro t
      cases at_i : t.children[i]? with
      | none => simp [get,at_i]
      | some u => simp [get,at_i,ih u]
  rw [get_append,add_child,get_modify found]
  simp [add_children,Node.children]

theorem add_children_add (xs ys : List Node) (t : Node) :
    add_children ys (add_children xs t) = add_children (xs++ys) t := by
  cases t with
  | action type base => rfl
  | group system base children => simp [add_children]

theorem modify_add_nil (root : Node) (p : Address) : root.modify p (add_children []) = root := by
  have nothing : ∀ t : Node, add_children [] t = t := fun t => by cases t <;> simp [add_children]
  induction p generalizing root with
  | nil => simp [modify,nothing]
  | cons i p ih =>
    cases root with
    | action type base => rfl
    | group system base children =>
      have same : (fun child : Node => child.modify p (add_children [])) = id := funext ih
      simp [modify,same]

end Node

mutual
/-- Only groups keep the import id and whether they may be merged. The name of the group for the menu entries is
fixed. -/
def restored : Node → Node
  | action type base => action type { base with importId := "", allowMerging := false, parts := [] }
  | group .SYSTEM_MENUENTRIES base children =>
    group .SYSTEM_MENUENTRIES ⟨"KMenuEdit","KMenuEdit Global Shortcuts",base.enabled,"",false,[]⟩
      (restored_all children)
  | group system base children => group system { base with parts := [] } (restored_all children)

def restored_all : List Node → List Node
  | [] => []
  | child :: children => restored child :: restored_all children
end

@[simp] theorem restored_all_eq (children : List Node) : restored_all children = children.map restored := by
  induction children with
  | nil => rfl
  | cons child children ih => simp [restored_all,ih]

@[simp] theorem restored_is_group (t : Node) : (restored t).is_group = t.is_group := by
  match t with
  | action type base => rfl
  | group .SYSTEM_MENUENTRIES base children => rfl
  | group .SYSTEM_NONE base children => rfl
  | group .SYSTEM_ROOT base children => rfl

@[simp] theorem restored_system (t : Node) : (restored t).system = t.system := by
  match t with
  | action type base => rfl
  | group .SYSTEM_MENUENTRIES base children => rfl
  | group .SYSTEM_NONE base children => rfl
  | group .SYSTEM_ROOT base children => rfl

/-- No group that allows it is merged into an earlier one with its name. -/
def Unmerged (siblings : List Node) : Prop :=
  siblings.Pairwise fun t u => t.is_group → u.is_group → u.system ≠ some .SYSTEM_MENUENTRIES →
    u.base.allowMerging = true → u.base.name ≠ (restored t).base.name

/-- A part of a tree without menu entries. -/
inductive Ordinary : Node → Prop
  | action {type : ActionType} (base : ActionDataBase) (other : type ≠ .MENUENTRY_SHORTCUT) :
    Ordinary (action type base)
  | group (base : ActionDataBase) {children : List Node} (unmerged : Unmerged children)
    (each : ∀ child ∈ children, Ordinary child) : Ordinary (group .SYSTEM_NONE base children)

/-- The group for the menu entries, with others in it. -/
inductive MenuEntries : Node → Prop
  | group (base : ActionDataBase) {children : List Node} (unmerged : Unmerged children)
    (each : ∀ child ∈ children, Ordinary child ∨ ∃ base, child = action .MENUENTRY_SHORTCUT base) :
    MenuEntries (group .SYSTEM_MENUENTRIES base children)

/-- The objects at the top of a tree, with at most one group for the menu entries, which has all of them. -/
structure ActionTree (top : List Node) : Prop where
  each : ∀ t ∈ top, Ordinary t ∨ MenuEntries t
  single : top.Pairwise fun t u => ¬(t.system = some .SYSTEM_MENUENTRIES ∧ u.system = some .SYSTEM_MENUENTRIES)
  unmerged : Unmerged top

mutual
def depth : Node → Nat
  | action _ _ => 1
  | group _ _ children => depths children+1

def depths : List Node → Nat
  | [] => 0
  | child :: children => max (depth child) (depths children)
end

theorem depth_le {children : List Node} {child : Node} (member : child ∈ children) : depth child ≤ depths children := by
  induction children with
  | nil => cases member
  | cons first children ih =>
    simp only [depths]
    rcases mem_cons.mp member with same | later
    · rw [same]
      exact Nat.le_max_left _ _
    · exact Nat.le_trans (ih later) (Nat.le_max_right _ _)

theorem holds_child {before after : List Node} {child : Node} {cfg : Name} {i : Nat} {d : KConfig}
    (holds : Holds_children (before++child :: after) cfg i d) : Holds child (childGroup cfg (i+before.length)) d := by
  induction before generalizing i with
  | nil => exact holds.1
  | cons first before ih =>
    have later := ih holds.2
    rwa [length_cons,show i+(before.length+1) = i+1+before.length by omega]

theorem read_children_eq {read : Name → Address → Node → Option Node} {cfg : Name} {p : Address} (result : Node → Node)
    (children : List Node) (i : Nat) (root : Node)
    (each : ∀ before child after, children = before++child :: after →
      read (childGroup cfg (i+before.length)) p (root.modify p (add_children (before.map result))) =
        some ((root.modify p (add_children (before.map result))).add_child p (result child))) :
    read_children read cfg p i children.length root = some (root.modify p (add_children (children.map result))) := by
  induction children generalizing i root with
  | nil => simp [read_children,modify_add_nil]
  | cons first children ih =>
    have here := each [] first children rfl
    simp only [length_nil,Nat.add_zero,map_nil,modify_add_nil] at here
    have joined : ∀ before : List Node, (root.add_child p (result first)).modify p (add_children (before.map result)) =
        root.modify p (add_children ((first :: before).map result)) := by
      intro before
      simp [add_child,modify_modify,add_children_add]
    have rest := ih (i+1) (root.add_child p (result first)) fun before child after split => by
      have later := each (first :: before) child after (by rw [split,cons_append])
      rw [joined,show i+1+before.length = i+(before.length+1) by omega]
      exact later
    simp only [read_children,length_cons,here,Option.bind_eq_bind,Option.bind_some,rest,joined]

section
variable {d : KConfig} {cfg : Name} {root : Node} {p : Address} {system : system_group_t} {parent : ActionDataBase}
  {siblings : List Node}

theorem groupFor_new {base : ActionDataBase} (entries : readBase d cfg = { base with enabled := false, parts := [] })
    (none : readInt d cfg "SystemGroup" 0 = 0) (found : root.get p = some (group system parent siblings))
    (fits : base.allowMerging = true → ∀ u ∈ siblings, u.is_group → base.name ≠ u.base.name) :
    groupFor d cfg p root =
      (root.add_child p (group .SYSTEM_NONE { base with enabled := false, parts := [] } []),p++[siblings.length]) := by
  have allow : readBool d cfg "AllowMerge" false = base.allowMerging := congrArg ActionDataBase.allowMerging entries
  have name : readText d cfg "Name" = base.name := congrArg ActionDataBase.name entries
  have existing : (if readBool d cfg "AllowMerge" false then
      (siblings.findIdx? fun child => child.is_group && child.base.name = readText d cfg "Name").map
        fun i => p++[i] else .none) = .none := by
    by_cases merging : base.allowMerging = true
    · rw [if_pos (allow.trans merging),Option.map_eq_none_iff,findIdx?_eq_none_iff]
      intro u member
      by_cases isGroup : u.is_group = true
      · simpa [isGroup,name] using fun same => fits merging u member isGroup same.symm
      · simp [isGroup]
    · rw [if_neg (fun yes => merging (allow ▸ yes))]
  simp only [groupFor,found,Option.map_some,Option.getD_some,Node.children,existing,none,entries]
  simp [system_group_t.ofInt]

variable (system parent) in
theorem get_system_group_created (none : ∀ u ∈ siblings, u.system ≠ some .SYSTEM_MENUENTRIES) :
    get_system_group (group system parent siblings) .SYSTEM_MENUENTRIES =
      ((group system parent siblings).add_child [] (.group .SYSTEM_MENUENTRIES
        ⟨"KMenuEdit","KMenuEdit Global Shortcuts",true,"",false,[]⟩ []),some [siblings.length]) := by
  have nothing : siblings.findIdx? (fun element => element.system = some .SYSTEM_MENUENTRIES) = .none :=
    findIdx?_eq_none_iff.mpr fun u member => by simpa using none u member
  simp [get_system_group,Node.children,nothing]

variable (system parent) in
theorem get_system_group_found (none : ∀ u ∈ siblings, u.system ≠ some .SYSTEM_MENUENTRIES) (base : ActionDataBase)
    (children after : List Node) :
    get_system_group (group system parent (siblings++group .SYSTEM_MENUENTRIES base children :: after))
      .SYSTEM_MENUENTRIES =
        (group system parent (siblings++group .SYSTEM_MENUENTRIES base children :: after),some [siblings.length]) := by
  have nothing : siblings.findIdx? (fun element => element.system = some .SYSTEM_MENUENTRIES) = .none :=
    findIdx?_eq_none_iff.mpr fun u member => by simpa using none u member
  have here : (siblings++group .SYSTEM_MENUENTRIES base children :: after).findIdx?
      (fun element => element.system = some .SYSTEM_MENUENTRIES) = some siblings.length := by
    rw [findIdx?_append,nothing]
    simp [findIdx?_cons,Node.system]
  simp [get_system_group,Node.children,here]

variable (system parent) in
theorem groupFor_menu (menu : readInt d cfg "SystemGroup" 0 = 1)
    (none : ∀ u ∈ siblings, u.system ≠ some .SYSTEM_MENUENTRIES) :
    groupFor d cfg [] (group system parent siblings) =
      ((group system parent siblings).add_child [] (.group .SYSTEM_MENUENTRIES
        ⟨"KMenuEdit","KMenuEdit Global Shortcuts",true,"",false,[]⟩ []),[siblings.length]) := by
  have created := get_system_group_created system parent none
  have kind : system_group_t.ofInt 1 = .SYSTEM_MENUENTRIES := rfl
  simp [groupFor,menu,kind,created]

theorem read_into {own : system_group_t} {base : ActionDataBase} {children : List Node} {enabled : Bool} (deep : Nat)
    (type : readText d cfg "Type" = "ACTION_DATA_GROUP") (state : readBool d cfg "Enabled" false = enabled)
    (count : readInt d cfg "DataCount" 0 = children.length) (found : root.get p = some (group system parent siblings))
    (created : groupFor d cfg p root = (root.add_child p (group own base []),p++[siblings.length]))
    (each : ∀ before child after, children = before++child :: after → ∀ filled : Node,
      filled = (root.add_child p (group own base [])).modify (p++[siblings.length])
        (add_children (before.map restored)) →
      filled.get (p++[siblings.length]) = some (group own base (before.map restored)) →
      readActionData d deep (childGroup cfg (1+before.length)) (p++[siblings.length]) filled =
        some (filled.add_child (p++[siblings.length]) (restored child))) :
    readActionData d (deep+1) cfg p root =
      some (root.add_child p (group own { base with enabled := enabled } (children.map restored))) := by
  have loop := read_children_eq restored children 1 (root.add_child p (group own base []))
    fun before child after split => each before child after split _ rfl (by
      rw [get_modify (get_add_child found (group own base []))]
      simp [add_children])
  simp only [readActionData,type,if_true,created,count,Int.toNat_natCast,loop,state,Option.bind_eq_bind,
    Option.bind_some,Option.pure_def]
  rw [add_child_modify found,add_child_modify found]
  rfl

/-- The siblings that have been read do not take in what is read next. -/
def Fits (siblings : List Node) (t : Node) : Prop :=
  t.is_group → t.system ≠ some .SYSTEM_MENUENTRIES → t.base.allowMerging = true →
    ∀ u ∈ siblings, u.is_group → t.base.name ≠ u.base.name

theorem fits_of_unmerged {before after : List Node} {child : Node} (unmerged : Unmerged (before++child :: after)) :
    Fits (before.map restored) child := by
  intro isGroup other merging u member uGroup
  obtain ⟨t,inside,rfl⟩ := mem_map.mp member
  rw [restored_is_group] at uGroup
  exact (pairwise_append.mp unmerged).2.2 t inside child mem_cons_self uGroup isGroup other merging

theorem read_ordinary {t : Node} (ordinary : Ordinary t) {deep : Nat} (holds : Holds t cfg d) (enough : depth t ≤ deep)
    (found : root.get p = some (group system parent siblings)) (fits : Fits siblings t) :
    readActionData d deep cfg p root = some (root.add_child p (restored t)) := by
  induction ordinary generalizing cfg deep root p system parent siblings with
  | @action type base other =>
    obtain ⟨deep,rfl⟩ := Nat.exists_eq_add_of_le' enough
    obtain ⟨typed,entries,state⟩ := holds
    simp [depth,readActionData,typed,type.text_ne_group,other,entries,state,restored]
  | @group base children unmerged each ih =>
    obtain ⟨deep,rfl⟩ := Nat.exists_eq_add_of_le' (Nat.le_trans (Nat.le_add_left 1 _) enough)
    obtain ⟨typed,entries,state,none,count,below⟩ := holds
    have deepEnough : ∀ child ∈ children, depth child ≤ deep := fun child member => by
      have le := depth_le member
      simp only [depth] at enough
      omega
    have created := groupFor_new entries none found fun merging u member isGroup =>
      fits rfl (by simp [Node.system]) merging u member isGroup
    have filled := read_into deep typed state count found created
      fun before child after split filled _ got => ih child (by simp [split]) (holds_child (split ▸ below))
        (deepEnough child (by simp [split])) got
        (fits_of_unmerged (split ▸ unmerged))
    rw [filled]
    simp [restored]

theorem read_menu_entries {t : Node} (menu : MenuEntries t) {deep : Nat} (holds : Holds t cfg d)
    (enough : depth t ≤ deep) (none : ∀ u ∈ siblings, u.system ≠ some .SYSTEM_MENUENTRIES) :
    readActionData d deep cfg [] (group system parent siblings) =
      some ((group system parent siblings).add_child [] (restored t)) := by
  obtain @⟨base,children,unmerged,each⟩ := menu
  obtain ⟨deep,rfl⟩ := Nat.exists_eq_add_of_le' (Nat.le_trans (Nat.le_add_left 1 _) enough)
  obtain ⟨typed,entries,state,is_menu,count,below⟩ := holds
  have deepEnough : ∀ child ∈ children, depth child ≤ deep := fun child member => by
    have le := depth_le member
    simp only [depth] at enough
    omega
  have created := groupFor_menu system parent is_menu none
  have filled := read_into deep typed state count rfl created
    fun before child after split filled is_filled got => by
      have childHolds := holds_child (split ▸ below)
      rcases each child (by simp [split]) with ordinary | ⟨base,rfl⟩
      · exact read_ordinary ordinary childHolds (deepEnough child (by simp [split])) got (fits_of_unmerged (split ▸ unmerged))
      · have positive : 1 ≤ deep := deepEnough (action .MENUENTRY_SHORTCUT base) (by simp [split])
        obtain ⟨below,rfl⟩ := Nat.exists_eq_add_of_le' positive
        obtain ⟨actionTyped,actionEntries,actionState⟩ := childHolds
        have whole : filled = group system parent (siblings++[group .SYSTEM_MENUENTRIES
            ⟨"KMenuEdit","KMenuEdit Global Shortcuts",true,"",false,[]⟩ (before.map restored)]) := by
          rw [is_filled,add_child_modify rfl]
          rfl
        have collected := get_system_group_found system parent none
          ⟨"KMenuEdit","KMenuEdit Global Shortcuts",true,"",false,[]⟩ (before.map restored) []
        rw [← whole] at collected
        have text : ActionType.MENUENTRY_SHORTCUT.text ≠ "ACTION_DATA_GROUP" := ActionType.text_ne_group _
        simp [readActionData,actionTyped,text,collected,actionEntries,actionState,restored]
  rw [filled]
  simp [restored]

end

theorem data_of_names {top : List Node} {g : Name} (member : g ∈ child_names top data 1) :
    ∃ rest : Name, g = 'D' :: rest := by
  obtain ⟨j,-,rest,named,-⟩ := inside_of_child_names top member
  exact ⟨_,named⟩

theorem exclude_of_groups {l : Conditions.Windowdef_list} {g : Name} (member : g ∈ l.groups gesturesExclude) :
    ∃ rest : Name, g = 'G' :: rest := by
  rcases mem_cons.mp member with own | window
  · exact ⟨_,own⟩
  · obtain ⟨j,-,named⟩ := Conditions.Windowdef_list.mem_window_groups window
    exact ⟨_,named⟩

section
variable (s : Settings)

/-- What is written before the tree, with the tree, and after it. -/
def begun : KConfig :=
  ((Config.empty.write main "Version" (.int 2)).write main "AlreadyImported" (.texts s.already_imported)).write main
    "Disabled" (.bool s.daemon_disabled)

def counted : KConfig :=
  (visit_children s.actions.children data 1 (begun s)).write data "DataCount" (.int s.actions.children.length)

theorem agree_counted (others : List Name) (apart : ∀ g ∈ others, (∀ rest, g ≠ 'G' :: rest) ∧ ∀ rest, g ≠ 'V' :: rest) :
    Config.Agree others (counted s) (writeTo s) := by
  have gesture : gestures ∉ others := fun member => (apart _ member).1 _ rfl
  have spoken : voice ∉ others := fun member => (apart _ member).2 _ rfl
  have first := (((Config.Agree.refl others (counted s)).write "Disabled" (.bool s.gestures_disabled) gesture).write
    "MouseButton" (.int s.gesture_mouse_button) gesture).write "Timeout" (.int s.gesture_timeout) gesture
  simp only [writeTo]
  refine Config.Agree.write _ _ ?_ spoken
  cases windows : s.gestures_exclude with
  | none => exact first
  | some l =>
    refine l.write_apart (fun g member inside => ?_) first
    obtain ⟨rest,named⟩ := exclude_of_groups member
    exact (apart g inside).1 rest named

theorem agree_begun : Config.Agree [main] (begun s) (counted s) := by
  refine Config.Agree.write _ _ (visit_children_apart _ (fun g member j _ inside => ?_) (Config.Agree.refl _ _))
    (by simp [main,data])
  obtain ⟨rest,named,-⟩ := inside
  rw [mem_singleton.mp member] at named
  simp [main,childGroup,data] at named

theorem holds_top : Holds_children s.actions.children data 1 (writeTo s) := by
  have own : data ∉ child_names s.actions.children data 1 := fun member => by
    obtain ⟨j,-,inside⟩ := inside_of_child_names _ member
    exact not_inside_child data j inside
  refine holds_children_written s.actions.children (fun g member key => ?_ : ∀ g ∈ _, ∀ key, (begun s).read g key = none) ?_
  · obtain ⟨rest,rfl⟩ := data_of_names member
    simp [begun,main]
  · refine ((Config.Agree.refl _ _).write _ _ own).trans (agree_counted s _ fun g member => ?_)
    obtain ⟨rest,rfl⟩ := data_of_names member
    simp

theorem read_main : (writeTo s).has main = true ∧ readInt (writeTo s) main "Version" (-1234576) = 2 := by
  have agree := (agree_begun s).trans (agree_counted s [main] fun g member => by
    rw [mem_singleton.mp member]
    simp [main])
  have here : main ∈ [main] := mem_singleton.mpr rfl
  constructor
  · rw [← agree.has main here]
    simp [begun]
  · rw [Conditions.readInt_eq agree here]
    simp [begun,readInt]

theorem read_count : readInt (writeTo s) data "DataCount" 0 = s.actions.children.length := by
  have agree := agree_counted s [data] fun g member => by
    rw [mem_singleton.mp member]
    simp [data]
  rw [Conditions.readInt_eq agree (mem_singleton.mpr rfl)]
  simp [counted,readInt]

end

/-- The group for the menu entries as it is created. -/
def KMenuEdit : Node := .group .SYSTEM_MENUENTRIES ⟨"KMenuEdit","KMenuEdit Global Shortcuts",true,"",false,[]⟩ []

/-- `validate` adds the group when there is none. -/
theorem validated (system : system_group_t) (base : ActionDataBase) (children : List Node) :
    (get_system_group (group system base children) .SYSTEM_MENUENTRIES).1.children =
      children++if children.any (fun t => t.system = some .SYSTEM_MENUENTRIES) then [] else [KMenuEdit] := by
  cases found : children.findIdx? (fun t => decide (t.system = some .SYSTEM_MENUENTRIES)) with
  | none =>
    have nothing := findIdx?_eq_none_iff.mp found
    have missing : children.any (fun t => t.system = some .SYSTEM_MENUENTRIES) = false :=
      any_eq_false.mpr fun t member => by simpa using nothing t member
    simp [get_system_group,Node.children,found,missing,add_child,Node.modify,add_children,KMenuEdit]
  | some i =>
    obtain ⟨inBounds,is_menu,-⟩ := findIdx?_eq_some_iff_getElem.mp found
    have present : children.any (fun t => t.system = some .SYSTEM_MENUENTRIES) = true :=
      any_eq_true.mpr ⟨children[i],getElem_mem inBounds,is_menu⟩
    simp [get_system_group,Node.children,found,present]

theorem read_written {s : Settings} (tree : ActionTree s.actions.children) {deep : Nat}
    (enough : depths s.actions.children ≤ deep) (base : ActionDataBase) :
    read (writeTo s) deep (group .SYSTEM_ROOT base []) =
      some (group .SYSTEM_ROOT base (s.actions.children.map restored)) := by
  rw [read,read_count,Int.toNat_natCast]
  refine read_children_eq restored s.actions.children 1 _ fun before child after split => ?_
  have member : child ∈ s.actions.children := by simp [split]
  have holds := holds_child (split ▸ holds_top s)
  have deepEnough := Nat.le_trans (depth_le member) enough
  have root : (group .SYSTEM_ROOT base []).modify [] (add_children (before.map restored)) =
      group .SYSTEM_ROOT base (before.map restored) := rfl
  rw [root]
  rcases tree.each child member with ordinary | menu
  · exact read_ordinary ordinary holds deepEnough rfl (fits_of_unmerged (split ▸ tree.unmerged))
  · refine read_menu_entries menu holds deepEnough fun u inside is_menu => ?_
    obtain ⟨t,earlier,rfl⟩ := mem_map.mp inside
    rw [restored_system] at is_menu
    have apart := (pairwise_append.mp (split ▸ tree.single)).2.2 t earlier child mem_cons_self
    obtain ⟨own,-,-⟩ := menu
    exact apart ⟨is_menu,rfl⟩

def withActions (top : List Node) : Settings :=
  { Settings.reinitialized with actions := .group .SYSTEM_ROOT ⟨"","",true,"",false,[]⟩ top }

def named (name : String) : ActionDataBase := ⟨name,"",true,"",false,[]⟩

/-- A group that allows it is merged into its sibling. -/
example : ((Settings.reread_settings (writeTo (withActions [KMenuEdit,.group .SYSTEM_NONE (named "Office") [],
    .group .SYSTEM_NONE { named "Office" with allowMerging := true } []])) 1 .reinitialized).map
      fun r => r.1.actions.children) = some [KMenuEdit,.group .SYSTEM_NONE (named "Office") []] := rfl

end KdeWorkspace.HotkeySettings
