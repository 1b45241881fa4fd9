import KdeWorkspace.Conditions
import Mathlib.Data.List.Nodup

/-!
Which trees of conditions are read as they have been written.

What is written in groups that all differ can be read. The groups of a tree differ when no child that has children
itself shares its number with the beginning of another child's: `reread_iff`.
-/
namespace KdeWorkspace.Conditions
open List
open Configs (Config)
open Decimals (number)

theorem Windowdef_simple.read_written (w : Windowdef_simple) {cfg : Name} {config d : KConfig}
    (agree : Config.Agree [cfg] (w.cfg_write cfg config) d) : create_cfg_read d cfg = some w := by
  have member : cfg ∈ [cfg] := mem_singleton.mpr rfl
  simp only [create_cfg_read,cfg_read,readText_eq agree member,readInt_eq agree member]
  simp [cfg_write,readText,readInt]

namespace Windowdef_list

theorem read_windows_written {cfg : Name} (windows : List Windowdef_simple) {i : Nat} {config d : KConfig}
    (differ : (window_groups cfg i windows).Nodup)
    (agree : Config.Agree (window_groups cfg i windows) (write_windows cfg i windows config) d) :
    read_windows d cfg i windows.length = windows := by
  induction windows generalizing i config with
  | nil => rfl
  | cons w windows ih =>
    simp only [window_groups,nodup_cons] at differ
    have kept : Config.Agree [cfg++number i] (w.cfg_write (cfg++number i) config)
        (write_windows cfg (i+1) windows (w.cfg_write (cfg++number i) config)) :=
      write_windows_apart windows (fun g member => by
        rw [mem_singleton]
        exact fun same => differ.1 (same ▸ member)) (Config.Agree.refl _ _)
    have first := w.read_written (kept.trans (agree.mono (by simp [window_groups])))
    have rest := ih differ.2 (agree.mono (by simp [window_groups]))
    simp [read_windows,first,rest]

theorem read_written (l : Windowdef_list) {cfg : Name} {config d : KConfig} (differ : (l.groups cfg).Nodup)
    (agree : Config.Agree (l.groups cfg) (l.cfg_write cfg config) d) : cfg_read d cfg = l := by
  simp only [groups,nodup_cons] at differ
  have member : cfg ∈ l.groups cfg := mem_cons_self
  have kept : Config.Agree (window_groups cfg 0 l.windows) (write_windows cfg 0 l.windows config)
      (l.cfg_write cfg config) :=
    ((Config.Agree.refl _ _).write _ _ differ.1).write _ _ differ.1
  have windows := read_windows_written l.windows differ.2 (kept.trans (agree.mono (subset_cons_self _ _)))
  have count : readInt (l.cfg_write cfg config) cfg "WindowsCount" 0 = l.windows.length := by simp [cfg_write,readInt]
  have comment : readText (l.cfg_write cfg config) cfg "Comment" = l.comment := by simp [cfg_write,readText]
  simp only [cfg_read,readText_eq agree member,readInt_eq agree member,count,comment,Int.toNat_natCast,windows]

end Windowdef_list

namespace Condition

theorem kind_read (kind : WindowCondition) (d : KConfig) (depth : Nat) (cfg : Name)
    (type : readText d cfg "Type" = kind.type) :
    create_cfg_read d (depth+1) cfg = some (some (window kind (Windowdef_list.cfg_read d (windowGroup cfg)))) := by
  cases kind with
  | ACTIVE_WINDOW => simp [create_cfg_read,type,WindowCondition.type]
  | EXISTING_WINDOW => simp [create_cfg_read,type,WindowCondition.type]

theorem list_read (kind : ListCondition) (d : KConfig) (depth : Nat) (cfg : Name)
    (type : readText d cfg "Type" = kind.type) :
    create_cfg_read d (depth+1) cfg =
      (read_children (create_cfg_read d depth) cfg 0 (readInt d cfg "ConditionsCount" 0).toNat).map
        fun children => some (list kind children) := by
  cases kind with
  | NOT => simp [create_cfg_read,type,ListCondition.type]
  | AND => simp [create_cfg_read,type,ListCondition.type]
  | OR => simp [create_cfg_read,type,ListCondition.type]

mutual
theorem read_written : ∀ (t : Condition) {cfg : Name} {config d : KConfig} {deep : Nat}, (t.groups cfg).Nodup →
    Config.Agree (t.groups cfg) (t.cfg_write cfg config) d → t.depth ≤ deep → create_cfg_read d deep cfg = some (some t)
  | window kind w, cfg, config, d, 0, differ, agree, enough => by simp [depth] at enough
  | window kind w, cfg, config, d, deep+1, differ, agree, enough => by
    simp only [groups,nodup_cons] at differ
    have type : readText ((window kind w).cfg_write cfg config) cfg "Type" = kind.type := by
      simp [cfg_write,readText]
    rw [← readText_eq agree (mem_cons_self ..)] at type
    have kept : Config.Agree (w.groups (windowGroup cfg))
        (w.cfg_write (windowGroup cfg) (config.write cfg "Type" (.text "ERROR")))
        ((window kind w).cfg_write cfg config) := by
      simp only [cfg_write]
      exact (Config.Agree.refl _ _).write _ _ differ.1
    have windows := w.read_written differ.2 (kept.trans (agree.mono (by simp [groups])))
    rw [kind_read kind d deep cfg type,windows]
  | list kind children, cfg, config, d, 0, differ, agree, enough => by simp [depth] at enough
  | list kind children, cfg, config, d, deep+1, differ, agree, enough => by
    simp only [groups,nodup_cons] at differ
    have type : readText ((list kind children).cfg_write cfg config) cfg "Type" = kind.type := by
      simp [cfg_write,readText]
    rw [← readText_eq agree (mem_cons_self ..)] at type
    have count : readInt ((list kind children).cfg_write cfg config) cfg "ConditionsCount" 0 = children.length := by
      simp [cfg_write,readInt]
    rw [← readInt_eq agree (mem_cons_self ..)] at count
    have kept : Config.Agree (child_groups children cfg 0) (write_children children cfg 0 config)
        ((list kind children).cfg_write cfg config) := by
      simp only [cfg_write]
      exact ((Config.Agree.refl _ _).write _ _ differ.1).write _ _ differ.1
    have all := read_children_written children differ.2 (kept.trans (agree.mono (by simp [groups])))
      (show depths children ≤ deep by simpa [depth] using enough)
    rw [list_read kind d deep cfg type,count,Int.toNat_natCast,all]
    rfl

theorem read_children_written : ∀ (children : List Condition) {cfg : Name} {i : Nat} {config d : KConfig}
    {deep : Nat}, (child_groups children cfg i).Nodup →
    Config.Agree (child_groups children cfg i) (write_children children cfg i config) d → depths children ≤ deep →
      read_children (create_cfg_read d deep) cfg i children.length = some children
  | [], cfg, i, config, d, deep, differ, agree, enough => rfl
  | child :: children, cfg, i, config, d, deep, differ, agree, enough => by
    simp only [child_groups,nodup_append] at differ
    obtain ⟨own,others,apart⟩ := differ
    simp only [depths,Nat.max_le] at enough
    have kept : Config.Agree (child.groups (cfg++number i)) (child.cfg_write (cfg++number i) config)
        (write_children (child :: children) cfg i config) := by
      refine write_children_apart children (fun g member first => ?_) (Config.Agree.refl _ _)
      exact apart g first g member rfl
    have first := child.read_written own (kept.trans (agree.mono (by simp [child_groups]))) enough.1
    have rest := read_children_written children others (agree.mono (by simp [child_groups])) enough.2
    simp [read_children,first,rest]
end

end Condition

theorem Condition_list.read_written (l : Condition_list) {cfg : Name} {config d : KConfig} {deep : Nat}
    (differ : (l.groups cfg).Nodup) (agree : Config.Agree (l.groups cfg) (l.cfg_write cfg config) d)
    (enough : l.depth ≤ deep) : cfg_read d deep cfg = some l := by
  simp only [groups,nodup_cons] at differ
  have member : cfg ∈ l.groups cfg := mem_cons_self
  have kept : Config.Agree (Condition.child_groups l.children cfg 0) (Condition.write_children l.children cfg 0 config)
      (l.cfg_write cfg config) :=
    ((Config.Agree.refl _ _).write _ _ differ.1).write _ _ differ.1
  have children := Condition.read_children_written l.children differ.2
    (kept.trans (agree.mono (subset_cons_self _ _))) enough
  have count : readInt (l.cfg_write cfg config) cfg "ConditionsCount" 0 = l.children.length := by
    simp [cfg_write,readInt]
  have comment : readText (l.cfg_write cfg config) cfg "Comment" = l.comment := by simp [cfg_write,readText]
  simp [cfg_read,readText_eq agree member,readInt_eq agree member,count,comment,children]

namespace Condition

/-- The children of a list; a window condition has none. -/
def children : Condition → List Condition
  | window _ _ => []
  | list _ children => children

/-- Of the siblings from number `i` on, none with children has a number with which another's begins. -/
def ApartFrom (i : Nat) (siblings : List Condition) : Prop :=
  ∀ j child, siblings[j]? = some child → 1 ≤ i+j → 10*(i+j) < i+siblings.length → child.children = []

def Apart (siblings : List Condition) : Prop := ApartFrom 0 siblings

inductive Separate : Condition → Prop
  | window (kind : WindowCondition) (w : Windowdef_list) : Separate (window kind w)
  | list (kind : ListCondition) {children : List Condition} (apart : Apart children)
    (each : ∀ child ∈ children, Separate child) : Separate (list kind children)

end Condition

theorem Windowdef_list.window_groups_append (p q : Name) (windows : List Windowdef_simple) (i : Nat) :
    window_groups (p++q) i windows = (window_groups q i windows).map (p++·) := by
  induction windows generalizing i with
  | nil => rfl
  | cons w windows ih => simp [window_groups,ih]

theorem Windowdef_list.nodup_window_groups (cfg : Name) (windows : List Windowdef_simple) (i : Nat) :
    (window_groups cfg i windows).Nodup := by
  induction windows generalizing i with
  | nil => exact nodup_nil
  | cons w windows ih =>
    refine nodup_cons.mpr ⟨fun member => ?_,ih (i+1)⟩
    obtain ⟨j,le,same⟩ := mem_window_groups member
    have equal := Decimals.number_injective (append_cancel_left same)
    omega

theorem Windowdef_list.nodup_groups (l : Windowdef_list) (cfg : Name) : (l.groups cfg).Nodup := by
  refine nodup_cons.mpr ⟨fun member => ?_,nodup_window_groups cfg l.windows 0⟩
  obtain ⟨j,-,same⟩ := mem_window_groups member
  exact Decimals.number_ne_nil j (self_eq_append_right.mp same)

theorem Windowdef_list.mem_groups {l : Windowdef_list} {cfg g : Name} (member : g ∈ l.groups (windowGroup cfg)) :
    ∃ rest, g = cfg++('W' :: rest) := by
  rcases mem_cons.mp member with own | window
  · exact ⟨_,own⟩
  · obtain ⟨j,-,named⟩ := mem_window_groups window
    exact ⟨_,named.trans (append_assoc _ _ _)⟩

namespace Condition

mutual
theorem groups_append : ∀ (t : Condition) (p q : Name), t.groups (p++q) = (t.groups q).map (p++·)
  | window kind w, p, q => by
    have name : windowGroup (p++q) = p++windowGroup q := append_assoc _ _ _
    simp [groups,Windowdef_list.groups,name,Windowdef_list.window_groups_append]
  | list kind children, p, q => by simp [groups,child_groups_append children p q 0]

theorem child_groups_append : ∀ (children : List Condition) (p q : Name) (i : Nat),
    child_groups children (p++q) i = (child_groups children q i).map (p++·)
  | [], p, q, i => rfl
  | child :: children, p, q, i => by
    simp [child_groups,append_assoc,groups_append child p (q++number i),child_groups_append children p q (i+1)]
end

theorem mem_groups_self (t : Condition) (cfg : Name) : cfg ∈ t.groups cfg := by
  cases t with
  | window kind w => simp [groups]
  | list kind children => simp [groups]

theorem mem_groups {t : Condition} {cfg g : Name} (member : g ∈ t.groups cfg) :
    ∃ rest, rest ∈ t.groups [] ∧ g = cfg++rest := by
  have from_root := groups_append t cfg []
  rw [append_nil] at from_root
  rw [from_root,mem_map] at member
  obtain ⟨rest,inside,named⟩ := member
  exact ⟨rest,inside,named.symm⟩

theorem mem_groups_of {t : Condition} (cfg : Name) {rest : Name} (member : rest ∈ t.groups []) :
    cfg++rest ∈ t.groups cfg := by
  have from_root := groups_append t cfg []
  rw [append_nil] at from_root
  rw [from_root]
  exact mem_map_of_mem member

theorem nodup_groups_append (t : Condition) (cfg : Name) : (t.groups cfg).Nodup ↔ (t.groups []).Nodup := by
  have from_root := groups_append t cfg []
  rw [append_nil] at from_root
  rw [from_root,nodup_map_iff (append_right_injective cfg)]

theorem mem_child_groups {children : List Condition} {cfg g : Name} {i : Nat} :
    g ∈ child_groups children cfg i ↔
      ∃ j, ∃ child : Condition, children[j]? = some child ∧ g ∈ child.groups (cfg++number (i+j)) := by
  induction children generalizing i with
  | nil => simp [child_groups]
  | cons child children ih =>
    rw [child_groups,mem_append,ih]
    constructor
    · rintro (first | ⟨j,other,found,member⟩)
      · exact ⟨0,child,rfl,first⟩
      · exact ⟨j+1,other,found,by rwa [show i+(j+1) = i+1+j by omega]⟩
    · rintro ⟨j,other,found,member⟩
      cases j with
      | zero =>
        cases found
        exact .inl member
      | succ j => exact .inr ⟨j,other,found,by rwa [show i+1+j = i+(j+1) by omega]⟩

theorem mem_child_groups_name {children : List Condition} {cfg g : Name} {i : Nat}
    (member : g ∈ child_groups children cfg i) : ∃ j rest, g = cfg++(number j++rest) := by
  obtain ⟨j,child,-,inside⟩ := mem_child_groups.mp member
  obtain ⟨rest,-,named⟩ := mem_groups inside
  exact ⟨i+j,rest,named.trans (append_assoc _ _ _)⟩

theorem children_of_digit {t : Condition} {c : Char} {rest : Name} (member : c :: rest ∈ t.groups [])
    (digit : c.isDigit) : t.children ≠ [] := by
  cases t with
  | window kind w =>
    simp only [groups,mem_cons,reduceCtorEq,false_or] at member
    obtain ⟨other,named⟩ := Windowdef_list.mem_groups member
    injection named with letter
    rw [letter] at digit
    exact absurd digit (by decide)
  | list kind children =>
    intro none
    have nothing : children = [] := none
    simp [groups,nothing,child_groups] at member

theorem disjoint_iff (child : Condition) (children : List Condition) (cfg : Name) (i : Nat) :
    (∀ g ∈ child.groups (cfg++number i), g ∉ child_groups children cfg (i+1)) ↔
      (1 ≤ i → 10*i < i+(children.length+1) → child.children = []) := by
  constructor
  · intro apart positive bound
    by_contra some
    obtain ⟨k,number_k⟩ := Nat.exists_eq_add_of_le (show i+1 ≤ 10*i by omega)
    obtain ⟨grandchild,rest,children_eq⟩ := exists_cons_of_ne_nil some
    have own : cfg++number i++number 0 ∈ child.groups (cfg++number i) := by
      apply mem_groups_of
      cases child with
      | window kind w => exact absurd rfl some
      | list kind inner =>
        have inner_eq : inner = grandchild :: rest := children_eq
        simp [groups,inner_eq,child_groups,mem_groups_self]
    have inBounds : k < children.length := by omega
    refine apart _ own (mem_child_groups.mpr ⟨k,children[k],getElem?_eq_getElem inBounds,?_⟩)
    rw [← number_k,Decimals.number_ten positive,append_assoc]
    exact mem_groups_self _ _
  · intro apart g member later
    obtain ⟨j,other,found,inside⟩ := mem_child_groups.mp later
    obtain ⟨s,short,first⟩ := mem_groups member
    obtain ⟨t,-,second⟩ := mem_groups inside
    have same : number i++s = number (i+1+j)++t := by
      have whole : cfg++(number i++s) = cfg++(number (i+1+j)++t) := by
        rw [← append_assoc,← append_assoc,← first,second]
      exact append_cancel_left whole
    obtain ⟨positive,bound,c,rest,begins,digit⟩ := Decimals.number_append (by omega) same
    have inBounds := (List.getElem?_eq_some_iff.mp found).1
    rw [begins] at short
    exact children_of_digit short digit (apart positive (by omega))

theorem apartFrom_cons (child : Condition) (children : List Condition) (i : Nat) :
    ApartFrom i (child :: children) ↔
      (1 ≤ i → 10*i < i+(children.length+1) → child.children = []) ∧ ApartFrom (i+1) children := by
  constructor
  · intro apart
    refine ⟨apart 0 child rfl,fun j other found positive bound => ?_⟩
    refine apart (j+1) other found (by omega) ?_
    rw [length_cons]
    omega
  · rintro ⟨first,later⟩ j other found positive bound
    rw [length_cons] at bound
    cases j with
    | zero =>
      cases found
      exact first positive bound
    | succ j => exact later j other found (by omega) (by omega)

theorem nodup_child_groups (children : List Condition) (cfg : Name) (i : Nat) :
    (child_groups children cfg i).Nodup ↔ (∀ child ∈ children, (child.groups []).Nodup) ∧ ApartFrom i children := by
  induction children generalizing i with
  | nil =>
    refine ⟨fun _ => ⟨fun _ member => absurd member (by simp),fun j child found => ?_⟩,fun _ => nodup_nil⟩
    simp at found
  | cons child children ih =>
    have disjoint : (∀ a ∈ child.groups (cfg++number i), ∀ b ∈ child_groups children cfg (i+1), a ≠ b) ↔
        ∀ g ∈ child.groups (cfg++number i), g ∉ child_groups children cfg (i+1) :=
      ⟨fun apart g first later => apart g first g later rfl,
        fun apart a first b later same => apart a first (same ▸ later)⟩
    rw [child_groups,nodup_append,disjoint,disjoint_iff,ih,nodup_groups_append,apartFrom_cons, forall_mem_cons]
    tauto

mutual
theorem nodup_groups : ∀ (t : Condition) (cfg : Name), (t.groups cfg).Nodup ↔ Separate t
  | window kind w, cfg => by
    refine ⟨fun _ => .window kind w,fun _ => nodup_cons.mpr ⟨fun member => ?_,w.nodup_groups _⟩⟩
    obtain ⟨rest,same⟩ := Windowdef_list.mem_groups member
    exact absurd (self_eq_append_right.mp same) (cons_ne_nil _ _)
  | list kind children, cfg => by
    have own : cfg ∉ child_groups children cfg 0 := fun member => by
      obtain ⟨j,rest,same⟩ := mem_child_groups_name member
      exact absurd (self_eq_append_right.mp same) (by simp [Decimals.number_ne_nil])
    rw [groups,nodup_cons,nodup_child_groups]
    constructor
    · rintro ⟨-,each,apart⟩
      exact .list kind apart fun child member => (nodup_each children child member []).mp (each child member)
    · rintro (_ | ⟨_,apart,each⟩)
      exact ⟨own,fun child member => (nodup_each children child member []).mpr (each child member),apart⟩

theorem nodup_each : ∀ (children : List Condition), ∀ child ∈ children, ∀ cfg : Name,
    (child.groups cfg).Nodup ↔ Separate child
  | [], child, member, cfg => absurd member (by simp)
  | first :: children, child, member, cfg => by
    rcases mem_cons.mp member with same | later
    · rw [same]
      exact nodup_groups first cfg
    · exact nodup_each children child later cfg
end

end Condition

namespace Condition_list

def Separate (l : Condition_list) : Prop := Condition.Apart l.children ∧ ∀ child ∈ l.children, Condition.Separate child

theorem nodup_groups (l : Condition_list) (cfg : Name) : (l.groups cfg).Nodup ↔ l.Separate := by
  have own : cfg ∉ Condition.child_groups l.children cfg 0 := fun member => by
    obtain ⟨j,rest,same⟩ := Condition.mem_child_groups_name member
    exact absurd (self_eq_append_right.mp same) (by simp [Decimals.number_ne_nil])
  rw [groups,nodup_cons,Condition.nodup_child_groups]
  constructor
  · rintro ⟨-,each,apart⟩
    exact ⟨apart,fun child member => (child.nodup_groups []).mp (each child member)⟩
  · rintro ⟨apart,each⟩
    exact ⟨own,fun child member => (child.nodup_groups []).mpr (each child member),apart⟩

/-- What is read from the configuration to which alone the tree has been written is the tree, and no two of its parts
have been written to one group. -/
def Reread (l : Condition_list) (cfg : Name) : Prop :=
  (∀ deep, l.depth ≤ deep → cfg_read (l.cfg_write cfg .empty) deep cfg = some l) ∧ (l.groups cfg).Nodup

theorem reread_iff (l : Condition_list) (cfg : Name) : l.Reread cfg ↔ l.Separate := by
  constructor
  · rintro ⟨-,differ⟩
    exact (l.nodup_groups cfg).mp differ
  · intro separate
    have differ := (l.nodup_groups cfg).mpr separate
    exact ⟨fun deep enough => l.read_written differ (Config.Agree.refl _ _) enough,differ⟩

/-- Eleven conditions, the second of which has a child. -/
def eleven (inner : Condition) : Condition_list :=
  ⟨"",[.list .AND [],.list .AND [inner]]++List.replicate 8 (.list .AND [])++[.list .OR []]⟩

/-- The first child of child 1 is read as child 10. -/
theorem tenth_overwrites :
    cfg_read ((eleven (.list .AND [])).cfg_write ['C'] .empty) (eleven (.list .AND [])).depth ['C'] =
        some (eleven (.list .OR [])) ∧
      ¬(eleven (.list .AND [])).Reread ['C'] := by
  have read : cfg_read ((eleven (.list .AND [])).cfg_write ['C'] .empty) (eleven (.list .AND [])).depth ['C'] =
      some (eleven (.list .OR [])) := rfl
  refine ⟨read,fun reread => ?_⟩
  have same := reread.1 _ (Nat.le_refl _)
  rw [read] at same
  simp [eleven] at same

end Condition_list
end KdeWorkspace.Conditions
