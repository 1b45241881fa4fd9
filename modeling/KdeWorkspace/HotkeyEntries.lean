import KdeWorkspace.HotkeySettings

/-!
What the configuration holds for a tree of actions and groups that has been written.

The groups of an object are its own and those whose names go on without a digit, so that two children have none in
common: `inside_child`.
-/
namespace KdeWorkspace.HotkeySettings
open List
open Configs (Config)
open Conditions (Name Value KConfig readText readInt readBool)
open Decimals (number)
open Node

def Inside (cfg g : Name) : Prop := ∃ rest : Name, g = cfg++rest ∧ ∀ c ∈ rest.head?, c.isDigit = false

theorem inside_self (cfg : Name) : Inside cfg cfg := ⟨[],(append_nil cfg).symm,by simp⟩

theorem inside_of_child {cfg g : Name} {i : Nat} (inside : Inside (childGroup cfg i) g) : Inside cfg g := by
  obtain ⟨rest,named,-⟩ := inside
  exact ⟨'_' :: number i++rest,by simpa [childGroup] using named,by simp⟩

theorem inside_part (cfg rest : Name) (part : Part) : Inside cfg (cfg++part.suffix++rest) := by
  refine ⟨part.suffix++rest,append_assoc _ _ _,?_⟩
  cases part with
  | Conditions => simp [Part.suffix]
  | Triggers => simp [Part.suffix]
  | Actions => simp [Part.suffix]

theorem inside_child {cfg g : Name} {i j : Nat} (first : Inside (childGroup cfg i) g)
    (second : Inside (childGroup cfg j) g) : i = j := by
  obtain ⟨s,named,noDigit⟩ := first
  obtain ⟨t,named',noDigit'⟩ := second
  have same : number i++s = number j++t := by
    have whole := named.symm.trans named'
    simpa [childGroup] using whole
  rcases Nat.lt_trichotomy i j with less | equal | more
  · obtain ⟨-,-,c,rest,begins,digit⟩ := Decimals.number_append less same
    rw [noDigit c (by simp [begins])] at digit
    cases digit
  · exact equal
  · obtain ⟨-,-,c,rest,begins,digit⟩ := Decimals.number_append more same.symm
    rw [noDigit' c (by simp [begins])] at digit
    cases digit

theorem not_inside_child (cfg : Name) (i : Nat) : ¬Inside (childGroup cfg i) cfg := by
  rintro ⟨rest,named,-⟩
  have length := congrArg length named
  simp [childGroup] at length

theorem part_ne (cfg rest : Name) (part : Part) : cfg++part.suffix++rest ≠ cfg := by
  intro same
  have length := congrArg length same
  cases part with
  | Conditions => simp [Part.suffix] at length
  | Triggers => simp [Part.suffix] at length
  | Actions => simp [Part.suffix] at length

theorem part_not_inside_child (cfg rest : Name) (part : Part) (i : Nat) :
    ¬Inside (childGroup cfg i) (cfg++part.suffix++rest) := by
  rintro ⟨other,named,-⟩
  cases part with
  | Conditions => simp [childGroup,Part.suffix] at named
  | Triggers => simp [childGroup,Part.suffix] at named
  | Actions => simp [childGroup,Part.suffix] at named

mutual
/-- The groups of the objects of a tree, without those of their parts. -/
def names : Node → Name → List Name
  | action _ _, cfg => [cfg]
  | group _ _ children, cfg => cfg :: child_names children cfg 1

def child_names : List Node → Name → Nat → List Name
  | [], _, _ => []
  | child :: children, cfg, i => names child (childGroup cfg i)++child_names children cfg (i+1)
end

mutual
theorem inside_of_names : ∀ (t : Node) {cfg g : Name}, g ∈ names t cfg → Inside cfg g
  | action type base, cfg, g, member => by
    rw [mem_singleton.mp member]
    exact inside_self cfg
  | group system base children, cfg, g, member => by
    rcases mem_cons.mp member with own | below
    · rw [own]
      exact inside_self cfg
    · obtain ⟨j,-,inside⟩ := inside_of_child_names children below
      exact inside_of_child inside

theorem inside_of_child_names : ∀ (children : List Node) {cfg g : Name} {i : Nat},
    g ∈ child_names children cfg i → ∃ j, i ≤ j ∧ Inside (childGroup cfg j) g
  | [], cfg, g, i, member => absurd member (by simp [child_names])
  | child :: children, cfg, g, i, member => by
    rcases mem_append.mp member with first | later
    · exact ⟨i,Nat.le_refl i,inside_of_names child first⟩
    · obtain ⟨j,le,inside⟩ := inside_of_child_names children later
      exact ⟨j,by omega,inside⟩
end

theorem names_self (t : Node) (cfg : Name) : cfg ∈ names t cfg := by
  cases t with
  | action type base => simp [names]
  | group system base children => simp [names]

section
variable {others : List Name} {config d : KConfig} {cfg : Name}

theorem parts_apart (entries : List PartEntry) (apart : ∀ e ∈ entries, cfg++e.part.suffix++e.rest ∉ others)
    (agree : Config.Agree others d config) : Config.Agree others d
      (entries.foldl (fun config e => config.write (cfg++e.part.suffix++e.rest) e.key e.value) config) := by
  induction entries generalizing config with
  | nil => exact agree
  | cons e entries ih =>
    rw [forall_mem_cons] at apart
    exact ih apart.2 (agree.write _ _ apart.1)

theorem visitActionDataBase_apart (base : ActionDataBase) (apart : ∀ g ∈ others, ¬Inside cfg g)
    (agree : Config.Agree others d config) : Config.Agree others d (visitActionDataBase base cfg config) := by
  have own : cfg ∉ others := fun member => apart cfg member (inside_self cfg)
  exact parts_apart base.parts (fun e _ member => apart _ member (inside_part cfg e.rest e.part))
    ((((agree.write _ _ own).write _ _ own).write _ _ own).write _ _ own)

theorem group_apart (system : system_group_t) (base : ActionDataBase) (children : List Node) {before : KConfig}
    (own : cfg ∉ others)
    (agree : Config.Agree others d (visit_children children cfg 1 (((visitActionDataBase base cfg before).write cfg
      "SystemGroup" (.int system.toInt)).write cfg "Type" (.text "ACTION_DATA_GROUP")))) :
    Config.Agree others d (visit (group system base children) cfg before) := by
  have counted := agree.write "DataCount" (.int children.length) own
  simp only [visit]
  split_ifs
  · exact (counted.write _ _ own).write _ _ own
  · exact counted.write _ _ own
  · exact counted.write _ _ own
  · exact counted
end

mutual
theorem visit_apart : ∀ (t : Node) {others : List Name} {config d : KConfig} {cfg : Name},
    (∀ g ∈ others, ¬Inside cfg g) → Config.Agree others d config → Config.Agree others d (visit t cfg config)
  | action type base, others, config, d, cfg, apart, agree => by
    have own : cfg ∉ others := fun member => apart cfg member (inside_self cfg)
    exact (visitActionDataBase_apart base apart agree).write _ _ own
  | group system base children, others, config, d, cfg, apart, agree => by
    have own : cfg ∉ others := fun member => apart cfg member (inside_self cfg)
    have first := ((visitActionDataBase_apart base apart agree).write "SystemGroup" (.int system.toInt) own).write
      "Type" (.text "ACTION_DATA_GROUP") own
    have all := visit_children_apart children (i := 1)
      (fun g member j _ inside => apart g member (inside_of_child inside)) first
    exact group_apart system base children own all

theorem visit_children_apart : ∀ (children : List Node) {others : List Name} {config d : KConfig} {cfg : Name}
    {i : Nat}, (∀ g ∈ others, ∀ j, i ≤ j → ¬Inside (childGroup cfg j) g) → Config.Agree others d config →
      Config.Agree others d (visit_children children cfg i config)
  | [], others, config, d, cfg, i, apart, agree => agree
  | child :: children, others, config, d, cfg, i, apart, agree => by
    have first := visit_apart child (fun g member => apart g member i (Nat.le_refl i)) agree
    exact visit_children_apart children (fun g member j le => apart g member j (by omega)) first
end

mutual
/-- The entries of a tree. -/
def Holds : Node → Name → KConfig → Prop
  | action type base, cfg, d => readText d cfg "Type" = type.text ∧
      readBase d cfg = { base with enabled := false, importId := "", allowMerging := false, parts := [] } ∧
      readBool d cfg "Enabled" false = base.enabled
  | group system base children, cfg, d => readText d cfg "Type" = "ACTION_DATA_GROUP" ∧
      readBase d cfg = { base with enabled := false, parts := [] } ∧
      readBool d cfg "Enabled" false = base.enabled ∧ readInt d cfg "SystemGroup" 0 = system.toInt ∧
      readInt d cfg "DataCount" 0 = children.length ∧ Holds_children children cfg 1 d

def Holds_children : List Node → Name → Nat → KConfig → Prop
  | [], _, _, _ => True
  | child :: children, cfg, i, d => Holds child (childGroup cfg i) d ∧ Holds_children children cfg (i+1) d
end

theorem read_visitActionDataBase (base : ActionDataBase) (cfg : Name) (config : KConfig) (key : String) :
    (visitActionDataBase base cfg config).read cfg key =
      if "Enabled" = key then some (.bool base.enabled) else if "Comment" = key then some (.text base.comment)
      else if "Name" = key then some (.text base.name) else if "Type" = key then some (.text "ERROR")
      else config.read cfg key := by
  have own := Config.Agree.refl [cfg] ((((config.write cfg "Type" (.text "ERROR")).write cfg "Name"
    (.text base.name)).write cfg "Comment" (.text base.comment)).write cfg "Enabled" (.bool base.enabled))
  have parts := parts_apart base.parts
    (fun e _ member => part_ne cfg e.rest e.part (mem_singleton.mp member)) own
  rw [visitActionDataBase,← parts.read cfg (mem_singleton.mpr rfl) key]
  simp

theorem read_visit_group (system : system_group_t) (base : ActionDataBase) (children : List Node) (cfg : Name)
    (config : KConfig) (key : String) :
    (visit (group system base children) cfg config).read cfg key =
      if "AllowMerge" = key ∧ base.allowMerging = true then some (.bool true)
      else if "ImportId" = key ∧ base.importId ≠ "" then some (.text base.importId)
      else if "DataCount" = key then some (.int children.length)
      else if "Type" = key then some (.text "ACTION_DATA_GROUP")
      else if "SystemGroup" = key then some (.int system.toInt)
      else (visitActionDataBase base cfg config).read cfg key := by
  have own := Config.Agree.refl [cfg] (((visitActionDataBase base cfg config).write cfg "SystemGroup"
    (.int system.toInt)).write cfg "Type" (.text "ACTION_DATA_GROUP"))
  have apart : ∀ g ∈ [cfg], ∀ j, 1 ≤ j → ¬Inside (childGroup cfg j) g := fun g member j _ inside => by
    rw [mem_singleton.mp member] at inside
    exact not_inside_child cfg j inside
  have below := visit_children_apart children apart own
  have same := below.read cfg (mem_singleton.mpr rfl) key
  by_cases allow : base.allowMerging = true
  · by_cases id : base.importId = ""
    · simp [visit,allow,id,← same]
    · simp [visit,allow,id,← same]
  · by_cases id : base.importId = ""
    · simp [visit,allow,id,← same]
    · simp [visit,allow,id,← same]

mutual
theorem holds_written : ∀ (t : Node) {cfg : Name} {config d : KConfig},
    (∀ g ∈ names t cfg, ∀ key, config.read g key = none) → Config.Agree (names t cfg) (visit t cfg config) d →
      Holds t cfg d
  | action type base, cfg, config, d, fresh, agree => by
    have same := agree.read cfg (names_self _ _)
    have empty := fresh cfg (names_self _ _)
    refine ⟨?_,?_,?_⟩
    · simp [readText,← same,visit]
    · simp [readBase,readText,readBool,← same,visit,read_visitActionDataBase,empty]
    · simp [readBool,← same,visit,read_visitActionDataBase]
  | group system base children, cfg, config, d, fresh, agree => by
    have same := agree.read cfg (names_self _ _)
    have empty := fresh cfg (names_self _ _)
    have own : cfg ∉ child_names children cfg 1 := fun member => by
      obtain ⟨j,-,inside⟩ := inside_of_child_names children member
      exact not_inside_child cfg j inside
    have before : Config.Agree (child_names children cfg 1) config (((visitActionDataBase base cfg config).write cfg
        "SystemGroup" (.int system.toInt)).write cfg "Type" (.text "ACTION_DATA_GROUP")) := by
      refine Config.Agree.write _ _ (Config.Agree.write _ _ ?_ own) own
      refine parts_apart base.parts (fun e _ member => ?_)
        (((((Config.Agree.refl _ _).write _ _ own).write _ _ own).write _ _ own).write _ _ own)
      obtain ⟨j,-,inside⟩ := inside_of_child_names children member
      exact part_not_inside_child cfg e.rest e.part j inside
    have after : Config.Agree (child_names children cfg 1) (visit_children children cfg 1
        (((visitActionDataBase base cfg config).write cfg "SystemGroup" (.int system.toInt)).write cfg "Type"
          (.text "ACTION_DATA_GROUP"))) (visit (group system base children) cfg config) :=
      group_apart system base children own (Config.Agree.refl _ _)
    have below := holds_children_written children (i := 1)
      (fun g member key => by
        rw [← before.read g member key]
        exact fresh g (mem_cons_of_mem _ member) key)
      (after.trans (agree.mono (subset_cons_self _ _)))
    refine ⟨?_,?_,?_,?_,?_,below⟩
    · simp [readText,← same,read_visit_group]
    · by_cases allow : base.allowMerging = true
      · by_cases id : base.importId = ""
        · simp [readBase,readText,readBool,← same,read_visit_group,read_visitActionDataBase,empty,allow,id]
        · simp [readBase,readText,readBool,← same,read_visit_group,read_visitActionDataBase,allow,id]
      · by_cases id : base.importId = ""
        · simp [readBase,readText,readBool,← same,read_visit_group,read_visitActionDataBase,empty,allow,id]
        · simp [readBase,readText,readBool,← same,read_visit_group,read_visitActionDataBase,empty,allow,id]
    · simp [readBool,← same,read_visit_group,read_visitActionDataBase]
    · simp [readInt,← same,read_visit_group]
    · simp [readInt,← same,read_visit_group]

theorem holds_children_written : ∀ (children : List Node) {cfg : Name} {i : Nat} {config d : KConfig},
    (∀ g ∈ child_names children cfg i, ∀ key, config.read g key = none) →
    Config.Agree (child_names children cfg i) (visit_children children cfg i config) d → Holds_children children cfg i d
  | [], cfg, i, config, d, fresh, agree => trivial
  | child :: children, cfg, i, config, d, fresh, agree => by
    have apart : ∀ g ∈ names child (childGroup cfg i), ∀ j, i+1 ≤ j → ¬Inside (childGroup cfg j) g := by
      intro g member j le inside
      have equal := inside_child (inside_of_names child member) inside
      omega
    have kept := visit_children_apart children apart (Config.Agree.refl _ (visit child (childGroup cfg i) config))
    have first := holds_written child (fun g member => fresh g (by simp [child_names,member]))
      (kept.trans (agree.mono (by simp [child_names])))
    have untouched : Config.Agree (child_names children cfg (i+1)) config (visit child (childGroup cfg i) config) := by
      refine visit_apart child (fun g member inside => ?_) (Config.Agree.refl _ _)
      obtain ⟨j,le,other⟩ := inside_of_child_names children member
      have equal := inside_child inside other
      omega
    refine ⟨first,holds_children_written children (fun g member key => ?_) (agree.mono (by simp [child_names]))⟩
    rw [← untouched.read g member key]
    exact fresh g (by simp [child_names,member]) key
end

end KdeWorkspace.HotkeySettings
