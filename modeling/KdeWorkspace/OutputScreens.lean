import KdeWorkspace.Lists
import Mathlib.Data.List.Dedup
import Mathlib.Data.List.Induction

/-!
The outputs of a known section and the screens of a configuration: every output keeps its screen if the layout has it,
the screens that no output is left on are handed out, first to the outputs of one screen the layout does not have, then
to outputs that share a screen.

An output without a screen gets none, and neither do two outputs of one vanished screen get one each, so a screen may
stay without an output (`matchOutputScreens_iff`).
-/
namespace KdeWorkspace.OutputScreens
open Lists List
open Function (update_of_ne update_self)

structure OutputXML where
  name : String
  screen : Int
deriving Repr, DecidableEq

/-- A section of outputs, one entry for each name. -/
structure Outputs where
  outputs : List OutputXML
  names : (outputs.map (·.name)).Nodup

/-- The screens of a layout in the order of their ids. -/
structure Layout where
  keys : List Int
  nodup : keys.Nodup
  nonneg : ∀ screen ∈ keys, 0 ≤ screen

/-- The order in which the elements of a set come to its beginning. -/
structure Orders where
  screens : List Int → List Int
  unknown : List Int → List Int
  cloned : List String → List String
  screens_perm : ∀ set, (screens set).Perm set
  unknown_perm : ∀ set, (unknown set).Perm set
  cloned_perm : ∀ set, (cloned set).Perm set

/-- What is known after a look at some outputs. -/
structure Scan where
  outputScreens : String → Option Int
  unknownScreens : List Int
  takenScreens : List Int
  cloned : List String

def look (screens : List Int) (s : Scan) (output : OutputXML) : Scan :=
  if 0 ≤ output.screen then
    if output.screen ∈ screens then
      { s with
        outputScreens := Function.update s.outputScreens output.name (some output.screen)
        cloned := if output.screen ∈ s.takenScreens then s.cloned.insert output.name else s.cloned
        takenScreens := s.takenScreens.insert output.screen }
    else { s with unknownScreens := s.unknownScreens.insert output.screen }
  else s

def scan (screens : List Int) (outputs : List OutputXML) : Scan := outputs.foldl (look screens) ⟨fun _ => none,[],[],[]⟩

/-- All outputs of one screen go to another. -/
def move (outputs : List OutputXML) (source free : Int) (m : String → Option Int) : String → Option Int :=
  outputs.foldl (fun m output => if output.screen = source then Function.update m output.name (some free) else m) m

def reviveUnknown (outputs : List OutputXML) : List Int → List Int → (String → Option Int) → String → Option Int
  | free :: screens,source :: unknown,m => reviveUnknown outputs screens unknown (move outputs source free m)
  | _,_,m => m

def separateCloned : List Int → List String → (String → Option Int) → String → Option Int
  | free :: screens,o :: cloned,m => separateCloned screens cloned (Function.update m o (some free))
  | _,_,m => m

/-- The screens that are not a value of the map. -/
def freeScreens (outputs : List OutputXML) (m : String → Option Int) (screens : List Int) : List Int :=
  screens.filter fun screen => screen ∉ outputs.filterMap (m ·.name)

/-- First to the vanished screens, then to the outputs that share one. -/
def handOut (outputs : List OutputXML) (s : Scan) (screens unknown : List Int) (cloned : List String) :
    String → Option Int :=
  separateCloned (screens.drop unknown.length) cloned (reviveUnknown outputs screens unknown s.outputScreens)

def matchOutputScreens (orders : Orders) (outputs : List OutputXML) (layout : List Int) : List OutputXML :=
  let s := scan layout outputs
  let outputScreens := handOut outputs s (orders.screens (freeScreens outputs s.outputScreens layout))
    (orders.unknown s.unknownScreens) (orders.cloned s.cloned)
  outputs.map fun output => { output with screen := (outputScreens output.name).getD (-1) }

/-- What is promised of the outputs afterwards. -/
structure Right (outputs : List OutputXML) (layout : List Int) (result : List OutputXML) : Prop where
  names : result.map (·.name) = outputs.map (·.name)
  assigned : ∀ o ∈ result, o.screen ∈ layout ∨ o.screen = -1
  covered : ∀ screen ∈ layout, ∃ o ∈ result, o.screen = screen
  kept : ∀ o ∈ outputs, o.screen ∈ layout → (∀ other ∈ outputs, other.screen = o.screen → other = o) → o ∈ result

/-- The output stays on a screen of the layout. -/
def On (layout : List Int) (o : OutputXML) : Prop := 0 ≤ o.screen ∧ o.screen ∈ layout

instance (layout : List Int) (o : OutputXML) : Decidable (On layout o) := inferInstanceAs (Decidable (_ ∧ _))

/-- The ids of the screens the layout does not have. -/
def vanished (outputs : List OutputXML) (layout : List Int) : List Int :=
  ((outputs.map (·.screen)).filter fun screen => 0 ≤ screen ∧ screen ∉ layout).dedup

variable {orders : Orders} {outputs done : List OutputXML} {layout : List Int} {s : Scan} {o : OutputXML}

/-- What a look at the outputs has found. -/
structure Scanned (layout : List Int) (done : List OutputXML) (s : Scan) : Prop where
  on : ∀ o ∈ done, On layout o → s.outputScreens o.name = some o.screen
  of : ∀ name screen, s.outputScreens name = some screen → ∃ o ∈ done, On layout o ∧ o.name = name ∧ o.screen = screen
  unknown_mem : ∀ screen, screen ∈ s.unknownScreens ↔ ∃ o ∈ done, 0 ≤ o.screen ∧ o.screen ∉ layout ∧ o.screen = screen
  unknown_nodup : s.unknownScreens.Nodup
  taken_mem : ∀ screen, screen ∈ s.takenScreens ↔ ∃ o ∈ done, On layout o ∧ o.screen = screen
  taken_nodup : s.takenScreens.Nodup
  cloned_mem : ∀ name ∈ s.cloned, ∃ o ∈ done, On layout o ∧ o.name = name
  cloned_nodup : s.cloned.Nodup
  first : ∀ screen ∈ s.takenScreens, ∃ o ∈ done, On layout o ∧ o.screen = screen ∧ o.name ∉ s.cloned
  shared : ∀ o ∈ done, o.name ∈ s.cloned → ∃ other ∈ done, other ≠ o ∧ other.screen = o.screen
  count : s.cloned.length+s.takenScreens.length = (done.filter (On layout)).length

theorem scanned_nil : Scanned layout [] ⟨fun _ => none,[],[],[]⟩ := by
  constructor <;> simp

theorem look_on (scanned : Scanned layout done s) (new : ∀ p ∈ done, p.name ≠ o.name) (on : On layout o) :
    Scanned layout (done ++ [o]) (look layout s o) := by
  have fresh : o.name ∉ s.cloned := by
    intro inside
    obtain ⟨p,among,_,same⟩ := scanned.cloned_mem _ inside
    exact new p among same
  rw [look,if_pos on.1,if_pos on.2]
  refine ⟨?_,?_,?_,scanned.unknown_nodup,?_,scanned.taken_nodup.insert,?_,?_,?_,?_,?_⟩
  · intro p inside on'
    rcases mem_append.mp inside with before | last
    · dsimp only
      rw [update_of_ne (new p before)]
      exact scanned.on p before on'
    · obtain rfl := mem_singleton.mp last
      exact update_self ..
  · intro name screen found
    dsimp only at found
    by_cases same : name = o.name
    · subst same
      rw [update_self] at found
      exact ⟨o,by simp,on,rfl,Option.some.inj found⟩
    · rw [update_of_ne same] at found
      obtain ⟨p,before,rest⟩ := scanned.of name screen found
      exact ⟨p,mem_append_left _ before,rest⟩
  · intro screen
    rw [scanned.unknown_mem]
    constructor
    · rintro ⟨p,before,rest⟩
      exact ⟨p,mem_append_left _ before,rest⟩
    · rintro ⟨p,inside,nonneg,outside,same⟩
      rcases mem_append.mp inside with before | last
      · exact ⟨p,before,nonneg,outside,same⟩
      · obtain rfl := mem_singleton.mp last
        exact absurd on.2 outside
  · intro screen
    rw [mem_insert_iff,scanned.taken_mem]
    constructor
    · rintro (rfl | ⟨p,before,rest⟩)
      · exact ⟨o,by simp,on,rfl⟩
      · exact ⟨p,mem_append_left _ before,rest⟩
    · rintro ⟨p,inside,on',same⟩
      rcases mem_append.mp inside with before | last
      · exact Or.inr ⟨p,before,on',same⟩
      · obtain rfl := mem_singleton.mp last
        exact Or.inl same.symm
  · intro name inside
    have cases : name = o.name ∨ name ∈ s.cloned := by
      dsimp only at inside
      split at inside
      · exact mem_insert_iff.mp inside
      · exact Or.inr inside
    rcases cases with rfl | before
    · exact ⟨o,by simp,on,rfl⟩
    · obtain ⟨p,among,rest⟩ := scanned.cloned_mem name before
      exact ⟨p,mem_append_left _ among,rest⟩
  · dsimp only
    split
    · exact scanned.cloned_nodup.insert
    · exact scanned.cloned_nodup
  · intro screen taken
    dsimp only at taken ⊢
    by_cases before : screen ∈ s.takenScreens
    · obtain ⟨p,among,on',same,not_cloned⟩ := scanned.first screen before
      refine ⟨p,mem_append_left _ among,on',same,?_⟩
      split
      · rw [mem_insert_iff]
        rintro (equal | cloned)
        · exact new p among equal
        · exact not_cloned cloned
      · exact not_cloned
    · have here : screen = o.screen := (mem_insert_iff.mp taken).resolve_right before
      subst here
      refine ⟨o,by simp,on,rfl,?_⟩
      rw [if_neg before]
      exact fresh
  · intro p inside cloned
    dsimp only at cloned
    rcases mem_append.mp inside with before | last
    · have still : p.name ∈ s.cloned := by
        split at cloned
        · exact (mem_insert_iff.mp cloned).resolve_left (new p before)
        · exact cloned
      obtain ⟨other,among,rest⟩ := scanned.shared p before still
      exact ⟨other,mem_append_left _ among,rest⟩
    · obtain rfl := mem_singleton.mp last
      split at cloned
      case isTrue taken =>
        obtain ⟨other,among,_,same⟩ := (scanned.taken_mem _).mp taken
        refine ⟨other,mem_append_left _ among,?_,same⟩
        rintro rfl
        exact new other among rfl
      case isFalse => exact absurd cloned fresh
  · have more : (done ++ [o]).filter (On layout) = done.filter (On layout) ++ [o] := by
      rw [filter_append,filter_cons_of_pos (by simpa using on),filter_nil]
    rw [more,length_append,length_singleton,← scanned.count]
    dsimp only
    by_cases taken : o.screen ∈ s.takenScreens
    · rw [if_pos taken,length_insert_of_not_mem fresh,length_insert_of_mem taken]
      omega
    · rw [if_neg taken,length_insert_of_not_mem taken]
      omega

theorem look_off (scanned : Scanned layout done s) (new : ∀ p ∈ done, p.name ≠ o.name) (off : ¬ On layout o) :
    Scanned layout (done ++ [o]) (look layout s o) := by
  have same_on : ∀ p ∈ done ++ [o], On layout p → p ∈ done := by
    intro p inside on
    rcases mem_append.mp inside with before | last
    · exact before
    · obtain rfl := mem_singleton.mp last
      exact absurd on off
  have fewer : (done ++ [o]).filter (On layout) = done.filter (On layout) := by
    rw [filter_append,filter_cons_of_neg (by simpa using off),filter_nil,append_nil]
  have elsewhere : look layout s o = { s with unknownScreens := (look layout s o).unknownScreens } := by
    rw [look]
    split
    · rw [if_neg fun inside => off ⟨‹_›,inside⟩]
    · rfl
  have unknown : ∀ screen, screen ∈ (look layout s o).unknownScreens ↔
      screen ∈ s.unknownScreens ∨ 0 ≤ o.screen ∧ o.screen ∉ layout ∧ o.screen = screen := by
    intro screen
    rw [look]
    split
    case isTrue nonneg =>
      have outside : o.screen ∉ layout := fun inside => off ⟨nonneg,inside⟩
      rw [if_neg outside,mem_insert_iff]
      grind
    case isFalse negative => grind
  have nodup : (look layout s o).unknownScreens.Nodup := by
    rw [look]
    split
    case isTrue nonneg =>
      rw [if_neg fun inside => off ⟨nonneg,inside⟩]
      exact scanned.unknown_nodup.insert
    case isFalse => exact scanned.unknown_nodup
  rw [elsewhere]
  refine ⟨?_,?_,?_,nodup,?_,scanned.taken_nodup,?_,scanned.cloned_nodup,?_,?_,?_⟩
  · intro p inside on
    exact scanned.on p (same_on p inside on) on
  · intro name screen found
    obtain ⟨p,before,rest⟩ := scanned.of name screen found
    exact ⟨p,mem_append_left _ before,rest⟩
  · intro screen
    rw [unknown,scanned.unknown_mem]
    constructor
    · rintro (⟨p,before,rest⟩ | rest)
      · exact ⟨p,mem_append_left _ before,rest⟩
      · exact ⟨o,by simp,rest⟩
    · rintro ⟨p,inside,rest⟩
      rcases mem_append.mp inside with before | last
      · exact Or.inl ⟨p,before,rest⟩
      · rw [mem_singleton.mp last] at rest
        exact Or.inr rest
  · intro screen
    rw [scanned.taken_mem]
    constructor
    · rintro ⟨p,before,rest⟩
      exact ⟨p,mem_append_left _ before,rest⟩
    · rintro ⟨p,inside,on,same⟩
      exact ⟨p,same_on p inside on,on,same⟩
  · intro name cloned
    obtain ⟨p,before,rest⟩ := scanned.cloned_mem name cloned
    exact ⟨p,mem_append_left _ before,rest⟩
  · intro screen taken
    obtain ⟨p,before,rest⟩ := scanned.first screen taken
    exact ⟨p,mem_append_left _ before,rest⟩
  · intro p inside cloned
    obtain ⟨q,among,on,same⟩ := scanned.cloned_mem _ cloned
    rcases mem_append.mp inside with before | last
    · obtain ⟨other,there,rest⟩ := scanned.shared p before cloned
      exact ⟨other,mem_append_left _ there,rest⟩
    · obtain rfl := mem_singleton.mp last
      exact absurd same (new q among)
  · rw [fewer]
    exact scanned.count

theorem look_scanned (scanned : Scanned layout done s) (new : ∀ p ∈ done, p.name ≠ o.name) :
    Scanned layout (done ++ [o]) (look layout s o) := by
  by_cases on : On layout o
  · exact look_on scanned new on
  · exact look_off scanned new on

theorem scan_scanned (layout : List Int) (names : (outputs.map (·.name)).Nodup) :
    Scanned layout outputs (scan layout outputs) := by
  induction outputs using reverseRecOn with
  | nil => exact scanned_nil
  | append_singleton done o ih =>
    rw [map_append,map_cons,map_nil,nodup_append] at names
    obtain ⟨before,_,apart⟩ := names
    rw [scan,foldl_append]
    apply look_scanned (ih before)
    intro p inside
    exact apart p.name (mem_map_of_mem inside) o.name (by simp)

theorem move_apply (outputs : List OutputXML) (source free : Int) (m : String → Option Int) (name : String) :
    move outputs source free m name =
      if ∃ o ∈ outputs, o.screen = source ∧ o.name = name then some free else m name := by
  induction outputs generalizing m with
  | nil => simp [move]
  | cons o outputs ih =>
    rw [move,foldl_cons,← move,ih]
    by_cases later : ∃ p ∈ outputs, p.screen = source ∧ p.name = name
    · rw [if_pos later,if_pos]
      obtain ⟨p,inside,rest⟩ := later
      exact ⟨p,mem_cons_of_mem _ inside,rest⟩
    · rw [if_neg later]
      by_cases here : o.screen = source ∧ o.name = name
      · rw [if_pos here.1,here.2,update_self,if_pos ⟨o,mem_cons_self,here⟩]
      · have nowhere : ¬ ∃ p ∈ o :: outputs, p.screen = source ∧ p.name = name := by
          rintro ⟨p,inside,rest⟩
          rcases mem_cons.mp inside with rfl | among
          · exact here rest
          · exact later ⟨p,among,rest⟩
        rw [if_neg nowhere]
        split
        case isTrue moved =>
          rw [update_of_ne]
          rintro rfl
          exact here ⟨moved,rfl⟩
        case isFalse => rfl

theorem same_of_name (names : (outputs.map (·.name)).Nodup) {o p : OutputXML} (first : o ∈ outputs)
    (second : p ∈ outputs) (same : o.name = p.name) : o = p :=
  inj_on_of_nodup_map names first second same

theorem reviveUnknown_apply (names : (outputs.map (·.name)).Nodup) (inside : o ∈ outputs) (screens : List Int)
    {unknown : List Int} (nodup : unknown.Nodup) (m : String → Option Int) :
    reviveUnknown outputs screens unknown m o.name = ((unknown.zip screens).lookup o.screen).or (m o.name) := by
  induction screens generalizing unknown m with
  | nil => cases unknown <;> simp [reviveUnknown]
  | cons free screens ih =>
    cases unknown with
    | nil => simp [reviveUnknown]
    | cons source unknown =>
      obtain ⟨new,rest⟩ := nodup_cons.mp nodup
      rw [reviveUnknown,ih rest,move_apply,zip_cons_cons,lookup_cons]
      have moved : (∃ p ∈ outputs, p.screen = source ∧ p.name = o.name) ↔ o.screen = source := by
        constructor
        · rintro ⟨p,among,there,same⟩
          rw [← same_of_name names among inside same]
          exact there
        · intro there
          exact ⟨o,inside,there,rfl⟩
      by_cases here : o.screen = source
      · have absent : (unknown.zip screens).lookup o.screen = none := lookup_zip_of_not_mem (by rwa [here])
        rw [if_pos (moved.mpr here),absent,beq_iff_eq.mpr here]
        rfl
      · rw [if_neg (fun one => here (moved.mp one)),beq_false_of_ne here]

theorem separateCloned_apply (screens : List Int) {cloned : List String} (nodup : cloned.Nodup)
    (m : String → Option Int) (name : String) :
    separateCloned screens cloned m name = ((cloned.zip screens).lookup name).or (m name) := by
  induction screens generalizing cloned m with
  | nil => cases cloned <;> simp [separateCloned]
  | cons free screens ih =>
    cases cloned with
    | nil => simp [separateCloned]
    | cons o cloned =>
      obtain ⟨new,rest⟩ := nodup_cons.mp nodup
      rw [separateCloned,ih rest,zip_cons_cons,lookup_cons]
      by_cases here : name = o
      · subst here
        have absent : (cloned.zip screens).lookup name = none := lookup_zip_of_not_mem new
        rw [absent,update_self,beq_self_eq_true]
        rfl
      · rw [update_of_ne here,beq_false_of_ne here]

/-- The free screens, the vanished ones and the outputs that share a screen, in the order in which they are taken. -/
structure Taken (outputs : List OutputXML) (layout : List Int) (s : Scan) (screens unknown : List Int)
    (cloned : List String) : Prop where
  names : (outputs.map (·.name)).Nodup
  scanned : Scanned layout outputs s
  screens_nodup : screens.Nodup
  screens_mem : ∀ screen, screen ∈ screens ↔ screen ∈ layout ∧ screen ∉ s.takenScreens
  unknown_perm : unknown.Perm s.unknownScreens
  cloned_perm : cloned.Perm s.cloned

variable {screens unknown : List Int} {cloned : List String}

theorem handOut_apply (taken : Taken outputs layout s screens unknown cloned) (inside : o ∈ outputs) :
    handOut outputs s screens unknown cloned o.name =
      ((cloned.zip (screens.drop unknown.length)).lookup o.name).or
        (((unknown.zip screens).lookup o.screen).or (s.outputScreens o.name)) := by
  have cloned_nodup := taken.cloned_perm.nodup_iff.mpr taken.scanned.cloned_nodup
  have unknown_nodup := taken.unknown_perm.nodup_iff.mpr taken.scanned.unknown_nodup
  rw [handOut,separateCloned_apply _ cloned_nodup,reviveUnknown_apply taken.names inside _ unknown_nodup]

theorem cloned_on (taken : Taken outputs layout s screens unknown cloned) (inside : o ∈ outputs)
    (shares : o.name ∈ cloned) : On layout o := by
  obtain ⟨p,among,on,same⟩ := taken.scanned.cloned_mem _ (taken.cloned_perm.mem_iff.mp shares)
  rwa [← same_of_name taken.names among inside same]

theorem not_unknown (taken : Taken outputs layout s screens unknown cloned) (on : On layout o) :
    o.screen ∉ unknown := by
  intro inside
  obtain ⟨p,_,_,outside,same⟩ := (taken.scanned.unknown_mem _).mp (taken.unknown_perm.mem_iff.mp inside)
  rw [same] at outside
  exact outside on.2

theorem handOut_kept (taken : Taken outputs layout s screens unknown cloned) (inside : o ∈ outputs) (on : On layout o)
    (alone : o.name ∉ s.cloned) : handOut outputs s screens unknown cloned o.name = some o.screen := by
  rw [handOut_apply taken inside,lookup_zip_of_not_mem (fun shares => alone (taken.cloned_perm.mem_iff.mp shares)),
    lookup_zip_of_not_mem (not_unknown taken on),taken.scanned.on o inside on]
  rfl

theorem handOut_cases (taken : Taken outputs layout s screens unknown cloned) (inside : o ∈ outputs) {screen : Int}
    (found : handOut outputs s screens unknown cloned o.name = some screen) :
    (∃ i, i < unknown.length+cloned.length ∧ screens[i]? = some screen) ∨ screen ∈ s.takenScreens := by
  have cloned_nodup := taken.cloned_perm.nodup_iff.mpr taken.scanned.cloned_nodup
  have unknown_nodup := taken.unknown_perm.nodup_iff.mpr taken.scanned.unknown_nodup
  rw [handOut_apply taken inside,Option.or_eq_some_iff] at found
  rcases found with shared | ⟨_,found⟩
  · obtain ⟨i,at_name,at_screen⟩ := (lookup_zip_eq_some_iff cloned_nodup).mp shared
    rw [List.getElem?_drop] at at_screen
    have lt := (List.getElem?_eq_some_iff.mp at_name).1
    exact Or.inl ⟨_,by omega,at_screen⟩
  · rcases Option.or_eq_some_iff.mp found with gone | ⟨_,before⟩
    · obtain ⟨i,at_source,at_screen⟩ := (lookup_zip_eq_some_iff unknown_nodup).mp gone
      have lt := (List.getElem?_eq_some_iff.mp at_source).1
      exact Or.inl ⟨i,by omega,at_screen⟩
    · obtain ⟨p,among,on,_,there⟩ := taken.scanned.of _ _ before
      exact Or.inr ((taken.scanned.taken_mem _).mpr ⟨p,among,on,there⟩)

theorem handed_out (taken : Taken outputs layout s screens unknown cloned) {i : Nat} {screen : Int}
    (free : screens[i]? = some screen) (early : i < unknown.length+cloned.length) :
    ∃ o ∈ outputs, handOut outputs s screens unknown cloned o.name = some screen := by
  have cloned_nodup := taken.cloned_perm.nodup_iff.mpr taken.scanned.cloned_nodup
  have unknown_nodup := taken.unknown_perm.nodup_iff.mpr taken.scanned.unknown_nodup
  by_cases gone : i < unknown.length
  · have source := getElem?_eq_getElem gone
    have member := taken.unknown_perm.mem_iff.mp (getElem_mem gone)
    obtain ⟨o,inside,_,outside,there⟩ := (taken.scanned.unknown_mem _).mp member
    have alone : o.name ∉ cloned := fun shares => outside (cloned_on taken inside shares).2
    have moved : (unknown.zip screens).lookup o.screen = some screen :=
      (lookup_zip_eq_some_iff unknown_nodup).mpr ⟨i,by rw [source,there],free⟩
    refine ⟨o,inside,?_⟩
    rw [handOut_apply taken inside,lookup_zip_of_not_mem alone,moved]
    rfl
  · have lt : i-unknown.length < cloned.length := by omega
    have member := taken.cloned_perm.mem_iff.mp (getElem_mem lt)
    obtain ⟨o,inside,_,same⟩ := taken.scanned.cloned_mem _ member
    have apart : (cloned.zip (screens.drop unknown.length)).lookup o.name = some screen := by
      apply (lookup_zip_eq_some_iff cloned_nodup).mpr
      refine ⟨i-unknown.length,by rw [getElem?_eq_getElem lt,same],?_⟩
      rw [getElem?_drop,Nat.add_sub_cancel' (by omega)]
      exact free
    refine ⟨o,inside,?_⟩
    rw [handOut_apply taken inside,apart]
    rfl

theorem covered_iff (taken : Taken outputs layout s screens unknown cloned) :
    (∀ screen ∈ layout, ∃ o ∈ outputs, handOut outputs s screens unknown cloned o.name = some screen) ↔
      screens.length ≤ unknown.length+cloned.length := by
  constructor
  · intro covered
    by_contra many
    have lt : unknown.length+cloned.length < screens.length := by omega
    have free := getElem?_eq_getElem lt
    obtain ⟨here,new⟩ := (taken.screens_mem _).mp (getElem_mem lt)
    obtain ⟨o,inside,found⟩ := covered _ here
    rcases handOut_cases taken inside found with ⟨i,early,at_screen⟩ | used
    · have same := (getElem?_inj lt taken.screens_nodup).mp (free.trans at_screen.symm)
      omega
    · exact new used
  · intro few screen here
    by_cases used : screen ∈ s.takenScreens
    · obtain ⟨o,inside,on,rfl,alone⟩ := taken.scanned.first screen used
      exact ⟨o,inside,handOut_kept taken inside on alone⟩
    · obtain ⟨i,lt,at_screen⟩ := getElem_of_mem ((taken.screens_mem screen).mpr ⟨here,used⟩)
      exact handed_out taken (by rw [getElem?_eq_getElem lt,at_screen]) (by omega)

theorem screens_length (taken : Taken outputs layout s screens unknown cloned) (nodup : layout.Nodup) :
    screens.length+s.takenScreens.length = layout.length := by
  have all : (screens ++ s.takenScreens).Perm layout := by
    rw [perm_ext_iff_of_nodup _ nodup]
    · intro screen
      rw [mem_append,taken.screens_mem]
      constructor
      · rintro (⟨here,_⟩ | used)
        · exact here
        · obtain ⟨o,_,on,rfl⟩ := (taken.scanned.taken_mem screen).mp used
          exact on.2
      · intro here
        by_cases used : screen ∈ s.takenScreens
        · exact Or.inr used
        · exact Or.inl ⟨here,used⟩
    · rw [nodup_append]
      refine ⟨taken.screens_nodup,taken.scanned.taken_nodup,?_⟩
      rintro screen free _ used rfl
      exact ((taken.screens_mem screen).mp free).2 used
  rw [← length_append,all.length_eq]

theorem unknown_length (taken : Taken outputs layout s screens unknown cloned) :
    unknown.length = (vanished outputs layout).length := by
  rw [taken.unknown_perm.length_eq]
  apply List.Perm.length_eq
  rw [vanished,perm_ext_iff_of_nodup taken.scanned.unknown_nodup ((nodup_dedup _))]
  intro screen
  rw [taken.scanned.unknown_mem,mem_dedup,mem_filter,mem_map]
  grind

theorem taken_scan (orders : Orders) (known : Outputs) (layout : Layout) :
    Taken known.outputs layout.keys (scan layout.keys known.outputs)
      (orders.screens (freeScreens known.outputs (scan layout.keys known.outputs).outputScreens layout.keys))
      (orders.unknown (scan layout.keys known.outputs).unknownScreens)
      (orders.cloned (scan layout.keys known.outputs).cloned) := by
  have scanned := scan_scanned layout.keys known.names
  refine ⟨known.names,scanned,?_,?_,orders.unknown_perm _,orders.cloned_perm _⟩
  · exact (orders.screens_perm _).nodup_iff.mpr (layout.nodup.filter _)
  · intro screen
    rw [(orders.screens_perm _).mem_iff,freeScreens,mem_filter,decide_eq_true_eq,mem_filterMap, scanned.taken_mem]
    constructor
    · rintro ⟨here,free⟩
      refine ⟨here,?_⟩
      rintro ⟨o,inside,on,rfl⟩
      exact free ⟨o,inside,scanned.on o inside on⟩
    · rintro ⟨here,new⟩
      refine ⟨here,?_⟩
      rintro ⟨o,_,found⟩
      obtain ⟨p,among,on,_,there⟩ := scanned.of _ _ found
      exact new ⟨p,among,on,there⟩

/-- Every screen of the layout gets an output if there are outputs on enough screens of the layout and enough vanished
screens. -/
theorem matchOutputScreens_iff (orders : Orders) (known : Outputs) (layout : Layout) :
    Right known.outputs layout.keys (matchOutputScreens orders known.outputs layout.keys) ↔
      layout.keys.length ≤ (vanished known.outputs layout.keys).length+
        (known.outputs.filter (On layout.keys)).length := by
  have taken := taken_scan orders known layout
  have covered := covered_iff taken
  have free := screens_length taken layout.nodup
  have count := taken.scanned.count
  have shared := taken.cloned_perm.length_eq
  rw [← unknown_length taken]
  constructor
  · intro right
    have few := covered.mp fun screen here => by
      obtain ⟨o,inside,there⟩ := right.covered screen here
      obtain ⟨p,among,rfl⟩ := mem_map.mp inside
      refine ⟨p,among,?_⟩
      dsimp only at there
      cases found : handOut known.outputs _ _ _ _ p.name with
      | none =>
        rw [found] at there
        have nonneg := layout.nonneg screen here
        rw [← there] at nonneg
        exact absurd nonneg (by decide)
      | some free =>
        rw [found] at there
        exact congrArg some there
    omega
  · intro few
    refine ⟨?_,?_,?_,?_⟩
    · rw [matchOutputScreens,map_map]
      rfl
    · intro o inside
      obtain ⟨p,among,rfl⟩ := mem_map.mp inside
      dsimp only
      cases found : handOut known.outputs _ _ _ _ p.name with
      | none => exact Or.inr rfl
      | some screen =>
        left
        rcases handOut_cases taken among found with ⟨i,_,at_screen⟩ | used
        · exact ((taken.screens_mem screen).mp (mem_of_getElem? at_screen)).1
        · obtain ⟨q,_,on,rfl⟩ := (taken.scanned.taken_mem screen).mp used
          exact on.2
    · intro screen here
      obtain ⟨o,inside,found⟩ := covered.mpr (by omega) screen here
      exact ⟨_,mem_map_of_mem inside,by dsimp only; rw [found]; rfl⟩
    · intro o inside here alone
      have on : On layout.keys o := ⟨layout.nonneg _ here,here⟩
      have single : o.name ∉ (scan layout.keys known.outputs).cloned := by
        intro shares
        obtain ⟨other,among,differs,same⟩ := taken.scanned.shared o inside shares
        exact differs (alone other among same)
      refine mem_map.mpr ⟨o,inside,?_⟩
      rw [handOut_kept taken inside on single]
      rfl

/-- An output that is switched off gets no screen, and one screen is left without an output. -/
theorem off_uncovered : ¬ ∀ (orders : Orders) (known : Outputs) (layout : Layout),
    layout.keys.length ≤ known.outputs.length →
      Right known.outputs layout.keys (matchOutputScreens orders known.outputs layout.keys) := by
  intro right
  let orders : Orders := ⟨id,id,id,fun _ => .refl _,fun _ => .refl _,fun _ => .refl _⟩
  let known : Outputs := ⟨[⟨"LVDS",0⟩,⟨"VGA",-1⟩],by decide⟩
  obtain ⟨o,inside,there⟩ := (right orders known ⟨[0,1],by decide,by decide⟩ (by decide)).covered 1 (by decide)
  have result : matchOutputScreens orders known.outputs [0,1] = [⟨"LVDS",0⟩,⟨"VGA",-1⟩] := by decide
  rw [result] at inside
  simp only [mem_cons,not_mem_nil,or_false] at inside
  rcases inside with rfl | rfl
  · cases there
  · cases there

end KdeWorkspace.OutputScreens
