import Mathlib.Data.List.Basic

/-!
The configuration of the keyboard module, as it is saved and loaded.

The layouts and their labels are two strings with commas between the entries. The entries of the first may not
be empty and those of the second may, and nothing keeps a comma out of a label or of an option: `saved_iff` says
that without one all is loaded as it has been saved.
-/
namespace KdeWorkspace.KeyboardLayouts
open List

abbrev Text := List Char

inductive SwitchingPolicy
  | Global
  | Desktop
  | Application
  | Window
deriving DecidableEq, Repr

inductive IndicatorType
  | ShowLabel
  | ShowFlag
  | ShowLabelOnFlag
deriving DecidableEq, Repr

/-- A layout, without its shortcut, which is not saved. -/
structure LayoutUnit where
  layout : Text
  variant : Text
  displayName : Text
deriving DecidableEq, Repr

namespace LayoutUnit

def getDisplayName (u : LayoutUnit) : Text := if u.displayName ≠ [] then u.displayName else u.layout

def toString (u : LayoutUnit) : Text := if u.variant = [] then u.layout else u.layout++['(']++u.variant++[')']

end LayoutUnit

def stripVariantName (variant : Text) : Text := if variant.getLast? = some ')' then variant.dropLast else variant

/-- The constructor which takes the name with the variant in parentheses. -/
def LayoutUnit.ofName (fullLayoutName : Text) : LayoutUnit :=
  match fullLayoutName.splitOn '(' with
  | layout :: variant :: _ => ⟨layout,stripVariantName variant,[]⟩
  | [layout] => ⟨layout,[],[]⟩
  | [] => ⟨[],[],[]⟩

structure KeyboardConfig where
  keyboardModel : Text
  resetOldXkbOptions : Bool
  xkbOptions : List Text
  configureLayouts : Bool
  layouts : List LayoutUnit
  layoutLoopCount : Int
  switchingPolicy : SwitchingPolicy
  showIndicator : Bool
  indicatorType : IndicatorType
  showSingle : Bool
deriving DecidableEq, Repr

def NO_LOOPING : Int := -1

/-- The entries of the group `Layout` of `kxkbrc`; one which is not there is `none`. -/
structure Kxkbrc where
  Model : Option Text
  ResetOldOptions : Option Bool
  Options : Option Text
  Use : Option Bool
  LayoutList : Option Text
  DisplayNames : Option Text
  LayoutLoopCount : Option Int
  SwitchMode : Option Text
  ShowLayoutIndicator : Option Bool
  ShowFlag : Option Bool
  ShowLabel : Option Bool
  ShowSingle : Option Bool
deriving DecidableEq, Repr

/-- `QStringList::join` with a comma. -/
def join (entries : List Text) : Text := [','].intercalate entries

/-- `QString::split` with `KeepEmptyParts`. -/
def splitKeep (entries : Text) : List Text := entries.splitOn ','

/-- `QString::split` with `SkipEmptyParts`. -/
def splitSkip (entries : Text) : List Text := (entries.splitOn ',').filter (· ≠ [])

def SWITCHING_POLICIES : List (Text × SwitchingPolicy) :=
  [("Global".toList,.Global),("Desktop".toList,.Desktop),("WinClass".toList,.Application),("Window".toList,.Window)]

def getSwitchingPolicyString : SwitchingPolicy → Text
  | .Global => "Global".toList
  | .Desktop => "Desktop".toList
  | .Application => "WinClass".toList
  | .Window => "Window".toList

/-- `findStringIndex` among the names of the policies. -/
def findPolicy (layoutMode : Text) : SwitchingPolicy :=
  ((SWITCHING_POLICIES.find? fun p => layoutMode = p.1).map Prod.snd).getD .Global

def getIndicatorType (showFlag showLabel : Bool) : IndicatorType :=
  if showFlag then if showLabel then .ShowLabelOnFlag else .ShowFlag else .ShowLabel

/-- The loop over the labels, as long as there are layouts. -/
def setLabels : List LayoutUnit → List Text → List LayoutUnit
  | u :: layouts, label :: labels =>
    (if label ≠ [] ∧ label ≠ u.layout then { u with displayName := label } else u) :: setLabels layouts labels
  | layouts, [] => layouts
  | [], _ => []

namespace KeyboardConfig

def load (config : Kxkbrc) : KeyboardConfig :=
  let layouts := (splitSkip (config.LayoutList.getD [])).map LayoutUnit.ofName
  { keyboardModel := config.Model.getD []
    resetOldXkbOptions := config.ResetOldOptions.getD false
    xkbOptions := splitSkip (config.Options.getD [])
    configureLayouts := if layouts = [] then false else config.Use.getD false
    layouts := setLabels layouts (splitKeep (config.DisplayNames.getD []))
    layoutLoopCount := config.LayoutLoopCount.getD NO_LOOPING
    switchingPolicy := findPolicy (config.SwitchMode.getD "Global".toList)
    showIndicator := config.ShowLayoutIndicator.getD true
    indicatorType := getIndicatorType (config.ShowFlag.getD false) (config.ShowLabel.getD true)
    showSingle := config.ShowSingle.getD false }

def save (c : KeyboardConfig) : Kxkbrc where
  Model := some c.keyboardModel
  ResetOldOptions := some c.resetOldXkbOptions
  Options := if c.resetOldXkbOptions then some (join c.xkbOptions) else none
  Use := some c.configureLayouts
  LayoutList := some (join (c.layouts.map LayoutUnit.toString))
  DisplayNames := some (join (c.layouts.map LayoutUnit.displayName))
  LayoutLoopCount := some c.layoutLoopCount
  SwitchMode := some (getSwitchingPolicyString c.switchingPolicy)
  ShowLayoutIndicator := some c.showIndicator
  ShowFlag := some (c.indicatorType = .ShowFlag || c.indicatorType = .ShowLabelOnFlag)
  ShowLabel := some (c.indicatorType = .ShowLabel || c.indicatorType = .ShowLabelOnFlag)
  ShowSingle := some c.showSingle

/-- The loop of `getDefaultLayouts`, with its index. -/
def defaultLayouts {α : Type} (layoutLoopCount : Int) : Int → List α → List α
  | _, [] => []
  | i, u :: layouts =>
    u :: if layoutLoopCount ≠ NO_LOOPING ∧ i ≥ layoutLoopCount-1 then [] else defaultLayouts layoutLoopCount (i+1) layouts

def getDefaultLayouts (c : KeyboardConfig) : List LayoutUnit := defaultLayouts c.layoutLoopCount 0 c.layouts

def getExtraLayouts (c : KeyboardConfig) : List LayoutUnit :=
  if c.layoutLoopCount = NO_LOOPING then [] else c.layouts.drop c.layoutLoopCount.toNat

end KeyboardConfig

theorem not_mem_of_mem_splitOn {x : Char} {text piece : Text} (member : piece ∈ text.splitOn x) : x ∉ piece := by
  by_cases inside : x ∈ text
  · obtain ⟨front,back,rfl,absent⟩ := eq_append_cons_of_mem inside
    rw [splitOn_append_cons_self,splitOn_eq_singleton absent] at member
    rcases mem_append.mp member with first | later
    · rw [mem_singleton.mp first]
      exact absent
    · exact not_mem_of_mem_splitOn later
  · rw [splitOn_eq_singleton inside] at member
    rw [mem_singleton.mp member]
    exact inside
termination_by text.length
decreasing_by
  subst_vars
  simp only [List.length_append,List.length_cons]
  omega

theorem mem_of_mem_splitOn {x c : Char} {text piece : Text} (member : piece ∈ text.splitOn x) (inside : c ∈ piece) :
    c ∈ text := by
  by_cases found : x ∈ text
  · obtain ⟨front,back,rfl,absent⟩ := eq_append_cons_of_mem found
    rw [splitOn_append_cons_self,splitOn_eq_singleton absent] at member
    rcases mem_append.mp member with first | later
    · rw [mem_singleton.mp first] at inside
      exact mem_append_left _ inside
    · exact mem_append_right _ (mem_cons_of_mem _ (mem_of_mem_splitOn later inside))
  · rw [splitOn_eq_singleton found] at member
    rwa [mem_singleton.mp member] at inside
termination_by text.length
decreasing_by
  subst_vars
  simp only [List.length_append,List.length_cons]
  omega

theorem join_cons (entry : Text) {entries : List Text} (more : entries ≠ []) :
    join (entry :: entries) = entry++(',' :: join entries) := by
  cases entries with
  | nil => exact absurd rfl more
  | cons next entries => simp [join,intercalate]

theorem splitSkip_join {entries : List Text} :
    splitSkip (join entries) = entries ↔ ∀ entry ∈ entries, entry ≠ [] ∧ ',' ∉ entry := by
  constructor
  · intro same entry member
    rw [← same] at member
    obtain ⟨piece,nonempty⟩ := mem_filter.mp member
    exact ⟨by simpa using nonempty,not_mem_of_mem_splitOn piece⟩
  · intro plain
    by_cases none : entries = []
    · rw [none]
      rfl
    · unfold splitSkip join
      rw [splitOn_intercalate ',' (fun entry member => (plain entry member).2) none,filter_eq_self]
      exact fun entry member => by simpa using (plain entry member).1

/-- The names of a layout which are told apart again when they are loaded. -/
structure LayoutUnit.Named (u : LayoutUnit) : Prop where
  nonempty : u.layout ≠ []
  layout_comma : ',' ∉ u.layout
  layout_open : '(' ∉ u.layout
  layout_close : ')' ∉ u.layout
  variant_comma : ',' ∉ u.variant
  variant_open : '(' ∉ u.variant
  variant_close : ')' ∉ u.variant

def LayoutUnit.shown (u : LayoutUnit) : Text × Text × Text := (u.layout,u.variant,u.getDisplayName)

/-- The layout without its label. -/
def LayoutUnit.bare (u : LayoutUnit) : LayoutUnit := { u with displayName := [] }

theorem LayoutUnit.ofName_toString {u : LayoutUnit} (layout_open : '(' ∉ u.layout) (variant_open : '(' ∉ u.variant) :
    LayoutUnit.ofName u.toString = u.bare := by
  unfold LayoutUnit.toString
  split
  · rename_i plain
    simp [LayoutUnit.ofName,splitOn_eq_singleton layout_open,LayoutUnit.bare,plain]
  · have close : '(' ∉ u.variant++[')'] := by
      simp [variant_open]
    have parts : (u.layout++['(']++u.variant++[')']).splitOn '(' = [u.layout,u.variant++[')']] := by
      have text : u.layout++['(']++u.variant++[')'] = u.layout++('(' :: (u.variant++[')'])) := by simp
      rw [text,splitOn_append_cons_self,splitOn_eq_singleton layout_open, splitOn_eq_singleton close]
      rfl
    unfold LayoutUnit.ofName
    rw [parts]
    simp [stripVariantName,LayoutUnit.bare]

theorem LayoutUnit.Named.ofName_toString {u : LayoutUnit} (named : u.Named) : LayoutUnit.ofName u.toString = u.bare :=
  LayoutUnit.ofName_toString named.layout_open named.variant_open

theorem LayoutUnit.Named.toString_plain {u : LayoutUnit} (named : u.Named) : u.toString ≠ [] ∧ ',' ∉ u.toString := by
  unfold LayoutUnit.toString
  split
  · exact ⟨named.nonempty,named.layout_comma⟩
  · simp [named.layout_comma,named.variant_comma]

@[simp] theorem setLabels_nil (labels : List Text) : setLabels [] labels = [] := by
  cases labels <;> rfl

theorem labelled_shown (u : LayoutUnit) :
    (if u.displayName ≠ [] ∧ u.displayName ≠ u.bare.layout then { u.bare with displayName := u.displayName }
      else u.bare).shown = u.shown := by
  by_cases empty : u.displayName = []
  · simp [empty,LayoutUnit.shown,LayoutUnit.getDisplayName,LayoutUnit.bare]
  · by_cases same : u.displayName = u.layout
    · have layout : u.layout ≠ [] := same ▸ empty
      simp [same,layout,LayoutUnit.shown,LayoutUnit.getDisplayName,LayoutUnit.bare]
    · simp [empty,same,LayoutUnit.shown,LayoutUnit.getDisplayName,LayoutUnit.bare]

theorem cut_label_shown {u : LayoutUnit} {front back : Text} (label : u.displayName = front++(',' :: back))
    (layout : ',' ∉ u.layout) :
    (if front ≠ [] ∧ front ≠ u.bare.layout then { u.bare with displayName := front } else u.bare).shown ≠ u.shown := by
  have whole : u.getDisplayName = front++(',' :: back) := by
    simp [LayoutUnit.getDisplayName,label]
  have name : u.layout ≠ front++(',' :: back) := by
    intro equal
    exact layout (equal ▸ by simp)
  intro same
  have display := congrArg (fun shown => shown.2.2) same
  simp only [LayoutUnit.shown,whole] at display
  split at display
  · rename_i cut
    simp [LayoutUnit.getDisplayName,cut.1] at display
  · exact name (by simpa [LayoutUnit.getDisplayName,LayoutUnit.bare] using display)

theorem setLabels_shown {layouts : List LayoutUnit} (named : ∀ u ∈ layouts, u.Named) :
    (setLabels (layouts.map LayoutUnit.bare) (splitKeep (join (layouts.map LayoutUnit.displayName)))).map LayoutUnit.shown =
        layouts.map LayoutUnit.shown ↔
      ∀ u ∈ layouts, ',' ∉ u.displayName := by
  induction layouts with
  | nil => simp
  | cons u layouts ih =>
    have rest := ih fun v member => named v (mem_cons_of_mem _ member)
    have layout := (named u mem_cons_self).layout_comma
    by_cases comma : ',' ∈ u.displayName
    · obtain ⟨front,back,label,absent⟩ := eq_append_cons_of_mem comma
      obtain ⟨more,text⟩ : ∃ more, join ((u :: layouts).map LayoutUnit.displayName) = front++(',' :: more) := by
        rw [map_cons,label]
        by_cases last : layouts.map LayoutUnit.displayName = []
        · exact ⟨back,by rw [last]; simp [join,intercalate]⟩
        · exact ⟨back++(',' :: join (layouts.map LayoutUnit.displayName)),by rw [join_cons _ last]; simp⟩
      have pieces : splitKeep (front++(',' :: more)) = front :: splitKeep more := by
        unfold splitKeep
        rw [splitOn_append_cons_self,splitOn_eq_singleton absent]
        rfl
      refine iff_of_false ?_ fun plain => plain u mem_cons_self comma
      rw [text,pieces]
      simp only [map_cons,setLabels,cons.injEq,not_and]
      exact fun same => absurd same (cut_label_shown label layout)
    · have pieces : ∃ labels, splitKeep (join ((u :: layouts).map LayoutUnit.displayName)) = u.displayName :: labels ∧
          setLabels (layouts.map LayoutUnit.bare) labels =
            setLabels (layouts.map LayoutUnit.bare) (splitKeep (join (layouts.map LayoutUnit.displayName))) := by
        rw [map_cons]
        by_cases last : layouts = []
        · refine ⟨[],?_,by simp [last]⟩
          simp [last,join,intercalate,splitKeep,splitOn_eq_singleton comma]
        · refine ⟨_,?_,rfl⟩
          rw [join_cons _ (by simpa using last)]
          unfold splitKeep
          rw [splitOn_append_cons_self,splitOn_eq_singleton comma]
          rfl
      obtain ⟨labels,split,same⟩ := pieces
      rw [split]
      simp only [map_cons,setLabels,same,labelled_shown,cons.injEq,true_and,rest,forall_mem_cons,comma,
        not_false_eq_true]

namespace KeyboardConfig

theorem defaultLayouts_map {α β : Type} (f : α → β) (layoutLoopCount i : Int) (layouts : List α) :
    (defaultLayouts layoutLoopCount i layouts).map f = defaultLayouts layoutLoopCount i (layouts.map f) := by
  induction layouts generalizing i with
  | nil => rfl
  | cons u layouts ih =>
    simp only [defaultLayouts,map_cons]
    split
    · rfl
    · rw [ih]

theorem findPolicy_string (policy : SwitchingPolicy) : findPolicy (getSwitchingPolicyString policy) = policy := by
  cases policy <;> rfl

theorem indicatorType_flags (type : IndicatorType) :
    getIndicatorType (type = .ShowFlag || type = .ShowLabelOnFlag) (type = .ShowLabel || type = .ShowLabelOnFlag) = type := by
  cases type <;> rfl

/-- What a configuration keeps when it is saved and loaded. -/
structure Restored (c d : KeyboardConfig) : Prop where
  layouts : d.layouts.map LayoutUnit.shown = c.layouts.map LayoutUnit.shown
  layoutLoopCount : d.layoutLoopCount = c.layoutLoopCount
  switchingPolicy : d.switchingPolicy = c.switchingPolicy
  showIndicator : d.showIndicator = c.showIndicator
  indicatorType : d.indicatorType = c.indicatorType
  showSingle : d.showSingle = c.showSingle
  xkbOptions : c.resetOldXkbOptions → d.xkbOptions = c.xkbOptions
  defaults : d.getDefaultLayouts.map LayoutUnit.shown = c.getDefaultLayouts.map LayoutUnit.shown
  extras : d.getExtraLayouts.map LayoutUnit.shown = c.getExtraLayouts.map LayoutUnit.shown

/-- Nothing that is put between commas has one itself, and no option is empty. -/
def CommaFree (c : KeyboardConfig) : Prop :=
  (∀ u ∈ c.layouts, ',' ∉ u.displayName) ∧ (c.resetOldXkbOptions → ∀ option ∈ c.xkbOptions, option ≠ [] ∧ ',' ∉ option)

/-- A configuration is loaded as it has been saved where its labels and options are free of commas. -/
theorem saved_iff {c : KeyboardConfig} (named : ∀ u ∈ c.layouts, u.Named) : c.Restored (load c.save) ↔ c.CommaFree := by
  have names : (splitSkip (join (c.layouts.map LayoutUnit.toString))).map LayoutUnit.ofName =
      c.layouts.map LayoutUnit.bare := by
    have strings : ∀ entry ∈ c.layouts.map LayoutUnit.toString, entry ≠ [] ∧ ',' ∉ entry := by
      intro entry member
      obtain ⟨u,inside,rfl⟩ := mem_map.mp member
      exact (named u inside).toString_plain
    rw [splitSkip_join.mpr strings,map_map]
    exact map_congr_left fun u member => (named u member).ofName_toString
  have layouts : (load c.save).layouts = setLabels (c.layouts.map LayoutUnit.bare)
      (splitKeep (join (c.layouts.map LayoutUnit.displayName))) := by
    simp only [load,save,Option.getD_some,names]
  have labels := setLabels_shown named
  rw [← layouts] at labels
  have options : (c.resetOldXkbOptions → (load c.save).xkbOptions = c.xkbOptions) ↔
      (c.resetOldXkbOptions → ∀ option ∈ c.xkbOptions, option ≠ [] ∧ ',' ∉ option) := by
    refine imp_congr_right fun reset => ?_
    rw [← splitSkip_join]
    simp [load,save,reset]
  constructor
  · intro restored
    exact ⟨labels.mp restored.layouts,options.mp restored.xkbOptions⟩
  · rintro ⟨plain,good⟩
    have same := labels.mpr plain
    have loop : (load c.save).layoutLoopCount = c.layoutLoopCount := rfl
    refine ⟨same,loop,findPolicy_string _,rfl,indicatorType_flags _,rfl,options.mpr good,?_,?_⟩
    · unfold getDefaultLayouts
      rw [defaultLayouts_map,defaultLayouts_map,same,loop]
    · unfold getExtraLayouts
      rw [loop]
      split
      · rfl
      · rw [map_drop,map_drop,same]

/-- A configuration with two layouts, the second of which has a variant. -/
def twoLayouts (label : Text) : KeyboardConfig :=
  ⟨['p','c'],true,[['g','r','p']],true,[⟨['u','s'],[],label⟩,⟨['d','e'],['n','e','o'],[]⟩],NO_LOOPING,.Window,true,
    .ShowFlag,false⟩

theorem twoLayouts_named (label : Text) : ∀ u ∈ (twoLayouts label).layouts, u.Named := by
  intro u member
  simp only [twoLayouts,mem_cons,not_mem_nil,or_false] at member
  rcases member with rfl | rfl
  · constructor <;> simp
  · constructor <;> simp

theorem saved_two : (twoLayouts ['E','N']).Restored (load (twoLayouts ['E','N']).save) ↔ (twoLayouts ['E','N']).CommaFree :=
  saved_iff (twoLayouts_named ['E','N'])

/-- A label with a comma becomes the labels of two layouts. -/
theorem comma_shifts_labels :
    (load (twoLayouts ['a',',','b']).save).layouts.map LayoutUnit.getDisplayName = [['a'],['b']] ∧
      ¬(twoLayouts ['a',',','b']).Restored (load (twoLayouts ['a',',','b']).save) := by
  refine ⟨by decide,fun restored => ?_⟩
  have different : (load (twoLayouts ['a',',','b']).save).layouts.map LayoutUnit.shown ≠
      (twoLayouts ['a',',','b']).layouts.map LayoutUnit.shown := by decide
  exact different restored.layouts

end KeyboardConfig
end KdeWorkspace.KeyboardLayouts
