import KdeWorkspace.KeyboardLayouts
import KdeWorkspace.OrderedMaps
import Mathlib.Data.List.Lex
import Mathlib.Data.Char
import Mathlib.Data.List.TakeWhile
import Mathlib.Logic.Equiv.List

/-!
The memory of the keyboard layouts of the desktops or applications, as it is saved into a file and restored from it.

The reader takes back what the writer has written, but gives up at the first item with a blank key or without a current
layout, and then nothing is restored; and an empty layout at the beginning of a set is lost in the list of the names.
`restoreFromFile_iff` says when every entry comes back.
-/
namespace KdeWorkspace.LayoutMemories
open KeyboardLayouts OrderedMaps List

structure LayoutSet where
  layouts : List LayoutUnit
  currentLayout : LayoutUnit
deriving Repr, DecidableEq

/-- The comparison of layouts, which leaves the label out. -/
def sameLayout (u v : LayoutUnit) : Bool := decide (u.layout = v.layout ∧ u.variant = v.variant)

/-- `QList::contains`. -/
def contains (layouts : List LayoutUnit) (u : LayoutUnit) : Bool := layouts.any (sameLayout u)

def noLayout : LayoutUnit := ⟨[],[],[]⟩

def isValid (u : LayoutUnit) : Bool := decide (u.layout ≠ [])

def LayoutSet.isValid (set : LayoutSet) : Bool :=
  LayoutMemories.isValid set.currentLayout && contains set.layouts set.currentLayout

abbrev LayoutMap := OrderedMap Text LayoutSet

structure Memory where
  keyboardConfig : KeyboardConfig
  layoutMap : LayoutMap
  globalLayout : LayoutUnit

/-- `X11Helper::getCurrentLayouts`, for the layouts and the group that the server tells. -/
def getCurrentLayouts (currentLayouts : List LayoutUnit) (group : Nat) : LayoutSet :=
  ⟨currentLayouts,(currentLayouts[group]?).getD noLayout⟩

/-- `LayoutMemory::layoutChanged`, for the key of the current desktop or application. -/
def layoutChanged (layoutMap : LayoutMap) (layoutMapKey : Text) (currentLayouts : List LayoutUnit) (group : Nat) :
    LayoutMap :=
  if layoutMapKey = [] then layoutMap else layoutMap.insert layoutMapKey (getCurrentLayouts currentLayouts group)

/-- An item with its attributes, the value of one that is missing is empty. -/
structure Item where
  ownerKey : Text
  currentLayout : Text
  layouts : Text
deriving Repr, DecidableEq

structure Document where
  version : Text
  SwitchMode : Text
  items : List Item
deriving Repr, DecidableEq

/-- What is used of Qt: which characters are blank, and that a document is read as it has been written. -/
structure Qt where
  isSpace : Char → Bool
  toText : Document → Text
  read : Text → Option Document
  toText_nonempty : ∀ doc, toText doc ≠ []
  read_toText : ∀ doc, read (toText doc) = some doc

def VERSION : Text := ['1','.','0']

def layoutSetString (layouts : List LayoutUnit) : Text :=
  layouts.foldl (fun str u => (if str = [] then str else str ++ [',']) ++ u.toString) []

def canPersist (m : Memory) : Bool := decide (m.keyboardConfig.switchingPolicy ≠ .Window)

def mapItems (layoutMap : LayoutMap) : List Item :=
  layoutMap.entries.map fun e => ⟨e.1,e.2.currentLayout.toString,layoutSetString e.2.layouts⟩

def getLayoutMapAsString (qt : Qt) (m : Memory) : Text :=
  if canPersist m then
    if m.keyboardConfig.switchingPolicy = .Global then
      if isValid m.globalLayout then
        qt.toText ⟨VERSION,getSwitchingPolicyString .Global,[⟨[],m.globalLayout.toString,[]⟩]⟩
      else []
    else qt.toText ⟨VERSION,getSwitchingPolicyString m.keyboardConfig.switchingPolicy,mapItems m.layoutMap⟩
  else []

/-- The file, if there is one afterwards. -/
def saveToFile (qt : Qt) (m : Memory) : Option Text :=
  let xml := getLayoutMapAsString qt m
  if xml = [] then none else some xml

structure MapHandler where
  layoutMap : LayoutMap
  globalLayout : LayoutUnit

def trimmedIsEmpty (qt : Qt) (key : Text) : Bool := key.all qt.isSpace

def readSet (item : Item) : LayoutSet :=
  ⟨(splitKeep item.layouts).map LayoutUnit.ofName,LayoutUnit.ofName item.currentLayout⟩

/-- An item is refused if there is no result. -/
def readItem (qt : Qt) (policy : SwitchingPolicy) (h : MapHandler) (item : Item) : Option MapHandler :=
  if policy = .Global then some { h with globalLayout := LayoutUnit.ofName item.currentLayout }
  else if trimmedIsEmpty qt item.ownerKey || !(readSet item).isValid then none
  else some { h with layoutMap := h.layoutMap.insert item.ownerKey (readSet item) }

/-- The elements of a document are read until one is refused. -/
def parse (qt : Qt) (policy : SwitchingPolicy) (doc : Document) : Option MapHandler :=
  if doc.version = VERSION ∧ doc.SwitchMode = getSwitchingPolicyString policy then
    doc.items.foldlM (readItem qt policy) ⟨.empty,noLayout⟩
  else none

def containsAll (set1 set2 : List LayoutUnit) : Bool := set2.all (contains set1)

def restoreMap (layouts : List LayoutUnit) (read : LayoutMap) : LayoutMap :=
  read.entries.foldl (fun m e => if containsAll layouts e.2.layouts then m.insert e.1 e.2 else m) .empty

def restoreFromFile (qt : Qt) (m : Memory) (file : Option Text) : Memory × Bool :=
  let m := { m with globalLayout := noLayout }
  if canPersist m then
    match (file.bind qt.read).bind (parse qt m.keyboardConfig.switchingPolicy) with
    | none => (m,false)
    | some h =>
      if m.keyboardConfig.switchingPolicy = .Global then
        if isValid h.globalLayout && contains m.keyboardConfig.layouts h.globalLayout then
          ({ m with globalLayout := h.globalLayout },true)
        else (m,true)
      else ({ m with layoutMap := restoreMap m.keyboardConfig.layouts h.layoutMap },true)
  else (m,false)

/-- A configuration as it has been loaded, that keeps layouts by desktop or application. -/
structure Configuration where
  config : KeyboardConfig
  loaded : ∃ kxkbrc, config.layouts = (KeyboardConfig.load kxkbrc).layouts
  policy : config.switchingPolicy = .Desktop ∨ config.switchingPolicy = .Application

/-- The layouts of the server are among those that are configured. -/
def Known (configuration : Configuration) (layouts : List LayoutUnit) : Prop :=
  ∀ u ∈ layouts, u.displayName = [] ∧ contains configuration.config.layouts u = true

/-- A call of `layoutChanged`. -/
structure Change (configuration : Configuration) where
  layoutMapKey : Text
  currentLayouts : List LayoutUnit
  group : Nat
  known : Known configuration currentLayouts

/-- The map after some calls. -/
def memory {configuration : Configuration} (changes : List (Change configuration)) : LayoutMap :=
  changes.foldl (fun m c => layoutChanged m c.layoutMapKey c.currentLayouts c.group) .empty

/-- What every entry is. -/
def Remembered (configuration : Configuration) (layoutMap : LayoutMap) : Prop :=
  ∀ key set, layoutMap.lookup key = some set →
    key ≠ [] ∧ ∃ layouts group, set = getCurrentLayouts layouts group ∧ Known configuration layouts

/-- An entry that can be restored. -/
def Usable (qt : Qt) (key : Text) (set : LayoutSet) : Prop := trimmedIsEmpty qt key = false ∧ set.isValid = true

/-- What is in the map after a new start. -/
def restored (qt : Qt) (configuration : Configuration) (layoutMap : LayoutMap) : LayoutMap :=
  (restoreFromFile qt ⟨configuration.config,.empty,noLayout⟩
    (saveToFile qt ⟨configuration.config,layoutMap,noLayout⟩)).1.layoutMap

/-- Every usable entry is restored. -/
def Restores (qt : Qt) (configuration : Configuration) (layoutMap : LayoutMap) : Prop :=
  ∀ key set, layoutMap.lookup key = some set → Usable qt key set →
    (restored qt configuration layoutMap).lookup key = some set

/-- The first layout of a set has a name. -/
def Begins (set : LayoutSet) : Prop := ∀ u ∈ set.layouts.head?, u.toString ≠ []

/-- All entries are usable and begin with a layout, or none is usable. -/
def Holds (qt : Qt) (layoutMap : LayoutMap) : Prop :=
  (∀ key set, layoutMap.lookup key = some set → Usable qt key set ∧ Begins set) ∨
    ∀ key set, layoutMap.lookup key = some set → ¬ Usable qt key set

theorem setLabels_names {layouts : List LayoutUnit} {labels : List Text} {u : LayoutUnit}
    (inside : u ∈ setLabels layouts labels) : ∃ v ∈ layouts, v.layout = u.layout ∧ v.variant = u.variant := by
  induction layouts generalizing labels with
  | nil =>
    rw [setLabels_nil] at inside
    cases inside
  | cons v layouts ih =>
    cases labels with
    | nil => exact ⟨u,inside,rfl,rfl⟩
    | cons label labels =>
      rw [setLabels] at inside
      rcases mem_cons.mp inside with rfl | later
      · refine ⟨v,mem_cons_self,?_⟩
        split <;> exact ⟨rfl,rfl⟩
      · obtain ⟨w,there,same⟩ := ih later
        exact ⟨w,mem_cons_of_mem _ there,same⟩

/-- A name without a comma gives a layout without separators. -/
structure Clean (u : LayoutUnit) : Prop where
  label : u.displayName = []
  layout_open : '(' ∉ u.layout
  variant_open : '(' ∉ u.variant
  layout_comma : ',' ∉ u.layout
  variant_comma : ',' ∉ u.variant

theorem mem_stripVariantName {c : Char} {variant : Text} (inside : c ∈ stripVariantName variant) : c ∈ variant := by
  rw [stripVariantName] at inside
  split at inside
  · exact dropLast_subset variant inside
  · exact inside

theorem clean_ofName {name : Text} (comma : ',' ∉ name) : Clean (LayoutUnit.ofName name) := by
  rw [LayoutUnit.ofName]
  split
  case h_1 layout variant more parts =>
    have first : layout ∈ name.splitOn '(' := by simp [parts]
    have second : variant ∈ name.splitOn '(' := by simp [parts]
    refine ⟨rfl,not_mem_of_mem_splitOn first,?_,?_,?_⟩
    · exact fun inside => not_mem_of_mem_splitOn second (mem_stripVariantName inside)
    · exact fun inside => comma (mem_of_mem_splitOn first inside)
    · exact fun inside => comma (mem_of_mem_splitOn second (mem_stripVariantName inside))
  case h_2 layout parts =>
    have first : layout ∈ name.splitOn '(' := by simp [parts]
    exact ⟨rfl,not_mem_of_mem_splitOn first,by simp,fun inside => comma (mem_of_mem_splitOn first inside),by simp⟩
  case h_3 => exact ⟨rfl,by simp,by simp,by simp,by simp⟩

variable {configuration : Configuration} {u : LayoutUnit} {layouts : List LayoutUnit} {set : LayoutSet} {key : Text}
  {qt : Qt} {layoutMap : LayoutMap}

theorem Known.clean (known : Known configuration layouts) (inside : u ∈ layouts) : Clean u := by
  obtain ⟨label,configured⟩ := known u inside
  obtain ⟨kxkbrc,loaded⟩ := configuration.loaded
  obtain ⟨v,there,same⟩ := any_eq_true.mp configured
  rw [loaded] at there
  obtain ⟨w,named,layout,variant⟩ := setLabels_names there
  obtain ⟨name,piece,rfl⟩ := mem_map.mp named
  have comma : ',' ∉ name := not_mem_of_mem_splitOn (mem_of_mem_filter piece)
  have clean := clean_ofName comma
  obtain ⟨same_layout,same_variant⟩ := of_decide_eq_true same
  have layout_is := same_layout.trans layout.symm
  have variant_is := same_variant.trans variant.symm
  refine ⟨label,?_,?_,?_,?_⟩
  · rw [layout_is]
    exact clean.layout_open
  · rw [variant_is]
    exact clean.variant_open
  · rw [layout_is]
    exact clean.layout_comma
  · rw [variant_is]
    exact clean.variant_comma

theorem Clean.ofName_toString (clean : Clean u) : LayoutUnit.ofName u.toString = u := by
  rw [LayoutUnit.ofName_toString clean.layout_open clean.variant_open,LayoutUnit.bare,← clean.label]

theorem Clean.toString_comma (clean : Clean u) : ',' ∉ u.toString := by
  rw [LayoutUnit.toString]
  split
  · exact clean.layout_comma
  · simp [clean.layout_comma,clean.variant_comma]

theorem layoutSetString_from {str : Text} (any : str ≠ []) (layouts : List LayoutUnit) :
    layouts.foldl (fun str u => (if str = [] then str else str ++ [',']) ++ u.toString) str =
      join (str :: layouts.map LayoutUnit.toString) := by
  induction layouts generalizing str with
  | nil => simp [join,intercalate]
  | cons u layouts ih =>
    rw [foldl_cons,if_neg any,ih (by simp [any]),map_cons]
    rw [join_cons str (cons_ne_nil _ _)]
    cases layouts with
    | nil => simp [join,intercalate]
    | cons v layouts =>
      rw [join_cons _ (by simp),join_cons _ (by simp)]
      simp

/-- The layouts without the empty ones at the beginning. -/
def rest (layouts : List LayoutUnit) : List LayoutUnit := layouts.dropWhile fun u => decide (u.toString = [])

theorem layoutSetString_eq (layouts : List LayoutUnit) :
    layoutSetString layouts = join ((rest layouts).map LayoutUnit.toString) := by
  induction layouts with
  | nil => rfl
  | cons u layouts ih =>
    by_cases empty : u.toString = []
    · have goes : rest (u :: layouts) = rest layouts := by simp [rest,empty]
      rw [goes,← ih,layoutSetString,foldl_cons,if_pos rfl,empty]
      rfl
    · have stays : rest (u :: layouts) = u :: layouts := by simp [rest,empty]
      rw [stays,layoutSetString,foldl_cons,if_pos rfl,nil_append,layoutSetString_from empty,map_cons]

theorem mem_rest (inside : u ∈ layouts) (any : u.toString ≠ []) : u ∈ rest layouts := by
  have whole := takeWhile_append_dropWhile (p := fun u : LayoutUnit => decide (u.toString = [])) (l := layouts)
  rw [← whole] at inside
  rcases mem_append.mp inside with gone | stays
  · have passed := mem_takeWhile_imp gone
    exact absurd (of_decide_eq_true passed) any
  · exact stays

theorem readSet_eq (known : Known configuration layouts) (group : Nat) (key : Text) :
    readSet ⟨key,(getCurrentLayouts layouts group).currentLayout.toString,
        layoutSetString (getCurrentLayouts layouts group).layouts⟩ =
      ⟨if rest layouts = [] then [noLayout] else rest layouts,(getCurrentLayouts layouts group).currentLayout⟩ := by
  have parts : (splitKeep (layoutSetString layouts)).map LayoutUnit.ofName =
      if rest layouts = [] then [noLayout] else rest layouts := by
    rw [layoutSetString_eq]
    split
    case isTrue none =>
      rw [none]
      rfl
    case isFalse any =>
      have clean : ∀ u ∈ rest layouts, Clean u := fun u inside => known.clean (dropWhile_subset _ inside)
      rw [splitKeep,join,splitOn_intercalate ',' _ (by simpa using any),map_map]
      · conv_rhs => rw [← map_id (rest layouts)]
        exact map_congr_left fun u inside => (clean u inside).ofName_toString
      · intro entry inside
        obtain ⟨u,there,rfl⟩ := mem_map.mp inside
        exact (clean u there).toString_comma
  have current : LayoutUnit.ofName (getCurrentLayouts layouts group).currentLayout.toString =
      (getCurrentLayouts layouts group).currentLayout := by
    rw [getCurrentLayouts]
    dsimp only
    cases at_group : layouts[group]? with
    | none => rfl
    | some u => exact (known.clean (mem_of_getElem? at_group)).ofName_toString
  rw [readSet]
  dsimp only
  rw [current]
  congr 1

def readEntry (key : Text) (set : LayoutSet) : LayoutSet :=
  readSet ⟨key,set.currentLayout.toString,layoutSetString set.layouts⟩

def refused (qt : Qt) (key : Text) (set : LayoutSet) : Bool := trimmedIsEmpty qt key || !(readEntry key set).isValid

theorem contains_of_mem (inside : u ∈ layouts) : contains layouts u = true :=
  any_eq_true.mpr ⟨u,inside,decide_eq_true ⟨rfl,rfl⟩⟩

theorem current_mem (layouts : List LayoutUnit) (group : Nat)
    (valid : isValid (getCurrentLayouts layouts group).currentLayout = true) :
    (getCurrentLayouts layouts group).currentLayout ∈ layouts := by
  rw [getCurrentLayouts] at valid ⊢
  dsimp only at valid ⊢
  cases at_group : layouts[group]? with
  | none =>
    rw [at_group] at valid
    exact absurd valid (by decide)
  | some u => exact mem_of_getElem? at_group

theorem toString_of_valid (valid : isValid u = true) : u.toString ≠ [] := by
  have named := of_decide_eq_true valid
  rw [LayoutUnit.toString]
  split
  · exact named
  · simp

theorem readEntry_valid (known : Known configuration layouts) (group : Nat) (key : Text) :
    (readEntry key (getCurrentLayouts layouts group)).isValid = (getCurrentLayouts layouts group).isValid := by
  rw [readEntry,readSet_eq known,LayoutSet.isValid,LayoutSet.isValid]
  cases valid : isValid (getCurrentLayouts layouts group).currentLayout with
  | false => rfl
  | true =>
    have inside := current_mem layouts group valid
    have stays := mem_rest inside (toString_of_valid valid)
    rw [if_neg (ne_nil_of_mem stays),contains_of_mem stays]
    exact (contains_of_mem inside).symm

theorem usable_iff (remembered : Remembered configuration layoutMap) {key : Text} {set : LayoutSet}
    (found : layoutMap.lookup key = some set) : Usable qt key set ↔ refused qt key set = false := by
  obtain ⟨_,layouts,group,rfl,known⟩ := remembered key set found
  rw [Usable,refused,readEntry_valid known,Bool.or_eq_false_iff,Bool.not_eq_false']

theorem readItems (qt : Qt) {policy : SwitchingPolicy} (own : policy ≠ .Global) (entries : List (Text × LayoutSet))
    (h : MapHandler) :
    (entries.map fun e => (⟨e.1,e.2.currentLayout.toString,layoutSetString e.2.layouts⟩ : Item)).foldlM
        (readItem qt policy) h =
      if ∀ e ∈ entries, refused qt e.1 e.2 = false then
        some { h with layoutMap := entries.foldl (fun m e => m.insert e.1 (readEntry e.1 e.2)) h.layoutMap }
      else none := by
  induction entries generalizing h with
  | nil => simp
  | cons e entries ih =>
    rw [map_cons,foldlM_cons]
    cases bad : refused qt e.1 e.2 with
    | true =>
      have read : readItem qt policy h ⟨e.1,e.2.currentLayout.toString,layoutSetString e.2.layouts⟩ = none := by
        rw [readItem,if_neg own]
        exact if_pos bad
      rw [read,if_neg]
      · rfl
      · intro all
        rw [all e mem_cons_self] at bad
        cases bad
    | false =>
      have read : readItem qt policy h ⟨e.1,e.2.currentLayout.toString,layoutSetString e.2.layouts⟩ =
          some { h with layoutMap := h.layoutMap.insert e.1 (readEntry e.1 e.2) } := by
        rw [readItem,if_neg own]
        exact if_neg (by rw [refused] at bad; simpa [readEntry] using bad)
      rw [read]
      simp only [Option.bind_eq_bind,Option.bind_some]
      rw [ih]
      simp only [forall_mem_cons,bad,true_and,foldl_cons]

theorem restored_eq (configuration : Configuration) (layoutMap : LayoutMap) :
    restored qt configuration layoutMap = if ∀ e ∈ layoutMap.entries, refused qt e.1 e.2 = false then
      restoreMap configuration.config.layouts
        (layoutMap.entries.foldl (fun m e => m.insert e.1 (readEntry e.1 e.2)) .empty) else .empty := by
  have own : configuration.config.switchingPolicy ≠ .Global := by
    rcases configuration.policy with is | is <;> simp [is]
  have persists : canPersist ⟨configuration.config,layoutMap,noLayout⟩ = true := by
    rcases configuration.policy with is | is <;> simp [canPersist,is]
  have again : canPersist ⟨configuration.config,.empty,noLayout⟩ = true := persists
  have file : saveToFile qt ⟨configuration.config,layoutMap,noLayout⟩ =
      some (qt.toText ⟨VERSION,getSwitchingPolicyString configuration.config.switchingPolicy,mapItems layoutMap⟩) := by
    rw [saveToFile,getLayoutMapAsString,if_pos persists,if_neg own]
    dsimp only
    rw [if_neg (qt.toText_nonempty _)]
  have read := readItems qt own layoutMap.entries ⟨.empty,noLayout⟩
  rw [restored,file,restoreFromFile]
  dsimp only
  rw [if_pos again,Option.bind_some,qt.read_toText,Option.bind_some,parse,if_pos ⟨rfl,rfl⟩,mapItems,read]
  by_cases all : ∀ e ∈ layoutMap.entries, refused qt e.1 e.2 = false
  · rw [if_pos all,if_pos all]
    dsimp only
    rw [if_neg own]
  · rw [if_neg all,if_neg all]

theorem restored_lookup (remembered : Remembered configuration layoutMap)
    (all : ∀ e ∈ layoutMap.entries, refused qt e.1 e.2 = false) {key : Text} {layouts : List LayoutUnit} {group : Nat}
    (found : layoutMap.lookup key = some (getCurrentLayouts layouts group)) (known : Known configuration layouts) :
    (restored qt configuration layoutMap).lookup key =
      some ⟨rest layouts,(getCurrentLayouts layouts group).currentLayout⟩ := by
  have usable := (usable_iff remembered found).mpr (all _ (OrderedMap.mem_entries_iff.mpr found))
  have valid : isValid (getCurrentLayouts layouts group).currentLayout = true := by
    have both := usable.2
    rw [LayoutSet.isValid,Bool.and_eq_true] at both
    exact both.1
  have stays := mem_rest (current_mem layouts group valid) (toString_of_valid valid)
  have read : readEntry key (getCurrentLayouts layouts group) =
      ⟨rest layouts,(getCurrentLayouts layouts group).currentLayout⟩ := by
    rw [readEntry,readSet_eq known,if_neg (ne_nil_of_mem stays)]
  have kept : containsAll configuration.config.layouts (rest layouts) = true := by
    rw [containsAll,all_eq_true]
    exact fun u inside => (known u (dropWhile_subset _ inside)).2
  have collected := OrderedMap.lookup_foldl_insert (fun _ _ => true) readEntry layoutMap .empty key
  simp only [if_true] at collected
  rw [found,Option.filter_some,if_pos rfl,Option.map_some,Option.some_or,read] at collected
  have tested := OrderedMap.lookup_foldl_insert
    (fun _ (set : LayoutSet) => containsAll configuration.config.layouts set.layouts) (fun _ set => set)
    (layoutMap.entries.foldl (fun (m : LayoutMap) e => m.insert e.1 (readEntry e.1 e.2)) .empty) .empty key
  rw [collected,Option.filter_some,if_pos kept,Option.map_some,Option.some_or] at tested
  rw [restored_eq,if_pos all,restoreMap]
  exact tested

theorem layoutChanged_remembered (remembered : Remembered configuration layoutMap) (layoutMapKey : Text)
    {currentLayouts : List LayoutUnit} (group : Nat) (known : Known configuration currentLayouts) :
    Remembered configuration (layoutChanged layoutMap layoutMapKey currentLayouts group) := by
  intro key set found
  rw [layoutChanged] at found
  split at found
  case isTrue => exact remembered key set found
  case isFalse any =>
    rw [OrderedMap.lookup_insert] at found
    split at found
    case isTrue same =>
      obtain rfl := Option.some.inj found
      subst same
      exact ⟨any,currentLayouts,group,rfl,known⟩
    case isFalse => exact remembered key set found

theorem memory_remembered (changes : List (Change configuration)) : Remembered configuration (memory changes) := by
  rw [memory]
  have start : Remembered configuration (.empty : LayoutMap) := by
    intro key set found
    cases found
  revert start
  generalize (OrderedMap.empty : LayoutMap) = layoutMap
  intro remembered
  induction changes generalizing layoutMap with
  | nil => exact remembered
  | cons change changes ih =>
    rw [foldl_cons]
    exact ih _ (layoutChanged_remembered remembered change.layoutMapKey change.group change.known)

/-- Every usable entry is restored exactly if all entries are usable and no set begins with an empty layout, or none is
usable. -/
theorem restoreFromFile_iff (qt : Qt) (configuration : Configuration) (changes : List (Change configuration)) :
    Restores qt configuration (memory changes) ↔ Holds qt (memory changes) := by
  have remembered := memory_remembered changes
  revert remembered
  generalize memory changes = layoutMap
  intro remembered
  constructor
  · intro restores
    by_cases any : ∃ key set, layoutMap.lookup key = some set ∧ Usable qt key set
    · left
      obtain ⟨key,set,found,usable⟩ := any
      have all : ∀ e ∈ layoutMap.entries, refused qt e.1 e.2 = false := by
        by_contra some_refused
        have back := restores key set found usable
        rw [restored_eq,if_neg some_refused] at back
        cases back
      intro key set found
      have usable := (usable_iff remembered found).mpr (all _ (OrderedMap.mem_entries_iff.mpr found))
      refine ⟨usable,?_⟩
      have back := restores key set found usable
      obtain ⟨_,layouts,group,rfl,known⟩ := remembered key set found
      rw [restored_lookup remembered all found known,Option.some.injEq,LayoutSet.mk.injEq] at back
      intro u first empty
      change u ∈ layouts.head? at first
      change rest layouts = layouts ∧ _ at back
      cases layouts with
      | nil => cases first
      | cons v layouts =>
        obtain rfl := Option.some.inj first
        have shorter : (rest (v :: layouts)).length ≤ layouts.length := by
          have goes : rest (v :: layouts) = rest layouts := by simp [rest,empty]
          rw [goes]
          exact (dropWhile_sublist _).length_le
        rw [back.1,length_cons] at shorter
        omega
    · right
      intro key set found usable
      exact any ⟨key,set,found,usable⟩
  · rintro (all | none) key set found usable
    · have accepted : ∀ e ∈ layoutMap.entries, refused qt e.1 e.2 = false := by
        rintro ⟨key,set⟩ inside
        have found := OrderedMap.lookup_of_mem inside
        exact (usable_iff remembered found).mp (all key set found).1
      have begins := (all key set found).2
      obtain ⟨_,layouts,group,rfl,known⟩ := remembered key set found
      rw [restored_lookup remembered accepted found known,Option.some.injEq,LayoutSet.mk.injEq]
      refine ⟨?_,rfl⟩
      change rest layouts = layouts
      cases layouts with
      | nil => rfl
      | cons v layouts =>
        have named := begins v rfl
        simp [rest,named]
    · exact absurd usable (none key set found)

instance encodableChar : Encodable Char := Encodable.ofLeftInverse Char.toNat Char.ofNat Char.ofNat_toNat

def Document.attributes (doc : Document) : (Text × Text) × List (Text × Text × Text) :=
  ((doc.version,doc.SwitchMode),doc.items.map fun item => (item.ownerKey,item.currentLayout,item.layouts))

def Document.ofAttributes (a : (Text × Text) × List (Text × Text × Text)) : Document :=
  ⟨a.1.1,a.1.2,a.2.map fun item => ⟨item.1,item.2.1,item.2.2⟩⟩

instance : Encodable Document :=
  Encodable.ofLeftInverse Document.attributes Document.ofAttributes fun doc => by
    rw [Document.ofAttributes,Document.attributes,List.map_map]
    exact congrArg (Document.mk doc.version doc.SwitchMode) (List.map_id doc.items)

/-- Documents as numbers, written as that many marks. -/
def numbered : Qt where
  isSpace c := decide (c = ' ')
  toText doc := List.replicate (Encodable.encode doc+1) '|'
  read text := Encodable.decode (text.length-1)
  toText_nonempty := by simp
  read_toText := by simp

/-- The policy is that of the desktops. -/
def usDe : Kxkbrc where
  Model := none
  ResetOldOptions := none
  Options := none
  Use := some true
  LayoutList := some "us,de".toList
  DisplayNames := none
  LayoutLoopCount := none
  SwitchMode := some "Desktop".toList
  ShowLayoutIndicator := none
  ShowFlag := none
  ShowLabel := none
  ShowSingle := none

def desktops : Configuration := ⟨KeyboardConfig.load usDe,⟨usDe,rfl⟩,.inl (by decide +kernel)⟩

def both : List LayoutUnit := [⟨['u','s'],[],[]⟩,⟨['d','e'],[],[]⟩]

theorem both_known : Known desktops both := by
  rw [Known]
  decide +kernel

/-- The second desktop is left while the server tells a group that it does not have. -/
def twoDesktops : List (Change desktops) := [⟨['1'],both,0,both_known⟩,⟨['2'],both,2,both_known⟩]

theorem first_found : (memory twoDesktops).lookup ['1'] = some (getCurrentLayouts both 0) := by
  rw [memory,twoDesktops,foldl_cons,foldl_cons,foldl_nil,layoutChanged,layoutChanged]
  rw [if_neg (by decide),if_neg (by decide),OrderedMap.lookup_insert,OrderedMap.lookup_insert]
  rfl

theorem second_found : (memory twoDesktops).lookup ['2'] = some (getCurrentLayouts both 2) := by
  rw [memory,twoDesktops,foldl_cons,foldl_cons,foldl_nil,layoutChanged,layoutChanged]
  rw [if_neg (by decide),if_neg (by decide),OrderedMap.lookup_insert]
  rfl

theorem first_lost :
    ¬ ∀ (qt : Qt) (configuration : Configuration) (changes : List (Change configuration)),
      Restores qt configuration (memory changes) := by
  intro all
  have back := all numbered desktops twoDesktops ['1'] _ first_found (by rw [Usable]; decide +kernel)
  have bad : refused numbered ['2'] (getCurrentLayouts both 2) = true := by decide +kernel
  rw [restored_eq,if_neg] at back
  · cases back
  · intro accepted
    have good := accepted _ (OrderedMap.mem_entries_iff.mpr second_found)
    rw [bad] at good
    cases good

end KdeWorkspace.LayoutMemories
