import KdeWorkspace.StableSorts
import KdeWorkspace.TasksModel
import Mathlib.Data.Prod.Lex
import Mathlib.Data.String.Basic

/-!
The strategies that sort the tasks of a group by themselves: by name, by desktop and by activity.

Two of them sort stably by an order of the items, so they keep what is sorted, and the place of one item in
the sorted list is where it has to go among the others (`check_sorted`). The third one fills a map that
turns items of one name round and leaves out the startup items, see `sorting_right_iff`.

Names are the ones in lower case, in the order of the strings.
-/
namespace KdeWorkspace.SortingStrategies
open List
open TasksModel (Id move)
open StableSorts

inductive TaskSortingStrategy
  | AlphaSorting
  | DesktopSorting
  | ActivitySorting
deriving Repr, DecidableEq

/-- What the strategies ask of an item. A startup item is a task item without a task. -/
inductive Item (Name Activity : Type)
  | launcher (name : Name)
  | task (taskName : Name) (desktop : Int) (activities : List Activity)
  | startup (name : Name)
  | group (name : Name) (members : List (Item Name Activity))

namespace Item
variable {Name Activity : Type}

def isStartupItem : Item Name Activity → Bool
  | .startup _ => true
  | _ => false

def isLauncher : Item Name Activity → Bool
  | .launcher _ => true
  | _ => false

/-- The name of the task, or of the item where there is none. -/
def agiName : Item Name Activity → Name
  | .launcher name => name
  | .task taskName _ _ => taskName
  | .startup name => name
  | .group name _ => name

mutual
def desktop (numberOfDesktops : Nat) : Item Name Activity → Int
  | .launcher _ => 0
  | .task _ desktop _ => desktop
  | .startup _ => 0
  | .group _ members =>
    match desktops numberOfDesktops members with
    | [] => 0
    | desk :: others => if numberOfDesktops < 2 then 0 else if ∀ d ∈ others, d = desk then desk else 0

def desktops (numberOfDesktops : Nat) : List (Item Name Activity) → List Int
  | [] => []
  | item :: items => item.desktop numberOfDesktops :: desktops numberOfDesktops items
end

mutual
/-- The activities that an item counts for, one for each task. -/
def activities : Item Name Activity → List Activity
  | .launcher _ => []
  | .task _ _ activities => activities
  | .startup _ => []
  | .group _ members => activitiesIn members

def activitiesIn : List (Item Name Activity) → List Activity
  | [] => []
  | item :: items => item.activities ++ activitiesIn items
end

/-- `indexOf`. -/
def place [DecidableEq Activity] (order : List Activity) (activity : Activity) : Int :=
  if activity ∈ order then order.idxOf activity else -1

mutual
def getActivitiesIndexes [DecidableEq Activity] (order : List Activity) : Item Name Activity → List Int
  | .launcher _ => []
  | .task _ _ activities => activities.map (place order)
  | .startup _ => []
  | .group _ members => memberIndexes order [] members

/-- The loop over the members of a group. -/
def memberIndexes [DecidableEq Activity] (order : List Activity) (cacheEntry : List Int) :
    List (Item Name Activity) → List Int
  | [] => cacheEntry
  | member :: members =>
    memberIndexes order ((member.getActivitiesIndexes order).foldl
      (fun cacheEntry i => if i ∈ cacheEntry then cacheEntry else cacheEntry ++ [i]) cacheEntry) members
end

end Item

section
variable {Name Activity : Type} [LinearOrder Name] [LinearOrder Activity]

structure GroupManager (Name Activity : Type) where
  separateLaunchers : Bool
  numberOfDesktops : Nat
  item : Id → Item Name Activity

/-- `QMap::insertMulti`: in front of the values that the key has already. -/
def insertMulti (key : Name) (value : Id) : List (Name × Id) → List (Name × Id)
  | [] => [(key,value)]
  | entry :: map => if entry.1 < key then entry :: insertMulti key value map else (key,value) :: entry :: map

structure Maps (Name : Type) where
  launcherMap : List (Name × Id)
  map : List (Name × Id)

/-- An item of the loop. -/
def Maps.add (gm : GroupManager Name Activity) (maps : Maps Name) (id : Id) : Maps Name :=
  match gm.item id with
  | .group name _ => { maps with map := insertMulti name id maps.map }
  | .launcher name =>
    if gm.separateLaunchers then { maps with launcherMap := insertMulti name id maps.launcherMap }
    else { maps with map := insertMulti name id maps.map }
  | .startup _ => maps
  | .task taskName _ _ => { maps with map := insertMulti taskName id maps.map }

def alphaSortItems (gm : GroupManager Name Activity) (items : List Id) : List Id :=
  let maps := items.foldl (Maps.add gm) ⟨[],[]⟩
  (if gm.separateLaunchers then maps.launcherMap.map Prod.snd else []) ++ maps.map.map Prod.snd

def lessThan (gm : GroupManager Name Activity) (left right : Id) : Bool :=
  let leftDesktop := (gm.item left).desktop gm.numberOfDesktops
  let rightDesktop := (gm.item right).desktop gm.numberOfDesktops
  if leftDesktop = rightDesktop then (gm.item left).agiName < (gm.item right).agiName else leftDesktop < rightDesktop

def lessThanSeperateLaunchers (gm : GroupManager Name Activity) (left right : Id) : Bool :=
  if (gm.item left).isStartupItem then
    if (gm.item right).isStartupItem then (gm.item left).agiName < (gm.item right).agiName else false
  else if (gm.item right).isStartupItem then true
  else if (gm.item left).isLauncher then
    if (gm.item right).isLauncher then (gm.item left).agiName < (gm.item right).agiName else true
  else if (gm.item right).isLauncher then false
  else lessThan gm left right

/-- The comparison that `sortItems` takes. -/
def desktopLess (gm : GroupManager Name Activity) : Id → Id → Bool :=
  if gm.separateLaunchers then lessThanSeperateLaunchers gm else lessThan gm

/-- The order of the activities: by the number of their tasks, then by their names. -/
def checkActivitiesOrder (gm : GroupManager Name Activity) (items : List Id) : List Activity :=
  let all := Item.activitiesIn (items.map gm.item)
  all.dedup.mergeSort fun a b => if all.count a = all.count b then a ≤ b else all.count b < all.count a

/-- The loop of the comparator over two sorted lists of indexes. -/
def before : List Int → List Int → Bool
  | [],_ => false
  | _ :: _,[] => true
  | a :: it1,b :: it2 => if a = b then before it1 it2 else a < b

def priority (gm : GroupManager Name Activity) (order : List Activity) (id : Id) : List Int :=
  ((gm.item id).getActivitiesIndexes order).mergeSort (· ≤ ·)

def activityLess (gm : GroupManager Name Activity) (order : List Activity) (i1 i2 : Id) : Bool :=
  before (priority gm order i1) (priority gm order i2)

/-- `std::stable_sort`. -/
def stableSort (less : Id → Id → Bool) (items : List Id) : List Id := items.mergeSort (upTo less)

/-- `m_activitiesOrder` after `sortItems`, which fills it where it is empty. -/
def activitiesOrder (gm : GroupManager Name Activity) (order : List Activity) (items : List Id) : List Activity :=
  if order = [] then checkActivitiesOrder gm items else order

def sortItems (gm : GroupManager Name Activity) (order : List Activity) (items : List Id) : TaskSortingStrategy → List Id
  | .AlphaSorting => alphaSortItems gm items
  | .DesktopSorting => stableSort (desktopLess gm) items
  | .ActivitySorting => stableSort (activityLess gm (activitiesOrder gm order items)) items

/-- `QList::indexOf`. -/
def indexOf (items : List Id) (item : Id) : Int := if item ∈ items then items.idxOf item else -1

/-- `TaskGroup::moveItem`. -/
def moveItem (members : List Id) (oldIndex newIndex : Int) : List Id :=
  if (members.length : Int) ≤ newIndex ∨ newIndex < 0 ∨ (members.length : Int) ≤ oldIndex ∨ oldIndex < 0 then members
  else move members oldIndex.toNat newIndex.toNat

/-- `AbstractSortingStrategy::check` for an item of a group. -/
def check (gm : GroupManager Name Activity) (order : List Activity) (strategy : TaskSortingStrategy) (members : List Id)
    (item : Id) : List Id :=
  if (gm.item item).isStartupItem then members
  else
    let sortedList := sortItems gm order members strategy
    let oldIndex := indexOf members item
    let newIndex := indexOf sortedList item
    if oldIndex ≠ newIndex then moveItem members oldIndex newIndex else members

/-- By name an item comes behind the launchers, if these are separate, and then in the order of the names. -/
def alphaKey (gm : GroupManager Name Activity) (id : Id) : Nat ×ₗ Name :=
  toLex (if gm.separateLaunchers ∧ (gm.item id).isLauncher then 0 else 1,(gm.item id).agiName)

/-- What comes first, with the order that the activities have. -/
def less (gm : GroupManager Name Activity) (order : List Activity) : TaskSortingStrategy → Id → Id → Bool
  | .AlphaSorting => fun a b => alphaKey gm a < alphaKey gm b
  | .DesktopSorting => desktopLess gm
  | .ActivitySorting => activityLess gm order

/-- Nothing comes behind something that it should come in front of. -/
def Sorted (less : Id → Id → Bool) (items : List Id) : Prop := items.Pairwise fun a b => upTo less a b = true

/-- What a strategy should do with the members of a group: sort them, leave them alone where they are
sorted, and put one of them where it belongs among others that are sorted. -/
structure SortsRight (gm : GroupManager Name Activity) (order : List Activity) (strategy : TaskSortingStrategy)
    (items : List Id) : Prop where
  perm : (sortItems gm order items strategy).Perm items
  sorted : Sorted (less gm (activitiesOrder gm order items) strategy) (sortItems gm order items strategy)
  keeps : Sorted (less gm (activitiesOrder gm order items) strategy) items → sortItems gm order items strategy = items
  checks : ∀ item ∈ items, (gm.item item).isStartupItem = false →
    Sorted (less gm (activitiesOrder gm order items) strategy) (items.erase item) →
      Sorted (less gm (activitiesOrder gm order items) strategy) (check gm order strategy items item) ∧
        (check gm order strategy items item).erase item = items.erase item ∧
        (check gm order strategy items item).Perm items
end

section
variable {Name Activity : Type} [LinearOrder Name] {gm : GroupManager Name Activity}

/-- By the desktop and then by the name. -/
def desktopKey (gm : GroupManager Name Activity) (id : Id) : Int ×ₗ Name :=
  toLex ((gm.item id).desktop gm.numberOfDesktops,(gm.item id).agiName)

/-- Launchers come first and startup items last, both in the order of their names. -/
def separateKey (gm : GroupManager Name Activity) (id : Id) : Nat ×ₗ Int ×ₗ Name :=
  if (gm.item id).isStartupItem then toLex (2,toLex (0,(gm.item id).agiName))
  else if (gm.item id).isLauncher then toLex (0,toLex (0,(gm.item id).agiName))
  else toLex (1,desktopKey gm id)

theorem lessThan_eq (gm : GroupManager Name Activity) (left right : Id) :
    lessThan gm left right = decide (desktopKey gm left < desktopKey gm right) := by
  rw [Bool.eq_iff_iff,decide_eq_true_iff,desktopKey,desktopKey,Prod.Lex.toLex_lt_toLex,lessThan]
  dsimp only
  split
  · rename_i same
    simp [same]
  · rename_i other
    simp [other]

theorem lessThanSeperateLaunchers_eq (gm : GroupManager Name Activity) (left right : Id) :
    lessThanSeperateLaunchers gm left right = decide (separateKey gm left < separateKey gm right) := by
  rw [Bool.eq_iff_iff,decide_eq_true_iff,separateKey,separateKey,lessThanSeperateLaunchers]
  cases (gm.item left).isStartupItem <;> cases (gm.item right).isStartupItem <;>
    cases (gm.item left).isLauncher <;> cases (gm.item right).isLauncher <;>
      simp [Prod.Lex.toLex_lt_toLex,lessThan_eq]

theorem desktopLess_weak (gm : GroupManager Name Activity) : WeakOrder (desktopLess gm) := by
  unfold desktopLess
  split
  · have same : lessThanSeperateLaunchers gm = fun a b => decide (separateKey gm a < separateKey gm b) := by
      funext a b
      exact lessThanSeperateLaunchers_eq gm a b
    rw [same]
    exact weakOrder_key (separateKey gm)
  · have same : lessThan gm = fun a b => decide (desktopKey gm a < desktopKey gm b) := by
      funext a b
      exact lessThan_eq gm a b
    rw [same]
    exact weakOrder_key (desktopKey gm)

theorem before_asymm (l r : List Int) (first : before l r = true) : before r l = false := by
  induction l generalizing r with
  | nil => cases first
  | cons a it1 ih =>
    cases r with
    | nil => rfl
    | cons b it2 =>
      rw [before] at first ⊢
      by_cases same : a = b
      · rw [if_pos same] at first
        rw [if_pos same.symm]
        exact ih it2 first
      · rw [if_neg same,decide_eq_true_iff] at first
        rw [if_neg (Ne.symm same)]
        exact decide_eq_false (not_lt_of_gt first)

theorem before_between (l m r : List Int) (first : before l r = true) : before l m = true ∨ before m r = true := by
  induction l generalizing m r with
  | nil => cases first
  | cons a it1 ih =>
    cases m with
    | nil => exact .inl rfl
    | cons b it2 =>
      cases r with
      | nil => exact .inr rfl
      | cons c it3 =>
        rw [before] at first ⊢
        rw [before]
        by_cases same : a = c
        · subst same
          rw [if_pos rfl] at first
          by_cases other : a = b
          · subst other
            rw [if_pos rfl,if_pos rfl]
            exact ih it2 it3 first
          · rw [if_neg other,if_neg (Ne.symm other),decide_eq_true_iff,decide_eq_true_iff]
            omega
        · rw [if_neg same,decide_eq_true_iff] at first
          by_cases left : a = b
          · subst left
            rw [if_neg same]
            exact .inr (decide_eq_true first)
          · by_cases right : b = c
            · subst right
              rw [if_neg left]
              exact .inl (decide_eq_true first)
            · rw [if_neg left,if_neg right,decide_eq_true_iff,decide_eq_true_iff]
              omega

variable [LinearOrder Activity]

theorem less_weak (gm : GroupManager Name Activity) (order : List Activity) (strategy : TaskSortingStrategy) :
    WeakOrder (less gm order strategy) := by
  cases strategy with
  | AlphaSorting => exact weakOrder_key (alphaKey gm)
  | DesktopSorting => exact desktopLess_weak gm
  | ActivitySorting => exact ⟨fun a b => before_asymm _ _,fun a b c => before_between _ _ _⟩

theorem insert_erase {items : List Id} {item : Id} (member : item ∈ items) :
    TasksModel.insert (items.erase item) (items.idxOf item) item = items := by
  induction items with
  | nil => cases member
  | cons a items ih =>
    by_cases here : a = item
    · subst here
      simp [TasksModel.insert]
    · have later : item ∈ items := (mem_cons.mp member).resolve_left (Ne.symm here)
      have rest := ih later
      rw [erase_cons_tail (by simpa using here),idxOf_cons_ne _ here]
      unfold TasksModel.insert at rest ⊢
      rw [take_succ_cons,drop_succ_cons,cons_append,rest]

theorem move_eq {members : List Id} {item : Id} (member : item ∈ members) (newIndex : Nat) :
    move members (members.idxOf item) newIndex = TasksModel.insert (members.erase item) newIndex item := by
  have found : members[members.idxOf item]? = some item := getElem?_idxOf member
  rw [move,found]
  simp only
  rw [erase_eq_eraseIdx_of_idxOf rfl]

theorem check_sorted {order : List Activity} {strategy : TaskSortingStrategy} {compare : Id → Id → Bool}
    {members : List Id} {item : Id} (nodup : members.Nodup) (member : item ∈ members)
    (real : (gm.item item).isStartupItem = false) (sorts : StableSort (upTo compare) members (sortItems gm order members strategy))
    (sorted : Sorted compare (members.erase item)) :
    check gm order strategy members item = sortItems gm order members strategy := by
  have others := sorts.others nodup sorted
  have inside : item ∈ sortItems gm order members strategy := sorts.perm.mem_iff.mpr member
  have back := insert_erase inside
  rw [others] at back
  have length := sorts.perm.length_eq
  have oldBound := idxOf_lt_length_of_mem member
  have newBound := idxOf_lt_length_of_mem inside
  rw [check,if_neg (by simp [real])]
  simp only [indexOf,if_pos member,if_pos inside]
  split
  · rw [moveItem,if_neg (by omega),Int.toNat_natCast,Int.toNat_natCast,move_eq member,back]
  · rename_i same
    have place : members.idxOf item = (sortItems gm order members strategy).idxOf item := by omega
    have stays := insert_erase member
    rw [place,back] at stays
    exact stays.symm

theorem sortsRight_of_stable {order : List Activity} {strategy : TaskSortingStrategy} {items : List Id}
    (nodup : items.Nodup)
    (sorts : StableSort (upTo (less gm (activitiesOrder gm order items) strategy)) items (sortItems gm order items strategy)) :
    SortsRight gm order strategy items := by
  have weak := less_weak gm (activitiesOrder gm order items) strategy
  have sorted : Sorted (less gm (activitiesOrder gm order items) strategy) (sortItems gm order items strategy) :=
    sorts.sorted nodup weak.total
  refine ⟨sorts.perm,sorted,?_,?_⟩
  · intro already
    exact sorts.unique nodup (stableSort_self already)
  · intro item member real rest
    rw [check_sorted nodup member real sorts rest]
    exact ⟨sorted,sorts.others nodup rest,sorts.perm⟩

theorem stableSort_sorts {compare : Id → Id → Bool} (weak : WeakOrder compare) {items : List Id} (nodup : items.Nodup) :
    StableSort (upTo compare) items (stableSort compare items) :=
  stableSort_mergeSort weak.trans weak.total nodup
end

section
variable {Name Activity : Type} [LinearOrder Name] {gm : GroupManager Name Activity}

def real (gm : GroupManager Name Activity) (id : Id) : Bool := !(gm.item id).isStartupItem

/-- An item that goes to the map of the launchers. -/
def apart (gm : GroupManager Name Activity) (id : Id) : Bool := gm.separateLaunchers && (gm.item id).isLauncher

def nameLess (gm : GroupManager Name Activity) (a b : Id) : Bool := (gm.item a).agiName < (gm.item b).agiName

theorem nameLess_weak (gm : GroupManager Name Activity) : WeakOrder (nameLess gm) :=
  weakOrder_key fun id => (gm.item id).agiName

/-- An item with its key. -/
def entry (gm : GroupManager Name Activity) (id : Id) : Name × Id := ((gm.item id).agiName,id)

theorem insertMulti_entry (gm : GroupManager Name Activity) (id : Id) (ids : List Id) :
    insertMulti (gm.item id).agiName id (ids.map (entry gm)) = (insertFront (nameLess gm) id ids).map (entry gm) := by
  induction ids with
  | nil => rfl
  | cons a ids ih =>
    rw [map_cons,insertMulti,insertFront,ih]
    change (if (gm.item a).agiName < (gm.item id).agiName then _ else _) = _
    by_cases before : (gm.item a).agiName < (gm.item id).agiName
    · have less : nameLess gm a id = true := decide_eq_true before
      rw [if_pos before,if_pos less,map_cons]
    · have behind : ¬ nameLess gm a id = true := fun less => before (of_decide_eq_true less)
      rw [if_neg before,if_neg behind]
      rfl

/-- A map holds some of the items in the order of their names, and those of one name the last one first. -/
structure Holds (gm : GroupManager Name Activity) (items : List Id) (map : List (Name × Id)) : Prop where
  sorts : StableSort (nameLess gm) items (map.map Prod.snd)
  sorted : (map.map Prod.snd).Pairwise fun a b => upTo (nameLess gm) a b = true
  keys : map = (map.map Prod.snd).map (entry gm)

theorem holds_nil (gm : GroupManager Name Activity) : Holds gm [] [] := ⟨stableSort_nil,.nil,rfl⟩

variable {items : List Id}

theorem Holds.insert {map : List (Name × Id)} (holds : Holds gm items map) (id : Id) :
    Holds gm (items ++ [id]) (insertMulti (gm.item id).agiName id map) := by
  have weak := nameLess_weak gm
  have keyed := insertMulti_entry gm id (map.map Prod.snd)
  rw [← holds.keys] at keyed
  have values : (insertMulti (gm.item id).agiName id map).map Prod.snd =
      insertFront (nameLess gm) id (map.map Prod.snd) := by
    rw [keyed,map_map]
    exact map_id _
  refine ⟨?_,?_,?_⟩
  · rw [values]
    exact holds.sorts.insertFront weak holds.sorted
  · rw [values]
    exact insertFront_sorted weak holds.sorted
  · rw [values]
    exact keyed

/-- Where every item of the loop goes. -/
structure Filled (gm : GroupManager Name Activity) (items : List Id) (maps : Maps Name) : Prop where
  launchers : Holds gm (items.filter (apart gm)) maps.launcherMap
  others : Holds gm (items.filter fun id => real gm id && !apart gm id) maps.map

theorem Filled.add {maps : Maps Name} (filled : Filled gm items maps) (id : Id) :
    Filled gm (items ++ [id]) (maps.add gm id) := by
  have first := filled.launchers.insert id
  have second := filled.others.insert id
  unfold Maps.add
  cases item : gm.item id with
  | launcher name =>
    simp only [item,Item.agiName] at first second
    cases separate : gm.separateLaunchers with
    | true =>
      refine ⟨?_,?_⟩
      · rw [filter_append]
        simpa [apart,separate,item,Item.isLauncher] using first
      · rw [filter_append]
        simpa [apart,separate,item,Item.isLauncher] using filled.others
    | false =>
      refine ⟨?_,?_⟩
      · rw [filter_append]
        simpa [apart,separate] using filled.launchers
      · rw [filter_append]
        simpa [apart,real,separate,item,Item.isStartupItem] using second
  | task taskName desktop activities =>
    simp only [item,Item.agiName] at second
    refine ⟨?_,?_⟩
    · rw [filter_append]
      simpa [apart,item,Item.isLauncher] using filled.launchers
    · rw [filter_append]
      simpa [apart,real,item,Item.isLauncher,Item.isStartupItem] using second
  | startup name =>
    refine ⟨?_,?_⟩
    · rw [filter_append]
      simpa [apart,item,Item.isLauncher] using filled.launchers
    · rw [filter_append]
      simpa [real,item,Item.isStartupItem] using filled.others
  | group name members =>
    simp only [item,Item.agiName] at second
    refine ⟨?_,?_⟩
    · rw [filter_append]
      simpa [apart,item,Item.isLauncher] using filled.launchers
    · rw [filter_append]
      simpa [apart,real,item,Item.isLauncher,Item.isStartupItem] using second

theorem Filled.fold {maps : Maps Name} (filled : Filled gm items maps) (more : List Id) :
    Filled gm (items ++ more) (more.foldl (Maps.add gm) maps) := by
  induction more generalizing items maps with
  | nil =>
    rw [append_nil]
    exact filled
  | cons id more ih =>
    have next := ih (filled.add id)
    rwa [append_assoc] at next

omit [LinearOrder Name] in
theorem apart_real {id : Id} (launcher : apart gm id = true) : real gm id = true := by
  unfold apart at launcher
  rw [Bool.and_eq_true] at launcher
  unfold real
  cases item : gm.item id <;> simp_all [Item.isLauncher,Item.isStartupItem]

theorem alphaLess_eq (gm : GroupManager Name Activity) (a b : Id) : decide (alphaKey gm a < alphaKey gm b) =
    if apart gm a = apart gm b then nameLess gm a b else apart gm a := by
  rw [Bool.eq_iff_iff,decide_eq_true_iff,alphaKey,alphaKey,Prod.Lex.toLex_lt_toLex]
  unfold apart nameLess
  cases gm.separateLaunchers <;> cases (gm.item a).isLauncher <;> cases (gm.item b).isLauncher <;> simp

theorem alphaSortItems_sorts (gm : GroupManager Name Activity) (nodup : items.Nodup) :
    StableSort (fun a b => decide (alphaKey gm a < alphaKey gm b)) (items.filter (real gm)) (alphaSortItems gm items) := by
  have filled := (⟨holds_nil gm,holds_nil gm⟩ : Filled gm [] ⟨[],[]⟩).fold items
  rw [nil_append] at filled
  have front : (if gm.separateLaunchers then ((items.foldl (Maps.add gm) ⟨[],[]⟩).launcherMap.map Prod.snd) else []) =
      (items.foldl (Maps.add gm) ⟨[],[]⟩).launcherMap.map Prod.snd := by
    split
    · rfl
    · rename_i together
      have none := filled.launchers.sorts.perm
      have empty : items.filter (apart gm) = [] := by
        rw [filter_eq_nil_iff]
        intro id _
        simp [apart,together]
      rw [empty] at none
      exact none.eq_nil.symm
  rw [alphaSortItems,front]
  have one : (items.filter (real gm)).filter (apart gm) = items.filter (apart gm) := by
    rw [filter_filter]
    apply filter_congr
    intro id _
    cases launcher : apart gm id with
    | true => rw [apart_real launcher]; rfl
    | false => rfl
  have two : (items.filter (real gm)).filter (fun id => !apart gm id) = items.filter fun id => real gm id && !apart gm id := by
    rw [filter_filter]
    apply filter_congr
    intro id _
    exact Bool.and_comm _ _
  have agree (side : Bool) {part part' : List Id} (nodup : part.Nodup) (same : ∀ id ∈ part, apart gm id = side)
      (sorts : StableSort (nameLess gm) part part') :
      StableSort (fun a b => decide (alphaKey gm a < alphaKey gm b)) part part' := by
    apply (sorts.agree_iff _ nodup).mpr
    intro i j pair
    obtain ⟨first,second⟩ := pair_mem pair
    rw [alphaLess_eq,if_pos ((same i first).trans (same j second).symm)]
  apply StableSort.parts (p := apart gm)
  · rw [one]
    exact agree true (nodup.filter _) (fun id mem => (mem_filter.mp mem).2) filled.launchers.sorts
  · rw [two]
    refine agree false (nodup.filter _) (fun id mem => ?_) filled.others.sorts
    have kept := (mem_filter.mp mem).2
    rw [Bool.and_eq_true,Bool.not_eq_true'] at kept
    exact kept.2
  · intro a b first second
    rw [alphaLess_eq,alphaLess_eq,first,second]
    simp

/-- No startup item, and no two items of one name that are sorted together. -/
def Plain (gm : GroupManager Name Activity) (items : List Id) : Prop :=
  (∀ id ∈ items, (gm.item id).isStartupItem = false) ∧ ∀ a ∈ items, ∀ b ∈ items, a ≠ b → alphaKey gm a ≠ alphaKey gm b

omit [LinearOrder Name] in
theorem plain_perm {items others : List Id} (perm : others.Perm items) (plain : Plain gm items) : Plain gm others :=
  ⟨fun id mem => plain.1 id (perm.mem_iff.mp mem),
    fun a first b second => plain.2 a (perm.mem_iff.mp first) b (perm.mem_iff.mp second)⟩

omit [LinearOrder Name] in
theorem alpha_real (none : ∀ id ∈ items, (gm.item id).isStartupItem = false) : items.filter (real gm) = items := by
  rw [filter_eq_self]
  intro id mem
  rw [real,none id mem]
  rfl

variable [LinearOrder Activity]

theorem alpha_plain (order : List Activity) (nodup : items.Nodup) (plain : Plain gm items) :
    SortsRight gm order .AlphaSorting items := by
  have sorts := alphaSortItems_sorts gm nodup
  rw [alpha_real plain.1] at sorts
  apply sortsRight_of_stable nodup
  apply (sorts.agree_iff _ nodup).mpr
  intro i j pair
  obtain ⟨first,second⟩ := pair_mem pair
  have distinct : i ≠ j := by
    rintro rfl
    exact nodup_iff_sublist.mp nodup i pair
  have other := plain.2 i first j second distinct
  -- without equal keys, being before and not being behind are the same
  have same : alphaKey gm i < alphaKey gm j ↔ ¬ alphaKey gm j < alphaKey gm i :=
    ⟨fun less => not_lt_of_gt less,fun behind => lt_of_le_of_ne (not_lt.mp behind) other⟩
  rw [Bool.eq_iff_iff,decide_eq_true_iff,upTo,Bool.not_eq_true',less,decide_eq_false_iff_not]
  exact same

/-- Whatever the members are, and in whichever order: the strategies by desktop and by activity do what they
should, and the one by name does so exactly if there is no startup item and if no two items that are sorted
together have the same name. -/
theorem sorting_right_iff (gm : GroupManager Name Activity) (order : List Activity) (strategy : TaskSortingStrategy)
    (items : List Id) (nodup : items.Nodup) :
    (∀ members : List Id, members.Perm items → SortsRight gm order strategy members) ↔
      (strategy = .AlphaSorting → Plain gm items) := by
  cases strategy with
  | DesktopSorting =>
    refine ⟨fun _ => nofun,fun _ members perm => ?_⟩
    exact sortsRight_of_stable (perm.symm.nodup nodup) (stableSort_sorts (desktopLess_weak gm) (perm.symm.nodup nodup))
  | ActivitySorting =>
    refine ⟨fun _ => nofun,fun _ members perm => ?_⟩
    exact sortsRight_of_stable (perm.symm.nodup nodup)
      (stableSort_sorts (less_weak gm (activitiesOrder gm order members) .ActivitySorting) (perm.symm.nodup nodup))
  | AlphaSorting =>
    constructor
    · intro right _
      have whole := right items .rfl
      have sorts := alphaSortItems_sorts gm nodup
      have none : ∀ id ∈ items, (gm.item id).isStartupItem = false := by
        intro id mem
        have kept := (sorts.perm.mem_iff.mp (whole.perm.mem_iff.mpr mem) : id ∈ items.filter (real gm))
        have isReal := (mem_filter.mp kept).2
        rwa [real,Bool.not_eq_true'] at isReal
      refine ⟨none,?_⟩
      intro a first b second distinct same
      -- the sorted list itself would be turned round
      have perm : (alphaSortItems gm items).Perm items := whole.perm
      have nodup' := perm.symm.nodup nodup
      have again := (right _ perm).keeps whole.sorted
      have sorts' := alphaSortItems_sorts gm nodup'
      rw [alpha_real fun id mem => none id (perm.mem_iff.mp mem)] at sorts'
      have turned : ∀ i j, alphaKey gm i = alphaKey gm j → [i,j].Sublist (alphaSortItems gm items) →
          [j,i].Sublist (alphaSortItems gm items) := by
        intro i j equal pair
        have back := sorts'.swaps i j pair (decide_eq_false (by rw [equal]; exact lt_irrefl _))
        have unchanged : alphaSortItems gm (alphaSortItems gm items) = alphaSortItems gm items := again
        rwa [unchanged] at back
      rcases pair_or (perm.mem_iff.mpr first) (perm.mem_iff.mpr second) distinct with pair | pair
      · exact pair_antisymm nodup' pair (turned a b same pair)
      · exact pair_antisymm nodup' pair (turned b a same.symm pair)
    · intro plain members perm
      exact alpha_plain order (perm.symm.nodup nodup) (plain_perm perm (plain rfl))
end

/-- Two windows of one program and the startup item of another one. -/
def terminals : GroupManager String String where
  separateLaunchers := true
  numberOfDesktops := 1
  item
    | 1 => .task "konsole" 1 []
    | 2 => .task "konsole" 1 []
    | _ => .startup "kate"

/-- The windows are turned round, and the startup item is lost. -/
theorem terminals_turned :
    sortItems terminals [] [1,2] .AlphaSorting = [2,1] ∧ sortItems terminals [] [1,3] .AlphaSorting = [1] ∧
      ¬ (∀ (strategy : TaskSortingStrategy) (members : List Id), members.Nodup → SortsRight terminals [] strategy members) := by
  refine ⟨by decide,by decide,?_⟩
  intro right
  have perm := (right .AlphaSorting [1,3] (by decide)).perm
  have lost : sortItems terminals [] [1,3] .AlphaSorting = [1] := by decide
  rw [lost] at perm
  exact absurd perm.length_eq (by decide)

theorem terminals_by_desktop : SortsRight terminals [] .DesktopSorting [3,1,2] :=
  (sorting_right_iff terminals [] .DesktopSorting [1,2,3] (by decide)).mpr nofun [3,1,2] (by decide)

end KdeWorkspace.SortingStrategies
