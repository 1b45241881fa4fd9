import KdeWorkspace.Geometry
import KdeWorkspace.OrderedMaps
import Mathlib.Algebra.Order.Group.Int
import Mathlib.Data.List.Induction

/-!
How the screens of the current layout are found in the layout of a configuration: the configuration is moved so that one
of its screens is where the first current screen is, and every current screen is looked for at its position.

A screen that is not found throws away what has been found before, but the search goes on with the next screen, and a
partial match is returned as a match. `matchLayouts_iff` says for which layouts this does not happen.
-/
namespace KdeWorkspace.LayoutMatching
open Geometry OrderedMaps List

abbrev Positions := OrderedMap Int QPoint

def sub (p q : QPoint) : QPoint := ⟨p.x-q.x,p.y-q.y⟩

def translateOrigin (l : Positions) (origin : QPoint) : Positions := l.mapValues fun p => sub p origin

/-- `operator[]` puts a point in where there is none. -/
def access (l : Positions) (i : Int) : Positions × QPoint :=
  match l.lookup i with
  | some p => (l,p)
  | none => (l.insert i ⟨0,0⟩,⟨0,0⟩)

/-- What is found, and which entries have been read that do not exist. -/
structure Matched where
  result : OrderedMap Int Int
  missing : List Int

/-- One current screen is looked for; the configuration screen it is found at is taken out. -/
def findScreen (state : OrderedMap Int Int × Positions) (j : Int × QPoint) : OrderedMap Int Int × Positions :=
  match state.2.entries.find? fun k => j.2 = k.2 with
  | some k => (state.1.insert j.1 k.1,state.2.erase k.1)
  | none => (.empty,state.2)

def align (current : List (Int × QPoint)) (l : Positions) : OrderedMap Int Int × Positions :=
  current.foldl findScreen (.empty,l)

/-- The remaining screens get the keys from `j` downwards. -/
def numberRest (j : Int) (result : OrderedMap Int Int) : List (Int × QPoint) → OrderedMap Int Int
  | [] => result
  | k :: rest => numberRest (j-1) (result.insert j k.1) rest

def tryAll (current : List (Int × QPoint)) (origin : QPoint) (layout : Positions) (missing : List Int) :
    List Int → Matched
  | [] => ⟨.empty,missing⟩
  | i :: indexes =>
    let (l,p) := access layout i
    let missing := if (layout.lookup i).isSome then missing else missing ++ [i]
    let (result,rest) := align current (translateOrigin l (sub p origin))
    if result.entries.isEmpty then tryAll current origin layout missing indexes
    else ⟨numberRest (-1) result rest.entries,missing⟩

/-- The value at the beginning of an empty map cannot be read. -/
def matchLayouts (currentLayout layout : Positions) : Option Matched :=
  match currentLayout.entries with
  | [] => none
  | first :: others => some (tryAll (first :: others) first.2 layout [] (first.1 :: layout.keys))

/-- Screens with their positions. -/
structure Screens where
  positions : Positions
  nonneg : ∀ i ∈ positions.keys, 0 ≤ i

/-- No two screens are at one position. -/
structure Layout extends Screens where
  distinct : positions.values.Nodup

/-- The translation of the layout has a screen at each of the positions. -/
def Contains (layout : Positions) (origin : QPoint) (current : List (Int × QPoint)) : Prop :=
  ∀ j ∈ current, j.2 ∈ (translateOrigin layout origin).values

instance (layout : Positions) (origin : QPoint) (current : List (Int × QPoint)) :
    Decidable (Contains layout origin current) := inferInstanceAs (Decidable (∀ _ ∈ _, _))

/-- The screens that no current screen is at. -/
def remaining (layout : Positions) (origin : QPoint) (current : List (Int × QPoint)) : List (Int × QPoint) :=
  (translateOrigin layout origin).entries.filter fun k => k.2 ∉ current.map (·.2)

/-- The result is the match that a translation gives. -/
structure Matches (current : List (Int × QPoint)) (layout : Positions) (origin : QPoint)
    (result : OrderedMap Int Int) : Prop where
  found : ∀ j ∈ current, ∃ k, result.lookup j.1 = some k ∧ (translateOrigin layout origin).lookup k = some j.2
  rest : ∀ n : Nat, result.lookup (-1-n) = (remaining layout origin current)[n]?.map (·.1)

structure Right (current layout : Positions) : Prop where
  reads : ∃ found, matchLayouts current layout = some found ∧ found.missing = []
  matched : ∀ found, matchLayouts current layout = some found → (found.result.entries ≠ [] ↔
    ∃ origin, Contains layout origin current.entries)
  result : ∀ found, matchLayouts current layout = some found → found.result.entries ≠ [] →
    ∃ origin, Matches current.entries layout origin found.result

/-- The translations that are tried, in their order. -/
def origins (first : Int × QPoint) (layout : Positions) : List QPoint :=
  (first.1 :: layout.keys).filterMap fun i => (layout.lookup i).map fun p => sub p first.2

/-- There is a screen at the position, and none of the current screens before it is there. -/
def Found (l : Positions) (done : List (Int × QPoint)) (j : Int × QPoint) : Prop :=
  j.2 ∈ l.values ∧ j.2 ∉ done.map (·.2)

instance (l : Positions) (done : List (Int × QPoint)) (j : Int × QPoint) : Decidable (Found l done j) :=
  inferInstanceAs (Decidable (_ ∧ _))

/-- The first translation at which the last current screen is found is a match. -/
def Whole (current layout : Positions) (first last : Int × QPoint) : Prop :=
  ∀ origin, (origins first layout).find? (fun origin =>
    decide (Found (translateOrigin layout origin) current.entries.dropLast last)) = some origin →
      Contains layout origin current.entries

/-- When a match is found right. -/
def Holds (current layout : Positions) : Prop :=
  ∃ first ∈ current.entries.head?, ∃ last ∈ current.entries.getLast?, first.1 ∈ layout.keys ∧
    (current.values.Nodup ∨ ¬ ∃ origin, Contains layout origin current.entries) ∧ Whole current layout first last

variable {l layout : Positions} {current done : List (Int × QPoint)} {state : OrderedMap Int Int × Positions}
  {j : Int × QPoint}

/-- Every screen is found, each at a screen of its own. -/
def AllFound (l : Positions) (done : List (Int × QPoint)) : Prop :=
  (∀ j ∈ done, j.2 ∈ l.values) ∧ (done.map (·.2)).Nodup

/-- What the search for some screens leaves. -/
structure Aligned (l : Positions) (done : List (Int × QPoint)) (state : OrderedMap Int Int × Positions) : Prop where
  rest : state.2 = l.filter fun _ p => p ∉ done.map (·.2)
  sound : ∀ a k, state.1.lookup a = some k → ∃ j ∈ done, j.1 = a ∧ l.lookup k = some j.2
  complete : AllFound l done → ∀ j ∈ done, ∃ k, state.1.lookup j.1 = some k ∧ l.lookup k = some j.2
  partly : ¬ AllFound l done → ∃ j ∈ done, state.1.lookup j.1 = none

theorem mem_append_positions {p : QPoint} : p ∈ (done ++ [j]).map (·.2) ↔ p ∈ done.map (·.2) ∨ p = j.2 := by
  rw [map_append,mem_append,map_cons,map_nil,mem_singleton]

theorem allFound_append : AllFound l (done ++ [j]) ↔ AllFound l done ∧ Found l done j := by
  simp only [AllFound,Found,map_append,map_cons,map_nil,nodup_append,mem_append, mem_singleton]
  constructor
  · rintro ⟨all,nodup,_,apart⟩
    exact ⟨⟨fun i inside => all i (Or.inl inside),nodup⟩,all j (Or.inr rfl),fun inside => apart _ inside _ rfl rfl⟩
  · rintro ⟨⟨all,nodup⟩,here,new⟩
    refine ⟨?_,nodup,nodup_singleton _,?_⟩
    · rintro i (inside | rfl)
      · exact all i inside
      · exact here
    · rintro p inside _ rfl rfl
      exact new inside

theorem find_eq_none_iff (aligned : Aligned l done state) :
    state.2.entries.find? (fun k => j.2 = k.2) = none ↔ ¬ Found l done j := by
  rw [find?_eq_none,aligned.rest]
  constructor
  · rintro nowhere ⟨here,new⟩
    obtain ⟨k,at_k⟩ := OrderedMap.mem_values_iff.mp here
    refine nowhere (k,j.2) ?_ (by simp)
    rw [OrderedMap.mem_entries_iff,OrderedMap.lookup_filter,at_k]
    simpa using new
  · rintro missing ⟨k,p⟩ inside same
    rw [OrderedMap.mem_entries_iff,OrderedMap.lookup_filter,Option.filter_eq_some_iff] at inside
    obtain rfl : j.2 = p := by simpa using same
    exact missing ⟨OrderedMap.mem_values_iff.mpr ⟨k,inside.1⟩,by simpa using inside.2⟩

theorem findScreen_missing (aligned : Aligned l done state) (missing : ¬ Found l done j) :
    findScreen state j = (.empty,state.2) := by
  rw [findScreen,(find_eq_none_iff aligned).mpr missing]

theorem findScreen_found (aligned : Aligned l done state) (found : Found l done j) :
    ∃ k, findScreen state j = (state.1.insert j.1 k,state.2.erase k) ∧ l.lookup k = some j.2 := by
  cases at_k : state.2.entries.find? (fun k => j.2 = k.2) with
  | none => exact absurd found ((find_eq_none_iff aligned).mp at_k)
  | some k =>
    refine ⟨k.1,by rw [findScreen,at_k],?_⟩
    have same : j.2 = k.2 := by simpa using find?_some at_k
    have inside := mem_of_find?_eq_some at_k
    rw [aligned.rest] at inside
    obtain ⟨key,p⟩ := k
    rw [OrderedMap.mem_entries_iff,OrderedMap.lookup_filter,Option.filter_eq_some_iff] at inside
    rw [same]
    exact inside.1

theorem findScreen_aligned (distinct : l.values.Nodup) (aligned : Aligned l done state)
    (new : ∀ i ∈ done, i.1 ≠ j.1) : Aligned l (done ++ [j]) (findScreen state j) := by
  by_cases found : Found l done j
  · obtain ⟨k,run,at_k⟩ := findScreen_found aligned found
    rw [run]
    refine ⟨?_,?_,?_,?_⟩
    · dsimp only
      rw [aligned.rest]
      apply OrderedMap.ext_lookup
      intro i
      rw [OrderedMap.lookup_erase,OrderedMap.lookup_filter,OrderedMap.lookup_filter]
      by_cases here : i = k
      · rw [if_pos here,here,at_k]
        simp only [Option.filter,mem_append_positions]
        simp
      · rw [if_neg here]
        cases at_i : l.lookup i with
        | none => rfl
        | some p =>
          have other : p ≠ j.2 := by
            rintro rfl
            exact here (OrderedMap.key_unique distinct at_i at_k)
          simp only [Option.filter,mem_append_positions,other,or_false]
    · intro a b at_a
      dsimp only at at_a
      rw [OrderedMap.lookup_insert] at at_a
      split at at_a
      case isTrue same =>
        obtain rfl := Option.some.inj at_a
        exact ⟨j,by simp,same.symm,at_k⟩
      case isFalse =>
        obtain ⟨i,inside,rest⟩ := aligned.sound a b at_a
        exact ⟨i,mem_append_left _ inside,rest⟩
    · intro all i inside
      rw [OrderedMap.lookup_insert]
      rcases mem_append.mp inside with before | last
      · rw [if_neg (new i before)]
        exact aligned.complete (allFound_append.mp all).1 i before
      · obtain rfl := mem_singleton.mp last
        exact ⟨k,if_pos rfl,at_k⟩
    · intro some_missing
      obtain ⟨i,inside,lost⟩ := aligned.partly fun all => some_missing (allFound_append.mpr ⟨all,found⟩)
      refine ⟨i,mem_append_left _ inside,?_⟩
      rw [OrderedMap.lookup_insert,if_neg (new i inside)]
      exact lost
  · rw [findScreen_missing aligned found]
    refine ⟨?_,?_,?_,?_⟩
    · dsimp only
      rw [aligned.rest]
      apply OrderedMap.ext_lookup
      intro i
      rw [OrderedMap.lookup_filter,OrderedMap.lookup_filter]
      cases at_i : l.lookup i with
      | none => rfl
      | some p =>
        by_cases here : p = j.2
        · have before : p ∈ done.map (·.2) := by
            by_contra absent
            exact found ⟨OrderedMap.mem_values_iff.mpr ⟨i,by rw [at_i,here]⟩,here ▸ absent⟩
          simp only [Option.filter,mem_append_positions,before,true_or]
        · simp only [Option.filter,mem_append_positions,here,or_false]
    · intro a b at_a
      cases at_a
    · intro all
      exact absurd (allFound_append.mp all).2 found
    · intro _
      exact ⟨j,by simp,rfl⟩

theorem align_aligned (distinct : l.values.Nodup) (ids : (current.map (·.1)).Nodup) :
    Aligned l current (align current l) := by
  induction current using reverseRecOn with
  | nil =>
    refine ⟨?_,?_,?_,?_⟩
    · apply OrderedMap.ext_lookup
      intro k
      rw [OrderedMap.lookup_filter]
      cases at_k : l.lookup k <;> simp [align,at_k,Option.filter]
    · intro a k at_a
      cases at_a
    · intro _ j inside
      cases inside
    · intro some_missing
      exact absurd ⟨by simp,by simp⟩ some_missing
  | append_singleton done j ih =>
    rw [map_append,map_cons,map_nil,nodup_append] at ids
    obtain ⟨before,_,apart⟩ := ids
    rw [align,foldl_append]
    apply findScreen_aligned distinct (ih before)
    intro i inside
    exact apart i.1 (mem_map_of_mem inside) j.1 (by simp)

theorem align_nonempty_iff (distinct : l.values.Nodup) (ids : ((done ++ [j]).map (·.1)).Nodup) :
    (align (done ++ [j]) l).1.entries ≠ [] ↔ Found l done j := by
  have aligned : Aligned l done (align done l) := by
    rw [map_append] at ids
    exact align_aligned distinct (nodup_append.mp ids).1
  have step : align (done ++ [j]) l = findScreen (align done l) j := by
    rw [align,foldl_append]
    rfl
  rw [step,Ne,OrderedMap.eq_empty_iff]
  by_cases found : Found l done j
  · obtain ⟨k,run,_⟩ := findScreen_found aligned found
    rw [run]
    refine iff_of_true (fun none => ?_) found
    have here := none j.1
    rw [OrderedMap.lookup_insert,if_pos rfl] at here
    cases here
  · rw [findScreen_missing aligned found]
    exact iff_of_false (fun some => some OrderedMap.lookup_empty) found

theorem numberRest_above {a n : Int} (above : n < a) (result : OrderedMap Int Int) (rest : List (Int × QPoint)) :
    (numberRest n result rest).lookup a = result.lookup a := by
  induction rest generalizing n result with
  | nil => rfl
  | cons k rest ih =>
    rw [numberRest,ih (by omega),OrderedMap.lookup_insert,if_neg (by omega)]

theorem numberRest_below {n : Int} {result : OrderedMap Int Int} (none : ∀ a ≤ n, result.lookup a = none)
    (rest : List (Int × QPoint)) (i : Nat) : (numberRest n result rest).lookup (n-i) = rest[i]?.map (·.1) := by
  induction rest generalizing n result i with
  | nil => exact none _ (by omega)
  | cons k rest ih =>
    rw [numberRest]
    cases i with
    | zero =>
      rw [numberRest_above (by omega),OrderedMap.lookup_insert,if_pos (by omega)]
      rfl
    | succ i =>
      have none_below : ∀ a ≤ n-1, (result.insert n k.1).lookup a = Option.none := by
        intro a le
        rw [OrderedMap.lookup_insert,if_neg (by omega)]
        exact none a (by omega)
      have later := ih none_below i
      have same : n-((i+1 : Nat) : Int) = n-1-i := by omega
      rw [same,later,getElem?_cons_succ]

theorem tryAll_missing (current : List (Int × QPoint)) (origin : QPoint) (layout : Positions) (missing : List Int)
    (indexes : List Int) : missing <+: (tryAll current origin layout missing indexes).missing := by
  induction indexes generalizing missing with
  | nil => exact prefix_rfl
  | cons i indexes ih =>
    have more : missing <+: if (layout.lookup i).isSome then missing else missing ++ [i] := by
      split
      · exact prefix_rfl
      · exact prefix_append _ _
    rw [tryAll]
    dsimp only
    split
    · exact more.trans (ih _)
    · exact more

def resultAt (current : List (Int × QPoint)) (layout : Positions) (origin : QPoint) : OrderedMap Int Int :=
  let aligned := align current (translateOrigin layout origin)
  numberRest (-1) aligned.1 aligned.2.entries

theorem tryAll_known (first : Int × QPoint) {layout : Positions} (missing : List Int) {indexes : List Int}
    (known : ∀ i ∈ indexes, i ∈ layout.keys) :
    tryAll current first.2 layout missing indexes =
      ⟨((indexes.filterMap fun i => (layout.lookup i).map fun p => sub p first.2).find? fun origin =>
        !(align current (translateOrigin layout origin)).1.entries.isEmpty).elim .empty (resultAt current layout),
        missing⟩ := by
  induction indexes with
  | nil => rfl
  | cons i indexes ih =>
    obtain ⟨p,at_i⟩ := OrderedMap.mem_keys_iff.mp (known i mem_cons_self)
    rw [tryAll,access,at_i]
    dsimp only
    rw [filterMap_cons,at_i]
    simp only [Option.map_some,Option.isSome_some,if_true,find?_cons]
    cases nothing : (align current (translateOrigin layout (sub p first.2))).1.entries.isEmpty with
    | true => exact ih fun a later => known a (mem_cons_of_mem _ later)
    | false => rfl

theorem mem_translate_values {layout : Positions} {origin p : QPoint} :
    p ∈ (translateOrigin layout origin).values ↔ ∃ k q, layout.lookup k = some q ∧ sub q origin = p := by
  rw [OrderedMap.mem_values_iff]
  constructor
  · rintro ⟨k,found⟩
    rw [translateOrigin,OrderedMap.lookup_mapValues,Option.map_eq_some_iff] at found
    obtain ⟨q,at_k,same⟩ := found
    exact ⟨k,q,at_k,same⟩
  · rintro ⟨k,q,at_k,same⟩
    refine ⟨k,?_⟩
    rw [translateOrigin,OrderedMap.lookup_mapValues,at_k,← same]
    rfl

theorem translate_distinct (distinct : layout.values.Nodup) (origin : QPoint) :
    (translateOrigin layout origin).values.Nodup := by
  have moved : (translateOrigin layout origin).values = layout.values.map (sub · origin) := by
    rw [OrderedMap.values,translateOrigin,OrderedMap.mapValues,map_map,OrderedMap.values,map_map]
    rfl
  rw [moved]
  apply distinct.map
  rintro ⟨x,y⟩ ⟨x',y'⟩ same
  simp only [sub,QPoint.mk.injEq] at same ⊢
  omega

theorem mem_origins {first : Int × QPoint} {others : List (Int × QPoint)} {origin : QPoint}
    (contains : Contains layout origin (first :: others)) : origin ∈ origins first layout := by
  obtain ⟨k,q,at_k,same⟩ := mem_translate_values.mp (contains first mem_cons_self)
  have there : origin = sub q first.2 := by
    rw [← same]
    simp [sub]
  rw [origins,mem_filterMap]
  exact ⟨k,mem_cons_of_mem _ (OrderedMap.mem_keys_iff.mpr ⟨q,at_k⟩),by rw [at_k,there]; rfl⟩

section
variable {screens : Screens} {configuration : Layout} {origin : QPoint}

theorem nonneg_of_mem (inside : j ∈ screens.positions.entries) : 0 ≤ j.1 := screens.nonneg j.1 (mem_map_of_mem inside)

theorem aligned_at (screens : Screens) (configuration : Layout) (origin : QPoint) :
    Aligned (translateOrigin configuration.positions origin) screens.positions.entries
      (align screens.positions.entries (translateOrigin configuration.positions origin)) :=
  align_aligned (translate_distinct configuration.distinct origin) screens.positions.keys_nodup

theorem resultAt_lookup (inside : j ∈ screens.positions.entries) :
    (resultAt screens.positions.entries configuration.positions origin).lookup j.1 =
      (align screens.positions.entries (translateOrigin configuration.positions origin)).1.lookup j.1 := by
  have nonneg := nonneg_of_mem inside
  exact numberRest_above (by omega) _ _

theorem resultAt_nonempty
    (any : (align screens.positions.entries (translateOrigin configuration.positions origin)).1.entries ≠ []) :
    (resultAt screens.positions.entries configuration.positions origin).entries ≠ [] := by
  obtain ⟨⟨a,k⟩,rest,entries⟩ := exists_cons_of_ne_nil any
  have at_a := OrderedMap.lookup_of_mem (m := (align screens.positions.entries _).1) (by rw [entries]; exact mem_cons_self)
  obtain ⟨j,inside,rfl,_⟩ := (aligned_at screens configuration origin).sound a k at_a
  rw [Ne,OrderedMap.eq_empty_iff]
  intro none
  have here := none j.1
  rw [resultAt_lookup inside,at_a] at here
  cases here

theorem resultAt_partly
    (partly : ¬ AllFound (translateOrigin configuration.positions origin) screens.positions.entries) {other : QPoint} :
    ¬ Matches screens.positions.entries configuration.positions other
      (resultAt screens.positions.entries configuration.positions origin) := by
  intro matched
  obtain ⟨j,inside,lost⟩ := (aligned_at screens configuration origin).partly partly
  obtain ⟨k,found,_⟩ := matched.found j inside
  rw [resultAt_lookup inside,lost] at found
  cases found

theorem resultAt_matches
    (all : AllFound (translateOrigin configuration.positions origin) screens.positions.entries) :
    Matches screens.positions.entries configuration.positions origin
      (resultAt screens.positions.entries configuration.positions origin) := by
  have aligned := aligned_at screens configuration origin
  refine ⟨?_,?_⟩
  · intro j inside
    rw [resultAt_lookup inside]
    exact aligned.complete all j inside
  · intro n
    have none : ∀ a ≤ (-1 : Int),
        (align screens.positions.entries (translateOrigin configuration.positions origin)).1.lookup a = none := by
      intro a negative
      cases at_a : (align screens.positions.entries (translateOrigin configuration.positions origin)).1.lookup a with
      | none => rfl
      | some k =>
        obtain ⟨j,inside,rfl,_⟩ := aligned.sound a k at_a
        have nonneg := nonneg_of_mem inside
        omega
    rw [resultAt,numberRest_below none,aligned.rest]
    rfl

theorem find_origin (screens : Screens) (configuration : Layout) {last : Int × QPoint}
    (is_last : last ∈ screens.positions.entries.getLast?) (candidates : List QPoint) :
    candidates.find? (fun origin =>
        !(align screens.positions.entries (translateOrigin configuration.positions origin)).1.entries.isEmpty) =
      candidates.find? fun origin =>
        decide (Found (translateOrigin configuration.positions origin) screens.positions.entries.dropLast last) := by
  congr 1
  funext origin
  have whole : screens.positions.entries.dropLast ++ [last] = screens.positions.entries :=
    dropLast_append_getLast? last is_last
  have ids := screens.positions.keys_nodup
  rw [OrderedMap.keys,← whole] at ids
  have nonempty := align_nonempty_iff (translate_distinct configuration.distinct origin) ids
  rw [whole] at nonempty
  rw [Bool.eq_iff_iff,decide_eq_true_eq,← nonempty,Bool.not_eq_true',isEmpty_eq_false_iff]

end

theorem matchLayouts_known {current : Screens} {layout : Layout} {first last : Int × QPoint}
    {others : List (Int × QPoint)} (entries : current.positions.entries = first :: others)
    (is_last : last ∈ current.positions.entries.getLast?) (known : first.1 ∈ layout.positions.keys) :
    matchLayouts current.positions layout.positions =
      some ⟨((origins first layout.positions).find? fun origin => decide (Found
        (translateOrigin layout.positions origin) current.positions.entries.dropLast last)).elim .empty
          (resultAt current.positions.entries layout.positions),[]⟩ := by
  have all : ∀ i ∈ first.1 :: layout.positions.keys, i ∈ layout.positions.keys := by
    intro i inside
    rcases mem_cons.mp inside with rfl | there
    · exact known
    · exact there
  have find := find_origin current layout is_last (origins first layout.positions)
  rw [← find,matchLayouts,entries]
  dsimp only
  rw [tryAll_known first [] all]
  rfl

theorem matchLayouts_unknown {current : Screens} {layout : Layout} {first : Int × QPoint}
    {others : List (Int × QPoint)} (entries : current.positions.entries = first :: others)
    (unknown : first.1 ∉ layout.positions.keys) :
    ∀ found, matchLayouts current.positions layout.positions = some found → found.missing ≠ [] := by
  intro found run nothing
  rw [matchLayouts,entries] at run
  obtain rfl := Option.some.inj run
  have absent : (layout.positions.lookup first.1).isSome = false := by
    rw [OrderedMap.lookup_eq_none_iff.mpr unknown]
    rfl
  rw [tryAll] at nothing
  dsimp only at nothing
  simp only [absent,Bool.false_eq_true,if_false] at nothing
  split at nothing
  · have kept := tryAll_missing (first :: others) first.2 layout.positions ([] ++ [first.1]) layout.positions.keys
    rw [nothing] at kept
    exact absurd (prefix_nil.mp kept) (by simp)
  · cases nothing

/-- The screens of the current layout are found right, if they are, exactly when the id of the first of them is known to
the configuration and the first translation at which the last of them is found has all of them. -/
theorem matchLayouts_iff (current : Screens) (layout : Layout) :
    Right current.positions layout.positions ↔ Holds current.positions layout.positions := by
  cases entries : current.positions.entries with
  | nil =>
    apply iff_of_false
    · intro right
      obtain ⟨found,run,_⟩ := right.reads
      rw [matchLayouts,entries] at run
      cases run
    · rintro ⟨first,is_first,_⟩
      rw [entries] at is_first
      cases is_first
  | cons first others =>
    constructor
    · intro right
      obtain ⟨found,ran,clean⟩ := right.reads
      have known : first.1 ∈ layout.positions.keys := by
        by_contra unknown
        exact matchLayouts_unknown entries unknown found ran clean
      obtain ⟨last,is_last⟩ : ∃ last, last ∈ current.positions.entries.getLast? :=
        ⟨_,getLast?_eq_some_getLast (by rw [entries]; exact cons_ne_nil _ _)⟩
      have run := matchLayouts_known entries is_last known
      refine ⟨first,by rw [entries]; rfl,last,is_last,known,?_,?_⟩
      · by_contra neither
        rw [not_or,not_not] at neither
        have any := (right.matched _ run).mpr neither.2
        obtain ⟨other,matched⟩ := right.result _ run any
        dsimp only at any matched
        cases at_origin : (origins first layout.positions).find? _ with
        | none =>
          rw [at_origin] at any
          exact any rfl
        | some origin =>
          rw [at_origin] at matched
          exact resultAt_partly (fun all => neither.1 all.2) matched
      · intro origin at_origin
        by_contra lost
        have leaves := at_origin
        rw [← find_origin current layout is_last] at leaves
        have any := find?_some leaves
        rw [Bool.not_eq_true',isEmpty_eq_false_iff] at any
        rw [at_origin] at run
        obtain ⟨other,matched⟩ := right.result _ run (resultAt_nonempty any)
        exact resultAt_partly (fun all => lost all.1) matched
    · rintro ⟨first',is_first,last,is_last,known,distinct,whole⟩
      rw [entries] at is_first
      obtain rfl := Option.some.inj is_first
      have run := matchLayouts_known entries is_last known
      -- A translation with all screens is one of those that are tried, and the last screen is found at it.
      have tried : ∀ origin, Contains layout.positions origin current.positions.entries →
          (origins first layout.positions).find? (fun origin => decide (Found
            (translateOrigin layout.positions origin) current.positions.entries.dropLast last)) ≠ none := by
        intro origin contains none
        have nodup := distinct.resolve_right fun absent => absent ⟨origin,contains⟩
        have candidate : origin ∈ origins first layout.positions := mem_origins (by rwa [entries] at contains)
        have split : current.positions.entries.dropLast ++ [last] = current.positions.entries :=
          dropLast_append_getLast? last is_last
        rw [OrderedMap.values,← split] at nodup
        have all : AllFound (translateOrigin layout.positions origin)
            (current.positions.entries.dropLast ++ [last]) := ⟨by rwa [split],nodup⟩
        exact find?_eq_none.mp none origin candidate (decide_eq_true (allFound_append.mp all).2)
      refine ⟨⟨_,run,rfl⟩,?_,?_⟩
      · intro found ran
        obtain rfl := Option.some.inj (run.symm.trans ran)
        dsimp only
        cases at_origin : (origins first layout.positions).find? _ with
        | none =>
          refine iff_of_false (fun any => any rfl) ?_
          rintro ⟨origin,contains⟩
          exact tried origin contains at_origin
        | some origin =>
          refine iff_of_true ?_ ⟨origin,whole origin at_origin⟩
          rw [← find_origin current layout is_last] at at_origin
          have any := find?_some at_origin
          rw [Bool.not_eq_true',isEmpty_eq_false_iff] at any
          exact resultAt_nonempty any
      · intro found ran any
        obtain rfl := Option.some.inj (run.symm.trans ran)
        dsimp only at any ⊢
        cases at_origin : (origins first layout.positions).find? _ with
        | none =>
          rw [at_origin] at any
          exact absurd rfl any
        | some origin =>
          have contains := whole origin at_origin
          have nodup := distinct.resolve_right fun absent => absent ⟨origin,contains⟩
          exact ⟨origin,resultAt_matches ⟨contains,nodup⟩⟩

/-- Three screens around a corner are matched, in part, with three screens in a row. -/
theorem part_matched : ¬ ∀ (current : Screens) (layout : Layout), Right current.positions layout.positions := by
  intro right
  let current : Screens := ⟨⟨[(0,⟨0,0⟩),(1,⟨0,1⟩),(2,⟨1,0⟩)],by decide⟩,by decide⟩
  let layout : Layout := ⟨⟨⟨[(0,⟨0,0⟩),(1,⟨1,0⟩),(2,⟨2,0⟩)],by decide⟩,by decide⟩,by decide⟩
  obtain ⟨found,ran,_⟩ := (right current layout).reads
  have result : ((matchLayouts current.positions layout.positions).map fun found =>
      (found.result.entries,found.result.lookup 0)) = some ([(-1,2),(2,1)],none) := by decide
  rw [ran] at result
  simp only [Option.map_some,Option.some.injEq,Prod.mk.injEq] at result
  obtain ⟨origin,matched⟩ := (right current layout).result found ran (by rw [result.1]; decide)
  obtain ⟨k,there,_⟩ := matched.found (0,⟨0,0⟩) (by decide)
  rw [result.2] at there
  cases there

end KdeWorkspace.LayoutMatching
