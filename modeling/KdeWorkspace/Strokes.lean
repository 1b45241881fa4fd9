import Mathlib.Data.List.TakeDrop
import Mathlib.Tactic.Linarith

/-!
The strokes of the mouse gestures of khotkeys: points are recorded one by one, and what has been recorded is
processed when the button is released.

The counter of the points goes on when the array is full (`Recorded`), so `processData` reads behind the end of the
array when a stroke is too long, and a stroke that stays where it begins is divided by its length. `processData_iff` says
when neither happens.
-/
namespace KdeWorkspace.Strokes
open List Option Function

structure Point where
  x : Int
  y : Int
deriving Repr, DecidableEq

/-- The largest number of points allowed to be sampled. -/
def MAX_POINTS : Nat := 5000

/-- A recorder. The array has no point where none has been recorded since the reset. -/
structure Stroke where
  min_x : Int
  min_y : Int
  max_x : Int
  max_y : Int
  point_count : Int
  points : Int → Option Point

def reset : Stroke := ⟨10000,10000,-1,-1,-1,fun _ => none⟩

namespace Stroke

/-- A write outside of the array is a failure. -/
def store (s : Stroke) (index : Int) (p : Point) : Option Stroke :=
  if 0 ≤ index ∧ index < MAX_POINTS then some { s with points := Function.update s.points index (some p) } else none

def record (s : Stroke) (p : Point) : Option (Bool × Stroke) :=
  let count := s.point_count+1
  if s.point_count = -1 then do
    let s ← { s with point_count := count }.store count p
    some (true,{ s with min_x := p.x, max_x := p.x, min_y := p.y, max_y := p.y })
  else if count ≥ MAX_POINTS then some (false,{ s with point_count := count })
  else do
    let s ← { s with point_count := count }.store count p
    some (true,{ s with
      min_x := if p.x < s.min_x then p.x else s.min_x
      max_x := if p.x > s.max_x then p.x else s.max_x
      min_y := if p.y < s.min_y then p.y else s.min_y
      max_y := if p.y > s.max_y then p.y else s.max_y })

end Stroke

def recordAll (s : Stroke) : List Point → Option Stroke
  | [] => some s
  | p :: points => do
    let recorded ← s.record p
    recordAll recorded.2 points

structure StrokePoint where
  s : ℚ
  delta_s : ℚ
  angle : ℚ
  x : ℚ
  y : ℚ
deriving Repr, DecidableEq

section
variable (hypot : Int → Int → ℚ) (angle : ℚ → ℚ → ℚ)

/-- The length of the stroke up to each of its points. -/
def lengths (length : ℚ) : List Point → List ℚ
  | p :: q :: points => length :: lengths (length+hypot (q.x-p.x) (q.y-p.y)) (q :: points)
  | [_] => [length]
  | [] => []

def strokelength : List Point → ℚ
  | p :: q :: points => hypot (q.x-p.x) (q.y-p.y)+strokelength (q :: points)
  | _ => 0

/-- The distance and the angle to the next point; the last point is discarded. -/
def simple : List StrokePoint → List StrokePoint
  | p :: q :: results => { p with delta_s := q.s-p.s, angle := angle (q.y-p.y) (q.x-p.x) } :: simple (q :: results)
  | _ => []

/-- The first points of the array; a read of something that has not been recorded is a failure. -/
def readPoints (s : Stroke) : Nat → Option (List Point)
  | 0 => some []
  | n+1 => do
    let points ← readPoints s n
    let p ← s.points n
    some (points ++ [p])

/-- What comes out, and what has been divided by. -/
structure Processed where
  results : List StrokePoint
  strokelength : ℚ
  scale : ℚ

def scaleOf (s : Stroke) : ℚ :=
  let scaleX := s.max_x-s.min_x
  let scaleY := s.max_y-s.min_y
  if scaleX > scaleY then scaleX else scaleY

/-- `hypot` is the distance, `angle` is `atan2` in units of pi. -/
def processData (s : Stroke) : Option Processed :=
  if s.point_count < 2 then some ⟨[],0,0⟩
  else do
    let points ← readPoints s (s.point_count-1).toNat
    let length := strokelength hypot points
    let scale := scaleOf s
    let results := ((lengths hypot 0 points).zip points).map fun (l,p) => (⟨l/length,0,0,
      (p.x-((s.min_x+s.max_x : Int) : ℚ)/2)/scale+1/2,(p.y-((s.min_y+s.max_y : Int) : ℚ)/2)/scale+1/2⟩ : StrokePoint)
    some ⟨simple angle results,length,scale⟩

/-- A stroke is recorded and processed within the array, and nothing is divided by zero for what comes out. -/
structure Right (points : List Point) : Prop where
  stores : (recordAll reset points).isSome
  reads : ∀ s, recordAll reset points = some s → (processData hypot angle s).isSome
  positive : ∀ s, recordAll reset points = some s → ∀ processed, processData hypot angle s = some processed →
    processed.results ≠ [] → 0 < processed.strokelength ∧ 0 < processed.scale

/-- What the proofs use of `hypot`. -/
structure Distance : Prop where
  nonneg : ∀ x y, 0 ≤ hypot x y
  zero_iff : ∀ x y, hypot x y = 0 ↔ x = 0 ∧ y = 0

end

/-- The array holds the first points, the counter counts them all. -/
structure Recorded (s : Stroke) (points : List Point) : Prop where
  count : s.point_count = (points.length : Int)-1
  array : ∀ i : Nat, s.points i = (points.take MAX_POINTS)[i]?
  inside : ∀ p ∈ points.take MAX_POINTS, s.min_x ≤ p.x ∧ p.x ≤ s.max_x ∧ s.min_y ≤ p.y ∧ p.y ≤ s.max_y

variable {s : Stroke} {points : List Point}

theorem recorded_reset : Recorded reset [] := by
  refine ⟨rfl,fun i => ?_,fun p inside => ?_⟩
  · simp [reset]
  · simp at inside

theorem record_first (recorded : Recorded s []) (p : Point) : ∃ b t, s.record p = some (b,t) ∧ Recorded t [p] := by
  have start : s.point_count = -1 := recorded.count
  have one : [p].take MAX_POINTS = [p] := rfl
  refine ⟨true,_,by rw [Stroke.record,if_pos start,Stroke.store,if_pos (by rw [start]; decide)]; rfl,?_,?_,?_⟩
  · simp [start]
  · intro i
    rw [one]
    cases i with
    | zero => simp [start]
    | succ i =>
      have other : ((i+1 : Nat) : Int) ≠ s.point_count+1 := by
        rw [start]
        omega
      have empty := recorded.array (i+1)
      simp only [update_of_ne other,empty]
      simp
  · intro q inside
    rw [one,mem_singleton] at inside
    subst inside
    simp

theorem record_full (recorded : Recorded s points) (full : MAX_POINTS ≤ points.length) (p : Point) :
    ∃ b t, s.record p = some (b,t) ∧ Recorded t (points ++ [p]) := by
  have count := recorded.count
  have several : s.point_count ≠ -1 := by
    rw [count]
    unfold MAX_POINTS at full
    omega
  have same : (points ++ [p]).take MAX_POINTS = points.take MAX_POINTS := take_append_of_le_length full
  refine ⟨false,_,by rw [Stroke.record,if_neg several,if_pos (by rw [count]; omega)],?_,?_,?_⟩
  · simp [count]
  · intro i
    rw [same]
    exact recorded.array i
  · rw [same]
    exact recorded.inside

theorem record_further (recorded : Recorded s points) (any : points ≠ []) (room : points.length < MAX_POINTS)
    (p : Point) : ∃ b t, s.record p = some (b,t) ∧ Recorded t (points ++ [p]) := by
  have count := recorded.count
  have positive := length_pos_iff.mpr any
  have several : s.point_count ≠ -1 := by
    rw [count]
    omega
  have place : s.point_count+1 = (points.length : Int) := by
    rw [count]
    omega
  have all : points.take MAX_POINTS = points := take_of_length_le (by omega)
  have more : (points ++ [p]).take MAX_POINTS = points ++ [p] := take_of_length_le (by simp; omega)
  refine ⟨true,_,by rw [Stroke.record,if_neg several,if_neg (by rw [place]; omega),Stroke.store,
    if_pos (by rw [place]; omega)]; rfl,?_,?_,?_⟩
  · simp [place]
  · intro i
    rw [more]
    have before := recorded.array i
    rw [all] at before
    by_cases last : i = points.length
    · subst last
      simp [place]
    · have other : (i : Int) ≠ s.point_count+1 := by
        rw [place]
        omega
      simp only [update_of_ne other,before]
      rcases Nat.lt_or_gt_of_ne last with within | beyond
      · rw [getElem?_append_left within]
      · rw [getElem?_eq_none (Nat.le_of_lt beyond),getElem?_eq_none]
        rw [length_append,length_singleton]
        exact beyond
  · intro q inside
    rw [more,mem_append,mem_singleton] at inside
    rcases inside with before | rfl
    · have bounds := recorded.inside q (by rwa [all])
      dsimp only
      refine ⟨?_,?_,?_,?_⟩ <;> split <;> omega
    · dsimp only
      refine ⟨?_,?_,?_,?_⟩ <;> split <;> omega

theorem record_recorded (recorded : Recorded s points) (p : Point) :
    ∃ b t, s.record p = some (b,t) ∧ Recorded t (points ++ [p]) := by
  by_cases full : MAX_POINTS ≤ points.length
  · exact record_full recorded full p
  · by_cases any : points = []
    · subst any
      exact record_first recorded p
    · exact record_further recorded any (by omega) p

theorem recordAll_recorded (recorded : Recorded s points) (more : List Point) :
    ∃ t, recordAll s more = some t ∧ Recorded t (points ++ more) := by
  induction more generalizing s points with
  | nil => exact ⟨s,rfl,by rwa [append_nil]⟩
  | cons p more ih =>
    obtain ⟨b,u,ran,next⟩ := record_recorded recorded p
    obtain ⟨t,rest,last⟩ := ih next
    refine ⟨t,?_,?_⟩
    · rw [recordAll,ran]
      exact rest
    · rwa [append_assoc] at last

theorem readPoints_recorded (recorded : Recorded s points) {n : Nat} (le : n ≤ (points.take MAX_POINTS).length) :
    readPoints s n = some (points.take n) := by
  induction n with
  | zero => rfl
  | succ n ih =>
    have inside : n < (points.take MAX_POINTS).length := le
    rw [readPoints,ih (by omega),recorded.array n,getElem?_eq_getElem inside]
    rw [getElem_take]
    have within : n < points.length := by
      rw [length_take] at inside
      omega
    rw [← take_append_getElem within]
    rfl

theorem readPoints_outside (recorded : Recorded s points) {n : Nat} (lt : (points.take MAX_POINTS).length < n) :
    readPoints s n = none := by
  induction n with
  | zero => cases lt
  | succ n ih =>
    by_cases earlier : (points.take MAX_POINTS).length < n
    · rw [readPoints,ih earlier]
      rfl
    · have last : s.points n = none := by
        rw [recorded.array n]
        exact getElem?_eq_none (by omega)
      rw [readPoints,last]
      cases readPoints s n <;> rfl

section
variable {hypot : Int → Int → ℚ} {angle : ℚ → ℚ → ℚ}

theorem strokelength_nonneg (distance : Distance hypot) (points : List Point) : 0 ≤ strokelength hypot points := by
  induction points with
  | nil => exact le_refl 0
  | cons p points ih =>
    cases points with
    | nil => exact le_refl 0
    | cons q points => exact add_nonneg (distance.nonneg _ _) ih

theorem strokelength_eq_zero_iff (distance : Distance hypot) (points : List Point) :
    strokelength hypot points = 0 ↔ ∀ p ∈ points, ∀ q ∈ points, p = q := by
  induction points with
  | nil => simp [strokelength]
  | cons p points ih =>
    cases points with
    | nil => simp [strokelength]
    | cons q points =>
      have rest := strokelength_nonneg distance (q :: points)
      have step := distance.nonneg (q.x-p.x) (q.y-p.y)
      rw [strokelength]
      constructor
      · intro zero
        have still := ih.mp (by linarith)
        have here := (distance.zero_iff (q.x-p.x) (q.y-p.y)).mp (by linarith)
        have same : p = q := by
          cases p
          cases q
          simp only [Point.mk.injEq]
          dsimp only at here
          omega
        subst same
        intro a first b second
        exact still a (by simpa using first) b (by simpa using second)
      · intro still
        have same : p = q := still p (by simp) q (by simp)
        subst same
        have here := (distance.zero_iff (p.x-p.x) (p.y-p.y)).mpr ⟨sub_self _,sub_self _⟩
        have zero := ih.mpr fun a first b second =>
          still a (mem_cons_of_mem _ first) b (mem_cons_of_mem _ second)
        rw [here,zero,add_zero]

theorem lengths_length (length : ℚ) (points : List Point) : (lengths hypot length points).length = points.length := by
  induction points generalizing length with
  | nil => rfl
  | cons p points ih =>
    cases points with
    | nil => rfl
    | cons q points =>
      rw [lengths,length_cons,ih]
      rfl

theorem simple_length (results : List StrokePoint) : (simple angle results).length = results.length-1 := by
  induction results with
  | nil => rfl
  | cons p results ih =>
    cases results with
    | nil => rfl
    | cons q results =>
      rw [simple,length_cons,ih]
      simp

theorem scale_pos (recorded : Recorded s points) {p q : Point} (first : p ∈ points.take MAX_POINTS)
    (second : q ∈ points.take MAX_POINTS) (differ : p ≠ q) : 0 < scaleOf s := by
  have here := recorded.inside p first
  have there := recorded.inside q second
  have positive : 0 < s.max_x-s.min_x ∨ 0 < s.max_y-s.min_y := by
    by_contra neither
    apply differ
    cases p
    cases q
    simp only [Point.mk.injEq]
    dsimp only at here there
    omega
  unfold scaleOf
  dsimp only
  split
  · have wide : 0 < s.max_x-s.min_x := by omega
    exact_mod_cast wide
  · have tall : 0 < s.max_y-s.min_y := by omega
    exact_mod_cast tall

theorem processData_recorded (hypot : Int → Int → ℚ) (angle : ℚ → ℚ → ℚ) (recorded : Recorded s points) (several : 3 ≤ points.length)
    (short : points.length ≤ MAX_POINTS+2) : ∃ results, processData hypot angle s =
      some ⟨results,strokelength hypot (points.take (points.length-2)),scaleOf s⟩ ∧
        results.length = points.length-3 := by
  have count : ¬ s.point_count < 2 := by
    rw [recorded.count]
    omega
  have number : (s.point_count-1).toNat = points.length-2 := by
    rw [recorded.count]
    omega
  have read : readPoints s (points.length-2) = some (points.take (points.length-2)) := by
    apply readPoints_recorded recorded
    rw [length_take]
    omega
  rw [processData,if_neg count,number,read]
  refine ⟨_,rfl,?_⟩
  rw [simple_length,length_map,length_zip,lengths_length,length_take]
  omega

theorem processData_outside (recorded : Recorded s points) (long : MAX_POINTS+2 < points.length) :
    processData hypot angle s = none := by
  have count : ¬ s.point_count < 2 := by
    rw [recorded.count]
    unfold MAX_POINTS at long
    omega
  have number : (s.point_count-1).toNat = points.length-2 := by
    rw [recorded.count]
    omega
  have read : readPoints s (points.length-2) = none := by
    apply readPoints_outside recorded
    rw [length_take]
    omega
  rw [processData,if_neg count,number,read]
  rfl

theorem points_right_iff (hypot : Int → Int → ℚ) (angle : ℚ → ℚ → ℚ) (distance : Distance hypot) (points : List Point) :
    Right hypot angle points ↔ points.length ≤ MAX_POINTS+2 ∧ (4 ≤ points.length →
      ∃ p ∈ points.take (points.length-2), ∃ q ∈ points.take (points.length-2), p ≠ q) := by
  obtain ⟨s,ran,recorded⟩ := recordAll_recorded recorded_reset points
  rw [nil_append] at recorded
  constructor
  · intro right
    have short : points.length ≤ MAX_POINTS+2 := by
      by_contra long
      have reads := right.reads s ran
      rw [processData_outside recorded (by omega)] at reads
      cases reads
    refine ⟨short,fun several => ?_⟩
    obtain ⟨results,processed,length⟩ := processData_recorded hypot angle recorded (by omega) short
    have any : results ≠ [] := by
      rintro rfl
      rw [length_nil] at length
      omega
    have positive := (right.positive s ran _ processed any).1
    by_contra still
    push Not at still
    exact absurd ((strokelength_eq_zero_iff distance _).mpr still) (ne_of_gt positive)
  · rintro ⟨short,moves⟩
    refine ⟨by rw [ran]; rfl,?_,?_⟩
    · intro t same
      obtain rfl := some.inj (ran.symm.trans same)
      by_cases several : 3 ≤ points.length
      · obtain ⟨results,processed,_⟩ := processData_recorded hypot angle recorded several short
        rw [processed]
        rfl
      · rw [processData,if_pos (by rw [recorded.count]; omega)]
        rfl
    · intro t same processed found any
      obtain rfl := some.inj (ran.symm.trans same)
      by_cases several : 3 ≤ points.length
      · obtain ⟨results,run,length⟩ := processData_recorded hypot angle recorded several short
        obtain rfl := some.inj (run.symm.trans found)
        have four : 4 ≤ points.length := by
          have positive := length_pos_iff.mpr any
          dsimp only at positive
          omega
        obtain ⟨p,first,q,second,differ⟩ := moves four
        have within : points.take (points.length-2) ⊆ points.take MAX_POINTS :=
          (List.take_prefix_take_left (by omega)).subset
        refine ⟨?_,scale_pos recorded (within first) (within second) differ⟩
        refine lt_of_le_of_ne (strokelength_nonneg distance _) fun zero => ?_
        exact differ ((strokelength_eq_zero_iff distance _).mp zero.symm p first q second)
      · rw [processData,if_pos (by rw [recorded.count]; omega)] at found
        obtain rfl := some.inj found
        exact absurd rfl any

end

/-- The place of a digit on the keypad. -/
def keypad : Char → Option Point
  | '1' => some ⟨0,2000⟩
  | '2' => some ⟨1000,2000⟩
  | '3' => some ⟨2000,2000⟩
  | '4' => some ⟨0,1000⟩
  | '5' => some ⟨1000,1000⟩
  | '6' => some ⟨2000,1000⟩
  | '7' => some ⟨0,0⟩
  | '8' => some ⟨1000,0⟩
  | '9' => some ⟨2000,0⟩
  | _ => none

/-- All quarters of the way are whole numbers. -/
def interpolate (old new : Point) (k : Int) : Point := ⟨old.x+k*(new.x-old.x)/4,old.y+k*(new.y-old.y)/4⟩

/-- The points that are recorded for the digits, each with three on the way to it. -/
def kde3Points (old : Option Point) : List Char → Option (List Point)
  | [] => some []
  | c :: code => do
    let new ← keypad c
    let rest ← kde3Points (some new) code
    match old with
    | none => some (new :: rest)
    | some old => some (interpolate old new 1 :: interpolate old new 2 :: interpolate old new 3 :: new :: rest)

/-- What `setKDE3Gesture` records: the last point is recorded three times more. -/
def setKDE3Gesture (gestureCode : List Char) : Option (List Point) := do
  let points ← kde3Points none gestureCode
  let last ← points.getLast?
  some (points ++ [last,last,last])

variable {points : List Point} {code : List Char}

theorem kde3Points_length {old : Point}
    (told : kde3Points (some old) code = some points) : points.length = 4*code.length := by
  induction code generalizing old points with
  | nil =>
    obtain rfl := some.inj told
    rfl
  | cons c code ih =>
    simp only [kde3Points,bind_eq_bind] at told
    obtain ⟨new,_,told⟩ := bind_eq_some_iff.mp told
    obtain ⟨rest,further,told⟩ := bind_eq_some_iff.mp told
    obtain rfl := some.inj told
    have length := ih further
    simp only [length_cons]
    omega

theorem kde3Points_digit {old : Option Point}
    (told : kde3Points old code = some points) : ∀ c ∈ code, ∃ p ∈ points, keypad c = some p := by
  induction code generalizing old points with
  | nil =>
    intro c inside
    cases inside
  | cons d code ih =>
    simp only [kde3Points,bind_eq_bind] at told
    obtain ⟨new,place,told⟩ := bind_eq_some_iff.mp told
    obtain ⟨rest,further,told⟩ := bind_eq_some_iff.mp told
    have within : new ∈ points ∧ rest ⊆ points := by
      cases old with
      | none =>
        obtain rfl := some.inj told
        exact ⟨mem_cons_self,subset_cons_self _ _⟩
      | some old =>
        obtain rfl := some.inj told
        refine ⟨by simp,fun p inside => by simp [inside]⟩
    intro c inside
    rcases mem_cons.mp inside with rfl | later
    · exact ⟨new,within.1,place⟩
    · obtain ⟨p,there,place⟩ := ih further c later
      exact ⟨p,within.2 there,place⟩

theorem interpolate_self (p : Point) (k : Int) : interpolate p p k = p := by
  simp [interpolate]

theorem kde3Points_still {p : Point} {old : Option Point}
    (told : kde3Points old code = some points) (same : ∀ q ∈ old, q = p) (all : ∀ c ∈ code, keypad c = some p) :
    ∀ q ∈ points, q = p := by
  induction code generalizing old points with
  | nil =>
    obtain rfl := some.inj told
    intro q inside
    cases inside
  | cons c code ih =>
    simp only [kde3Points,bind_eq_bind] at told
    obtain ⟨new,place,told⟩ := bind_eq_some_iff.mp told
    obtain ⟨rest,further,told⟩ := bind_eq_some_iff.mp told
    obtain rfl := some.inj (place.symm.trans (all c mem_cons_self))
    have still := ih further (fun q is => (some.inj is).symm) fun d later => all d (mem_cons_of_mem _ later)
    cases old with
    | none =>
      obtain rfl := some.inj told
      intro q inside
      rcases mem_cons.mp inside with rfl | later
      · rfl
      · exact still q later
    | some old =>
      obtain rfl := some.inj told
      rw [same old rfl]
      intro q inside
      simp only [interpolate_self,mem_cons] at inside
      rcases inside with rfl | rfl | rfl | rfl | later
      · rfl
      · rfl
      · rfl
      · rfl
      · exact still q later

theorem setKDE3Gesture_length (told : setKDE3Gesture code = some points) : points.length = 4*code.length := by
  simp only [setKDE3Gesture,bind_eq_bind] at told
  obtain ⟨body,first,told⟩ := bind_eq_some_iff.mp told
  obtain ⟨last,is_last,told⟩ := bind_eq_some_iff.mp told
  obtain rfl := some.inj told
  cases code with
  | nil =>
    obtain rfl := some.inj first
    cases is_last
  | cons c code =>
    simp only [kde3Points,bind_eq_bind] at first
    obtain ⟨new,_,first⟩ := bind_eq_some_iff.mp first
    obtain ⟨rest,further,first⟩ := bind_eq_some_iff.mp first
    obtain rfl := some.inj first
    have length := kde3Points_length further
    simp only [length_append,length_cons,length_nil]
    omega

theorem kde3_moves_iff (told : setKDE3Gesture code = some points) :
    (∃ p ∈ points.take (points.length-2), ∃ q ∈ points.take (points.length-2), p ≠ q) ↔
      ∃ c ∈ code, ∃ d ∈ code, keypad c ≠ keypad d := by
  simp only [setKDE3Gesture,bind_eq_bind] at told
  obtain ⟨body,first,told⟩ := bind_eq_some_iff.mp told
  obtain ⟨last,is_last,told⟩ := bind_eq_some_iff.mp told
  obtain rfl := some.inj told
  have kept : (body ++ [last,last,last]).take ((body ++ [last,last,last]).length-2) = body ++ [last] := by
    rw [length_append,take_append]
    simp
  have inside : last ∈ body := mem_of_getLast? is_last
  rw [kept]
  constructor
  · rintro ⟨p,here,q,there,differ⟩
    by_contra same
    push Not at same
    have digit : ∃ c, c ∈ code := by
      cases code with
      | nil =>
        obtain rfl := some.inj first
        cases inside
      | cons c code => exact ⟨c,mem_cons_self⟩
    obtain ⟨c,among⟩ := digit
    obtain ⟨r,_,place⟩ := kde3Points_digit first c among
    have still := kde3Points_still first (fun q none => nomatch none) fun d later => (same d later c among).trans place
    have all : ∀ q ∈ body ++ [last], q = r := by
      intro q member
      rcases mem_append.mp member with before | is
      · exact still q before
      · rw [mem_singleton.mp is]
        exact still last inside
    exact differ ((all p here).trans (all q there).symm)
  · rintro ⟨c,here,d,there,differ⟩
    obtain ⟨p,first_inside,place⟩ := kde3Points_digit first c here
    obtain ⟨q,second_inside,place'⟩ := kde3Points_digit first d there
    refine ⟨p,mem_append_left _ first_inside,q,mem_append_left _ second_inside,?_⟩
    rintro rfl
    exact differ (place.trans place'.symm)

/-- A stroke is right if it is not too long and does not stay where it begins; that of a code if the code has not too
many digits and two different ones. -/
theorem processData_iff (hypot : Int → Int → ℚ) (angle : ℚ → ℚ → ℚ) (distance : Distance hypot) :
    (∀ points, Right hypot angle points ↔ points.length ≤ MAX_POINTS+2 ∧ (4 ≤ points.length →
      ∃ p ∈ points.take (points.length-2), ∃ q ∈ points.take (points.length-2), p ≠ q)) ∧
    ∀ code points, setKDE3Gesture code = some points → (Right hypot angle points ↔
      4*code.length ≤ MAX_POINTS+2 ∧ ∃ c ∈ code, ∃ d ∈ code, keypad c ≠ keypad d) := by
  refine ⟨points_right_iff hypot angle distance,?_⟩
  intro code points told
  have length := setKDE3Gesture_length told
  have digit : 0 < code.length := by
    apply length_pos_iff.mpr
    rintro rfl
    cases told
  rw [points_right_iff hypot angle distance,kde3_moves_iff told,length]
  constructor
  · rintro ⟨short,moves⟩
    exact ⟨short,moves (by omega)⟩
  · rintro ⟨short,moves⟩
    exact ⟨short,fun _ => moves⟩

/-- The distance of two points that stand in one row or column. -/
def straight (x y : Int) : ℚ := ((x.natAbs+y.natAbs : Nat) : ℚ)

theorem straight_distance : Distance straight := by
  refine ⟨?_,?_⟩
  · intro x y
    exact Nat.cast_nonneg _
  · intro x y
    rw [straight,Nat.cast_eq_zero]
    omega

theorem line_right : Right straight (fun _ _ => 0) [⟨0,0⟩,⟨7,0⟩,⟨9,0⟩,⟨9,0⟩] :=
  ((processData_iff straight (fun _ _ => 0) straight_distance).1 _).mpr
    ⟨by decide,fun _ => ⟨⟨0,0⟩,by decide,⟨7,0⟩,by decide,by decide⟩⟩

/-- A stroke that stays where it begins. -/
theorem still_wrong : ¬ ∀ points, Right straight (fun _ _ => 0) points := by
  intro right
  obtain ⟨s,ran,recorded⟩ := recordAll_recorded recorded_reset [⟨5,5⟩,⟨5,5⟩,⟨5,5⟩,⟨5,5⟩]
  obtain ⟨results,processed,length⟩ := processData_recorded straight (fun _ _ => 0) recorded (by decide) (by decide)
  have any : results ≠ [] := by
    rintro rfl
    cases length
  have positive := ((right _).positive s ran _ processed any).1
  simp [strokelength,straight] at positive

end KdeWorkspace.Strokes
