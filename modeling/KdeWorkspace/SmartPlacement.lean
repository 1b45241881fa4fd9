import Mathlib.Data.Prod.Lex
import KdeWorkspace.Geometry
import KdeWorkspace.Loops

/-!
The search of `Placement::placeSmart`.

Row by row the search looks at positions where a side of the client touches a
side of a window, and keeps the first one with the least overlap. It always ends
(`search_ends`). A client that fits stays in the area, and its position has the
least overlap of those that were looked at, except for a client higher than the
area, which goes to the top (`placeSmart_least`).
-/
namespace KdeWorkspace.SmartPlacement
open KdeWorkspace.Geometry Loops

/-- A window of the stacking order, and what the search asks about it. -/
structure Window where
  x : Int
  y : Int
  width : Nat
  height : Nat
  isClient : Bool
  isPlaced : Bool
  isCurrentTab : Bool
  isShown : Bool
  isOnDesktop : Bool
  isOnCurrentActivity : Bool
  isDesktop : Bool
  isDock : Bool
  keepAbove : Bool
  keepBelow : Bool
deriving Repr, DecidableEq

def Window.isIrrelevant (l : Window) : Bool :=
  !l.isClient || l.isPlaced || !l.isCurrentTab || !l.isShown || !l.isOnDesktop || !l.isOnCurrentActivity || l.isDesktop

/-- A client of positive size, the area, and the windows in stacking order. -/
structure Placing where
  width : Nat
  height : Nat
  maxRect : QRect
  stackingOrder : List Window
  widthPos : 0 < width
  heightPos : 0 < height

/-- The search at the top of the loop. -/
structure Search where
  x : Int
  y : Int
  xOptimal : Int
  yOptimal : Int
  minOverlap : Int
  firstPass : Bool
deriving Repr, DecidableEq

def none : Int := 0
def hWrong : Int := -1
def wWrong : Int := -2

namespace Placing
variable (p : Placing)

def cw : Int := p.width-1
def ch : Int := p.height-1

/-- What one window adds to the overlap at a position. -/
def overlapWith (x y : Int) (l : Window) : Int :=
  if l.isIrrelevant then 0
  else
    let cxl := x
    let cxr := x+p.cw
    let cyt := y
    let cyb := y+p.ch
    let xl := l.x
    let yt := l.y
    let xr := xl+l.width
    let yb := yt+l.height
    if cxl < xr ∧ cxr > xl ∧ cyt < yb ∧ cyb > yt then
      let area := (min cxr xr-max cxl xl)*(min cyb yb-max cyt yt)
      if l.keepAbove then 16*area
      else if l.keepBelow ∧ !l.isDock then 0
      else area
    else 0

/-- The sum over the windows. -/
def overlapSum (x y : Int) : Int := p.stackingOrder.foldl (fun overlap l => overlap+p.overlapWith x y l) none

/-- The overlap, or what is wrong with the position. -/
def overlap (x y : Int) : Int :=
  if y+p.ch > p.maxRect.bottom ∧ p.ch < p.maxRect.height then hWrong
  else if x+p.cw > p.maxRect.right then wWrong
  else p.overlapSum x y

/-- The next position to the right. -/
def nextX (x y : Int) : Int :=
  p.stackingOrder.foldl (fun (possible : Int) (l : Window) =>
    let yb := l.y+l.height
    let xr := l.x+l.width
    if !l.isIrrelevant ∧ y < yb ∧ l.y < p.ch+y then
      let possible := if xr > x ∧ possible > xr then xr else possible
      let basket := l.x-p.cw
      if basket > x ∧ possible > basket then basket else possible
    else possible)
    (if p.maxRect.right-p.cw > x then p.maxRect.right-p.cw else p.maxRect.right)

def nextY (y : Int) : Int :=
  p.stackingOrder.foldl (fun (possible : Int) (l : Window) =>
    let yb := l.y+l.height
    if !l.isIrrelevant then
      let possible := if yb > y ∧ possible > yb then yb else possible
      let basket := l.y-p.ch
      if basket > y ∧ possible > basket then basket else possible
    else possible)
    (if p.maxRect.bottom-p.ch > y then p.maxRect.bottom-p.ch else p.maxRect.bottom)

def start : Search := ⟨p.maxRect.left,p.maxRect.top,p.maxRect.left,p.maxRect.top,0,true⟩

/-- The best position and the minimum overlap up to now. -/
def save (s : Search) : Search :=
  let overlap := p.overlap s.x s.y
  if s.firstPass then {s with firstPass := false, minOverlap := overlap}
  else if overlap ≥ none ∧ overlap < s.minOverlap then {s with minOverlap := overlap, xOptimal := s.x, yOptimal := s.y}
  else s

/-- On to the next position, in the row or below it. -/
def advance (s : Search) : Search :=
  let overlap := p.overlap s.x s.y
  if overlap > none then {s with x := p.nextX s.x s.y}
  else if overlap = wWrong then {s with x := p.maxRect.left, y := p.nextY s.y}
  else s

/-- One round of the `do` loop. -/
def round (s : Search) : Round Search Search :=
  let overlap := p.overlap s.x s.y
  if overlap = none then .done {s with xOptimal := s.x, yOptimal := s.y}
  else
    let t := p.advance (p.save s)
    if overlap ≠ hWrong ∧ t.y < p.maxRect.bottom then .next t else .done t

/-- The position after the search. -/
def position (s : Search) : QPoint := ⟨s.xOptimal,if p.ch ≥ p.maxRect.height then p.maxRect.top else s.yOptimal⟩

/-- `placeSmart`, when `fuel` rounds are enough for its search. -/
def placeSmart (fuel : Nat) : Option QPoint := (loop p.round fuel p.start).map p.position

/-- The search looks at the position of the state. -/
def Visited (s : Search) : Prop := Relation.ReflTransGen (fun s t => p.round s = .next t) p.start s

/-- The client has room at the position, and the search computes its overlap. -/
def HasRoom (x y : Int) : Prop := y+p.ch ≤ p.maxRect.bottom ∧ x+p.cw ≤ p.maxRect.right

end Placing

section
variable {p : Placing}

theorem cw_nonneg : 0 ≤ p.cw := by
  have pos := p.widthPos
  unfold Placing.cw
  omega

theorem ch_nonneg : 0 ≤ p.ch := by
  have pos := p.heightPos
  unfold Placing.ch
  omega

theorem overlapWith_nonneg (x y : Int) (l : Window) : 0 ≤ p.overlapWith x y l := by
  have wide := cw_nonneg (p := p)
  have high := ch_nonneg (p := p)
  unfold Placing.overlapWith
  split
  · exact Int.le_refl 0
  · dsimp only
    split
    · rename_i meets
      have area : 0 ≤ (min (x+p.cw) (l.x+l.width)-max x l.x)*(min (y+p.ch) (l.y+l.height)-max y l.y) :=
        Int.mul_nonneg (by omega) (by omega)
      split
      · omega
      · split <;> omega
    · exact Int.le_refl 0

theorem overlapWith_narrow (narrow : p.cw = 0) (x y : Int) (l : Window) : p.overlapWith x y l = 0 := by
  unfold Placing.overlapWith
  split
  · rfl
  · dsimp only
    split
    · rename_i meets
      have zero : min (x+p.cw) (l.x+l.width)-max x l.x = 0 := by omega
      rw [zero,Int.zero_mul]
      simp
    · rfl

theorem overlapSum_nonneg (x y : Int) : 0 ≤ p.overlapSum x y :=
  List.foldlRecOn p.stackingOrder _ (Int.le_refl 0) (fun _ nonneg l _ => Int.add_nonneg nonneg (overlapWith_nonneg x y l))

theorem overlapSum_narrow (narrow : p.cw = 0) (x y : Int) : p.overlapSum x y = 0 :=
  List.foldlRecOn (motive := (· = 0)) p.stackingOrder _ rfl
    (fun sum zero l _ => by rw [zero,overlapWith_narrow narrow]; rfl)

theorem nextX_bounds {x : Int} (y : Int) (before : x < p.maxRect.right) : x < p.nextX x y ∧ p.nextX x y ≤ p.maxRect.right := by
  have wide := cw_nonneg (p := p)
  unfold Placing.nextX
  refine List.foldlRecOn (motive := fun possible => x < possible ∧ possible ≤ p.maxRect.right) p.stackingOrder _ ?_ ?_
  · split <;> omega
  · intro possible bounds l _
    dsimp only
    grind

theorem nextY_bounds (y : Int) : (y < p.nextY y ∨ p.nextY y = p.maxRect.bottom) ∧ p.nextY y ≤ p.maxRect.bottom := by
  have high := ch_nonneg (p := p)
  unfold Placing.nextY
  refine List.foldlRecOn (motive := fun possible => (y < possible ∨ possible = p.maxRect.bottom) ∧ possible ≤ p.maxRect.bottom)
    p.stackingOrder _ ?_ ?_
  · split <;> omega
  · intro possible bounds l _
    dsimp only
    grind

theorem nextX_further {x y : Int} (overlapped : 0 < p.overlapSum x y) (narrow : x+p.cw ≤ p.maxRect.right) :
    x < p.nextX x y ∧ p.nextX x y ≤ p.maxRect.right := by
  have wide : p.cw ≠ 0 := fun thin => absurd (overlapSum_narrow thin x y) (by omega)
  have nonneg := cw_nonneg (p := p)
  exact nextX_bounds y (by omega)

theorem overlap_cases (x y : Int) :
    (p.overlap x y = hWrong ∧ y+p.ch > p.maxRect.bottom ∧ p.ch < p.maxRect.height) ∨
    (p.overlap x y = wWrong ∧ x+p.cw > p.maxRect.right) ∨
    (p.overlap x y = p.overlapSum x y ∧ x+p.cw ≤ p.maxRect.right ∧ (p.ch < p.maxRect.height → y+p.ch ≤ p.maxRect.bottom)) := by
  unfold Placing.overlap
  split
  · rename_i high
    exact .inl ⟨rfl,high⟩
  · split
    · rename_i wide
      exact .inr (.inl ⟨rfl,wide⟩)
    · exact .inr (.inr ⟨rfl,by omega,by omega⟩)

theorem overlap_computed {x y : Int} (computed : p.overlap x y ≥ none) :
    p.overlap x y = p.overlapSum x y ∧ x+p.cw ≤ p.maxRect.right ∧ (p.ch < p.maxRect.height → y+p.ch ≤ p.maxRect.bottom) := by
  rcases overlap_cases (p := p) x y with ⟨code,-⟩ | ⟨code,-⟩ | sum
  · rw [code] at computed
    exact absurd computed (by decide)
  · rw [code] at computed
    exact absurd computed (by decide)
  · exact sum

theorem overlap_room {x y : Int} (room : p.HasRoom x y) : p.overlap x y = p.overlapSum x y := by
  unfold Placing.overlap Placing.HasRoom at *
  rw [if_neg (by omega),if_neg (by omega)]

variable {s t : Search}

theorem save_x : (p.save s).x = s.x := by unfold Placing.save; grind

theorem save_y : (p.save s).y = s.y := by unfold Placing.save; grind

theorem save_firstPass : (p.save s).firstPass = false := by unfold Placing.save; grind

theorem save_optimal :
    ((p.save s).xOptimal = s.xOptimal ∧ (p.save s).yOptimal = s.yOptimal) ∨
    ((p.save s).xOptimal = s.x ∧ (p.save s).yOptimal = s.y ∧ p.overlap s.x s.y ≥ none) := by
  unfold Placing.save
  grind

theorem advance_optimal : (p.advance s).xOptimal = s.xOptimal ∧ (p.advance s).yOptimal = s.yOptimal ∧
    (p.advance s).minOverlap = s.minOverlap ∧ (p.advance s).firstPass = s.firstPass := by
  unfold Placing.advance
  grind

theorem round_next (goes : p.round s = .next t) :
    t = p.advance (p.save s) ∧ p.overlap s.x s.y ≠ none ∧ p.overlap s.x s.y ≠ hWrong ∧ t.y < p.maxRect.bottom := by
  simp only [Placing.round] at goes
  split at goes
  · cases goes
  · rename_i some_overlap
    split at goes
    · rename_i on
      cases goes
      exact ⟨rfl,some_overlap,on.1,on.2⟩
    · cases goes

theorem round_moves (goes : p.round s = .next t) :
    (t.x = p.maxRect.left ∧ t.y = p.nextY s.y) ∨
      (t.x = p.nextX s.x s.y ∧ t.y = s.y ∧ 0 < p.overlapSum s.x s.y ∧ s.x+p.cw ≤ p.maxRect.right) := by
  obtain ⟨rfl,some_overlap,high,-⟩ := round_next goes
  unfold Placing.advance
  rw [save_x,save_y]
  rcases overlap_cases (p := p) s.x s.y with ⟨code,-⟩ | ⟨code,-⟩ | ⟨sum,narrow,-⟩
  · exact absurd code high
  · rw [code]
    exact .inl ⟨rfl,rfl⟩
  · have positive : p.overlap s.x s.y > none := by
      have nonneg := overlapSum_nonneg (p := p) s.x s.y
      unfold none at *
      omega
    rw [if_pos positive]
    exact .inr ⟨rfl,rfl,sum ▸ positive,narrow⟩

theorem round_done (leaves : p.round s = .done t) :
    (t.xOptimal = s.x ∧ t.yOptimal = s.y ∧ p.overlap s.x s.y = none) ∨
    (t.xOptimal = (p.save s).xOptimal ∧ t.yOptimal = (p.save s).yOptimal) := by
  simp only [Placing.round] at leaves
  split at leaves
  · rename_i free
    cases leaves
    exact .inl ⟨rfl,rfl,free⟩
  · split at leaves
    · cases leaves
    · cases leaves
      exact .inr ⟨advance_optimal.1,advance_optimal.2.1⟩

theorem round_lower (goes : p.round s = .next t) :
    Prod.Lex (· < ·) (· < ·) ((p.maxRect.bottom-t.y).toNat,(p.maxRect.right-t.x).toNat)
      ((p.maxRect.bottom-s.y).toNat,(p.maxRect.right-s.x).toNat) := by
  have inside := (round_next goes).2.2.2
  rcases round_moves goes with ⟨-,row⟩ | ⟨right,row,overlapped,narrow⟩
  · have below := nextY_bounds (p := p) s.y
    exact .left _ _ (by omega)
  · have further := nextX_further overlapped narrow
    rw [row]
    exact .right _ (by omega)

theorem search_ends (p : Placing) : ∃ r, Ends p.round p.start r := by
  obtain ⟨r,ended,-⟩ := ends_of_measure (WellFounded.prod_lex Nat.lt_wfRel.wf Nat.lt_wfRel.wf)
    (fun s : Search => ((p.maxRect.bottom-s.y).toNat,(p.maxRect.right-s.x).toNat)) (fun _ => True) (fun _ => True)
    (fun s t _ goes => ⟨trivial,round_lower goes⟩) (fun _ _ _ _ => trivial) (s := p.start) trivial
  exact ⟨r,ended⟩

/-- The client is not larger than the area. -/
def Placing.Fits (p : Placing) : Prop := p.width ≤ p.maxRect.width ∧ p.height ≤ p.maxRect.height

/-- The client lies in the area at the position. -/
def Placing.Inside (p : Placing) (pos : QPoint) : Prop :=
  p.maxRect.left ≤ pos.x ∧ pos.x+p.cw ≤ p.maxRect.right ∧ p.maxRect.top ≤ pos.y ∧ pos.y+p.ch ≤ p.maxRect.bottom

/-- The search does not leave the area, and its best position is inside. -/
structure InArea (p : Placing) (s : Search) : Prop where
  atLeft : p.maxRect.left ≤ s.x
  atTop : p.maxRect.top ≤ s.y
  optimal : p.Inside ⟨s.xOptimal,s.yOptimal⟩

theorem start_inArea (fits : p.Fits) : InArea p p.start := by
  obtain ⟨wide,high⟩ := fits
  refine ⟨Int.le_refl _,Int.le_refl _,Int.le_refl _,?_,Int.le_refl _,?_⟩
  · unfold QRect.width at wide
    unfold Placing.start Placing.cw QRect.left QRect.right
    dsimp only
    omega
  · unfold QRect.height at high
    unfold Placing.start Placing.ch QRect.top QRect.bottom
    dsimp only
    omega

theorem inside_of_computed (fits : p.Fits) (area : InArea p s) (computed : p.overlap s.x s.y ≥ none) : p.Inside ⟨s.x,s.y⟩ := by
  obtain ⟨-,narrow,low⟩ := overlap_computed computed
  have lower : p.ch < p.maxRect.height := by
    have high := fits.2
    unfold Placing.ch
    omega
  exact ⟨area.atLeft,narrow,area.atTop,low lower⟩

theorem save_inside (fits : p.Fits) (area : InArea p s) : p.Inside ⟨(p.save s).xOptimal,(p.save s).yOptimal⟩ := by
  rcases save_optimal (p := p) (s := s) with ⟨x,y⟩ | ⟨x,y,computed⟩
  · rw [x,y]
    exact area.optimal
  · rw [x,y]
    exact inside_of_computed fits area computed

theorem round_inArea (fits : p.Fits) (area : InArea p s) (goes : p.round s = .next t) : InArea p t := by
  obtain ⟨same,-,-,inside⟩ := round_next goes
  have optimal : p.Inside ⟨t.xOptimal,t.yOptimal⟩ := by
    rw [same,advance_optimal.1,advance_optimal.2.1]
    exact save_inside fits area
  rcases round_moves goes with ⟨left,row⟩ | ⟨right,row,overlapped,narrow⟩
  · refine ⟨by omega,?_,optimal⟩
    have below := nextY_bounds (p := p) s.y
    have top := area.atTop
    omega
  · have further := nextX_further overlapped narrow
    have left := area.atLeft
    have top := area.atTop
    exact ⟨by omega,by omega,optimal⟩

theorem search_inside (fits : p.Fits) {r : Search} (ended : Ends p.round p.start r) : p.Inside ⟨r.xOptimal,r.yOptimal⟩ := by
  refine ends_post (InArea p) (fun r => p.Inside ⟨r.xOptimal,r.yOptimal⟩) (fun s t area goes => round_inArea fits area goes)
    (fun s t area leaves => ?_) ended (start_inArea fits)
  rcases round_done leaves with ⟨x,y,free⟩ | ⟨x,y⟩
  · rw [x,y]
    exact inside_of_computed fits area (Int.le_of_eq free.symm)
  · rw [x,y]
    exact save_inside fits area

theorem search_visited {r : Search} (ended : Ends p.round p.start r) :
    ∃ t, p.Visited t ∧ t.x = r.xOptimal ∧ t.y = r.yOptimal := by
  have saved {s : Search} (visited : p.Visited s) (best : ∃ t, p.Visited t ∧ t.x = s.xOptimal ∧ t.y = s.yOptimal) :
      ∃ t, p.Visited t ∧ t.x = (p.save s).xOptimal ∧ t.y = (p.save s).yOptimal := by
    rcases save_optimal (p := p) (s := s) with ⟨x,y⟩ | ⟨x,y,-⟩
    · rw [x,y]
      exact best
    · exact ⟨s,visited,x.symm,y.symm⟩
  refine ends_post (fun s => p.Visited s ∧ ∃ t, p.Visited t ∧ t.x = s.xOptimal ∧ t.y = s.yOptimal)
    (fun r => ∃ t, p.Visited t ∧ t.x = r.xOptimal ∧ t.y = r.yOptimal)
    (fun s t ⟨visited,best⟩ goes => ⟨visited.tail goes,?_⟩) (fun s r ⟨visited,best⟩ leaves => ?_) ended
    ⟨.refl,p.start,.refl,rfl,rfl⟩
  · rw [(round_next goes).1,advance_optimal.1,advance_optimal.2.1]
    exact saved visited best
  · rcases round_done leaves with ⟨x,y,-⟩ | ⟨x,y⟩
    · exact ⟨s,visited,x.symm,y.symm⟩
    · rw [x,y]
      exact saved visited best

/-- The minimum is the overlap of the best position, once there is one. -/
structure Minimal (p : Placing) (s : Search) : Prop where
  first : s.firstPass → s.x = s.xOptimal ∧ s.y = s.yOptimal ∧ p.HasRoom s.x s.y
  kept : s.firstPass = false → s.minOverlap = p.overlapSum s.xOptimal s.yOptimal

theorem save_minimal (minimal : Minimal p s) :
    (p.save s).minOverlap = p.overlapSum (p.save s).xOptimal (p.save s).yOptimal ∧
      (s.firstPass = false → (p.save s).minOverlap ≤ s.minOverlap) ∧
      (p.HasRoom s.x s.y → (p.save s).minOverlap ≤ p.overlapSum s.x s.y) := by
  cases pass : s.firstPass with
  | true =>
    obtain ⟨x,y,room⟩ := minimal.first pass
    have sum := overlap_room room
    simp only [Placing.save,pass,if_true]
    rw [← x,← y,sum]
    exact ⟨rfl,fun later => Bool.noConfusion later,fun _ => Int.le_refl _⟩
  | false =>
    have kept := minimal.kept pass
    simp only [Placing.save,pass,Bool.false_eq_true,if_false]
    split
    · rename_i better
      obtain ⟨sum,-⟩ := overlap_computed better.1
      exact ⟨sum,fun _ => Int.le_of_lt better.2,fun _ => Int.le_of_eq sum⟩
    · rename_i worse
      refine ⟨kept,fun _ => Int.le_refl _,fun room => ?_⟩
      have sum := overlap_room room
      have nonneg := overlapSum_nonneg (p := p) s.x s.y
      unfold none at worse
      omega

theorem round_minimal (minimal : Minimal p s) (goes : p.round s = .next t) : Minimal p t := by
  rw [(round_next goes).1]
  obtain ⟨x,y,least,pass⟩ := advance_optimal (p := p) (s := p.save s)
  refine ⟨fun first => ?_,fun _ => ?_⟩
  · rw [pass,save_firstPass] at first
    cases first
  · rw [x,y,least]
    exact (save_minimal minimal).1

theorem search_minimal {fuel : Nat} {r : Search} (ended : loop p.round fuel s = some r) (minimal : Minimal p s) :
    (∀ t, Relation.ReflTransGen (fun s t => p.round s = .next t) s t → p.HasRoom t.x t.y →
        p.overlapSum r.xOptimal r.yOptimal ≤ p.overlapSum t.x t.y) ∧
      (s.firstPass = false → p.overlapSum r.xOptimal r.yOptimal ≤ s.minOverlap) := by
  induction fuel generalizing s with
  | zero => simp [loop] at ended
  | succ fuel ih =>
    obtain ⟨saved,lower,room⟩ := save_minimal minimal
    cases body : p.round s with
    | done result =>
      rw [loop_done body] at ended
      cases ended
      have last : ∀ t, Relation.ReflTransGen (fun s t => p.round s = .next t) s t → t = s := by
        intro t reached
        rcases Relation.ReflTransGen.cases_head reached with same | ⟨u,goes,-⟩
        · exact same.symm
        · rw [body] at goes
          cases goes
      rcases round_done body with ⟨x,y,free⟩ | ⟨x,y⟩
      · -- A position that overlaps nothing is below every other one.
        have sum := (overlap_computed (Int.le_of_eq free.symm)).1
        rw [x,y,← sum,free]
        refine ⟨fun t _ _ => overlapSum_nonneg t.x t.y,fun later => ?_⟩
        rw [minimal.kept later]
        exact overlapSum_nonneg _ _
      · rw [x,y,← saved]
        exact ⟨fun t reached free => last t reached ▸ room (last t reached ▸ free),lower⟩
    | next t =>
      rw [loop_next body] at ended
      obtain ⟨least,below⟩ := ih ended (round_minimal minimal body)
      obtain ⟨moved,-⟩ := round_next body
      obtain ⟨-,-,same,pass⟩ := advance_optimal (p := p) (s := p.save s)
      have under : p.overlapSum r.xOptimal r.yOptimal ≤ (p.save s).minOverlap := by
        rw [← same,← moved]
        exact below (by rw [moved,pass,save_firstPass])
      refine ⟨fun u reached free => ?_,fun later => Int.le_trans under (lower later)⟩
      rcases Relation.ReflTransGen.cases_head reached with rfl | ⟨v,goes,rest⟩
      · exact Int.le_trans under (room free)
      · rw [body] at goes
        cases goes
        exact least u rest free

theorem visited_right (visited : p.Visited s) : p.maxRect.left ≤ s.x := by
  induction visited with
  | refl => exact Int.le_refl _
  | tail _ goes ih =>
    rcases round_moves goes with ⟨left,-⟩ | ⟨right,-,overlapped,narrow⟩
    · exact Int.le_of_eq left.symm
    · have further := nextX_further overlapped narrow
      omega

theorem search_least (lower : p.height ≤ p.maxRect.height) {r : Search} (ended : Ends p.round p.start r) (visited : p.Visited t)
    (room : p.HasRoom t.x t.y) : p.overlapSum r.xOptimal r.yOptimal ≤ p.overlapSum t.x t.y := by
  obtain ⟨fuel,ended⟩ := ended
  have left := visited_right visited
  have first : p.HasRoom p.start.x p.start.y := by
    refine ⟨?_,Int.le_trans (Int.add_le_add_right left _) room.2⟩
    unfold QRect.height at lower
    unfold Placing.start Placing.ch QRect.top QRect.bottom
    dsimp only
    omega
  exact (search_minimal ended ⟨fun _ => ⟨rfl,rfl,first⟩,fun later => Bool.noConfusion later⟩).1 t visited room

/-- The search ends. A client that fits stays inside the area; one not higher than the area is put where the search
    has looked, with the least of the overlaps it has computed; and a higher one goes to the top. -/
theorem placeSmart_least (p : Placing) : ∃ fuel pos, p.placeSmart fuel = some pos ∧
    (p.Fits → p.Inside pos) ∧
    (p.height ≤ p.maxRect.height → (∃ s, p.Visited s ∧ (⟨s.x,s.y⟩ : QPoint) = pos) ∧
      ∀ s, p.Visited s → none ≤ p.overlap s.x s.y → p.overlapSum pos.x pos.y ≤ p.overlap s.x s.y) ∧
    (p.maxRect.height < p.height → pos.y = p.maxRect.top) := by
  obtain ⟨r,ended⟩ := search_ends p
  obtain ⟨fuel,result⟩ := ended
  have same (lower : p.height ≤ p.maxRect.height) : p.position r = ⟨r.xOptimal,r.yOptimal⟩ := by
    unfold Placing.position Placing.ch
    rw [if_neg (by omega)]
  refine ⟨fuel,p.position r,by rw [Placing.placeSmart,result]; rfl,fun fits => ?_,fun lower => ⟨?_,fun s visited computed => ?_⟩,
    fun higher => ?_⟩
  · rw [same fits.2]
    exact search_inside fits ⟨fuel,result⟩
  · obtain ⟨s,visited,x,y⟩ := search_visited ⟨fuel,result⟩
    exact ⟨s,visited,by rw [same lower,x,y]⟩
  · obtain ⟨sum,narrow,low⟩ := overlap_computed computed
    have room : p.HasRoom s.x s.y := ⟨low (by unfold Placing.ch; omega),narrow⟩
    rw [same lower,sum]
    exact search_least lower ⟨fuel,result⟩ visited room
  · unfold Placing.position Placing.ch
    exact if_pos (by omega)

/-- A client of 5 x 6 pixels for an area of 10 x 4 with a window along its first row. -/
def higher : Placing :=
  ⟨5,6,.ofSize 0 0 10 4,[⟨0,0,10,1,true,false,true,true,true,true,false,false,false,false⟩],by decide,by decide⟩

/-- The search finds the free position 0,1, and the client goes to the top over the window. -/
theorem placeSmart_higher :
    ¬ ∀ (p : Placing) (fuel : Nat) (pos : QPoint), p.placeSmart fuel = some pos →
      ∀ s, p.Visited s → none ≤ p.overlap s.x s.y → p.overlapSum pos.x pos.y ≤ p.overlap s.x s.y := by
  intro claim
  have first : higher.Visited ⟨5,0,0,0,4,false⟩ := .tail .refl rfl
  have second : higher.Visited ⟨9,0,0,0,4,false⟩ := .tail first rfl
  have visited : higher.Visited ⟨0,1,0,0,4,false⟩ := .tail second rfl
  have least := claim higher 4 ⟨0,0⟩ (by decide) _ visited (by decide)
  exact absurd least (by decide)

end

end KdeWorkspace.SmartPlacement
