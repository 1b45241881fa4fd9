import Mathlib.Data.Int.Order.Basic
import KdeWorkspace.Geometry
import KdeWorkspace.RunningMinimum

/-!
Snapping a dragged window to the borders of the screen and to other windows
(`Workspace::adjustClientPosition`).

Along each axis the code keeps the position to return and the distance of the
target it belongs to. A border leaves a signed difference instead of a distance,
which is negative for a window inside the screen, and then no target is nearer.
The position is the nearest one exactly when such a border has no nearer target
(`adjustClientPosition_nearest_iff`).
-/
namespace KdeWorkspace.Snapping
open KdeWorkspace.Geometry RunningMinimum

/-- Another client, and why the snapping passes over it. -/
structure Window where
  x : Int
  y : Int
  width : Int
  height : Int
  isDragged : Bool
  isMinimized : Bool
  isInactiveTab : Bool
  isOnDesktop : Bool
  isOnCurrentActivity : Bool
  isDesktop : Bool
  isSplash : Bool
deriving Repr, DecidableEq

def Window.isSkipped (l : Window) : Bool :=
  l.isDragged || l.isMinimized || l.isInactiveTab || !l.isOnDesktop || !l.isOnCurrentActivity || l.isDesktop || l.isSplash

/-- What the function reads: the position and size of the dragged window, the area, the effective zones, the options,
    and the padding of the decoration on the left, right, top and bottom. -/
structure Drag where
  cx : Int
  cy : Int
  cw : Int
  ch : Int
  maxRect : QRect
  snapX : Int
  snapY : Int
  windowSnap : Int
  centerSnap : Int
  hasBorderSnapZone : Bool
  sOWO : Bool
  unrestricted : Bool
  guideMaximizedHorizontal : Bool
  guideMaximizedVertical : Bool
  paddingLeft : Int
  paddingRight : Int
  paddingTop : Int
  paddingBottom : Int
deriving Repr, DecidableEq

namespace Drag

def xmin (d : Drag) : Int := d.maxRect.left
def xmax (d : Drag) : Int := d.maxRect.right+1
def ymin (d : Drag) : Int := d.maxRect.top
def ymax (d : Drag) : Int := d.maxRect.bottom+1
def rx (d : Drag) : Int := d.cx+d.cw
def ry (d : Drag) : Int := d.cy+d.ch

end Drag

/-- The position along one axis and the distance it is kept for: `nx` and `deltaX`, or `ny` and `deltaY`. -/
abbrev Axis := Best Int Int

structure Snap where
  x : Axis
  y : Axis
deriving Repr, DecidableEq

def distance (a b : Int) : Int := (a-b).natAbs

/-- `sOWO ? (overlapping) : true`. -/
def permits (sOWO : Bool) (overlapping : Prop) [Decidable overlapping] : Bool := if sOWO then decide overlapping else true

/-- The border snap along one axis: the borders `low` and `high` for the window
    from `c` to `c + size`. The difference it leaves is signed. -/
def borderAxis (sOWO : Bool) (zone low high c size paddingLow paddingHigh : Int) (a : Axis) : Axis :=
  let a : Axis := if permits sOWO (c < low) ∧ distance low c < zone then ⟨low-paddingLow,low-c⟩ else a
  if permits sOWO (c+size > high) ∧ distance (c+size) high < zone ∧ distance high (c+size) < a.cost then
    ⟨high-size+paddingHigh,c+size-high⟩
  else a

def borderSnap (d : Drag) : Snap :=
  let start : Snap := ⟨⟨d.cx,d.xmax⟩,⟨d.cy,d.ymax⟩⟩
  if d.snapX ≠ 0 ∨ d.snapY ≠ 0 then
    ⟨borderAxis d.sOWO d.snapX d.xmin d.xmax d.cx d.cw d.paddingLeft d.paddingRight start.x,
      borderAxis d.sOWO d.snapY d.ymin d.ymax d.cy d.ch d.paddingTop d.paddingBottom start.y⟩
  else start

/-- One test of the window snap: a target in the zone that is nearer than the kept one. -/
def snapTo (overlapping : Bool) (snap dist target : Int) (a : Axis) : Axis :=
  if overlapping ∧ dist < snap ∧ dist < a.cost then ⟨target,dist⟩ else a

/-- Along one axis, the window from `c` to `c + size` beside the one from `low` to `high`. -/
def edgeSnap (sOWO : Bool) (snap c size low high : Int) (a : Axis) : Axis :=
  let a := snapTo (permits sOWO (c < high)) snap (distance high c) high a
  snapTo (permits sOWO (c+size > low)) snap (distance (c+size) low) (low-size) a

/-- Along one axis, aligned with the window from `low` to `high`. -/
def cornerSnap (sOWO : Bool) (snap c size low high : Int) (a : Axis) : Axis :=
  let a := snapTo (permits sOWO (c+size > high)) snap (distance high (c+size)) (high-size) a
  snapTo (permits sOWO (c < low)) snap (distance c low) low a

/-- The two ranges have a point in common: one end of the first lies in the second, or the first covers it. -/
def meets (c r low high : Int) : Bool := decide ((c ≤ high ∧ c ≥ low) ∨ (r ≥ low ∧ r ≤ high) ∨ (c ≤ low ∧ r ≥ high))

def snapWindow (d : Drag) (s : Snap) (l : Window) : Snap :=
  if l.isSkipped then s
  else
    let lx := l.x
    let ly := l.y
    let lrx := lx+l.width
    let lry := ly+l.height
    let s := if !d.guideMaximizedHorizontal ∧ meets d.cy d.ry ly lry then
        {s with x := edgeSnap d.sOWO d.windowSnap d.cx d.cw lx lrx s.x}
      else s
    let s := if !d.guideMaximizedVertical ∧ meets d.cx d.rx lx lrx then
        {s with y := edgeSnap d.sOWO d.windowSnap d.cy d.ch ly lry s.y}
      else s
    let s := if !d.guideMaximizedVertical ∧ (s.x.choice = lrx ∨ s.x.choice+d.cw = lx) then
        {s with y := cornerSnap d.sOWO d.windowSnap d.cy d.ch ly lry s.y}
      else s
    if !d.guideMaximizedHorizontal ∧ (s.y.choice = lry ∨ s.y.choice+d.ch = ly) then
      {s with x := cornerSnap d.sOWO d.windowSnap d.cx d.cw lx lrx s.x}
    else s

def snapCenter (d : Drag) (s : Snap) : Snap :=
  let middleX := (d.xmin+d.xmax).tdiv 2
  let middleY := (d.ymin+d.ymax).tdiv 2
  let diffX := distance middleX (d.cx+d.cw.tdiv 2)
  let diffY := distance middleY (d.cy+d.ch.tdiv 2)
  let toX : Snap := {s with x := {s.x with choice := middleX-d.cw.tdiv 2}}
  let toY : Snap := {s with y := {s.y with choice := middleY-d.ch.tdiv 2}}
  if diffX < d.centerSnap ∧ diffY < d.centerSnap ∧ diffX < s.x.cost ∧ diffY < s.y.cost then
    {toX with y := toY.y}
  else if d.hasBorderSnapZone then
    if (s.x.choice = d.xmin ∨ s.x.choice = d.xmax-d.cw) ∧ diffY < d.centerSnap ∧ diffY < s.y.cost then toY
    else if ((if d.unrestricted then s.y.choice = d.ymin else s.y.choice ≤ d.ymin) ∨ s.y.choice = d.ymax-d.ch) ∧
        diffX < d.centerSnap ∧ diffX < s.x.cost then toX
    else s
  else s

/-- `adjustClientPosition` with the effective zones. The test in front of the
    source's block only skips it when every zone is zero. -/
def adjustClientPosition (d : Drag) (clients : List Window) : QPoint :=
  let s := borderSnap d
  let s := if d.windowSnap ≠ 0 then clients.foldl (snapWindow d) s else s
  let s := if d.centerSnap ≠ 0 then snapCenter d s else s
  ⟨s.x.choice,s.y.choice⟩

def LowBorder (sOWO : Bool) (zone low c : Int) : Prop := permits sOWO (c < low) ∧ distance low c < zone

def HighBorder (sOWO : Bool) (zone high c size : Int) : Prop :=
  permits sOWO (c+size > high) ∧ distance (c+size) high < zone

/-- The positions beside a window. -/
def EdgeTarget (sOWO : Bool) (snap c size low high target : Int) : Prop :=
  (target = high ∧ permits sOWO (c < high) ∧ distance high c < snap) ∨
  (target = low-size ∧ permits sOWO (c+size > low) ∧ distance (c+size) low < snap)

/-- The positions in line with a window. -/
def CornerTarget (sOWO : Bool) (snap c size low high target : Int) : Prop :=
  (target = high-size ∧ permits sOWO (c+size > high) ∧ distance high (c+size) < snap) ∨
  (target = low ∧ permits sOWO (c < low) ∧ distance c low < snap)

/-- Along one axis, the returned position is the dragged one or that of a border
    or a window, and no border and no window edge is strictly nearer. -/
structure Nearest (sOWO : Bool) (zone low high c size : Int) (edge corner : Int → Prop) (n : Int) : Prop where
  aligned : n = c ∨ (n = low ∧ LowBorder sOWO zone low c) ∨ (n = high-size ∧ HighBorder sOWO zone high c size) ∨
    edge n ∨ corner n
  notLow : LowBorder sOWO zone low c → distance n c ≤ distance low c
  notHigh : HighBorder sOWO zone high c size → distance n c ≤ distance (c+size) high
  notEdge : ∀ target, edge target → distance n c ≤ distance target c

/-- A border that is reached from inside the screen has no nearer target. -/
structure BorderNearest (sOWO : Bool) (zone low high c size : Int) (edge : Int → Prop) : Prop where
  fromLow : LowBorder sOWO zone low c → low < c →
    (HighBorder sOWO zone high c size → c-low ≤ distance (c+size) high) ∧ ∀ target, edge target → c-low ≤ distance target c
  fromHigh : HighBorder sOWO zone high c size → c+size < high →
    (LowBorder sOWO zone low c → distance high (c+size) < low-c) →
    (¬ LowBorder sOWO zone low c → distance high (c+size) < high) →
    ∀ target, edge target → high-(c+size) ≤ distance target c

section
variable {sOWO : Bool} {zone snap low high c size : Int} {edge corner edge' corner' : Int → Prop} {a a' a'' : Axis}

/-- The axis after a list of offers, all of them window positions and every edge among them. -/
def Offered (c : Int) (edge corner : Int → Prop) (a a' : Axis) : Prop :=
  ∃ targets : List Int, a' = targets.foldl (offer (distance · c)) a ∧ (∀ t ∈ targets, edge t ∨ corner t) ∧
    ∀ t, edge t → t ∈ targets

theorem Offered.none (never : ∀ t, ¬ edge t) : Offered c edge corner a a :=
  ⟨[],rfl,fun _ member => absurd member List.not_mem_nil,fun t is => absurd is (never t)⟩

theorem Offered.append (first : Offered c edge corner a a') (second : Offered c edge' corner' a' a'') :
    Offered c (fun t => edge t ∨ edge' t) (fun t => corner t ∨ corner' t) a a'' := by
  obtain ⟨ts,rfl,sound,complete⟩ := first
  obtain ⟨ts',rfl,sound',complete'⟩ := second
  refine ⟨ts ++ ts',(List.foldl_append ..).symm,fun t member => ?_,fun t is => ?_⟩
  · rcases List.mem_append.mp member with left | right
    · exact (sound t left).imp .inl .inl
    · exact (sound' t right).imp .inr .inr
  · exact List.mem_append.mpr (is.imp (complete t) (complete' t))

theorem Offered.of_iff (offered : Offered c edge corner a a') (edges : ∀ t, edge t ↔ edge' t)
    (corners : ∀ t, corner t → corner' t) : Offered c edge' corner' a a' := by
  obtain ⟨ts,same,sound,complete⟩ := offered
  exact ⟨ts,same,fun t member => (sound t member).imp (edges t).mp (corners t),fun t is => complete t ((edges t).mpr is)⟩

theorem snapTo_offered (overlapping : Bool) (dist target : Int) (same : dist = distance target c) :
    Offered c (fun t => t = target ∧ overlapping ∧ dist < snap) (fun _ => False) a (snapTo overlapping snap dist target a) := by
  subst same
  by_cases eligible : overlapping ∧ distance target c < snap
  · refine ⟨[target],?_,fun t member => .inl ⟨List.mem_singleton.mp member,eligible⟩,fun t is => List.mem_singleton.mpr is.1⟩
    simp only [snapTo,offer,List.foldl_cons,List.foldl_nil,eligible,true_and]
  · have kept : snapTo overlapping snap (distance target c) target a = a :=
      if_neg (fun near => eligible ⟨near.1,near.2.1⟩)
    rw [kept]
    exact .none (fun t is => eligible is.2)

theorem edgeSnap_offered :
    Offered c (EdgeTarget sOWO snap c size low high) (fun _ => False) a (edgeSnap sOWO snap c size low high a) :=
  (Offered.append (snapTo_offered _ _ _ rfl) (snapTo_offered _ _ _ (by unfold distance; omega))).of_iff
    (fun t => Iff.rfl) (fun t is => is.elim id id)

theorem cornerSnap_offered :
    Offered c (fun _ => False) (CornerTarget sOWO snap c size low high) a (cornerSnap sOWO snap c size low high a) := by
  obtain ⟨ts,same,sound,-⟩ := Offered.append (c := c) (a := a)
    (snapTo_offered (permits sOWO (c+size > high)) (distance high (c+size)) (high-size) (by unfold distance; omega))
    (snapTo_offered (permits sOWO (c < low)) (distance c low) low (by unfold distance; omega))
  exact ⟨ts,same,fun t member => .inr ((sound t member).elim id (fun is => is.elim id id |>.elim)),fun t is => is.elim⟩

theorem Offered.ite {test : Prop} [Decidable test] (offered : Offered c edge corner a a') :
    Offered c (fun t => test ∧ edge t) (fun t => test ∧ corner t) a (if test then a' else a) := by
  split
  · rename_i holds
    exact offered.of_iff (fun t => (and_iff_right holds).symm) (fun t is => ⟨holds,is⟩)
  · rename_i fails
    exact .none (fun t is => fails is.1)

theorem window_offered {skipped free beside touching : Prop} [Decidable (free ∧ touching)] [Decidable (free ∧ beside)]
    (kept : ¬ skipped) :
    Offered c (fun t => ¬ skipped ∧ (free ∧ touching) ∧ EdgeTarget sOWO snap c size low high t)
      (fun t => ¬ skipped ∧ free ∧ CornerTarget sOWO snap c size low high t) a
      (let edges := if free ∧ touching then edgeSnap sOWO snap c size low high a else a
        if free ∧ beside then cornerSnap sOWO snap c size low high edges else edges) := by
  refine (edgeSnap_offered.ite.append cornerSnap_offered.ite).of_iff (fun t => ?_) (fun t is => ?_)
  · simp only [and_false,or_false]
    exact (and_iff_right kept).symm
  · rcases is with ⟨-,never⟩ | ⟨⟨free,-⟩,corner⟩
    · exact never.elim
    · exact ⟨kept,free,corner⟩

end

section
variable (d : Drag)

/-- The horizontal positions beside a window and in line with it. -/
def EdgeX (l : Window) (target : Int) : Prop :=
  ¬ l.isSkipped ∧ (!d.guideMaximizedHorizontal ∧ meets d.cy d.ry l.y (l.y+l.height)) ∧
    EdgeTarget d.sOWO d.windowSnap d.cx d.cw l.x (l.x+l.width) target

def CornerX (l : Window) (target : Int) : Prop :=
  ¬ l.isSkipped ∧ !d.guideMaximizedHorizontal ∧ CornerTarget d.sOWO d.windowSnap d.cx d.cw l.x (l.x+l.width) target

/-- The vertical positions beside a window and in line with it. -/
def EdgeY (l : Window) (target : Int) : Prop :=
  ¬ l.isSkipped ∧ (!d.guideMaximizedVertical ∧ meets d.cx d.rx l.x (l.x+l.width)) ∧
    EdgeTarget d.sOWO d.windowSnap d.cy d.ch l.y (l.y+l.height) target

def CornerY (l : Window) (target : Int) : Prop :=
  ¬ l.isSkipped ∧ !d.guideMaximizedVertical ∧ CornerTarget d.sOWO d.windowSnap d.cy d.ch l.y (l.y+l.height) target

private theorem snapWindow_x {s : Snap} {l : Window} (kept : ¬ l.isSkipped) : ∃ (beside : Prop) (_ : Decidable beside),
    (snapWindow d s l).x =
      let edges := if !d.guideMaximizedHorizontal ∧ meets d.cy d.ry l.y (l.y+l.height) then
          edgeSnap d.sOWO d.windowSnap d.cx d.cw l.x (l.x+l.width) s.x else s.x
      if !d.guideMaximizedHorizontal ∧ beside then cornerSnap d.sOWO d.windowSnap d.cx d.cw l.x (l.x+l.width) edges else edges := by
  simp only [snapWindow,if_neg kept,apply_ite Snap.x,ite_self]
  exact ⟨_,_,rfl⟩

private theorem snapWindow_y {s : Snap} {l : Window} (kept : ¬ l.isSkipped) : ∃ (beside : Prop) (_ : Decidable beside),
    (snapWindow d s l).y =
      let edges := if !d.guideMaximizedVertical ∧ meets d.cx d.rx l.x (l.x+l.width) then
          edgeSnap d.sOWO d.windowSnap d.cy d.ch l.y (l.y+l.height) s.y else s.y
      if !d.guideMaximizedVertical ∧ beside then cornerSnap d.sOWO d.windowSnap d.cy d.ch l.y (l.y+l.height) edges else edges := by
  simp only [snapWindow,if_neg kept,apply_ite Snap.y,ite_self]
  exact ⟨_,_,rfl⟩

theorem snapWindow_offeredX (s : Snap) (l : Window) :
    Offered d.cx (EdgeX d l) (CornerX d l) s.x (snapWindow d s l).x := by
  by_cases skipped : l.isSkipped
  · rw [snapWindow,if_pos skipped]
    exact .none (fun t is => is.1 skipped)
  · obtain ⟨beside,_,same⟩ := snapWindow_x d (s := s) skipped
    rw [same]
    exact window_offered skipped

theorem snapWindow_offeredY (s : Snap) (l : Window) :
    Offered d.cy (EdgeY d l) (CornerY d l) s.y (snapWindow d s l).y := by
  by_cases skipped : l.isSkipped
  · rw [snapWindow,if_pos skipped]
    exact .none (fun t is => is.1 skipped)
  · obtain ⟨beside,_,same⟩ := snapWindow_y d (s := s) skipped
    rw [same]
    exact window_offered skipped

theorem snapWindows_offered {c : Int} {axis : Snap → Axis} {edge corner : Window → Int → Prop}
    (step : ∀ s l, Offered c (edge l) (corner l) (axis s) (axis (snapWindow d s l))) (clients : List Window) (s : Snap) :
    Offered c (fun t => ∃ l ∈ clients, edge l t) (fun t => ∃ l ∈ clients, corner l t)
      (axis s) (axis (clients.foldl (snapWindow d) s)) := by
  induction clients generalizing s with
  | nil => exact .none (fun t ⟨l,member,_⟩ => List.not_mem_nil member)
  | cons l rest ih =>
    refine ((step s l).append (ih (snapWindow d s l))).of_iff (fun t => ?_) (fun t is => ?_)
    · simp only [List.mem_cons,exists_eq_or_imp]
    · simpa only [List.mem_cons,exists_eq_or_imp] using is

end

section
variable {sOWO : Bool} {zone low high c size : Int} {edge corner : Int → Prop} {a : Axis}

theorem borderAxis_cases (sOWO : Bool) (zone low high c size : Int) :
    (borderAxis sOWO zone low high c size 0 0 ⟨c,high⟩ = ⟨c,high⟩ ∧ ¬ LowBorder sOWO zone low c ∧
      (HighBorder sOWO zone high c size → high ≤ distance high (c+size))) ∨
    (borderAxis sOWO zone low high c size 0 0 ⟨c,high⟩ = ⟨low,low-c⟩ ∧ LowBorder sOWO zone low c ∧
      (HighBorder sOWO zone high c size → low-c ≤ distance high (c+size))) ∨
    (borderAxis sOWO zone low high c size 0 0 ⟨c,high⟩ = ⟨high-size,c+size-high⟩ ∧ HighBorder sOWO zone high c size ∧
      (LowBorder sOWO zone low c → distance high (c+size) < low-c) ∧
      (¬ LowBorder sOWO zone low c → distance high (c+size) < high)) := by
  simp only [borderAxis,Int.sub_zero,Int.add_zero]
  by_cases atLow : LowBorder sOWO zone low c
  · rw [if_pos (show permits sOWO (c < low) ∧ distance low c < zone from atLow)]
    by_cases atHigh : permits sOWO (c+size > high) ∧ distance (c+size) high < zone ∧ distance high (c+size) < low-c
    · rw [if_pos atHigh]
      exact .inr (.inr ⟨rfl,⟨atHigh.1,atHigh.2.1⟩,fun _ => atHigh.2.2,fun never => absurd atLow never⟩)
    · rw [if_neg atHigh]
      exact .inr (.inl ⟨rfl,atLow,fun is => Int.not_lt.mp (fun near => atHigh ⟨is.1,is.2,near⟩)⟩)
  · rw [if_neg (show ¬ (permits sOWO (c < low) ∧ distance low c < zone) from atLow)]
    by_cases atHigh : permits sOWO (c+size > high) ∧ distance (c+size) high < zone ∧ distance high (c+size) < high
    · rw [if_pos atHigh]
      exact .inr (.inr ⟨rfl,⟨atHigh.1,atHigh.2.1⟩,fun is => absurd is atLow,fun _ => atHigh.2.2⟩)
    · rw [if_neg atHigh]
      exact .inl ⟨rfl,atLow,fun is => Int.not_lt.mp (fun near => atHigh ⟨is.1,is.2,near⟩)⟩

theorem Offered.near {start : Axis} (offered : Offered c edge corner start a) (kept : distance start.choice c ≤ start.cost) :
    distance a.choice c ≤ start.cost ∧ (a.choice = start.choice ∨ edge a.choice ∨ corner a.choice) ∧
      ∀ t, edge t → distance a.choice c ≤ distance t c := by
  obtain ⟨ts,rfl,sound,complete⟩ := offered
  have lower := offers_le_kept (distance · c) ts start
  have least := offers_least (distance · c) ts start
  have true_cost : distance (ts.foldl (offer (distance · c)) start).choice c ≤ (ts.foldl (offer (distance · c)) start).cost := by
    rcases offers_chosen (distance · c) ts start with same | ⟨t,-,same⟩
    · rw [same]; exact kept
    · rw [same]
  refine ⟨Int.le_trans true_cost lower,?_,fun t is => Int.le_trans true_cost (least t (complete t is))⟩
  rcases offers_chosen (distance · c) ts start with same | ⟨t,member,same⟩
  · exact .inl (by rw [same])
  · rw [same]
    exact .inr (sound t member)

theorem Offered.stuck {start : Axis} (offered : Offered c edge corner start a) (negative : start.cost < 0) : a = start := by
  obtain ⟨ts,rfl,-,-⟩ := offered
  exact offers_kept _ ts start (fun t _ => by have : 0 ≤ distance t c := Int.natCast_nonneg _; omega)

theorem distance_self_le (m n : Int) : distance c c ≤ distance m n := by unfold distance; omega

theorem distance_comm (m n : Int) : distance m n = distance n m := by unfold distance; omega

theorem distance_nonneg (m n : Int) : 0 ≤ distance m n := Int.natCast_nonneg _

theorem nearest_iff (offered : Offered c edge corner (borderAxis sOWO zone low high c size 0 0 ⟨c,high⟩) a) :
    Nearest sOWO zone low high c size edge corner a.choice ↔ BorderNearest sOWO zone low high c size edge := by
  have toHigh : distance (high-size) c = distance (c+size) high := by unfold distance; omega
  have highComm := distance_comm high (c+size)
  rcases borderAxis_cases sOWO zone low high c size with
    ⟨start,atLow,far⟩ | ⟨start,atLow,far⟩ | ⟨start,atHigh,nearLow,nearStart⟩
  · -- No border: the difference at the start is the far side of the screen.
    rw [start] at offered
    have right : BorderNearest sOWO zone low high c size edge :=
      ⟨fun is => absurd is atLow,fun is _ _ nearStart => absurd (nearStart atLow) (Int.not_lt.mpr (far is))⟩
    refine iff_of_true ?_ right
    by_cases negative : high < 0
    · rw [offered.stuck negative]
      exact ⟨.inl rfl,fun _ => distance_self_le _ _,fun _ => distance_self_le _ _, fun t _ => distance_self_le _ _⟩
    · obtain ⟨lower,aligned,least⟩ := offered.near (by show distance c c ≤ high; unfold distance; omega)
      refine ⟨aligned.imp id (fun is => .inr (.inr is)),fun is => absurd is atLow,fun is => ?_,least⟩
      rw [← highComm]
      exact Int.le_trans lower (far is)
  · rw [start] at offered
    by_cases inside : low < c
    · -- The difference is negative and the window stays at the border.
      rw [offered.stuck (by show low-c < 0; omega)]
      have same : distance low c = c-low := by unfold distance; omega
      constructor
      · intro nearest
        exact ⟨fun _ _ => ⟨fun is => same ▸ nearest.notHigh is,fun t is => same ▸ nearest.notEdge t is⟩,
          fun is _ near _ => absurd (near atLow) (Int.not_lt.mpr (far is))⟩
      · intro border
        obtain ⟨notHigh,notEdge⟩ := border.fromLow atLow inside
        exact ⟨.inr (.inl ⟨rfl,atLow⟩),fun _ => Int.le_refl _,fun is => Int.le_trans (Int.le_of_eq same) (notHigh is),
          fun t is => Int.le_trans (Int.le_of_eq same) (notEdge t is)⟩
    · have same : distance low c = low-c := by unfold distance; omega
      obtain ⟨lower,aligned,least⟩ := offered.near (Int.le_of_eq same)
      refine iff_of_true ⟨?_,fun _ => ?_,fun is => ?_,least⟩
        ⟨fun _ before => absurd before inside,fun is _ near _ => absurd (near atLow) (Int.not_lt.mpr (far is))⟩
      · rcases aligned with at_border | at_window
        · exact .inr (.inl ⟨at_border,atLow⟩)
        · exact .inr (.inr (.inr at_window))
      · rw [same]; exact lower
      · rw [← highComm]; exact Int.le_trans lower (far is)
  · rw [start] at offered
    have border_far : LowBorder sOWO zone low c → distance (high-size) c ≤ distance low c := by
      intro is
      have less := nearLow is
      unfold distance at *
      omega
    have lowInside : BorderNearest sOWO zone low high c size edge ↔
        (c+size < high → ∀ t, edge t → high-(c+size) ≤ distance t c) :=
      ⟨fun border before => border.fromHigh atHigh before nearLow nearStart,
        fun least => ⟨fun is before => absurd (nearLow is) (by have := distance_nonneg high (c+size); omega),
          fun _ before _ _ => least before⟩⟩
    rw [lowInside]
    by_cases inside : c+size < high
    · rw [offered.stuck (by show c+size-high < 0; omega)]
      have same : distance (high-size) c = high-(c+size) := by unfold distance; omega
      constructor
      · intro nearest _ t is
        exact same ▸ nearest.notEdge t is
      · intro least
        exact ⟨.inr (.inr (.inl ⟨rfl,atHigh⟩)),border_far,fun _ => Int.le_of_eq toHigh,
          fun t is => Int.le_trans (Int.le_of_eq same) (least inside t is)⟩
    · have same : distance (high-size) c = c+size-high := by unfold distance; omega
      obtain ⟨lower,aligned,least⟩ := offered.near (Int.le_of_eq same)
      refine iff_of_true ⟨?_,fun is => ?_,fun _ => ?_,least⟩ (fun before => absurd before inside)
      · rcases aligned with at_border | at_window
        · exact .inr (.inr (.inl ⟨at_border,atHigh⟩))
        · exact .inr (.inr (.inr at_window))
      · exact Int.le_trans lower (same ▸ border_far is)
      · rw [← toHigh,same]; exact lower

end

/-- The decoration adds no padding on any side. -/
def Drag.Undecorated (d : Drag) : Prop := d.paddingLeft = 0 ∧ d.paddingRight = 0 ∧ d.paddingTop = 0 ∧ d.paddingBottom = 0

/-- The horizontal and the vertical position are the nearest ones. -/
def NearestX (d : Drag) (clients : List Window) (n : Int) : Prop :=
  Nearest d.sOWO d.snapX d.xmin d.xmax d.cx d.cw (fun t => ∃ l ∈ clients, EdgeX d l t) (fun t => ∃ l ∈ clients, CornerX d l t) n

def NearestY (d : Drag) (clients : List Window) (n : Int) : Prop :=
  Nearest d.sOWO d.snapY d.ymin d.ymax d.cy d.ch (fun t => ∃ l ∈ clients, EdgeY d l t) (fun t => ∃ l ∈ clients, CornerY d l t) n

section
variable {d : Drag}

theorem borderAxis_off (sOWO : Bool) (low high c size paddingLow paddingHigh : Int) (a : Axis) :
    borderAxis sOWO 0 low high c size paddingLow paddingHigh a = a := by
  have far (m n : Int) : ¬ distance m n < 0 := Int.not_lt.mpr (distance_nonneg m n)
  unfold borderAxis
  simp only [far,false_and,and_false,if_false]

theorem borderSnap_axes (bare : d.Undecorated) : borderSnap d =
    ⟨borderAxis d.sOWO d.snapX d.xmin d.xmax d.cx d.cw 0 0 ⟨d.cx,d.xmax⟩,
      borderAxis d.sOWO d.snapY d.ymin d.ymax d.cy d.ch 0 0 ⟨d.cy,d.ymax⟩⟩ := by
  obtain ⟨left,right,top,bottom⟩ := bare
  unfold borderSnap
  rw [left,right,top,bottom]
  split
  · rfl
  · rename_i zones
    have noX : d.snapX = 0 := by omega
    have noY : d.snapY = 0 := by omega
    rw [noX,noY,borderAxis_off,borderAxis_off]

theorem windowSnap_offered {c : Int} {axis : Snap → Axis} {edge corner : Window → Int → Prop}
    (step : ∀ s l, Offered c (edge l) (corner l) (axis s) (axis (snapWindow d s l)))
    (off : d.windowSnap = 0 → ∀ l t, ¬ edge l t) (clients : List Window) (s : Snap) :
    Offered c (fun t => ∃ l ∈ clients, edge l t) (fun t => ∃ l ∈ clients, corner l t)
      (axis s) (axis (if d.windowSnap ≠ 0 then clients.foldl (snapWindow d) s else s)) := by
  split
  · exact snapWindows_offered d step clients s
  · rename_i zone
    exact .none (fun t ⟨l,_,is⟩ => off (not_not.mp zone) l t is)

theorem EdgeTarget.zone {sOWO : Bool} {snap c size low high target : Int}
    (is : EdgeTarget sOWO snap c size low high target) : snap ≠ 0 := by
  rintro rfl
  rcases is with ⟨-,-,near⟩ | ⟨-,-,near⟩
  · exact absurd near (Int.not_lt.mpr (distance_nonneg _ _))
  · exact absurd near (Int.not_lt.mpr (distance_nonneg _ _))

/-- Both positions are the nearest ones exactly when no border that is reached from
    inside the screen has a nearer target. -/
theorem adjustClientPosition_nearest_iff (clients : List Window) (uncentred : d.centerSnap = 0) (bare : d.Undecorated) :
    (NearestX d clients (adjustClientPosition d clients).x ∧ NearestY d clients (adjustClientPosition d clients).y) ↔
      (BorderNearest d.sOWO d.snapX d.xmin d.xmax d.cx d.cw (fun t => ∃ l ∈ clients, EdgeX d l t) ∧
        BorderNearest d.sOWO d.snapY d.ymin d.ymax d.cy d.ch (fun t => ∃ l ∈ clients, EdgeY d l t)) := by
  simp only [adjustClientPosition,borderSnap_axes bare,uncentred,ne_eq,not_true_eq_false,if_false]
  have acrossX := windowSnap_offered (snapWindow_offeredX d) (fun zone l t is => is.2.2.zone zone) clients
    ⟨borderAxis d.sOWO d.snapX d.xmin d.xmax d.cx d.cw 0 0 ⟨d.cx,d.xmax⟩,
      borderAxis d.sOWO d.snapY d.ymin d.ymax d.cy d.ch 0 0 ⟨d.cy,d.ymax⟩⟩
  have acrossY := windowSnap_offered (snapWindow_offeredY d) (fun zone l t is => is.2.2.zone zone) clients
    ⟨borderAxis d.sOWO d.snapX d.xmin d.xmax d.cx d.cw 0 0 ⟨d.cx,d.xmax⟩,
      borderAxis d.sOWO d.snapY d.ymin d.ymax d.cy d.ch 0 0 ⟨d.cy,d.ymax⟩⟩
  exact and_congr (nearest_iff acrossX) (nearest_iff acrossY)

/-- A window dragged to 5 pixels inside the left border, 2 pixels before another window. -/
def besideBorder : Drag := ⟨5,400,100,100,.ofSize 0 0 1000 1000,10,10,10,0,true,false,false,false,false,0,0,0,0⟩

def neighbour : Window := ⟨107,400,100,100,false,false,false,true,true,false,false⟩

theorem adjustClientPosition_nearest_iff_beside :
    (NearestX besideBorder [neighbour] (adjustClientPosition besideBorder [neighbour]).x ∧
        NearestY besideBorder [neighbour] (adjustClientPosition besideBorder [neighbour]).y) ↔
      (BorderNearest besideBorder.sOWO besideBorder.snapX besideBorder.xmin besideBorder.xmax besideBorder.cx besideBorder.cw
          (fun t => ∃ l ∈ [neighbour], EdgeX besideBorder l t) ∧
        BorderNearest besideBorder.sOWO besideBorder.snapY besideBorder.ymin besideBorder.ymax besideBorder.cy besideBorder.ch
          (fun t => ∃ l ∈ [neighbour], EdgeY besideBorder l t)) :=
  adjustClientPosition_nearest_iff [neighbour] rfl ⟨rfl,rfl,rfl,rfl⟩

/-- It moves to the border, 5 pixels away. -/
theorem adjustClientPosition_passes_neighbour :
    ¬ ∀ (d : Drag) (clients : List Window), d.centerSnap = 0 → d.Undecorated →
      NearestX d clients (adjustClientPosition d clients).x ∧ NearestY d clients (adjustClientPosition d clients).y := by
  intro claim
  have nearest := (claim besideBorder [neighbour] rfl ⟨rfl,rfl,rfl,rfl⟩).1.notEdge 7
    ⟨neighbour,List.mem_singleton.mpr rfl,by decide,by decide,.inr (by decide)⟩
  exact absurd nearest (by decide)

end

end KdeWorkspace.Snapping
