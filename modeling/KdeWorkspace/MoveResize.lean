import KdeWorkspace.Geometry
import KdeWorkspace.Loops

/-!
The two loops of `handleMoveResize` that push a window back until enough of its
titlebar is visible.

A window that is resized is pushed first up or down and then at the side that
is dragged; one that is moved is pushed one step at a time along one axis.
Neither loop goes past the previous position, so both end, whatever the
visible part of the titlebar is (`resizeLoop_ends`, `moveLoop_ends`).
-/
namespace KdeWorkspace.MoveResize
open KdeWorkspace.Geometry
open Loops

/-- What is dragged: the window at `PositionCenter`, else its sides or corners. -/
inductive Position where
  | PositionCenter
  | PositionLeft
  | PositionRight
  | PositionTop
  | PositionBottom
  | PositionTopLeft
  | PositionTopRight
  | PositionBottomLeft
  | PositionBottomRight
deriving Repr, DecidableEq
open Position

namespace Position

/-- The left side is dragged. -/
def isLeft : Position → Bool
  | PositionLeft | PositionTopLeft | PositionBottomLeft => true
  | _ => false

/-- The right side is dragged. -/
def isRight : Position → Bool
  | PositionRight | PositionTopRight | PositionBottomRight => true
  | _ => false

end Position

/-- One round of the loop. The test tells whether enough of the titlebar is visible. -/
def resizeRound (visible : QRect → Bool) (mode : Position) (previous r : QRect) : Round QRect QRect :=
  if visible r then .done r
  else if previous.y ≠ r.y then
    if previous.y > r.y then .next (r.setTop (r.y+1)) else .next (r.setTop (r.y-1))
  else
    match mode with
    | PositionBottomLeft | PositionTopLeft | PositionLeft =>
      if previous.x ≥ r.x then .done r else .next (r.setLeft (r.x-1))
    | PositionBottomRight | PositionTopRight | PositionRight =>
      if previous.right ≤ r.right then .done r else .next (r.setRight (r.x+r.width))
    | _ => .done r

/-- The sides that the loop pushed are back where they were, and the others where they were dragged to. -/
structure PushedBack (mode : Position) (previous start r : QRect) : Prop where
  top : r.y = previous.y
  left : r.x = if mode.isLeft then min start.x previous.x else start.x
  right : r.right = if mode.isRight then max start.right previous.right else start.right
  bottom : r.bottom = start.bottom

/-- What every round keeps: a pushed side is between where it is and where it was. -/
structure Between (mode : Position) (previous start r : QRect) : Prop where
  left : if mode.isLeft ∧ previous.x < start.x then previous.x ≤ r.x else r.x = start.x
  right : if mode.isRight ∧ start.right < previous.right then r.right ≤ previous.right else r.right = start.right
  bottom : r.bottom = start.bottom

/-- How far the sides are from where they were. -/
def resizeDistance (mode : Position) (previous r : QRect) : Nat :=
  (previous.y-r.y).natAbs+(if mode.isLeft then (r.x-previous.x).toNat else 0)+
    (if mode.isRight then (previous.right-r.right).toNat else 0)

section
variable {visible : QRect → Bool} {mode : Position} {previous start r t : QRect}

theorem resizeRound_cases (visible : QRect → Bool) (mode : Position) (previous r : QRect) :
    (resizeRound visible mode previous r = .done r ∧
      (visible r = true ∨
        (r.y = previous.y ∧ (mode.isLeft = true → r.x ≤ previous.x) ∧ (mode.isRight = true → previous.right ≤ r.right)))) ∨
    (r.y < previous.y ∧ resizeRound visible mode previous r = .next (r.setTop (r.y+1))) ∨
    (previous.y < r.y ∧ resizeRound visible mode previous r = .next (r.setTop (r.y-1))) ∨
    (mode.isLeft = true ∧ previous.x < r.x ∧ resizeRound visible mode previous r = .next (r.setLeft (r.x-1))) ∨
    (mode.isRight = true ∧ r.right < previous.right ∧
      resizeRound visible mode previous r = .next (r.setRight (r.right+1))) := by
  have next_column : r.x+r.width = r.right+1 := by
    simp only [QRect.x,QRect.width,QRect.right]
    omega
  unfold resizeRound
  by_cases enough : visible r = true
  · exact .inl ⟨if_pos enough,.inl enough⟩
  rw [if_neg enough]
  by_cases apart : previous.y ≠ r.y
  · rw [if_pos apart]
    by_cases above : previous.y > r.y
    · exact .inr (.inl ⟨above,if_pos above⟩)
    · exact .inr (.inr (.inl ⟨by omega,if_neg above⟩))
  rw [if_neg apart,next_column]
  have level : r.y = previous.y := by omega
  cases mode with
  | PositionLeft | PositionTopLeft | PositionBottomLeft =>
    by_cases back : previous.x ≥ r.x
    · exact .inl ⟨if_pos back,.inr ⟨level,fun _ => back,Bool.noConfusion⟩⟩
    · exact .inr (.inr (.inr (.inl ⟨rfl,by omega,if_neg back⟩)))
  | PositionRight | PositionTopRight | PositionBottomRight =>
    by_cases back : previous.right ≤ r.right
    · exact .inl ⟨if_pos back,.inr ⟨level,Bool.noConfusion,fun _ => back⟩⟩
    · exact .inr (.inr (.inr (.inr ⟨rfl,by omega,if_neg back⟩)))
  | PositionCenter | PositionTop | PositionBottom =>
    exact .inl ⟨rfl,.inr ⟨level,Bool.noConfusion,Bool.noConfusion⟩⟩

theorem resizeRound_goes (between : Between mode previous start r)
    (goes : resizeRound visible mode previous r = .next t) :
    Between mode previous start t ∧ resizeDistance mode previous t < resizeDistance mode previous r := by
  obtain ⟨left,right,bottom⟩ := between
  rcases resizeRound_cases visible mode previous r with
    ⟨round,_⟩ | ⟨above,round⟩ | ⟨below,round⟩ | ⟨dragged,far,round⟩ | ⟨dragged,far,round⟩
  · rw [round] at goes
    cases goes
  · obtain rfl := Round.next.inj (round.symm.trans goes)
    refine ⟨⟨left,right,bottom⟩,?_⟩
    simp only [resizeDistance,QRect.setTop,QRect.y,QRect.x,QRect.right] at above ⊢
    omega
  · obtain rfl := Round.next.inj (round.symm.trans goes)
    refine ⟨⟨left,right,bottom⟩,?_⟩
    simp only [resizeDistance,QRect.setTop,QRect.y,QRect.x,QRect.right] at below ⊢
    omega
  · obtain rfl := Round.next.inj (round.symm.trans goes)
    simp only [QRect.x] at far left
    refine ⟨⟨?_,right,bottom⟩,?_⟩
    · simp only [QRect.setLeft,QRect.x,dragged,true_and] at left ⊢
      by_cases outside : previous.x1 < start.x1
      · rw [if_pos outside]; omega
      · rw [if_neg outside] at left; omega
    · simp only [resizeDistance,QRect.setLeft,QRect.y,QRect.x,QRect.right,dragged,if_true]
      omega
  · obtain rfl := Round.next.inj (round.symm.trans goes)
    simp only [QRect.right] at far right
    refine ⟨⟨left,?_,bottom⟩,?_⟩
    · simp only [QRect.setRight,QRect.right,dragged,true_and] at right ⊢
      by_cases outside : start.x2 < previous.x2
      · rw [if_pos outside]; omega
      · rw [if_neg outside] at right; omega
    · simp only [resizeDistance,QRect.setRight,QRect.y,QRect.x,QRect.right,dragged,if_true]
      omega

theorem resizeRound_leaves (between : Between mode previous start r)
    (leaves : resizeRound visible mode previous r = .done t) : visible t = true ∨ PushedBack mode previous start t := by
  obtain ⟨left,right,bottom⟩ := between
  rcases resizeRound_cases visible mode previous r with ⟨round,back⟩ | ⟨_,round⟩ | ⟨_,round⟩ | ⟨_,_,round⟩ | ⟨_,_,round⟩
  · obtain rfl := Round.done.inj (round.symm.trans leaves)
    rcases back with enough | ⟨level,backLeft,backRight⟩
    · exact .inl enough
    · refine .inr ⟨level,?_,?_,bottom⟩
      · cases dragged : mode.isLeft <;> simp only [dragged] at left backLeft ⊢ <;> grind
      · cases dragged : mode.isRight <;> simp only [dragged] at right backRight ⊢ <;> grind
  all_goals
    rw [round] at leaves
    cases leaves

theorem resizeLoop_ends (visible : QRect → Bool) (mode : Position) (previous start : QRect) :
    ∃ r, Ends (resizeRound visible mode previous) start r ∧ (visible r = true ∨ PushedBack mode previous start r) := by
  have first : Between mode previous start start := by
    refine ⟨?_,?_,rfl⟩ <;> split <;> omega
  exact ends_of_measure Nat.lt_wfRel.wf (resizeDistance mode previous) (Between mode previous start)
    (fun r => visible r = true ∨ PushedBack mode previous start r) (fun _ _ => resizeRound_goes) (fun _ _ => resizeRound_leaves) first

end

def sign (v : Int) : Int := if v > 0 then 1 else if v < 0 then -1 else 0

def translate (r : QRect) (dx dy : Int) : QRect := ⟨r.x1+dx,r.y1+dy,r.x2+dx,r.y2+dy⟩

/-- What the loop asks about the screens: the visible pixels of the titlebar, how many are
    enough, the number of screens, and the rectangles of the strut areas. -/
structure Titlebar where
  visiblePixels : QRect → Nat
  titlebarArea : Int
  screenCount : Nat
  struts : List QRect

namespace Titlebar
variable (b : Titlebar)

/-- A panel at the top that the window reaches into. -/
def isTopPanelOver (strut r : QRect) : Bool :=
  decide (strut.top = 0 ∧ strut.width > strut.height ∧ strut.intersects r ∧ r.top < strut.bottom)

/-- The row below the first such panel; `-1` without one. -/
def newTitleTop (r : QRect) : Int :=
  if b.screenCount > 1 then
    match b.struts.find? (isTopPanelOver · r) with
    | some strut => strut.bottom+1
    | none => -1
  else -1

/-- The step towards the previous position: along one axis, favouring the horizontal
    one while some pixels are visible. -/
def stepBack (previous r : QRect) : Int × Int :=
  let dx := sign (previous.x-r.x)
  let dy := sign (previous.y-r.y)
  if b.visiblePixels r ≠ 0 ∧ dx ≠ 0 then (dx,0) else if dy ≠ 0 then (0,dy) else (dx,dy)

def moveRound (previous r : QRect) : Round QRect QRect :=
  if (b.visiblePixels r : Int) ≥ b.titlebarArea then .done r
  else if b.newTitleTop r > -1 then .done (r.moveTop (b.newTitleTop r))
  else
    let moved := translate r (b.stepBack previous r).1 (b.stepBack previous r).2
    -- Prevents a lockup.
    if moved = previous then .done moved else .next moved

/-- How the loop may leave: with enough of the titlebar visible, at the previous position,
    or with the top directly below a panel at the top. -/
def Settled (previous r : QRect) : Prop :=
  (b.visiblePixels r : Int) ≥ b.titlebarArea ∨ r = previous ∨
    (b.screenCount > 1 ∧ ∃ strut ∈ b.struts, strut.top = 0 ∧ strut.width > strut.height ∧ r.top = strut.bottom+1)

/-- How far the window is from where it was. -/
def moveDistance (previous r : QRect) : Nat := (previous.x-r.x).natAbs+(previous.y-r.y).natAbs

variable {b} {previous r t : QRect}

theorem sign_cases (v : Int) : (0 < v ∧ sign v = 1) ∨ (v = 0 ∧ sign v = 0) ∨ (v < 0 ∧ sign v = -1) := by
  unfold sign
  grind

theorem stepBack_nearer (size : r.size = previous.size) :
    moveDistance previous (translate r (b.stepBack previous r).1 (b.stepBack previous r).2) < moveDistance previous r ∨
      translate r (b.stepBack previous r).1 (b.stepBack previous r).2 = previous := by
  have width := congrArg QSize.width size
  have height := congrArg QSize.height size
  simp only [QRect.size,QRect.width,QRect.height] at width height
  have horizontal := sign_cases (previous.x-r.x)
  have vertical := sign_cases (previous.y-r.y)
  unfold stepBack
  generalize sign (previous.x-r.x) = dx at *
  generalize sign (previous.y-r.y) = dy at *
  simp only [moveDistance,translate,QRect.x,QRect.y] at *
  obtain ⟨x1,y1,x2,y2⟩ := previous
  simp only [QRect.mk.injEq] at *
  by_cases favoured : b.visiblePixels r ≠ 0 ∧ dx ≠ 0
  · simp only [favoured,and_self,if_true,ne_eq,not_false_eq_true]
    omega
  · rw [if_neg favoured]
    by_cases upright : dy ≠ 0
    · rw [if_pos upright]
      omega
    · rw [if_neg upright]
      omega

theorem moveRound_goes (size : r.size = previous.size) (goes : b.moveRound previous r = .next t) :
    t.size = previous.size ∧ moveDistance previous t < moveDistance previous r := by
  unfold moveRound at goes
  by_cases enough : (b.visiblePixels r : Int) ≥ b.titlebarArea
  · rw [if_pos enough] at goes; cases goes
  rw [if_neg enough] at goes
  by_cases panel : b.newTitleTop r > -1
  · rw [if_pos panel] at goes; cases goes
  rw [if_neg panel] at goes
  by_cases back : translate r (b.stepBack previous r).1 (b.stepBack previous r).2 = previous
  · simp only [back,if_true] at goes; cases goes
  · simp only [back,if_false] at goes
    obtain rfl := Round.next.inj goes
    refine ⟨?_,(stepBack_nearer size).resolve_right back⟩
    rw [← size]
    simp only [translate,QRect.size,QRect.width,QRect.height,QSize.mk.injEq]
    omega

theorem newTitleTop_panel (panel : b.newTitleTop r > -1) :
    b.screenCount > 1 ∧ ∃ strut ∈ b.struts, strut.top = 0 ∧ strut.width > strut.height ∧ b.newTitleTop r = strut.bottom+1 := by
  unfold newTitleTop at panel ⊢
  by_cases several : b.screenCount > 1
  · rw [if_pos several] at panel ⊢
    cases found : b.struts.find? (isTopPanelOver · r) with
    | none =>
      rw [found] at panel
      exact absurd panel (by decide)
    | some strut =>
      have reached : isTopPanelOver strut r = true := List.find?_some (p := (isTopPanelOver · r)) found
      obtain ⟨top,wide,_,_⟩ := of_decide_eq_true reached
      exact ⟨several,strut,List.mem_of_find?_eq_some found,top,wide,rfl⟩
  · rw [if_neg several] at panel
    exact absurd panel (by decide)

theorem moveRound_leaves (leaves : b.moveRound previous r = .done t) : b.Settled previous t := by
  unfold moveRound at leaves
  by_cases enough : (b.visiblePixels r : Int) ≥ b.titlebarArea
  · rw [if_pos enough] at leaves
    obtain rfl := Round.done.inj leaves
    exact .inl enough
  rw [if_neg enough] at leaves
  by_cases panel : b.newTitleTop r > -1
  · rw [if_pos panel] at leaves
    obtain rfl := Round.done.inj leaves
    obtain ⟨several,strut,member,top,wide,below⟩ := newTitleTop_panel panel
    exact .inr (.inr ⟨several,strut,member,top,wide,below⟩)
  rw [if_neg panel] at leaves
  by_cases back : translate r (b.stepBack previous r).1 (b.stepBack previous r).2 = previous
  · simp only [back,if_true] at leaves
    obtain rfl := Round.done.inj leaves
    exact .inr (.inl rfl)
  · simp only [back,if_false] at leaves
    cases leaves

theorem moveLoop_ends (b : Titlebar) (previous : QRect) (topleft : QPoint) :
    ∃ r, Ends (b.moveRound previous) (previous.moveTopLeft topleft) r ∧ b.Settled previous r := by
  have size : (previous.moveTopLeft topleft).size = previous.size := by
    simp only [QRect.moveTopLeft,QRect.moveLeft,QRect.moveTop,QRect.size,QRect.width,QRect.height,QSize.mk.injEq]
    omega
  exact ends_of_measure Nat.lt_wfRel.wf (moveDistance previous) (fun r => r.size = previous.size)
    (b.Settled previous) (fun _ _ => moveRound_goes) (fun _ _ _ => moveRound_leaves) size

end Titlebar

/-- Both loops end, whatever was dragged where and whatever is visible of the titlebar. -/
theorem handleMoveResize_loops_end (visible : QRect → Bool) (mode : Position) (b : Titlebar) (previous resized : QRect)
    (topleft : QPoint) :
    (∃ r, Ends (resizeRound visible mode previous) resized r ∧ (visible r = true ∨ PushedBack mode previous resized r)) ∧
      ∃ r, Ends (b.moveRound previous) (previous.moveTopLeft topleft) r ∧ b.Settled previous r :=
  ⟨resizeLoop_ends visible mode previous resized,b.moveLoop_ends previous topleft⟩

end KdeWorkspace.MoveResize
