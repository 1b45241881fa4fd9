import KdeWorkspace.QuickTile
import KdeWorkspace.SizeHints

/-!
Where `checkWorkspacePosition` puts a floating window when the struts or the
screens change.

A window that was inside the old bounds is moved inside the new ones, and shrunk
where it does not fit (`keepInside_inside`). The size hints come last: they give
a decorated window its smallest frame back, in place, so a window as large as
that frame stays inside exactly when the frame fits
(`checkWorkspacePosition_inside_iff`). The correction for a window off its screen
counts from the origin of the display, and so misses a screen that is far from it
(`checkOffscreenPosition_intersects_iff`).
-/
namespace KdeWorkspace.WorkspacePosition
open KdeWorkspace.Geometry
open QuickTile (StrutArea Bounds intersected keepInside checkOffscreenPosition)
open SizeHints
open QuickTile.StrutArea SizeHints.Sizemode

/-- The columns of the rectangles have some in common. -/
def MeetsHorizontally (r s : QRect) : Prop := s.left ≤ r.right ∧ r.left ≤ s.right

/-- The rows of the rectangles have some in common. -/
def MeetsVertically (r s : QRect) : Prop := s.top ≤ r.bottom ∧ r.top ≤ s.bottom

/-- A window that begins beyond an edge of its screen comes back to it exactly when, in the
    directions it is beyond, the screen is near enough to the origin of the display. -/
theorem checkOffscreenPosition_intersects_iff {geom area : QRect} (valid : area.isValid = true) (nonempty : geom.isValid = true)
    (beyond : geom.x > area.right ∨ geom.y > area.bottom) (h : geom.x > area.right ∨ MeetsHorizontally geom area)
    (v : geom.y > area.bottom ∨ MeetsVertically geom area) :
    (MeetsHorizontally (checkOffscreenPosition geom area) area ∧ MeetsVertically (checkOffscreenPosition geom area) area) ↔
      ((geom.x > area.right → 1-area.width/4 ≤ area.left ∧ area.left < area.width-area.width/4+geom.width) ∧
        (geom.y > area.bottom → 1-area.height/4-geom.height < area.top ∧ area.top ≤ area.height-area.height/4)) := by
  obtain ⟨columns,rows⟩ := of_decide_eq_true valid
  obtain ⟨wide,tall⟩ := of_decide_eq_true nonempty
  have quarterWidth : area.width.tdiv 4 = area.width/4 := Int.tdiv_eq_ediv_of_nonneg (by simp only [QRect.width]; omega)
  have quarterHeight : area.height.tdiv 4 = area.height/4 := Int.tdiv_eq_ediv_of_nonneg (by simp only [QRect.height]; omega)
  unfold checkOffscreenPosition
  rw [quarterWidth,quarterHeight]
  simp only [MeetsHorizontally,MeetsVertically,QRect.x,QRect.y,QRect.left,QRect.right,QRect.top,QRect.bottom,
    QRect.width,QRect.height] at *
  by_cases right : geom.x1 > area.x2 <;> by_cases below : geom.y1 > area.y2 <;>
    simp only [right,below,if_true,if_false,true_imp_iff,false_imp_iff,and_true,true_and,false_or,true_or,
      QRect.moveLeft,QRect.moveBottom] at * <;> omega

/-- A screen of its own at the origin, with a window to the right of it. -/
theorem checkOffscreenPosition_intersects_origin :
    let geom := QRect.ofSize 2000 10 200 100
    let area := QRect.ofSize 0 0 1920 1080
    area.isValid = true ∧ geom.isValid = true ∧ (geom.x > area.right ∨ geom.y > area.bottom) ∧
      (geom.x > area.right ∨ MeetsHorizontally geom area) ∧ (geom.y > area.bottom ∨ MeetsVertically geom area) ∧
      ((MeetsHorizontally (checkOffscreenPosition geom area) area ∧ MeetsVertically (checkOffscreenPosition geom area) area) ↔
        ((geom.x > area.right → 1-area.width/4 ≤ area.left ∧ area.left < area.width-area.width/4+geom.width) ∧
          (geom.y > area.bottom → 1-area.height/4-geom.height < area.top ∧ area.top ≤ area.height-area.height/4))) :=
  ⟨by decide,by decide,.inl (by decide),.inl (by decide),.inr ⟨by decide,by decide⟩,
    checkOffscreenPosition_intersects_iff (by decide) (by decide) (.inl (by decide)) (.inl (by decide))
      (.inr ⟨by decide,by decide⟩)⟩

/-- A window beyond the right edge of a second screen is moved onto the first one. -/
theorem checkOffscreenPosition_other_screen :
    let geom := QRect.ofSize 3300 10 200 100
    let area := QRect.ofSize 1920 0 1280 1024
    area.isValid = true ∧ geom.isValid = true ∧ geom.x > area.right ∧ MeetsVertically geom area ∧
      checkOffscreenPosition geom area = QRect.ofSize 960 10 200 100 ∧
      ¬ MeetsHorizontally (checkOffscreenPosition geom area) area :=
  ⟨by decide,by decide,by decide,⟨by decide,by decide⟩,by decide,fun meets => absurd meets.1 (by decide)⟩

/-- The screens and the struts, now and before the change. -/
structure Workspace where
  initializing : Bool
  inUpdateClientArea : Bool
  displayWidth : Int
  displayHeight : Int
  oldDisplayWidth : Int
  oldDisplayHeight : Int
  previousScreenSizes : List QRect
  fullScreenArea : QPoint → Int → QRect
  screenArea : QPoint → Int → QRect
  restrictedMoveArea : Int → StrutArea → List QRect
  previousRestrictedMoveArea : Int → StrutArea → List QRect

/-- How far the geometry may reach: to the edges of the screen, or to the struts beside the geometry. -/
def boundsIn (screenArea : QRect) (width height : Int) (struts : StrutArea → List QRect) (geometry : QRect) : Bounds :=
  let tall := QRect.ofSize geometry.x 0 geometry.width height
  let wide := QRect.ofSize 0 geometry.y width geometry.height
  let parts (area : StrutArea) (strip : QRect) : List QRect :=
    ((struts area).map (intersected · strip)).filter (·.isValid)
  { top := (parts StrutAreaTop tall).foldl (fun bound r => max bound (r.y+r.height)) screenArea.y
    right := (parts StrutAreaRight wide).foldl (fun bound r => min bound r.x) (screenArea.x+screenArea.width)
    bottom := (parts StrutAreaBottom tall).foldl (fun bound r => min bound r.y) (screenArea.y+screenArea.height)
    left := (parts StrutAreaLeft wide).foldl (fun bound r => max bound (r.x+r.width)) screenArea.x }

/-- The distance of a point from the middle of a screen; none inside it. -/
def screenDistance (p : QPoint) (r : QRect) : Int :=
  if r.contains p then 0 else (r.center.x-p.x).natAbs+(r.center.y-p.y).natAbs

namespace Workspace
variable (ws : Workspace)

def oldScreenArea (oldGeometry : QRect) (oldDesktop : Int) : QRect :=
  if ws.inUpdateClientArea then
    (ws.previousScreenSizes.foldl (fun (best : Int × QRect) (r : QRect) =>
      if screenDistance oldGeometry.center r < best.1 then (screenDistance oldGeometry.center r,r) else best)
      (intMax,QRect.ofSize 0 0 ws.oldDisplayWidth ws.oldDisplayHeight)).2
  else ws.screenArea oldGeometry.center oldDesktop

def oldBounds (oldGeometry : QRect) (oldDesktop : Int) : Bounds :=
  if ws.inUpdateClientArea then
    boundsIn (ws.oldScreenArea oldGeometry oldDesktop) ws.oldDisplayWidth ws.oldDisplayHeight
      (ws.previousRestrictedMoveArea oldDesktop) oldGeometry
  else
    boundsIn (ws.oldScreenArea oldGeometry oldDesktop) ws.displayWidth ws.displayHeight
      (ws.restrictedMoveArea oldDesktop) oldGeometry

end Workspace

/-- A client that is neither maximized nor tiled. -/
structure Client where
  geometry : QRect
  geom_restore : QRect
  desktop : Int
  isDesktop : Bool
  isFullScreen : Bool
  isDock : Bool
  hints : XSizeHints
  frame : Frame

namespace Workspace
variable (ws : Workspace) (c : Client)

/-- The screen of the client. -/
def areaOf : QRect := ws.screenArea c.geometry.center c.desktop

def newBounds : Bounds :=
  boundsIn (ws.areaOf c) ws.displayWidth ws.displayHeight (ws.restrictedMoveArea c.desktop) c.geom_restore

def checkWorkspacePosition (oldGeometry : QRect) (oldDesktop : Int) : Option Client :=
  let oldGeometry := if oldGeometry.isValid then oldGeometry else c.geometry
  let oldDesktop := if oldDesktop = -2 then c.desktop else oldDesktop
  if c.isDesktop then some c
  else if c.isFullScreen then some {c with geometry := ws.fullScreenArea c.geometry.center c.desktop}
  else if c.isDock then some c
  else if ws.initializing then some c
  else do
    let screenArea := ws.areaOf c
    let newGeom := keepInside oldGeometry (ws.oldBounds oldGeometry oldDesktop) (ws.newBounds c) screenArea c.geom_restore
    let newGeom := checkOffscreenPosition newGeom screenArea
    let size ← c.hints.adjustedSize c.frame newGeom.size SizemodeAny
    some {c with geometry := newGeom.setSize size}

end Workspace

/-- The rectangle does not reach over the bounds. -/
structure Inside (bounds : Bounds) (r : QRect) : Prop where
  top : bounds.top ≤ r.y
  bottom : r.y+r.height ≤ bounds.bottom
  left : bounds.left ≤ r.x
  right : r.x+r.width ≤ bounds.right

/-- The bounds do not reach over the screen. -/
structure WithinScreen (area : QRect) (bounds : Bounds) : Prop where
  top : area.y ≤ bounds.top
  bottom : bounds.bottom ≤ area.y+area.height
  left : area.x ≤ bounds.left
  right : bounds.right ≤ area.x+area.width

theorem boundsIn_withinScreen (screenArea : QRect) (width height : Int) (struts : StrutArea → List QRect)
    (geometry : QRect) : WithinScreen screenArea (boundsIn screenArea width height struts geometry) := by
  have grows (parts : List QRect) (start : Int) (reach : QRect → Int) :
      start ≤ parts.foldl (fun (bound : Int) (r : QRect) => max bound (reach r)) start := by
    refine List.foldlRecOn (motive := fun bound => start ≤ bound) parts _ (Int.le_refl start) ?_
    intro bound le r _
    exact Int.le_trans le (Int.le_max_left _ _)
  have shrinks (parts : List QRect) (start : Int) (reach : QRect → Int) :
      parts.foldl (fun (bound : Int) (r : QRect) => min bound (reach r)) start ≤ start := by
    refine List.foldlRecOn (motive := fun bound => bound ≤ start) parts _ (Int.le_refl start) ?_
    intro bound le r _
    exact Int.le_trans (Int.min_le_left _ _) le
  exact ⟨grows _ _ (fun r => r.y+r.height),shrinks _ _ (fun r => r.y),grows _ _ (fun r => r.x+r.width),
    shrinks _ _ (fun r => r.x)⟩

/-- The part of `keepInside` that is about the top and the bottom. -/
def keepTopBottom (old : QRect) (oldMax newMax : Bounds) (screenArea geom : QRect) : QRect :=
  let geom :=
    if (old.y ≥ oldMax.top ∧ geom.y < newMax.top) ∨ (old.y = oldMax.top ∧ geom.y ≠ newMax.top) then
      geom.moveTop (max newMax.top screenArea.y)
    else geom
  if (old.y+old.height ≤ oldMax.bottom ∧ geom.y+geom.height > newMax.bottom) ∨
      (old.y+old.height = oldMax.bottom ∧ geom.y+geom.height ≠ newMax.bottom) then
    let geom := geom.moveBottom (min (newMax.bottom-1) screenArea.bottom)
    if old.y ≥ oldMax.top ∧ geom.y < newMax.top then geom.setTop (max newMax.top screenArea.y) else geom
  else geom

/-- The part of `keepInside` that is about the left and the right. -/
def keepLeftRight (old : QRect) (oldMax newMax : Bounds) (screenArea geom : QRect) : QRect :=
  let geom :=
    if (old.x ≥ oldMax.left ∧ geom.x < newMax.left) ∨ (old.x = oldMax.left ∧ geom.x ≠ newMax.left) then
      geom.moveLeft (max newMax.left screenArea.x)
    else geom
  if (old.x+old.width ≤ oldMax.right ∧ geom.x+geom.width > newMax.right) ∨
      (old.x+old.width = oldMax.right ∧ geom.x+geom.width ≠ newMax.right) then
    let geom := geom.moveRight (min (newMax.right-1) screenArea.right)
    if old.x ≥ oldMax.left ∧ geom.x < newMax.left then geom.setLeft (max newMax.left screenArea.x) else geom
  else geom

section
variable {old geom area : QRect} {oldMax newMax : Bounds}

theorem keepInside_eq : keepInside old oldMax newMax area geom =
    keepLeftRight old oldMax newMax area (keepTopBottom old oldMax newMax area geom) := rfl

theorem keepTopBottom_rows (geom : QRect) (inside : Inside oldMax old) (within : WithinScreen area newMax) :
    newMax.top ≤ (keepTopBottom old oldMax newMax area geom).y ∧
      (keepTopBottom old oldMax newMax area geom).y+(keepTopBottom old oldMax newMax area geom).height ≤ newMax.bottom ∧
      (keepTopBottom old oldMax newMax area geom).height = min geom.height (newMax.bottom-newMax.top) := by
  obtain ⟨top,bottom,_,_⟩ := inside
  obtain ⟨areaTop,areaBottom,_,_⟩ := within
  have topEdge : max newMax.top area.y = newMax.top := Int.max_eq_left areaTop
  have bottomEdge : min (newMax.bottom-1) area.bottom = newMax.bottom-1 := by
    apply Int.min_eq_left
    simp only [QRect.y,QRect.height,QRect.bottom] at areaBottom ⊢
    omega
  unfold keepTopBottom
  rw [topEdge,bottomEdge]
  simp only [QRect.y,QRect.height,QRect.moveTop,QRect.moveBottom,QRect.setTop] at *
  grind

theorem keepTopBottom_columns (old geom area : QRect) (oldMax newMax : Bounds) :
    (keepTopBottom old oldMax newMax area geom).x1 = geom.x1 ∧ (keepTopBottom old oldMax newMax area geom).x2 = geom.x2 := by
  unfold keepTopBottom
  simp only [QRect.moveTop,QRect.moveBottom,QRect.setTop]
  grind

theorem keepLeftRight_columns (geom : QRect) (inside : Inside oldMax old) (within : WithinScreen area newMax) :
    newMax.left ≤ (keepLeftRight old oldMax newMax area geom).x ∧
      (keepLeftRight old oldMax newMax area geom).x+(keepLeftRight old oldMax newMax area geom).width ≤ newMax.right ∧
      (keepLeftRight old oldMax newMax area geom).width = min geom.width (newMax.right-newMax.left) := by
  obtain ⟨_,_,left,right⟩ := inside
  obtain ⟨_,_,areaLeft,areaRight⟩ := within
  have leftEdge : max newMax.left area.x = newMax.left := Int.max_eq_left areaLeft
  have rightEdge : min (newMax.right-1) area.right = newMax.right-1 := by
    apply Int.min_eq_left
    simp only [QRect.x,QRect.width,QRect.right] at areaRight ⊢
    omega
  unfold keepLeftRight
  rw [leftEdge,rightEdge]
  simp only [QRect.x,QRect.width,QRect.moveLeft,QRect.moveRight,QRect.setLeft] at *
  grind

theorem keepLeftRight_rows (old geom area : QRect) (oldMax newMax : Bounds) :
    (keepLeftRight old oldMax newMax area geom).y1 = geom.y1 ∧ (keepLeftRight old oldMax newMax area geom).y2 = geom.y2 := by
  unfold keepLeftRight
  simp only [QRect.moveLeft,QRect.moveRight,QRect.setLeft]
  grind

theorem keepInside_inside (geom : QRect) (inside : Inside oldMax old) (within : WithinScreen area newMax) :
    Inside newMax (keepInside old oldMax newMax area geom) ∧
      (keepInside old oldMax newMax area geom).width = min geom.width (newMax.right-newMax.left) ∧
      (keepInside old oldMax newMax area geom).height = min geom.height (newMax.bottom-newMax.top) := by
  rw [keepInside_eq]
  obtain ⟨first,last⟩ := keepTopBottom_columns old geom area oldMax newMax
  obtain ⟨top,bottom,height⟩ := keepTopBottom_rows geom inside within
  generalize keepTopBottom old oldMax newMax area geom = moved at *
  obtain ⟨highest,lowest⟩ := keepLeftRight_rows old moved area oldMax newMax
  obtain ⟨left,right,width⟩ := keepLeftRight_columns moved inside within
  generalize keepLeftRight old oldMax newMax area moved = placed at *
  simp only [QRect.x,QRect.y,QRect.width,QRect.height] at top bottom height left right width ⊢
  have inTop : newMax.top ≤ placed.y := by
    simp only [QRect.y]
    omega
  have inBottom : placed.y+placed.height ≤ newMax.bottom := by
    simp only [QRect.y,QRect.height]
    omega
  exact ⟨⟨inTop,inBottom,left,right⟩,by omega,by omega⟩

theorem checkOffscreenPosition_inside (inside : Inside newMax geom) (within : WithinScreen area newMax)
    (wide : 0 < geom.width) (tall : 0 < geom.height) : checkOffscreenPosition geom area = geom := by
  obtain ⟨_,bottom,_,right⟩ := inside
  obtain ⟨_,areaBottom,_,areaRight⟩ := within
  have onColumns : ¬ geom.x > area.right := by
    simp only [QRect.x,QRect.width,QRect.right] at *
    omega
  have onRows : ¬ geom.y > area.bottom := by
    simp only [QRect.y,QRect.height,QRect.bottom] at *
    omega
  simp only [checkOffscreenPosition,onColumns,onRows,if_false]

end

/-- The smallest frame that the decoration allows; a single point without one. -/
def smallestFrame (frame : Frame) : QSize :=
  ⟨max 1 frame.leastSize.width+frame.border.width,max 1 frame.leastSize.height+frame.border.height⟩

/-- Nothing but a decoration limits the size of the client. -/
structure Unhinted (c : Client) : Prop where
  normal : Normalised c.hints
  aspect : c.hints.pAspect = false
  incBase : c.hints.incBase = ⟨0,0⟩
  increments : c.hints.widthInc = 1 ∧ c.hints.heightInc = 1
  minSize : c.frame.minSize = ⟨0,0⟩
  maxSize : c.frame.maxSize = ⟨intMax,intMax⟩
  checkSize : ∀ size, c.frame.checkSize size = size
  border : 0 ≤ c.frame.border.width ∧ 0 ≤ c.frame.border.height

theorem adjustedSize_unhinted {c : Client} (unhinted : Unhinted c) (size : QSize) (mode : Sizemode)
    (width : size.width ≤ intMax) (height : size.height ≤ intMax) :
    c.hints.adjustedSize c.frame size mode = some
      (if size.width ≤ c.frame.border.width ∨ size.height ≤ c.frame.border.height then smallestFrame c.frame
      else ⟨max size.width (smallestFrame c.frame).width,max size.height (smallestFrame c.frame).height⟩) := by
  obtain ⟨normal,aspect,incBase,⟨widthInc,heightInc⟩,_,maxSize,checkSize,_⟩ := unhinted
  have limit : intMax = 2147483647 := rfl
  have exact_size (size : QSize) : c.hints.incremented size = some size := by
    rw [XSizeHints.incremented_eq normal,incBase,widthInc,heightInc]
    simp
  have sized (wsize : QSize) : c.hints.sizeForClientSize c.frame wsize mode false = some
      ⟨(c.frame.clamp wsize).width+c.frame.border.width,(c.frame.clamp wsize).height+c.frame.border.height⟩ := by
    unfold XSizeHints.sizeForClientSize
    simp [exact_size,XSizeHints.proportioned,aspect,checkSize]
  unfold XSizeHints.adjustedSize
  simp only [sized,Frame.clamp,maxSize,smallestFrame]
  by_cases narrow : size.width ≤ c.frame.border.width ∨ size.height ≤ c.frame.border.height
  · have empty : size.width-c.frame.border.width < 1 ∨ size.height-c.frame.border.height < 1 := by omega
    simp only [narrow,empty,if_true,Int.lt_irrefl,if_false,Option.some.injEq,QSize.mk.injEq]
    omega
  · have room : ¬ (size.width-c.frame.border.width < 1 ∨ size.height-c.frame.border.height < 1) := by omega
    obtain ⟨wide,tall⟩ := not_or.mp room
    simp only [narrow,wide,tall,or_self,if_false,Option.some.injEq,QSize.mk.injEq]
    omega

/-- An ordinary window at its floating geometry, no smaller than its decoration allows. -/
structure Ordinary (ws : Workspace) (c : Client) : Prop extends Unhinted c where
  running : ws.initializing = false
  notDesktop : c.isDesktop = false
  notFullScreen : c.isFullScreen = false
  notDock : c.isDock = false
  floating : c.geom_restore = c.geometry
  valid : c.geometry.isValid = true
  int : c.geometry.width ≤ intMax ∧ c.geometry.height ≤ intMax
  framed : (smallestFrame c.frame).width ≤ c.geometry.width ∧ (smallestFrame c.frame).height ≤ c.geometry.height

/-- The rectangle is inside the bounds, and smaller than the window only where the window does not fit. -/
structure KeptInside (bounds : Bounds) (before after : QRect) : Prop where
  inside : Inside bounds after
  width : after.width < before.width → bounds.right-bounds.left < before.width
  height : after.height < before.height → bounds.bottom-bounds.top < before.height

/-- The window ends inside the new bounds, shrunk only where it does not fit, exactly when its smallest frame fits. -/
theorem checkWorkspacePosition_inside_iff {ws : Workspace} {c : Client} (ordinary : Ordinary ws c) (oldGeometry : QRect)
    (oldDesktop : Int)
    (inside : Inside
      (ws.oldBounds (if oldGeometry.isValid then oldGeometry else c.geometry) (if oldDesktop = -2 then c.desktop else oldDesktop))
      (if oldGeometry.isValid then oldGeometry else c.geometry))
    (rows : (ws.newBounds c).top < (ws.newBounds c).bottom) (columns : (ws.newBounds c).left < (ws.newBounds c).right) :
    ∃ placed, ws.checkWorkspacePosition c oldGeometry oldDesktop = some placed ∧
      (KeptInside (ws.newBounds c) c.geometry placed.geometry ↔
        (smallestFrame c.frame).width ≤ (ws.newBounds c).right-(ws.newBounds c).left ∧
          (smallestFrame c.frame).height ≤ (ws.newBounds c).bottom-(ws.newBounds c).top) := by
  obtain ⟨unhinted,running,notDesktop,notFullScreen,notDock,floating,valid,⟨intWidth,intHeight⟩,framedWidth,framedHeight⟩ := ordinary
  have within : WithinScreen (ws.areaOf c) (ws.newBounds c) := boundsIn_withinScreen ..
  obtain ⟨within_old,width,height⟩ := keepInside_inside c.geometry inside within
  obtain ⟨wide,tall⟩ := of_decide_eq_true valid
  have positive : 0 < c.geometry.width ∧ 0 < c.geometry.height := by
    simp only [QRect.width,QRect.height]
    omega
  unfold Workspace.checkWorkspacePosition
  simp only [running,notDesktop,notFullScreen,notDock,floating,Bool.false_eq_true,if_false]
  generalize keepInside _ _ (ws.newBounds c) (ws.areaOf c) c.geometry = moved at *
  rw [checkOffscreenPosition_inside within_old within (by omega) (by omega),
    adjustedSize_unhinted unhinted moved.size SizemodeAny (by simp only [QRect.size]; omega)
      (by simp only [QRect.size]; omega)]
  refine ⟨_,rfl,?_⟩
  have border := unhinted.border
  obtain ⟨top,bottom,left,right⟩ := within_old
  have large : c.frame.border.width < (smallestFrame c.frame).width ∧ c.frame.border.height < (smallestFrame c.frame).height := by
    simp only [smallestFrame]
    omega
  generalize adjusted : (if moved.size.width ≤ c.frame.border.width ∨ moved.size.height ≤ c.frame.border.height then
    smallestFrame c.frame else ⟨max moved.size.width (smallestFrame c.frame).width,
      max moved.size.height (smallestFrame c.frame).height⟩) = size
  have atLeast : (smallestFrame c.frame).width ≤ size.width ∧ (smallestFrame c.frame).height ≤ size.height := by
    rw [← adjusted]
    split
    · exact ⟨Int.le_refl _,Int.le_refl _⟩
    · exact ⟨Int.le_max_right _ _,Int.le_max_right _ _⟩
  constructor
  · rintro ⟨⟨_,setBottom,_,setRight⟩,_,_⟩
    simp only [QRect.setSize,QRect.setWidth,QRect.setHeight,QRect.width,QRect.height,QRect.x,QRect.y] at top left setBottom setRight
    omega
  · rintro ⟨roomWidth,roomHeight⟩
    have fits : (smallestFrame c.frame).width ≤ moved.width ∧ (smallestFrame c.frame).height ≤ moved.height := by omega
    have same : size = moved.size := by
      rw [← adjusted,if_neg (by simp only [QRect.size]; omega)]
      simp only [QRect.size,QSize.mk.injEq]
      omega
    have kept : moved.setSize size = moved := by
      rw [same]
      simp only [QRect.setSize,QRect.setWidth,QRect.setHeight,QRect.size,QRect.width,QRect.height]
      cases moved
      simp only [QRect.mk.injEq,true_and]
      omega
    have fewerColumns (less : moved.width < c.geometry.width) :
        (ws.newBounds c).right-(ws.newBounds c).left < c.geometry.width := by omega
    have fewerRows (less : moved.height < c.geometry.height) :
        (ws.newBounds c).bottom-(ws.newBounds c).top < c.geometry.height := by omega
    rw [kept]
    exact ⟨⟨top,bottom,left,right⟩,fewerColumns,fewerRows⟩

/-- A screen of 1000 by 800 that gets a panel at its left. -/
def withPanel (width : Int) : Workspace :=
  { initializing := false, inUpdateClientArea := true
    displayWidth := 1000, displayHeight := 800, oldDisplayWidth := 1000, oldDisplayHeight := 800
    previousScreenSizes := [QRect.ofSize 0 0 1000 800]
    fullScreenArea := fun _ _ => QRect.ofSize 0 0 1000 800
    screenArea := fun _ _ => QRect.ofSize 0 0 1000 800
    restrictedMoveArea := fun _ area => if area = StrutAreaLeft then [QRect.ofSize 0 0 width 800] else []
    previousRestrictedMoveArea := fun _ _ => [] }

/-- A window without hints whose decoration needs 108 by 52. -/
def decorated (geometry : QRect) : Client :=
  ⟨geometry,geometry,1,false,false,false,getWmNormalHints XSizeHints.unset none,
    ⟨⟨0,0⟩,⟨intMax,intMax⟩,some ⟨100,26⟩,⟨8,26⟩,true,id⟩⟩

theorem decorated_unhinted (geometry : QRect) : Unhinted (decorated geometry) :=
  ⟨getWmNormalHints_normalised XSizeHints.unset none,rfl,rfl,⟨rfl,rfl⟩,rfl,rfl,fun _ => rfl,by simp [decorated]⟩

theorem checkWorkspacePosition_inside_panel :
    let ws := withPanel 300
    let c := decorated (QRect.ofSize 10 10 200 100)
    Ordinary ws c ∧ Inside (ws.oldBounds c.geometry 1) c.geometry ∧
      (ws.newBounds c).top < (ws.newBounds c).bottom ∧ (ws.newBounds c).left < (ws.newBounds c).right ∧
      ∃ placed, ws.checkWorkspacePosition c c.geometry 1 = some placed ∧
        (KeptInside (ws.newBounds c) c.geometry placed.geometry ↔
          (smallestFrame c.frame).width ≤ (ws.newBounds c).right-(ws.newBounds c).left ∧
            (smallestFrame c.frame).height ≤ (ws.newBounds c).bottom-(ws.newBounds c).top) := by
  have ordinary : Ordinary (withPanel 300) (decorated (QRect.ofSize 10 10 200 100)) :=
    ⟨decorated_unhinted _,rfl,rfl,rfl,rfl,rfl,by decide,by decide,by decide⟩
  have inside : Inside ((withPanel 300).oldBounds (QRect.ofSize 10 10 200 100) 1) (QRect.ofSize 10 10 200 100) :=
    ⟨by decide,by decide,by decide,by decide⟩
  exact ⟨ordinary,inside,by decide,by decide,
    checkWorkspacePosition_inside_iff ordinary (QRect.ofSize 10 10 200 100) 1 inside (by decide) (by decide)⟩

/-- Beside a panel that leaves less room than its decoration needs, a window reaches over the screen; and one
    that is narrower than its decoration needs is widened in place, over the bound it stood at. -/
theorem checkWorkspacePosition_leaves_bounds :
    (let ws := withPanel 950
      let c := decorated (QRect.ofSize 10 10 200 100)
      Inside (ws.oldBounds c.geometry 1) c.geometry ∧ (ws.newBounds c).left < (ws.newBounds c).right ∧
        (ws.newBounds c).top < (ws.newBounds c).bottom ∧
        ∃ placed, ws.checkWorkspacePosition c c.geometry 1 = some placed ∧
          placed.geometry = QRect.ofSize 950 10 108 100 ∧ ¬ Inside (ws.newBounds c) placed.geometry) ∧
    (let ws := withPanel 300
      let c := decorated (QRect.ofSize 980 10 20 100)
      Inside (ws.oldBounds c.geometry 1) c.geometry ∧ (ws.newBounds c).left < (ws.newBounds c).right ∧
        (ws.newBounds c).top < (ws.newBounds c).bottom ∧
        ∃ placed, ws.checkWorkspacePosition c c.geometry 1 = some placed ∧
          placed.geometry = QRect.ofSize 980 10 108 100 ∧ ¬ Inside (ws.newBounds c) placed.geometry) := by
  constructor
  · refine ⟨⟨by decide,by decide,by decide,by decide⟩,by decide,by decide,_,rfl,by decide,?_⟩
    exact fun inside => absurd inside.right (by decide)
  · refine ⟨⟨by decide,by decide,by decide,by decide⟩,by decide,by decide,_,rfl,by decide,?_⟩
    exact fun inside => absurd inside.right (by decide)

end KdeWorkspace.WorkspacePosition
