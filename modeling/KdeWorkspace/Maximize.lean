import KdeWorkspace.Geometry

/-!
Maximizing a window vertically, horizontally or fully and restoring it
(`changeMaximize`), for windows that are not shaded, without an aspect hint and
without window rules.

`geom_restore` remembers the geometry of the floating window one axis at a time.
While the window keeps to the area of one screen, its geometry is a function of
the mode alone (`maximizedGeometry`), whatever way the mode was reached and
whether or not the window counts as quick tiled (`setMaximizes_tracked`); so it
comes back to the floating geometry (`setMaximizes_restores`).
-/
namespace KdeWorkspace.Maximize
open KdeWorkspace.Geometry

/-- `MaximizeMode`, one bit for each direction. -/
structure MaximizeMode where
  vertical : Bool
  horizontal : Bool
deriving Repr, DecidableEq

namespace MaximizeMode

def MaximizeRestore : MaximizeMode := ⟨false,false⟩
def MaximizeVertical : MaximizeMode := ⟨true,false⟩
def MaximizeHorizontal : MaximizeMode := ⟨false,true⟩
def MaximizeFull : MaximizeMode := ⟨true,true⟩

end MaximizeMode

open MaximizeMode

inductive QuickTileMode
  | QuickTileNone
  | QuickTileMaximize
  | tiled (left right top bottom : Bool)
deriving Repr, DecidableEq

open QuickTileMode

/-- What maximizing reads and writes of a window. -/
structure Window where
  max_mode : MaximizeMode
  quick_tile_mode : QuickTileMode
  geometry : QRect
  geom_restore : QRect
deriving Repr, DecidableEq

/-- The size hints of one direction: minimum, maximum, increment and the base
    that increments count from, and the two borders of the window. -/
structure Hints where
  minimum : Int
  maximum : Int
  increment : Int
  base : Int
  border : Int
deriving Repr, DecidableEq

/-- What does not change while a window is maximized and restored: its size hints, the maximize area at a point, the
    options, and how `Placement` places a window in an area. -/
structure Settings where
  horizontal : Hints
  vertical : Hints
  isResizable : Bool
  maximizeArea : QPoint → QRect
  isElectricBorderMaximizing : Bool
  cursorPos : QPoint
  electricBorderMaximize : Bool
  placeSmart : QRect → Window → Window
  place : QRect → Window → Window

/-- One direction of `sizeForClientSize`: the minimum, here already with the
    decoration's, wins over the maximum, and increments are counted from the base. -/
def Hints.constrain (hints : Hints) (size : Int) : Int :=
  let size := if size < 1 then 1 else size
  let size := max hints.minimum (min hints.maximum size)
  (size-hints.base).tdiv hints.increment*hints.increment+hints.base

/-- `sizeForClientSize` with the frame. -/
def sizeForClientSize (s : Settings) (wsize : QSize) : QSize :=
  ⟨s.horizontal.constrain wsize.width+s.horizontal.border,s.vertical.constrain wsize.height+s.vertical.border⟩

/-- `adjustedSize`; without an aspect hint the mode makes no difference. -/
def adjustedSize (s : Settings) (frame : QSize) : QSize :=
  let wsize : QSize := ⟨frame.width-s.horizontal.border,frame.height-s.vertical.border⟩
  let wsize : QSize := if wsize.width < 1 ∨ wsize.height < 1 then ⟨1,1⟩ else wsize
  sizeForClientSize s wsize

/-- The area a window is maximized in. -/
def clientArea (s : Settings) (w : Window) : QRect :=
  if s.isElectricBorderMaximizing then s.maximizeArea s.cursorPos else s.maximizeArea w.geometry.center

/-- Saves the sides that are not maximized yet. -/
def saveGeometry (old_mode : MaximizeMode) (adjust : Bool) (w : Window) : Window :=
  if w.quick_tile_mode = QuickTileNone then
    let w := if !adjust ∧ !old_mode.vertical then
        {w with geom_restore := (w.geom_restore.setTop w.geometry.y).setHeight w.geometry.height}
      else w
    if !adjust ∧ !old_mode.horizontal then
      {w with geom_restore := (w.geom_restore.setLeft w.geometry.x).setWidth w.geometry.width}
    else w
  else w

/-- The conditional exit points of quick tiling. -/
def exitQuickTile (area : QRect) (old_mode : MaximizeMode) (w : Window) : Window :=
  if w.quick_tile_mode ≠ QuickTileNone then
    if old_mode = MaximizeFull ∧ !area.contains w.geom_restore.center then w
    else if (old_mode = MaximizeVertical ∧ w.max_mode = MaximizeRestore) ∨
        (old_mode = MaximizeFull ∧ w.max_mode = MaximizeHorizontal) then
      {w with quick_tile_mode := QuickTileNone}
    else w
  else w

def maximizeVertical (s : Settings) (area : QRect) (old_mode : MaximizeMode) (w : Window) : Window :=
  if old_mode.horizontal then
    -- actually restoring from MaximizeFull
    if w.geom_restore.width = 0 ∨ !area.contains w.geom_restore.center then
      s.placeSmart area {w with
        geometry := w.geometry.setSize (adjustedSize s ⟨(w.geometry.width*2).tdiv 3,area.height⟩)}
    else
      let size := adjustedSize s ⟨w.geom_restore.width,area.height⟩
      {w with geometry := QRect.ofSize w.geom_restore.x area.top size.width size.height}
  else
    let r := QRect.ofSize w.geometry.x area.top w.geometry.width area.height
    {w with geometry := r.setSize (adjustedSize s r.size)}

def maximizeHorizontal (s : Settings) (area : QRect) (old_mode : MaximizeMode) (w : Window) : Window :=
  if old_mode.vertical then
    -- actually restoring from MaximizeFull
    if w.geom_restore.height = 0 ∨ !area.contains w.geom_restore.center then
      s.placeSmart area {w with
        geometry := w.geometry.setSize (adjustedSize s ⟨area.width,(w.geometry.height*2).tdiv 3⟩)}
    else
      let size := adjustedSize s ⟨area.width,w.geom_restore.height⟩
      {w with geometry := QRect.ofSize area.left w.geom_restore.y size.width size.height}
  else
    let r := QRect.ofSize area.left w.geometry.y area.width w.geometry.height
    {w with geometry := r.setSize (adjustedSize s r.size)}

/-- The geometry with the remembered sides; a partially maximized window may not
    have the other direction remembered. -/
def restoredGeometry (old_mode : MaximizeMode) (w : Window) : QRect :=
  let restore := w.geometry
  let restore := if old_mode.vertical then
      (restore.setTop w.geom_restore.top).setBottom w.geom_restore.bottom
    else restore
  if old_mode.horizontal then (restore.setLeft w.geom_restore.left).setRight w.geom_restore.right else restore

def maximizeRestore (s : Settings) (area : QRect) (old_mode : MaximizeMode) (w : Window) : Window :=
  let restore := restoredGeometry old_mode w
  let placed : Window × QRect :=
    if !restore.isValid then
      let size : QSize := ⟨(area.width*2).tdiv 3,(area.height*2).tdiv 3⟩
      let size := if w.geom_restore.width > 0 then {size with width := w.geom_restore.width} else size
      let size := if w.geom_restore.height > 0 then {size with height := w.geom_restore.height} else size
      let w := s.placeSmart area {w with geometry := w.geometry.setSize (adjustedSize s size)}
      let restore := w.geometry
      let restore := if w.geom_restore.width > 0 then restore.moveLeft w.geom_restore.x else restore
      let restore := if w.geom_restore.height > 0 then restore.moveTop w.geom_restore.y else restore
      ({w with geom_restore := restore},restore)
    else (w,restore)
  let w := {placed.1 with geometry := placed.2}
  -- Not restoring to the same screen
  let w := if !area.contains w.geom_restore.center then s.place area w else w
  {w with quick_tile_mode := QuickTileNone}

/-- The geometry of a fully maximized window. -/
def fullGeometry (s : Settings) (area : QRect) : QRect :=
  let r := area.setSize (adjustedSize s area.size)
  if r.size ≠ area.size then
    if s.isElectricBorderMaximizing ∧ r.width < area.width then r.moveLeft (s.cursorPos.x-r.width.tdiv 2)
    else r.moveCenter area.center
  else r

def maximizeFull (s : Settings) (area : QRect) (w : Window) : Window :=
  let r := fullGeometry s area
  {w with
    geometry := r
    quick_tile_mode := if s.electricBorderMaximize ∧ r.top = area.top then QuickTileMaximize else QuickTileNone}

/-- `changeMaximize`. It calls itself once, to restore before it changes the
    direction; the first argument bounds the depth of these calls. -/
def changeMaximize (s : Settings) : Nat → Window → Bool → Bool → Bool → Window
  | 0, w, _, _, _ => w
  | depth+1, w, vertical, horizontal, adjust =>
    if !s.isResizable then w
    else
      let area := clientArea s w
      let old_mode := w.max_mode
      let max_mode : MaximizeMode :=
        if !adjust then ⟨old_mode.vertical ^^ vertical,old_mode.horizontal ^^ horizontal⟩ else old_mode
      let w := {w with max_mode := max_mode}
      if !adjust ∧ max_mode = old_mode then w
      else
        let w := if (old_mode = MaximizeVertical ∧ max_mode = MaximizeHorizontal) ∨
            (old_mode = MaximizeHorizontal ∧ max_mode = MaximizeVertical) then
            changeMaximize s depth w false false false
          else w
        let w := exitQuickTile area old_mode (saveGeometry old_mode adjust w)
        match max_mode with
        | ⟨true,false⟩ => maximizeVertical s area old_mode w
        | ⟨false,true⟩ => maximizeHorizontal s area old_mode w
        | ⟨false,false⟩ => maximizeRestore s area old_mode w
        | ⟨true,true⟩ => maximizeFull s area w

/-- `setMaximize`; `changeMaximize` flips the directions it is given. -/
def setMaximize (s : Settings) (w : Window) (vertically horizontally : Bool) : Window :=
  changeMaximize s 2 w (if w.max_mode.vertical then !vertically else vertically)
    (if w.max_mode.horizontal then !horizontally else horizontally) false

theorem changeMaximize_nothing (s : Settings) (depth : Nat) (w : Window) :
    changeMaximize s depth w false false false = w := by
  cases depth with
  | zero => rfl
  | succ depth => simp [changeMaximize]

/-- The geometry satisfies the size hints: its client is not empty and keeps its size. -/
structure SatisfiesHints (s : Settings) (g : QRect) : Prop where
  valid : g.isValid = true
  width : 1 ≤ g.width-s.horizontal.border
  height : 1 ≤ g.height-s.vertical.border
  sizes : sizeForClientSize s ⟨g.width-s.horizontal.border,g.height-s.vertical.border⟩ = g.size

/-- The geometry of the window in each mode, if it floats with geometry `g`. -/
def maximizedGeometry (s : Settings) (area g : QRect) : MaximizeMode → QRect
  | ⟨false,false⟩ => g
  | ⟨true,false⟩ => QRect.ofSize g.x area.top g.width (adjustedSize s ⟨g.width,area.height⟩).height
  | ⟨false,true⟩ => QRect.ofSize area.left g.y (adjustedSize s ⟨area.width,g.height⟩).width g.height
  | ⟨true,true⟩ => fullGeometry s area

/-- A floating geometry in an area: its centre lies in the area, the area leaves room for more than the borders, and
    in every mode the window is maximized in this area. -/
structure KeepsToArea (s : Settings) (area g : QRect) : Prop where
  inside : area.contains g.center = true
  width : 1 ≤ area.width-s.horizontal.border
  height : 1 ≤ area.height-s.vertical.border
  stays : ∀ mode, (if s.isElectricBorderMaximizing then s.maximizeArea s.cursorPos
    else s.maximizeArea (maximizedGeometry s area g mode).center) = area

/-- The geometry is the one of the mode, and a maximized window remembers `g`. -/
structure Tracked (s : Settings) (area g : QRect) (w : Window) : Prop where
  geometry : w.geometry = maximizedGeometry s area g w.max_mode
  remembers : w.max_mode ≠ MaximizeRestore → w.geom_restore = g
  untiled : w.max_mode = MaximizeRestore → w.quick_tile_mode = QuickTileNone

section
variable {s : Settings} {area g : QRect} (hints : SatisfiesHints s g) (keeps : KeepsToArea s area g)

theorem adjustedSize_of_room {width height : Int} (wide : 1 ≤ width-s.horizontal.border)
    (high : 1 ≤ height-s.vertical.border) : adjustedSize s ⟨width,height⟩ =
      sizeForClientSize s ⟨width-s.horizontal.border,height-s.vertical.border⟩ := by
  have room : ¬ (width-s.horizontal.border < 1 ∨ height-s.vertical.border < 1) := by omega
  simp only [adjustedSize,room,↓reduceIte]

include hints in
theorem adjustedSize_width {height : Int} (high : 1 ≤ height-s.vertical.border) :
    (adjustedSize s ⟨g.width,height⟩).width = g.width := by
  rw [adjustedSize_of_room hints.width high]
  exact congrArg QSize.width hints.sizes

include hints in
theorem adjustedSize_height {width : Int} (wide : 1 ≤ width-s.horizontal.border) :
    (adjustedSize s ⟨width,g.height⟩).height = g.height := by
  rw [adjustedSize_of_room wide hints.height]
  exact congrArg QSize.height hints.sizes

theorem save_top_height (g : QRect) : (g.setTop g.y).setHeight g.height = g := by
  obtain ⟨x1,y1,x2,y2⟩ := g
  simp only [QRect.setTop,QRect.setHeight,QRect.y,QRect.height,QRect.mk.injEq,true_and]
  omega

theorem save_left_width (g : QRect) : (g.setLeft g.x).setWidth g.width = g := by
  obtain ⟨x1,y1,x2,y2⟩ := g
  simp only [QRect.setLeft,QRect.setWidth,QRect.x,QRect.width,QRect.mk.injEq,true_and,and_true]
  omega

theorem save_all (g restore : QRect) :
    (((restore.setTop g.y).setHeight g.height).setLeft g.x).setWidth g.width = g := by
  obtain ⟨x1,y1,x2,y2⟩ := g
  simp only [QRect.setTop,QRect.setHeight,QRect.setLeft,QRect.setWidth,QRect.x,QRect.y,QRect.width,QRect.height,
    QRect.mk.injEq,true_and]
  constructor <;> omega

@[simp] theorem ofSize_x (x y width height : Int) : (QRect.ofSize x y width height).x = x := rfl
@[simp] theorem ofSize_y (x y width height : Int) : (QRect.ofSize x y width height).y = y := rfl

@[simp] theorem ofSize_width (x y width height : Int) : (QRect.ofSize x y width height).width = width := by
  simp only [QRect.ofSize,QRect.width]
  omega

@[simp] theorem ofSize_height (x y width height : Int) : (QRect.ofSize x y width height).height = height := by
  simp only [QRect.ofSize,QRect.height]
  omega

theorem saveGeometry_eq {w : Window} (tracked : Tracked s area g w) (max_mode : MaximizeMode) :
    saveGeometry w.max_mode false {w with max_mode := max_mode} =
      {w with max_mode := max_mode, geom_restore := g} := by
  obtain ⟨mode,tile,geometry,restore⟩ := w
  obtain ⟨same,remembers,untiled⟩ := tracked
  simp only at same remembers untiled
  subst same
  obtain ⟨vertical,horizontal⟩ := mode
  by_cases floating : (⟨vertical,horizontal⟩ : MaximizeMode) = MaximizeRestore
  · obtain rfl := untiled floating
    obtain ⟨rfl,rfl⟩ := MaximizeMode.mk.inj floating
    simp [saveGeometry,maximizedGeometry,save_all]
  · obtain rfl := remembers floating
    cases vertical <;> cases horizontal
    · exact absurd rfl floating
    · simp [saveGeometry,maximizedGeometry,save_top_height]
    · simp [saveGeometry,maximizedGeometry,save_left_width]
    · simp [saveGeometry]

theorem setSize_ofSize (x y width height : Int) (size : QSize) :
    (QRect.ofSize x y width height).setSize size = QRect.ofSize x y size.width size.height := rfl

theorem valid_sides {r : QRect} (valid : r.isValid = true) : r.width ≠ 0 ∧ r.height ≠ 0 := by
  simp only [QRect.isValid,decide_eq_true_eq] at valid
  simp only [QRect.width,QRect.height]
  omega

include hints keeps in
theorem maximizeVertical_eq {old_mode : MaximizeMode} (other : old_mode ≠ MaximizeVertical) (w : Window)
    (geometry : w.geometry = maximizedGeometry s area g old_mode) (restore : w.geom_restore = g) :
    maximizeVertical s area old_mode w = {w with geometry := maximizedGeometry s area g MaximizeVertical} := by
  have width := adjustedSize_width hints keeps.height
  obtain ⟨vertical,horizontal⟩ := old_mode
  unfold maximizeVertical
  cases horizontal with
  | true =>
    have known := valid_sides hints.valid
    simp only [restore,known.1,keeps.inside,Bool.not_true,Bool.false_eq_true,or_self,↓reduceIte]
    rw [width]
    rfl
  | false =>
    cases vertical with
    | true => exact absurd rfl other
    | false =>
      simp only [geometry,maximizedGeometry,Bool.false_eq_true,↓reduceIte]
      rw [setSize_ofSize]
      simp only [QRect.size,ofSize_width,ofSize_height,width]
      rfl

include hints keeps in
theorem maximizeHorizontal_eq {old_mode : MaximizeMode} (other : old_mode ≠ MaximizeHorizontal) (w : Window)
    (geometry : w.geometry = maximizedGeometry s area g old_mode) (restore : w.geom_restore = g) :
    maximizeHorizontal s area old_mode w = {w with geometry := maximizedGeometry s area g MaximizeHorizontal} := by
  have height := adjustedSize_height hints keeps.width
  obtain ⟨vertical,horizontal⟩ := old_mode
  unfold maximizeHorizontal
  cases vertical with
  | true =>
    have known := valid_sides hints.valid
    simp only [restore,known.2,keeps.inside,Bool.not_true,Bool.false_eq_true,or_self,↓reduceIte]
    rw [height]
    rfl
  | false =>
    cases horizontal with
    | true => exact absurd rfl other
    | false =>
      simp only [geometry,maximizedGeometry,Bool.false_eq_true,↓reduceIte]
      rw [setSize_ofSize]
      simp only [QRect.size,ofSize_width,ofSize_height,height]
      rfl

include hints keeps in
theorem maximizeRestore_eq {old_mode : MaximizeMode} (other : old_mode ≠ MaximizeRestore) (w : Window)
    (geometry : w.geometry = maximizedGeometry s area g old_mode) (restore : w.geom_restore = g) :
    maximizeRestore s area old_mode w = {w with geometry := g, quick_tile_mode := QuickTileNone} := by
  have restored : restoredGeometry old_mode w = g := by
    unfold restoredGeometry
    rw [geometry,restore]
    obtain ⟨vertical,horizontal⟩ := old_mode
    obtain ⟨x1,y1,x2,y2⟩ := g
    cases vertical <;> cases horizontal
    · exact absurd rfl other
    · simp only [maximizedGeometry,QRect.setLeft,QRect.setRight,QRect.left,QRect.right,QRect.ofSize,QRect.y,
        QRect.height,Bool.false_eq_true,↓reduceIte,QRect.mk.injEq,true_and]
      omega
    · simp only [maximizedGeometry,QRect.setTop,QRect.setBottom,QRect.top,QRect.bottom,QRect.ofSize,QRect.x,
        QRect.width,Bool.false_eq_true,↓reduceIte,QRect.mk.injEq,true_and,and_true]
      omega
    · rfl
  simp only [maximizeRestore,restored,hints.valid,restore,keeps.inside,Bool.not_true,Bool.false_eq_true,↓reduceIte]

theorem exitQuickTile_keeps (area : QRect) (old_mode : MaximizeMode) (w : Window) :
    ∃ tile, exitQuickTile area old_mode w = {w with quick_tile_mode := tile} := by
  unfold exitQuickTile
  split
  · split
    · exact ⟨_,rfl⟩
    · split
      · exact ⟨_,rfl⟩
      · exact ⟨_,rfl⟩
  · exact ⟨_,rfl⟩

include hints keeps in
theorem changeMaximize_eq {w : Window} (tracked : Tracked s area g w) (resizable : s.isResizable = true) (depth : Nat)
    (vertical horizontal : Bool) (max_mode : MaximizeMode)
    (flipped : max_mode = ⟨w.max_mode.vertical ^^ vertical,w.max_mode.horizontal ^^ horizontal⟩)
    (changed : max_mode ≠ w.max_mode) :
    ∃ tile, changeMaximize s (depth+1) w vertical horizontal false =
        ⟨max_mode,tile,maximizedGeometry s area g max_mode,g⟩ ∧
      (max_mode = MaximizeRestore → tile = QuickTileNone) := by
  have chosen : clientArea s w = area := by
    unfold clientArea
    rw [tracked.geometry]
    exact keeps.stays w.max_mode
  simp only [changeMaximize,changeMaximize_nothing,chosen,ite_self,Bool.not_false,true_and,↓reduceIte,← flipped,changed,
    resizable,Bool.not_true,Bool.false_eq_true]
  rw [saveGeometry_eq tracked]
  obtain ⟨tile,exits⟩ := exitQuickTile_keeps area w.max_mode {w with max_mode := max_mode, geom_restore := g}
  rw [exits]
  clear flipped
  obtain ⟨v,h⟩ := max_mode
  have other : w.max_mode ≠ ⟨v,h⟩ := Ne.symm changed
  cases v <;> cases h
  · simp only
    rw [maximizeRestore_eq hints keeps other ⟨_,tile,w.geometry,g⟩ tracked.geometry rfl]
    exact ⟨QuickTileNone,rfl,fun _ => rfl⟩
  · simp only
    rw [maximizeHorizontal_eq hints keeps other ⟨_,tile,w.geometry,g⟩ tracked.geometry rfl]
    exact ⟨tile,rfl,fun floating => by cases floating⟩
  · simp only
    rw [maximizeVertical_eq hints keeps other ⟨_,tile,w.geometry,g⟩ tracked.geometry rfl]
    exact ⟨tile,rfl,fun floating => by cases floating⟩
  · exact ⟨_,rfl,fun floating => by cases floating⟩

include hints keeps in
theorem changeMaximize_tracked {w : Window} (tracked : Tracked s area g w) (depth : Nat) (vertical horizontal : Bool) :
    Tracked s area g (changeMaximize s depth w vertical horizontal false) := by
  cases depth with
  | zero => exact tracked
  | succ depth =>
    by_cases resizable : s.isResizable = true
    · by_cases changed : (⟨w.max_mode.vertical ^^ vertical,w.max_mode.horizontal ^^ horizontal⟩ : MaximizeMode) = w.max_mode
      · have same : changeMaximize s (depth+1) w vertical horizontal false = w := by
          simp only [changeMaximize,changed,resizable,Bool.not_true,Bool.false_eq_true,Bool.not_false,and_self,↓reduceIte]
        rw [same]
        exact tracked
      · obtain ⟨tile,done,untiled⟩ := changeMaximize_eq hints keeps tracked resizable depth _ _ _ rfl changed
        rw [done]
        exact ⟨rfl,fun _ => rfl,untiled⟩
    · have same : changeMaximize s (depth+1) w vertical horizontal false = w := by
        simp [changeMaximize,resizable]
      rw [same]
      exact tracked

end

/-- The window after a sequence of `setMaximize` calls. -/
def setMaximizes (s : Settings) (w : Window) (calls : List (Bool × Bool)) : Window :=
  calls.foldl (fun w call => setMaximize s w call.1 call.2) w

theorem setMaximizes_tracked {s : Settings} {area g : QRect} (hints : SatisfiesHints s g) (keeps : KeepsToArea s area g)
    {w : Window} (tracked : Tracked s area g w) (calls : List (Bool × Bool)) :
    Tracked s area g (setMaximizes s w calls) := by
  induction calls generalizing w with
  | nil => exact tracked
  | cons call calls ih => exact ih (changeMaximize_tracked hints keeps tracked 2 _ _)

/-- A floating window that keeps to the area of one screen has its geometry back
    after any sequence of `setMaximize` calls that ends restored. -/
theorem setMaximizes_restores {s : Settings} {area : QRect} {w : Window} (floating : w.max_mode = MaximizeRestore)
    (untiled : w.quick_tile_mode = QuickTileNone) (hints : SatisfiesHints s w.geometry)
    (keeps : KeepsToArea s area w.geometry) (calls : List (Bool × Bool))
    (restored : (setMaximizes s w calls).max_mode = MaximizeRestore) :
    (setMaximizes s w calls).geometry = w.geometry := by
  have start : Tracked s area w.geometry w :=
    ⟨by rw [floating]; rfl,fun maximized => absurd floating maximized,fun _ => untiled⟩
  have tracked := setMaximizes_tracked hints keeps start calls
  rw [tracked.geometry,restored]
  rfl

/-- `Placement::placeZeroCornered`. -/
def placeZeroCornered (area : QRect) (w : Window) : Window := {w with geometry := w.geometry.moveTopLeft area.topLeft}

/-- Two screens above each other, for windows of at least the given height. -/
private def twoScreens (height : Int) : Settings where
  horizontal := ⟨1,1000,1,0,10⟩
  vertical := ⟨height,1000,1,0,0⟩
  isResizable := true
  maximizeArea := fun p => if p.y < 100 then ⟨0,0,199,99⟩ else ⟨0,100,199,199⟩
  isElectricBorderMaximizing := false
  cursorPos := ⟨0,0⟩
  electricBorderMaximize := true
  placeSmart := fun _ w => w
  place := placeZeroCornered

private def floatingWindow (geometry : QRect) : Window := ⟨MaximizeRestore,QuickTileNone,geometry,⟨0,0,-1,-1⟩⟩

theorem setMaximizes_restores_two_screens :
    let calls := [(true,false),(false,true),(true,true),(true,false),(false,false)]
    (setMaximizes (twoScreens 20) (floatingWindow ⟨20,30,79,69⟩) calls).geometry = ⟨20,30,79,69⟩ := by
  intro calls
  have keeps : KeepsToArea (twoScreens 20) ⟨0,0,199,99⟩ ⟨20,30,79,69⟩ := by
    refine ⟨by decide,by decide,by decide,?_⟩
    rintro ⟨_ | _,_ | _⟩ <;> decide
  exact setMaximizes_restores rfl rfl ⟨by decide,by decide,by decide,by decide⟩ keeps calls (by decide)

/-- Maximized vertically, a window that is higher than two screens has its centre
    on the lower one, and is restored there. -/
theorem setMaximizes_other_screen :
    ∃ (s : Settings) (w : Window), s.isElectricBorderMaximizing = false ∧
      w.max_mode = MaximizeRestore ∧ w.quick_tile_mode = QuickTileNone ∧ SatisfiesHints s w.geometry ∧
      (s.maximizeArea w.geometry.center).contains w.geometry.center = true ∧
      (setMaximizes s w [(true,false),(false,false)]).max_mode = MaximizeRestore ∧
      (setMaximizes s w [(true,false),(false,false)]).geometry ≠ w.geometry :=
  ⟨twoScreens 250,floatingWindow ⟨20,-100,79,149⟩,rfl,rfl,rfl,⟨by decide,by decide,by decide,by decide⟩,
    by decide,by decide,by decide⟩

end KdeWorkspace.Maximize
