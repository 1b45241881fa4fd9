import KdeWorkspace.Maximize

/-!
Quick tiling (`setQuickTileMode`): a window is put into a half or a quarter of
its screen, maximized, or given its floating geometry back.

The floating geometry is saved when a window without a tile gets one, and when
a window is maximized. The request to maximize resets the tile first, so a tiled
window that is maximized saves the geometry of its tile in its place. Apart from
that, and from a request for no tile while the window floats with an old saved
geometry, a window floats with its own geometry whenever it floats
(`run_restores`).
-/
namespace KdeWorkspace.QuickTile
open KdeWorkspace.Geometry
open Maximize
open MaximizeMode QuickTileMode

/-- The mode with these bits; all of them together are `QuickTileMaximize`. -/
def ofBits : Bool → Bool → Bool → Bool → QuickTileMode
  | false,false,false,false => QuickTileNone
  | true,true,true,true => QuickTileMaximize
  | left,right,top,bottom => tiled left right top bottom

def isLeft : QuickTileMode → Bool
  | QuickTileNone => false
  | QuickTileMaximize => true
  | tiled left _ _ _ => left

def isRight : QuickTileMode → Bool
  | QuickTileNone => false
  | QuickTileMaximize => true
  | tiled _ right _ _ => right

def isTop : QuickTileMode → Bool
  | QuickTileNone => false
  | QuickTileMaximize => true
  | tiled _ _ top _ => top

def isBottom : QuickTileMode → Bool
  | QuickTileNone => false
  | QuickTileMaximize => true
  | tiled _ _ _ bottom => bottom

/-- Opposite sides cancel each other. -/
def sanitize (mode : QuickTileMode) : QuickTileMode :=
  let horizontal := isLeft mode && isRight mode
  let vertical := isTop mode && isBottom mode
  ofBits (isLeft mode && !horizontal) (isRight mode && !horizontal) (isTop mode && !vertical) (isBottom mode && !vertical)

/-- `~mode & QuickTileHorizontal` -/
def swapSides (mode : QuickTileMode) : QuickTileMode := ofBits (!isLeft mode) (!isRight mode) false false

/-- A window with the mode that its outline shows. -/
structure Client extends Window where
  electricMode : QuickTileMode
deriving Repr, DecidableEq

inductive StrutArea
  | StrutAreaTop
  | StrutAreaRight
  | StrutAreaBottom
  | StrutAreaLeft
deriving Repr, DecidableEq

/-- The screens with the number of the one at a point, and the areas that are kept free for panels. -/
structure Screens extends Settings where
  screens : List QRect
  number : QPoint → Nat
  restrictedMoveArea : StrutArea → List QRect
  displayWidth : Int
  displayHeight : Int
  initializing : Bool

def Screens.geometry (s : Screens) (screen : Nat) : QRect := s.screens.getD screen ⟨0,0,-1,-1⟩

/-- `clientArea(ScreenArea, p, desktop)` -/
def Screens.screenArea (s : Screens) (p : QPoint) : QRect := s.geometry (s.number p)

/-- The part of the area that a tile of the mode takes. -/
def tileGeometry (mode : QuickTileMode) (area : QRect) : QRect :=
  let ret := area
  let ret :=
    if isLeft mode then ret.setRight (ret.left+ret.width.tdiv 2-1)
    else if isRight mode then ret.setLeft (ret.right-(ret.width-ret.width.tdiv 2)+1)
    else ret
  if isTop mode then ret.setBottom (ret.top+ret.height.tdiv 2-1)
  else if isBottom mode then ret.setTop (ret.bottom-(ret.height-ret.height.tdiv 2)+1)
  else ret

def electricBorderMaximizeGeometry (s : Screens) (c : Client) (pos : QPoint) : QRect :=
  if c.electricMode = QuickTileMaximize then
    if c.max_mode = MaximizeFull then c.geom_restore else s.maximizeArea pos
  else tileGeometry c.electricMode (s.maximizeArea pos)

def setElectricBorderMode (c : Client) (mode : QuickTileMode) : Client :=
  {c with electricMode := if mode ≠ QuickTileMaximize then sanitize mode else mode}

/-- How far the window may reach in each direction. -/
structure Bounds where
  top : Int
  right : Int
  bottom : Int
  left : Int
deriving Repr, DecidableEq

def intersected (r s : QRect) : QRect := ⟨max r.x1 s.x1,max r.y1 s.y1,min r.x2 s.x2,min r.y2 s.y2⟩

/-- The bounds of a screen less the struts beside the geometry. -/
def bounds (s : Screens) (screenArea geometry : QRect) : Bounds :=
  let tall := QRect.ofSize geometry.x 0 geometry.width s.displayHeight
  let wide := QRect.ofSize 0 geometry.y s.displayWidth geometry.height
  let parts (area : StrutArea) (strip : QRect) : List QRect :=
    ((s.restrictedMoveArea area).map (intersected · strip)).filter (·.isValid)
  { top := (parts .StrutAreaTop tall).foldl (fun bound r => max bound (r.y+r.height)) screenArea.y
    right := (parts .StrutAreaRight wide).foldl (fun bound r => min bound r.x) (screenArea.x+screenArea.width)
    bottom := (parts .StrutAreaBottom tall).foldl (fun bound r => min bound r.y) (screenArea.y+screenArea.height)
    left := (parts .StrutAreaLeft wide).foldl (fun bound r => max bound (r.x+r.width)) screenArea.x }

def checkOffscreenPosition (geom screenArea : QRect) : QRect :=
  let geom := if geom.x > screenArea.right then geom.moveLeft (screenArea.width-screenArea.width.tdiv 4) else geom
  if geom.y > screenArea.bottom then geom.moveBottom (screenArea.height-screenArea.height.tdiv 4) else geom

/-- The sides that were inside their bounds or touching them are moved so that they are again. -/
def keepInside (old : QRect) (oldMax newMax : Bounds) (screenArea geom : QRect) : QRect :=
  let geom :=
    if (old.y ≥ oldMax.top ∧ geom.y < newMax.top) ∨ (old.y = oldMax.top ∧ geom.y ≠ newMax.top) then
      geom.moveTop (max newMax.top screenArea.y)
    else geom
  let geom :=
    if (old.y+old.height ≤ oldMax.bottom ∧ geom.y+geom.height > newMax.bottom) ∨
        (old.y+old.height = oldMax.bottom ∧ geom.y+geom.height ≠ newMax.bottom) then
      let geom := geom.moveBottom (min (newMax.bottom-1) screenArea.bottom)
      if old.y ≥ oldMax.top ∧ geom.y < newMax.top then geom.setTop (max newMax.top screenArea.y) else geom
    else geom
  let geom :=
    if (old.x ≥ oldMax.left ∧ geom.x < newMax.left) ∨ (old.x = oldMax.left ∧ geom.x ≠ newMax.left) then
      geom.moveLeft (max newMax.left screenArea.x)
    else geom
  if (old.x+old.width ≤ oldMax.right ∧ geom.x+geom.width > newMax.right) ∨
      (old.x+old.width = oldMax.right ∧ geom.x+geom.width ≠ newMax.right) then
    let geom := geom.moveRight (min (newMax.right-1) screenArea.right)
    if old.x ≥ oldMax.left ∧ geom.x < newMax.left then geom.setLeft (max newMax.left screenArea.x) else geom
  else geom

/-- `checkWorkspacePosition()` of a normal window, while the client areas stay as they are. -/
def checkWorkspacePosition (s : Screens) (c : Client) : Client :=
  if c.max_mode ≠ MaximizeRestore then
    let w := changeMaximize s.toSettings 2 c.toWindow false false true
    {c with toWindow := {w with geometry := checkOffscreenPosition w.geometry (s.screenArea w.geometry.center)}}
  else if c.quick_tile_mode ≠ QuickTileNone then
    {c with geometry := electricBorderMaximizeGeometry s c c.geometry.center}
  else if s.initializing then c
  else
    let screenArea := s.screenArea c.geometry.center
    let oldMax := bounds s screenArea c.geometry
    let newMax := bounds s screenArea c.geom_restore
    let geom := keepInside c.geometry oldMax newMax screenArea c.geom_restore
    let geom := checkOffscreenPosition geom screenArea
    {c with geometry := geom.setSize (adjustedSize s.toSettings geom.size)}

/-- The request for `QuickTileMaximize` toggles. -/
def toggleMaximize (s : Screens) (c : Client) : Client :=
  let c := {c with quick_tile_mode := QuickTileNone}
  if c.max_mode = MaximizeFull then {c with toWindow := setMaximize s.toSettings c.toWindow false false}
  else
    let c := {c with toWindow := setMaximize s.toSettings c.toWindow true true}
    let clientArea := s.maximizeArea c.geometry.center
    let c := if c.geometry.top ≠ clientArea.top then {c with geometry := c.geometry.moveTop clientArea.top} else c
    {c with quick_tile_mode := QuickTileMaximize}

/-- A fully maximized window is restored, and tiled at once where a tile is asked for. -/
def tileMaximized (s : Screens) (c : Client) (mode : QuickTileMode) (keyboard : Bool) : Client :=
  let c := {c with toWindow := setMaximize s.toSettings c.toWindow false false}
  let c :=
    if mode ≠ QuickTileNone then
      {c with geometry := electricBorderMaximizeGeometry s c (if keyboard then c.geometry.center else s.cursorPos)}
    else c
  {c with quick_tile_mode := mode}

/-- The loop over the other screens: the nearest one on the side of the mode, or the current one. -/
def nextScreen (s : Screens) (mode : QuickTileMode) (curScreen : Nat) : Nat :=
  (List.range s.screens.length).foldl
    (fun next i =>
      if i = curScreen then next
      else if (s.geometry i).bottom ≤ (s.geometry curScreen).top ∨ (s.geometry i).top ≥ (s.geometry curScreen).bottom then
        next
      else
        let x := (s.geometry i).center.x
        if isLeft mode ∧ ¬isRight mode then
          if x ≥ (s.geometry curScreen).center.x ∨ (curScreen ≠ next ∧ x ≤ (s.geometry next).center.x) then next else i
        else if isRight mode ∧ ¬isLeft mode then
          if x ≤ (s.geometry curScreen).center.x ∨ (curScreen ≠ next ∧ x ≥ (s.geometry next).center.x) then next else i
        else i)
    curScreen

/-- A window that is not maximized gets a tile. The mode is the one that is set:
    none, where the window has this tile already and there is no screen beside its own. -/
def tile (s : Screens) (c : Client) (mode : QuickTileMode) (keyboard : Bool) : Client × QuickTileMode :=
  let whichScreen := if keyboard then c.geometry.center else s.cursorPos
  let (c,mode,whichScreen) : Client × QuickTileMode × QPoint :=
    if c.quick_tile_mode = mode then
      let curScreen := s.number c.geometry.center
      let nextScreen := nextScreen s mode curScreen
      if nextScreen = curScreen then (setElectricBorderMode c QuickTileNone,QuickTileNone,whichScreen)
      else
        let dx := (s.geometry nextScreen).x-(s.geometry curScreen).x
        let dy := (s.geometry nextScreen).y-(s.geometry curScreen).y
        let r := c.geom_restore
        let c := {c with geom_restore := ⟨r.x1+dx,r.y1+dy,r.x2+dx,r.y2+dy⟩}
        (setElectricBorderMode c (swapSides mode),swapSides mode,(s.geometry nextScreen).center)
    else if c.quick_tile_mode = QuickTileNone then ({c with geom_restore := c.geometry},mode,whichScreen)
    else (c,mode,whichScreen)
  let c := if mode ≠ QuickTileNone then {c with geometry := electricBorderMaximizeGeometry s c whichScreen} else c
  ({c with quick_tile_mode := mode},mode)

def untile (s : Screens) (c : Client) : Client :=
  let c := {c with quick_tile_mode := QuickTileNone}
  let c := if !c.geom_restore.isValid then {c with geom_restore := c.geometry} else c
  checkWorkspacePosition s {c with geometry := c.geom_restore}

def setQuickTileMode (s : Screens) (c : Client) (mode : QuickTileMode) (keyboard : Bool) : Client :=
  if !s.isResizable ∧ c.max_mode ≠ MaximizeFull then c
  else if mode = QuickTileMaximize then toggleMaximize s c
  else
    let mode := sanitize mode
    let c := setElectricBorderMode c mode
    if c.max_mode = MaximizeFull then tileMaximized s c mode keyboard
    else
      let (c,mode) := if mode ≠ QuickTileNone then tile s c mode keyboard else (c,mode)
      if mode = QuickTileNone then untile s c else c

theorem sanitize_ne_maximize (mode : QuickTileMode) : sanitize mode ≠ QuickTileMaximize := by
  rw [sanitize]
  cases isLeft mode <;> cases isRight mode <;> cases isTop mode <;> cases isBottom mode <;> decide

theorem sanitize_sanitize (mode : QuickTileMode) : sanitize (sanitize mode) = sanitize mode := by
  simp only [sanitize]
  cases isLeft mode <;> cases isRight mode <;> cases isTop mode <;> cases isBottom mode <;> decide

/-- The geometry keeps to the area of one screen, in which a maximized window
    fills the area and every tile has its centre. -/
structure SingleScreen (s : Screens) (area g : QRect) : Prop where
  hints : SatisfiesHints s.toSettings g
  keeps : KeepsToArea s.toSettings area g
  fills : fullGeometry s.toSettings area = area
  floating : s.maximizeArea g.center = area
  maximized : s.maximizeArea area.center = area
  tiles : ∀ mode, s.maximizeArea (tileGeometry mode area).center = area
  onScreen : g.x ≤ (s.screenArea g.center).right ∧ g.y ≤ (s.screenArea g.center).bottom

/-- The window that floats with geometry `g`, as it is in one of its modes. -/
inductive Phase (s : Screens) (area g : QRect) (c : Client) : Prop
  | floating (mode : c.max_mode = MaximizeRestore) (tile : c.quick_tile_mode = QuickTileNone) (geometry : c.geometry = g)
  | tiled (mode : c.max_mode = MaximizeRestore) (tile : c.quick_tile_mode ≠ QuickTileNone)
      (geometry : ∃ mode, c.geometry = tileGeometry mode area) (restore : c.geom_restore = g)
  | maximized (resizable : s.isResizable = true) (mode : c.max_mode = MaximizeFull) (geometry : c.geometry = area)
      (restore : c.geom_restore = g)

/-- A step does not lose the floating geometry: a tiled window is not maximized
    unless its tile is its floating geometry, no tile is asked for while the window
    floats with another geometry saved, and no tile moves on to another screen. -/
structure Careful (s : Screens) (c : Client) (mode : QuickTileMode) : Prop where
  saves : mode = QuickTileMaximize → c.max_mode ≠ MaximizeFull → c.quick_tile_mode ≠ QuickTileNone →
    c.geometry = c.geom_restore
  stale : mode ≠ QuickTileMaximize → sanitize mode = QuickTileNone → c.max_mode ≠ MaximizeFull →
    c.quick_tile_mode = QuickTileNone → c.geom_restore.isValid = true → c.geom_restore = c.geometry
  stays : c.max_mode ≠ MaximizeFull → c.quick_tile_mode ≠ QuickTileNone → c.quick_tile_mode = sanitize mode →
    nextScreen s c.quick_tile_mode (s.number c.geometry.center) = s.number c.geometry.center

/-- Size hints that ask for nothing but a least size. -/
structure NoHints (hints : Hints) (limit : Int) : Prop where
  increment : hints.increment = 1
  base : hints.base = 0
  maximum : limit ≤ hints.maximum

theorem NoHints.constrain {hints : Hints} {limit size : Int} (none : NoHints hints limit) (positive : 1 ≤ size)
    (least : hints.minimum ≤ size) (most : size ≤ limit) : hints.constrain size = size := by
  have upper := none.maximum
  have clamped : max hints.minimum (min hints.maximum size) = size := by omega
  simp only [Hints.constrain,Int.not_lt.mpr positive,↓reduceIte,clamped,none.increment,none.base,Int.tdiv_one]
  omega

theorem middle_between {a b : Int} (le : a ≤ b) : a ≤ (a+b).tdiv 2 ∧ (a+b).tdiv 2 ≤ b := by
  by_cases sign : 0 ≤ a+b
  · rw [Int.tdiv_eq_ediv_of_nonneg sign]
    omega
  · have negated : (a+b).tdiv 2 = -((-(a+b)).tdiv 2) := by rw [Int.neg_tdiv,Int.neg_neg]
    rw [negated,Int.tdiv_eq_ediv_of_nonneg (by omega)]
    omega

theorem setSize_size (r : QRect) : r.setSize r.size = r := by
  obtain ⟨x1,y1,x2,y2⟩ := r
  simp only [QRect.setSize,QRect.setWidth,QRect.setHeight,QRect.size,QRect.width,QRect.height,QRect.mk.injEq,true_and]
  omega

theorem singleScreen_of_one {s : Screens} {area screen g : QRect} (one : ∀ p, s.maximizeArea p = area)
    (screens : ∀ p, s.screenArea p = screen) (hints : SatisfiesHints s.toSettings g)
    (horizontal : NoHints s.horizontal area.width) (vertical : NoHints s.vertical area.height)
    (smallest : s.horizontal.minimum ≤ g.width-s.horizontal.border ∧ s.vertical.minimum ≤ g.height-s.vertical.border)
    (borders : 0 ≤ s.horizontal.border ∧ 0 ≤ s.vertical.border)
    (inside : area.x1 ≤ g.x1 ∧ g.x2 ≤ area.x2 ∧ area.y1 ≤ g.y1 ∧ g.y2 ≤ area.y2)
    (within : area.x2 ≤ screen.x2 ∧ area.y2 ≤ screen.y2) : SingleScreen s area g := by
  have valid := hints.valid
  have width := hints.width
  have height := hints.height
  simp only [QRect.isValid,decide_eq_true_eq] at valid
  have wide : g.width ≤ area.width := by simp only [QRect.width]; omega
  have high : g.height ≤ area.height := by simp only [QRect.height]; omega
  have full : adjustedSize s.toSettings area.size = area.size := by
    have h : s.horizontal.constrain (area.width-s.horizontal.border) = area.width-s.horizontal.border :=
      horizontal.constrain (by omega) (by omega) (by omega)
    have v : s.vertical.constrain (area.height-s.vertical.border) = area.height-s.vertical.border :=
      vertical.constrain (by omega) (by omega) (by omega)
    rw [QRect.size,adjustedSize_of_room (by omega) (by omega)]
    simp only [sizeForClientSize,h,v,QSize.mk.injEq]
    omega
  refine ⟨hints,⟨?_,by omega,by omega,fun mode => by simp only [one,ite_self]⟩,?_,one _,one _,fun _ => one _,?_⟩
  · have x := middle_between valid.1
    have y := middle_between valid.2
    refine decide_eq_true ?_
    simp only [QRect.center]
    omega
  · simp only [fullGeometry,full,setSize_size,ne_eq,not_true_eq_false,↓reduceIte]
  · rw [screens]
    simp only [QRect.x,QRect.y,QRect.right,QRect.bottom]
    omega

section
variable {s : Screens} {area g : QRect} (single : SingleScreen s area g)

theorem keepInside_self (geom screenArea : QRect) (limits : Bounds) : keepInside geom limits limits screenArea geom = geom := by
  unfold keepInside
  have apart (a b : Int) : ¬ ((a ≥ b ∧ a < b) ∨ (a = b ∧ a ≠ b)) := by omega
  have apart' (a b : Int) : ¬ ((a ≤ b ∧ a > b) ∨ (a = b ∧ a ≠ b)) := by omega
  simp only [apart,apart',↓reduceIte]

include single in
theorem checkWorkspacePosition_floating {c : Client} (mode : c.max_mode = MaximizeRestore)
    (tile : c.quick_tile_mode = QuickTileNone) (geometry : c.geometry = g) (restore : c.geom_restore = g) :
    checkWorkspacePosition s c = c := by
  have size : adjustedSize s.toSettings g.size = g.size := by
    rw [QRect.size,adjustedSize_of_room single.hints.width single.hints.height]
    exact single.hints.sizes
  have within : checkOffscreenPosition g (s.screenArea g.center) = g := by
    have h := single.onScreen
    simp only [checkOffscreenPosition,gt_iff_lt,Int.not_lt.mpr h.1,Int.not_lt.mpr h.2,↓reduceIte]
  have same := setSize_size g
  unfold checkWorkspacePosition
  simp only [mode,tile,ne_eq,not_true_eq_false,↓reduceIte,geometry,restore,keepInside_self,within,size,same]
  split
  · rfl
  · obtain ⟨⟨max_mode,quick_tile_mode,geometry',geom_restore⟩,electricMode⟩ := c
    simp only at mode tile geometry restore
    subst mode tile geometry restore
    rfl

include single in
theorem untile_floating {c : Client} (mode : c.max_mode = MaximizeRestore)
    (known : c.geom_restore = g ∨ c.geom_restore.isValid = false ∧ c.geometry = g) : Phase s area g (untile s c) := by
  have settled : untile s c =
      {c with quick_tile_mode := QuickTileNone, geom_restore := g, geometry := g} := by
    unfold untile
    rcases known with same | ⟨invalid,same⟩
    · have valid := single.hints.valid
      simp only [same,valid,Bool.not_true,Bool.false_eq_true,↓reduceIte]
      exact checkWorkspacePosition_floating single mode rfl rfl rfl
    · simp only [invalid,same,Bool.not_false,↓reduceIte]
      exact checkWorkspacePosition_floating single mode rfl rfl rfl
  rw [settled]
  exact .floating mode rfl rfl

include single in
theorem setMaximize_full (resizable : s.isResizable = true) {w : Window} (mode : w.max_mode = MaximizeRestore)
    (tile : w.quick_tile_mode = QuickTileNone) (geometry : w.geometry = g) :
    ∃ tile, setMaximize s.toSettings w true true = ⟨MaximizeFull,tile,area,g⟩ := by
  have tracked : Tracked s.toSettings area g w :=
    ⟨by rw [geometry,mode]; rfl,fun maximized => absurd mode maximized,fun _ => tile⟩
  obtain ⟨tile,done,_⟩ := changeMaximize_eq single.hints single.keeps tracked resizable 1
    true true MaximizeFull (by rw [mode]; rfl) (by rw [mode]; decide)
  refine ⟨tile,?_⟩
  rw [setMaximize,mode]
  exact done.trans (congrArg (Window.mk MaximizeFull tile · g) single.fills)

include single in
theorem setMaximize_restore (resizable : s.isResizable = true) {w : Window} (mode : w.max_mode = MaximizeFull)
    (geometry : w.geometry = area) (restore : w.geom_restore = g) :
    setMaximize s.toSettings w false false = ⟨MaximizeRestore,QuickTileNone,g,g⟩ := by
  have tracked : Tracked s.toSettings area g w := by
    refine ⟨?_,fun _ => restore,fun floating => ?_⟩
    · rw [geometry,mode]
      exact single.fills.symm
    · rw [mode] at floating
      exact nomatch floating
  obtain ⟨tile,done,untiled⟩ := changeMaximize_eq single.hints single.keeps tracked resizable 1
    true true MaximizeRestore (by rw [mode]; rfl) (by rw [mode]; decide)
  obtain rfl := untiled rfl
  rw [setMaximize,mode]
  exact done

include single in
theorem toggleMaximize_phase (resizable : s.isResizable = true) {c : Client} (phase : Phase s area g c)
    (saves : c.max_mode ≠ MaximizeFull → c.quick_tile_mode ≠ QuickTileNone → c.geometry = c.geom_restore) :
    Phase s area g (toggleMaximize s c) := by
  have maximizes (mode : c.max_mode = MaximizeRestore) (geometry : c.geometry = g) : Phase s area g (toggleMaximize s c) := by
    obtain ⟨tile,done⟩ := setMaximize_full single resizable
      (w := {c.toWindow with quick_tile_mode := QuickTileNone}) mode rfl geometry
    have differ : c.max_mode ≠ MaximizeFull := by rw [mode]; decide
    have same : toggleMaximize s c = {c with toWindow := ⟨MaximizeFull,QuickTileMaximize,area,g⟩} := by
      simp only [toggleMaximize,differ,↓reduceIte,done,single.maximized,ne_eq,not_true_eq_false]
    rw [same]
    exact .maximized resizable rfl rfl rfl
  cases phase with
  | floating mode tile geometry => exact maximizes mode geometry
  | tiled mode tile _ restore =>
    have same := saves (by rw [mode]; decide) tile
    exact maximizes mode (same.trans restore)
  | maximized _ mode geometry restore =>
    have done := setMaximize_restore single resizable
      (w := {c.toWindow with quick_tile_mode := QuickTileNone}) mode geometry restore
    have same : toggleMaximize s c = {c with toWindow := ⟨MaximizeRestore,QuickTileNone,g,g⟩} := by
      simp only [toggleMaximize]
      rw [if_pos mode,done]
    rw [same]
    exact .floating rfl rfl rfl

include single in
theorem tileMaximized_phase (resizable : s.isResizable = true) {c : Client} {mode : QuickTileMode}
    (full : c.max_mode = MaximizeFull) (geometry : c.geometry = area) (restore : c.geom_restore = g)
    (electric : c.electricMode = mode) (other : mode ≠ QuickTileMaximize) :
    Phase s area g (tileMaximized s c mode true) := by
  have done := setMaximize_restore single resizable full geometry restore
  by_cases none : mode = QuickTileNone
  · have same : tileMaximized s c mode true = {c with toWindow := ⟨MaximizeRestore,QuickTileNone,g,g⟩} := by
      simp [tileMaximized,none,done]
    rw [same]
    exact .floating rfl rfl rfl
  · have same : tileMaximized s c mode true = {c with toWindow := ⟨MaximizeRestore,mode,tileGeometry mode area,g⟩} := by
      simp [tileMaximized,none,done,electricBorderMaximizeGeometry,electric,other,single.floating]
    rw [same]
    exact .tiled rfl none ⟨mode,rfl⟩ rfl

theorem tile_other {c : Client} {mode : QuickTileMode} (floating : c.max_mode = MaximizeRestore)
    (differ : c.quick_tile_mode ≠ mode) (some : mode ≠ QuickTileNone) (electric : c.electricMode = mode)
    (other : mode ≠ QuickTileMaximize) (centre : s.maximizeArea c.geometry.center = area)
    (restore : c.quick_tile_mode ≠ QuickTileNone → c.geom_restore = g)
    (geometry : c.quick_tile_mode = QuickTileNone → c.geometry = g) :
    (tile s c mode true).2 = mode ∧ Phase s area g (tile s c mode true).1 := by
  by_cases none : c.quick_tile_mode = QuickTileNone
  · have same : tile s c mode true =
        ({c with quick_tile_mode := mode, geometry := tileGeometry mode area, geom_restore := c.geometry},mode) := by
      simp [tile,none,some,Ne.symm some,electricBorderMaximizeGeometry,electric,other,centre]
    rw [same]
    exact ⟨rfl,.tiled floating some ⟨mode,rfl⟩ (geometry none)⟩
  · have same : tile s c mode true =
        ({c with quick_tile_mode := mode, geometry := tileGeometry mode area},mode) := by
      simp [tile,differ,none,some,electricBorderMaximizeGeometry,electric,other,centre]
    rw [same]
    exact ⟨rfl,.tiled floating some ⟨mode,rfl⟩ (restore none)⟩

theorem tile_same {c : Client} {mode : QuickTileMode} (same : c.quick_tile_mode = mode)
    (stays : nextScreen s mode (s.number c.geometry.center) = s.number c.geometry.center) :
    tile s c mode true = ({c with quick_tile_mode := QuickTileNone, electricMode := QuickTileNone},QuickTileNone) := by
  simp [tile,same,stays,setElectricBorderMode]
  rfl

include single in
theorem setQuickTileMode_phase {c : Client} (phase : Phase s area g c) {mode : QuickTileMode} (careful : Careful s c mode) :
    Phase s area g (setQuickTileMode s c mode true) := by
  by_cases fixed : !s.isResizable ∧ c.max_mode ≠ MaximizeFull
  · rw [setQuickTileMode,if_pos fixed]
    exact phase
  have resizable : s.isResizable = true := by
    cases phase with
    | floating max_mode => simpa [max_mode,MaximizeRestore,MaximizeFull] using fixed
    | tiled max_mode => simpa [max_mode,MaximizeRestore,MaximizeFull] using fixed
    | maximized resizable => exact resizable
  by_cases maximize : mode = QuickTileMaximize
  · rw [setQuickTileMode,if_neg fixed,if_pos maximize]
    exact toggleMaximize_phase single resizable phase (careful.saves maximize)
  have other := sanitize_ne_maximize mode
  have electric : setElectricBorderMode c (sanitize mode) = {c with electricMode := sanitize mode} := by
    rw [setElectricBorderMode,if_pos other,sanitize_sanitize]
  simp only [setQuickTileMode,if_neg fixed,if_neg maximize,electric]
  cases phase with
  | maximized _ full geometry restore =>
    rw [if_pos full]
    exact tileMaximized_phase single resizable full geometry restore rfl other
  | floating restored tile geometry =>
    have small : c.max_mode ≠ MaximizeFull := by rw [restored]; decide
    rw [if_neg small]
    by_cases none : sanitize mode = QuickTileNone
    · simp only [none,ne_eq,not_true_eq_false,↓reduceIte]
      refine untile_floating single restored ?_
      cases valid : c.geom_restore.isValid with
      | true => exact .inl ((careful.stale maximize none small tile valid).trans geometry)
      | false => exact .inr ⟨rfl,geometry⟩
    · have differ : c.quick_tile_mode ≠ sanitize mode := fun same => none (same.symm.trans tile)
      have centre : s.maximizeArea c.geometry.center = area := geometry ▸ single.floating
      obtain ⟨set,phase⟩ := tile_other (c := {c with electricMode := sanitize mode})
        restored differ none rfl other centre (fun some => absurd tile some) (fun _ => geometry)
      simp only [none,ne_eq,not_false_eq_true,↓reduceIte]
      rw [set,if_neg none]
      exact phase
  | tiled restored tile geometry restore =>
    have small : c.max_mode ≠ MaximizeFull := by rw [restored]; decide
    rw [if_neg small]
    by_cases none : sanitize mode = QuickTileNone
    · simp only [none,ne_eq,not_true_eq_false,↓reduceIte]
      exact untile_floating single restored (.inl restore)
    · simp only [none,ne_eq,not_false_eq_true,↓reduceIte]
      by_cases same : c.quick_tile_mode = sanitize mode
      · have stays := careful.stays small tile same
        rw [tile_same (c := {c with electricMode := sanitize mode}) same (same ▸ stays),if_pos rfl]
        exact untile_floating single restored (.inl restore)
      · obtain ⟨place,at_place⟩ := geometry
        have centre : s.maximizeArea c.geometry.center = area := at_place ▸ single.tiles place
        obtain ⟨set,phase⟩ := tile_other (c := {c with electricMode := sanitize mode})
          restored same none rfl other centre (fun _ => restore) (fun untiled => absurd untiled tile)
        rw [set,if_neg none]
        exact phase

end

/-- The window after a sequence of requests from the keyboard. -/
def requested (s : Screens) (c : Client) (requests : List QuickTileMode) : Client :=
  requests.foldl (fun c mode => setQuickTileMode s c mode true) c

/-- Every request of the sequence is careful in the state it is made in. -/
def AllCareful (s : Screens) : Client → List QuickTileMode → Prop
  | _,[] => True
  | c,mode :: requests => Careful s c mode ∧ AllCareful s (setQuickTileMode s c mode true) requests

theorem requested_phase {s : Screens} {area g : QRect} (single : SingleScreen s area g) {c : Client}
    (phase : Phase s area g c) {requests : List QuickTileMode} (careful : AllCareful s c requests) :
    Phase s area g (requested s c requests) := by
  induction requests generalizing c with
  | nil => exact phase
  | cons mode requests ih => exact ih (setQuickTileMode_phase single phase careful.1) careful.2

/-- After careful requests, a window that floats again has its geometry back. -/
theorem run_restores {s : Screens} {area : QRect} {c : Client} (floating : c.max_mode = MaximizeRestore)
    (untiled : c.quick_tile_mode = QuickTileNone) (single : SingleScreen s area c.geometry) {requests : List QuickTileMode}
    (careful : AllCareful s c requests) (restored : (requested s c requests).max_mode = MaximizeRestore)
    (untiled_again : (requested s c requests).quick_tile_mode = QuickTileNone) :
    (requested s c requests).geometry = c.geometry := by
  cases requested_phase single (.floating floating untiled rfl) careful with
  | floating _ _ geometry => exact geometry
  | tiled _ tile => exact absurd untiled_again tile
  | maximized _ full =>
    rw [restored] at full
    exact nomatch full

/-- A screen of 200 by 100 pixels with a panel of 10 at the top, for windows without hints. -/
def panelScreen : Screens where
  horizontal := ⟨2,1000,1,0,2⟩
  vertical := ⟨2,1000,1,0,6⟩
  isResizable := true
  maximizeArea := fun _ => ⟨0,10,199,99⟩
  isElectricBorderMaximizing := false
  cursorPos := ⟨0,0⟩
  electricBorderMaximize := true
  placeSmart := fun _ w => w
  place := placeZeroCornered
  screens := [⟨0,0,199,99⟩]
  number := fun _ => 0
  restrictedMoveArea := fun
    | .StrutAreaTop => [⟨0,0,199,9⟩]
    | _ => []
  displayWidth := 200
  displayHeight := 100
  initializing := false

/-- A window that floats and has no saved geometry yet. -/
def freshWindow : Client := ⟨⟨MaximizeRestore,QuickTileNone,⟨20,30,79,69⟩,⟨0,0,-1,-1⟩⟩,QuickTileNone⟩

def QuickTileLeft : QuickTileMode := tiled true false false false
def QuickTileTopRight : QuickTileMode := tiled false true true false

theorem panelScreen_screens (p : QPoint) : panelScreen.screenArea p = ⟨0,0,199,99⟩ := rfl

theorem run_restores_panel :
    (requested panelScreen freshWindow
      [QuickTileMaximize,QuickTileLeft,QuickTileTopRight,QuickTileTopRight,QuickTileLeft,QuickTileNone]).geometry =
      freshWindow.geometry := by
  have single : SingleScreen panelScreen ⟨0,10,199,99⟩ freshWindow.geometry :=
    singleScreen_of_one (fun _ => rfl) panelScreen_screens ⟨by decide,by decide,by decide,by decide⟩
      ⟨rfl,rfl,by decide⟩ ⟨rfl,rfl,by decide⟩ (by decide) (by decide) (by decide) (by decide)
  refine run_restores rfl rfl single ?_ (by decide) (by decide)
  refine ⟨⟨?_,?_,?_⟩,⟨?_,?_,?_⟩,⟨?_,?_,?_⟩,⟨?_,?_,?_⟩,⟨?_,?_,?_⟩,⟨?_,?_,?_⟩,trivial⟩
  all_goals decide

/-- A tiled window that is maximized and restored keeps the geometry of its tile. -/
theorem maximize_tiled_loses :
    ¬ ∀ (s : Screens) (area : QRect) (c : Client) (requests : List QuickTileMode),
      SingleScreen s area c.geometry → c.max_mode = MaximizeRestore → c.quick_tile_mode = QuickTileNone →
      (requested s c requests).max_mode = MaximizeRestore → (requested s c requests).quick_tile_mode = QuickTileNone →
      (requested s c requests).geometry = c.geometry := by
  intro claim
  have single : SingleScreen panelScreen ⟨0,10,199,99⟩ freshWindow.geometry :=
    singleScreen_of_one (fun _ => rfl) panelScreen_screens ⟨by decide,by decide,by decide,by decide⟩
      ⟨rfl,rfl,by decide⟩ ⟨rfl,rfl,by decide⟩ (by decide) (by decide) (by decide) (by decide)
  have lost := claim panelScreen _ freshWindow [QuickTileLeft,QuickTileMaximize,QuickTileMaximize] single rfl rfl (by decide)
    (by decide)
  exact absurd lost (by decide)

end KdeWorkspace.QuickTile
