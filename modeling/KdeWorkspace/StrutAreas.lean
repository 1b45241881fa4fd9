import KdeWorkspace.RectOperations

/-!
The areas that `updateClientArea` leaves beside the struts of panels.

A strut is described twice: as the rectangles that windows stay out of
(`strutRects`, exclusive at the end), and as the cuts that `adjustedClientArea`
makes (inclusive, and limited to the screen of the panel). The cuts take every
strut point of the panel's screen out, unless they cross: a panel with struts at
opposite sides that overlap, or with one that reaches past the other side of the
screen, has an area whose sides are crossed, and cutting with it leaves the strut
points between these sides, where no other panel cuts them out
(`screenArea_clear_iff`).
-/
namespace KdeWorkspace.StrutAreas
open KdeWorkspace.Geometry RectOperations List

/-- One side of an extended strut: its width, and where it starts and ends along the edge. -/
structure StrutSide where
  width : Int
  start : Int
  stop : Int
deriving Repr, DecidableEq

structure NETExtendedStrut where
  left : StrutSide
  right : StrutSide
  top : StrutSide
  bottom : StrutSide
deriving Repr, DecidableEq

structure NETStrut where
  left : Int
  right : Int
  top : Int
  bottom : Int
deriving Repr, DecidableEq

inductive StrutArea where
  | StrutAreaTop
  | StrutAreaRight
  | StrutAreaBottom
  | StrutAreaLeft
deriving Repr, DecidableEq
open StrutArea

/-- A client by its struts, its desktops, and the number of the screen that it is on. -/
structure Client where
  extendedStrut : NETExtendedStrut
  netStrut : NETStrut
  isOnAllDesktops : Bool
  desktop : Nat
  screen : Nat
deriving Repr, DecidableEq

def Client.isOnDesktop (c : Client) (d : Nat) : Bool := c.isOnAllDesktops || c.desktop == d

structure Display where
  screens : List QRect
  displayWidth : Int
  displayHeight : Int
deriving Repr, DecidableEq

namespace Display
variable (display : Display)

def geometry (screen : Nat) : QRect := display.screens.getD screen nullRect

/-- `QRect(0, 0, displayWidth(), displayHeight())` -/
def whole : QRect := QRect.ofSize 0 0 display.displayWidth display.displayHeight

def desktopArea : QRect := display.screens.foldl united nullRect

/-- The extended strut, built from the simple one if there is only that. -/
def strut (c : Client) : NETExtendedStrut :=
  let ext := c.extendedStrut
  let str := c.netStrut
  if (ext.left.width = 0 ∧ ext.right.width = 0 ∧ ext.top.width = 0 ∧ ext.bottom.width = 0) ∧
      (str.left ≠ 0 ∨ str.right ≠ 0 ∨ str.top ≠ 0 ∨ str.bottom ≠ 0) then
    { left := if str.left ≠ 0 then ⟨str.left,0,display.displayHeight⟩ else ext.left
      right := if str.right ≠ 0 then ⟨str.right,0,display.displayHeight⟩ else ext.right
      top := if str.top ≠ 0 then ⟨str.top,0,display.displayWidth⟩ else ext.top
      bottom := if str.bottom ≠ 0 then ⟨str.bottom,0,display.displayWidth⟩ else ext.bottom }
  else ext

def strutRect (c : Client) (area : StrutArea) : QRect :=
  let str := display.strut c
  match area with
  | StrutAreaTop =>
    if str.top.width ≠ 0 then QRect.ofSize str.top.start 0 (str.top.stop-str.top.start) str.top.width else nullRect
  | StrutAreaRight =>
    if str.right.width ≠ 0 then
      QRect.ofSize (display.displayWidth-str.right.width) str.right.start str.right.width (str.right.stop-str.right.start)
    else nullRect
  | StrutAreaBottom =>
    if str.bottom.width ≠ 0 then
      QRect.ofSize str.bottom.start (display.displayHeight-str.bottom.width) (str.bottom.stop-str.bottom.start)
        str.bottom.width
    else nullRect
  | StrutAreaLeft =>
    if str.left.width ≠ 0 then QRect.ofSize 0 str.left.start str.left.width (str.left.stop-str.left.start) else nullRect

def strutRects (c : Client) : List (QRect × StrutArea) :=
  [StrutAreaTop,StrutAreaRight,StrutAreaBottom,StrutAreaLeft].map fun area => (display.strutRect c area,area)

def hasStrut (c : Client) : Bool :=
  let ext := display.strut c
  !decide (ext.left.width = 0 ∧ ext.right.width = 0 ∧ ext.top.width = 0 ∧ ext.bottom.width = 0)

/-- The points of a rectangle, row by row. -/
def points (r : QRect) : List QPoint :=
  (List.range r.height.toNat).flatMap fun (j : Nat) => (List.range r.width.toNat).map fun (i : Nat) => ⟨r.x1+i,r.y1+j⟩

/-- Some strut point is on no screen. -/
def hasOffscreenXineramaStrut (c : Client) : Bool :=
  (display.strutRects c).any fun strut => (points strut.1).any fun p => display.screens.all fun r => !r.contains p

/-! The strip of each side, limited to the screen of the client. For the whole display, which is not
aware of screens, a strip at an edge between screens is dropped first. -/

def stareaL (c : Client) (area : QRect) : QRect :=
  let str := display.strut c
  let screenarea := display.geometry c.screen
  let strip := QRect.ofSize 0 str.left.start str.left.width (str.left.stop-str.left.start+1)
  let strip := if area = display.whole ∧ strip.left < screenarea.left then nullRect else strip
  strip.setLeft (max strip.left screenarea.left)

def stareaR (c : Client) (desktopArea area : QRect) : QRect :=
  let str := display.strut c
  let screenarea := display.geometry c.screen
  let strip := QRect.ofSize (desktopArea.right-str.right.width+1) str.right.start str.right.width
    (str.right.stop-str.right.start+1)
  let strip := if area = display.whole ∧ strip.right > screenarea.right then nullRect else strip
  strip.setRight (min strip.right screenarea.right)

def stareaT (c : Client) (area : QRect) : QRect :=
  let str := display.strut c
  let screenarea := display.geometry c.screen
  let strip := QRect.ofSize str.top.start 0 (str.top.stop-str.top.start+1) str.top.width
  let strip := if area = display.whole ∧ strip.top < screenarea.top then nullRect else strip
  strip.setTop (max strip.top screenarea.top)

/-- The strip at the bottom is dropped when it ends above the bottom of the screen. -/
def stareaB (c : Client) (desktopArea area : QRect) : QRect :=
  let str := display.strut c
  let screenarea := display.geometry c.screen
  let strip := QRect.ofSize str.bottom.start (desktopArea.bottom-str.bottom.width+1) (str.bottom.stop-str.bottom.start+1)
    str.bottom.width
  let strip := if area = display.whole ∧ strip.bottom < screenarea.bottom then nullRect else strip
  strip.setBottom (min strip.bottom screenarea.bottom)

def adjustedClientArea (c : Client) (desktopArea area : QRect) : QRect :=
  let r := area
  let stareaL := display.stareaL c area
  let stareaR := display.stareaR c desktopArea area
  let stareaT := display.stareaT c area
  let stareaB := display.stareaB c desktopArea area
  let r := if intersects stareaL area then r.setLeft (stareaL.right+1) else r
  let r := if intersects stareaR area then r.setRight (stareaR.left-1) else r
  let r := if intersects stareaT area then r.setTop (stareaT.bottom+1) else r
  if intersects stareaB area then r.setBottom (stareaB.top-1) else r

end Display

/-- The areas of the workspace: for each desktop the work area, the rectangles that windows stay
    out of, and the area of each screen. -/
structure Areas where
  workarea : Nat → QRect
  restrictedmovearea : Nat → List (QRect × StrutArea)
  screenarea : Nat → List QRect

def Areas.ofScreen (areas : Areas) (d s : Nat) : QRect := (areas.screenarea d).getD s nullRect

namespace Display
variable (display : Display)

/-- The areas before any strut. -/
def fullAreas : Areas := ⟨fun _ => display.desktopArea,fun _ => [],fun _ => display.screens⟩

/-- What one client takes from the areas of its desktops. -/
def cutAreas (areas : Areas) (c : Client) : Areas :=
  if !display.hasStrut c then areas
  else
    let desktopArea := display.desktopArea
    { workarea := fun i =>
        if c.isOnDesktop i ∧ !display.hasOffscreenXineramaStrut c then
          intersected (areas.workarea i) (display.adjustedClientArea c desktopArea desktopArea)
        else areas.workarea i
      restrictedmovearea := fun i =>
        if c.isOnDesktop i then areas.restrictedmovearea i++display.strutRects c else areas.restrictedmovearea i
      screenarea := fun i =>
        if c.isOnDesktop i then
          (areas.screenarea i).zipWith (fun area screen => intersected area (display.adjustedClientArea c desktopArea screen))
            display.screens
        else areas.screenarea i }

def newAreas (clients : List Client) : Areas := clients.foldl display.cutAreas display.fullAreas

/-- `updateClientArea(force)`: the areas of the desktops from 1 on are replaced unless they are the same. There
    are none before the first time. -/
def updateClientArea (numberOfDesktops : Nat) (clients : List Client) (areas : Option Areas) (force : Bool) : Option Areas :=
  let new := display.newAreas clients
  match areas with
  | none => some new
  | some old =>
    let changed := force || (List.range' 1 numberOfDesktops).any fun i =>
      decide (old.workarea i ≠ new.workarea i ∨ old.restrictedmovearea i ≠ new.restrictedmovearea i ∨
        old.screenarea i ≠ new.screenarea i)
    if changed then some new else some old

/-- The screens are disjoint and tile the display. -/
structure Tiled : Prop where
  valid : ∀ r ∈ display.screens, r.isValid = true
  disjoint : display.screens.Pairwise fun r s => ∀ p, ¬ (r.contains p = true ∧ s.contains p = true)
  tiles : ∀ p, (∃ r ∈ display.screens, r.contains p = true) ↔ display.whole.contains p = true

variable {display} {c : Client} {s : Nat} {p : QPoint}

theorem geometry_mem (bound : s < display.screens.length) : display.geometry s ∈ display.screens := by
  rw [geometry,getD_eq_getElem?_getD,getElem?_eq_getElem bound,Option.getD_some]
  exact getElem_mem bound

theorem desktopArea_eq (tiled : display.Tiled) (bound : s < display.screens.length) : display.desktopArea = display.whole := by
  have inside (r : QRect) (member : r ∈ display.screens) : Within r display.whole := by
    have sides := of_decide_eq_true (tiled.valid r member)
    have first := (tiled.tiles ⟨r.x1,r.y1⟩).mp ⟨r,member,contains_iff.mpr (by simp only; omega)⟩
    have last := (tiled.tiles ⟨r.x2,r.y2⟩).mp ⟨r,member,contains_iff.mpr (by simp only; omega)⟩
    rw [contains_iff] at first last
    simp only [Within]
    simp only at first last
    omega
  have corner (x y : Int) (columns : 0 ≤ x ∧ x < display.displayWidth) (rows : 0 ≤ y ∧ y < display.displayHeight) :
      ∃ r ∈ display.screens, r.contains ⟨x,y⟩ = true := by
    refine (tiled.tiles ⟨x,y⟩).mpr (contains_iff.mpr ?_)
    simp only [whole,QRect.ofSize]
    omega
  have some := inside _ (geometry_mem bound)
  have sides := of_decide_eq_true (tiled.valid _ (geometry_mem bound))
  simp only [Within,whole,QRect.ofSize] at some
  refine foldl_united_eq tiled.valid inside (corner _ _ ?_ ?_) (corner _ _ ?_ ?_) <;> simp only [whole,QRect.ofSize] <;> omega

/-! The sides of an adjusted area. Each is set by its own strip only. -/

theorem adjustedClientArea_left (display : Display) (c : Client) (desktopArea area : QRect) :
    (display.adjustedClientArea c desktopArea area).x1 =
      if intersects (display.stareaL c area) area then (display.stareaL c area).right+1 else area.x1 := by
  simp only [adjustedClientArea]
  split <;> split <;> split <;> split <;> rfl

theorem adjustedClientArea_right (display : Display) (c : Client) (desktopArea area : QRect) :
    (display.adjustedClientArea c desktopArea area).x2 =
      if intersects (display.stareaR c desktopArea area) area then (display.stareaR c desktopArea area).left-1 else area.x2 := by
  simp only [adjustedClientArea]
  split <;> split <;> split <;> split <;> rfl

theorem adjustedClientArea_top (display : Display) (c : Client) (desktopArea area : QRect) :
    (display.adjustedClientArea c desktopArea area).y1 =
      if intersects (display.stareaT c area) area then (display.stareaT c area).bottom+1 else area.y1 := by
  simp only [adjustedClientArea]
  split <;> split <;> split <;> split <;> rfl

theorem adjustedClientArea_bottom (display : Display) (c : Client) (desktopArea area : QRect) :
    (display.adjustedClientArea c desktopArea area).y2 =
      if intersects (display.stareaB c desktopArea area) area then (display.stareaB c desktopArea area).top-1 else area.y2 := by
  simp only [adjustedClientArea]
  split <;> split <;> split <;> split <;> rfl

/-! The strips on the screen of the client itself. The strip of a client that has the whole display as its
    screen is not dropped: it reaches the edge. -/

theorem stareaL_own (c : Client) :
    display.stareaL c (display.geometry c.screen) =
      ⟨max 0 (display.geometry c.screen).x1,(display.strut c).left.start,0+(display.strut c).left.width-1,
        (display.strut c).left.start+((display.strut c).left.stop-(display.strut c).left.start+1)-1⟩ := by
  simp only [stareaL]
  rw [if_neg]
  · rfl
  · rintro ⟨all,beyond⟩
    rw [all] at beyond
    simp only [whole,QRect.ofSize,QRect.left] at beyond
    omega

theorem stareaT_own (c : Client) :
    display.stareaT c (display.geometry c.screen) =
      ⟨(display.strut c).top.start,max 0 (display.geometry c.screen).y1,
        (display.strut c).top.start+((display.strut c).top.stop-(display.strut c).top.start+1)-1,
        0+(display.strut c).top.width-1⟩ := by
  simp only [stareaT]
  rw [if_neg]
  · rfl
  · rintro ⟨all,beyond⟩
    rw [all] at beyond
    simp only [whole,QRect.ofSize,QRect.top] at beyond
    omega

theorem stareaR_own (c : Client) :
    display.stareaR c display.whole (display.geometry c.screen) =
      ⟨display.whole.x2-(display.strut c).right.width+1,(display.strut c).right.start,
        min (display.whole.x2-(display.strut c).right.width+1+(display.strut c).right.width-1) (display.geometry c.screen).x2,
        (display.strut c).right.start+((display.strut c).right.stop-(display.strut c).right.start+1)-1⟩ := by
  simp only [stareaR]
  rw [if_neg]
  · rfl
  · rintro ⟨all,beyond⟩
    rw [all] at beyond
    simp only [QRect.ofSize,QRect.right] at beyond
    omega

theorem stareaB_own (c : Client) :
    display.stareaB c display.whole (display.geometry c.screen) =
      ⟨(display.strut c).bottom.start,display.whole.y2-(display.strut c).bottom.width+1,
        (display.strut c).bottom.start+((display.strut c).bottom.stop-(display.strut c).bottom.start+1)-1,
        min (display.whole.y2-(display.strut c).bottom.width+1+(display.strut c).bottom.width-1)
          (display.geometry c.screen).y2⟩ := by
  simp only [stareaB]
  rw [if_neg]
  · rfl
  · rintro ⟨all,beyond⟩
    rw [all] at beyond
    simp only [QRect.ofSize,QRect.bottom] at beyond
    omega

theorem strutRect_cut (own : c.screen = s) (area : StrutArea) (strut : (display.strutRect c area).contains p = true)
    (inside : (display.geometry s).contains p = true) :
    ¬ (display.adjustedClientArea c display.whole (display.geometry s)).contains p = true := by
  subst own
  have screen := contains_iff.mp inside
  intro kept
  rw [contains_iff] at kept
  unfold strutRect at strut
  cases area with
  | StrutAreaLeft =>
    simp only at strut
    split at strut
    · rw [contains_iff] at strut
      simp only [QRect.ofSize] at strut
      have reached : (display.stareaL c (display.geometry c.screen)).contains p = true := by
        rw [stareaL_own,contains_iff]
        simp only
        omega
      have left := display.adjustedClientArea_left c display.whole (display.geometry c.screen)
      rw [if_pos (intersects_of_common reached inside),stareaL_own] at left
      simp only [QRect.right] at left
      omega
    · exact nullRect_contains p strut
  | StrutAreaRight =>
    simp only at strut
    split at strut
    · rw [contains_iff] at strut
      simp only [QRect.ofSize] at strut
      have edge : display.whole.x2 = 0+display.displayWidth-1 := rfl
      have reached : (display.stareaR c display.whole (display.geometry c.screen)).contains p = true := by
        rw [stareaR_own,contains_iff]
        simp only
        omega
      have right := display.adjustedClientArea_right c display.whole (display.geometry c.screen)
      rw [if_pos (intersects_of_common reached inside),stareaR_own] at right
      simp only [QRect.left] at right
      omega
    · exact nullRect_contains p strut
  | StrutAreaTop =>
    simp only at strut
    split at strut
    · rw [contains_iff] at strut
      simp only [QRect.ofSize] at strut
      have reached : (display.stareaT c (display.geometry c.screen)).contains p = true := by
        rw [stareaT_own,contains_iff]
        simp only
        omega
      have top := display.adjustedClientArea_top c display.whole (display.geometry c.screen)
      rw [if_pos (intersects_of_common reached inside),stareaT_own] at top
      simp only [QRect.bottom] at top
      omega
    · exact nullRect_contains p strut
  | StrutAreaBottom =>
    simp only at strut
    split at strut
    · rw [contains_iff] at strut
      simp only [QRect.ofSize] at strut
      have edge : display.whole.y2 = 0+display.displayHeight-1 := rfl
      have reached : (display.stareaB c display.whole (display.geometry c.screen)).contains p = true := by
        rw [stareaB_own,contains_iff]
        simp only
        omega
      have bottom := display.adjustedClientArea_bottom c display.whole (display.geometry c.screen)
      rw [if_pos (intersects_of_common reached inside),stareaB_own] at bottom
      simp only [QRect.top] at bottom
      omega
    · exact nullRect_contains p strut

/-- The client takes space from the areas of the desktop. -/
def reserves (display : Display) (d : Nat) (c : Client) : Bool := display.hasStrut c && c.isOnDesktop d

/-- No strut point of a panel of the screen is in the area. -/
def Clear (display : Display) (clients : List Client) (d s : Nat) (area : QRect) : Prop :=
  ∀ c ∈ clients, display.reserves d c = true → c.screen = s →
    ∀ strut ∈ display.strutRects c, ∀ p, strut.1.contains p = true → ¬ area.contains p = true

/-- Where the cuts of a panel cross on its screen, some panel cuts out each of its strut points. -/
def CrossedCovered (display : Display) (clients : List Client) (d s : Nat) : Prop :=
  ∀ c ∈ clients, display.reserves d c = true → c.screen = s →
    Crossed (display.adjustedClientArea c display.desktopArea (display.geometry s)) →
    ∀ strut ∈ display.strutRects c, ∀ p, strut.1.contains p = true → (display.geometry s).contains p = true →
      ∃ c' ∈ clients, display.reserves d c' = true ∧
        ¬ (normalized (display.adjustedClientArea c' display.desktopArea (display.geometry s))).contains p = true

variable {d : Nat}

theorem cutAreas_screenarea (display : Display) (areas : Areas) (c : Client) (d : Nat) :
    (display.cutAreas areas c).screenarea d =
      if display.reserves d c then
        (areas.screenarea d).zipWith
          (fun area screen => intersected area (display.adjustedClientArea c display.desktopArea screen)) display.screens
      else areas.screenarea d := by
  unfold cutAreas reserves
  cases display.hasStrut c with
  | false => rfl
  | true => rfl

theorem cutAreas_ofScreen {areas : Areas} (c : Client) (same : (areas.screenarea d).length = display.screens.length)
    (bound : s < display.screens.length) :
    (display.cutAreas areas c).ofScreen d s =
      if display.reserves d c then
        intersected (areas.ofScreen d s) (display.adjustedClientArea c display.desktopArea (display.geometry s))
      else areas.ofScreen d s := by
  unfold Areas.ofScreen geometry
  rw [cutAreas_screenarea]
  split
  · rw [getD_eq_getElem?_getD,getD_eq_getElem?_getD,getD_eq_getElem?_getD,getElem?_zipWith,
      getElem?_eq_getElem (same ▸ bound),getElem?_eq_getElem bound]
    rfl
  · rfl

theorem cutAreas_length {areas : Areas} (c : Client) (same : (areas.screenarea d).length = display.screens.length) :
    ((display.cutAreas areas c).screenarea d).length = display.screens.length := by
  rw [cutAreas_screenarea]
  split
  · rw [length_zipWith,same,Nat.min_self]
  · exact same

theorem foldl_cutAreas_ofScreen (areas : Areas) (clients : List Client)
    (same : (areas.screenarea d).length = display.screens.length) (bound : s < display.screens.length) :
    (clients.foldl display.cutAreas areas).ofScreen d s =
      (clients.filter (display.reserves d)).foldl (fun (area : QRect) (c : Client) =>
        intersected area (display.adjustedClientArea c display.desktopArea (display.geometry s))) (areas.ofScreen d s) := by
  induction clients generalizing areas with
  | nil => rfl
  | cons c rest ih =>
    rw [foldl_cons,ih _ (cutAreas_length c same),cutAreas_ofScreen c same bound,filter_cons]
    cases display.reserves d c with
    | true => rfl
    | false => rfl

theorem newAreas_ofScreen_contains (tiled : display.Tiled) (clients : List Client) (bound : s < display.screens.length)
    (p : QPoint) :
    ((display.newAreas clients).ofScreen d s).contains p = true ↔
      (display.geometry s).contains p = true ∧ ∀ c ∈ clients, display.reserves d c = true →
        (normalized (display.adjustedClientArea c display.desktopArea (display.geometry s))).contains p = true := by
  have straight := normalized_of_valid (tiled.valid _ (geometry_mem bound))
  have folded := foldl_cutAreas_ofScreen (d := d) display.fullAreas clients rfl bound
  have start : display.fullAreas.ofScreen d s = display.geometry s := rfl
  rw [newAreas,folded,start,← normalized_foldl_intersected _ _ straight,contains_foldl_intersected,straight]
  simp only [mem_filter,and_imp]

theorem updateClientArea_new (display : Display) (numberOfDesktops : Nat) (clients : List Client) (areas : Option Areas)
    (force : Bool) : ∃ after, display.updateClientArea numberOfDesktops clients areas force = some after ∧
      ∀ d, 1 ≤ d → d ≤ numberOfDesktops → after.screenarea d = (display.newAreas clients).screenarea d := by
  cases areas with
  | none => exact ⟨_,rfl,fun _ _ _ => rfl⟩
  | some old =>
    simp only [updateClientArea]
    split
    · exact ⟨_,rfl,fun _ _ _ => rfl⟩
    · rename_i unchanged
      refine ⟨_,rfl,fun d first last => ?_⟩
      by_contra differs
      refine unchanged (Bool.or_eq_true_iff.mpr (.inr (any_eq_true.mpr ⟨d,?_,decide_eq_true (.inr (.inr differs))⟩)))
      exact mem_range'_1.mpr ⟨first,by omega⟩

/-- Every strut point of the screen's panels is out of the area of the screen just when the cuts that cross
    leave none. -/
theorem screenArea_clear_iff (tiled : display.Tiled) (numberOfDesktops : Nat) (clients : List Client)
    (areas : Option Areas) (force : Bool) (first : 1 ≤ d) (last : d ≤ numberOfDesktops)
    (bound : s < display.screens.length) :
    ∃ after, display.updateClientArea numberOfDesktops clients areas force = some after ∧
      (display.Clear clients d s (after.ofScreen d s) ↔ display.CrossedCovered clients d s) := by
  obtain ⟨after,updated,same⟩ := updateClientArea_new display numberOfDesktops clients areas force
  have area : after.ofScreen d s = (display.newAreas clients).ofScreen d s :=
    congrArg (fun list : List QRect => list.getD s nullRect) (same d first last)
  refine ⟨after,updated,?_⟩
  rw [area]
  constructor
  · intro clear c member reserved own _ strut listed p point inside
    by_contra uncut
    refine clear c member reserved own strut listed p point ((newAreas_ofScreen_contains tiled clients bound p).mpr ⟨inside,?_⟩)
    intro c' member' reserved'
    by_contra cut
    exact uncut ⟨c',member',reserved',cut⟩
  · intro covered c member reserved own strut listed p point contained
    obtain ⟨inside,kept⟩ := (newAreas_ofScreen_contains tiled clients bound p).mp contained
    by_cases crossed : Crossed (display.adjustedClientArea c display.desktopArea (display.geometry s))
    · obtain ⟨c',member',reserved',cut⟩ := covered c member reserved own crossed strut listed p point inside
      exact cut (kept c' member' reserved')
    -- An area that is not crossed is normal, and the strip of the strut is beyond its side.
    · have held := kept c member reserved
      rw [normalized_of_not_crossed crossed,desktopArea_eq tiled bound] at held
      obtain ⟨side,_,rfl⟩ := mem_map.mp listed
      exact strutRect_cut own side point inside held

/-- A display with one screen of 100 columns and 100 rows. -/
def oneScreen : Display := ⟨[⟨0,0,99,99⟩],100,100⟩

theorem oneScreen_tiled : oneScreen.Tiled where
  valid := by decide
  disjoint := pairwise_singleton _ _
  tiles := by
    intro p
    constructor
    · rintro ⟨r,member,inside⟩
      rw [mem_singleton.mp member] at inside
      exact inside
    · intro inside
      exact ⟨_,mem_singleton.mpr rfl,inside⟩

/-- A client of the first screen and the first desktop with a strut at each side. -/
def panel (left right top bottom : Int) : Client :=
  ⟨⟨⟨0,0,0⟩,⟨0,0,0⟩,⟨0,0,0⟩,⟨0,0,0⟩⟩,⟨left,right,top,bottom⟩,false,1,0⟩

theorem screenArea_clear_top : ∃ after, oneScreen.updateClientArea 1 [panel 0 0 20 0] none false = some after ∧
    oneScreen.Clear [panel 0 0 20 0] 1 0 (after.ofScreen 1 0) := by
  obtain ⟨after,updated,clear⟩ := screenArea_clear_iff oneScreen_tiled 1 [panel 0 0 20 0] none false (d := 1) (s := 0)
    (by decide) (by decide) (by decide)
  refine ⟨after,updated,clear.mpr ?_⟩
  intro c member _ _ crossed
  rw [mem_singleton.mp member] at crossed
  exact absurd crossed (by decide)

/-- The struts of one panel that overlap: its cuts cross, and the area is what lies between the crossed sides. -/
theorem opposite_struts_stay : oneScreen.Tiled ∧
    ∃ after, oneScreen.updateClientArea 1 [panel 60 60 0 0] none false = some after ∧
      after.ofScreen 1 0 = ⟨39,0,60,99⟩ ∧ ¬ oneScreen.Clear [panel 60 60 0 0] 1 0 (after.ofScreen 1 0) := by
  refine ⟨oneScreen_tiled,_,rfl,by decide,?_⟩
  intro clear
  exact clear _ (mem_singleton.mpr rfl) (by decide) rfl (⟨0,0,59,99⟩,StrutAreaLeft) (by decide) ⟨50,50⟩ (by decide)
    (by decide)

end Display
end KdeWorkspace.StrutAreas
