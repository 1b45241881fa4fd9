import KdeWorkspace.RectOperations

/-!
Windows that make themselves fullscreen by asking for the size of a screen.

`checkFullScreenHack` looks the screen up at the middle of the requested
rectangle, but `updateFullScreenHack` declares an empty rectangle of the same
name and looks the screen up at the middle of that one, the origin of the
display. So the window goes to the screen there (`updateFullScreenHack_screen`).
-/
namespace KdeWorkspace.FullScreenHacks
open KdeWorkspace.Geometry
open RectOperations (nullRect)

inductive FullScreenMode where
  | FullScreenNone
  | FullScreenNormal
  | FullScreenHack
deriving Repr, DecidableEq
open FullScreenMode

/-- The areas that the hack asks for. -/
inductive ClientAreaOption where
  | FullScreenArea
  | ScreenArea
  | FullArea
deriving Repr, DecidableEq
open ClientAreaOption

/-- The screens of the display. The desktop widget finds the screen of a point. -/
structure Workspace where
  geometry : Int → QRect
  number : QPoint → Int
  current : Int
  displayWidth : Int
  displayHeight : Int
  isMultihead : Bool
  screenNumber : Int
  isLegacyFullscreenSupport : Bool

/-- What the hack reads of a client, and the geometry and mode that it sets. -/
structure Client where
  geometry : QRect
  fullscreenMode : FullScreenMode
  noBorder : Bool
  appNoborder : Bool
  isFullScreenable : Bool
  strictGeometry : Bool
deriving Repr, DecidableEq

namespace Workspace
variable (ws : Workspace)

/-- `clientArea(opt, screen, desktop)`, for the areas that are not cut by struts. -/
def clientAreaOf (opt : ClientAreaOption) (screen : Int) : QRect :=
  let screen := if screen = -1 then ws.current else screen
  match opt with
  | FullScreenArea | ScreenArea => if ws.isMultihead then ws.geometry ws.screenNumber else ws.geometry screen
  | FullArea => QRect.ofSize 0 0 ws.displayWidth ws.displayHeight

/-- `clientArea(opt, p, desktop)`. -/
def clientArea (opt : ClientAreaOption) (p : QPoint) : QRect := ws.clientAreaOf opt (ws.number p)

def checkFullScreenHack (c : Client) (geom : QRect) : Nat :=
  if !ws.isLegacyFullscreenSupport then 0
  else if c.noBorder ∧ c.appNoborder ∧ c.isFullScreenable then
    if geom.size = (ws.clientArea FullArea geom.center).size then 2
    else if geom.size = (ws.clientArea ScreenArea geom.center).size then 1
    else 0
  else 0

def updateFullScreenHack (c : Client) (geom : QRect) : Client :=
  let type := ws.checkFullScreenHack c geom
  if c.fullscreenMode = FullScreenNone ∧ type ≠ 0 then
    -- A new, empty rectangle hides the requested one.
    let geom := nullRect
    let geom :=
      if c.strictGeometry then
        if type = 2 then ws.clientArea FullArea geom.center else ws.clientArea ScreenArea geom.center
      else ws.clientArea FullScreenArea geom.center
    {c with fullscreenMode := FullScreenHack, geometry := geom}
  else if c.fullscreenMode = FullScreenHack ∧ type = 0 then {c with fullscreenMode := FullScreenNone}
  else c

variable {ws} {c : Client} {geom : QRect}

theorem updateFullScreenHack_one (hack : ws.checkFullScreenHack c geom = 1) (mode : c.fullscreenMode = FullScreenNone) :
    (ws.updateFullScreenHack c geom).geometry = ws.clientArea ScreenArea ⟨0,0⟩ := by
  have origin : nullRect.center = ⟨0,0⟩ := by decide
  have same : ws.clientArea FullScreenArea ⟨0,0⟩ = ws.clientArea ScreenArea ⟨0,0⟩ := rfl
  unfold updateFullScreenHack
  rw [hack,if_pos ⟨mode,Nat.one_ne_zero⟩]
  simp only [origin,same,Nat.reduceEqDiff,if_false,ite_self]

theorem updateFullScreenHack_kept (mode : c.fullscreenMode ≠ FullScreenNone) :
    (ws.updateFullScreenHack c geom).geometry = c.geometry := by
  unfold updateFullScreenHack
  simp only [mode,false_and,if_false]
  split <;> rfl

/-- The window ends on the screen of the requested rectangle exactly when that is
    the screen at the origin, or when the window is fullscreen and stands there already. -/
theorem updateFullScreenHack_screen (hack : ws.checkFullScreenHack c geom = 1) {screen : Int}
    (found : ws.number geom.center = screen) :
    (ws.updateFullScreenHack c geom).geometry = ws.geometry screen ↔
      (c.fullscreenMode = FullScreenNone ∧ ws.clientArea ScreenArea ⟨0,0⟩ = ws.geometry (ws.number geom.center)) ∨
      (c.fullscreenMode ≠ FullScreenNone ∧ c.geometry = ws.geometry (ws.number geom.center)) := by
  rw [found]
  by_cases mode : c.fullscreenMode = FullScreenNone
  · rw [updateFullScreenHack_one hack mode]
    simp only [mode,ne_eq,not_true_eq_false,false_and,or_false,true_and]
  · rw [updateFullScreenHack_kept mode]
    simp only [mode,ne_eq,not_false_eq_true,false_and,false_or,true_and]

/-- Two screens side by side. -/
def sideBySide : Workspace :=
  { geometry := fun screen => if screen = 0 then QRect.ofSize 0 0 1920 1080 else QRect.ofSize 1920 0 1280 1024
    number := fun p => if p.x < 1920 then 0 else 1
    current := 0, displayWidth := 3200, displayHeight := 1080
    isMultihead := false, screenNumber := 0, isLegacyFullscreenSupport := true }

/-- A window without a border. -/
def borderless : Client := ⟨QRect.ofSize 100 100 640 480,FullScreenNone,true,true,true,false⟩

theorem updateFullScreenHack_screen_left :
    sideBySide.checkFullScreenHack borderless (QRect.ofSize 0 0 1920 1080) = 1 ∧
      ((sideBySide.updateFullScreenHack borderless (QRect.ofSize 0 0 1920 1080)).geometry = sideBySide.geometry 0 ↔
        (borderless.fullscreenMode = FullScreenNone ∧
          sideBySide.clientArea ScreenArea ⟨0,0⟩ = sideBySide.geometry (sideBySide.number (QRect.ofSize 0 0 1920 1080).center)) ∨
        (borderless.fullscreenMode ≠ FullScreenNone ∧
          borderless.geometry = sideBySide.geometry (sideBySide.number (QRect.ofSize 0 0 1920 1080).center))) :=
  ⟨by decide,updateFullScreenHack_screen (by decide) (by decide)⟩

/-- Asking for the size of the right screen, at its place, puts the window on the left one. -/
theorem updateFullScreenHack_wrong_screen :
    let geom := QRect.ofSize 1920 0 1280 1024
    sideBySide.checkFullScreenHack borderless geom = 1 ∧ sideBySide.number geom.center = 1 ∧
      (sideBySide.updateFullScreenHack borderless geom).geometry = sideBySide.geometry 0 ∧
      (sideBySide.updateFullScreenHack borderless geom).geometry ≠ sideBySide.geometry 1 := by
  decide

end Workspace
end KdeWorkspace.FullScreenHacks
