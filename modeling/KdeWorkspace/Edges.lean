import KdeWorkspace.Geometry
import KdeWorkspace.Lists
import KdeWorkspace.Loops

/-!
The screen edges (`ScreenEdges`): the edges that a screen arrangement gives
rise to, and the reservations that decide whether an edge is active.

Five sources reserve an edge: the action of its border, switching desktops at
the edges, objects with a callback, a window that is being moved, and the copy
of the callbacks when the edges are created again. `World.outstanding` counts
what these sources hold at an edge; every operation but two keeps the counter of
each edge equal to it (`perform_balanced`), and the condition for those two is
`World.KeepsBalance`.
-/
namespace KdeWorkspace.Edges
open KdeWorkspace.Geometry Lists Loops
open List (mem_map foldl_cons mem_filter)
universe u

inductive ElectricBorder
  | ElectricTop
  | ElectricTopRight
  | ElectricRight
  | ElectricBottomRight
  | ElectricBottom
  | ElectricBottomLeft
  | ElectricLeft
  | ElectricTopLeft
  | ELECTRIC_COUNT
  | ElectricNone
deriving Repr, DecidableEq

inductive ElectricBorderAction
  | ElectricActionNone
  | ElectricActionDashboard
  | ElectricActionShowDesktop
  | ElectricActionLockScreen
  | ElectricActionPreventScreenLocking
deriving Repr, DecidableEq

open ElectricBorder ElectricBorderAction

namespace ElectricBorder

def isLeft (border : ElectricBorder) : Bool :=
  border = ElectricLeft ∨ border = ElectricTopLeft ∨ border = ElectricBottomLeft

def isRight (border : ElectricBorder) : Bool :=
  border = ElectricRight ∨ border = ElectricTopRight ∨ border = ElectricBottomRight

def isTop (border : ElectricBorder) : Bool :=
  border = ElectricTop ∨ border = ElectricTopLeft ∨ border = ElectricTopRight

def isBottom (border : ElectricBorder) : Bool :=
  border = ElectricBottom ∨ border = ElectricBottomLeft ∨ border = ElectricBottomRight

def isCorner (border : ElectricBorder) : Bool :=
  border = ElectricTopLeft ∨ border = ElectricTopRight ∨ border = ElectricBottomRight ∨ border = ElectricBottomLeft

end ElectricBorder

/-- `Qt::Orientations`. -/
structure Orientations where
  horizontal : Bool
  vertical : Bool
deriving Repr, DecidableEq

namespace Orientations

def none : Orientations := ⟨false,false⟩
def both : Orientations := ⟨true,true⟩

end Orientations

/-- An edge with its reservation counter, the slots of the objects that reserve
    it, and whether it is active (its windows exist). -/
structure Edge (Object : Type u) where
  border : ElectricBorder
  geometry : QRect
  action : ElectricBorderAction
  reserved : Int
  callBacks : List (Object × String)
  active : Bool
deriving Repr, DecidableEq

namespace Edge
variable {Object : Type u}

def reserve (e : Edge Object) : Edge Object :=
  {e with reserved := e.reserved+1, active := if e.reserved+1 = 1 then true else e.active}

def unreserve (e : Edge Object) : Edge Object :=
  {e with reserved := e.reserved-1, active := if e.reserved-1 = 0 then false else e.active}

variable [DecidableEq Object]

/-- `reserve` for an object with its slot. -/
def reserveObject (e : Edge Object) (object : Object) (slot : String) : Edge Object :=
  reserve {e with callBacks := e.callBacks.filter (fun callback => callback.1 ≠ object) ++ [(object,slot)]}

/-- `unreserve` for an object, also when it is destroyed. -/
def unreserveObject (e : Edge Object) (object : Object) : Edge Object :=
  if object ∈ e.callBacks.map Prod.fst then
    unreserve {e with callBacks := e.callBacks.filter (fun callback => callback.1 ≠ object)}
  else e

end Edge

def isLeftScreen (screens : List QRect) (screen fullArea : QRect) : Bool :=
  if screens.length = 1 then true
  else if screen.x = fullArea.x then true
  else !screens.any (fun otherGeo => otherGeo ≠ screen ∧ otherGeo.x+otherGeo.width ≤ screen.x)

def isRightScreen (screens : List QRect) (screen fullArea : QRect) : Bool :=
  if screens.length = 1 then true
  else if screen.x+screen.width = fullArea.x+fullArea.width then true
  else !screens.any (fun otherGeo => otherGeo ≠ screen ∧ otherGeo.x ≥ screen.x+screen.width)

def isTopScreen (screens : List QRect) (screen fullArea : QRect) : Bool :=
  if screens.length = 1 then true
  else if screen.y = fullArea.y then true
  else !screens.any (fun otherGeo => otherGeo ≠ screen ∧ otherGeo.y+otherGeo.height ≤ screen.y)

def isBottomScreen (screens : List QRect) (screen fullArea : QRect) : Bool :=
  if screens.length = 1 then true
  else if screen.y+screen.height = fullArea.y+fullArea.height then true
  else !screens.any (fun otherGeo => otherGeo ≠ screen ∧ otherGeo.y ≥ screen.y+screen.height)

/-- `m_edges` and what the reservations depend on. The actions stand for the
    eight members `m_actionTop` to `m_actionTopLeft`. -/
structure ScreenEdges (Object : Type u) where
  edges : List (Edge Object)
  desktopSwitching : Bool
  virtualDesktopLayout : Orientations
  actions : ElectricBorder → ElectricBorderAction
  cornerOffset : Int

namespace ScreenEdges
variable {Object : Type u}

def fresh (cornerOffset : Int) : ScreenEdges Object := ⟨[],false,.none,fun _ => ElectricActionNone,cornerOffset⟩

/-- `actionForEdge` of an edge with the border. -/
def actionForBorder (s : ScreenEdges Object) (border : ElectricBorder) : ElectricBorderAction :=
  match border with
  | ELECTRIC_COUNT => ElectricActionNone
  | ElectricNone => ElectricActionNone
  | border => s.actions border

/-- Changes a corner, and a side that the layout has a neighbour beyond. -/
def switchEdge (layout : Orientations) (change : Edge Object → Edge Object) (edge : Edge Object) : Edge Object :=
  if edge.border.isCorner then change edge
  else
    let edge := if layout.horizontal ∧ (edge.border.isLeft ∨ edge.border.isRight) then change edge else edge
    if layout.vertical ∧ (edge.border.isTop ∨ edge.border.isBottom) then change edge else edge

/-- `reserveDesktopSwitching`. -/
def reserveDesktopSwitching (s : ScreenEdges Object) (isToReserve : Bool) (o : Orientations) : ScreenEdges Object :=
  if o = .none then s
  else {s with edges := s.edges.map (switchEdge s.virtualDesktopLayout (if isToReserve then Edge.reserve else Edge.unreserve))}

def setDesktopSwitching (s : ScreenEdges Object) (enable : Bool) : ScreenEdges Object :=
  if enable = s.desktopSwitching then s
  else reserveDesktopSwitching {s with desktopSwitching := enable} enable s.virtualDesktopLayout

/-- The layout of a grid of virtual desktops. -/
def layoutOfGrid (width height : Nat) : Orientations := ⟨decide (width > 1),decide (height > 1)⟩

/-- `updateLayout` for the size of the grid of virtual desktops. -/
def updateLayout (s : ScreenEdges Object) (width height : Nat) : ScreenEdges Object :=
  let newLayout := layoutOfGrid width height
  if newLayout = s.virtualDesktopLayout then s
  else
    let s := if s.desktopSwitching then s.reserveDesktopSwitching false s.virtualDesktopLayout else s
    let s : ScreenEdges Object := {s with virtualDesktopLayout := newLayout}
    if s.desktopSwitching then s.reserveDesktopSwitching true s.virtualDesktopLayout else s

/-- Changes the edges of the border. -/
def mapBorder (s : ScreenEdges Object) (border : ElectricBorder) (change : Edge Object → Edge Object) :
    ScreenEdges Object :=
  {s with edges := s.edges.map (fun edge => if edge.border = border then change edge else edge)}

def setActionForBorder (s : ScreenEdges Object) (border : ElectricBorder) (newValue : ElectricBorderAction) :
    ScreenEdges Object :=
  let oldValue := s.actions border
  if oldValue = newValue then s
  else
    let s := if oldValue = ElectricActionNone then s.mapBorder border Edge.reserve else s
    let s := if newValue = ElectricActionNone then s.mapBorder border Edge.unreserve else s
    let s : ScreenEdges Object := {s with actions := fun b => if b = border then newValue else s.actions b}
    s.mapBorder border (fun edge => {edge with action := newValue})

def createEdge (s : ScreenEdges Object) (border : ElectricBorder) (x y width height : Int) : Edge Object :=
  let edge : Edge Object := ⟨border,QRect.ofSize x y width height,ElectricActionNone,0,[],false⟩
  let action := s.actionForBorder border
  let edge := if action ≠ ElectricActionNone then {edge.reserve with action := action} else edge
  if s.desktopSwitching then switchEdge s.virtualDesktopLayout Edge.reserve edge else edge

/-- `m_edges << createEdge(…)`. -/
def addEdge (s : ScreenEdges Object) (border : ElectricBorder) (x y width height : Int) : ScreenEdges Object :=
  {s with edges := s.edges ++ [s.createEdge border x y width height]}

def createVerticalEdge (s : ScreenEdges Object) (screens : List QRect) (border : ElectricBorder)
    (screen fullArea : QRect) : ScreenEdges Object :=
  if border ≠ ElectricRight ∧ border ≠ ElectricLeft then s
  else
    let top := isTopScreen screens screen fullArea
    let bottom := isBottomScreen screens screen fullArea
    let y := if top then screen.y+s.cornerOffset else screen.y
    let height := screen.height-(if top then s.cornerOffset else 0)-(if bottom then s.cornerOffset else 0)
    let x := if border = ElectricLeft then screen.x else screen.x+screen.width-1
    let s := if top then
        s.addEdge (if border = ElectricLeft then ElectricTopLeft else ElectricTopRight) x screen.y 1 1
      else s
    let s := if bottom then
        s.addEdge (if border = ElectricLeft then ElectricBottomLeft else ElectricBottomRight) x
          (screen.y+screen.height-1) 1 1
      else s
    s.addEdge border x y 1 height

def createHorizontalEdge (s : ScreenEdges Object) (screens : List QRect) (border : ElectricBorder)
    (screen fullArea : QRect) : ScreenEdges Object :=
  if border ≠ ElectricTop ∧ border ≠ ElectricBottom then s
  else
    let left := isLeftScreen screens screen fullArea
    let right := isRightScreen screens screen fullArea
    let x := if left then screen.x+s.cornerOffset else screen.x
    let width := screen.width-(if left then s.cornerOffset else 0)-(if right then s.cornerOffset else 0)
    let y := if border = ElectricTop then screen.y else screen.y+screen.height-1
    s.addEdge border x y width 1

def createEdges (screens : List QRect) (fullArea : QRect) (s : ScreenEdges Object) (screen : QRect) :
    ScreenEdges Object :=
  let s := if isLeftScreen screens screen fullArea then s.createVerticalEdge screens ElectricLeft screen fullArea else s
  let s := if isRightScreen screens screen fullArea then s.createVerticalEdge screens ElectricRight screen fullArea else s
  let s := if isTopScreen screens screen fullArea then s.createHorizontalEdge screens ElectricTop screen fullArea else s
  if isBottomScreen screens screen fullArea then s.createHorizontalEdge screens ElectricBottom screen fullArea else s

/-- The edges that `recreateEdges` creates, before the reservations are copied. -/
def createdEdges (s : ScreenEdges Object) (screens : List QRect) (displayWidth displayHeight : Int) : List (Edge Object) :=
  (screens.foldl (createEdges screens (QRect.ofSize 0 0 displayWidth displayHeight)) {s with edges := []}).edges

variable [DecidableEq Object]

/-- Copies the reservations of the old edges with the same border. -/
def copyReservations (oldEdges : List (Edge Object)) (edge : Edge Object) : Edge Object :=
  oldEdges.foldl (fun edge oldEdge =>
    if oldEdge.border = edge.border then
      oldEdge.callBacks.foldl (fun edge callback => edge.reserveObject callback.1 callback.2) edge
    else edge) edge

def recreateEdges (s : ScreenEdges Object) (screens : List QRect) (displayWidth displayHeight : Int) :
    ScreenEdges Object :=
  {s with edges := (s.createdEdges screens displayWidth displayHeight).map (copyReservations s.edges)}

def reserve (s : ScreenEdges Object) (border : ElectricBorder) (object : Object) (slot : String) : ScreenEdges Object :=
  s.mapBorder border (fun edge => edge.reserveObject object slot)

def unreserve (s : ScreenEdges Object) (border : ElectricBorder) (object : Object) : ScreenEdges Object :=
  s.mapBorder border (fun edge => edge.unreserveObject object)

/-- Every edge receives the signal that the object is destroyed. -/
def destroyed (s : ScreenEdges Object) (object : Object) : ScreenEdges Object :=
  {s with edges := s.edges.map (fun edge => edge.unreserveObject object)}

end ScreenEdges

/-- The counter is the number, and the edge is active when it is not zero. -/
structure Counts {Object : Type u} (edge : Edge Object) (n : Nat) : Prop where
  reserved : edge.reserved = n
  active : edge.active = decide (0 < n)

/-- How often the switching of desktops reserves a border: once or not at all. -/
def switches (layout : Orientations) (border : ElectricBorder) : Nat :=
  if border.isCorner ∨ (layout.horizontal ∧ (border.isLeft ∨ border.isRight)) ∨
    (layout.vertical ∧ (border.isTop ∨ border.isBottom)) then 1 else 0

section
variable {Object : Type u} {edge : Edge Object} {n : Nat}

theorem Counts.reserve (counts : Counts edge n) : Counts edge.reserve (n+1) := by
  obtain ⟨reserved,active⟩ := counts
  refine ⟨by simp only [Edge.reserve,reserved]; omega,?_⟩
  simp only [Edge.reserve,reserved,active]
  split
  · simp
  · simp only [decide_eq_decide]; omega

theorem Counts.unreserve (counts : Counts edge (n+1)) : Counts edge.unreserve n := by
  obtain ⟨reserved,active⟩ := counts
  refine ⟨by simp only [Edge.unreserve,reserved]; omega,?_⟩
  simp only [Edge.unreserve,reserved,active]
  split
  · simp only [Bool.false_eq,decide_eq_false_iff_not]; omega
  · simp only [decide_eq_decide]; omega

theorem sides_exclusive {border : ElectricBorder} (side : ¬ border.isCorner) :
    ¬ ((border.isLeft ∨ border.isRight) ∧ (border.isTop ∨ border.isBottom)) := by
  cases border <;> simp_all [ElectricBorder.isCorner,ElectricBorder.isLeft,ElectricBorder.isRight,ElectricBorder.isTop,
    ElectricBorder.isBottom]

theorem switchEdge_eq (layout : Orientations) {change : Edge Object → Edge Object}
    (same : ∀ edge, (change edge).border = edge.border) (edge : Edge Object) :
    ScreenEdges.switchEdge layout change edge = if switches layout edge.border = 1 then change edge else edge := by
  unfold ScreenEdges.switchEdge switches
  by_cases corner : edge.border.isCorner
  · simp [corner]
  · have exclusive := sides_exclusive corner
    by_cases across : layout.horizontal ∧ (edge.border.isLeft ∨ edge.border.isRight)
    · have apart : ¬ (edge.border.isTop ∨ edge.border.isBottom) := fun along => exclusive ⟨across.2,along⟩
      simp [corner,across,same,apart]
    · by_cases along : layout.vertical ∧ (edge.border.isTop ∨ edge.border.isBottom)
      · simp only [corner,across,along,Bool.false_eq_true,or_true,and_self,↓reduceIte]
      · simp only [corner,across,along,Bool.false_eq_true,or_self,↓reduceIte,Nat.zero_ne_one]

theorem switches_le (layout : Orientations) (border : ElectricBorder) : switches layout border ≤ 1 := by
  unfold switches
  split <;> omega

theorem switchEdge_reserve (layout : Orientations) (counts : Counts edge n) :
    Counts (ScreenEdges.switchEdge layout Edge.reserve edge) (n+switches layout edge.border) := by
  rw [switchEdge_eq layout (fun edge => show (Edge.reserve edge).border = edge.border from rfl)]
  have le := switches_le layout edge.border
  split
  · rename_i one
    rw [one]; exact counts.reserve
  · rename_i zero
    rw [show switches layout edge.border = 0 by omega]; exact counts

theorem switchEdge_unreserve (layout : Orientations) (counts : Counts edge (n+switches layout edge.border)) :
    Counts (ScreenEdges.switchEdge layout Edge.unreserve edge) n := by
  rw [switchEdge_eq layout (fun edge => show (Edge.unreserve edge).border = edge.border from rfl)]
  have le := switches_le layout edge.border
  split
  · rename_i one
    rw [one] at counts; exact counts.unreserve
  · rename_i zero
    rw [show switches layout edge.border = 0 by omega] at counts; exact counts

theorem switchEdge_keeps (layout : Orientations) (change : Edge Object → Edge Object)
    (same : ∀ edge, (change edge).border = edge.border ∧ (change edge).callBacks = edge.callBacks) (edge : Edge Object) :
    (ScreenEdges.switchEdge layout change edge).border = edge.border ∧
    (ScreenEdges.switchEdge layout change edge).callBacks = edge.callBacks := by
  rw [switchEdge_eq layout (fun edge => (same edge).1)]
  split
  · exact same edge
  · exact ⟨rfl,rfl⟩

end

def Edge.objects {Object : Type u} (edge : Edge Object) : List Object := edge.callBacks.map Prod.fst

section
variable {Object : Type u} [DecidableEq Object] {edge : Edge Object} {n : Nat}

theorem filter_callBacks (callBacks : List (Object × String)) (object : Object) :
    (callBacks.filter (fun callback => callback.1 ≠ object)).map Prod.fst =
      removeAll (callBacks.map Prod.fst) object := by
  rw [removeAll,List.filter_map]
  rfl

theorem objects_reserveObject (edge : Edge Object) (object : Object) (slot : String) :
    (edge.reserveObject object slot).objects = removeAll edge.objects object ++ [object] := by
  simp only [Edge.reserveObject,Edge.reserve,Edge.objects,List.map_append,filter_callBacks,List.map_cons,List.map_nil]

theorem objects_unreserveObject (edge : Edge Object) (object : Object) :
    (edge.unreserveObject object).objects = removeAll edge.objects object := by
  unfold Edge.unreserveObject
  split
  · simp only [Edge.unreserve,Edge.objects,filter_callBacks]
  · rename_i absent
    exact (removeAll_of_not_mem absent).symm

theorem border_unreserveObject (edge : Edge Object) (object : Object) :
    (edge.unreserveObject object).border = edge.border := by
  unfold Edge.unreserveObject
  split <;> rfl

theorem Counts.reserveObject (counts : Counts edge n) (object : Object) (slot : String) :
    Counts (edge.reserveObject object slot) (n+1) := by
  have kept : Counts {edge with
      callBacks := edge.callBacks.filter (fun callback => callback.1 ≠ object) ++ [(object,slot)]} n :=
    ⟨counts.reserved,counts.active⟩
  exact kept.reserve

theorem Counts.unreserveObject (counts : Counts edge (n+1)) {object : Object} (member : object ∈ edge.objects) :
    Counts (edge.unreserveObject object) n := by
  rw [Edge.unreserveObject,if_pos (show object ∈ edge.callBacks.map Prod.fst from member)]
  have kept : Counts {edge with callBacks := edge.callBacks.filter (fun callback => callback.1 ≠ object)} (n+1) :=
    ⟨counts.reserved,counts.active⟩
  exact kept.unreserve

theorem unreserveObject_of_not_mem {object : Object} (absent : object ∉ edge.objects) :
    edge.unreserveObject object = edge := if_neg absent

theorem copy_callBacks {callBacks : List (Object × String)} (counts : Counts edge n)
    (nodup : (callBacks.map Prod.fst).Nodup) (fresh : ∀ object ∈ callBacks.map Prod.fst, object ∉ edge.objects) :
    let copied := callBacks.foldl (fun edge callback => edge.reserveObject callback.1 callback.2) edge
    Counts copied (n+callBacks.length) ∧ copied.objects = edge.objects ++ callBacks.map Prod.fst ∧
      copied.border = edge.border := by
  induction callBacks generalizing edge n with
  | nil => exact ⟨counts,by simp,rfl⟩
  | cons callback rest ih =>
    obtain ⟨object,slot⟩ := callback
    rw [List.map_cons,List.nodup_cons] at nodup
    have unknown : object ∉ edge.objects := fresh object (by simp)
    have objects : (edge.reserveObject object slot).objects = edge.objects ++ [object] := by
      rw [objects_reserveObject,removeAll_of_not_mem unknown]
    have others : ∀ o ∈ rest.map Prod.fst, o ∉ (edge.reserveObject object slot).objects := by
      intro o member
      rw [objects,List.mem_append,List.mem_singleton]
      rintro (old | rfl)
      · exact fresh o (by simp [member]) old
      · exact nodup.1 member
    obtain ⟨counted,known,border⟩ := ih (counts.reserveObject object slot) nodup.2 others
    refine ⟨?_,?_,border⟩
    · rw [List.length_cons,show n+(rest.length+1) = n+1+rest.length by omega]; exact counted
    · rw [foldl_cons,known,objects,List.map_cons,List.append_assoc,List.singleton_append]

end

/-- The edges with what happens around them: which objects reserve which
    borders, and how many windows are being moved. -/
structure World (Object : Type u) where
  screenEdges : ScreenEdges Object
  reservations : List (ElectricBorder × Object)
  moves : Nat

inductive Op (Object : Type u)
  | setDesktopSwitching (enable : Bool)
  | updateLayout (width height : Nat)
  | setActionForBorder (border : ElectricBorder) (newValue : ElectricBorderAction)
  | reserve (border : ElectricBorder) (object : Object) (slot : String)
  | unreserve (border : ElectricBorder) (object : Object)
  | destroyed (object : Object)
  | recreateEdges (screens : List QRect) (displayWidth displayHeight : Int)
  | startMove
  | finishMove

def actionCount (action : ElectricBorderAction) : Nat := if action = ElectricActionNone then 0 else 1

/-- One reservation when desktops are switched at the edges and the border has a neighbour. -/
def switchingCount (desktopSwitching : Bool) (layout : Orientations) (border : ElectricBorder) : Nat :=
  if desktopSwitching ∧ layout ≠ .none then switches layout border else 0

namespace World
variable {Object : Type u}

def fresh (cornerOffset : Int) : World Object := ⟨.fresh cornerOffset,[],0⟩

/-- The objects that reserve the border. -/
def objects (w : World Object) (border : ElectricBorder) : List Object :=
  (w.reservations.filter (fun reservation => reservation.1 = border)).map Prod.snd

/-- The reservations at an edge with the border that have not been given back. -/
def outstanding (w : World Object) (border : ElectricBorder) : Nat :=
  actionCount (w.screenEdges.actionForBorder border) +
  switchingCount w.screenEdges.desktopSwitching w.screenEdges.virtualDesktopLayout border +
  (w.objects border).length + w.moves*switches w.screenEdges.virtualDesktopLayout border

variable [DecidableEq Object]

def perform (w : World Object) : Op Object → World Object
  | .setDesktopSwitching enable => {w with screenEdges := w.screenEdges.setDesktopSwitching enable}
  | .updateLayout width height => {w with screenEdges := w.screenEdges.updateLayout width height}
  | .setActionForBorder border newValue => {w with screenEdges := w.screenEdges.setActionForBorder border newValue}
  | .reserve border object slot =>
    {w with screenEdges := w.screenEdges.reserve border object slot, reservations := w.reservations ++ [(border,object)]}
  | .unreserve border object =>
    {w with
      screenEdges := w.screenEdges.unreserve border object
      reservations := w.reservations.filter (fun reservation => reservation ≠ (border,object))}
  | .destroyed object =>
    {w with
      screenEdges := w.screenEdges.destroyed object
      reservations := w.reservations.filter (fun reservation => reservation.2 ≠ object)}
  | .recreateEdges screens displayWidth displayHeight =>
    {w with screenEdges := w.screenEdges.recreateEdges screens displayWidth displayHeight}
  | .startMove => {w with screenEdges := w.screenEdges.reserveDesktopSwitching true .both, moves := w.moves+1}
  | .finishMove => {w with screenEdges := w.screenEdges.reserveDesktopSwitching false .both, moves := w.moves-1}

/-- What the callers promise: actions are for borders that have one, an object
    reserves a border once, and a move that ends has started. -/
def Allowed (w : World Object) : Op Object → Prop
  | .setActionForBorder border _ => border ≠ ELECTRIC_COUNT ∧ border ≠ ElectricNone
  | .reserve border object _ => (border,object) ∉ w.reservations
  | .finishMove => 0 < w.moves
  | _ => True

/-- The layout of the desktops changes no border that a move has reserved, and edges are created again without a move
    that reserves them, without desktop switching for a layout without neighbours, and from one old edge if an object
    reserves the border. -/
def KeepsBalance (w : World Object) : Op Object → Prop
  | .updateLayout width height => w.moves = 0 ∨ ∀ edge ∈ w.screenEdges.edges,
      switches (ScreenEdges.layoutOfGrid width height) edge.border =
        switches w.screenEdges.virtualDesktopLayout edge.border
  | .recreateEdges screens displayWidth displayHeight =>
      ∀ edge ∈ w.screenEdges.createdEdges screens displayWidth displayHeight,
        (w.moves = 0 ∨ switches w.screenEdges.virtualDesktopLayout edge.border = 0) ∧
        ¬ (w.screenEdges.desktopSwitching = true ∧ w.screenEdges.virtualDesktopLayout = .none ∧ edge.border.isCorner = true) ∧
        (w.objects edge.border = [] ∨ (w.screenEdges.edges.filter (fun old => old.border = edge.border)).length = 1)
  | _ => True


end World

/-- The counter of the edge is the number of reservations, and its callbacks are those of the objects that reserve it. -/
structure EdgeBalanced {Object : Type u} (w : World Object) (edge : Edge Object) : Prop where
  counts : Counts edge (w.outstanding edge.border)
  objects : edge.objects.Perm (w.objects edge.border)

structure Balanced {Object : Type u} (w : World Object) : Prop where
  nodup : w.reservations.Nodup
  edges : ∀ edge ∈ w.screenEdges.edges, EdgeBalanced w edge

section
variable {Object : Type u} {w : World Object}

theorem objects_nodup (nodup : w.reservations.Nodup) (border : ElectricBorder) : (w.objects border).Nodup := by
  refine List.Nodup.map_on ?_ (nodup.filter _)
  intro a left b right same
  have leftBorder := of_decide_eq_true (mem_filter.mp left).2
  have rightBorder := of_decide_eq_true (mem_filter.mp right).2
  exact Prod.ext (leftBorder.trans rightBorder.symm) same

theorem mem_objects {border : ElectricBorder} {object : Object} :
    object ∈ w.objects border ↔ (border,object) ∈ w.reservations := by
  simp only [World.objects,mem_map,mem_filter,decide_eq_true_eq]
  constructor
  · rintro ⟨⟨b,o⟩,⟨member,rfl⟩,rfl⟩
    exact member
  · intro member
    exact ⟨(border,object),⟨member,rfl⟩,rfl⟩

theorem mem_reserveDesktopSwitching {s : ScreenEdges Object} {isToReserve : Bool} {o : Orientations} (some : o ≠ .none)
    {edge : Edge Object} (member : edge ∈ (s.reserveDesktopSwitching isToReserve o).edges) :
    ∃ old ∈ s.edges, edge =
      ScreenEdges.switchEdge s.virtualDesktopLayout (if isToReserve then Edge.reserve else Edge.unreserve) old := by
  rw [ScreenEdges.reserveDesktopSwitching,if_neg some] at member
  obtain ⟨old,there,rfl⟩ := mem_map.mp member
  exact ⟨old,there,rfl⟩

theorem border_of_mem_reserveDesktopSwitching {s : ScreenEdges Object} {isToReserve : Bool} {o : Orientations}
    {edge : Edge Object} (member : edge ∈ (s.reserveDesktopSwitching isToReserve o).edges) :
    ∃ old ∈ s.edges, old.border = edge.border := by
  by_cases nothing : o = .none
  · rw [ScreenEdges.reserveDesktopSwitching,if_pos nothing] at member
    exact ⟨edge,member,rfl⟩
  · obtain ⟨old,there,rfl⟩ := mem_reserveDesktopSwitching nothing member
    refine ⟨old,there,?_⟩
    cases isToReserve with
    | true => exact (switchEdge_keeps s.virtualDesktopLayout Edge.reserve (fun _ => ⟨rfl,rfl⟩) old).1.symm
    | false => exact (switchEdge_keeps s.virtualDesktopLayout Edge.unreserve (fun _ => ⟨rfl,rfl⟩) old).1.symm

section
variable (s : ScreenEdges Object) (isToReserve : Bool) (o : Orientations)

@[simp] theorem reserveDesktopSwitching_desktopSwitching :
    (s.reserveDesktopSwitching isToReserve o).desktopSwitching = s.desktopSwitching := by
  unfold ScreenEdges.reserveDesktopSwitching
  split <;> rfl

@[simp] theorem reserveDesktopSwitching_virtualDesktopLayout :
    (s.reserveDesktopSwitching isToReserve o).virtualDesktopLayout = s.virtualDesktopLayout := by
  unfold ScreenEdges.reserveDesktopSwitching
  split <;> rfl

@[simp] theorem reserveDesktopSwitching_actions : (s.reserveDesktopSwitching isToReserve o).actions = s.actions := by
  unfold ScreenEdges.reserveDesktopSwitching
  split <;> rfl

end

theorem actionForBorder_eq (s : ScreenEdges Object) {border : ElectricBorder}
    (known : border ≠ ELECTRIC_COUNT ∧ border ≠ ElectricNone) : s.actionForBorder border = s.actions border := by
  cases border with
  | ELECTRIC_COUNT => exact absurd rfl known.1
  | ElectricNone => exact absurd rfl known.2
  | _ => rfl

@[simp] theorem switchingCount_none (desktopSwitching : Bool) (border : ElectricBorder) :
    switchingCount desktopSwitching .none border = 0 := by
  simp [switchingCount]

@[simp] theorem switchingCount_false (layout : Orientations) (border : ElectricBorder) :
    switchingCount false layout border = 0 := by
  simp [switchingCount]

theorem switchingCount_true {layout : Orientations} (some : layout ≠ .none) (border : ElectricBorder) :
    switchingCount true layout border = switches layout border := by
  simp [switchingCount,some]

theorem switchEdge_balanced {w' : World Object} {edge : Edge Object} (balanced : EdgeBalanced w edge) (isToReserve : Bool)
    (layout : Orientations) (same : w'.objects edge.border = w.objects edge.border)
    (change : if isToReserve then w'.outstanding edge.border = w.outstanding edge.border+switches layout edge.border
      else w.outstanding edge.border = w'.outstanding edge.border+switches layout edge.border) :
    EdgeBalanced w' (ScreenEdges.switchEdge layout (if isToReserve then Edge.reserve else Edge.unreserve) edge) := by
  cases isToReserve with
  | true =>
    obtain ⟨border,callBacks⟩ := switchEdge_keeps layout Edge.reserve (fun edge => ⟨rfl,rfl⟩) edge
    refine ⟨?_,?_⟩
    · rw [if_pos rfl,border,show w'.outstanding edge.border = _ from change]
      exact switchEdge_reserve layout balanced.counts
    · rw [if_pos rfl,border,same,Edge.objects,callBacks]
      exact balanced.objects
  | false =>
    obtain ⟨border,callBacks⟩ := switchEdge_keeps layout Edge.unreserve (fun edge => ⟨rfl,rfl⟩) edge
    have counts := balanced.counts
    rw [show w.outstanding edge.border = _ from change] at counts
    refine ⟨?_,?_⟩
    · rw [if_neg (by decide),border]
      exact switchEdge_unreserve layout counts
    · rw [if_neg (by decide),border,same,Edge.objects,callBacks]
      exact balanced.objects

theorem EdgeBalanced.congr {w' : World Object} {edge : Edge Object} (balanced : EdgeBalanced w edge)
    (count : w'.outstanding edge.border = w.outstanding edge.border)
    (objects : w'.objects edge.border = w.objects edge.border) : EdgeBalanced w' edge :=
  ⟨by rw [count]; exact balanced.counts,by rw [objects]; exact balanced.objects⟩

theorem switching_balanced (s : ScreenEdges Object) (reservations : List (ElectricBorder × Object)) (moves : Nat)
    (enable : Bool)
    (balanced : ∀ edge ∈ s.edges, EdgeBalanced ⟨{s with desktopSwitching := !enable},reservations,moves⟩ edge) :
    ∀ edge ∈ (s.reserveDesktopSwitching enable s.virtualDesktopLayout).edges,
      EdgeBalanced ⟨{s with desktopSwitching := enable},reservations,moves⟩ edge := by
  intro edge member
  by_cases alone : s.virtualDesktopLayout = .none
  · rw [ScreenEdges.reserveDesktopSwitching,if_pos alone] at member
    refine (balanced edge member).congr ?_ rfl
    simp only [World.outstanding,World.objects,ScreenEdges.actionForBorder,alone,switchingCount_none]
  · obtain ⟨old,there,rfl⟩ := mem_reserveDesktopSwitching alone member
    refine switchEdge_balanced (balanced old there) enable _ rfl ?_
    cases enable with
    | true =>
      simp only [World.outstanding,World.objects,ScreenEdges.actionForBorder,Bool.not_true,switchingCount_false,
        switchingCount_true alone,↓reduceIte]
      omega
    | false =>
      simp only [World.outstanding,World.objects,ScreenEdges.actionForBorder,Bool.not_false,switchingCount_false,
        switchingCount_true alone,Bool.false_eq_true,↓reduceIte]
      omega

private theorem setDesktopSwitching_balanced [DecidableEq Object] (balanced : Balanced w) (enable : Bool) :
    Balanced (w.perform (.setDesktopSwitching enable)) := by
  obtain ⟨s,reservations,moves⟩ := w
  by_cases same : enable = s.desktopSwitching
  · simpa only [World.perform,ScreenEdges.setDesktopSwitching,same,↓reduceIte] using balanced
  · have before : s.desktopSwitching = !enable := by
      cases enable <;> simpa using same
    refine ⟨balanced.nodup,fun edge member => ?_⟩
    simp only [World.perform,ScreenEdges.setDesktopSwitching,same,↓reduceIte] at member ⊢
    have switched := switching_balanced {s with desktopSwitching := enable} _ moves enable
      (fun old there => (balanced.edges old there).congr (by simp only [World.outstanding,World.objects,
        ScreenEdges.actionForBorder,before]) rfl) edge member
    refine switched.congr ?_ rfl
    simp only [World.outstanding,World.objects,ScreenEdges.actionForBorder,reserveDesktopSwitching_desktopSwitching,
      reserveDesktopSwitching_virtualDesktopLayout,reserveDesktopSwitching_actions]

private theorem updateLayout_balanced [DecidableEq Object] (balanced : Balanced w) (width height : Nat)
    (keeps : w.KeepsBalance (.updateLayout width height)) : Balanced (w.perform (.updateLayout width height)) := by
  obtain ⟨s,reservations,moves⟩ := w
  simp only [World.perform,ScreenEdges.updateLayout]
  simp only [World.KeepsBalance] at keeps
  generalize ScreenEdges.layoutOfGrid width height = newLayout at keeps
  by_cases same : newLayout = s.virtualDesktopLayout
  · simpa only [same,↓reduceIte] using balanced
  rw [if_neg same]
  have moved : ∀ edge ∈ s.edges,
      moves*switches newLayout edge.border = moves*switches s.virtualDesktopLayout edge.border := by
    intro edge member
    rcases keeps with none | kept
    · rw [none,Nat.zero_mul,Nat.zero_mul]
    · rw [kept edge member]
  refine ⟨balanced.nodup,fun edge member => ?_⟩
  cases switching : s.desktopSwitching with
  | false =>
    simp only [switching,Bool.false_eq_true,↓reduceIte] at member ⊢
    refine (balanced.edges edge member).congr ?_ rfl
    simp only [World.outstanding,World.objects,ScreenEdges.actionForBorder,switching,switchingCount_false,
      moved edge member]
  | true =>
    simp only [switching,reserveDesktopSwitching_desktopSwitching,↓reduceIte] at member ⊢
    -- The old reservations are given back, and then the new ones are made.
    have without := switching_balanced _ reservations moves false
      (fun old there => (balanced.edges old there).congr
        (by simp only [World.outstanding,World.objects,ScreenEdges.actionForBorder,switching,Bool.not_false]) rfl)
    have changed : ∀ old ∈ (s.reserveDesktopSwitching false s.virtualDesktopLayout).edges,
        EdgeBalanced ⟨{s.reserveDesktopSwitching false s.virtualDesktopLayout with
          virtualDesktopLayout := newLayout, desktopSwitching := !true},reservations,moves⟩ old := by
      intro old there
      refine (without old there).congr ?_ rfl
      have kept : moves*switches newLayout old.border = moves*switches s.virtualDesktopLayout old.border := by
        obtain ⟨first,known,same⟩ := border_of_mem_reserveDesktopSwitching there
        rw [← same]
        exact moved first known
      simp only [World.outstanding,World.objects,ScreenEdges.actionForBorder,reserveDesktopSwitching_actions,
        Bool.not_true,switchingCount_false,kept]
    refine (switching_balanced _ _ _ true changed edge member).congr ?_ rfl
    simp only [World.outstanding,World.objects,ScreenEdges.actionForBorder,reserveDesktopSwitching_desktopSwitching,
      reserveDesktopSwitching_virtualDesktopLayout,reserveDesktopSwitching_actions]

private theorem startMove_balanced [DecidableEq Object] (balanced : Balanced w) : Balanced (w.perform .startMove) := by
  refine ⟨balanced.nodup,fun edge member => ?_⟩
  obtain ⟨old,there,rfl⟩ := mem_reserveDesktopSwitching (by decide) member
  refine switchEdge_balanced (balanced.edges old there) true _ rfl ?_
  simp only [World.perform,World.outstanding,World.objects,ScreenEdges.actionForBorder,
    reserveDesktopSwitching_desktopSwitching,reserveDesktopSwitching_virtualDesktopLayout,
    reserveDesktopSwitching_actions,Nat.add_mul,↓reduceIte]
  omega

private theorem finishMove_balanced [DecidableEq Object] (balanced : Balanced w) (moving : 0 < w.moves) :
    Balanced (w.perform .finishMove) := by
  refine ⟨balanced.nodup,fun edge member => ?_⟩
  obtain ⟨old,there,rfl⟩ := mem_reserveDesktopSwitching (by decide) member
  refine switchEdge_balanced (balanced.edges old there) false _ rfl ?_
  obtain ⟨rest,more⟩ : ∃ rest, w.moves = rest+1 := ⟨w.moves-1,by omega⟩
  simp only [World.perform,World.outstanding,World.objects,ScreenEdges.actionForBorder,
    reserveDesktopSwitching_desktopSwitching,reserveDesktopSwitching_virtualDesktopLayout,
    reserveDesktopSwitching_actions,more,Nat.add_sub_cancel,Nat.add_mul,Bool.false_eq_true,↓reduceIte]
  omega

/-- What a change of the action does to an edge of its border. -/
def actionEdge (oldValue newValue : ElectricBorderAction) (edge : Edge Object) : Edge Object :=
  let edge := if oldValue = ElectricActionNone then edge.reserve else edge
  let edge := if newValue = ElectricActionNone then edge.unreserve else edge
  {edge with action := newValue}

theorem actionEdge_counts {oldValue newValue : ElectricBorderAction} (changes : oldValue ≠ newValue) {edge : Edge Object}
    {a b c : Nat} (counts : Counts edge (actionCount oldValue+a+b+c)) :
    Counts (actionEdge oldValue newValue edge) (actionCount newValue+a+b+c) := by
  have kept : ∀ {e : Edge Object} {n : Nat}, Counts e n → Counts {e with action := newValue} n :=
    fun counted => ⟨counted.reserved,counted.active⟩
  unfold actionEdge
  unfold actionCount at counts ⊢
  by_cases off : oldValue = ElectricActionNone
  · have on : newValue ≠ ElectricActionNone := fun on => changes (off.trans on.symm)
    simp only [off,on,↓reduceIte] at counts ⊢
    rw [show 1+a+b+c = 0+a+b+c+1 by omega]
    exact kept counts.reserve
  · by_cases on : newValue = ElectricActionNone
    · simp only [off,on,↓reduceIte] at counts ⊢
      rw [show 1+a+b+c = 0+a+b+c+1 by omega] at counts
      have given := counts.unreserve
      exact ⟨given.reserved,given.active⟩
    · simp only [off,on,↓reduceIte] at counts ⊢
      exact kept counts

theorem setActionForBorder_eq {s : ScreenEdges Object} {border : ElectricBorder} {newValue : ElectricBorderAction}
    (changes : s.actions border ≠ newValue) : s.setActionForBorder border newValue =
      {s with
        actions := fun b => if b = border then newValue else s.actions b
        edges := s.edges.map (fun edge =>
          if edge.border = border then actionEdge (s.actions border) newValue edge else edge)} := by
  have edges : ∀ edge : Edge Object, edge.border = border → edge.reserve.border = border ∧ edge.unreserve.border = border :=
    fun edge here => ⟨here,here⟩
  unfold ScreenEdges.setActionForBorder ScreenEdges.mapBorder
  rw [if_neg changes]
  by_cases off : s.actions border = ElectricActionNone
  · by_cases on : newValue = ElectricActionNone
    · exact absurd (off.trans on.symm) changes
    · simp only [off,on,↓reduceIte,List.map_map,ScreenEdges.mk.injEq,and_self,and_true]
      refine List.map_congr_left (fun edge _ => ?_)
      by_cases here : edge.border = border
      · simp only [Function.comp_apply,here,edges,actionEdge,on,↓reduceIte]
      · simp only [Function.comp_apply,here,↓reduceIte]
  · by_cases on : newValue = ElectricActionNone
    · simp only [off,on,↓reduceIte,List.map_map,ScreenEdges.mk.injEq,and_self,and_true]
      refine List.map_congr_left (fun edge _ => ?_)
      by_cases here : edge.border = border
      · simp only [Function.comp_apply,here,edges,actionEdge,off,↓reduceIte]
      · simp only [Function.comp_apply,here,↓reduceIte]
    · simp only [off,on,↓reduceIte,actionEdge]

private theorem setActionForBorder_balanced [DecidableEq Object] (balanced : Balanced w) {border : ElectricBorder}
    (newValue : ElectricBorderAction) (known : border ≠ ELECTRIC_COUNT ∧ border ≠ ElectricNone) :
    Balanced (w.perform (.setActionForBorder border newValue)) := by
  obtain ⟨s,reservations,moves⟩ := w
  by_cases same : s.actions border = newValue
  · simpa only [World.perform,ScreenEdges.setActionForBorder,same,↓reduceIte] using balanced
  refine ⟨balanced.nodup,fun edge member => ?_⟩
  simp only [World.perform,setActionForBorder_eq same] at member ⊢
  obtain ⟨old,there,rfl⟩ := mem_map.mp member
  have kept := balanced.edges old there
  by_cases here : old.border = border
  · subst here
    rw [if_pos rfl]
    have counts := kept.counts
    simp only [World.outstanding,actionForBorder_eq s known] at counts
    have border : (actionEdge (s.actions old.border) newValue old).border = old.border := by
      unfold actionEdge
      split <;> split <;> rfl
    have objects : (actionEdge (s.actions old.border) newValue old).objects = old.objects := by
      unfold actionEdge
      split <;> split <;> rfl
    refine ⟨?_,by rw [border,objects]; exact kept.objects⟩
    rw [border]
    simp only [World.outstanding,actionForBorder_eq _ known,↓reduceIte]
    exact actionEdge_counts same counts
  · rw [if_neg here]
    refine kept.congr ?_ rfl
    have other : ScreenEdges.actionForBorder {s with
        actions := fun b => if b = border then newValue else s.actions b
        edges := s.edges.map (fun edge =>
          if edge.border = border then actionEdge (s.actions border) newValue edge else edge)} old.border =
        s.actionForBorder old.border := by
      unfold ScreenEdges.actionForBorder
      split
      · rfl
      · rfl
      · exact if_neg here
    simp only [World.outstanding,World.objects,other]

section
variable [DecidableEq Object]

private theorem reserve_balanced (balanced : Balanced w) {border : ElectricBorder} {object : Object} (slot : String)
    (once : (border,object) ∉ w.reservations) : Balanced (w.perform (.reserve border object slot)) := by
  refine ⟨?_,fun edge member => ?_⟩
  · refine List.nodup_append.mpr ⟨balanced.nodup,List.nodup_singleton _,?_⟩
    rintro a left b right rfl
    rw [List.mem_singleton.mp right] at left
    exact once left
  · obtain ⟨old,there,rfl⟩ := mem_map.mp member
    have kept := balanced.edges old there
    by_cases here : old.border = border
    · subst here
      have known : (w.perform (.reserve old.border object slot)).objects old.border = w.objects old.border ++ [object] := by
        simp [World.perform,World.objects]
      have unknown : object ∉ old.objects := fun inside => once (mem_objects.mp (kept.objects.mem_iff.mp inside))
      rw [if_pos rfl]
      refine ⟨?_,?_⟩
      · have count : (w.perform (.reserve old.border object slot)).outstanding old.border =
            w.outstanding old.border+1 := by
          simp only [World.outstanding,known,List.length_append,List.length_singleton]
          simp only [World.perform,ScreenEdges.reserve,ScreenEdges.mapBorder,ScreenEdges.actionForBorder]
          omega
        exact count ▸ kept.counts.reserveObject object slot
      · rw [objects_reserveObject,removeAll_of_not_mem unknown]
        exact known ▸ kept.objects.append_right [object]
    · rw [if_neg here]
      have same : (w.perform (.reserve border object slot)).objects old.border = w.objects old.border := by
        simp [World.perform,World.objects,Ne.symm here]
      refine kept.congr ?_ same
      rw [World.outstanding,World.outstanding,same]
      rfl

theorem unreserveObject_balanced (nodup : w.reservations.Nodup) {w' : World Object} {edge : Edge Object}
    (kept : EdgeBalanced w edge) (object : Object)
    (objects : w'.objects edge.border = removeAll (w.objects edge.border) object)
    (rest : w'.outstanding edge.border+(w.objects edge.border).length =
      w.outstanding edge.border+(w'.objects edge.border).length) :
    EdgeBalanced w' (edge.unreserveObject object) := by
  have perm : (edge.unreserveObject object).objects.Perm (w'.objects edge.border) := by
    rw [objects_unreserveObject,objects]
    exact kept.objects.filter _
  refine ⟨?_,by rw [border_unreserveObject]; exact perm⟩
  rw [border_unreserveObject]
  by_cases member : object ∈ edge.objects
  · have inside : object ∈ w.objects edge.border := kept.objects.mem_iff.mp member
    have shorter := length_removeAll (objects_nodup nodup edge.border) inside
    rw [← objects] at shorter
    have one : w.outstanding edge.border = w'.outstanding edge.border+1 := by omega
    exact Counts.unreserveObject (one ▸ kept.counts) member
  · have outside : object ∉ w.objects edge.border := fun inside => member (kept.objects.mem_iff.mpr inside)
    rw [removeAll_of_not_mem outside] at objects
    rw [objects] at rest
    rw [unreserveObject_of_not_mem member,show w'.outstanding edge.border = w.outstanding edge.border by omega]
    exact kept.counts

omit [DecidableEq Object] in
theorem objects_filter (reservations : List (ElectricBorder × Object)) (keep : ElectricBorder × Object → Bool)
    (border : ElectricBorder) (s : ScreenEdges Object) (moves : Nat) (test : Object → Bool)
    (same : ∀ object, keep (border,object) = test object) :
    (World.mk s (reservations.filter keep) moves).objects border =
      ((World.mk s reservations moves).objects border).filter test := by
  simp only [World.objects,List.filter_map,List.filter_filter]
  congr 1
  refine List.filter_congr (fun reservation _ => ?_)
  obtain ⟨b,object⟩ := reservation
  by_cases here : b = border
  · subst here
    simp [same]
  · simp [here]

private theorem unreserve_balanced (balanced : Balanced w) (border : ElectricBorder) (object : Object) :
    Balanced (w.perform (.unreserve border object)) := by
  refine ⟨balanced.nodup.filter _,fun edge member => ?_⟩
  obtain ⟨old,there,rfl⟩ := mem_map.mp member
  have kept := balanced.edges old there
  by_cases here : old.border = border
  · subst here
    rw [if_pos rfl]
    refine unreserveObject_balanced balanced.nodup kept object ?_ ?_
    · exact objects_filter w.reservations _ old.border _ w.moves _ (by simp)
    · simp only [World.outstanding,World.perform,ScreenEdges.unreserve,ScreenEdges.mapBorder,ScreenEdges.actionForBorder]
      omega
  · rw [if_neg here]
    have same : (w.perform (.unreserve border object)).objects old.border = w.objects old.border :=
      (objects_filter w.reservations _ old.border _ w.moves (fun _ => true) (by simp [here])).trans (List.filter_true _)
    refine kept.congr ?_ same
    rw [World.outstanding,World.outstanding,same]
    rfl

private theorem destroyed_balanced (balanced : Balanced w) (object : Object) :
    Balanced (w.perform (.destroyed object)) := by
  refine ⟨balanced.nodup.filter _,fun edge member => ?_⟩
  obtain ⟨old,there,rfl⟩ := mem_map.mp member
  refine unreserveObject_balanced balanced.nodup (balanced.edges old there) object ?_ ?_
  · exact objects_filter w.reservations _ old.border _ w.moves _ (by simp)
  · simp only [World.outstanding,World.perform,ScreenEdges.destroyed,ScreenEdges.actionForBorder]
    omega

end

end

/-- Edges made by `createEdge` are added, and nothing else changes. -/
structure AddsEdges {Object : Type u} (s after : ScreenEdges Object) : Prop where
  settings : ({after with edges := []} : ScreenEdges Object) = {s with edges := []}
  edges : ∀ edge ∈ after.edges, edge ∈ s.edges ∨ ∃ border x y width height, edge = s.createEdge border x y width height

section
variable {Object : Type u} {s t : ScreenEdges Object}

theorem AddsEdges.refl (s : ScreenEdges Object) : AddsEdges s s := ⟨rfl,fun _ member => .inl member⟩

theorem AddsEdges.trans {u : ScreenEdges Object} (first : AddsEdges s t) (second : AddsEdges t u) : AddsEdges s u := by
  refine ⟨second.settings.trans first.settings,fun edge member => ?_⟩
  have same : ∀ border x y width height, t.createEdge border x y width height = s.createEdge border x y width height := by
    intro border x y width height
    change ScreenEdges.createEdge {t with edges := []} border x y width height = _
    rw [first.settings]
    rfl
  rcases second.edges edge member with old | ⟨border,x,y,width,height,rfl⟩
  · exact first.edges edge old
  · exact .inr ⟨border,x,y,width,height,same border x y width height⟩

theorem AddsEdges.addEdge (adds : AddsEdges s t) (border : ElectricBorder) (x y width height : Int) :
    AddsEdges s (t.addEdge border x y width height) := by
  refine adds.trans ⟨rfl,fun edge member => ?_⟩
  rcases List.mem_append.mp member with old | new
  · exact .inl old
  · exact .inr ⟨border,x,y,width,height,List.mem_singleton.mp new⟩

theorem AddsEdges.ite (adds : AddsEdges s t) {u : ScreenEdges Object} (more : AddsEdges t u) (condition : Prop)
    [Decidable condition] : AddsEdges s (if condition then u else t) := by
  split
  · exact adds.trans more
  · exact adds

theorem createVerticalEdge_adds (s : ScreenEdges Object) (screens : List QRect) (border : ElectricBorder)
    (screen fullArea : QRect) : AddsEdges s (s.createVerticalEdge screens border screen fullArea) := by
  unfold ScreenEdges.createVerticalEdge
  split
  · exact .refl s
  · exact AddsEdges.addEdge (AddsEdges.ite (AddsEdges.ite (.refl s) (AddsEdges.addEdge (.refl s) ..) _)
      (AddsEdges.addEdge (.refl _) ..) _) ..

theorem createHorizontalEdge_adds (s : ScreenEdges Object) (screens : List QRect) (border : ElectricBorder)
    (screen fullArea : QRect) : AddsEdges s (s.createHorizontalEdge screens border screen fullArea) := by
  unfold ScreenEdges.createHorizontalEdge
  split
  · exact .refl s
  · exact AddsEdges.addEdge (.refl s) ..

theorem createEdges_adds (screens : List QRect) (fullArea : QRect) (s : ScreenEdges Object) (screen : QRect) :
    AddsEdges s (ScreenEdges.createEdges screens fullArea s screen) := by
  have left := AddsEdges.ite (.refl s) (createVerticalEdge_adds s screens ElectricLeft screen fullArea)
    (isLeftScreen screens screen fullArea)
  have right := left.ite (createVerticalEdge_adds _ screens ElectricRight screen fullArea)
    (isRightScreen screens screen fullArea)
  have top := right.ite (createHorizontalEdge_adds _ screens ElectricTop screen fullArea)
    (isTopScreen screens screen fullArea)
  exact top.ite (createHorizontalEdge_adds _ screens ElectricBottom screen fullArea)
    (isBottomScreen screens screen fullArea)

/-- Every edge that is created again comes from `createEdge`. -/
theorem mem_createdEdges {screens : List QRect} {displayWidth displayHeight : Int} {edge : Edge Object}
    (member : edge ∈ s.createdEdges screens displayWidth displayHeight) :
    ∃ border x y width height, edge = s.createEdge border x y width height := by
  have folded : ∀ (rest : List QRect) (t : ScreenEdges Object), AddsEdges {s with edges := []} t →
      AddsEdges {s with edges := []}
        (rest.foldl (ScreenEdges.createEdges screens (QRect.ofSize 0 0 displayWidth displayHeight)) t) := by
    intro rest
    induction rest with
    | nil => exact fun t adds => adds
    | cons screen rest ih => exact fun t adds => ih _ (adds.trans (createEdges_adds screens _ t screen))
  rcases (folded screens _ (.refl _)).edges edge member with old | created
  · cases old
  · exact created

theorem createEdge_spec (s : ScreenEdges Object) (border : ElectricBorder) (x y width height : Int) :
    (s.createEdge border x y width height).border = border ∧ (s.createEdge border x y width height).callBacks = [] ∧
    Counts (s.createEdge border x y width height) (actionCount (s.actionForBorder border) +
      if s.desktopSwitching then switches s.virtualDesktopLayout border else 0) := by
  generalize bare : (⟨border,QRect.ofSize x y width height,ElectricActionNone,0,[],false⟩ : Edge Object) = edge
  have start : edge.border = border ∧ edge.callBacks = [] ∧ Counts edge 0 := by
    subst bare
    exact ⟨rfl,rfl,rfl,rfl⟩
  have acted : ∀ acting : Edge Object, acting = (if s.actionForBorder border ≠ ElectricActionNone then
      {edge.reserve with action := s.actionForBorder border} else edge) →
      acting.border = border ∧ acting.callBacks = [] ∧ Counts acting (actionCount (s.actionForBorder border)) := by
    rintro acting rfl
    unfold actionCount
    by_cases none : s.actionForBorder border = ElectricActionNone
    · simpa only [none,ne_eq,not_true_eq_false,↓reduceIte] using start
    · simp only [none,ne_eq,not_false_eq_true,↓reduceIte]
      have reserved := start.2.2.reserve
      exact ⟨start.1,start.2.1,reserved.reserved,reserved.active⟩
  obtain ⟨sameBorder,noCallBacks,counts⟩ := acted _ rfl
  unfold ScreenEdges.createEdge
  simp only [bare]
  generalize (if s.actionForBorder border ≠ ElectricActionNone then
    {edge.reserve with action := s.actionForBorder border} else edge) = acting at *
  by_cases switching : s.desktopSwitching
  · obtain ⟨kept,callBacks⟩ := switchEdge_keeps s.virtualDesktopLayout Edge.reserve (fun _ => ⟨rfl,rfl⟩) acting
    simp only [switching,↓reduceIte]
    refine ⟨kept.trans sameBorder,callBacks.trans noCallBacks,?_⟩
    rw [← sameBorder] at counts ⊢
    exact switchEdge_reserve s.virtualDesktopLayout counts
  · simp only [switching,Bool.false_eq_true,↓reduceIte,Nat.add_zero]
    exact ⟨sameBorder,noCallBacks,counts⟩

variable [DecidableEq Object]

theorem copyReservations_none {oldEdges : List (Edge Object)} {edge : Edge Object}
    (none : ∀ old ∈ oldEdges, old.border = edge.border → old.callBacks = []) :
    ScreenEdges.copyReservations oldEdges edge = edge := by
  induction oldEdges with
  | nil => rfl
  | cons old rest ih =>
    have first : (if old.border = edge.border then
        old.callBacks.foldl (fun edge callback => edge.reserveObject callback.1 callback.2) edge else edge) = edge := by
      split
      · rename_i same
        rw [none old (by simp) same]
        rfl
      · rfl
    rw [ScreenEdges.copyReservations,foldl_cons,first]
    exact ih (fun old member => none old (by simp [member]))

theorem copyReservations_one {oldEdges : List (Edge Object)} {edge old : Edge Object} {n : Nat} (counts : Counts edge n)
    (bare : edge.callBacks = []) (nodup : old.objects.Nodup)
    (one : oldEdges.filter (fun other => other.border = edge.border) = [old]) :
    (ScreenEdges.copyReservations oldEdges edge).border = edge.border ∧
    (ScreenEdges.copyReservations oldEdges edge).objects = old.objects ∧
    Counts (ScreenEdges.copyReservations oldEdges edge) (n+old.objects.length) := by
  induction oldEdges with
  | nil => cases one
  | cons head rest ih =>
    by_cases same : head.border = edge.border
    · rw [List.filter_cons_of_pos (by simpa using same),List.cons.injEq] at one
      obtain ⟨rfl,others⟩ := one
      obtain ⟨counted,known,border⟩ := copy_callBacks counts nodup (by simp [Edge.objects,bare])
      generalize taken : head.callBacks.foldl (fun edge callback => edge.reserveObject callback.1 callback.2) edge = copied
        at counted known border
      have copies : ScreenEdges.copyReservations (head :: rest) edge = copied := by
        rw [ScreenEdges.copyReservations,foldl_cons,if_pos same,taken]
        refine copyReservations_none (fun other member equal => ?_)
        have excluded := List.filter_eq_nil_iff.mp others other member
        exact absurd (equal.trans border) (by simpa using excluded)
      rw [copies]
      refine ⟨border,by rw [known]; simp [Edge.objects,bare],?_⟩
      rw [Edge.objects,List.length_map]
      exact counted
    · rw [List.filter_cons_of_neg (by simpa using same)] at one
      rw [ScreenEdges.copyReservations,foldl_cons,if_neg same]
      exact ih one

private theorem recreateEdges_balanced {w : World Object} (balanced : Balanced w) (screens : List QRect)
    (displayWidth displayHeight : Int) (keeps : w.KeepsBalance (.recreateEdges screens displayWidth displayHeight)) :
    Balanced (w.perform (.recreateEdges screens displayWidth displayHeight)) := by
  refine ⟨balanced.nodup,fun edge member => ?_⟩
  obtain ⟨created,there,rfl⟩ := mem_map.mp member
  obtain ⟨still,neighbours,source⟩ := keeps created there
  obtain ⟨border,x,y,width,height,made⟩ := mem_createdEdges there
  obtain ⟨sameBorder,bare,counts⟩ := createEdge_spec w.screenEdges border x y width height
  rw [← made] at sameBorder bare counts
  subst sameBorder
  have settings : ∀ b, (w.perform (.recreateEdges screens displayWidth displayHeight)).outstanding b = w.outstanding b :=
    fun _ => rfl
  have objects : ∀ b, (w.perform (.recreateEdges screens displayWidth displayHeight)).objects b = w.objects b :=
    fun _ => rfl
  -- What the created edge counts is outstanding, up to the objects.
  have count : w.outstanding created.border = actionCount (w.screenEdges.actionForBorder created.border) +
      (if w.screenEdges.desktopSwitching then switches w.screenEdges.virtualDesktopLayout created.border else 0) +
      (w.objects created.border).length := by
    have unmoved : w.moves*switches w.screenEdges.virtualDesktopLayout created.border = 0 := by
      rcases still with none | none <;> simp [none]
    have switching : switchingCount w.screenEdges.desktopSwitching w.screenEdges.virtualDesktopLayout created.border =
        if w.screenEdges.desktopSwitching then switches w.screenEdges.virtualDesktopLayout created.border else 0 := by
      by_cases alone : w.screenEdges.virtualDesktopLayout = .none
      · rw [alone,switchingCount_none]
        split
        · rename_i on
          have side : ¬ created.border.isCorner := fun corner => neighbours ⟨on,alone,corner⟩
          simp [switches,side,Orientations.none]
        · rfl
      · simp [switchingCount,alone]
    rw [World.outstanding,unmoved,switching,Nat.add_zero]
  rcases source with none | one
  · have unchanged : ScreenEdges.copyReservations w.screenEdges.edges created = created := by
      refine copyReservations_none (fun old known same => ?_)
      have perm := (balanced.edges old known).objects
      rw [same,none,List.perm_nil,Edge.objects,List.map_eq_nil_iff] at perm
      exact perm
    rw [unchanged]
    refine ⟨?_,?_⟩
    · rw [settings,count,none]; exact counts
    · rw [objects,none,Edge.objects,bare]; exact List.Perm.refl _
  · obtain ⟨old,single⟩ := List.length_eq_one_iff.mp one
    have inside : old ∈ w.screenEdges.edges.filter (fun old => old.border = created.border) := by rw [single]; simp
    obtain ⟨known,same⟩ := mem_filter.mp inside
    have perm := (balanced.edges old known).objects
    rw [of_decide_eq_true same] at perm
    obtain ⟨border,copied,counted⟩ := copyReservations_one counts bare
      (perm.nodup_iff.mpr (objects_nodup balanced.nodup _)) single
    refine ⟨?_,?_⟩
    · rw [border,settings,count,← perm.length_eq]; exact counted
    · rw [border,objects,copied]; exact perm

theorem perform_balanced {w : World Object} (balanced : Balanced w) (op : Op Object) (allowed : w.Allowed op)
    (keeps : w.KeepsBalance op) : Balanced (w.perform op) := by
  cases op with
  | setDesktopSwitching enable => exact setDesktopSwitching_balanced balanced enable
  | updateLayout width height => exact updateLayout_balanced balanced width height keeps
  | setActionForBorder border newValue => exact setActionForBorder_balanced balanced newValue allowed
  | reserve border object slot => exact reserve_balanced balanced slot allowed
  | unreserve border object => exact unreserve_balanced balanced border object
  | destroyed object => exact destroyed_balanced balanced object
  | recreateEdges screens displayWidth displayHeight =>
    exact recreateEdges_balanced balanced screens displayWidth displayHeight keeps
  | startMove => exact startMove_balanced balanced
  | finishMove => exact finishMove_balanced balanced allowed

/-- In a run whose operations keep the balance, the counter of every edge is the
    number of reservations that are outstanding, and an edge without any is inactive. -/
theorem run_balanced {cornerOffset : Int} {ops : List (Op Object)} {w : World Object}
    (run : Run (fun before op after => before.Allowed op ∧ before.KeepsBalance op ∧ after = before.perform op)
      (.fresh cornerOffset) ops w) : ∀ edge ∈ w.screenEdges.edges, 0 ≤ edge.reserved ∧
        edge.reserved = w.outstanding edge.border ∧ (w.outstanding edge.border = 0 ↔ edge.active = false) := by
  have balanced : Balanced w := by
    refine run.invariant ?_ ⟨List.nodup_nil,fun edge member => by cases member⟩
    rintro before op after kept ⟨allowed,keeps,rfl⟩
    exact perform_balanced kept op allowed keeps
  intro edge member
  obtain ⟨reserved,active⟩ := (balanced.edges edge member).counts
  refine ⟨by rw [reserved]; exact Int.natCast_nonneg _,reserved,?_⟩
  rw [active,decide_eq_false_iff_not]
  omega

end

/-- Two screens above each other have a left edge each. -/
private def stacked : List QRect := [QRect.ofSize 0 0 100 100,QRect.ofSize 0 100 100 100]

theorem run_balanced_one_screen :
    let w := (((World.fresh 10 : World Nat).perform (.recreateEdges [QRect.ofSize 0 0 100 100] 100 100)).perform
      (.reserve ElectricLeft 7 "toggle")).perform (.recreateEdges [QRect.ofSize 0 0 200 100] 200 100)
    ∀ edge ∈ w.screenEdges.edges, 0 ≤ edge.reserved ∧
      edge.reserved = w.outstanding edge.border ∧ (w.outstanding edge.border = 0 ↔ edge.active = false) := by
  intro w
  have run : Run (fun before op after => before.Allowed op ∧ before.KeepsBalance op ∧ after = before.perform op)
      (World.fresh 10) [.recreateEdges [QRect.ofSize 0 0 100 100] 100 100,.reserve ElectricLeft 7 "toggle",
        .recreateEdges [QRect.ofSize 0 0 200 100] 200 100] w := by
    refine .cons ⟨trivial,?_,rfl⟩ (.cons ⟨?_,trivial,rfl⟩ (.cons ⟨trivial,?_,rfl⟩ (.nil _)))
    · show ∀ edge ∈ _, _
      decide
    · show (ElectricLeft,7) ∉ _
      decide
    · show ∀ edge ∈ _, _
      decide
  exact run_balanced run

/-- Created again from two left edges, each left edge counts the object twice,
    and is still active when the object has given its reservation back. -/
theorem recreateEdges_counts_twice :
    ∃ w, Run (fun before op after => World.Allowed before op ∧ after = before.perform op) (.fresh 10)
      [.recreateEdges stacked 100 200,.reserve ElectricLeft 7 "toggle",.recreateEdges stacked 100 200,
        .unreserve ElectricLeft 7] w ∧
      ∃ edge ∈ w.screenEdges.edges, edge.reserved = 1 ∧ w.outstanding edge.border = 0 ∧ edge.active = true := by
  refine ⟨_,.cons ⟨trivial,rfl⟩ (.cons ⟨?_,rfl⟩ (.cons ⟨trivial,rfl⟩ (.cons ⟨trivial,rfl⟩ (.nil _)))),?_⟩
  · show (ElectricLeft,7) ∉ _
    decide
  · decide

end KdeWorkspace.Edges
