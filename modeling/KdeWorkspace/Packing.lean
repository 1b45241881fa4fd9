import KdeWorkspace.Geometry

/-!
Packing a window against the next window or the border of its maximize area
(`packPositionLeft`, `packPositionRight`, `packPositionUp`, `packPositionDown`).

Each function first finds how far the window may go and then stops at the
nearest window on the way (`packBelow`, `packAbove`). Reflecting all coordinates
exchanges left and right, and up and down, as far as the two limits leave the
same room (`packPosition_mirror_iff`). They can differ for two reasons: the
middle of a rectangle is rounded, so that a window and its mirror image may have
their centres on different screens, and `packPositionLeft` tests whether the
border would reach another screen with the window's right side at the limit,
where its mirror image uses the left one.
-/
namespace KdeWorkspace.Packing
open KdeWorkspace.Geometry List

/-- `KDecorationDefines::Position`. -/
inductive Position
  | PositionCenter
  | PositionLeft
  | PositionRight
  | PositionTop
  | PositionBottom
  | PositionTopLeft
  | PositionTopRight
  | PositionBottomLeft
  | PositionBottomRight
deriving Repr, DecidableEq

/-- What packing reads of a client. -/
structure Client where
  window : Nat
  geometry : QRect
  clientPos : QPoint
  clientSize : QSize
  titlebarPosition : Position
  desktop : Int
  isCurrentTab : Bool
  isShown : Bool
  isOnCurrentActivity : Bool
  isDesktop : Bool
deriving Repr, DecidableEq

/-- `NET::OnAllDesktops`. -/
def onAllDesktops : Int := -1

def Client.isOnDesktop (c : Client) (d : Int) : Bool := c.desktop = d ∨ c.desktop = onAllDesktops

def isIrrelevant (client regarding : Client) (desktop : Int) : Bool :=
  client.window = regarding.window ∨ !client.isCurrentTab ∨ !client.isShown ∨ !client.isOnDesktop desktop ∨
    !client.isOnCurrentActivity ∨ client.isDesktop

/-- The screens, the areas `screenarea` of each desktop, which may be missing for some screens, and the clients. -/
structure Workspace where
  screens : List QRect
  screenarea : Int → List QRect
  clients : List Client
  currentDesktop : Int

namespace Workspace

/-- `clientArea(MaximizeArea, p, desktop)`, where `number` is the number of the screen at a point. -/
def clientArea (number : List QRect → QPoint → Nat) (w : Workspace) (p : QPoint) (desktop : Int) : QRect :=
  let desktop := if desktop = onAllDesktops ∨ desktop = 0 then w.currentDesktop else desktop
  let screen := number w.screens p
  if screen < (w.screenarea desktop).length then (w.screenarea desktop).getD screen ⟨0,0,-1,-1⟩
  else w.screens.getD screen ⟨0,0,-1,-1⟩

/-- `Screens::intersecting`. -/
def intersecting (w : Workspace) (r : QRect) : Nat := (w.screens.filter (fun screen => screen.intersects r)).length

variable (number : List QRect → QPoint → Nat) (w : Workspace) (cl : Client)

def packPositionLeft (oldx : Int) (left_edge : Bool) : Int :=
  let newx := (w.clientArea number cl.geometry.center cl.desktop).left
  let newx := if oldx ≤ newx then
      (w.clientArea number ⟨cl.geometry.left-1,cl.geometry.center.y⟩ cl.desktop).left
    else newx
  let newx := if cl.titlebarPosition ≠ .PositionLeft then
      let rgt := newx-cl.clientPos.x
      if w.intersecting (cl.geometry.moveRight rgt) < 2 then rgt else newx
    else newx
  if oldx ≤ newx then oldx
  else w.clients.foldl (fun newx it =>
    if isIrrelevant it cl cl.desktop then newx
    else
      let x := if left_edge then it.geometry.right+1 else it.geometry.left-1
      if x > newx ∧ x < oldx ∧ ¬ (cl.geometry.top > it.geometry.bottom ∨ cl.geometry.bottom < it.geometry.top) then x
      else newx) newx

def packPositionRight (oldx : Int) (right_edge : Bool) : Int :=
  let newx := (w.clientArea number cl.geometry.center cl.desktop).right
  let newx := if oldx ≥ newx then
      (w.clientArea number ⟨cl.geometry.right+1,cl.geometry.center.y⟩ cl.desktop).right
    else newx
  let newx := if cl.titlebarPosition ≠ .PositionRight then
      let rgt := newx+cl.geometry.width-(cl.clientSize.width+cl.clientPos.x)
      if w.intersecting (cl.geometry.moveRight rgt) < 2 then rgt else newx
    else newx
  if oldx ≥ newx then oldx
  else w.clients.foldl (fun newx it =>
    if isIrrelevant it cl cl.desktop then newx
    else
      let x := if right_edge then it.geometry.left-1 else it.geometry.right+1
      if x < newx ∧ x > oldx ∧ ¬ (cl.geometry.top > it.geometry.bottom ∨ cl.geometry.bottom < it.geometry.top) then x
      else newx) newx

def packPositionUp (oldy : Int) (top_edge : Bool) : Int :=
  let newy := (w.clientArea number cl.geometry.center cl.desktop).top
  let newy := if oldy ≤ newy then
      (w.clientArea number ⟨cl.geometry.center.x,cl.geometry.top-1⟩ cl.desktop).top
    else newy
  let newy := if cl.titlebarPosition ≠ .PositionTop then
      let top := newy-cl.clientPos.y
      if w.intersecting (cl.geometry.moveTop top) < 2 then top else newy
    else newy
  if oldy ≤ newy then oldy
  else w.clients.foldl (fun newy it =>
    if isIrrelevant it cl cl.desktop then newy
    else
      let y := if top_edge then it.geometry.bottom+1 else it.geometry.top-1
      if y > newy ∧ y < oldy ∧ ¬ (cl.geometry.left > it.geometry.right ∨ cl.geometry.right < it.geometry.left) then y
      else newy) newy

def packPositionDown (oldy : Int) (bottom_edge : Bool) : Int :=
  let newy := (w.clientArea number cl.geometry.center cl.desktop).bottom
  let newy := if oldy ≥ newy then
      (w.clientArea number ⟨cl.geometry.center.x,cl.geometry.bottom+1⟩ cl.desktop).bottom
    else newy
  let newy := if cl.titlebarPosition ≠ .PositionBottom then
      let btm := newy+cl.geometry.height-(cl.clientSize.height+cl.clientPos.y)
      if w.intersecting (cl.geometry.moveBottom btm) < 2 then btm else newy
    else newy
  if oldy ≥ newy then oldy
  else w.clients.foldl (fun newy it =>
    if isIrrelevant it cl cl.desktop then newy
    else
      let y := if bottom_edge then it.geometry.top-1 else it.geometry.bottom+1
      if y < newy ∧ y > oldy ∧ ¬ (cl.geometry.left > it.geometry.right ∨ cl.geometry.right < it.geometry.left) then y
      else newy) newy

end Workspace

/-- The largest of the limit and the edges below the old position, or the old
    position when the limit is not below it. -/
def packBelow (limit old : Int) (edges : List Int) : Int :=
  if old ≤ limit then old else edges.foldl (fun new x => if x > new ∧ x < old then x else new) limit

def packAbove (limit old : Int) (edges : List Int) : Int :=
  if old ≥ limit then old else edges.foldl (fun new x => if x < new ∧ x > old then x else new) limit

theorem packAbove_mirror (c limit old : Int) (edges : List Int) :
    packAbove (c-limit) (c-old) (edges.map (fun x => c-x)) = c-packBelow limit old edges := by
  have folded : ∀ new, (edges.map (fun x => c-x)).foldl (fun new x => if x < new ∧ x > c-old then x else new) (c-new) =
      c-edges.foldl (fun new x => if x > new ∧ x < old then x else new) new := by
    induction edges with
    | nil => exact fun _ => rfl
    | cons x edges ih =>
      intro new
      simp only [map_cons,foldl_cons]
      by_cases nearer : x > new ∧ x < old
      · rw [if_pos nearer,if_pos (by omega)]; exact ih x
      · rw [if_neg nearer,if_neg (by omega)]; exact ih new
  unfold packAbove packBelow
  by_cases stays : old ≤ limit
  · rw [if_pos stays,if_pos (by omega)]
  · rw [if_neg stays,if_neg (by omega)]; exact folded limit

theorem foldl_spec (old : Int) (edges : List Int) (new : Int) :
    let last := edges.foldl (fun new x => if x > new ∧ x < old then x else new) new
    new ≤ last ∧ (last = new ∨ (last ∈ edges ∧ last < old)) ∧ ∀ x ∈ edges, x < old → x ≤ last := by
  induction edges generalizing new with
  | nil => exact ⟨Int.le_refl _,.inl rfl,fun x member => by cases member⟩
  | cons x edges ih =>
    simp only [foldl_cons]
    obtain ⟨above,source,bound⟩ := ih (if x > new ∧ x < old then x else new)
    generalize edges.foldl (fun new x => if x > new ∧ x < old then x else new) (if x > new ∧ x < old then x else new) = last at *
    by_cases nearer : x > new ∧ x < old
    · rw [if_pos nearer] at above source
      refine ⟨by omega,.inr ?_,?_⟩
      · rcases source with rfl | ⟨member,below⟩
        · exact ⟨by simp,nearer.2⟩
        · exact ⟨by simp [member],below⟩
      · intro y member below
        rcases mem_cons.mp member with rfl | member
        · exact above
        · exact bound y member below
    · rw [if_neg nearer] at above source
      refine ⟨above,?_,?_⟩
      · rcases source with rfl | ⟨member,below⟩
        · exact .inl rfl
        · exact .inr ⟨by simp [member],below⟩
      · intro y member below
        rcases mem_cons.mp member with rfl | member
        · omega
        · exact bound y member below

/-- Two limits leave the same room: they are one, neither is below the old
    position, or an edge below it is not below either of them. -/
def SameRoom (limit limit' old : Int) (edges : List Int) : Prop :=
  limit = limit' ∨ (old ≤ limit ∧ old ≤ limit') ∨ ∃ x ∈ edges, limit ≤ x ∧ limit' ≤ x ∧ x < old

theorem packBelow_eq_iff (limit limit' old : Int) (edges : List Int) :
    packBelow limit old edges = packBelow limit' old edges ↔ SameRoom limit limit' old edges := by
  by_cases one : limit = limit'
  · subst one
    exact iff_of_true rfl (.inl rfl)
  obtain ⟨above,source,bound⟩ := foldl_spec old edges limit
  obtain ⟨above',source',bound'⟩ := foldl_spec old edges limit'
  unfold packBelow
  generalize edges.foldl (fun new x => if x > new ∧ x < old then x else new) limit = last at *
  generalize edges.foldl (fun new x => if x > new ∧ x < old then x else new) limit' = last' at *
  constructor
  · intro same
    by_cases stays : old ≤ limit
    · by_cases stays' : old ≤ limit'
      · exact .inr (.inl ⟨stays,stays'⟩)
      · rw [if_pos stays,if_neg stays'] at same
        rcases source' with same' | ⟨-,below⟩ <;> omega
    · by_cases stays' : old ≤ limit'
      · rw [if_neg stays,if_pos stays'] at same
        rcases source with same' | ⟨-,below⟩ <;> omega
      · rw [if_neg stays,if_neg stays'] at same
        subst same
        rcases source with rfl | ⟨member,below⟩
        · rcases source' with rfl | ⟨member',below'⟩
          · exact absurd rfl one
          · exact .inr (.inr ⟨_,member',Int.le_refl _,above',below'⟩)
        · exact .inr (.inr ⟨_,member,above,above',below⟩)
  · rintro (same | ⟨stays,stays'⟩ | ⟨x,member,le,le',below⟩)
    · exact absurd same one
    · rw [if_pos stays,if_pos stays']
    · rw [if_neg (by omega),if_neg (by omega)]
      have high := bound x member below
      have high' := bound' x member below
      rcases source with same | ⟨inside,under⟩
      · rcases source' with same' | ⟨inside',under'⟩
        · omega
        · have := bound last' inside' under'
          omega
      · have := bound' last inside under
        rcases source' with same' | ⟨inside',under'⟩
        · omega
        · have := bound last' inside' under'
          omega

/-- The limit towards smaller coordinates: the border of the area of the window, or of the area beyond when the old
    position is not past it, moved out by the window's border when there is no titlebar and the window fits there. -/
def lowLimit (area beyond old border : Int) (hides : Bool) (fits : Int → Bool) : Int :=
  let new := if old ≤ area then beyond else area
  if hides then if fits (new-border) then new-border else new else new

/-- The limit towards larger coordinates. -/
def highLimit (area beyond old border : Int) (hides : Bool) (fits : Int → Bool) : Int :=
  let new := if old ≥ area then beyond else area
  if hides then if fits (new+border) then new+border else new else new

theorem highLimit_mirror (c area beyond old border : Int) (hides : Bool) {fits fits' : Int → Bool}
    (same : ∀ x, fits' (c-x) = fits x) :
    highLimit (c-area) (c-beyond) (c-old) border hides fits' = c-lowLimit area beyond old border hides fits := by
  unfold highLimit lowLimit
  have chosen : (if c-old ≥ c-area then c-beyond else c-area) = c-(if old ≤ area then beyond else area) := by
    split <;> split <;> omega
  simp only [chosen]
  generalize (if old ≤ area then beyond else area) = new
  rw [show c-new+border = c-(new-border) by omega,same]
  split
  · split <;> rfl
  · rfl

namespace Workspace
variable (w : Workspace) (cl : Client)

/-- The windows that stand in the way to the left or right. -/
def inRow : List Client :=
  w.clients.filter (fun it => !isIrrelevant it cl cl.desktop &&
    !decide (cl.geometry.top > it.geometry.bottom ∨ cl.geometry.bottom < it.geometry.top))

/-- The windows that stand in the way up or down. -/
def inColumn : List Client :=
  w.clients.filter (fun it => !isIrrelevant it cl cl.desktop &&
    !decide (cl.geometry.left > it.geometry.right ∨ cl.geometry.right < it.geometry.left))

def leftEdges (left_edge : Bool) : List Int :=
  (w.inRow cl).map (fun it => if left_edge then it.geometry.right+1 else it.geometry.left-1)

def rightEdges (right_edge : Bool) : List Int :=
  (w.inRow cl).map (fun it => if right_edge then it.geometry.left-1 else it.geometry.right+1)

def upEdges (top_edge : Bool) : List Int :=
  (w.inColumn cl).map (fun it => if top_edge then it.geometry.bottom+1 else it.geometry.top-1)

def downEdges (bottom_edge : Bool) : List Int :=
  (w.inColumn cl).map (fun it => if bottom_edge then it.geometry.top-1 else it.geometry.bottom+1)

/-- The window moved by `move` to the coordinate meets fewer than two screens. -/
def fits (move : QRect → Int → QRect) (x : Int) : Bool := decide (w.intersecting (move cl.geometry x) < 2)

end Workspace

theorem foldl_edges (clients : List Client) (irrelevant : Client → Bool) (apart : Client → Prop) (edge : Client → Int)
    (nearer : Int → Int → Prop) (past : Int → Prop) [∀ it, Decidable (apart it)] [∀ x new, Decidable (nearer x new)]
    [∀ x, Decidable (past x)] (new : Int) :
    clients.foldl (fun new it => if irrelevant it = true then new
      else if nearer (edge it) new ∧ past (edge it) ∧ ¬ apart it then edge it else new) new =
    ((clients.filter (fun it => !irrelevant it && !decide (apart it))).map edge).foldl
      (fun new x => if nearer x new ∧ past x then x else new) new := by
  induction clients generalizing new with
  | nil => rfl
  | cons it clients ih =>
    simp only [foldl_cons,filter_cons]
    by_cases counts : irrelevant it = true
    · simp only [counts,Bool.not_true,Bool.false_and,Bool.false_eq_true,↓reduceIte]
      exact ih _
    · by_cases misses : apart it
      · simp only [counts,misses,not_true_eq_false,and_false,decide_true,Bool.not_true,Bool.and_false,
          Bool.false_eq_true,↓reduceIte]
        exact ih _
      · simp only [counts,misses,not_false_eq_true,and_true,decide_false,Bool.not_false,Bool.and_self,
          Bool.false_eq_true,↓reduceIte,map_cons,foldl_cons]
        exact ih _

section
variable (number : List QRect → QPoint → Nat) (w : Workspace) (cl : Client)

theorem packPositionLeft_eq (oldx : Int) (left_edge : Bool) : w.packPositionLeft number cl oldx left_edge =
    packBelow (lowLimit (w.clientArea number cl.geometry.center cl.desktop).left
      (w.clientArea number ⟨cl.geometry.left-1,cl.geometry.center.y⟩ cl.desktop).left oldx cl.clientPos.x
      (cl.titlebarPosition ≠ .PositionLeft) (w.fits cl QRect.moveRight)) oldx (w.leftEdges cl left_edge) := by
  simp only [Workspace.packPositionLeft,packBelow,lowLimit,Workspace.fits,decide_eq_true_eq,Workspace.leftEdges,
    Workspace.inRow]
  exact if_congr Iff.rfl rfl (foldl_edges w.clients (fun it => isIrrelevant it cl cl.desktop)
    (fun it => cl.geometry.top > it.geometry.bottom ∨ cl.geometry.bottom < it.geometry.top)
    (fun it => if left_edge then it.geometry.right+1 else it.geometry.left-1) (fun x new => x > new) (fun x => x < oldx) _)

theorem packPositionRight_eq (oldx : Int) (right_edge : Bool) : w.packPositionRight number cl oldx right_edge =
    packAbove (highLimit (w.clientArea number cl.geometry.center cl.desktop).right
      (w.clientArea number ⟨cl.geometry.right+1,cl.geometry.center.y⟩ cl.desktop).right oldx
      (cl.geometry.width-(cl.clientSize.width+cl.clientPos.x)) (cl.titlebarPosition ≠ .PositionRight)
      (w.fits cl QRect.moveRight)) oldx (w.rightEdges cl right_edge) := by
  simp only [Workspace.packPositionRight,packAbove,highLimit,Workspace.fits,decide_eq_true_eq,Workspace.rightEdges,
    Workspace.inRow,Int.add_sub_assoc]
  exact if_congr Iff.rfl rfl (foldl_edges w.clients (fun it => isIrrelevant it cl cl.desktop)
    (fun it => cl.geometry.top > it.geometry.bottom ∨ cl.geometry.bottom < it.geometry.top)
    (fun it => if right_edge then it.geometry.left-1 else it.geometry.right+1) (fun x new => x < new) (fun x => x > oldx) _)

theorem packPositionUp_eq (oldy : Int) (top_edge : Bool) : w.packPositionUp number cl oldy top_edge =
    packBelow (lowLimit (w.clientArea number cl.geometry.center cl.desktop).top
      (w.clientArea number ⟨cl.geometry.center.x,cl.geometry.top-1⟩ cl.desktop).top oldy cl.clientPos.y
      (cl.titlebarPosition ≠ .PositionTop) (w.fits cl QRect.moveTop)) oldy (w.upEdges cl top_edge) := by
  simp only [Workspace.packPositionUp,packBelow,lowLimit,Workspace.fits,decide_eq_true_eq,Workspace.upEdges,
    Workspace.inColumn]
  exact if_congr Iff.rfl rfl (foldl_edges w.clients (fun it => isIrrelevant it cl cl.desktop)
    (fun it => cl.geometry.left > it.geometry.right ∨ cl.geometry.right < it.geometry.left)
    (fun it => if top_edge then it.geometry.bottom+1 else it.geometry.top-1) (fun x new => x > new) (fun x => x < oldy) _)

theorem packPositionDown_eq (oldy : Int) (bottom_edge : Bool) : w.packPositionDown number cl oldy bottom_edge =
    packAbove (highLimit (w.clientArea number cl.geometry.center cl.desktop).bottom
      (w.clientArea number ⟨cl.geometry.center.x,cl.geometry.bottom+1⟩ cl.desktop).bottom oldy
      (cl.geometry.height-(cl.clientSize.height+cl.clientPos.y)) (cl.titlebarPosition ≠ .PositionBottom)
      (w.fits cl QRect.moveBottom)) oldy (w.downEdges cl bottom_edge) := by
  simp only [Workspace.packPositionDown,packAbove,highLimit,Workspace.fits,decide_eq_true_eq,Workspace.downEdges,
    Workspace.inColumn,Int.add_sub_assoc]
  exact if_congr Iff.rfl rfl (foldl_edges w.clients (fun it => isIrrelevant it cl cl.desktop)
    (fun it => cl.geometry.left > it.geometry.right ∨ cl.geometry.right < it.geometry.left)
    (fun it => if bottom_edge then it.geometry.top-1 else it.geometry.bottom+1) (fun x new => x < new) (fun x => x > oldy) _)

end

/-- How far a point lies beside and above or below a rectangle. -/
def distance (p : QPoint) (r : QRect) : Int × Int :=
  (max 0 (max (r.left-p.x) (p.x-r.right)),max 0 (max (r.top-p.y) (p.y-r.bottom)))

/-- The number of the screen at a point is the number of a screen, and depends on nothing but the distances of the
    point to the screens: it is the screen that contains the point, or the closest one. -/
structure ByDistance (number : List QRect → QPoint → Nat) : Prop where
  inRange : ∀ screens p, screens ≠ [] → number screens p < screens.length
  decided : ∀ screens screens' p p', screens.map (distance p) = screens'.map (distance p') →
    number screens p = number screens' p'

/-- Reflection about a vertical axis; `c` is the sum of the coordinates of a pixel and its image. -/
def mirrorPointX (c : Int) (p : QPoint) : QPoint := ⟨c-p.x,p.y⟩

/-- Reflection about a horizontal axis. -/
def mirrorPointY (c : Int) (p : QPoint) : QPoint := ⟨p.x,c-p.y⟩

def mirrorRectX (c : Int) (r : QRect) : QRect := ⟨c-r.x2,r.y1,c-r.x1,r.y2⟩
def mirrorRectY (c : Int) (r : QRect) : QRect := ⟨r.x1,c-r.y2,r.x2,c-r.y1⟩

def Position.mirrorX : Position → Position
  | .PositionLeft => .PositionRight
  | .PositionRight => .PositionLeft
  | .PositionTopLeft => .PositionTopRight
  | .PositionTopRight => .PositionTopLeft
  | .PositionBottomLeft => .PositionBottomRight
  | .PositionBottomRight => .PositionBottomLeft
  | position => position

def Position.mirrorY : Position → Position
  | .PositionTop => .PositionBottom
  | .PositionBottom => .PositionTop
  | .PositionTopLeft => .PositionBottomLeft
  | .PositionTopRight => .PositionBottomRight
  | .PositionBottomLeft => .PositionTopLeft
  | .PositionBottomRight => .PositionTopRight
  | position => position

/-- The left and the right border change places. -/
def Client.mirrorX (c : Int) (cl : Client) : Client :=
  {cl with
    geometry := mirrorRectX c cl.geometry
    clientPos := ⟨cl.geometry.width-(cl.clientSize.width+cl.clientPos.x),cl.clientPos.y⟩
    titlebarPosition := cl.titlebarPosition.mirrorX}

/-- The upper and the lower border change places. -/
def Client.mirrorY (c : Int) (cl : Client) : Client :=
  {cl with
    geometry := mirrorRectY c cl.geometry
    clientPos := ⟨cl.clientPos.x,cl.geometry.height-(cl.clientSize.height+cl.clientPos.y)⟩
    titlebarPosition := cl.titlebarPosition.mirrorY}

def Workspace.mirrorX (c : Int) (w : Workspace) : Workspace :=
  {w with
    screens := w.screens.map (mirrorRectX c)
    screenarea := fun desktop => (w.screenarea desktop).map (mirrorRectX c)
    clients := w.clients.map (Client.mirrorX c)}

def Workspace.mirrorY (c : Int) (w : Workspace) : Workspace :=
  {w with
    screens := w.screens.map (mirrorRectY c)
    screenarea := fun desktop => (w.screenarea desktop).map (mirrorRectY c)
    clients := w.clients.map (Client.mirrorY c)}

section
variable (c : Int)

theorem mirrorRectX_mirrorRectX (r : QRect) : mirrorRectX c (mirrorRectX c r) = r := by
  simp only [mirrorRectX,Int.sub_sub_self]

theorem mirrorRectY_mirrorRectY (r : QRect) : mirrorRectY c (mirrorRectY c r) = r := by
  simp only [mirrorRectY,Int.sub_sub_self]

theorem mirrorX_mirrorX (cl : Client) : (cl.mirrorX c).mirrorX c = cl := by
  obtain ⟨window,geometry,clientPos,clientSize,titlebarPosition,desktop,tab,shown,activity,isDesktop⟩ := cl
  simp only [Client.mirrorX,mirrorRectX_mirrorRectX,Client.mk.injEq,true_and,and_true]
  refine ⟨?_,by cases titlebarPosition <;> rfl⟩
  cases clientPos
  simp only [mirrorRectX,QRect.width,QPoint.mk.injEq,and_true]
  omega

theorem mirrorY_mirrorY (cl : Client) : (cl.mirrorY c).mirrorY c = cl := by
  obtain ⟨window,geometry,clientPos,clientSize,titlebarPosition,desktop,tab,shown,activity,isDesktop⟩ := cl
  simp only [Client.mirrorY,mirrorRectY_mirrorRectY,Client.mk.injEq,true_and,and_true]
  refine ⟨?_,by cases titlebarPosition <;> rfl⟩
  cases clientPos
  simp only [mirrorRectY,QRect.height,QPoint.mk.injEq,true_and]
  omega

theorem distance_mirrorX (p : QPoint) (r : QRect) : distance (mirrorPointX c p) (mirrorRectX c r) = distance p r := by
  simp only [distance,mirrorPointX,mirrorRectX,QRect.left,QRect.right,QRect.top,QRect.bottom,Prod.mk.injEq,and_true]
  omega

theorem distance_mirrorY (p : QPoint) (r : QRect) : distance (mirrorPointY c p) (mirrorRectY c r) = distance p r := by
  simp only [distance,mirrorPointY,mirrorRectY,QRect.left,QRect.right,QRect.top,QRect.bottom,Prod.mk.injEq,true_and]
  omega

end

section
variable {number : List QRect → QPoint → Nat} (byDistance : ByDistance number) (c : Int) (w : Workspace)
  (screens : w.screens ≠ [])
include byDistance screens

theorem clientArea_mirrorX (p : QPoint) (desktop : Int) :
    (w.mirrorX c).clientArea number (mirrorPointX c p) desktop = mirrorRectX c (w.clientArea number p desktop) := by
  have same : number (w.screens.map (mirrorRectX c)) (mirrorPointX c p) = number w.screens p := by
    refine byDistance.decided _ _ _ _ ?_
    rw [map_map]
    exact map_congr_left (fun r _ => distance_mirrorX c p r)
  have inside := byDistance.inRange w.screens p screens
  simp only [Workspace.clientArea,Workspace.mirrorX,same,length_map]
  generalize number w.screens p = screen at inside
  generalize (if desktop = onAllDesktops ∨ desktop = 0 then w.currentDesktop else desktop) = d
  split
  · rename_i known
    simp only [getD_eq_getElem?_getD,getElem?_map,getElem?_eq_getElem known,Option.map_some,Option.getD_some]
  · simp only [getD_eq_getElem?_getD,getElem?_map,getElem?_eq_getElem inside,Option.map_some,Option.getD_some]

theorem clientArea_mirrorY (p : QPoint) (desktop : Int) :
    (w.mirrorY c).clientArea number (mirrorPointY c p) desktop = mirrorRectY c (w.clientArea number p desktop) := by
  have same : number (w.screens.map (mirrorRectY c)) (mirrorPointY c p) = number w.screens p := by
    refine byDistance.decided _ _ _ _ ?_
    rw [map_map]
    exact map_congr_left (fun r _ => distance_mirrorY c p r)
  have inside := byDistance.inRange w.screens p screens
  simp only [Workspace.clientArea,Workspace.mirrorY,same,length_map]
  generalize number w.screens p = screen at inside
  generalize (if desktop = onAllDesktops ∨ desktop = 0 then w.currentDesktop else desktop) = d
  split
  · rename_i known
    simp only [getD_eq_getElem?_getD,getElem?_map,getElem?_eq_getElem known,Option.map_some,Option.getD_some]
  · simp only [getD_eq_getElem?_getD,getElem?_map,getElem?_eq_getElem inside,Option.map_some,Option.getD_some]

end

section
variable (c : Int) (w : Workspace) (cl : Client)

theorem intersecting_mirrorX (r : QRect) : (w.mirrorX c).intersecting (mirrorRectX c r) = w.intersecting r := by
  simp only [Workspace.intersecting,Workspace.mirrorX,filter_map,length_map]
  congr 1
  refine filter_congr (fun screen _ => ?_)
  refine decide_eq_decide.mpr ?_
  simp only [mirrorRectX]
  omega

theorem intersecting_mirrorY (r : QRect) : (w.mirrorY c).intersecting (mirrorRectY c r) = w.intersecting r := by
  simp only [Workspace.intersecting,Workspace.mirrorY,filter_map,length_map]
  congr 1
  refine filter_congr (fun screen _ => ?_)
  refine decide_eq_decide.mpr ?_
  simp only [mirrorRectY]
  omega

theorem rightEdges_mirrorX (edge : Bool) :
    (w.mirrorX c).rightEdges (cl.mirrorX c) edge = (w.leftEdges cl edge).map (fun x => c-x) := by
  simp only [Workspace.rightEdges,Workspace.leftEdges,Workspace.inRow,Workspace.mirrorX,filter_map,map_map]
  refine map_congr_left (fun it _ => ?_)
  simp only [Function.comp_apply,Client.mirrorX,mirrorRectX,QRect.left,QRect.right]
  split <;> omega

theorem downEdges_mirrorY (edge : Bool) :
    (w.mirrorY c).downEdges (cl.mirrorY c) edge = (w.upEdges cl edge).map (fun y => c-y) := by
  simp only [Workspace.downEdges,Workspace.upEdges,Workspace.inColumn,Workspace.mirrorY,filter_map,map_map]
  refine map_congr_left (fun it _ => ?_)
  simp only [Function.comp_apply,Client.mirrorY,mirrorRectY,QRect.top,QRect.bottom]
  split <;> omega

end

/-- The middle of a rectangle as its mirror image has it: an odd width is rounded to the other side. -/
def oppositeCenterX (c : Int) (r : QRect) : QPoint := mirrorPointX c (mirrorRectX c r).center
def oppositeCenterY (c : Int) (r : QRect) : QPoint := mirrorPointY c (mirrorRectY c r).center

/-- To the left, the limits found from the centre of the window and with its right side at the limit leave the same
    room as those found from the opposite centre and with its left side at the limit. -/
def LeftMirrors (number : List QRect → QPoint → Nat) (c : Int) (w : Workspace) (cl : Client) (oldx : Int)
    (left_edge : Bool) : Prop :=
  let beyond := (w.clientArea number ⟨cl.geometry.left-1,cl.geometry.center.y⟩ cl.desktop).left
  SameRoom
    (lowLimit (w.clientArea number cl.geometry.center cl.desktop).left beyond oldx cl.clientPos.x
      (cl.titlebarPosition ≠ .PositionLeft) (w.fits cl QRect.moveRight))
    (lowLimit (w.clientArea number (oppositeCenterX c cl.geometry) cl.desktop).left beyond oldx cl.clientPos.x
      (cl.titlebarPosition ≠ .PositionLeft) (w.fits cl QRect.moveLeft))
    oldx (w.leftEdges cl left_edge)

/-- Upwards, the limits found from the centre of the window leave the same room
    as those found from the opposite centre. -/
def UpMirrors (number : List QRect → QPoint → Nat) (c : Int) (w : Workspace) (cl : Client) (oldy : Int)
    (top_edge : Bool) : Prop :=
  let beyond := (w.clientArea number ⟨cl.geometry.center.x,cl.geometry.top-1⟩ cl.desktop).top
  SameRoom
    (lowLimit (w.clientArea number cl.geometry.center cl.desktop).top beyond oldy cl.clientPos.y
      (cl.titlebarPosition ≠ .PositionTop) (w.fits cl QRect.moveTop))
    (lowLimit (w.clientArea number (oppositeCenterY c cl.geometry) cl.desktop).top beyond oldy cl.clientPos.y
      (cl.titlebarPosition ≠ .PositionTop) (w.fits cl QRect.moveTop))
    oldy (w.upEdges cl top_edge)

section
variable {number : List QRect → QPoint → Nat} (byDistance : ByDistance number) (c : Int) {w : Workspace}
  (screens : w.screens ≠ []) (cl : Client) (old : Int) (edge : Bool)
include byDistance screens

theorem packPositionLeft_mirror_iff :
    w.packPositionLeft number cl old edge = c-(w.mirrorX c).packPositionRight number (cl.mirrorX c) (c-old) edge ↔
      LeftMirrors number c w cl old edge := by
  have near : ((w.mirrorX c).clientArea number (cl.mirrorX c).geometry.center cl.desktop).right =
      c-(w.clientArea number (oppositeCenterX c cl.geometry) cl.desktop).left := by
    have area := clientArea_mirrorX byDistance c w screens (oppositeCenterX c cl.geometry) cl.desktop
    simp only [oppositeCenterX,mirrorPointX,Int.sub_sub_self] at area ⊢
    exact congrArg QRect.right area
  have beyond : ((w.mirrorX c).clientArea number ⟨(cl.mirrorX c).geometry.right+1,(cl.mirrorX c).geometry.center.y⟩
      cl.desktop).right = c-(w.clientArea number ⟨cl.geometry.left-1,cl.geometry.center.y⟩ cl.desktop).left := by
    have area := clientArea_mirrorX byDistance c w screens ⟨cl.geometry.left-1,cl.geometry.center.y⟩ cl.desktop
    have point : mirrorPointX c ⟨cl.geometry.left-1,cl.geometry.center.y⟩ =
        ⟨(cl.mirrorX c).geometry.right+1,(cl.mirrorX c).geometry.center.y⟩ := by
      simp only [mirrorPointX,Client.mirrorX,mirrorRectX,QRect.right,QRect.left,QRect.center,QPoint.mk.injEq,and_true]
      omega
    rw [point] at area
    exact congrArg QRect.right area
  have border : (cl.mirrorX c).geometry.width-((cl.mirrorX c).clientSize.width+(cl.mirrorX c).clientPos.x) =
      cl.clientPos.x := by
    simp only [Client.mirrorX,mirrorRectX,QRect.width]
    omega
  have titlebar : ((cl.mirrorX c).titlebarPosition ≠ .PositionRight) = (cl.titlebarPosition ≠ .PositionLeft) := by
    simp only [Client.mirrorX]
    cases cl.titlebarPosition <;> simp [Position.mirrorX]
  have fits : ∀ x, (w.mirrorX c).fits (cl.mirrorX c) QRect.moveRight (c-x) = w.fits cl QRect.moveLeft x := by
    intro x
    have moved : (cl.mirrorX c).geometry.moveRight (c-x) = mirrorRectX c (cl.geometry.moveLeft x) := by
      simp only [Client.mirrorX,mirrorRectX,QRect.moveRight,QRect.moveLeft,QRect.mk.injEq,and_true]
      omega
    simp only [Workspace.fits,moved,intersecting_mirrorX]
  rw [packPositionRight_eq,show (cl.mirrorX c).desktop = cl.desktop from rfl,near,beyond,border,rightEdges_mirrorX,
    highLimit_mirror c _ _ _ _ _ fits,packAbove_mirror,Int.sub_sub_self,packPositionLeft_eq,packBelow_eq_iff]
  simp only [titlebar,LeftMirrors]

theorem packPositionUp_mirror_iff :
    w.packPositionUp number cl old edge = c-(w.mirrorY c).packPositionDown number (cl.mirrorY c) (c-old) edge ↔
      UpMirrors number c w cl old edge := by
  have near : ((w.mirrorY c).clientArea number (cl.mirrorY c).geometry.center cl.desktop).bottom =
      c-(w.clientArea number (oppositeCenterY c cl.geometry) cl.desktop).top := by
    have area := clientArea_mirrorY byDistance c w screens (oppositeCenterY c cl.geometry) cl.desktop
    simp only [oppositeCenterY,mirrorPointY,Int.sub_sub_self] at area ⊢
    exact congrArg QRect.bottom area
  have beyond : ((w.mirrorY c).clientArea number ⟨(cl.mirrorY c).geometry.center.x,(cl.mirrorY c).geometry.bottom+1⟩
      cl.desktop).bottom = c-(w.clientArea number ⟨cl.geometry.center.x,cl.geometry.top-1⟩ cl.desktop).top := by
    have area := clientArea_mirrorY byDistance c w screens ⟨cl.geometry.center.x,cl.geometry.top-1⟩ cl.desktop
    have point : mirrorPointY c ⟨cl.geometry.center.x,cl.geometry.top-1⟩ =
        ⟨(cl.mirrorY c).geometry.center.x,(cl.mirrorY c).geometry.bottom+1⟩ := by
      simp only [mirrorPointY,Client.mirrorY,mirrorRectY,QRect.bottom,QRect.top,QRect.center,QPoint.mk.injEq,true_and]
      omega
    rw [point] at area
    exact congrArg QRect.bottom area
  have border : (cl.mirrorY c).geometry.height-((cl.mirrorY c).clientSize.height+(cl.mirrorY c).clientPos.y) =
      cl.clientPos.y := by
    simp only [Client.mirrorY,mirrorRectY,QRect.height]
    omega
  have titlebar : ((cl.mirrorY c).titlebarPosition ≠ .PositionBottom) = (cl.titlebarPosition ≠ .PositionTop) := by
    simp only [Client.mirrorY]
    cases cl.titlebarPosition <;> simp [Position.mirrorY]
  have fits : ∀ x, (w.mirrorY c).fits (cl.mirrorY c) QRect.moveBottom (c-x) = w.fits cl QRect.moveTop x := by
    intro x
    have moved : (cl.mirrorY c).geometry.moveBottom (c-x) = mirrorRectY c (cl.geometry.moveTop x) := by
      simp only [Client.mirrorY,mirrorRectY,QRect.moveBottom,QRect.moveTop,QRect.mk.injEq,and_true,true_and]
      omega
    simp only [Workspace.fits,moved,intersecting_mirrorY]
  rw [packPositionDown_eq,show (cl.mirrorY c).desktop = cl.desktop from rfl,near,beyond,border,downEdges_mirrorY,
    highLimit_mirror c _ _ _ _ _ fits,packAbove_mirror,Int.sub_sub_self,packPositionUp_eq,packBelow_eq_iff]
  simp only [titlebar,UpMirrors]

end

theorem workspace_mirrorX_mirrorX (c : Int) (w : Workspace) : (w.mirrorX c).mirrorX c = w := by
  simp only [Workspace.mirrorX,map_map]
  have rects : ∀ areas : List QRect, areas.map (mirrorRectX c ∘ mirrorRectX c) = areas := fun areas =>
    (map_congr_left (fun r _ => mirrorRectX_mirrorRectX c r)).trans (map_id' areas)
  have clients : w.clients.map (Client.mirrorX c ∘ Client.mirrorX c) = w.clients :=
    (map_congr_left (fun cl _ => mirrorX_mirrorX c cl)).trans (map_id' w.clients)
  simp only [rects,clients]

theorem workspace_mirrorY_mirrorY (c : Int) (w : Workspace) : (w.mirrorY c).mirrorY c = w := by
  simp only [Workspace.mirrorY,map_map]
  have rects : ∀ areas : List QRect, areas.map (mirrorRectY c ∘ mirrorRectY c) = areas := fun areas =>
    (map_congr_left (fun r _ => mirrorRectY_mirrorRectY c r)).trans (map_id' areas)
  have clients : w.clients.map (Client.mirrorY c ∘ Client.mirrorY c) = w.clients :=
    (map_congr_left (fun cl _ => mirrorY_mirrorY c cl)).trans (map_id' w.clients)
  simp only [rects,clients]

/-- Each function is the mirror image of its counterpart exactly where the
    limits of the window, or those of its mirror image, leave the same room. -/
theorem packPosition_mirror_iff {number : List QRect → QPoint → Nat} (byDistance : ByDistance number) {w : Workspace}
    (screens : w.screens ≠ []) (cl : Client) (c old : Int) (edge : Bool) :
    (w.packPositionLeft number cl old edge = c-(w.mirrorX c).packPositionRight number (cl.mirrorX c) (c-old) edge ↔
      LeftMirrors number c w cl old edge) ∧
    (w.packPositionRight number cl old edge = c-(w.mirrorX c).packPositionLeft number (cl.mirrorX c) (c-old) edge ↔
      LeftMirrors number c (w.mirrorX c) (cl.mirrorX c) (c-old) edge) ∧
    (w.packPositionUp number cl old edge = c-(w.mirrorY c).packPositionDown number (cl.mirrorY c) (c-old) edge ↔
      UpMirrors number c w cl old edge) ∧
    (w.packPositionDown number cl old edge = c-(w.mirrorY c).packPositionUp number (cl.mirrorY c) (c-old) edge ↔
      UpMirrors number c (w.mirrorY c) (cl.mirrorY c) (c-old) edge) := by
  refine ⟨packPositionLeft_mirror_iff byDistance c screens cl old edge,?_,
    packPositionUp_mirror_iff byDistance c screens cl old edge,?_⟩
  · have image := packPositionLeft_mirror_iff byDistance c (w := w.mirrorX c) (by simpa [Workspace.mirrorX] using screens)
      (cl.mirrorX c) (c-old) edge
    rw [workspace_mirrorX_mirrorX,mirrorX_mirrorX,Int.sub_sub_self] at image
    rw [← image]
    omega
  · have image := packPositionUp_mirror_iff byDistance c (w := w.mirrorY c) (by simpa [Workspace.mirrorY] using screens)
      (cl.mirrorY c) (c-old) edge
    rw [workspace_mirrorY_mirrorY,mirrorY_mirrorY,Int.sub_sub_self] at image
    rw [← image]
    omega

/-- The number of the first of the screens that are closest to the point. -/
def closest (screens : List QRect) (p : QPoint) : Nat :=
  let distances := screens.map (fun r => (distance p r).1+(distance p r).2)
  distances.idxOf (distances.min?.getD 0)

theorem closest_byDistance : ByDistance closest where
  inRange := by
    intro screens p some
    have nonempty : screens.map (fun r => (distance p r).1+(distance p r).2) ≠ [] := by simpa using some
    obtain ⟨least,found⟩ := Option.isSome_iff_exists.mp (isSome_min?_of_ne_nil nonempty)
    have member := min?_mem found
    have bound := idxOf_lt_length_of_mem member
    rw [length_map] at bound
    simpa only [closest,found,Option.getD_some] using bound
  decided := by
    intro screens screens' p p' same
    have sums := congrArg (map (fun d : Int × Int => d.1+d.2)) same
    rw [map_map,map_map] at sums
    have equal : screens.map (fun r => (distance p r).1+(distance p r).2) =
        screens'.map (fun r => (distance p' r).1+(distance p' r).2) := sums
    simp only [closest,equal]

/-- Two screens side by side, and a window on the right one with borders and the titlebar on top. -/
private def bordered : Client := ⟨1,⟨120,20,150,50⟩,⟨5,5⟩,⟨21,21⟩,.PositionTop,1,true,true,true,false⟩

private def sideBySide : Workspace := ⟨[⟨0,0,99,99⟩,⟨100,0,199,99⟩],fun _ => [],[bordered],1⟩

theorem packPosition_mirror_iff_side_by_side :
    (sideBySide.packPositionLeft closest bordered 120 true =
      199-(sideBySide.mirrorX 199).packPositionRight closest (bordered.mirrorX 199) (199-120) true ↔
        LeftMirrors closest 199 sideBySide bordered 120 true) ∧
    (sideBySide.packPositionUp closest bordered 20 true =
      199-(sideBySide.mirrorY 199).packPositionDown closest (bordered.mirrorY 199) (199-20) true ↔
        UpMirrors closest 199 sideBySide bordered 20 true) :=
  ⟨(packPosition_mirror_iff closest_byDistance (by decide) bordered 199 120 true).1,
    (packPosition_mirror_iff closest_byDistance (by decide) bordered 199 20 true).2.2.1⟩

/-- To the left the window's border is moved onto the other screen, in the mirror image it is not. -/
theorem packPositionLeft_onto_other_screen :
    ∃ (w : Workspace) (cl : Client), w.screens = [⟨0,0,99,99⟩,⟨100,0,199,99⟩] ∧ cl ∈ w.clients ∧
      w.packPositionLeft closest cl 120 true = 95 ∧
      199-(w.mirrorX 199).packPositionRight closest (cl.mirrorX 199) (199-120) true = 100 :=
  ⟨sideBySide,bordered,rfl,by decide,by decide,by decide⟩

end KdeWorkspace.Packing
