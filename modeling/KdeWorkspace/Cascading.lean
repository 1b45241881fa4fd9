import KdeWorkspace.Geometry
import KdeWorkspace.Loops

/-!
Cascading the windows of a desktop (`Placement::placeCascaded`).

Every desktop remembers the position of its next window and how many columns and
rows it has begun. The first position of a new column or row is measured from
zero and not from the area, and the sizes are compared with the width and height
of the area and not with its far sides. A run keeps its windows inside their
areas exactly when every window of it meets `CascadesInside` (`cascades_inside_iff`).
-/
namespace KdeWorkspace.Cascading
open KdeWorkspace.Geometry Loops

inductive Policy where
  | noPlacement | default | unknown | random | smart | cascade | centered | zeroCornered | underMouse | onMainWindow | maximizing
deriving Repr, DecidableEq

structure DesktopCascadingInfo where
  pos : QPoint
  col : Nat
  row : Nat
deriving Repr, DecidableEq

/-- A client to place: its desktop, the current one, its size, the area it is
    placed in and fits into, and the placement area around it. -/
structure Request where
  desktop : Nat
  isOnAllDesktops : Bool
  current : Nat
  width : Int
  height : Int
  maxRect : QRect
  cascadeArea : QRect
  nextPlacement : Policy
  fitsWidth : width ≤ maxRect.width
  fitsHeight : height ≤ maxRect.height

inductive Outcome where
  | moved (pos : QPoint)
  | delegated (policy : Policy)
deriving Repr, DecidableEq

def cascadeOffset (area : QRect) : QPoint := ⟨area.width.tdiv 48,area.height.tdiv 48⟩

namespace Request
variable (r : Request)

def delta : QPoint := cascadeOffset r.cascadeArea

/-- The index of the desktop. -/
def dn : Nat := if r.desktop = 0 ∨ r.isOnAllDesktops then r.current-1 else r.desktop-1

def next : Policy := if r.nextPlacement = .unknown then .smart else r.nextPlacement

/-- The remembered position starts again when it is left of or above the area. -/
def initialised (inf : DesktopCascadingInfo) : DesktopCascadingInfo :=
  if inf.pos.x < 0 ∨ inf.pos.x < r.maxRect.left ∨ inf.pos.y < r.maxRect.top then ⟨⟨r.maxRect.left,r.maxRect.top⟩,0,0⟩ else inf

/-- The client goes to the position, and the next one goes further right and down. -/
def put (inf : DesktopCascadingInfo) (xp yp : Int) : DesktopCascadingInfo × Outcome :=
  ({inf with pos := ⟨xp+r.delta.x,yp+r.delta.y⟩},.moved ⟨xp,yp⟩)

/-- `placeCascaded` after the initialisation. -/
def cascade (inf : DesktopCascadingInfo) : DesktopCascadingInfo × Outcome :=
  let X := r.maxRect.left
  let Y := r.maxRect.top
  let H := r.maxRect.height
  let W := r.maxRect.width
  let yp := if inf.pos.y+r.height > H then Y else inf.pos.y
  if inf.pos.x+r.width > W ∧ yp = 0 then (inf,.delegated r.next)
  else
    let xp := if inf.pos.x+r.width > W then X else inf.pos.x
    if inf.pos.x ≠ X ∧ inf.pos.y ≠ Y then
      let newColumn := xp ≠ X ∧ yp = Y
      let inf := if newColumn then {inf with col := inf.col+1} else inf
      let xp := if newColumn then r.delta.x*inf.col else xp
      let newRow := yp ≠ Y ∧ xp = X
      let inf := if newRow then {inf with row := inf.row+1} else inf
      let yp := if newRow then r.delta.y*inf.row else yp
      -- The last resort when it still does not fit.
      if xp+r.width > W-X ∨ yp+r.height > H-Y then (inf,.delegated r.next) else r.put inf xp yp
    else r.put inf xp yp

end Request

/-- `placeCascaded`; a desktop that does not exist has no information. -/
def placeCascaded (cci : List DesktopCascadingInfo) (r : Request) : Option (List DesktopCascadingInfo × Outcome) :=
  cci[r.dn]?.map (fun inf => ((cci.set r.dn (r.cascade (r.initialised inf)).1),(r.cascade (r.initialised inf)).2))

/-- The information of `count` desktops on which no window is cascaded yet. -/
def initial (count : Nat) : List DesktopCascadingInfo := .replicate count ⟨⟨-1,-1⟩,0,0⟩

def reinitCascading (count desktop : Nat) (cci : List DesktopCascadingInfo) : Option (List DesktopCascadingInfo) :=
  if desktop = 0 then some (initial count)
  else if desktop-1 < cci.length then some (cci.set (desktop-1) ⟨⟨-1,-1⟩,0,0⟩)
  else none

inductive Op where
  | place (r : Request)
  | reinit (count desktop : Nat)

def step (cci : List DesktopCascadingInfo) : Op → List DesktopCascadingInfo → Prop
  | .place r,cci' => ∃ outcome, placeCascaded cci r = some (cci',outcome)
  | .reinit count desktop,cci' => reinitCascading count desktop cci = some cci'

/-- The client lies inside its area, or the next policy places it. -/
def Outcome.Inside (r : Request) : Outcome → Prop
  | .moved pos => r.maxRect.left ≤ pos.x ∧ pos.x+r.width ≤ r.maxRect.right+1 ∧
      r.maxRect.top ≤ pos.y ∧ pos.y+r.height ≤ r.maxRect.bottom+1
  | .delegated _ => True

section
variable (r : Request) (inf : DesktopCascadingInfo)

/-- The remembered position has left both the first column and the first row. -/
def Away : Prop := inf.pos.x ≠ r.maxRect.left ∧ inf.pos.y ≠ r.maxRect.top

def TooWide : Prop := inf.pos.x+r.width > r.maxRect.width

def TooHigh : Prop := inf.pos.y+r.height > r.maxRect.height

/-- The client passes the last resort at the position. -/
def PassesLastResort (x y : Int) : Prop :=
  x+r.width ≤ r.maxRect.width-r.maxRect.left ∧ y+r.height ≤ r.maxRect.height-r.maxRect.top

/-- The first position of a new column or row lies in the area, and so does the
    far side of a client at the remembered position. -/
@[mk_iff] structure CascadesInside : Prop where
  column : Away r inf → TooHigh r inf → ¬ TooWide r inf →
    PassesLastResort r (r.delta.x*(inf.col+1 : Nat)) r.maxRect.top →
    r.maxRect.left ≤ r.delta.x*(inf.col+1 : Nat) ∧ r.delta.x*(inf.col+1 : Nat)+r.width ≤ r.maxRect.right+1
  row : Away r inf → TooWide r inf → ¬ TooHigh r inf → inf.pos.y ≠ 0 →
    PassesLastResort r r.maxRect.left (r.delta.y*(inf.row+1 : Nat)) →
    r.maxRect.top ≤ r.delta.y*(inf.row+1 : Nat) ∧ r.delta.y*(inf.row+1 : Nat)+r.height ≤ r.maxRect.bottom+1
  right : ¬ TooWide r inf → (Away r inf → ¬ TooHigh r inf ∧ PassesLastResort r inf.pos.x inf.pos.y) →
    inf.pos.x+r.width ≤ r.maxRect.right+1
  bottom : ¬ TooHigh r inf → (TooWide r inf → inf.pos.y ≠ 0) →
    (Away r inf → ¬ TooWide r inf ∧ PassesLastResort r inf.pos.x inf.pos.y) → inf.pos.y+r.height ≤ r.maxRect.bottom+1

end

theorem initialised_inside (r : Request) (inf : DesktopCascadingInfo) :
    r.maxRect.left ≤ (r.initialised inf).pos.x ∧ r.maxRect.top ≤ (r.initialised inf).pos.y := by
  unfold Request.initialised
  split
  · exact ⟨Int.le_refl _,Int.le_refl _⟩
  · omega

section
variable {r : Request} {inf : DesktopCascadingInfo}

instance : Decidable (Away r inf) := inferInstanceAs (Decidable (_ ∧ _))
instance : Decidable (TooWide r inf) := inferInstanceAs (Decidable (_ > _))
instance : Decidable (TooHigh r inf) := inferInstanceAs (Decidable (_ > _))
instance {x y : Int} : Decidable (PassesLastResort r x y) := inferInstanceAs (Decidable (_ ∧ _))

variable (r inf)

/-- The client goes to the position, unless it needs the last resort. -/
def settle (x y : Int) : Outcome := if Away r inf ∧ ¬ PassesLastResort r x y then .delegated r.next else .moved ⟨x,y⟩

variable {r inf}

theorem settle_eq {xp yp : Int} (away : Away r inf) (info : DesktopCascadingInfo) :
    (if xp+r.width > r.maxRect.width-r.maxRect.left ∨ yp+r.height > r.maxRect.height-r.maxRect.top then (info,.delegated r.next)
      else r.put info xp yp).2 = settle r inf xp yp := by
  unfold settle PassesLastResort
  split
  · rename_i resort
    rw [if_pos ⟨away,by omega⟩]
  · rename_i fits
    rw [if_neg (fun late => late.2 (by omega))]
    rfl

theorem settle_near {x y : Int} (near : ¬ Away r inf) : settle r inf x y = .moved ⟨x,y⟩ := if_neg (fun late => near late.1)

theorem cascade_both (wide : TooWide r inf) (high : TooHigh r inf) : (r.cascade inf).2 =
    if r.maxRect.top = 0 then .delegated r.next else settle r inf r.maxRect.left r.maxRect.top := by
  have wide' : inf.pos.x+r.width > r.maxRect.width := wide
  have high' : inf.pos.y+r.height > r.maxRect.height := high
  simp only [Request.cascade,if_pos high',wide',true_and,if_true]
  split
  · rfl
  · by_cases away : Away r inf
    · rw [if_pos (show inf.pos.x ≠ r.maxRect.left ∧ inf.pos.y ≠ r.maxRect.top from away)]
      simp only [ne_eq,not_true_eq_false,false_and,if_false]
      exact settle_eq away inf
    · rw [if_neg (show ¬ (inf.pos.x ≠ r.maxRect.left ∧ inf.pos.y ≠ r.maxRect.top) from away),settle_near away]
      rfl

theorem cascade_column (narrow : ¬ TooWide r inf) (high : TooHigh r inf) : (r.cascade inf).2 =
    settle r inf (if Away r inf then r.delta.x*(inf.col+1 : Nat) else inf.pos.x) r.maxRect.top := by
  have narrow' : ¬ inf.pos.x+r.width > r.maxRect.width := narrow
  have high' : inf.pos.y+r.height > r.maxRect.height := high
  simp only [Request.cascade,if_pos high',narrow',false_and,if_false]
  by_cases away : Away r inf
  · rw [if_pos (show inf.pos.x ≠ r.maxRect.left ∧ inf.pos.y ≠ r.maxRect.top from away),if_pos away]
    simp only [ne_eq,away.1,not_false_eq_true,and_self,if_true,not_true_eq_false,false_and,if_false]
    exact settle_eq away _
  · rw [if_neg (show ¬ (inf.pos.x ≠ r.maxRect.left ∧ inf.pos.y ≠ r.maxRect.top) from away),if_neg away,settle_near away]
    rfl

theorem cascade_row (wide : TooWide r inf) (low : ¬ TooHigh r inf) : (r.cascade inf).2 =
    if inf.pos.y = 0 then .delegated r.next
    else settle r inf r.maxRect.left (if Away r inf then r.delta.y*(inf.row+1 : Nat) else inf.pos.y) := by
  have wide' : inf.pos.x+r.width > r.maxRect.width := wide
  have low' : ¬ inf.pos.y+r.height > r.maxRect.height := low
  simp only [Request.cascade,if_neg low',wide',true_and,if_true]
  split
  · rfl
  · by_cases away : Away r inf
    · rw [if_pos (show inf.pos.x ≠ r.maxRect.left ∧ inf.pos.y ≠ r.maxRect.top from away),if_pos away]
      simp only [ne_eq,away.2,not_false_eq_true,and_self,if_true,not_true_eq_false,if_false]
      exact settle_eq away _
    · rw [if_neg (show ¬ (inf.pos.x ≠ r.maxRect.left ∧ inf.pos.y ≠ r.maxRect.top) from away),if_neg away,settle_near away]
      rfl

theorem cascade_stays (narrow : ¬ TooWide r inf) (low : ¬ TooHigh r inf) :
    (r.cascade inf).2 = settle r inf inf.pos.x inf.pos.y := by
  have narrow' : ¬ inf.pos.x+r.width > r.maxRect.width := narrow
  have low' : ¬ inf.pos.y+r.height > r.maxRect.height := low
  simp only [Request.cascade,if_neg low',narrow',false_and,if_false]
  by_cases away : Away r inf
  · rw [if_pos (show inf.pos.x ≠ r.maxRect.left ∧ inf.pos.y ≠ r.maxRect.top from away)]
    simp only [ne_eq,away.2,and_false,away.1,if_false]
    exact settle_eq away _
  · rw [if_neg (show ¬ (inf.pos.x ≠ r.maxRect.left ∧ inf.pos.y ≠ r.maxRect.top) from away),settle_near away]
    rfl

theorem settle_inside {x y : Int} : (settle r inf x y).Inside r ↔
    ((Away r inf → PassesLastResort r x y) → r.maxRect.left ≤ x ∧ x+r.width ≤ r.maxRect.right+1 ∧
      r.maxRect.top ≤ y ∧ y+r.height ≤ r.maxRect.bottom+1) := by
  unfold settle
  split
  · rename_i late
    exact iff_of_true trivial (fun passes => absurd (passes late.1) late.2)
  · rename_i passes
    exact (imp_iff_right (fun away => not_not.mp (fun late => passes ⟨away,late⟩))).symm

end

theorem cascade_inside_iff (r : Request) (inf : DesktopCascadingInfo)
    (start : r.maxRect.left ≤ inf.pos.x ∧ r.maxRect.top ≤ inf.pos.y) :
    (r.cascade inf).2.Inside r ↔ CascadesInside r inf := by
  have fitsWidth : r.maxRect.left+r.width ≤ r.maxRect.right+1 := by
    have fits := r.fitsWidth
    unfold QRect.width at fits
    unfold QRect.left QRect.right
    omega
  have fitsHeight : r.maxRect.top+r.height ≤ r.maxRect.bottom+1 := by
    have fits := r.fitsHeight
    unfold QRect.height at fits
    unfold QRect.top QRect.bottom
    omega
  rw [cascadesInside_iff]
  by_cases wide : TooWide r inf <;> by_cases high : TooHigh r inf
  · rw [cascade_both wide high]
    simp only [wide,high,not_true,false_implies,implies_true,and_true]
    split
    · trivial
    · rw [settle_inside]
      grind
  · rw [cascade_row wide high]
    unfold PassesLastResort
    split
    · rename_i zero
      simp only [wide,high,zero,ne_eq,not_true,true_implies,false_implies,implies_true,and_true]
      trivial
    · rw [settle_inside]
      unfold PassesLastResort
      by_cases away : Away r inf
      · simp only [away,wide,high,if_true]
        grind
      · simp only [away,wide,high,if_false]
        grind
  · rw [cascade_column wide high,settle_inside]
    unfold PassesLastResort
    by_cases away : Away r inf
    · simp only [away,wide,high,if_true]
      grind
    · simp only [away,wide,high,if_false]
      grind
  · rw [cascade_stays wide high,settle_inside]
    unfold PassesLastResort
    by_cases away : Away r inf
    · simp only [away,wide,high]
      grind
    · simp only [away,wide,high]
      grind

/-- The operation puts its client inside the area or leaves it to the next policy. -/
def PutsInside (cci : List DesktopCascadingInfo) : Op → Prop
  | .place r => ∀ cci' outcome, placeCascaded cci r = some (cci',outcome) → outcome.Inside r
  | .reinit _ _ => True

/-- The operation meets the condition at the position its desktop remembers. -/
def MeetsInside (cci : List DesktopCascadingInfo) : Op → Prop
  | .place r => ∀ inf, cci[r.dn]? = some inf → CascadesInside r (r.initialised inf)
  | .reinit _ _ => True

theorem putsInside_iff (cci : List DesktopCascadingInfo) (op : Op) : PutsInside cci op ↔ MeetsInside cci op := by
  cases op with
  | reinit count desktop => exact Iff.rfl
  | place r =>
    have iff (inf : DesktopCascadingInfo) := cascade_inside_iff r (r.initialised inf) (initialised_inside r inf)
    constructor
    · intro inside inf found
      exact (iff inf).mp (inside _ _ (by rw [placeCascaded,found]; rfl))
    · intro condition cci' outcome placed
      obtain ⟨inf,found,same⟩ := Option.map_eq_some_iff.mp placed
      rw [← (Prod.mk.inj same).2]
      exact (iff inf).mpr (condition inf found)

/-- A run keeps every client it cascades inside its area exactly when every client
    meets the condition at the position it finds. -/
theorem cascades_inside_iff (cci : List DesktopCascadingInfo) (ops : List Op) :
    Throughout step PutsInside cci ops ↔ Throughout step MeetsInside cci ops :=
  throughout_congr putsInside_iff cci ops

/-- The area on the right of a panel at the left of the screen, and a window that is almost as high. -/
def besidePanel : Request :=
  ⟨1,false,1,300,990,.ofSize 100 0 900 1000,.ofSize 100 0 900 1000,.unknown,by decide,by decide⟩

/-- The second window begins a new column at 18, left of the area. -/
theorem cascades_over_panel : ¬ ∀ (count : Nat) (ops : List Op), Throughout step PutsInside (initial count) ops := by
  intro claim
  obtain ⟨-,later⟩ := claim 1 [.place besidePanel,.place besidePanel]
  have outside := (later [⟨⟨118,20⟩,0,0⟩] ⟨.moved ⟨100,0⟩,by decide⟩).1 [⟨⟨36,20⟩,1,0⟩] (.moved ⟨18,0⟩) (by decide)
  exact absurd outside.1 (by decide)

end KdeWorkspace.Cascading
