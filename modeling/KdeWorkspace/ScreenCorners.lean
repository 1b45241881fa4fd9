import Mathlib.Data.List.Count
import KdeWorkspace.Edges

/-!
The edges of a screen arrangement and their corners. What `recreateEdges`
creates is, screen after screen, the list of borders and places `edgesOf`
(`kinds_recreateEdges`).

Every corner of the display is wanted from one screen that no other screen lies
beyond, on neither side of the corner. Disjoint screens have at most one such
screen for each corner, and `recreateEdges` creates the four corners exactly
when each corner has one (`fourCorners_iff`).

While the cursor is near an edge, `updateApproaching` reports how near. The
report stays between zero and one for every border but the top left corner,
whose distance is measured from the origin of the display (`approaching_iff`).
-/
namespace KdeWorkspace.ScreenCorners
open KdeWorkspace.Geometry Edges List
open ElectricBorder
universe u

/-- The border of an edge and where it lies. -/
def kind {Object : Type u} (edge : Edge Object) : ElectricBorder × QRect := (edge.border,edge.geometry)

/-- What `createVerticalEdge` creates for the left or right side of a screen. -/
def verticalEdges (cornerOffset : Int) (screens : List QRect) (border : ElectricBorder) (screen fullArea : QRect) :
    List (ElectricBorder × QRect) :=
  let top := isTopScreen screens screen fullArea
  let bottom := isBottomScreen screens screen fullArea
  let y := if top then screen.y+cornerOffset else screen.y
  let height := screen.height-(if top then cornerOffset else 0)-(if bottom then cornerOffset else 0)
  let x := if border = ElectricLeft then screen.x else screen.x+screen.width-1
  (if top then [(if border = ElectricLeft then ElectricTopLeft else ElectricTopRight,QRect.ofSize x screen.y 1 1)]
    else []) ++
  (if bottom then [(if border = ElectricLeft then ElectricBottomLeft else ElectricBottomRight,
    QRect.ofSize x (screen.y+screen.height-1) 1 1)] else []) ++
  [(border,QRect.ofSize x y 1 height)]

/-- What `createHorizontalEdge` creates for the top or bottom side of a screen. -/
def horizontalEdges (cornerOffset : Int) (screens : List QRect) (border : ElectricBorder) (screen fullArea : QRect) :
    List (ElectricBorder × QRect) :=
  let left := isLeftScreen screens screen fullArea
  let right := isRightScreen screens screen fullArea
  let x := if left then screen.x+cornerOffset else screen.x
  let width := screen.width-(if left then cornerOffset else 0)-(if right then cornerOffset else 0)
  let y := if border = ElectricTop then screen.y else screen.y+screen.height-1
  [(border,QRect.ofSize x y width 1)]

/-- The borders and places of the edges of one screen. -/
def edgesOf (cornerOffset : Int) (screens : List QRect) (fullArea screen : QRect) : List (ElectricBorder × QRect) :=
  (if isLeftScreen screens screen fullArea then verticalEdges cornerOffset screens ElectricLeft screen fullArea else []) ++
  (if isRightScreen screens screen fullArea then verticalEdges cornerOffset screens ElectricRight screen fullArea else []) ++
  (if isTopScreen screens screen fullArea then horizontalEdges cornerOffset screens ElectricTop screen fullArea else []) ++
  (if isBottomScreen screens screen fullArea then horizontalEdges cornerOffset screens ElectricBottom screen fullArea
    else [])

/-- The second state has the edges of the first and then edges of these kinds. -/
structure Creates {Object : Type u} (s t : ScreenEdges Object) (kinds : List (ElectricBorder × QRect)) : Prop where
  edges : t.edges.map kind = s.edges.map kind ++ kinds
  cornerOffset : t.cornerOffset = s.cornerOffset

section
variable {Object : Type u}

theorem kind_switchEdge (layout : Orientations) (edge : Edge Object) :
    kind (ScreenEdges.switchEdge layout Edge.reserve edge) = kind edge := by
  have border : ∀ edge : Edge Object, edge.reserve.border = edge.border := fun _ => rfl
  rw [switchEdge_eq layout border edge]
  split <;> rfl

theorem kind_createEdge (s : ScreenEdges Object) (border : ElectricBorder) (x y width height : Int) :
    kind (s.createEdge border x y width height) = (border,QRect.ofSize x y width height) := by
  unfold ScreenEdges.createEdge
  dsimp only
  split
  · rw [kind_switchEdge]
    split <;> rfl
  · split <;> rfl

variable {s t v : ScreenEdges Object} {kinds more : List (ElectricBorder × QRect)}

theorem Creates.refl (s : ScreenEdges Object) : Creates s s [] := ⟨by simp,rfl⟩

theorem Creates.trans (first : Creates s t kinds) (second : Creates t v more) : Creates s v (kinds ++ more) := by
  refine ⟨?_,second.cornerOffset.trans first.cornerOffset⟩
  rw [second.edges,first.edges,append_assoc]

theorem addEdge_creates (s : ScreenEdges Object) (border : ElectricBorder) (x y width height : Int) :
    Creates s (s.addEdge border x y width height) [(border,QRect.ofSize x y width height)] := by
  refine ⟨?_,rfl⟩
  simp [ScreenEdges.addEdge,kind_createEdge]

theorem Creates.ite (condition : Bool) (creates : Creates s t kinds) :
    Creates s (if condition then t else s) (if condition then kinds else []) := by
  cases condition with
  | true => exact creates
  | false => exact .refl s

theorem createVerticalEdge_creates (s : ScreenEdges Object) (screens : List QRect) (border : ElectricBorder)
    (screen fullArea : QRect) (side : border = ElectricRight ∨ border = ElectricLeft) :
    Creates s (s.createVerticalEdge screens border screen fullArea)
      (verticalEdges s.cornerOffset screens border screen fullArea) := by
  have guard : ¬ (border ≠ ElectricRight ∧ border ≠ ElectricLeft) := by
    rintro ⟨notRight,notLeft⟩
    exact side.elim notRight notLeft
  unfold ScreenEdges.createVerticalEdge verticalEdges
  rw [if_neg guard]
  exact ((Creates.ite _ (addEdge_creates ..)).trans (Creates.ite _ (addEdge_creates ..))).trans (addEdge_creates ..)

theorem createHorizontalEdge_creates (s : ScreenEdges Object) (screens : List QRect) (border : ElectricBorder)
    (screen fullArea : QRect) (side : border = ElectricTop ∨ border = ElectricBottom) :
    Creates s (s.createHorizontalEdge screens border screen fullArea)
      (horizontalEdges s.cornerOffset screens border screen fullArea) := by
  have guard : ¬ (border ≠ ElectricTop ∧ border ≠ ElectricBottom) := by
    rintro ⟨notTop,notBottom⟩
    exact side.elim notTop notBottom
  unfold ScreenEdges.createHorizontalEdge horizontalEdges
  rw [if_neg guard]
  exact addEdge_creates ..

theorem createEdges_creates (screens : List QRect) (fullArea : QRect) (s : ScreenEdges Object) (screen : QRect) :
    Creates s (ScreenEdges.createEdges screens fullArea s screen) (edgesOf s.cornerOffset screens fullArea screen) := by
  unfold ScreenEdges.createEdges edgesOf
  dsimp only
  have left := Creates.ite (isLeftScreen screens screen fullArea)
    (createVerticalEdge_creates s screens ElectricLeft screen fullArea (.inr rfl))
  generalize (if isLeftScreen screens screen fullArea then s.createVerticalEdge screens ElectricLeft screen fullArea
    else s) = afterLeft at left ⊢
  have right := Creates.ite (isRightScreen screens screen fullArea)
    (createVerticalEdge_creates afterLeft screens ElectricRight screen fullArea (.inl rfl))
  generalize (if isRightScreen screens screen fullArea then afterLeft.createVerticalEdge screens ElectricRight screen fullArea
    else afterLeft) = afterRight at right ⊢
  have top := Creates.ite (isTopScreen screens screen fullArea)
    (createHorizontalEdge_creates afterRight screens ElectricTop screen fullArea (.inl rfl))
  generalize (if isTopScreen screens screen fullArea then afterRight.createHorizontalEdge screens ElectricTop screen fullArea
    else afterRight) = afterTop at top ⊢
  have bottom := Creates.ite (isBottomScreen screens screen fullArea)
    (createHorizontalEdge_creates afterTop screens ElectricBottom screen fullArea (.inr rfl))
  rw [left.cornerOffset] at right
  rw [right.cornerOffset,left.cornerOffset] at top
  rw [top.cornerOffset,right.cornerOffset,left.cornerOffset] at bottom
  exact ((left.trans right).trans top).trans bottom

variable [DecidableEq Object]

theorem kind_copyReservations (oldEdges : List (Edge Object)) (edge : Edge Object) :
    kind (ScreenEdges.copyReservations oldEdges edge) = kind edge := by
  have callBacks : ∀ (callBacks : List (Object × String)) (edge : Edge Object),
      kind (callBacks.foldl (fun edge callback => edge.reserveObject callback.1 callback.2) edge) = kind edge := by
    intro callBacks
    induction callBacks with
    | nil => exact fun _ => rfl
    | cons callback rest ih => exact fun edge => (ih _).trans rfl
  unfold ScreenEdges.copyReservations
  induction oldEdges generalizing edge with
  | nil => rfl
  | cons oldEdge rest ih =>
    rw [foldl_cons,ih]
    split
    · exact callBacks _ _
    · rfl

theorem kinds_recreateEdges (s : ScreenEdges Object) (screens : List QRect) (displayWidth displayHeight : Int) :
    (s.recreateEdges screens displayWidth displayHeight).edges.map kind =
      screens.flatMap (edgesOf s.cornerOffset screens (QRect.ofSize 0 0 displayWidth displayHeight)) := by
  have folded : ∀ (rest : List QRect) (t : ScreenEdges Object),
      Creates t (rest.foldl (ScreenEdges.createEdges screens (QRect.ofSize 0 0 displayWidth displayHeight)) t)
        (rest.flatMap (edgesOf t.cornerOffset screens (QRect.ofSize 0 0 displayWidth displayHeight))) := by
    intro rest
    induction rest with
    | nil => exact fun t => .refl t
    | cons screen rest ih =>
      intro t
      have first := createEdges_creates screens (QRect.ofSize 0 0 displayWidth displayHeight) t screen
      have others := ih (ScreenEdges.createEdges screens (QRect.ofSize 0 0 displayWidth displayHeight) t screen)
      rw [first.cornerOffset] at others
      exact first.trans others
  have all := (folded screens {s with edges := []}).edges
  simp only [ScreenEdges.recreateEdges,ScreenEdges.createdEdges,map_map]
  rw [map_nil,nil_append] at all
  rw [← all]
  exact map_congr_left (fun edge _ => kind_copyReservations _ edge)

end

/-- The screen is on both sides of the corner. -/
def atCorner (screens : List QRect) (fullArea : QRect) (corner : ElectricBorder) (screen : QRect) : Bool :=
  match corner with
  | ElectricTopLeft => isLeftScreen screens screen fullArea ∧ isTopScreen screens screen fullArea
  | ElectricTopRight => isRightScreen screens screen fullArea ∧ isTopScreen screens screen fullArea
  | ElectricBottomLeft => isLeftScreen screens screen fullArea ∧ isBottomScreen screens screen fullArea
  | ElectricBottomRight => isRightScreen screens screen fullArea ∧ isBottomScreen screens screen fullArea
  | _ => false

/-- The borders of the edges of a screen on these sides of the display, in order. -/
def bordersOf (left right top bottom : Bool) : List ElectricBorder :=
  (if left then (if top then [ElectricTopLeft] else []) ++ (if bottom then [ElectricBottomLeft] else []) ++ [ElectricLeft] else []) ++
  (if right then (if top then [ElectricTopRight] else []) ++ (if bottom then [ElectricBottomRight] else []) ++ [ElectricRight] else []) ++
  (if top then [ElectricTop] else []) ++ (if bottom then [ElectricBottom] else [])

theorem borders_edgesOf (cornerOffset : Int) (screens : List QRect) (fullArea screen : QRect) :
    (edgesOf cornerOffset screens fullArea screen).map Prod.fst =
      bordersOf (isLeftScreen screens screen fullArea) (isRightScreen screens screen fullArea)
        (isTopScreen screens screen fullArea) (isBottomScreen screens screen fullArea) := by
  have vertical (border : ElectricBorder) : (verticalEdges cornerOffset screens border screen fullArea).map Prod.fst =
      (if isTopScreen screens screen fullArea then [if border = ElectricLeft then ElectricTopLeft else ElectricTopRight] else []) ++
      (if isBottomScreen screens screen fullArea then [if border = ElectricLeft then ElectricBottomLeft else ElectricBottomRight]
        else []) ++ [border] := by
    simp only [verticalEdges,map_append,apply_ite (map Prod.fst),map_cons,map_nil]
  simp only [edgesOf,map_append,apply_ite (map Prod.fst),vertical,horizontalEdges,map_cons,map_nil]
  rfl

theorem count_edgesOf {corner : ElectricBorder} (isCorner : corner.isCorner) (cornerOffset : Int) (screens : List QRect)
    (fullArea screen : QRect) : ((edgesOf cornerOffset screens fullArea screen).map Prod.fst).count corner =
      if atCorner screens fullArea corner screen then 1 else 0 := by
  rw [borders_edgesOf]
  unfold atCorner
  generalize isLeftScreen screens screen fullArea = left
  generalize isRightScreen screens screen fullArea = right
  generalize isTopScreen screens screen fullArea = top
  generalize isBottomScreen screens screen fullArea = bottom
  cases corner with
  | ElectricTopLeft => revert left right top bottom; decide
  | ElectricTopRight => revert left right top bottom; decide
  | ElectricBottomLeft => revert left right top bottom; decide
  | ElectricBottomRight => revert left right top bottom; decide
  | _ => cases isCorner

theorem count_corner {corner : ElectricBorder} (isCorner : corner.isCorner) (cornerOffset : Int) (screens : List QRect)
    (fullArea : QRect) (some : List QRect) : ((some.flatMap (edgesOf cornerOffset screens fullArea)).map Prod.fst).count corner =
      some.countP (atCorner screens fullArea corner) := by
  induction some with
  | nil => rfl
  | cons screen rest ih =>
    rw [flatMap_cons,map_append,count_append,ih,count_edgesOf isCorner,countP_cons]
    omega

/-! The extreme screens: no screen lies entirely beyond them. -/

def LeftMost (screens : List QRect) (screen : QRect) : Prop := ∀ other ∈ screens, screen.x1 ≤ other.x2
def RightMost (screens : List QRect) (screen : QRect) : Prop := ∀ other ∈ screens, other.x1 ≤ screen.x2
def TopMost (screens : List QRect) (screen : QRect) : Prop := ∀ other ∈ screens, screen.y1 ≤ other.y2
def BottomMost (screens : List QRect) (screen : QRect) : Prop := ∀ other ∈ screens, other.y1 ≤ screen.y2

/-- Every corner has a screen that no screen lies beyond on either side of it. -/
structure CornersHeld (screens : List QRect) : Prop where
  topLeft : ∃ screen ∈ screens, LeftMost screens screen ∧ TopMost screens screen
  topRight : ∃ screen ∈ screens, RightMost screens screen ∧ TopMost screens screen
  bottomLeft : ∃ screen ∈ screens, LeftMost screens screen ∧ BottomMost screens screen
  bottomRight : ∃ screen ∈ screens, RightMost screens screen ∧ BottomMost screens screen

/-- The corner edges are four, one of each kind. -/
def FourCorners {Object : Type u} (edges : List (Edge Object)) : Prop :=
  ((edges.map Edge.border).filter ElectricBorder.isCorner).Perm
    [ElectricTopLeft,ElectricTopRight,ElectricBottomLeft,ElectricBottomRight]

/-- Screens that are not empty and have no pixel in common, inside a display that starts at the origin. -/
structure Arranged (screens : List QRect) (displayWidth displayHeight : Int) : Prop where
  valid : ∀ screen ∈ screens, screen.isValid
  disjoint : screens.Pairwise (fun screen other => screen.intersects other = false)
  inside : ∀ screen ∈ screens, 0 ≤ screen.x1 ∧ 0 ≤ screen.y1 ∧ screen.x2 < displayWidth ∧ screen.y2 < displayHeight

section
variable {screens : List QRect} {displayWidth displayHeight : Int} {screen : QRect}

theorem Arranged.sides (arranged : Arranged screens displayWidth displayHeight) (member : screen ∈ screens) :
    screen.x1 ≤ screen.x2 ∧ screen.y1 ≤ screen.y2 :=
  of_decide_eq_true (arranged.valid screen member)

theorem eq_of_single {other : QRect} (single : screens.length = 1) (member : screen ∈ screens)
    (member' : other ∈ screens) : other = screen := by
  obtain ⟨only,rfl⟩ := length_eq_one_iff.mp single
  rw [mem_singleton] at member member'
  rw [member,member']

theorem extreme_iff {atEdge : Prop} [Decidable atEdge] {beyond : QRect → Prop} [DecidablePred beyond]
    (member : screen ∈ screens) (self : ¬ beyond screen) (edge : atEdge → ∀ other ∈ screens, ¬ beyond other) :
    (if screens.length = 1 then true
      else if atEdge then true
      else !screens.any (fun other => other ≠ screen ∧ beyond other)) = true ↔ ∀ other ∈ screens, ¬ beyond other := by
  by_cases single : screens.length = 1
  · rw [if_pos single]
    refine iff_of_true rfl (fun other member' => ?_)
    rw [eq_of_single single member member']
    exact self
  · rw [if_neg single]
    by_cases first : atEdge
    · rw [if_pos first]
      exact iff_of_true rfl (edge first)
    · rw [if_neg first,Bool.not_eq_true',any_eq_false]
      refine forall₂_congr (fun other member' => ?_)
      rw [decide_eq_true_iff]
      constructor
      · intro near before
        exact near ⟨fun same => self (same ▸ before),before⟩
      · exact fun le both => le both.2

theorem isLeftScreen_iff (arranged : Arranged screens displayWidth displayHeight) (member : screen ∈ screens) :
    isLeftScreen screens screen (QRect.ofSize 0 0 displayWidth displayHeight) = true ↔ LeftMost screens screen := by
  have sides := arranged.sides member
  refine (extreme_iff member ?_ ?_).trans (forall₂_congr (fun other member' => ?_))
  · simp only [QRect.x,QRect.width]; omega
  · intro first other member'
    have inside := arranged.inside other member'
    have sides' := arranged.sides member'
    simp only [QRect.x,QRect.width,QRect.ofSize] at first ⊢
    omega
  · simp only [QRect.x,QRect.width]; omega

theorem isRightScreen_iff (arranged : Arranged screens displayWidth displayHeight) (member : screen ∈ screens) :
    isRightScreen screens screen (QRect.ofSize 0 0 displayWidth displayHeight) = true ↔ RightMost screens screen := by
  have sides := arranged.sides member
  refine (extreme_iff member ?_ ?_).trans (forall₂_congr (fun other member' => ?_))
  · simp only [QRect.x,QRect.width]; omega
  · intro last other member'
    have inside := arranged.inside other member'
    have sides' := arranged.sides member'
    simp only [QRect.x,QRect.width,QRect.ofSize] at last ⊢
    omega
  · simp only [QRect.x,QRect.width]; omega

theorem isTopScreen_iff (arranged : Arranged screens displayWidth displayHeight) (member : screen ∈ screens) :
    isTopScreen screens screen (QRect.ofSize 0 0 displayWidth displayHeight) = true ↔ TopMost screens screen := by
  have sides := arranged.sides member
  refine (extreme_iff member ?_ ?_).trans (forall₂_congr (fun other member' => ?_))
  · simp only [QRect.y,QRect.height]; omega
  · intro first other member'
    have inside := arranged.inside other member'
    have sides' := arranged.sides member'
    simp only [QRect.y,QRect.height,QRect.ofSize] at first ⊢
    omega
  · simp only [QRect.y,QRect.height]; omega

theorem isBottomScreen_iff (arranged : Arranged screens displayWidth displayHeight) (member : screen ∈ screens) :
    isBottomScreen screens screen (QRect.ofSize 0 0 displayWidth displayHeight) = true ↔ BottomMost screens screen := by
  have sides := arranged.sides member
  refine (extreme_iff member ?_ ?_).trans (forall₂_congr (fun other member' => ?_))
  · simp only [QRect.y,QRect.height]; omega
  · intro last other member'
    have inside := arranged.inside other member'
    have sides' := arranged.sides member'
    simp only [QRect.y,QRect.height,QRect.ofSize] at last ⊢
    omega
  · simp only [QRect.y,QRect.height]; omega

theorem countP_le_one {α : Type u} {p : α → Bool} {l : List α} (apart : l.Pairwise (fun a b => ¬ (p a ∧ p b))) :
    l.countP p ≤ 1 := by
  induction apart with
  | nil => exact Nat.zero_le 1
  | @cons a l others _ ih =>
    by_cases here : p a
    · have none : l.countP p = 0 := countP_eq_zero.mpr (fun b member there => others b member ⟨here,there⟩)
      rw [countP_cons_of_pos here]
      omega
    · rw [countP_cons_of_neg here]
      exact ih

theorem countP_eq_one_iff (arranged : Arranged screens displayWidth displayHeight) {p : QRect → Bool}
    {horizontal vertical : QRect → Prop} (meaning : ∀ screen ∈ screens, p screen = true ↔ horizontal screen ∧ vertical screen)
    (across : ∀ screen ∈ screens, ∀ other ∈ screens, horizontal screen → horizontal other → screen.x1 ≤ other.x2)
    (down : ∀ screen ∈ screens, ∀ other ∈ screens, vertical screen → vertical other → screen.y1 ≤ other.y2) :
    screens.countP p = 1 ↔ ∃ screen ∈ screens, horizontal screen ∧ vertical screen := by
  have le : screens.countP p ≤ 1 := by
    refine countP_le_one (arranged.disjoint.imp_of_mem ?_)
    rintro screen other member member' apart ⟨here,there⟩
    obtain ⟨first,firstDown⟩ := (meaning screen member).mp here
    obtain ⟨second,secondDown⟩ := (meaning other member').mp there
    have sides := arranged.sides member
    have sides' := arranged.sides member'
    have left := across screen member other member' first second
    have right := across other member' screen member second first
    have above := down screen member other member' firstDown secondDown
    have below := down other member' screen member secondDown firstDown
    have overlap : screen.intersects other = true := by
      rw [QRect.intersects,decide_eq_true_iff]
      omega
    rw [overlap] at apart
    cases apart
  have positive := countP_pos_iff (p := p) (l := screens)
  constructor
  · intro one
    obtain ⟨screen,member,here⟩ := positive.mp (by omega)
    exact ⟨screen,member,(meaning screen member).mp here⟩
  · rintro ⟨screen,member,here⟩
    have more := positive.mpr ⟨screen,member,(meaning screen member).mpr here⟩
    omega

/-- `recreateEdges` creates exactly the four corners if and only if every corner
    has a screen that no screen lies beyond on either side of it. -/
theorem fourCorners_iff {Object : Type u} [DecidableEq Object] (s : ScreenEdges Object) (screens : List QRect)
    (displayWidth displayHeight : Int) (arranged : Arranged screens displayWidth displayHeight) :
    FourCorners (s.recreateEdges screens displayWidth displayHeight).edges ↔ CornersHeld screens := by
  have borders : (s.recreateEdges screens displayWidth displayHeight).edges.map Edge.border =
      (screens.flatMap (edgesOf s.cornerOffset screens (QRect.ofSize 0 0 displayWidth displayHeight))).map Prod.fst := by
    rw [← kinds_recreateEdges,map_map]
    rfl
  have wanted : ∀ corner : ElectricBorder, corner.isCorner →
      (((s.recreateEdges screens displayWidth displayHeight).edges.map Edge.border).filter ElectricBorder.isCorner).count
        corner = screens.countP (atCorner screens (QRect.ofSize 0 0 displayWidth displayHeight) corner) := by
    intro corner isCorner
    rw [count_filter isCorner,borders,count_corner isCorner]
  have acrossLeft : ∀ screen ∈ screens, ∀ other ∈ screens, LeftMost screens screen → LeftMost screens other →
      screen.x1 ≤ other.x2 := fun _ _ other member extreme _ => extreme other member
  have acrossRight : ∀ screen ∈ screens, ∀ other ∈ screens, RightMost screens screen → RightMost screens other →
      screen.x1 ≤ other.x2 := fun screen member _ _ _ extreme => extreme screen member
  have downTop : ∀ screen ∈ screens, ∀ other ∈ screens, TopMost screens screen → TopMost screens other →
      screen.y1 ≤ other.y2 := fun _ _ other member extreme _ => extreme other member
  have downBottom : ∀ screen ∈ screens, ∀ other ∈ screens, BottomMost screens screen → BottomMost screens other →
      screen.y1 ≤ other.y2 := fun screen member _ _ _ extreme => extreme screen member
  have left : ∀ screen ∈ screens, _ := fun screen member => isLeftScreen_iff arranged member
  have right : ∀ screen ∈ screens, _ := fun screen member => isRightScreen_iff arranged member
  have top : ∀ screen ∈ screens, _ := fun screen member => isTopScreen_iff arranged member
  have bottom : ∀ screen ∈ screens, _ := fun screen member => isBottomScreen_iff arranged member
  have topLeft : screens.countP (atCorner screens (QRect.ofSize 0 0 displayWidth displayHeight) ElectricTopLeft) = 1 ↔ _ :=
    countP_eq_one_iff arranged
      (fun screen member => by rw [atCorner,decide_eq_true_iff,left screen member,top screen member]) acrossLeft downTop
  have topRight : screens.countP (atCorner screens (QRect.ofSize 0 0 displayWidth displayHeight) ElectricTopRight) = 1 ↔ _ :=
    countP_eq_one_iff arranged
      (fun screen member => by rw [atCorner,decide_eq_true_iff,right screen member,top screen member]) acrossRight downTop
  have bottomLeft : screens.countP (atCorner screens (QRect.ofSize 0 0 displayWidth displayHeight) ElectricBottomLeft) = 1 ↔ _ :=
    countP_eq_one_iff arranged
      (fun screen member => by rw [atCorner,decide_eq_true_iff,left screen member,bottom screen member]) acrossLeft downBottom
  have bottomRight : screens.countP (atCorner screens (QRect.ofSize 0 0 displayWidth displayHeight) ElectricBottomRight) = 1 ↔ _ :=
    countP_eq_one_iff arranged
      (fun screen member => by rw [atCorner,decide_eq_true_iff,right screen member,bottom screen member]) acrossRight downBottom
  rw [FourCorners,perm_iff_count]
  constructor
  · intro counts
    refine ⟨topLeft.mp ?_,topRight.mp ?_,bottomLeft.mp ?_,bottomRight.mp ?_⟩
    · rw [← wanted _ (by decide),counts]; rfl
    · rw [← wanted _ (by decide),counts]; rfl
    · rw [← wanted _ (by decide),counts]; rfl
    · rw [← wanted _ (by decide),counts]; rfl
  · intro held border
    by_cases isCorner : border.isCorner
    · rw [wanted border isCorner]
      cases border with
      | ElectricTopLeft => exact topLeft.mpr held.topLeft
      | ElectricTopRight => exact topRight.mpr held.topRight
      | ElectricBottomLeft => exact bottomLeft.mpr held.bottomLeft
      | ElectricBottomRight => exact bottomRight.mpr held.bottomRight
      | _ => cases isCorner
    · have none : ∀ l : List ElectricBorder, (l.filter ElectricBorder.isCorner).count border = 0 := fun l =>
        count_eq_zero.mpr (fun member => isCorner (mem_filter.mp member).2)
      exact (none _).trans (none [ElectricTopLeft,ElectricTopRight,ElectricBottomLeft,ElectricBottomRight]).symm

end

/-- Two screens side by side have the four corners. -/
theorem fourCorners_iff_side_by_side :
    let screens := [QRect.ofSize 0 0 100 100,QRect.ofSize 100 0 100 50]
    FourCorners ((ScreenEdges.fresh 10 : ScreenEdges Nat).recreateEdges screens 200 100).edges ↔ CornersHeld screens :=
  fourCorners_iff _ _ 200 100 ⟨by decide,by decide,by decide⟩

/-- Two screens that touch at a corner only leave two of the corners without a screen. -/
theorem diagonal_two_corners :
    let screens := [QRect.ofSize 0 100 100 100,QRect.ofSize 100 0 100 100]
    Arranged screens 200 200 ∧
    ¬ FourCorners ((ScreenEdges.fresh 10 : ScreenEdges Nat).recreateEdges screens 200 200).edges := by
  refine ⟨⟨by decide,by decide,by decide⟩,?_⟩
  intro corners
  have length := corners.length_eq
  revert length
  decide

/-- The part of an edge that follows the cursor. -/
structure ApproachEdge where
  border : ElectricBorder
  geometry : QRect
  approachGeometry : QRect
  approaching : Bool
  lastApproachingFactor : Int
deriving Repr, DecidableEq

/-- The signal of the edge, with its factor in 256ths. -/
structure Approaching where
  border : ElectricBorder
  factor : Int
  geometry : QRect
deriving Repr, DecidableEq

def manhattanLength (x y : Int) : Int := (x.natAbs : Int)+(y.natAbs : Int)

namespace ApproachEdge

/-- An edge before it has a geometry. -/
def fresh (border : ElectricBorder) : ApproachEdge := ⟨border,⟨0,0,-1,-1⟩,⟨0,0,-1,-1⟩,false,0⟩

/-- The approach geometry that `setGeometry` computes for a border. -/
def approachArea (size : Int) (border : ElectricBorder) (geometry : QRect) : QRect :=
  let x := geometry.x
  let y := geometry.y
  let width := geometry.width
  let height := geometry.height
  if border.isCorner then
    QRect.ofSize (if border.isRight then x-size+1 else x) (if border.isBottom then y-size+1 else y) size size
  else if border.isLeft then QRect.ofSize x (y+(size+1)) size (height-size*2)
  else if border.isRight then QRect.ofSize (x-size+1) (y+size) size (height-size*2)
  else if border.isTop then QRect.ofSize (x+size) y (width-size*2) size
  else if border.isBottom then QRect.ofSize (x+size) (y-size+1) (width-size*2) size
  else QRect.ofSize x y width height

/-- `setGeometry` with the corner offset `size`. -/
def setGeometry (size : Int) (e : ApproachEdge) (geometry : QRect) : ApproachEdge :=
  if e.geometry = geometry then e
  else {e with geometry := geometry, approachGeometry := approachArea size e.border geometry}

def stopApproaching (e : ApproachEdge) : ApproachEdge × List Approaching :=
  if e.approaching then
    ({e with approaching := false, lastApproachingFactor := 0},[⟨e.border,0,e.approachGeometry⟩])
  else (e,[])

/-- The distance of the point from the edge, in 256ths of the approach geometry `area`. -/
def distance (edgeDistance : Int) (border : ElectricBorder) (area : QRect) (point : QPoint) : Int :=
  let cornerDistance := 2*edgeDistance
  match border with
  | ElectricTopLeft => (manhattanLength point.x point.y*256).tdiv cornerDistance
  | ElectricTopRight => (manhattanLength (point.x-area.x2) (point.y-area.y1)*256).tdiv cornerDistance
  | ElectricBottomRight => (manhattanLength (point.x-area.x2) (point.y-area.y2)*256).tdiv cornerDistance
  | ElectricBottomLeft => (manhattanLength (point.x-area.x1) (point.y-area.y2)*256).tdiv cornerDistance
  | ElectricTop => (((point.y-area.y).natAbs : Int)*256).tdiv edgeDistance
  | ElectricRight => (((point.x-area.right).natAbs : Int)*256).tdiv edgeDistance
  | ElectricBottom => (((point.y-area.bottom).natAbs : Int)*256).tdiv edgeDistance
  | ElectricLeft => (((point.x-area.x).natAbs : Int)*256).tdiv edgeDistance
  | _ => 0

/-- `updateApproaching` with the signals it emits. -/
def updateApproaching (edgeDistance : Int) (e : ApproachEdge) (point : QPoint) : ApproachEdge × List Approaching :=
  if e.approachGeometry.contains point then
    let factor := 256-distance edgeDistance e.border e.approachGeometry point
    if e.lastApproachingFactor ≠ factor then
      ({e with lastApproachingFactor := factor},[⟨e.border,factor,e.approachGeometry⟩])
    else (e,[])
  else e.stopApproaching

end ApproachEdge

/-- The edge after `setGeometry`, whatever it reported since. -/
structure AtGeometry (cornerOffset : Int) (border : ElectricBorder) (geometry : QRect) (e : ApproachEdge) : Prop where
  sameBorder : e.border = border
  sameArea : e.approachGeometry = ((ApproachEdge.fresh border).setGeometry cornerOffset geometry).approachGeometry

/-- The factor that is reported for a point in the approach geometry of the edge lies between zero and one. -/
def Clamped (cornerOffset : Int) (border : ElectricBorder) (geometry : QRect) : Prop :=
  ∀ e, AtGeometry cornerOffset border geometry e → ∀ point, e.approachGeometry.contains point →
    ∀ signal ∈ (e.updateApproaching cornerOffset point).2, 0 ≤ signal.factor ∧ signal.factor ≤ 256

/-- Measured from the origin, no point of the square in the top left corner of
    the screen is further than the reports allow. -/
def NearOrigin (size : Int) (screen : QRect) : Prop :=
  256*((max screen.x.natAbs (screen.x+size-1).natAbs : Nat)+(max screen.y.natAbs (screen.y+size-1).natAbs : Nat)) < 514*size

theorem exists_furthest {low high : Int} (le : low ≤ high) :
    ∃ p, low ≤ p ∧ p ≤ high ∧ p.natAbs = max low.natAbs high.natAbs := by
  rcases Nat.le_total low.natAbs high.natAbs with further | nearer
  · exact ⟨high,le,Int.le_refl high,(Nat.max_eq_right further).symm⟩
  · exact ⟨low,Int.le_refl low,le,(Nat.max_eq_left nearer).symm⟩

theorem natAbs_le_furthest {low high p : Int} (above : low ≤ p) (below : p ≤ high) : p.natAbs ≤ max low.natAbs high.natAbs := by
  omega

theorem factor_iff {d size : Int} (nonneg : 0 ≤ d) (positive : 0 < size) :
    (0 ≤ 256-(d*256).tdiv size ∧ 256-(d*256).tdiv size ≤ 256) ↔ d*256 < 257*size := by
  rw [Int.tdiv_eq_ediv_of_nonneg (by omega)]
  have quotient := Int.ediv_nonneg (show 0 ≤ d*256 by omega) (show 0 ≤ size by omega)
  have bound := Int.ediv_lt_iff_lt_mul (a := d*256) (b := 257) positive
  omega

section
variable {size : Int} {border : ElectricBorder} {geometry : QRect}

theorem clamped_iff (given : geometry ≠ ⟨0,0,-1,-1⟩) : Clamped size border geometry ↔
    ∀ point, (ApproachEdge.approachArea size border geometry).contains point →
      0 ≤ 256-ApproachEdge.distance size border (ApproachEdge.approachArea size border geometry) point ∧
      256-ApproachEdge.distance size border (ApproachEdge.approachArea size border geometry) point ≤ 256 := by
  have area : ((ApproachEdge.fresh border).setGeometry size geometry).approachGeometry =
      ApproachEdge.approachArea size border geometry := by
    rw [ApproachEdge.setGeometry,if_neg (fun same => given same.symm)]
    rfl
  constructor
  · intro clamped point inside
    by_cases zero : 256-ApproachEdge.distance size border (ApproachEdge.approachArea size border geometry) point = 0
    · omega
    · have reported := clamped ⟨border,geometry,ApproachEdge.approachArea size border geometry,true,0⟩ ⟨rfl,area.symm⟩ point inside
      simp only [ApproachEdge.updateApproaching,inside,↓reduceIte,Ne.symm zero,ne_eq,not_false_eq_true] at reported
      exact reported _ (mem_singleton_self _)
  · rintro ranged e ⟨sameBorder,sameArea⟩ point inside signal member
    rw [area] at sameArea
    rw [sameArea] at inside
    simp only [ApproachEdge.updateApproaching,sameArea,inside,↓reduceIte,sameBorder] at member
    split at member
    · rw [mem_singleton.mp member]
      exact ranged point inside
    · cases member

theorem approachArea_spec (size : Int) (border : ElectricBorder) (geometry : QRect) :
    let area := ApproachEdge.approachArea size border geometry
    (border.isCorner ∨ border = ElectricLeft ∨ border = ElectricRight → area.x2 = area.x1+size-1) ∧
    (border.isCorner ∨ border = ElectricTop ∨ border = ElectricBottom → area.y2 = area.y1+size-1) := by
  cases border <;> simp [ApproachEdge.approachArea,isCorner,isLeft,isRight,isTop,isBottom,QRect.ofSize]

theorem clamped_of_ne (positive : 1 ≤ size) (given : geometry ≠ ⟨0,0,-1,-1⟩) (other : border ≠ ElectricTopLeft) :
    Clamped size border geometry := by
  rw [clamped_iff given]
  intro point inside
  have spec := approachArea_spec size border geometry
  generalize ApproachEdge.approachArea size border geometry = area at inside spec ⊢
  rw [QRect.contains,decide_eq_true_iff] at inside
  obtain ⟨across,down⟩ := spec
  cases border with
  | ElectricTopLeft => exact absurd rfl other
  | ELECTRIC_COUNT => simp [ApproachEdge.distance]
  | ElectricNone => simp [ApproachEdge.distance]
  | ElectricTop =>
    have strip := down (.inr (.inl rfl))
    exact (factor_iff (by omega) (by omega)).mpr (by simp only [QRect.y]; omega)
  | ElectricBottom =>
    have strip := down (.inr (.inr rfl))
    exact (factor_iff (by omega) (by omega)).mpr (by simp only [QRect.bottom]; omega)
  | ElectricLeft =>
    have strip := across (.inr (.inl rfl))
    exact (factor_iff (by omega) (by omega)).mpr (by simp only [QRect.x]; omega)
  | ElectricRight =>
    have strip := across (.inr (.inr rfl))
    exact (factor_iff (by omega) (by omega)).mpr (by simp only [QRect.right]; omega)
  | ElectricTopRight =>
    have width := across (.inl rfl)
    have height := down (.inl rfl)
    exact (factor_iff (by unfold manhattanLength; omega) (by omega)).mpr (by unfold manhattanLength; omega)
  | ElectricBottomRight =>
    have width := across (.inl rfl)
    have height := down (.inl rfl)
    exact (factor_iff (by unfold manhattanLength; omega) (by omega)).mpr (by unfold manhattanLength; omega)
  | ElectricBottomLeft =>
    have width := across (.inl rfl)
    have height := down (.inl rfl)
    exact (factor_iff (by unfold manhattanLength; omega) (by omega)).mpr (by unfold manhattanLength; omega)

theorem clamped_topLeft_iff (positive : 1 ≤ size) (screen : QRect) :
    Clamped size ElectricTopLeft (QRect.ofSize screen.x screen.y 1 1) ↔ NearOrigin size screen := by
  have given : QRect.ofSize screen.x screen.y 1 1 ≠ ⟨0,0,-1,-1⟩ := by
    simp only [QRect.ofSize,ne_eq,QRect.mk.injEq]
    omega
  have area : ApproachEdge.approachArea size ElectricTopLeft (QRect.ofSize screen.x screen.y 1 1) =
      QRect.ofSize screen.x screen.y size size := by
    simp [ApproachEdge.approachArea,isCorner,isRight,isBottom,QRect.ofSize,QRect.x,QRect.y]
  have ranged : ∀ point : QPoint, (0 ≤ 256-ApproachEdge.distance size ElectricTopLeft (QRect.ofSize screen.x screen.y size size) point ∧
      256-ApproachEdge.distance size ElectricTopLeft (QRect.ofSize screen.x screen.y size size) point ≤ 256) ↔
        ((point.x.natAbs : Int)+(point.y.natAbs : Int))*256 < 257*(2*size) :=
    fun point => factor_iff (by unfold manhattanLength; omega) (by omega)
  have inside_iff : ∀ point, (QRect.ofSize screen.x screen.y size size).contains point = true ↔
      screen.x ≤ point.x ∧ point.x ≤ screen.x+size-1 ∧ screen.y ≤ point.y ∧ point.y ≤ screen.y+size-1 :=
    fun point => decide_eq_true_iff
  rw [clamped_iff given,area,NearOrigin]
  simp only [ranged,inside_iff]
  constructor
  · intro near
    -- The furthest point is a corner of the square.
    obtain ⟨x,left,right,far⟩ := exists_furthest (show screen.x ≤ screen.x+size-1 by omega)
    obtain ⟨y,top,bottom,low⟩ := exists_furthest (show screen.y ≤ screen.y+size-1 by omega)
    have furthest := near ⟨x,y⟩ ⟨left,right,top,bottom⟩
    rw [far,low] at furthest
    omega
  · rintro near point ⟨left,right,top,bottom⟩
    have across := natAbs_le_furthest left right
    have down := natAbs_le_furthest top bottom
    generalize max screen.x.natAbs (screen.x+size-1).natAbs = far at near across
    generalize max screen.y.natAbs (screen.y+size-1).natAbs = low at near down
    omega

end

section
variable {cornerOffset : Int} {screens : List QRect} {fullArea screen : QRect}

theorem mem_verticalEdges {border : ElectricBorder} {k : ElectricBorder × QRect}
    (side : border = ElectricRight ∨ border = ElectricLeft)
    (member : k ∈ verticalEdges cornerOffset screens border screen fullArea) :
    k.2 ≠ ⟨0,0,-1,-1⟩ ∧ (k.1 = ElectricTopLeft → border = ElectricLeft ∧ isTopScreen screens screen fullArea ∧
      k.2 = QRect.ofSize screen.x screen.y 1 1) := by
  have place : ∀ x y height, QRect.ofSize x y 1 height ≠ ⟨0,0,-1,-1⟩ := by
    intro x y height
    simp only [QRect.ofSize,ne_eq,QRect.mk.injEq]
    omega
  unfold verticalEdges at member
  simp only [mem_append,mem_singleton] at member
  rcases member with (corner | corner) | rfl
  · split at corner
    · rename_i top
      rw [mem_singleton.mp corner]
      refine ⟨place _ _ _,fun topLeft => ?_⟩
      rcases side with rfl | rfl
      · cases topLeft
      · exact ⟨rfl,top,rfl⟩
    · cases corner
  · split at corner
    · rw [mem_singleton.mp corner]
      refine ⟨place _ _ _,fun topLeft => ?_⟩
      rcases side with rfl | rfl <;> cases topLeft
    · cases corner
  · refine ⟨place _ _ _,fun topLeft => ?_⟩
    rcases side with rfl | rfl <;> cases topLeft

theorem mem_horizontalEdges {border : ElectricBorder} {k : ElectricBorder × QRect}
    (member : k ∈ horizontalEdges cornerOffset screens border screen fullArea) :
    k.2 ≠ ⟨0,0,-1,-1⟩ ∧ k.1 = border := by
  unfold horizontalEdges at member
  rw [mem_singleton.mp member]
  refine ⟨?_,rfl⟩
  simp only [QRect.ofSize,ne_eq,QRect.mk.injEq]
  omega

theorem mem_edgesOf {k : ElectricBorder × QRect} (member : k ∈ edgesOf cornerOffset screens fullArea screen) :
    k.2 ≠ ⟨0,0,-1,-1⟩ ∧ (k.1 = ElectricTopLeft →
      isLeftScreen screens screen fullArea ∧ isTopScreen screens screen fullArea ∧
      k.2 = QRect.ofSize screen.x screen.y 1 1) := by
  unfold edgesOf at member
  simp only [mem_append] at member
  rcases member with ((left | right) | top) | bottom
  · split at left
    · rename_i isLeft
      obtain ⟨place,corner⟩ := mem_verticalEdges (.inr rfl) left
      exact ⟨place,fun topLeft => ⟨isLeft,(corner topLeft).2⟩⟩
    · cases left
  · split at right
    · obtain ⟨place,corner⟩ := mem_verticalEdges (.inl rfl) right
      exact ⟨place,fun topLeft => by cases (corner topLeft).1⟩
    · cases right
  · split at top
    · obtain ⟨place,same⟩ := mem_horizontalEdges top
      exact ⟨place,fun topLeft => by rw [same] at topLeft; cases topLeft⟩
    · cases top
  · split at bottom
    · obtain ⟨place,same⟩ := mem_horizontalEdges bottom
      exact ⟨place,fun topLeft => by rw [same] at topLeft; cases topLeft⟩
    · cases bottom

theorem topLeft_mem_edgesOf (left : isLeftScreen screens screen fullArea) (top : isTopScreen screens screen fullArea) :
    (ElectricTopLeft,QRect.ofSize screen.x screen.y 1 1) ∈ edgesOf cornerOffset screens fullArea screen := by
  simp [edgesOf,verticalEdges,left,top]

end

/-- The approaching factor of every edge of an arrangement lies between zero and one exactly when the top left corner
    of every leftmost and topmost screen is near the origin. -/
theorem approaching_iff {Object : Type u} [DecidableEq Object] (s : ScreenEdges Object) (screens : List QRect)
    (displayWidth displayHeight : Int) (positive : 1 ≤ s.cornerOffset) :
    (∀ edge ∈ (s.recreateEdges screens displayWidth displayHeight).edges,
      Clamped s.cornerOffset edge.border edge.geometry) ↔
    ∀ screen ∈ screens, isLeftScreen screens screen (QRect.ofSize 0 0 displayWidth displayHeight) →
      isTopScreen screens screen (QRect.ofSize 0 0 displayWidth displayHeight) → NearOrigin s.cornerOffset screen := by
  have kinds : (∀ edge ∈ (s.recreateEdges screens displayWidth displayHeight).edges,
      Clamped s.cornerOffset edge.border edge.geometry) ↔
      ∀ k ∈ screens.flatMap (edgesOf s.cornerOffset screens (QRect.ofSize 0 0 displayWidth displayHeight)),
        Clamped s.cornerOffset k.1 k.2 := by
    rw [← kinds_recreateEdges,forall_mem_map]
    rfl
  rw [kinds]
  constructor
  · intro clamped screen member left top
    exact (clamped_topLeft_iff positive screen).mp
      (clamped _ (mem_flatMap.mpr ⟨screen,member,topLeft_mem_edgesOf left top⟩))
  · intro near k member
    obtain ⟨screen,there,created⟩ := mem_flatMap.mp member
    obtain ⟨given,corner⟩ := mem_edgesOf created
    by_cases topLeft : k.1 = ElectricTopLeft
    · obtain ⟨left,top,place⟩ := corner topLeft
      rw [topLeft,place]
      exact (clamped_topLeft_iff positive screen).mpr (near screen there left top)
    · exact clamped_of_ne positive given topLeft

theorem approaching_iff_one_screen :
    let s : ScreenEdges Nat := .fresh 10
    let screens := [QRect.ofSize 0 0 100 100]
    (∀ edge ∈ (s.recreateEdges screens 100 100).edges, Clamped s.cornerOffset edge.border edge.geometry) ↔
    ∀ screen ∈ screens, isLeftScreen screens screen (QRect.ofSize 0 0 100 100) →
      isTopScreen screens screen (QRect.ofSize 0 0 100 100) → NearOrigin s.cornerOffset screen :=
  approaching_iff (.fresh 10) [QRect.ofSize 0 0 100 100] 100 100 (by decide)

/-- Above a wider screen, a screen on the right has the top left corner of the
    arrangement, where the factor falls below minus ten. -/
theorem approaching_negative :
    let s : ScreenEdges Nat := .fresh 10
    let screens := [QRect.ofSize 200 0 100 100,QRect.ofSize 0 100 300 100]
    ⟨ElectricTopLeft,QRect.ofSize 200 0 1 1⟩ ∈ (s.recreateEdges screens 300 200).edges.map kind ∧
    ¬ ∀ edge ∈ (s.recreateEdges screens 300 200).edges, Clamped s.cornerOffset edge.border edge.geometry := by
  intro s screens
  have corner : ⟨ElectricTopLeft,QRect.ofSize 200 0 1 1⟩ ∈ (s.recreateEdges screens 300 200).edges.map kind := by decide
  refine ⟨corner,fun clamped => ?_⟩
  obtain ⟨edge,member,same⟩ := mem_map.mp corner
  have ranged := clamped edge member
  rw [kind,Prod.mk.injEq] at same
  rw [same.1,same.2] at ranged
  have reported := ranged ⟨ElectricTopLeft,QRect.ofSize 200 0 1 1,QRect.ofSize 200 0 10 10,true,0⟩ ⟨rfl,by decide⟩
    ⟨205,5⟩ (by decide) ⟨ElectricTopLeft,-2432,QRect.ofSize 200 0 10 10⟩ (by decide)
  exact absurd reported.1 (by decide)

end KdeWorkspace.ScreenCorners
