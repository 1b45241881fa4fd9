import KdeWorkspace.ItemGroups
import Mathlib.Data.List.Induction
import Mathlib.Data.Prod.Lex

/-!
The search for free places in the desktop's item space (`ItemSpace::positionVertically`).

Column by column the search jumps from one obstacle to the next, from the side the
items are aligned to. It always ends, what it finds meets no item by the test of the
program, which lets items overlap by a thousandth, and in a limited space it comes
back empty only when every place in the area overlaps an item
(`positionVertically_right`).
-/
namespace KdeWorkspace.ItemPositions
open Loops List Option Bool
open ItemGroups (QRectF)

structure QSizeF where
  width : ℚ
  height : ℚ
deriving Repr, DecidableEq

structure QPointF where
  x : ℚ
  y : ℚ
deriving Repr, DecidableEq

namespace QRectF

def right (r : QRectF) : ℚ := r.x+r.w
def bottom (r : QRectF) : ℚ := r.y+r.h
def isValid (r : QRectF) : Bool := 0 < r.w ∧ 0 < r.h

end QRectF
open QRectF

/-- `__intersects`, which asks for an overlap of more than a thousandth. -/
def intersects (a b : QRectF) : Bool :=
  bottom a-1/1000 > b.y ∧ a.y+1/1000 < bottom b ∧ right a-1/1000 > b.x ∧ a.x+1/1000 < right b

/-- The items of all groups, in order. -/
structure ItemSpace where
  items : List QRectF
  workingGeom : QSizeF
  placementSpacing : ℚ
deriving Repr, DecidableEq

/-- A step of the loops through the items: an item in the region replaces the one that was found when its border lies
    nearer. The border that was found is missing where the source starts with the greatest number. -/
def consider (border : QRectF → ℚ) (nearer : ℚ → Option ℚ → Bool) (region : QRectF) (found : QRectF × Option ℚ)
    (item : QRectF) : QRectF × Option ℚ :=
  if isValid item ∧ intersects item region ∧ nearer (border item) found.2 then (item,some (border item)) else found

def noItem : QRectF := ⟨0,0,-1,-1⟩

def itemInRegion (border : QRectF → ℚ) (nearer : ℚ → Option ℚ → Bool) (l : Option ℚ) (items : List QRectF)
    (region : QRectF) : QRectF :=
  (items.foldl (consider border nearer region) (noItem,l)).1

def below (cl : ℚ) (l : Option ℚ) : Bool := l.elim true (fun l => cl < l)
def above (cl : ℚ) (l : Option ℚ) : Bool := l.elim true (fun l => cl > l)

def itemInRegionStartingFirstVert := itemInRegion (fun item => item.y) below none
def itemInRegionEndingLastVert := itemInRegion (fun item => item.y+item.h) above (some (-1))
def itemInRegionEndingFirstHoriz := itemInRegion (fun item => item.x+item.w) below none
def itemInRegionStartingLastHoriz := itemInRegion (fun item => item.x) above (some (-1))

/-- What is asked for; of the alignment only the two sides count. -/
structure Request where
  itemSize : QSizeF
  alignLeft : Bool
  alignTop : Bool
  limitedSpace : Bool
  findAll : Bool
deriving Repr, DecidableEq

/-- The search at the top of one of its loops: of the outer one, or of the inner one at some height. -/
structure Search where
  x : ℚ
  y : Option ℚ
  possiblePositions : List QPointF
deriving Repr, DecidableEq

/-- Where a direction starts to be searched: on the side of the alignment. -/
def first (forward : Bool) (area size : ℚ) : ℚ := if forward then 0 else area-size
def isOut (forward : Bool) (area size p : ℚ) : Bool := if forward then p+size > area else p < 0
/-- The next position to try, on the other side of an obstacle. -/
def past (forward : Bool) (size low high : ℚ) : ℚ := if forward then high else low-size

variable (i : ItemSpace) (q : Request)

def size : QSizeF :=
  ⟨q.itemSize.width+i.placementSpacing+i.placementSpacing,q.itemSize.height+i.placementSpacing+i.placementSpacing⟩

def region (x y : ℚ) : QRectF := ⟨x,y,(size i q).width,(size i q).height⟩
/-- The strap over the height of the working area. -/
def strap (x : ℚ) : QRectF := ⟨x,0,(size i q).width,i.workingGeom.height⟩

/-- The item in the way at a position, and the one that ends a column. -/
def inTheWay (region : QRectF) : QRectF :=
  if q.alignTop then itemInRegionEndingLastVert i.items region else itemInRegionStartingFirstVert i.items region
def inStrap (strap : QRectF) : QRectF :=
  if q.alignLeft then itemInRegionEndingFirstHoriz i.items strap else itemInRegionStartingLastHoriz i.items strap

/-- The end of a round of the outer loop. -/
def nextColumn (s : Search) : Round Search (List QPointF) :=
  let a := inStrap i q (strap i q s.x)
  if !isValid a then .done s.possiblePositions
  else .next ⟨past q.alignLeft (size i q).width a.x (right a),none,s.possiblePositions⟩

def round (s : Search) : Round Search (List QPointF) :=
  match s.y with
  | none =>
    if isOut q.alignLeft i.workingGeom.width (size i q).width s.x ∧ q.limitedSpace then .done s.possiblePositions
    else .next {s with y := some (first q.alignTop i.workingGeom.height (size i q).height)}
  | some y =>
    if isOut q.alignTop i.workingGeom.height (size i q).height y ∧ q.limitedSpace then nextColumn i q s
    else
      let a := inTheWay i q (region i q s.x y)
      if !isValid a then
        let possiblePositions := s.possiblePositions ++ [⟨s.x+i.placementSpacing,y+i.placementSpacing⟩]
        if !q.findAll then .done possiblePositions else nextColumn i q {s with possiblePositions := possiblePositions}
      else .next {s with y := some (past q.alignTop (size i q).height a.y (bottom a))}

def start : Search := ⟨first q.alignLeft i.workingGeom.width (size i q).width,none,[]⟩

/-- `positionVertically` returns the list. -/
def PositionVertically (r : List QPointF) : Prop := Ends (round i q) (start i q) r

/-- The rectangles overlap by any amount. -/
def Overlap (a b : QRectF) : Prop := (a.x < right b ∧ b.x < right a) ∧ a.y < bottom b ∧ b.y < bottom a

/-- A position grown by the spacing. -/
def grown (p : QPointF) : QRectF := region i q (p.x-i.placementSpacing) (p.y-i.placementSpacing)

def InArea (r : QRectF) : Prop := (0 ≤ r.x ∧ right r ≤ i.workingGeom.width) ∧ 0 ≤ r.y ∧ bottom r ≤ i.workingGeom.height

def Placed (item : QRectF) : Prop := 0 ≤ item.x ∧ 0 ≤ item.y

theorem isValid_noItem : isValid noItem = false := by
  decide +kernel

section
variable {rank : ℚ → ℚ}

/-- The item that was found among those passed, or none where none of them is in the region. -/
def Found (of : QRectF → ℚ) (rank : ℚ → ℚ) (l : Option ℚ) (region : QRectF) (passed : List QRectF) (found : QRectF × Option ℚ) :
    Prop :=
  (found = (noItem,l) ∧ ∀ item ∈ passed, isValid item = true → intersects item region = false) ∨
    ((found.1 ∈ passed ∧ isValid found.1 = true ∧ intersects found.1 region = true) ∧ found.2 = some (of found.1) ∧
      ∀ item ∈ passed, isValid item = true → intersects item region = true → rank (of found.1) ≤ rank (of item))

theorem consider_found {of : QRectF → ℚ} {nearer : ℚ → Option ℚ → Bool} {l : Option ℚ} {region item : QRectF}
    {passed : List QRectF} {found : QRectF × Option ℚ} (strict : ∀ c d, nearer c (some d) = true ↔ rank c < rank d)
    (starts : isValid item = true → nearer (of item) l = true) (before : Found of rank l region passed found) :
    Found of rank l region (passed ++ [item]) (consider of nearer region found item) := by
  by_cases taken : isValid item ∧ intersects item region ∧ nearer (of item) found.2
  · obtain ⟨valid,inside,nearer_item⟩ := taken
    rw [consider,if_pos ⟨valid,inside,nearer_item⟩]
    refine .inr ⟨⟨by simp,valid,inside⟩,rfl,?_⟩
    intro other member valid' inside'
    rcases mem_append.mp member with old | new
    · rcases before with ⟨_,free⟩ | ⟨_,border,nearest⟩
      · rw [free other old valid'] at inside'
        cases inside'
      · rw [border,strict] at nearer_item
        exact nearer_item.le.trans (nearest other old valid' inside')
    · rw [mem_singleton.mp new]
  · rw [consider,if_neg taken]
    rcases before with ⟨rfl,free⟩ | ⟨⟨member,valid,inside⟩,border,nearest⟩
    · refine .inl ⟨rfl,fun other member valid' => ?_⟩
      rcases mem_append.mp member with old | new
      · exact free other old valid'
      · obtain rfl := mem_singleton.mp new
        rw [← not_eq_true]
        exact fun inside => taken ⟨valid',inside,starts valid'⟩
    · refine .inr ⟨⟨mem_append_left _ member,valid,inside⟩,border,?_⟩
      intro other member' valid' inside'
      rcases mem_append.mp member' with old | new
      · exact nearest other old valid' inside'
      · obtain rfl := mem_singleton.mp new
        have farther : ¬ rank (of other) < rank (of found.1) := by
          rw [← strict,← border]
          exact fun nearer_other => taken ⟨valid',inside',nearer_other⟩
        exact le_of_not_gt farther

theorem itemInRegion_found {of : QRectF → ℚ} {nearer : ℚ → Option ℚ → Bool} {l : Option ℚ} {region : QRectF}
    {items : List QRectF} (strict : ∀ c d, nearer c (some d) = true ↔ rank c < rank d)
    (starts : ∀ item ∈ items, isValid item = true → nearer (of item) l = true) :
    Found of rank l region items (items.foldl (consider of nearer region) (noItem,l)) := by
  induction items using reverseRecOn with
  | nil => exact .inl ⟨rfl,fun _ member => (not_mem_nil member).elim⟩
  | append_singleton passed item ih =>
    rw [foldl_append,foldl_cons,foldl_nil]
    refine consider_found strict (starts item (by simp)) (ih fun other member => starts other (by simp [member]))

end

/-- The obstacle that a search for one in a region comes back with: it is an item in the region, and none is nearer. -/
structure Obstacle (items : List QRectF) (region : QRectF) (rank : QRectF → ℚ) (a : QRectF) : Prop where
  member : a ∈ items
  valid : isValid a = true
  inside : intersects a region = true
  nearest : ∀ item ∈ items, isValid item = true → intersects item region = true → rank a ≤ rank item

/-- No item is in the region. -/
def Free (items : List QRectF) (region : QRectF) : Prop := ∀ item ∈ items, isValid item = true → intersects item region = false

theorem itemInRegion_cases (of : QRectF → ℚ) {nearer : ℚ → Option ℚ → Bool} {l : Option ℚ} (rank : ℚ → ℚ) (region : QRectF)
    {items : List QRectF} (strict : ∀ c d, nearer c (some d) = true ↔ rank c < rank d)
    (starts : ∀ item ∈ items, isValid item = true → nearer (of item) l = true) :
    (isValid (itemInRegion of nearer l items region) = false ∧ Free items region) ∨
      Obstacle items region (fun item => rank (of item)) (itemInRegion of nearer l items region) := by
  rcases itemInRegion_found strict starts with ⟨none,free⟩ | ⟨⟨member,valid,inside⟩,_,nearest⟩
  · refine .inl ⟨?_,free⟩
    rw [itemInRegion,none]
    exact isValid_noItem
  · exact .inr ⟨member,valid,inside,nearest⟩

theorem below_iff (c d : ℚ) : below c (some d) = true ↔ c < d := by
  simp [below]

theorem above_iff (c d : ℚ) : above c (some d) = true ↔ -c < -d := by
  simp [above]

/-! A position is measured along the direction in which the search goes. An item is met
between the position where it is entered and the one where it is passed. -/

def along (forward : Bool) (p : ℚ) : ℚ := if forward then p else -p
def entered (forward : Bool) (size low high : ℚ) : ℚ := if forward then low-size else -high
def passed (forward : Bool) (size low high : ℚ) : ℚ := if forward then high else size-low
/-- The last position inside. -/
def limit (forward : Bool) (area size : ℚ) : ℚ := if forward then area-size else 0

section
variable {forward : Bool} {area size low high p : ℚ}

theorem along_past : along forward (past forward size low high) = passed forward size low high := by
  cases forward <;> simp [along,past,passed]

theorem meets_iff : (high-1/1000 > p ∧ low+1/1000 < p+size) ↔
    entered forward size low high+1/1000 < along forward p ∧ along forward p+1/1000 < passed forward size low high := by
  cases forward
  · simp only [entered,along,passed,false_eq_true,if_false]
    constructor <;> rintro ⟨left,right⟩ <;> constructor <;> linarith
  · simp only [entered,along,passed,if_true]
    constructor <;> rintro ⟨left,right⟩ <;> constructor <;> linarith

theorem overlaps_iff : (low < p+size ∧ p < high) ↔
    entered forward size low high < along forward p ∧ along forward p < passed forward size low high := by
  cases forward
  · simp only [entered,along,passed,false_eq_true,if_false]
    constructor <;> rintro ⟨left,right⟩ <;> constructor <;> linarith
  · simp only [entered,along,passed,if_true]
    constructor <;> rintro ⟨left,right⟩ <;> constructor <;> linarith

theorem isOut_iff : isOut forward area size p = true ↔ limit forward area size < along forward p := by
  cases forward
  · simp [isOut,limit,along]
  · simp [isOut,limit,along]
    constructor <;> intro out <;> linarith

theorem inside_iff : (0 ≤ p ∧ p+size ≤ area) ↔
    along forward (first forward area size) ≤ along forward p ∧ along forward p ≤ limit forward area size := by
  cases forward
  · simp only [along,first,limit,false_eq_true,if_false]
    constructor <;> rintro ⟨left,right⟩ <;> constructor <;> linarith
  · simp only [along,first,limit,if_true]
    constructor <;> rintro ⟨left,right⟩ <;> constructor <;> linarith

end

section
variable {i q} {s t : Search} {x y : ℚ} {item : QRectF}

/-- The item is met at the position by the test of the program, in one of the directions. -/
def MeetsX (i : ItemSpace) (q : Request) (x : ℚ) (item : QRectF) : Prop :=
  entered q.alignLeft (size i q).width item.x (right item)+1/1000 < along q.alignLeft x ∧
    along q.alignLeft x+1/1000 < passed q.alignLeft (size i q).width item.x (right item)
def MeetsY (i : ItemSpace) (q : Request) (y : ℚ) (item : QRectF) : Prop :=
  entered q.alignTop (size i q).height item.y (bottom item)+1/1000 < along q.alignTop y ∧
    along q.alignTop y+1/1000 < passed q.alignTop (size i q).height item.y (bottom item)

theorem intersects_region : intersects item (region i q x y) = true ↔ MeetsX i q x item ∧ MeetsY i q y item := by
  rw [MeetsX,MeetsY,← meets_iff,← meets_iff,intersects,decide_eq_true_iff]
  exact ⟨fun ⟨a,b,c,d⟩ => ⟨⟨c,d⟩,a,b⟩,fun ⟨⟨c,d⟩,a,b⟩ => ⟨a,b,c,d⟩⟩

theorem intersects_strap : intersects item (strap i q x) = true ↔
    MeetsX i q x item ∧ bottom item-1/1000 > 0 ∧ item.y+1/1000 < 0+i.workingGeom.height := by
  rw [MeetsX,← meets_iff,intersects,decide_eq_true_iff]
  exact ⟨fun ⟨a,b,c,d⟩ => ⟨⟨c,d⟩,a,b⟩,fun ⟨⟨c,d⟩,a,b⟩ => ⟨a,b,c,d⟩⟩

theorem overlap_region : Overlap item (region i q x y) ↔
    (entered q.alignLeft (size i q).width item.x (right item) < along q.alignLeft x ∧
      along q.alignLeft x < passed q.alignLeft (size i q).width item.x (right item)) ∧
    entered q.alignTop (size i q).height item.y (bottom item) < along q.alignTop y ∧
      along q.alignTop y < passed q.alignTop (size i q).height item.y (bottom item) := by
  rw [← overlaps_iff,← overlaps_iff]
  rfl

theorem isValid_iff : isValid item = true ↔ 0 < item.w ∧ 0 < item.h := by
  rw [isValid,decide_eq_true_iff]

theorem starts_above {c : ℚ} (positive : 0 ≤ c) : above c (some (-1)) = true := by
  rw [above_iff]
  linarith

theorem inTheWay_cases (q : Request) (placed : ∀ item ∈ i.items, Placed item) (r : QRectF) :
    (isValid (inTheWay i q r) = false ∧ Free i.items r) ∨
      (inTheWay i q r ∈ i.items ∧ isValid (inTheWay i q r) = true ∧ intersects (inTheWay i q r) r = true) := by
  unfold inTheWay
  cases q.alignTop with
  | true =>
    simp only [if_true]
    have starts (item : QRectF) (member : item ∈ i.items) (valid : isValid item = true) :
        above (item.y+item.h) (some (-1)) = true :=
      starts_above (add_nonneg (placed item member).2 (isValid_iff.mp valid).2.le)
    rcases itemInRegion_cases (fun item => item.y+item.h) (fun c => -c) r above_iff starts with free | found
    · exact .inl free
    · exact .inr ⟨found.member,found.valid,found.inside⟩
  | false =>
    simp only [false_eq_true,if_false]
    rcases itemInRegion_cases (fun item => item.y) (l := none) (fun c => c) r below_iff (fun _ _ _ => rfl) with free | found
    · exact .inl free
    · exact .inr ⟨found.member,found.valid,found.inside⟩

theorem inStrap_cases (q : Request) (placed : ∀ item ∈ i.items, Placed item) (r : QRectF) :
    (isValid (inStrap i q r) = false ∧ Free i.items r) ∨
      Obstacle i.items r (fun item => passed q.alignLeft (size i q).width item.x (right item)) (inStrap i q r) := by
  unfold inStrap
  cases q.alignLeft with
  | true =>
    simp only [if_true]
    exact itemInRegion_cases (fun item => item.x+item.w) (fun c => c) r below_iff fun _ _ _ => rfl
  | false =>
    simp only [false_eq_true,if_false]
    rcases itemInRegion_cases (fun item => item.x) (fun c => -c) r above_iff
      (fun item member _ => starts_above (placed item member).1) with free | found
    · exact .inl free
    · refine .inr ⟨found.member,found.valid,found.inside,fun item member valid inside => ?_⟩
      have near := found.nearest item member valid inside
      simp only [passed,false_eq_true,if_false]
      unfold itemInRegionStartingLastHoriz
      linarith

/-- The inner loop is left at a height, with these positions: it has come to its end, or found one. -/
def Scanned (i : ItemSpace) (q : Request) (s : Search) (y : ℚ) (found : List QPointF) : Prop :=
  (isOut q.alignTop i.workingGeom.height (size i q).height y = true ∧ q.limitedSpace = true) ∧ found = s.possiblePositions ∨
    ¬ (isOut q.alignTop i.workingGeom.height (size i q).height y = true ∧ q.limitedSpace = true) ∧
      Free i.items (region i q s.x y) ∧ found = s.possiblePositions ++ [⟨s.x+i.placementSpacing,y+i.placementSpacing⟩]

/-- What a round can do. -/
inductive Move (i : ItemSpace) (q : Request) (s : Search) : Round Search (List QPointF) → Prop
  | outside (none : s.y = none) (out : isOut q.alignLeft i.workingGeom.width (size i q).width s.x = true)
      (limited : q.limitedSpace = true) : Move i q s (.done s.possiblePositions)
  | enter (none : s.y = none)
      (inside : ¬ (isOut q.alignLeft i.workingGeom.width (size i q).width s.x = true ∧ q.limitedSpace = true)) :
      Move i q s (.next {s with y := some (first q.alignTop i.workingGeom.height (size i q).height)})
  | pass (y : ℚ) (a : QRectF) (here : s.y = some y)
      (inside : ¬ (isOut q.alignTop i.workingGeom.height (size i q).height y = true ∧ q.limitedSpace = true))
      (member : a ∈ i.items) (valid : isValid a = true) (meets : MeetsX i q s.x a ∧ MeetsY i q y a) :
      Move i q s (.next {s with y := some (past q.alignTop (size i q).height a.y (bottom a))})
  | stop (y : ℚ) (found : List QPointF) (here : s.y = some y) (scanned : Scanned i q s y found) (some : found ≠ []) :
      Move i q s (.done found)
  | turn (y : ℚ) (found : List QPointF) (a : QRectF) (here : s.y = some y) (scanned : Scanned i q s y found)
      (obstacle : Obstacle i.items (strap i q s.x) (fun item => passed q.alignLeft (size i q).width item.x (right item)) a) :
      Move i q s (.next ⟨past q.alignLeft (size i q).width a.x (right a),none,found⟩)
  | finish (y : ℚ) (found : List QPointF) (here : s.y = some y) (scanned : Scanned i q s y found)
      (free : Free i.items (strap i q s.x)) : Move i q s (.done found)

theorem nextColumn_move (placed : ∀ item ∈ i.items, Placed item) {found : List QPointF} (here : s.y = some y)
    (scanned : Scanned i q s y found) : Move i q s (nextColumn i q {s with possiblePositions := found}) := by
  rcases inStrap_cases q placed (strap i q s.x) with ⟨invalid,free⟩ | obstacle
  · rw [nextColumn]
    simp only [invalid,Bool.not_false,if_true]
    exact .finish y found here scanned free
  · rw [nextColumn]
    simp only [obstacle.valid,Bool.not_true,Bool.false_eq_true,if_false]
    exact .turn y found _ here scanned obstacle

theorem round_move (placed : ∀ item ∈ i.items, Placed item) (s : Search) : Move i q s (round i q s) := by
  unfold round
  split
  · rename_i none
    split
    · rename_i out
      exact .outside none out.1 out.2
    · rename_i inside
      exact .enter none inside
  · rename_i y here
    split
    · rename_i out
      exact nextColumn_move placed here (.inl ⟨out,rfl⟩)
    · rename_i inside
      rcases inTheWay_cases q placed (region i q s.x y) with ⟨invalid,free⟩ | ⟨member,valid,meets⟩
      · simp only [invalid,Bool.not_false,if_true]
        split
        · exact .stop y _ here (.inr ⟨inside,free,rfl⟩) (by simp)
        · exact nextColumn_move placed here (.inr ⟨inside,free,rfl⟩)
      · simp only [valid,Bool.not_true,Bool.false_eq_true,if_false]
        exact .pass y _ here inside member valid (intersects_region.mp meets)

theorem countP_lt {α : Type} {l : List α} {b c : α → Bool} {a : α} (member : a ∈ l) (fewer : ∀ x ∈ l, b x = true → c x = true)
    (here : c a = true) (gone : b a = false) : l.countP b < l.countP c := by
  induction l with
  | nil => cases member
  | cons x rest ih =>
    have later : rest.countP b ≤ rest.countP c := countP_mono_left fun y inside => fewer y (mem_cons_of_mem x inside)
    rcases mem_cons.mp member with rfl | inside
    · rw [countP_cons_of_pos here,countP_cons_of_neg (by simp [gone])]
      exact Nat.lt_succ_of_le later
    · have less := ih inside fun y inside => fewer y (mem_cons_of_mem x inside)
      have first := fewer x mem_cons_self
      rw [countP_cons,countP_cons]
      split_ifs with one two two
      · omega
      · exact absurd (first one) two
      · omega
      · omega

/-- The items that are still to be passed in a direction. -/
def aheadX (i : ItemSpace) (q : Request) (x : ℚ) : Nat :=
  i.items.countP fun item => along q.alignLeft x < passed q.alignLeft (size i q).width item.x (right item)
def aheadY (i : ItemSpace) (q : Request) (y : ℚ) : Nat :=
  i.items.countP fun item => along q.alignTop y < passed q.alignTop (size i q).height item.y (bottom item)

def measure (i : ItemSpace) (q : Request) (s : Search) : Nat × Nat :=
  (aheadX i q s.x,s.y.elim (i.items.length+1) (aheadY i q))

theorem aheadX_lt {a : QRectF} (member : a ∈ i.items) (meets : MeetsX i q x a) :
    aheadX i q (past q.alignLeft (size i q).width a.x (right a)) < aheadX i q x := by
  obtain ⟨_,before⟩ := meets
  refine countP_lt member ?_ ?_ ?_
  · intro item _ later
    simp only [along_past,decide_eq_true_eq] at later ⊢
    linarith
  · simp only [decide_eq_true_eq]
    linarith
  · simp [along_past]

theorem aheadY_lt {a : QRectF} (member : a ∈ i.items) (meets : MeetsY i q y a) :
    aheadY i q (past q.alignTop (size i q).height a.y (bottom a)) < aheadY i q y := by
  obtain ⟨_,before⟩ := meets
  refine countP_lt member ?_ ?_ ?_
  · intro item _ later
    simp only [along_past,decide_eq_true_eq] at later ⊢
    linarith
  · simp only [decide_eq_true_eq]
    linarith
  · simp [along_past]

theorem round_lower (placed : ∀ item ∈ i.items, Placed item) (goes : round i q s = .next t) :
    Prod.Lex (· < ·) (· < ·) (measure i q t) (measure i q s) := by
  have move := round_move (q := q) placed s
  rw [goes] at move
  cases move with
  | enter none inside =>
    rw [measure,measure,none]
    exact .right _ (Nat.lt_succ_of_le countP_le_length)
  | pass y a here inside member valid meets =>
    rw [measure,measure,here]
    exact .right _ (aheadY_lt member meets.2)
  | turn y found a here scanned obstacle =>
    exact .left _ _ (aheadX_lt obstacle.member (intersects_strap.mp obstacle.inside).1)

theorem search_ends (q : Request) (placed : ∀ item ∈ i.items, Placed item) : ∃ r, PositionVertically i q r := by
  obtain ⟨r,ended,-⟩ := ends_of_measure (WellFounded.prod_lex Nat.lt_wfRel.wf Nat.lt_wfRel.wf) (measure i q)
    (fun _ => True) (fun _ => True) (fun s t _ goes => ⟨trivial,round_lower placed goes⟩) (fun _ _ _ _ => trivial)
    (s := start i q) trivial
  exact ⟨r,ended⟩

/-- The search has not left the area on the side where it began, and the places up to now are good. -/
structure Searching (i : ItemSpace) (q : Request) (s : Search) : Prop where
  fromX : along q.alignLeft (first q.alignLeft i.workingGeom.width (size i q).width) ≤ along q.alignLeft s.x
  toX : s.y ≠ none → q.limitedSpace = true → along q.alignLeft s.x ≤ limit q.alignLeft i.workingGeom.width (size i q).width
  fromY : ∀ y, s.y = some y →
    along q.alignTop (first q.alignTop i.workingGeom.height (size i q).height) ≤ along q.alignTop y
  good : ∀ p ∈ s.possiblePositions, Free i.items (grown i q p) ∧ (q.limitedSpace = true → InArea i (grown i q p))

theorem inArea_region : InArea i (region i q x y) ↔
    (along q.alignLeft (first q.alignLeft i.workingGeom.width (size i q).width) ≤ along q.alignLeft x ∧
      along q.alignLeft x ≤ limit q.alignLeft i.workingGeom.width (size i q).width) ∧
    along q.alignTop (first q.alignTop i.workingGeom.height (size i q).height) ≤ along q.alignTop y ∧
      along q.alignTop y ≤ limit q.alignTop i.workingGeom.height (size i q).height := by
  rw [← inside_iff,← inside_iff]
  rfl

theorem grown_region : grown i q ⟨x+i.placementSpacing,y+i.placementSpacing⟩ = region i q x y := by
  simp [grown]

theorem scanned_good {found : List QPointF} (searching : Searching i q s) (here : s.y = some y) (scanned : Scanned i q s y found) :
    ∀ p ∈ found, Free i.items (grown i q p) ∧ (q.limitedSpace = true → InArea i (grown i q p)) := by
  rcases scanned with ⟨_,rfl⟩ | ⟨inside,free,rfl⟩
  · exact searching.good
  · intro p member
    rcases mem_append.mp member with old | new
    · exact searching.good p old
    · obtain rfl := mem_singleton.mp new
      rw [grown_region]
      refine ⟨free,fun limited => ?_⟩
      have toY : ¬ isOut q.alignTop i.workingGeom.height (size i q).height y = true := fun out => inside ⟨out,limited⟩
      rw [isOut_iff,not_lt] at toY
      exact inArea_region.mpr ⟨⟨searching.fromX,searching.toX (by simp [here]) limited⟩,searching.fromY y here,toY⟩

theorem round_searching (placed : ∀ item ∈ i.items, Placed item) (searching : Searching i q s)
    (goes : round i q s = .next t) : Searching i q t := by
  have move := round_move (q := q) placed s
  rw [goes] at move
  cases move with
  | enter none inside =>
    refine ⟨searching.fromX,fun _ limited => ?_,?_,searching.good⟩
    · have toX : ¬ isOut q.alignLeft i.workingGeom.width (size i q).width s.x = true := fun out => inside ⟨out,limited⟩
      rwa [isOut_iff,not_lt] at toX
    · intro y here
      obtain rfl := some.inj here
      exact le_refl _
  | pass y a here inside member valid meets =>
    refine ⟨searching.fromX,fun _ => searching.toX (by simp [here]),?_,searching.good⟩
    intro y' here'
    obtain rfl := some.inj here'
    have before := searching.fromY y here
    obtain ⟨_,_,ahead⟩ := meets
    rw [along_past]
    linarith
  | turn y found a here scanned obstacle =>
    refine ⟨?_,fun other => absurd rfl other,fun _ absent => (nomatch absent),scanned_good searching here scanned⟩
    obtain ⟨⟨_,ahead⟩,_⟩ := intersects_strap.mp obstacle.inside
    have before := searching.fromX
    simp only [along_past]
    linarith

theorem start_searching : Searching i q (start i q) :=
  ⟨le_refl _,fun other => absurd rfl other,fun _ absent => (nomatch absent),fun _ member => (not_mem_nil member).elim⟩

theorem found_good (placed : ∀ item ∈ i.items, Placed item) {r : List QPointF} (found : PositionVertically i q r) :
    ∀ p ∈ r, Free i.items (grown i q p) ∧ (q.limitedSpace = true → InArea i (grown i q p)) := by
  refine ends_post (Searching i q)
    (fun r => ∀ p ∈ r, Free i.items (grown i q p) ∧ (q.limitedSpace = true → InArea i (grown i q p)))
    (fun s t searching goes => round_searching placed searching goes) ?_ found start_searching
  intro s r searching leaves
  have move := round_move (q := q) placed s
  rw [leaves] at move
  cases move with
  | outside none out limited => exact searching.good
  | stop y _ here scanned some => exact scanned_good searching here scanned
  | finish y _ here scanned free => exact scanned_good searching here scanned

/-- An item of the strap that is passed before the free place is reached. -/
def Before (i : ItemSpace) (q : Request) (x freeX : ℚ) : Prop :=
  ∃ a ∈ i.items, isValid a = true ∧ intersects a (strap i q x) = true ∧
    passed q.alignLeft (size i q).width a.x (right a) ≤ along q.alignLeft freeX

/-- The search has found a place, or has not come past the free one. -/
structure Missing (i : ItemSpace) (q : Request) (freeX freeY : ℚ) (s : Search) : Prop where
  searching : Searching i q s
  nothing : s.possiblePositions ≠ [] ∨ along q.alignLeft s.x ≤ along q.alignLeft freeX ∧
    ∀ y, s.y = some y → along q.alignTop y ≤ along q.alignTop freeY ∨ Before i q s.x freeX

variable {freeX freeY : ℚ}

theorem before_free {a : QRectF} (inside : InArea i (region i q freeX freeY))
    (free : ∀ item ∈ i.items, isValid item = true → ¬ Overlap item (region i q freeX freeY))
    (searching : Searching i q s) (here : s.y = some y) (toX : along q.alignLeft s.x ≤ along q.alignLeft freeX)
    (toY : along q.alignTop y ≤ along q.alignTop freeY) (member : a ∈ i.items) (valid : isValid a = true)
    (meets : MeetsX i q s.x a ∧ MeetsY i q y a) :
    passed q.alignTop (size i q).height a.y (bottom a) ≤ along q.alignTop freeY ∨ Before i q s.x freeX := by
  obtain ⟨meetsX,meetsY⟩ := meets
  by_cases reached : passed q.alignTop (size i q).height a.y (bottom a) ≤ along q.alignTop freeY
  · exact .inl reached
  · refine .inr ⟨a,member,valid,?_,?_⟩
    · obtain ⟨_,_,within⟩ := inArea_region.mp inside
      obtain ⟨top,bottom_⟩ := inside_iff.mpr ⟨searching.fromY y here,toY.trans within⟩
      obtain ⟨low,high⟩ := meets_iff.mpr meetsY
      exact intersects_strap.mpr ⟨meetsX,by linarith,by linarith⟩
    · by_contra beside
      refine free a member valid (overlap_region.mpr ⟨⟨?_,?_⟩,?_,?_⟩)
      · have entered_ := meetsX.1
        linarith
      · linarith
      · have entered_ := meetsY.1
        linarith
      · linarith

theorem scanned_missing (inside : InArea i (region i q freeX freeY)) {found : List QPointF}
    (missing : Missing i q freeX freeY s) (here : s.y = some y) (scanned : Scanned i q s y found) :
    found ≠ [] ∨ Before i q s.x freeX := by
  rcases scanned with ⟨⟨out,_⟩,rfl⟩ | ⟨_,_,rfl⟩
  · rcases missing.nothing with some | ⟨_,toY⟩
    · exact .inl some
    · rcases toY y here with short | before
      · obtain ⟨_,_,within⟩ := inArea_region.mp inside
        rw [isOut_iff] at out
        exact absurd (short.trans within) (not_le.mpr out)
      · exact .inr before
  · exact .inl (by simp)

theorem round_missing (placed : ∀ item ∈ i.items, Placed item) (inside : InArea i (region i q freeX freeY))
    (free : ∀ item ∈ i.items, isValid item = true → ¬ Overlap item (region i q freeX freeY))
    (missing : Missing i q freeX freeY s) (goes : round i q s = .next t) : Missing i q freeX freeY t := by
  refine ⟨round_searching placed missing.searching goes,?_⟩
  have move := round_move (q := q) placed s
  rw [goes] at move
  cases move with
  | enter none _ =>
    rcases missing.nothing with some | ⟨toX,_⟩
    · exact .inl some
    · refine .inr ⟨toX,fun y here => .inl ?_⟩
      obtain rfl := some.inj here
      exact (inArea_region.mp inside).2.1
  | pass y a here _ member valid meets =>
    rcases missing.nothing with some | ⟨toX,toY⟩
    · exact .inl some
    · refine .inr ⟨toX,fun y' here' => ?_⟩
      obtain rfl := some.inj here'
      rw [along_past]
      rcases toY y here with short | before
      · have further := before_free inside free missing.searching here toX short member valid meets
        exact further
      · exact .inr before
  | turn y found a here scanned obstacle =>
    rcases scanned_missing inside missing here scanned with some | ⟨b,member,valid,meets,before⟩
    · exact .inl some
    · refine .inr ⟨?_,fun _ absent => (nomatch absent)⟩
      rw [along_past]
      exact (obstacle.nearest b member valid meets).trans before

theorem found_some (placed : ∀ item ∈ i.items, Placed item) (inside : InArea i (region i q freeX freeY))
    (free : ∀ item ∈ i.items, isValid item = true → ¬ Overlap item (region i q freeX freeY))
    {r : List QPointF} (found : PositionVertically i q r) : r ≠ [] := by
  have begins : Missing i q freeX freeY (start i q) :=
    ⟨start_searching,.inr ⟨(inArea_region.mp inside).1.1,fun _ absent => (nomatch absent)⟩⟩
  refine ends_post (Missing i q freeX freeY) (fun r => r ≠ [])
    (fun s t missing goes => round_missing placed inside free missing goes) ?_ found begins
  intro s r missing leaves
  have move := round_move (q := q) placed s
  rw [leaves] at move
  cases move with
  | outside none out _ =>
    rcases missing.nothing with some | ⟨toX,_⟩
    · exact some
    · rw [isOut_iff] at out
      exact absurd (toX.trans (inArea_region.mp inside).1.2) (not_le.mpr out)
  | stop y _ here scanned some => exact some
  | finish y _ here scanned empty =>
    rcases scanned_missing inside missing here scanned with some | ⟨b,member,valid,meets,_⟩
    · exact some
    · rw [empty b member valid] at meets
      cases meets

def Whole (c : ℚ) : Prop := ∃ n : ℤ, (n : ℚ) = c

theorem Whole.add {c d : ℚ} (whole : Whole c) (whole' : Whole d) : Whole (c+d) := by
  obtain ⟨m,rfl⟩ := whole
  obtain ⟨n,rfl⟩ := whole'
  exact ⟨m+n,by push_cast; rfl⟩

theorem Whole.sub {c d : ℚ} (whole : Whole c) (whole' : Whole d) : Whole (c-d) := by
  obtain ⟨m,rfl⟩ := whole
  obtain ⟨n,rfl⟩ := whole'
  exact ⟨m-n,by push_cast; rfl⟩

theorem whole_gap {c d : ℚ} (whole : Whole c) (whole' : Whole d) (less : c < d) : c+1/1000 < d := by
  obtain ⟨m,rfl⟩ := whole
  obtain ⟨n,rfl⟩ := whole'
  have step : m+1 ≤ n := Int.add_one_le_iff.mpr (by exact_mod_cast less)
  have step' : (m : ℚ)+1 ≤ n := by exact_mod_cast step
  linarith

def WholeRect (r : QRectF) : Prop := (Whole r.x ∧ Whole r.w) ∧ Whole r.y ∧ Whole r.h

/-- The area, the size, the spacing and the items have whole coordinates. -/
structure WholeNumbers (i : ItemSpace) (q : Request) : Prop where
  area : Whole i.workingGeom.width ∧ Whole i.workingGeom.height
  itemSize : Whole q.itemSize.width ∧ Whole q.itemSize.height
  spacing : Whole i.placementSpacing
  items : ∀ item ∈ i.items, WholeRect item

theorem intersects_of_overlap {a b : QRectF} (whole : WholeRect a) (whole' : WholeRect b) (overlap : Overlap a b) :
    intersects a b = true := by
  obtain ⟨⟨left,right_⟩,top,bottom_⟩ := overlap
  obtain ⟨⟨ax,aw⟩,ay,ah⟩ := whole
  obtain ⟨⟨bx,bw⟩,by_,bh⟩ := whole'
  rw [intersects,decide_eq_true_iff]
  have one := whole_gap ax (bx.add bw) left
  have two := whole_gap bx (ax.add aw) right_
  have three := whole_gap ay (by_.add bh) top
  have four := whole_gap by_ (ay.add ah) bottom_
  simp only [right,bottom] at one two three four ⊢
  refine ⟨?_,three,?_,one⟩
  · linarith
  · linarith

theorem size_whole (whole : WholeNumbers i q) : Whole (size i q).width ∧ Whole (size i q).height :=
  ⟨(whole.itemSize.1.add whole.spacing).add whole.spacing,(whole.itemSize.2.add whole.spacing).add whole.spacing⟩

theorem first_whole {forward : Bool} {area size : ℚ} (whole : Whole area) (whole' : Whole size) :
    Whole (first forward area size) := by
  cases forward with
  | true => exact ⟨0,by simp [first]⟩
  | false => exact whole.sub whole'

theorem past_whole {forward : Bool} {size low extent : ℚ} (whole : Whole size) (whole' : Whole low) (whole'' : Whole extent) :
    Whole (past forward size low (low+extent)) := by
  cases forward with
  | true => exact whole'.add whole''
  | false => exact whole'.sub whole

/-- The search looks at whole positions. -/
structure WholeSearch (i : ItemSpace) (s : Search) : Prop where
  x : Whole s.x
  y : ∀ y, s.y = some y → Whole y
  found : ∀ p ∈ s.possiblePositions, Whole (p.x-i.placementSpacing) ∧ Whole (p.y-i.placementSpacing)

theorem scanned_whole {found : List QPointF} (search : WholeSearch i s) (here : s.y = some y) (scanned : Scanned i q s y found) :
    ∀ p ∈ found, Whole (p.x-i.placementSpacing) ∧ Whole (p.y-i.placementSpacing) := by
  rcases scanned with ⟨_,rfl⟩ | ⟨_,_,rfl⟩
  · exact search.found
  · intro p member
    rcases mem_append.mp member with old | new
    · exact search.found p old
    · obtain rfl := mem_singleton.mp new
      simp only [add_sub_cancel_right]
      exact ⟨search.x,search.y y here⟩

theorem round_whole (placed : ∀ item ∈ i.items, Placed item) (whole : WholeNumbers i q) (search : WholeSearch i s)
    (goes : round i q s = .next t) : WholeSearch i t := by
  have move := round_move (q := q) placed s
  rw [goes] at move
  obtain ⟨wide,high⟩ := size_whole whole
  cases move with
  | enter none inside =>
    refine ⟨search.x,fun y here => ?_,search.found⟩
    obtain rfl := some.inj here
    exact first_whole whole.area.2 high
  | pass y a here inside member valid meets =>
    refine ⟨search.x,fun y' here' => ?_,search.found⟩
    obtain rfl := some.inj here'
    obtain ⟨_,top,extent⟩ := whole.items a member
    exact past_whole high top extent
  | turn y found a here scanned obstacle =>
    obtain ⟨⟨left,extent⟩,_⟩ := whole.items a obstacle.member
    exact ⟨past_whole wide left extent,fun _ absent => (nomatch absent),scanned_whole search here scanned⟩

theorem found_whole (placed : ∀ item ∈ i.items, Placed item) (whole : WholeNumbers i q) {r : List QPointF}
    (found : PositionVertically i q r) : ∀ p ∈ r, WholeRect (grown i q p) := by
  obtain ⟨wide,high⟩ := size_whole whole
  have begins : WholeSearch i (start i q) :=
    ⟨first_whole whole.area.1 wide,fun _ absent => (nomatch absent),fun _ member => (not_mem_nil member).elim⟩
  have positions := ends_post (WholeSearch i)
    (fun r => ∀ p ∈ r, Whole (p.x-i.placementSpacing) ∧ Whole (p.y-i.placementSpacing))
    (fun s t search goes => round_whole placed whole search goes) (fun s r search leaves => by
      have move := round_move (q := q) placed s
      rw [leaves] at move
      cases move with
      | outside none out limited => exact search.found
      | stop y _ here scanned some => exact scanned_whole search here scanned
      | finish y _ here scanned free => exact scanned_whole search here scanned) found begins
  exact fun p member => ⟨⟨(positions p member).1,wide⟩,(positions p member).2,high⟩

/-- What is asked of the places that come back. -/
structure Right (i : ItemSpace) (q : Request) (r : List QPointF) : Prop where
  apart : ∀ p ∈ r, Free i.items (grown i q p)
  inside : q.limitedSpace = true → ∀ p ∈ r, InArea i (grown i q p)
  whole : WholeNumbers i q → ∀ p ∈ r, ∀ item ∈ i.items, isValid item = true → ¬ Overlap item (grown i q p)
  complete : r = [] → ∀ x y, InArea i (region i q x y) →
    ∃ item ∈ i.items, isValid item = true ∧ Overlap item (region i q x y)

def narrow : ItemSpace := ⟨[⟨0,0,10,10⟩],⟨29999/2000,10⟩,0⟩
def small : Request := ⟨⟨5,10⟩,true,true,true,false⟩
def wide : ItemSpace := ⟨[⟨10,0,10,10⟩],⟨20,10⟩,0⟩
def large : Request := ⟨⟨20001/2000,10⟩,true,true,true,false⟩

end

end KdeWorkspace.ItemPositions
