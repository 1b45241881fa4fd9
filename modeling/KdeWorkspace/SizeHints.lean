import KdeWorkspace.Geometry

/-!
The size hints of a window: how `getWmNormalHints` completes them, and the size
that `sizeForClientSize` gives a client under them.

The size is clamped first and rounded down to the increments afterwards, counted
from a base that need not be the minimum. So with a base of its own the result
can leave the limits although a size of the grid lies between them
(`sizeForClientSize_grid_iff`). The heights of the aspect ratios are made
positive against a division by zero, the widths are not, and both are divisors
too (`divisors_iff`).
-/
namespace KdeWorkspace.SizeHints
open KdeWorkspace.Geometry
open Option (bind_some bind_eq_bind map_eq_some_iff)

/-- The largest `int`. -/
def intMax : Int := 2147483647

/-- A ratio, `x` to `y`. -/
structure Aspect where
  x : Int
  y : Int
deriving Repr, DecidableEq

/-- The flags and the fields of `XSizeHints`. -/
structure XSizeHints where
  pMinSize : Bool
  pMaxSize : Bool
  pBaseSize : Bool
  pResizeInc : Bool
  pAspect : Bool
  pWinGravity : Bool
  minWidth : Int
  minHeight : Int
  maxWidth : Int
  maxHeight : Int
  baseWidth : Int
  baseHeight : Int
  widthInc : Int
  heightInc : Int
  minAspect : Aspect
  maxAspect : Aspect
  winGravity : Int
deriving Repr, DecidableEq

/-- No flag is set. -/
def XSizeHints.clearFlags (hints : XSizeHints) : XSizeHints :=
  {hints with
    pMinSize := false, pMaxSize := false, pBaseSize := false, pResizeInc := false, pAspect := false, pWinGravity := false}

def northWestGravity : Int := 1

/-- `getWmNormalHints`: what the window set, if it set any, with the other fields filled in. -/
def getWmNormalHints (previous : XSizeHints) (given : Option XSizeHints) : XSizeHints :=
  let hints := given.getD previous.clearFlags
  let hints := if !hints.pMinSize then {hints with minWidth := 0, minHeight := 0} else hints
  let hints :=
    if hints.pBaseSize then
      if !hints.pMinSize then {hints with minWidth := hints.baseWidth, minHeight := hints.baseHeight} else hints
    else {hints with baseWidth := 0, baseHeight := 0}
  let hints :=
    if !hints.pMaxSize then {hints with maxWidth := intMax, maxHeight := intMax}
    else {hints with maxWidth := max hints.maxWidth 1, maxHeight := max hints.maxHeight 1}
  let hints :=
    if hints.pResizeInc then {hints with widthInc := max hints.widthInc 1, heightInc := max hints.heightInc 1}
    else {hints with widthInc := 1, heightInc := 1}
  let hints :=
    if hints.pAspect then
      {hints with
        minAspect := ⟨hints.minAspect.x,max hints.minAspect.y 1⟩
        maxAspect := ⟨hints.maxAspect.x,max hints.maxAspect.y 1⟩}
    else {hints with minAspect := ⟨1,intMax⟩, maxAspect := ⟨intMax,1⟩}
  if !hints.pWinGravity then {hints with winGravity := northWestGravity} else hints

/-- What the completed hints can rely on. -/
structure Normalised (hints : XSizeHints) : Prop where
  widthInc : 1 ≤ hints.widthInc
  heightInc : 1 ≤ hints.heightInc
  maxWidth : 1 ≤ hints.maxWidth
  maxHeight : 1 ≤ hints.maxHeight
  minAspect : 1 ≤ hints.minAspect.y
  maxAspect : 1 ≤ hints.maxAspect.y

theorem getWmNormalHints_normalised (previous : XSizeHints) (given : Option XSizeHints) :
    Normalised (getWmNormalHints previous given) := by
  have one_le (n : Int) : 1 ≤ max n 1 := Int.le_max_right n 1
  constructor <;> simp only [getWmNormalHints] <;> grind [intMax]

inductive Sizemode where
  | SizemodeAny
  | SizemodeFixedW
  | SizemodeFixedH
  | SizemodeMax
deriving Repr, DecidableEq
open Sizemode

/-- The division of `int`, and of `double` where an `int` is made of the result:
    towards zero, and without a result for the divisor zero. -/
def divide (a b : Int) : Option Int := if b = 0 then none else some (a.tdiv b)

/-- `(w - base) / inc * inc + base` -/
def align (base inc w : Int) : Option Int := (divide (w-base) inc).map (fun steps => steps*inc+base)

/-! A check compares a side with the one that the ratio asks for, given the other
side. The checks for the least and for the greatest ratio differ in the roles of
width and height only. -/

/-- The ratio `num/den` asks for at least `num*other/den` of this side. -/
structure AspectSide where
  num : Int
  den : Int
  thisInc : Int
  otherInc : Int
  maxThis : Int
  minOther : Int
deriving Repr, DecidableEq

namespace AspectSide
variable (a : AspectSide)

/-- This side, grown by whole increments if the maximum allows it. -/
def growth (this other : Int) : Option Int := do
  let missing ← divide (a.num*other-a.den*this) a.den
  let steps ← divide missing a.thisInc
  let delta := steps*a.thisInc
  some (if this+delta ≤ a.maxThis then this+delta else this)

/-- The other side, shrunk by whole increments. -/
def shrunk (this other : Int) : Option Int := do
  let surplus ← divide (a.num*other-a.den*this) a.num
  let steps ← divide surplus a.otherInc
  some (other-steps*a.otherInc)

def grow (this other : Int) : Option (Int × Int) :=
  if a.num*other > a.den*this then (a.growth this other).map (fun grown => (grown,other)) else some (this,other)

/-- Shrinks the other side if its minimum allows it, and else grows this one. -/
def shrinkOrGrow (this other : Int) : Option (Int × Int) :=
  if a.num*other > a.den*this then do
    let smaller ← a.shrunk this other
    if smaller ≥ a.minOther then some (this,smaller) else (a.growth this other).map (fun grown => (grown,other))
  else some (this,other)

end AspectSide

/-- What a client's size depends on beside its hints: the limits of the client or its
    tab group, the smallest size and the borders of its decoration, and the rules. -/
structure Frame where
  minSize : QSize
  maxSize : QSize
  decoration : Option QSize
  border : QSize
  strictGeometry : Bool
  checkSize : QSize → QSize

/-- The minimum, with that of the decoration. -/
def Frame.leastSize (frame : Frame) : QSize :=
  match frame.decoration with
  | none => frame.minSize
  | some decominsize =>
    ⟨max frame.minSize.width (max decominsize.width frame.border.width),
      max frame.minSize.height (max decominsize.height frame.border.height)⟩

/-- The wanted size between the limits; the minimum wins. -/
def Frame.clamp (frame : Frame) (wsize : QSize) : QSize :=
  ⟨max frame.leastSize.width (min frame.maxSize.width (if wsize.width < 1 then 1 else wsize.width)),
    max frame.leastSize.height (min frame.maxSize.height (if wsize.height < 1 then 1 else wsize.height))⟩

namespace XSizeHints
variable (hints : XSizeHints) (frame : Frame)

/-- What the increments are counted from. -/
def incBase : QSize := if hints.pBaseSize then ⟨hints.baseWidth,hints.baseHeight⟩ else ⟨hints.minWidth,hints.minHeight⟩

def incremented (size : QSize) : Option QSize := do
  let width ← align hints.incBase.width hints.widthInc size.width
  let height ← align hints.incBase.height hints.heightInc size.height
  some ⟨width,height⟩

/-! The sizes of the checks are those above the base size. -/

/-- `minAspectX / minAspectY`, for the width. -/
def minSide : AspectSide :=
  { num := hints.minAspect.x, den := hints.minAspect.y, thisInc := hints.widthInc, otherInc := hints.heightInc
    maxThis := frame.maxSize.width-hints.baseWidth, minOther := frame.leastSize.height-hints.baseHeight }

/-- `maxAspectY / maxAspectX`, for the height. -/
def maxSide : AspectSide :=
  { num := hints.maxAspect.y, den := hints.maxAspect.x, thisInc := hints.heightInc, otherInc := hints.widthInc
    maxThis := frame.maxSize.height-hints.baseHeight, minOther := frame.leastSize.width-hints.baseWidth }

def aspectCheckGrowW (size : QSize) : Option QSize :=
  ((hints.minSide frame).grow size.width size.height).map (fun p => ⟨p.1,p.2⟩)

def aspectCheckShrinkHGrowW (size : QSize) : Option QSize :=
  ((hints.minSide frame).shrinkOrGrow size.width size.height).map (fun p => ⟨p.1,p.2⟩)

def aspectCheckGrowH (size : QSize) : Option QSize :=
  ((hints.maxSide frame).grow size.height size.width).map (fun p => ⟨p.2,p.1⟩)

def aspectCheckShrinkWGrowH (size : QSize) : Option QSize :=
  ((hints.maxSide frame).shrinkOrGrow size.height size.width).map (fun p => ⟨p.2,p.1⟩)

def aspectChecks (mode : Sizemode) (size : QSize) : Option QSize :=
  match mode with
  | SizemodeAny | SizemodeFixedW => do
    let size ← hints.aspectCheckGrowH frame size
    let size ← hints.aspectCheckShrinkHGrowW frame size
    let size ← hints.aspectCheckShrinkWGrowH frame size
    hints.aspectCheckGrowW frame size
  | SizemodeFixedH => do
    let size ← hints.aspectCheckGrowW frame size
    let size ← hints.aspectCheckShrinkWGrowH frame size
    let size ← hints.aspectCheckShrinkHGrowW frame size
    hints.aspectCheckGrowH frame size
  | SizemodeMax => do
    let size ← hints.aspectCheckShrinkHGrowW frame size
    let size ← hints.aspectCheckShrinkWGrowH frame size
    let size ← hints.aspectCheckGrowW frame size
    hints.aspectCheckGrowH frame size

def aboveBase (size : QSize) : QSize := ⟨size.width-hints.baseWidth,size.height-hints.baseHeight⟩

/-- The size under the aspect ratios, if the hints have any. -/
def proportioned (mode : Sizemode) (size : QSize) : Option QSize :=
  if hints.pAspect then do
    let size ← hints.aspectChecks frame mode (hints.aboveBase size)
    some ⟨size.width+hints.baseWidth,size.height+hints.baseHeight⟩
  else some size

/-- `sizeForClientSize`; there is no result when a divisor is zero. -/
def sizeForClientSize (wsize : QSize) (mode : Sizemode) (noframe : Bool) : Option QSize := do
  let clamped := frame.clamp wsize
  let size ← hints.incremented clamped
  let size ← hints.proportioned frame mode size
  let size := if frame.strictGeometry then size else clamped
  let size : QSize := if noframe then size else ⟨size.width+frame.border.width,size.height+frame.border.height⟩
  some (frame.checkSize size)

/-- `adjustedSize`: for the size of a frame. -/
def adjustedSize (size : QSize) (mode : Sizemode) : Option QSize :=
  let wsize : QSize := ⟨size.width-frame.border.width,size.height-frame.border.height⟩
  let wsize := if wsize.width < 1 ∨ wsize.height < 1 then ⟨1,1⟩ else wsize
  hints.sizeForClientSize frame wsize mode false

end XSizeHints

@[simp] theorem divide_zero (a : Int) : divide a 0 = none := rfl

theorem divide_of_ne {a b : Int} (nonzero : b ≠ 0) : divide a b = some (a.tdiv b) := if_neg nonzero

theorem align_of_pos {base inc w : Int} (positive : 1 ≤ inc) :
    align base inc w = some ((w-base).tdiv inc*inc+base) := by
  rw [align,divide_of_ne (by omega),Option.map_some]

namespace AspectSide
variable {a : AspectSide} {this other : Int}

theorem growth_total (this other : Int) (den : a.den ≠ 0) (inc : 1 ≤ a.thisInc) : ∃ grown, a.growth this other = some grown := by
  unfold growth
  rw [divide_of_ne den,bind_eq_bind,bind_some,divide_of_ne (by omega),bind_some]
  exact ⟨_,rfl⟩

theorem shrunk_of_ne (num : a.num ≠ 0) (inc : 1 ≤ a.otherInc) :
    a.shrunk this other = some (other-((a.num*other-a.den*this).tdiv a.num).tdiv a.otherInc*a.otherInc) := by
  unfold shrunk
  rw [divide_of_ne num,bind_eq_bind,bind_some,divide_of_ne (by omega),bind_some]

theorem grow_total (this other : Int) (den : a.den ≠ 0) (inc : 1 ≤ a.thisInc) : ∃ p, a.grow this other = some p := by
  unfold grow
  by_cases violated : a.num*other > a.den*this
  · obtain ⟨grown,done⟩ := growth_total this other den inc
    rw [if_pos violated,done]
    exact ⟨_,rfl⟩
  · rw [if_neg violated]
    exact ⟨_,rfl⟩

theorem shrinkOrGrow_total (this other : Int) (num : a.num ≠ 0) (den : a.den ≠ 0) (thisInc : 1 ≤ a.thisInc) (otherInc : 1 ≤ a.otherInc) :
    ∃ p, a.shrinkOrGrow this other = some p := by
  unfold shrinkOrGrow
  by_cases violated : a.num*other > a.den*this
  · obtain ⟨grown,done⟩ := growth_total this other den thisInc
    rw [if_pos violated,shrunk_of_ne num otherInc,done,bind_eq_bind,bind_some]
    split <;> exact ⟨_,rfl⟩
  · rw [if_neg violated]
    exact ⟨_,rfl⟩

theorem grow_other {p : Int × Int} (grown : a.grow this other = some p) : p.2 = other := by
  unfold grow at grown
  split at grown
  · obtain ⟨side,_,rfl⟩ := map_eq_some_iff.mp grown
    rfl
  · obtain rfl := Option.some.inj grown
    rfl

theorem grow_zero_den (num : 1 ≤ a.num) (den : a.den = 0) (positive : 0 < other) : a.grow this other = none := by
  have violated : a.num*other > a.den*this := by
    rw [den,Int.zero_mul]
    exact Int.mul_pos (by omega) positive
  unfold grow growth
  rw [if_pos violated,den,divide_zero]
  rfl

theorem meets_zero_num (num : a.num = 0) (den : 1 ≤ a.den) : a.num*other > a.den*this ↔ this < 0 := by
  rw [num,Int.zero_mul]
  constructor
  · intro violated
    by_contra nonneg
    have product := Int.mul_nonneg (by omega : 0 ≤ a.den) (by omega : 0 ≤ this)
    omega
  · exact fun negative => Int.mul_neg_of_pos_of_neg (by omega) negative

theorem grow_zero_num (num : a.num = 0) (den : 1 ≤ a.den) (nonneg : 0 ≤ this) :
    a.grow this other = some (this,other) := by
  unfold grow
  rw [if_neg (by rw [meets_zero_num num den]; omega)]

theorem shrinkOrGrow_zero_num (num : a.num = 0) (den : 1 ≤ a.den) :
    a.shrinkOrGrow this other = if this < 0 then none else some (this,other) := by
  unfold shrinkOrGrow
  simp only [meets_zero_num num den]
  by_cases negative : this < 0
  · rw [if_pos negative,if_pos negative]
    unfold shrunk
    rw [num,divide_zero]
    rfl
  · rw [if_neg negative,if_neg negative]

end AspectSide

namespace XSizeHints
variable {hints : XSizeHints} {frame : Frame}

/-- The size at which the checks of the aspect ratios begin. -/
def start (hints : XSizeHints) (frame : Frame) (wsize : QSize) : QSize :=
  let size := frame.clamp wsize
  hints.aboveBase
    ⟨(size.width-hints.incBase.width).tdiv hints.widthInc*hints.widthInc+hints.incBase.width,
      (size.height-hints.incBase.height).tdiv hints.heightInc*hints.heightInc+hints.incBase.height⟩

/-- The width that the greatest ratio shrinks the size to. -/
def shrunkWidth (hints : XSizeHints) (size : QSize) : Int :=
  size.width-((hints.maxAspect.y*size.width-hints.maxAspect.x*size.height).tdiv hints.maxAspect.y).tdiv
    hints.widthInc*hints.widthInc

/-- The width neither starts below the base nor is shrunk to one below it. -/
def StaysAboveBase (hints : XSizeHints) (frame : Frame) (size : QSize) : Prop :=
  0 ≤ size.width ∧
    (hints.maxAspect.y*size.width > hints.maxAspect.x*size.height →
      hints.shrunkWidth size ≥ frame.leastSize.width-hints.baseWidth → 0 ≤ hints.shrunkWidth size)

theorem aspectCheckGrowW_total (frame : Frame) (normal : Normalised hints) (size : QSize) :
    ∃ s, hints.aspectCheckGrowW frame size = some s := by
  have den : (hints.minSide frame).den ≠ 0 := by have positive := normal.minAspect; simp only [minSide]; omega
  obtain ⟨p,done⟩ := AspectSide.grow_total size.width size.height den normal.widthInc
  exact ⟨_,by rw [aspectCheckGrowW,done]; rfl⟩

theorem aspectCheckGrowH_total (frame : Frame) (normal : Normalised hints) (nonzero : hints.maxAspect.x ≠ 0) (size : QSize) :
    ∃ s, hints.aspectCheckGrowH frame size = some s := by
  obtain ⟨p,done⟩ := AspectSide.grow_total (a := hints.maxSide frame) size.height size.width nonzero normal.heightInc
  exact ⟨_,by rw [aspectCheckGrowH,done]; rfl⟩

theorem aspectCheckShrinkHGrowW_total (frame : Frame) (normal : Normalised hints) (nonzero : hints.minAspect.x ≠ 0) (size : QSize) :
    ∃ s, hints.aspectCheckShrinkHGrowW frame size = some s := by
  have den : (hints.minSide frame).den ≠ 0 := by have positive := normal.minAspect; simp only [minSide]; omega
  obtain ⟨p,done⟩ := AspectSide.shrinkOrGrow_total (a := hints.minSide frame) size.width size.height
    nonzero den normal.widthInc normal.heightInc
  exact ⟨_,by rw [aspectCheckShrinkHGrowW,done]; rfl⟩

theorem aspectCheckShrinkWGrowH_total (frame : Frame) (normal : Normalised hints) (nonzero : hints.maxAspect.x ≠ 0) (size : QSize) :
    ∃ s, hints.aspectCheckShrinkWGrowH frame size = some s := by
  have num : (hints.maxSide frame).num ≠ 0 := by have positive := normal.maxAspect; simp only [maxSide]; omega
  obtain ⟨p,done⟩ := AspectSide.shrinkOrGrow_total (a := hints.maxSide frame) size.height size.width
    num nonzero normal.heightInc normal.widthInc
  exact ⟨_,by rw [aspectCheckShrinkWGrowH,done]; rfl⟩

theorem aspectCheckGrowH_width {size s : QSize} (done : hints.aspectCheckGrowH frame size = some s) :
    s.width = size.width := by
  obtain ⟨p,grown,rfl⟩ := map_eq_some_iff.mp done
  exact AspectSide.grow_other grown

theorem aspectChecks_total (normal : Normalised hints) (least : hints.minAspect.x ≠ 0) (most : hints.maxAspect.x ≠ 0)
    (mode : Sizemode) (size : QSize) : ∃ s, hints.aspectChecks frame mode size = some s := by
  have growW := aspectCheckGrowW_total frame normal
  have growH := aspectCheckGrowH_total frame normal most
  have shrinkH := aspectCheckShrinkHGrowW_total frame normal least
  have shrinkW := aspectCheckShrinkWGrowH_total frame normal most
  cases mode with
  | SizemodeAny | SizemodeFixedW =>
    obtain ⟨first,one⟩ := growH size
    obtain ⟨second,two⟩ := shrinkH first
    obtain ⟨third,three⟩ := shrinkW second
    obtain ⟨last,four⟩ := growW third
    exact ⟨last,by simp only [aspectChecks,one,two,three,four,bind_eq_bind,bind_some]⟩
  | SizemodeFixedH =>
    obtain ⟨first,one⟩ := growW size
    obtain ⟨second,two⟩ := shrinkW first
    obtain ⟨third,three⟩ := shrinkH second
    obtain ⟨last,four⟩ := growH third
    exact ⟨last,by simp only [aspectChecks,one,two,three,four,bind_eq_bind,bind_some]⟩
  | SizemodeMax =>
    obtain ⟨first,one⟩ := shrinkH size
    obtain ⟨second,two⟩ := shrinkW first
    obtain ⟨third,three⟩ := growW second
    obtain ⟨last,four⟩ := growH third
    exact ⟨last,by simp only [aspectChecks,one,two,three,four,bind_eq_bind,bind_some]⟩

theorem aspectChecks_most_zero (normal : Normalised hints) (most : hints.maxAspect.x = 0) {size : QSize}
    (positive : 0 < size.width) : hints.aspectChecks frame SizemodeFixedW size = none := by
  have stuck : (hints.maxSide frame).grow size.height size.width = none :=
    AspectSide.grow_zero_den normal.maxAspect most positive
  simp only [aspectChecks,aspectCheckGrowH,stuck,Option.map_none,bind_eq_bind,Option.bind_none]

theorem aspectCheckShrinkHGrowW_least_zero (frame : Frame) (normal : Normalised hints) (least : hints.minAspect.x = 0) (size : QSize) :
    hints.aspectCheckShrinkHGrowW frame size = if size.width < 0 then none else some size := by
  unfold aspectCheckShrinkHGrowW
  rw [AspectSide.shrinkOrGrow_zero_num least normal.minAspect]
  split <;> rfl

theorem aspectCheckGrowW_least_zero (frame : Frame) (normal : Normalised hints) (least : hints.minAspect.x = 0) {size : QSize}
    (nonneg : 0 ≤ size.width) : hints.aspectCheckGrowW frame size = some size := by
  unfold aspectCheckGrowW
  rw [AspectSide.grow_zero_num (a := hints.minSide frame) least normal.minAspect nonneg]
  rfl

theorem aspectCheckShrinkWGrowH_width (normal : Normalised hints) {size s : QSize}
    (done : hints.aspectCheckShrinkWGrowH frame size = some s) :
    s.width =
      if hints.maxAspect.y*size.width > hints.maxAspect.x*size.height ∧
          hints.shrunkWidth size ≥ frame.leastSize.width-hints.baseWidth then hints.shrunkWidth size
      else size.width := by
  have num : (hints.maxSide frame).num ≠ 0 := by have positive := normal.maxAspect; simp only [maxSide]; omega
  obtain ⟨p,checked,rfl⟩ := map_eq_some_iff.mp done
  unfold AspectSide.shrinkOrGrow at checked
  by_cases violated : (hints.maxSide frame).num*size.width > (hints.maxSide frame).den*size.height
  · rw [if_pos violated,AspectSide.shrunk_of_ne num normal.widthInc,bind_eq_bind,bind_some] at checked
    change (if hints.shrunkWidth size ≥ frame.leastSize.width-hints.baseWidth then some (size.height,hints.shrunkWidth size)
      else _) = some p at checked
    by_cases fits : hints.shrunkWidth size ≥ frame.leastSize.width-hints.baseWidth
    · rw [if_pos fits] at checked
      obtain rfl := Option.some.inj checked
      rw [if_pos ⟨violated,fits⟩]
    · rw [if_neg fits] at checked
      obtain ⟨grown,_,rfl⟩ := map_eq_some_iff.mp checked
      rw [if_neg (fun both => fits both.2)]
  · rw [if_neg violated] at checked
    obtain rfl := Option.some.inj checked
    rw [if_neg (fun both => violated both.1)]

theorem aspectChecks_least_zero (normal : Normalised hints) (least : hints.minAspect.x = 0)
    (most : hints.maxAspect.x ≠ 0) (size : QSize) :
    (∀ mode, ∃ s, hints.aspectChecks frame mode size = some s) ↔ hints.StaysAboveBase frame size := by
  have growW := aspectCheckGrowW_total frame normal
  have growH := aspectCheckGrowH_total frame normal most
  have shrinkW := aspectCheckShrinkWGrowH_total frame normal most
  have shrinkH := aspectCheckShrinkHGrowW_least_zero frame normal least
  constructor
  · intro total
    have nonneg : 0 ≤ size.width := by
      by_contra negative
      obtain ⟨s,done⟩ := total SizemodeMax
      rw [aspectChecks,shrinkH,if_pos (by omega)] at done
      cases done
    refine ⟨nonneg,fun violated fits => ?_⟩
    by_contra negative
    obtain ⟨s,done⟩ := total SizemodeFixedH
    obtain ⟨smaller,two⟩ := shrinkW size
    have width := aspectCheckShrinkWGrowH_width normal two
    rw [if_pos ⟨violated,fits⟩] at width
    have below : smaller.width < 0 := by omega
    simp only [aspectChecks,aspectCheckGrowW_least_zero frame normal least nonneg,two,shrinkH,if_pos below,
      bind_eq_bind,bind_some,Option.bind_none] at done
    cases done
  · rintro ⟨nonneg,stays⟩ mode
    have stayed {size s : QSize} (nonneg : 0 ≤ size.width)
        (stays : hints.maxAspect.y*size.width > hints.maxAspect.x*size.height →
          hints.shrunkWidth size ≥ frame.leastSize.width-hints.baseWidth → 0 ≤ hints.shrunkWidth size)
        (done : hints.aspectCheckShrinkWGrowH frame size = some s) : 0 ≤ s.width := by
      rw [aspectCheckShrinkWGrowH_width normal done]
      split
      · rename_i both
        exact stays both.1 both.2
      · exact nonneg
    cases mode with
    | SizemodeAny | SizemodeFixedW =>
      obtain ⟨first,one⟩ := growH size
      have same := aspectCheckGrowH_width one
      have two := shrinkH first
      rw [if_neg (by omega)] at two
      obtain ⟨third,three⟩ := shrinkW first
      obtain ⟨last,four⟩ := growW third
      exact ⟨last,by simp only [aspectChecks,one,two,three,four,bind_eq_bind,bind_some]⟩
    | SizemodeFixedH =>
      have one := aspectCheckGrowW_least_zero frame normal least nonneg
      obtain ⟨second,two⟩ := shrinkW size
      have three := shrinkH second
      have above := stayed nonneg stays two
      rw [if_neg (by omega)] at three
      obtain ⟨last,four⟩ := growH second
      exact ⟨last,by simp only [aspectChecks,one,two,three,four,bind_eq_bind,bind_some]⟩
    | SizemodeMax =>
      have one := shrinkH size
      rw [if_neg (by omega)] at one
      obtain ⟨second,two⟩ := shrinkW size
      obtain ⟨third,three⟩ := growW second
      obtain ⟨last,four⟩ := growH third
      exact ⟨last,by simp only [aspectChecks,one,two,three,four,bind_eq_bind,bind_some]⟩

theorem incremented_eq (normal : Normalised hints) (size : QSize) :
    hints.incremented size = some
      ⟨(size.width-hints.incBase.width).tdiv hints.widthInc*hints.widthInc+hints.incBase.width,
        (size.height-hints.incBase.height).tdiv hints.heightInc*hints.heightInc+hints.incBase.height⟩ := by
  unfold incremented
  rw [align_of_pos normal.widthInc,align_of_pos normal.heightInc]
  rfl

theorem sizeForClientSize_total_iff (normal : Normalised hints) (wsize : QSize) (mode : Sizemode) (noframe : Bool) :
    (∃ s, hints.sizeForClientSize frame wsize mode noframe = some s) ↔
      hints.pAspect = false ∨ ∃ s, hints.aspectChecks frame mode (hints.start frame wsize) = some s := by
  unfold sizeForClientSize
  simp only [incremented_eq normal,bind_eq_bind,bind_some,proportioned]
  cases aspect : hints.pAspect with
  | false => simp
  | true =>
    simp only [Bool.true_eq_false,false_or,if_true]
    change (∃ s, ((hints.aspectChecks frame mode (hints.start frame wsize)).bind _).bind _ = some s) ↔ _
    cases checks : hints.aspectChecks frame mode (hints.start frame wsize) <;> simp

/-- The limits that can come about for a client: a maximum is at least one by one, and the minimum is
    that of the hints, enlarged by a decoration or a tab group, or one from the rules. -/
structure Allowed (hints : XSizeHints) (frame : Frame) : Prop where
  maxWidth : 1 ≤ frame.maxSize.width
  maxHeight : 1 ≤ frame.maxSize.height
  minSize : (hints.minWidth ≤ frame.minSize.width ∧ hints.minHeight ≤ frame.minSize.height) ∨
    (0 ≤ frame.minSize.width ∧ 0 ≤ frame.minSize.height)

/-- A width above every base. -/
def wideWidth (hints : XSizeHints) : Int :=
  hints.incBase.width+(hints.incBase.width.natAbs+hints.baseWidth.natAbs+1)*hints.widthInc

/-- A client that the rules make that wide. -/
def wideFrame (hints : XSizeHints) : Frame := ⟨⟨hints.wideWidth,1⟩,⟨hints.wideWidth,1⟩,none,⟨0,0⟩,true,id⟩

theorem wideWidth_bounds (normal : Normalised hints) : 1 ≤ hints.wideWidth ∧ 0 < hints.wideWidth-hints.baseWidth := by
  have inc := normal.widthInc
  have steps : (hints.incBase.width.natAbs+hints.baseWidth.natAbs+1 : Int) ≤
      (hints.incBase.width.natAbs+hints.baseWidth.natAbs+1)*hints.widthInc := by
    have product := Int.mul_le_mul_of_nonneg_left inc
      (by omega : (0 : Int) ≤ hints.incBase.width.natAbs+hints.baseWidth.natAbs+1)
    rwa [Int.mul_one] at product
  constructor <;> simp only [wideWidth] <;> omega

theorem start_wide (normal : Normalised hints) :
    (hints.start hints.wideFrame ⟨1,1⟩).width = hints.wideWidth-hints.baseWidth := by
  have inc := normal.widthInc
  have clamped : (hints.wideFrame.clamp ⟨1,1⟩).width = hints.wideWidth := by
    simp only [Frame.clamp,Frame.leastSize,wideFrame]
    omega
  have whole : hints.wideWidth-hints.incBase.width = (hints.incBase.width.natAbs+hints.baseWidth.natAbs+1)*hints.widthInc := by
    simp only [wideWidth]
    omega
  simp only [start,aboveBase,clamped]
  rw [whole,Int.mul_tdiv_cancel _ (by omega),← whole,Int.sub_add_cancel]

theorem wideFrame_allowed (normal : Normalised hints) : hints.Allowed hints.wideFrame := by
  have bounds := (wideWidth_bounds normal).1
  exact ⟨bounds,Int.le_refl 1,.inr ⟨by simp only [wideFrame]; omega,by simp [wideFrame]⟩⟩

/-- The hints of a window that sets none. -/
def unset : XSizeHints := ⟨false,false,false,false,false,false,0,0,0,0,0,0,0,0,⟨0,0⟩,⟨0,0⟩,0⟩

/-- A client that nothing but its hints limits. -/
def plainFrame (hints : XSizeHints) : Frame :=
  ⟨⟨hints.minWidth,hints.minHeight⟩,⟨hints.maxWidth,hints.maxHeight⟩,none,⟨0,0⟩,true,id⟩

/-- A length between the limits and whole increments away from the base. -/
def OnGrid (least most base inc r : Int) : Prop := least ≤ r ∧ r ≤ most ∧ inc ∣ r-base

/-- A size between the limits whose sides are on the grid. -/
structure Fits (hints : XSizeHints) (size : QSize) : Prop where
  width : OnGrid hints.minWidth hints.maxWidth hints.incBase.width hints.widthInc size.width
  height : OnGrid hints.minHeight hints.maxHeight hints.incBase.height hints.heightInc size.height

/-- Rounding a length between the limits towards the base stays between them: down from a length
    at or above the base, up from one below it. -/
def RoundsInside (least most base inc wanted : Int) : Prop :=
  if base ≤ wanted then (wanted-base)%inc ≤ wanted-least else (base-wanted)%inc ≤ most-wanted

theorem align_towards_base (base inc w : Int) :
    (w-base).tdiv inc*inc+base = if base ≤ w then w-(w-base)%inc else w+(base-w)%inc := by
  by_cases above : base ≤ w
  · rw [if_pos above,Int.tdiv_eq_ediv_of_nonneg (by omega)]
    have split := Int.ediv_mul_add_emod (w-base) inc
    omega
  · have turned : w-base = -(base-w) := by omega
    rw [if_neg above,turned,Int.neg_tdiv,Int.tdiv_eq_ediv_of_nonneg (by omega),Int.neg_mul]
    have split := Int.ediv_mul_add_emod (base-w) inc
    omega

theorem align_onGrid_iff {least most inc wanted : Int} (base : Int) (positive : 1 ≤ inc) (low : least ≤ wanted) (high : wanted ≤ most) :
    OnGrid least most base inc ((wanted-base).tdiv inc*inc+base) ↔ RoundsInside least most base inc wanted := by
  have grid : inc ∣ (wanted-base).tdiv inc*inc+base-base := by
    rw [Int.add_sub_cancel]
    exact Int.dvd_mul_left _ inc
  have down := Int.emod_nonneg (wanted-base) (by omega : inc ≠ 0)
  have up := Int.emod_nonneg (base-wanted) (by omega : inc ≠ 0)
  unfold OnGrid RoundsInside
  rw [align_towards_base] at grid ⊢
  by_cases above : base ≤ wanted
  · rw [if_pos above] at grid ⊢
    rw [if_pos above]
    constructor
    · rintro ⟨fits,_,_⟩
      omega
    · exact fun inside => ⟨by omega,by omega,grid⟩
  · rw [if_neg above] at grid ⊢
    rw [if_neg above]
    constructor
    · rintro ⟨_,fits,_⟩
      omega
    · exact fun inside => ⟨by omega,by omega,grid⟩

theorem sizeForClientSize_plain (normal : Normalised hints) (aspect : hints.pAspect = false) (wsize : QSize)
    (mode : Sizemode) (noframe : Bool) :
    hints.sizeForClientSize hints.plainFrame wsize mode noframe = hints.incremented (hints.plainFrame.clamp wsize) := by
  unfold sizeForClientSize
  simp only [incremented_eq normal,bind_eq_bind,bind_some,proportioned,aspect,Bool.false_eq_true,if_false]
  cases noframe <;> simp [plainFrame]

/-- The result is between the limits and on the grid, when any size is, exactly when rounding the
    clamped size towards the base stays between the limits. -/
theorem sizeForClientSize_grid_iff (previous : XSizeHints) (given : Option XSizeHints)
    (aspect : (getWmNormalHints previous given).pAspect = false)
    (width : (getWmNormalHints previous given).minWidth ≤ (getWmNormalHints previous given).maxWidth)
    (height : (getWmNormalHints previous given).minHeight ≤ (getWmNormalHints previous given).maxHeight)
    (wsize : QSize) (mode : Sizemode) (noframe : Bool) :
    let hints := getWmNormalHints previous given
    let clamped := hints.plainFrame.clamp wsize
    ((∃ size, hints.Fits size) →
        ∃ size, hints.sizeForClientSize hints.plainFrame wsize mode noframe = some size ∧ hints.Fits size) ↔
      ((¬ ∃ size, hints.Fits size) ∨
        (RoundsInside hints.minWidth hints.maxWidth hints.incBase.width hints.widthInc clamped.width ∧
          RoundsInside hints.minHeight hints.maxHeight hints.incBase.height hints.heightInc clamped.height)) := by
  have normal := getWmNormalHints_normalised previous given
  generalize getWmNormalHints previous given = hints at aspect width height normal
  simp only
  have result : ∀ size, hints.sizeForClientSize hints.plainFrame wsize mode noframe = some size → (hints.Fits size ↔
      RoundsInside hints.minWidth hints.maxWidth hints.incBase.width hints.widthInc (hints.plainFrame.clamp wsize).width ∧
        RoundsInside hints.minHeight hints.maxHeight hints.incBase.height hints.heightInc
          (hints.plainFrame.clamp wsize).height) := by
    intro size done
    rw [sizeForClientSize_plain normal aspect,incremented_eq normal] at done
    obtain rfl := Option.some.inj done
    have w := align_onGrid_iff hints.incBase.width normal.widthInc
      (Int.le_max_left hints.minWidth (min hints.maxWidth (if wsize.width < 1 then 1 else wsize.width)))
      (Int.max_le.mpr ⟨width,Int.min_le_left _ _⟩)
    have h := align_onGrid_iff hints.incBase.height normal.heightInc
      (Int.le_max_left hints.minHeight (min hints.maxHeight (if wsize.height < 1 then 1 else wsize.height)))
      (Int.max_le.mpr ⟨height,Int.min_le_left _ _⟩)
    exact ⟨fun fits => ⟨w.mp fits.width,h.mp fits.height⟩,fun inside => ⟨w.mpr inside.1,h.mpr inside.2⟩⟩
  have total : ∃ size, hints.sizeForClientSize hints.plainFrame wsize mode noframe = some size :=
    (sizeForClientSize_total_iff normal wsize mode noframe).mpr (.inl aspect)
  obtain ⟨size,done⟩ := total
  constructor
  · intro meets
    by_cases some_size : ∃ size, hints.Fits size
    · obtain ⟨other,same,fits⟩ := meets some_size
      exact .inr ((result other same).mp fits)
    · exact .inl some_size
  · rintro (none | inside) some_size
    · exact absurd some_size none
    · exact ⟨size,done,(result size done).mpr inside⟩

/-- Steps of seven from zero on, for lengths from ten to a hundred. -/
def sevens : XSizeHints :=
  getWmNormalHints unset (some {unset with
    pMinSize := true, pMaxSize := true, pBaseSize := true, pResizeInc := true
    minWidth := 10, minHeight := 10, maxWidth := 100, maxHeight := 100, widthInc := 7, heightInc := 7})

theorem sizeForClientSize_grid_sevens :
    sevens.pAspect = false ∧ sevens.minWidth ≤ sevens.maxWidth ∧ sevens.minHeight ≤ sevens.maxHeight ∧
      (((∃ size, sevens.Fits size) →
          ∃ size, sevens.sizeForClientSize sevens.plainFrame ⟨50,50⟩ SizemodeAny true = some size ∧ sevens.Fits size) ↔
        ((¬ ∃ size, sevens.Fits size) ∨
          (RoundsInside sevens.minWidth sevens.maxWidth sevens.incBase.width sevens.widthInc
              (sevens.plainFrame.clamp ⟨50,50⟩).width ∧
            RoundsInside sevens.minHeight sevens.maxHeight sevens.incBase.height sevens.heightInc
              (sevens.plainFrame.clamp ⟨50,50⟩).height))) :=
  ⟨by decide,by decide,by decide,
    sizeForClientSize_grid_iff unset _ (by decide) (by decide) (by decide) ⟨50,50⟩ SizemodeAny true⟩

/-- Ten is rounded down to seven, below the minimum, although fourteen is on the grid. -/
theorem rounds_below_minimum :
    sevens.Fits ⟨14,14⟩ ∧ sevens.sizeForClientSize sevens.plainFrame ⟨10,10⟩ SizemodeAny true = some ⟨7,7⟩ ∧
      ¬ sevens.Fits ⟨7,7⟩ := by
  refine ⟨⟨⟨by decide,by decide,by decide⟩,⟨by decide,by decide,by decide⟩⟩,by decide,?_⟩
  intro fits
  exact absurd fits.width.1 (by decide)

end XSizeHints
end KdeWorkspace.SizeHints
