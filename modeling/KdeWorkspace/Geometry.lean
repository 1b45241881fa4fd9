import Mathlib.Algebra.Group.Int.Defs
import Mathlib.Algebra.Group.Nat.Defs
import Mathlib.Tactic.Common

/-!
Points, sizes and rectangles with integer coordinates, as the geometry code
uses them. A rectangle keeps its first and its last column and row, both
inclusive, so its width is one more than the difference (`QRect.width`) and an
empty rectangle has its last column left of its first.
-/
namespace KdeWorkspace.Geometry

structure QPoint where
  x : Int
  y : Int
deriving Repr, DecidableEq

structure QSize where
  width : Int
  height : Int
deriving Repr, DecidableEq

/-- A rectangle by its first and last column (`x1`, `x2`) and row (`y1`, `y2`). -/
structure QRect where
  x1 : Int
  y1 : Int
  x2 : Int
  y2 : Int
deriving Repr, DecidableEq

namespace QRect

/-- `QRect(x, y, width, height)`. -/
def ofSize (x y width height : Int) : QRect := ⟨x,y,x+width-1,y+height-1⟩

def left (r : QRect) : Int := r.x1
def top (r : QRect) : Int := r.y1
def right (r : QRect) : Int := r.x2
def bottom (r : QRect) : Int := r.y2
def x (r : QRect) : Int := r.x1
def y (r : QRect) : Int := r.y1
def width (r : QRect) : Int := r.x2-r.x1+1
def height (r : QRect) : Int := r.y2-r.y1+1
def size (r : QRect) : QSize := ⟨r.width,r.height⟩
def topLeft (r : QRect) : QPoint := ⟨r.x1,r.y1⟩

/-- Not empty: neither side is left of or above its opposite. -/
def isValid (r : QRect) : Bool := decide (r.x1 ≤ r.x2 ∧ r.y1 ≤ r.y2)

/-- The middle point; the division rounds towards zero. -/
def center (r : QRect) : QPoint := ⟨(r.x1+r.x2).tdiv 2,(r.y1+r.y2).tdiv 2⟩

def contains (r : QRect) (p : QPoint) : Bool := decide (r.x1 ≤ p.x ∧ p.x ≤ r.x2 ∧ r.y1 ≤ p.y ∧ p.y ≤ r.y2)

/-- Some pixel lies in both rectangles. -/
def intersects (r s : QRect) : Bool := decide (max r.x1 s.x1 ≤ min r.x2 s.x2 ∧ max r.y1 s.y1 ≤ min r.y2 s.y2)

/-! The setters move one side and keep the others. -/

def setLeft (r : QRect) (x : Int) : QRect := {r with x1 := x}
def setTop (r : QRect) (y : Int) : QRect := {r with y1 := y}
def setRight (r : QRect) (x : Int) : QRect := {r with x2 := x}
def setBottom (r : QRect) (y : Int) : QRect := {r with y2 := y}
def setTopLeft (r : QRect) (p : QPoint) : QRect := {r with x1 := p.x, y1 := p.y}
def setWidth (r : QRect) (width : Int) : QRect := {r with x2 := r.x1+width-1}
def setHeight (r : QRect) (height : Int) : QRect := {r with y2 := r.y1+height-1}
def setSize (r : QRect) (s : QSize) : QRect := (r.setWidth s.width).setHeight s.height

def moveLeft (r : QRect) (x : Int) : QRect := {r with x1 := x, x2 := x+(r.x2-r.x1)}
def moveTop (r : QRect) (y : Int) : QRect := {r with y1 := y, y2 := y+(r.y2-r.y1)}
def moveRight (r : QRect) (x : Int) : QRect := {r with x1 := x-(r.x2-r.x1), x2 := x}
def moveBottom (r : QRect) (y : Int) : QRect := {r with y1 := y-(r.y2-r.y1), y2 := y}
def moveTopLeft (r : QRect) (p : QPoint) : QRect := (r.moveLeft p.x).moveTop p.y

/-- Move the rectangle so that its middle is the point. -/
def moveCenter (r : QRect) (p : QPoint) : QRect :=
  {x1 := p.x-(r.x2-r.x1).tdiv 2, y1 := p.y-(r.y2-r.y1).tdiv 2,
   x2 := p.x-(r.x2-r.x1).tdiv 2+(r.x2-r.x1), y2 := p.y-(r.y2-r.y1).tdiv 2+(r.y2-r.y1)}

end QRect
end KdeWorkspace.Geometry
