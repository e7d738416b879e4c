import Std.Data.TreeMap

namespace Intcode.Control

/-!
# Grids

A grid gives values to points of the plane; the last value given to a point counts.  The points with
a value are kept in order, by `x` and then by `y`.

* `Point`       — the points, and their order
* `Grid.put`    — gives a value to a point
* `Grid.get?`   — the value of a point
* `Grid.bounds?`  — the corners of the least rectangle around the points with a value
-/

/-- A point of the plane. -/
structure Point where
  x : Int
  y : Int
  deriving Repr, DecidableEq

/-- The point both of whose coordinates are zero. -/
def Point.origin : Point := ⟨0, 0⟩

/-- Points in order, by `x` and then by `y`. -/
def Point.order (p q : Point) : Ordering := (compare p.x q.x).then (compare p.y q.y)

/-- Values at points. -/
structure Grid where
  cells : Std.TreeMap Point Int Point.order := ∅

namespace Grid

/-- Gives a value to a point. -/
def put (g : Grid) (p : Point) (v : Int) : Grid := ⟨g.cells.insert p v⟩

/-- The value of a point, if it has been given one. -/
def get? (g : Grid) (p : Point) : Option Int := g.cells.get? p

/-- The points that have been given a value, in order, with their values. -/
def entries (g : Grid) : List (Point × Int) := g.cells.toList

/-- The points that have been given a value, in order. -/
def points (g : Grid) : List Point := g.entries.map Prod.fst

/-- The number of points with a value. -/
def size (g : Grid) : Nat := g.cells.size

/-- The lower left and the upper right corner of the least rectangle that holds two others, each
    given by its corners. -/
def join (a b : Point × Point) : Point × Point :=
  (⟨min a.1.x b.1.x, min a.1.y b.1.y⟩, ⟨max a.2.x b.2.x, max a.2.y b.2.y⟩)

/-- The lower left and the upper right corner of the least rectangle that holds all points of a list
    with a first member. -/
def boundsOf (p : Point) (ps : List Point) : Point × Point :=
  ps.foldl (fun b q => join b (q, q)) (p, p)

/-- The lower left and the upper right corner of the least rectangle that holds all points with a
    value. -/
def bounds? (g : Grid) : Option (Point × Point) :=
  match g.points with
  | [] => none
  | p :: ps => some (boundsOf p ps)

end Grid

end Intcode.Control
