import Intcode.Memory.Basic
import Intcode.Progression
import Intcode.Error

namespace Intcode

/-!
# Looking into memory

A dump writes a range of flat cells in rows of a given width.  Each row is labelled by the number of
its first cell, with at least six characters, and every cell is aligned right in eight.  A cell with
too many digits to be written leaves no dump at all.

A bound below zero counts from the end of the flat cells, and stops at their start.

* `Memory.extent` — the length as an index
* `cellsBetween`  — the flat cells between two bounds
* `dumpRow`       — one row
* `Memory.dump`   — the text
-/

/-- A bound as a number of cells from the start of `size` many: a negative one counts from the
    end. -/
def boundIn (size : Nat) (bound : Int) : Nat :=
  if bound < 0 then (bound + size).toNat else min bound.toNat size

/-- The cells between two bounds, without the upper one. -/
def cellsBetween (flat : Array Int) (lower upper : Int) : List Int :=
  (flat.extract (boundIn flat.size lower) (boundIn flat.size upper)).toList

/-- One row: its label and its cells. -/
def dumpRow (label : Int) (cells : List Int) : Except Overlong String := do
  let label ← Decimal.within label (Decimal.zeroPadded 6 label)
  let cells ← cells.mapM Decimal.write
  return label ++ "  " ++ " ".intercalate (cells.map (Decimal.alignRight 8))

/-- The rows of a dump of `length` cells from `start` on, `width` cells in each. -/
def Memory.dumpRows (m : Memory) (start length width : Int) : Except Overlong (List String) :=
  let stop := min (start + length) m.flat.size
  (progression start stop width).mapM fun row =>
    dumpRow row (cellsBetween m.flat row (min (row + width) stop))

/-- The dump of a range of flat cells.  There is none with rows of no cells. -/
def Memory.dump (m : Memory) (start length width : Int) : Except Error String :=
  if width = 0 then .error .zeroStep
  else ((m.dumpRows start length width).map ("\n".intercalate ·)).mapError .overlong

end Intcode
