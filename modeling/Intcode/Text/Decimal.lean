import Intcode.Text.Limit

namespace Intcode.Decimal

/-!
# Decimal text of integers

The decimal form of an integer is its decimal digits without superfluous zeros, after a minus
sign if it is negative.  Every integer has one, but only the forms of integers within the limit on
digits are ever written.  Reports align these forms in columns.

* `ofInt`       — the decimal form
* `write`       — the decimal form, if it is one that is written
* `zeroPadded`  — the decimal form filled up with zeros behind the sign
* `alignRight`  — any text filled up with blanks on the left
* `alignLeft`   — any text filled up with blanks on the right
-/

/-- The decimal form of an integer: `-` for a negative one, then its digits. -/
def ofInt : Int → String
  | .ofNat n => Nat.repr n
  | .negSucc n => "-" ++ Nat.repr (n + 1)

/-- The number of digits in the decimal form of an integer. -/
def digitCount (v : Int) : Nat := (Nat.toDigits 10 v.natAbs).length

/-- The integers that are written: those within the limit on digits. -/
def isWritable (v : Int) : Bool := digitCount v ≤ digitLimit

/-- Goes on with a written form of an integer, if that is one that is written. -/
def within {α : Type} (v : Int) (form : α) : Except Overlong α :=
  if isWritable v then .ok form else .error .written

/-- Writes an integer in its decimal form. -/
def write (v : Int) : Except Overlong String := within v (ofInt v)

/-- `n` copies of a character. -/
def filler (c : Char) (n : Nat) : String := String.ofList (List.replicate n c)

/-- Fills a text up to `width` characters with blanks on the left. -/
def alignRight (width : Nat) (s : String) : String := filler ' ' (width - s.length) ++ s

/-- Fills a text up to `width` characters with blanks on the right. -/
def alignLeft (width : Nat) (s : String) : String := s ++ filler ' ' (width - s.length)

/-- The decimal form with at least `width` characters, the sign among them; the missing ones are
    zeros between the sign and the digits. -/
def zeroPadded (width : Nat) : Int → String
  | .ofNat n =>
    let digits := Nat.repr n
    filler '0' (width - digits.length) ++ digits
  | .negSucc n =>
    let digits := Nat.repr (n + 1)
    "-" ++ filler '0' (width - 1 - digits.length) ++ digits

/-- Integers separated by commas. -/
def commaSeparated (vs : List Int) : String := ",".intercalate (vs.map ofInt)

end Intcode.Decimal
