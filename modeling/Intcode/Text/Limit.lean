namespace Intcode

/-!
# The limit on digits

Integers are unbounded, but only so many digits of one are converted from or to text.  A longer one
is neither written nor read; whoever tries to is refused.

* `digitLimit`  — the most digits that are converted
* `Overlong`    — a refused conversion
-/

/-- The most digits of an integer that are converted from or to text. -/
def digitLimit : Nat := 4300

/-- A refused conversion. -/
inductive Overlong where
  /-- An integer was to be written. -/
  | written
  /-- A numeral with so many digits was to be read. -/
  | read (digits : Nat)
  deriving Repr, DecidableEq

/-- The wording of a refused conversion. -/
def Overlong.message (e : Overlong) : String :=
  let detail := match e with
    | .written => ""
    | .read digits => s!": value has {digits} digits"
  s!"Exceeds the limit ({digitLimit} digits) for integer string conversion{detail}; " ++
    "use sys.set_int_max_str_digits() to increase the limit"

end Intcode
