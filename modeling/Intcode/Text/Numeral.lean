import Intcode.Text.Blank
import Intcode.Text.Digit
import Intcode.Text.Limit

namespace Intcode.Numeral

/-!
# Reading numerals

Two grammars of integers in text.

* The **strict** one, of program text and of values typed in: an optional minus sign and at least
  one ASCII digit, `-?[0-9]+`.  `scan?` reads a literal from the front of a text, `ofChars?` reads a
  whole text.
* The **lenient** one, of numbers on a command line: blanks around it, a plus or minus sign, digits
  of any script, and single underscores between digits are allowed (`lenient`).

Both grammars allow any number of digits.  What is converted to an integer has to be within the
limit on digits as well.
-/

/-- A literal at the front of a text: its value, its length in characters, the number of its digits,
    and what follows it. -/
structure Scan where
  value : Int
  width : Nat
  digits : Nat
  rest : List Char
  deriving Repr, DecidableEq

/-! ### The strict grammar -/

/-- The value of a run of ASCII digits. -/
def digitsValue (ds : List Char) : Nat := Nat.ofDigitChars 10 ds 0

/-- Reads the longest run of at least one ASCII digit from the front of a text. -/
def scanDigits? (cs : List Char) : Option (List Char × List Char) :=
  match cs.takeWhile Char.isDigit with
  | [] => none
  | d :: ds => some (d :: ds, cs.dropWhile Char.isDigit)

/-- Nothing is lost, and something is read. -/
theorem scanDigits?_eq_some {cs ds rest : List Char} (h : scanDigits? cs = some (ds, rest)) :
    cs = ds ++ rest ∧ ds ≠ [] := by
  unfold scanDigits? at h
  split at h
  · cases h
  · rename_i d ds' heq
    cases h
    exact ⟨by rw [← heq, List.takeWhile_append_dropWhile], by simp⟩

/-- Reads the longest literal `-?[0-9]+` from the front of a text. -/
def scan? : List Char → Option Scan
  | '-' :: cs =>
    (scanDigits? cs).map fun (ds, rest) =>
      ⟨-(digitsValue ds : Int), ds.length + 1, ds.length, rest⟩
  | cs => (scanDigits? cs).map fun (ds, rest) => ⟨digitsValue ds, ds.length, ds.length, rest⟩

/-- What follows a literal is shorter than the text it was read from. -/
theorem length_rest_lt_of_scan? {cs : List Char} {s : Scan} (h : scan? cs = some s) :
    s.rest.length < cs.length := by
  have key : ∀ {cs ds rest : List Char}, scanDigits? cs = some (ds, rest) →
      rest.length < cs.length := by
    intro cs ds rest hs
    obtain ⟨rfl, hne⟩ := scanDigits?_eq_some hs
    have := List.length_pos_iff.2 hne
    simp only [List.length_append]; omega
  unfold scan? at h
  split at h <;>
    · obtain ⟨⟨ds, rest⟩, hs, rfl⟩ := Option.map_eq_some_iff.1 h
      have := key hs
      simp only [List.length_cons] at *; omega

/-- Reads a whole text as one literal `-?[0-9]+`. -/
def ofChars? (cs : List Char) : Option Scan := (scan? cs).filter (·.rest.isEmpty)

/-! ### The lenient grammar -/

/-- Why a text is not converted to an integer. -/
inductive Illegible where
  /-- It is none. -/
  | malformed
  /-- It has too many digits. -/
  | overlong (digits : Nat)
  deriving Repr, DecidableEq

/-- The blanks that may stand around a number on a command line: the white space characters, without
    the information separators that other readers treat alike. -/
def isSurrounding (c : Char) : Bool := isBlank c && !(0x1C ≤ c.toNat && c.toNat ≤ 0x1F)

/-- The characters that a number without its sign is made of. -/
def isGrouped (c : Char) : Bool := isScriptDigit c || c == '_'

/-- The value of a run of digits of any script in which single underscores may stand between two
    digits, read on from the value `acc` of the digits before it. -/
def grouped? (acc : Nat) : List Char → Option Nat
  | [] => none
  | [c] => (digitValue? c).map (10 * acc + ·)
  | c :: '_' :: cs => (digitValue? c).bind fun d => grouped? (10 * acc + d) cs
  | c :: cs => (digitValue? c).bind fun d => grouped? (10 * acc + d) cs

/-- Reads a whole text as a number without its sign.  The digits at its front are counted before
    what follows them is looked at. -/
def magnitude (cs : List Char) : Except Illegible Nat :=
  let run := cs.takeWhile isGrouped
  match grouped? 0 run with
  | none => .error .malformed
  | some n =>
    let digits := run.countP isScriptDigit
    if digitLimit < digits then .error (.overlong digits)
    else if run.length = cs.length then .ok n
    else .error .malformed

/-- Reads a whole text as an integer in the lenient grammar. -/
def lenient (s : String) : Except Illegible Int :=
  match trimBy isSurrounding s.toList with
  | '-' :: cs => (magnitude cs).map fun n => -(n : Int)
  | '+' :: cs => (magnitude cs).map fun n => (n : Int)
  | cs => (magnitude cs).map fun n => (n : Int)

end Intcode.Numeral
