import Intcode.Text.Numeral
import Intcode.Text.Quoted
import Intcode.Text.Decimal

namespace Intcode.Program

/-!
# Program text

A program is written as its cells in order, integers separated by commas: the empty text, or
`intgr(,intgr)*` with `intgr = -?[0-9]+`.  One line terminator, LF or CRLF, may follow.  Nothing
else is allowed anywhere, and a deviation rejects the whole text at its first wrong character.  So
does a literal with too many digits, which is found out before what stands behind it is looked at.

* `body`   — a text without its one line terminator
* `parse`  — the cells of a program text
* `Source` — a program as it is handed over: text, or cells already read
-/

/-- Why a text is no program. -/
inductive ParseCause where
  /-- No literal starts here. -/
  | expectedInteger
  /-- A literal is followed by something else than a comma. -/
  | unexpected (c : Char)
  deriving Repr, DecidableEq

/-- Where and why a text stops being a program, with the text from there on. -/
structure ParseError where
  /-- The number of characters before the wrong one. -/
  position : Nat
  cause : ParseCause
  /-- Up to 16 characters from the wrong one on. -/
  excerpt : String
  deriving Repr, DecidableEq

/-- Why a text is not read as a program. -/
inductive Rejection where
  /-- It is none. -/
  | malformed (e : ParseError)
  /-- A literal in it has so many digits, which are too many. -/
  | overlong (digits : Nat)
  deriving Repr, DecidableEq

/-- The wording of a cause. -/
def ParseCause.message : ParseCause → String
  | .expectedInteger => "expected an integer"
  | .unexpected c => s!"unexpected character {Quoted.renderChars [c]}"

/-- The wording of a parse error. -/
def ParseError.message (e : ParseError) : String :=
  s!"Parse error at offset {e.position}: {e.cause.message}"

/-- The wording of a rejection. -/
def Rejection.message : Rejection → String
  | .malformed e => e.message
  | .overlong digits => (Overlong.read digits).message

/-- The parse error at the front of the text `rest`, which `position` characters precede. -/
def ParseError.here (position : Nat) (cause : ParseCause) (rest : List Char) : ParseError :=
  ⟨position, cause, String.ofList (rest.take 16)⟩

/-- A text without its one line terminator, if it has one. -/
def body (cs : List Char) : List Char :=
  match cs.reverse with
  | '\n' :: '\r' :: front => front.reverse
  | '\n' :: front => front.reverse
  | _ => cs

/-- Reads the literals of a non-empty body.  `done` holds the cells read so far, last first, and
    `position` counts the characters before `cs`. -/
def literals (position : Nat) (done : List Int) (cs : List Char) : Except Rejection (List Int) :=
  match _scanned : Numeral.scan? cs with
  | none => .error (.malformed (.here position .expectedInteger cs))
  | some scan =>
    if digitLimit < scan.digits then .error (.overlong scan.digits)
    else
      match _rest : scan.rest with
      | [] => .ok (scan.value :: done).reverse
      | c :: more =>
        if c = ',' then literals (position + scan.width + 1) (scan.value :: done) more
        else .error (.malformed (.here (position + scan.width) (.unexpected c) (c :: more)))
termination_by cs.length
decreasing_by
  have := Numeral.length_rest_lt_of_scan? _scanned
  simp only [_rest, List.length_cons] at this
  omega

/-- The cells of a program text given by its characters. -/
def parseChars (cs : List Char) : Except Rejection (List Int) :=
  match body cs with
  | [] => .ok []
  | b => literals 0 [] b

/-- The cells of a program text. -/
def parse (text : String) : Except Rejection (List Int) := parseChars text.toList

/-- A program as it is handed over. -/
inductive Source where
  | text (s : String)
  | cells (vs : List Int)
  deriving Repr, DecidableEq

/-- The cells of a program: a text is parsed first. -/
def Source.image : Source → Except Rejection (List Int)
  | .text s => parse s
  | .cells vs => .ok vs

end Intcode.Program
