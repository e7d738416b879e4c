import Intcode.Fault
import Intcode.Text.Numeral
import Intcode.Text.Blank
import Intcode.Text.Decimal

namespace Intcode

/-!
# The console

An engine without channels asks for its inputs line by line and prints its outputs line by line.
Each request writes a prompt first and then consumes exactly one line, whatever the line holds.
Lines end at the line feed only; the last one may lack it.

Values pass the console as text, so those with too many digits do not pass it.

* `takeLine`          — the first line of a text, and what follows it
* `lineValue`         — the integer on a line
* `Console.read`      — one request
* `Console.print`     — one output
* `Console.printed`   — everything printed so far
-/

/-- What is left to read, and what has been written. -/
structure Console where
  /-- The text not read yet. -/
  unread : List Char := []
  /-- Whether the input stream had been closed beforehand. -/
  closed : Bool := false
  /-- The number of prompts written. -/
  prompts : Nat := 0
  /-- The values printed, the last one first. -/
  outputs : List Int := []
  deriving Repr, DecidableEq

/-- The text that asks for a value. -/
def defaultPrompt : String := "> "

/-- The console with a text to read. -/
def Console.ofText (text : String) : Console := { unread := text.toList }

/-- The first line of a text without its line feed, and what follows it. -/
def takeLine (cs : List Char) : List Char × List Char :=
  (cs.takeWhile (· != '\n'), (cs.dropWhile (· != '\n')).drop 1)

/-- The integer on a line, blanks around it left aside. -/
def lineValue (line : List Char) : Except Fault Int :=
  let text := trim line
  match Numeral.ofChars? text with
  | some scan =>
    if digitLimit < scan.digits then .error (.overlong (.read scan.digits)) else .ok scan.value
  | none => .error (.console (.notAnInteger (String.ofList text)))

namespace Console

/-- Asks for a value: writes the prompt, then reads one line. -/
def read (c : Console) : Except Fault Int × Console :=
  let c := { c with prompts := c.prompts + 1 }
  if c.closed then (.error (.console .streamClosed), c)
  else
    match c.unread with
    | [] => (.error (.console .endOfInput), c)
    | text =>
      let (line, rest) := takeLine text
      (lineValue line, { c with unread := rest })

/-- Asks for `n` values in turn, going on after a failure. -/
def readMany (c : Console) : Nat → List (Except Fault Int) × Console
  | 0 => ([], c)
  | n + 1 =>
    let (r, c) := c.read
    let (rs, c) := c.readMany n
    (r :: rs, c)

/-- Prints a value on a line of its own. -/
def print (c : Console) (v : Int) : Except Fault Console :=
  if Decimal.isWritable v then .ok { c with outputs := v :: c.outputs }
  else .error (.overlong .written)

/-- Everything printed so far. -/
def printed (c : Console) : String :=
  String.join (c.outputs.reverse.map fun v => Decimal.ofInt v ++ "\n")

/-- The prompts written so far, each with the given text. -/
def promptText (c : Console) (prompt : String) : String :=
  String.join (List.replicate c.prompts prompt)

end Console

end Intcode
