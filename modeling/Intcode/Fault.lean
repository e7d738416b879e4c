import Intcode.Address
import Intcode.Text.Quoted

namespace Intcode

/-!
# Faults

A fault is what stops a program for good.  Each constructor of `Fault` is a cause; `Fault.message`
is its wording.  Two faults tell of a hang-up by the other side of a channel (`Fault.isHangUp`):
a topology may expect them as the normal end of an engine.

What is no address is refused by a fault that quotes it, so the refusal of an integer with too many
digits is itself refused (`Offer.refusal`).
-/

/-- The four digits of an instruction word: the opcode and the modes of three parameters. -/
structure Digits where
  opcode : Int
  mode1 : Int
  mode2 : Int
  mode3 : Int
  deriving Repr, DecidableEq

/-- Why a line typed in gave no value. -/
inductive ConsoleFault where
  /-- There is no further line. -/
  | endOfInput
  /-- The line, without the blanks around it, is no integer. -/
  | notAnInteger (line : String)
  /-- The stream had been closed. -/
  | streamClosed
  deriving Repr, DecidableEq

/-- Why a program stopped without halting. -/
inductive Fault where
  | outOfBounds (place : Offer)
  | unrecognizedOpcode (digits : Digits)
  | unrecognizedMode (mode : Int)
  /-- A value could not be read from the console. -/
  | console (cause : ConsoleFault)
  /-- Every sender of the input channel has hung up. -/
  | inputClosed
  /-- The receiver of the output channel has hung up. -/
  | outputClosed
  /-- An integer was to be converted from or to text, and has too many digits. -/
  | overlong (cause : Overlong)
  deriving Repr, DecidableEq

/-- The fault that refuses a value offered as an address. -/
def Offer.refusal (place : Offer) : Fault :=
  match place with
  | .int v => if Decimal.isWritable v then .outOfBounds place else .overlong .written
  | _ => .outOfBounds place

/-- The wording of a failure to read a value from the console. -/
def ConsoleFault.message : ConsoleFault → String
  | .endOfInput => "end of input"
  | .notAnInteger line => s!"{Quoted.render line} is not an integer"
  | .streamClosed => "I/O operation on closed file"

/-- The wording of a fault. -/
def Fault.message : Fault → String
  | .outOfBounds place => s!"Attempted to access out of bounds memory {place.render}"
  | .unrecognizedOpcode d =>
    s!"Unrecognized opcode {Decimal.ofInt d.opcode}, with parameter modes " ++
      s!"{Decimal.ofInt d.mode1}, {Decimal.ofInt d.mode2}, {Decimal.ofInt d.mode3}"
  | .unrecognizedMode mode => s!"Unrecognized parameter mode {Decimal.ofInt mode}"
  | .console cause => s!"Error reading input: {cause.message}"
  | .inputClosed => "Error reading input: input channel closed"
  | .outputClosed => "Error writing output: output channel closed"
  | .overlong cause => cause.message

/-- A fault that tells of a hang-up by the other side of a channel. -/
def Fault.isHangUp : Fault → Bool
  | .inputClosed => true
  | .outputClosed => true
  | _ => false

end Intcode
