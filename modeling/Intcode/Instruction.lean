import Intcode.Fault

namespace Intcode

/-!
# Instruction words

An instruction word packs an opcode and the modes of up to three parameters into one integer.  Of
its decimal digits the last two are the opcode, and the three before them are the modes of the
first, second and third parameter; digits further up mean nothing.  The digits carry the sign of the
word.

* `Opcode`       — the operations, with their codes, names and numbers of parameters
* `Mode`         — the ways a parameter denotes a value
* `splitWord`    — the digits of a word
* `decodeWord`   — the instruction a word stands for
* `Instruction.render` — its short written form

A mode digit that names no mode is not the decoder's business: it is refused when the parameter is
resolved.  The decoder refuses unknown opcodes, and mode digits for parameters the operation does
not have.
-/

/-! ### Operations and modes -/

/-- The operations. -/
inductive Opcode where
  /-- The third parameter becomes the sum of the first two. -/
  | add
  /-- The third parameter becomes the product of the first two. -/
  | multiply
  /-- The parameter becomes the next input value. -/
  | input
  /-- The parameter is emitted. -/
  | output
  /-- Goes on at the second parameter if the first is not zero. -/
  | jumpIfTrue
  /-- Goes on at the second parameter if the first is zero. -/
  | jumpIfFalse
  /-- The third parameter becomes one if the first is less than the second, else zero. -/
  | lessThan
  /-- The third parameter becomes one if the first two are equal, else zero. -/
  | equal
  /-- Moves the relative base by the parameter. -/
  | adjustBase
  /-- Stops. -/
  | halt
  deriving Repr, DecidableEq

/-- The number that stands for an operation. -/
def Opcode.code : Opcode → Int
  | .add => 1
  | .multiply => 2
  | .input => 3
  | .output => 4
  | .jumpIfTrue => 5
  | .jumpIfFalse => 6
  | .lessThan => 7
  | .equal => 8
  | .adjustBase => 9
  | .halt => 99

/-- The operation a number stands for. -/
def Opcode.ofCode? (code : Int) : Option Opcode :=
  match code with
  | 1 => some .add
  | 2 => some .multiply
  | 3 => some .input
  | 4 => some .output
  | 5 => some .jumpIfTrue
  | 6 => some .jumpIfFalse
  | 7 => some .lessThan
  | 8 => some .equal
  | 9 => some .adjustBase
  | 99 => some .halt
  | _ => none

/-- The short name of an operation. -/
def Opcode.mnemonic : Opcode → String
  | .add => "ADD"
  | .multiply => "MUL"
  | .input => "IN"
  | .output => "OUT"
  | .jumpIfTrue => "JT"
  | .jumpIfFalse => "JF"
  | .lessThan => "LT"
  | .equal => "EQ"
  | .adjustBase => "ARB"
  | .halt => "HALT"

/-- The number of parameters of an operation. -/
def Opcode.arity : Opcode → Nat
  | .add => 3
  | .multiply => 3
  | .input => 1
  | .output => 1
  | .jumpIfTrue => 2
  | .jumpIfFalse => 2
  | .lessThan => 3
  | .equal => 3
  | .adjustBase => 1
  | .halt => 0

/-- The ways a parameter denotes a value. -/
inductive Mode where
  /-- The parameter is an address. -/
  | position
  /-- The parameter is the value. -/
  | immediate
  /-- The parameter is an offset from the relative base. -/
  | relative
  deriving Repr, DecidableEq

/-- The mode a digit names. -/
def Mode.ofDigit? (digit : Int) : Option Mode :=
  match digit with
  | 0 => some .position
  | 1 => some .immediate
  | 2 => some .relative
  | _ => none

/-- The short name of a mode. -/
def Mode.mnemonic : Mode → String
  | .position => "POS"
  | .immediate => "IMM"
  | .relative => "REL"

/-- The written form of a mode digit: the name of its mode, or the digit itself. -/
def renderMode (digit : Int) : String :=
  match Mode.ofDigit? digit with
  | some mode => mode.mnemonic
  | none => Decimal.ofInt digit

/-! ### Decoding -/

/-- The digits of a word: quotients and remainders rounded toward zero. -/
def splitWord (word : Int) : Digits where
  opcode := word.tmod 100
  mode1 := (word.tdiv 100).tmod 10
  mode2 := (word.tdiv 1000).tmod 10
  mode3 := (word.tdiv 10000).tmod 10

/-- The mode digits, that of the first parameter first. -/
def Digits.modes (d : Digits) : List Int := [d.mode1, d.mode2, d.mode3]

/-- An operation with the mode digits of its parameters. -/
structure Instruction where
  opcode : Opcode
  mode1 : Int
  mode2 : Int
  mode3 : Int
  deriving Repr, DecidableEq

/-- The mode digits of an instruction, that of the first parameter first. -/
def Instruction.modes (i : Instruction) : List Int := [i.mode1, i.mode2, i.mode3]

/-- The digits of the least word that stands for an instruction. -/
def Instruction.digits (i : Instruction) : Digits :=
  ⟨i.opcode.code, i.mode1, i.mode2, i.mode3⟩

/-- The instruction with the given digits, if the opcode is known and every mode digit beyond its
    parameters is zero. -/
def Digits.instruction? (d : Digits) : Option Instruction :=
  match Opcode.ofCode? d.opcode with
  | none => none
  | some op =>
    if (d.modes.drop op.arity).all (· == 0) then some ⟨op, d.mode1, d.mode2, d.mode3⟩ else none

/-- The instruction a word stands for. -/
def decodeWord (word : Int) : Except Fault Instruction :=
  match (splitWord word).instruction? with
  | some i => .ok i
  | none => .error (.unrecognizedOpcode (splitWord word))

/-- The short written form: the name in four characters, then the modes of the parameters. -/
def Instruction.render (i : Instruction) : String :=
  match i.modes.take i.opcode.arity with
  | [] => i.opcode.mnemonic
  | modes => Decimal.alignLeft 4 i.opcode.mnemonic ++ " " ++ ",".intercalate (modes.map renderMode)

end Intcode
