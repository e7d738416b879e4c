import Intcode.Machine.Basic

namespace Intcode

/-!
# Executing an instruction

`Exec.execute` carries out a decoded instruction as far as the machine can alone, and tells what is
left to do: nothing, to stop, to obtain an input value, or to emit an output value.

Parameters are resolved from left to right.  An input instruction asks for its value before its
destination is looked at.
-/

/-- What is left to do for an instruction outside the machine. -/
inductive Demand where
  | nothing
  | halt
  /-- An input value is to be stored where a parameter of this mode points. -/
  | input (mode : Int)
  /-- A value is to be emitted. -/
  | output (v : Int)
  deriving Repr, DecidableEq

namespace Exec

/-- Stores the result of an operation on two operands. -/
def combine (i : Instruction) (f : Int → Int → Int) : Exec Demand := do
  let x ← operand i.mode1
  let y ← operand i.mode2
  store i.mode3 (f x y)
  return .nothing

/-- Goes on at the second parameter if the first satisfies a condition.  Only a target that is taken
    has to be an address. -/
def branch (i : Instruction) (taken : Int → Bool) : Exec Demand := do
  let x ← operand i.mode1
  let target ← operand i.mode2
  if taken x then
    let a ← address target
    jump a.toInt
  return .nothing

/-- Carries out a decoded instruction as far as the machine can alone. -/
def execute (i : Instruction) : Exec Demand :=
  match i.opcode with
  | .add => combine i (· + ·)
  | .multiply => combine i (· * ·)
  | .lessThan => combine i fun x y => if x < y then 1 else 0
  | .equal => combine i fun x y => if x = y then 1 else 0
  | .jumpIfTrue => branch i (· != 0)
  | .jumpIfFalse => branch i (· == 0)
  | .input => return .input i.mode1
  | .output => return .output (← operand i.mode1)
  | .adjustBase => do
    let offset ← operand i.mode1
    let a ← address ((← get).base + offset)
    modify fun m => { m with base := a.toInt }
    return .nothing
  | .halt => return .halt

end Exec

end Intcode
