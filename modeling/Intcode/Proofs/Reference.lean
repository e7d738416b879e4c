import Intcode.Engine.Step
import Mathlib.Logic.Function.Basic

namespace Intcode

/-!
# The reference machine

The Intcode machine as its definition has it: a value for every cell, a program counter and a
relative base.  Parameter `k` of an instruction has its word `k` cells behind the opcode word, and
an instruction has one effect, which takes place after all its parameters have been resolved.  What
is no address stops it, and is named unless it has too many digits to be written.

* `Config`                — the values of all cells, with the registers
* `Reference.operand`     — a parameter as a value
* `Reference.destination` — a parameter as a cell to store in
* `Reference.effect`      — what a decoded instruction does
* `Reference.step`        — the instruction at the program counter
* `Outcome`               — what is left after a step, and what it has exchanged
-/

/-- The values of all cells, with the registers. -/
@[ext] structure Config where
  cells : Nat → Int
  pc : Int
  base : Int

/-- The machine seen as a total map with registers. -/
def Machine.config (m : Machine) : Config := ⟨m.memory.lookup, m.pc, m.base⟩

/-- Why an instruction stops, and how many of its words have been consumed by then. -/
structure Stop where
  words : Nat
  cause : Fault
  deriving DecidableEq

/-- What an instruction changes once its parameters are resolved. -/
inductive Change where
  | nothing
  /-- A cell takes a value. -/
  | assign (cell : Nat) (v : Int)
  /-- The program goes on elsewhere. -/
  | goto (pc : Int)
  /-- The relative base takes a value. -/
  | rebase (base : Int)
  deriving DecidableEq

/-- What an instruction does once its parameters are resolved. -/
inductive Effect where
  | change (ch : Change)
  /-- A value is emitted. -/
  | emit (v : Int)
  | halt
  deriving DecidableEq

/-- The configuration with the program counter moved on. -/
def Config.after (c : Config) (words : Nat) : Config := { c with pc := c.pc + words }

/-- Before any word has been consumed. -/
theorem Config.after_zero (c : Config) : c.after 0 = c := by
  unfold Config.after
  rw [show c.pc + ((0 : Nat) : Int) = c.pc from Int.add_zero _]

/-- The configuration after a change by an instruction of so many words. -/
def Change.apply (c : Config) (words : Nat) : Change → Config
  | .nothing => c.after words
  | .assign cell v => { c.after words with cells := Function.update c.cells cell v }
  | .goto pc => { c with pc }
  | .rebase base => { c.after words with base }

/-- The change an effect makes. -/
def Effect.toChange : Effect → Change
  | .change ch => ch
  | _ => .nothing

/-- The status after an effect. -/
def Effect.status : Effect → Status
  | .halt => .halted
  | _ => .running

/-- The value an effect emits. -/
def Effect.emitted : Effect → Option Int
  | .emit v => some v
  | _ => none

namespace Reference

/-! ### Parameters -/

/-- The cell an integer addresses; `words` have been consumed when it is looked up. -/
def cell (words : Nat) (v : Int) : Except Stop Nat :=
  if 0 ≤ v ∧ v ≤ maxAddress then .ok v.toNat
  else if Decimal.digitCount v ≤ digitLimit then .error ⟨words, .outOfBounds (.int v)⟩
  else .error ⟨words, .overlong .written⟩

/-- Word `k` of the instruction; word zero is its opcode word. -/
def word (c : Config) (k : Nat) : Except Stop Int := (cell k (c.pc + k)).map c.cells

/-- The cell that parameter `k` points to, counted from `origin`. -/
def target (c : Config) (k : Nat) (origin : Int) : Except Stop Nat := do
  let w ← word c k
  cell (k + 1) (origin + w)

/-- Parameter `k` as a value. -/
def operand (c : Config) (k : Nat) (digit : Int) : Except Stop Int :=
  match Mode.ofDigit? digit with
  | some .position => (target c k 0).map c.cells
  | some .immediate => word c k
  | some .relative => (target c k c.base).map c.cells
  | none => .error ⟨k, .unrecognizedMode digit⟩

/-- Parameter `k` as a cell to store in. -/
def destination (c : Config) (k : Nat) (digit : Int) : Except Stop Nat :=
  match Mode.ofDigit? digit with
  | some .position => target c k 0
  | some .relative => target c k c.base
  | _ => .error ⟨k, .unrecognizedMode digit⟩

/-! ### Instructions -/

/-- The third parameter takes the result of an operation on the first two. -/
def combine (c : Config) (i : Instruction) (f : Int → Int → Int) : Except Stop Change := do
  let x ← operand c 1 i.mode1
  let y ← operand c 2 i.mode2
  let d ← destination c 3 i.mode3
  return .assign d (f x y)

/-- The program goes on at the second parameter if the first satisfies a condition. -/
def branch (c : Config) (i : Instruction) (taken : Int → Bool) : Except Stop Change := do
  let x ← operand c 1 i.mode1
  let pc ← operand c 2 i.mode2
  if taken x then return .goto (← cell 3 pc) else return .nothing

/-- What an instruction changes without an exchange. -/
def change (c : Config) (i : Instruction) : Except Stop Change :=
  match i.opcode with
  | .add => combine c i (· + ·)
  | .multiply => combine c i (· * ·)
  | .lessThan => combine c i fun x y => if x < y then 1 else 0
  | .equal => combine c i fun x y => if x = y then 1 else 0
  | .jumpIfTrue => branch c i (· != 0)
  | .jumpIfFalse => branch c i (· == 0)
  | .adjustBase => do
    let offset ← operand c 1 i.mode1
    return .rebase (← cell 2 (c.base + offset))
  | _ => return .nothing

/-- What a decoded instruction does, if `next` is the next input value and `listening` tells whether
    somebody takes the output. -/
def effect (c : Config) (next : Option Int) (listening : Bool) (i : Instruction) :
    Except Stop Effect :=
  match i.opcode with
  | .input =>
    match next with
    | none => .error ⟨1, .inputClosed⟩
    | some v => do
      let d ← destination c 1 i.mode1
      return .change (.assign d v)
  | .output => do
    let v ← operand c 1 i.mode1
    if listening then return .emit v else .error ⟨2, .outputClosed⟩
  | .halt => return .halt
  | _ => (change c i).map .change

/-- The instruction at the program counter.  No word counts as consumed before it is decoded. -/
def fetch (c : Config) : Except Stop Instruction := do
  match decodeWord (← word c 0) with
  | .ok i => .ok i
  | .error cause => .error ⟨0, cause⟩

end Reference

/-! ### Outcomes -/

/-- What is left after a step, and what it has exchanged. -/
structure Outcome where
  config : Config
  status : Status
  /-- The number of instructions completed. -/
  steps : Nat
  /-- An input value has been taken. -/
  taken : Bool
  /-- The value emitted. -/
  emitted : Option Int

namespace Reference

/-- An instruction asks for an input value before anything else can stop it. -/
def takes (i : Instruction) (next : Option Int) : Bool := i.opcode == .input && next.isSome

/-- What is left when an instruction stops. -/
def stopped (c : Config) (taken : Bool) (s : Stop) : Outcome :=
  ⟨c.after s.words, .faulted s.cause c.pc, 0, taken, none⟩

/-- What is left after an effect of an instruction. -/
def completed (c : Config) (taken : Bool) (i : Instruction) (eff : Effect) : Outcome :=
  ⟨eff.toChange.apply c (1 + i.opcode.arity), eff.status, 1, taken, eff.emitted⟩

/-- What is left after an instruction has had its effect or stopped. -/
def concluded (c : Config) (next : Option Int) (listening : Bool) (i : Instruction) : Outcome :=
  match effect c next listening i with
  | .error s => stopped c (takes i next) s
  | .ok eff => completed c (takes i next) i eff

/-- One step of the reference machine. -/
def step (c : Config) (next : Option Int) (listening : Bool) : Outcome :=
  match fetch c with
  | .error s => stopped c false s
  | .ok i => concluded c next listening i

end Reference

end Intcode
