import Intcode.Memory.Basic
import Intcode.Instruction

namespace Intcode

/-!
# The machine

The machine is a memory with three registers: the program counter `pc`, the relative base, and the
number of instructions completed.  What it does between two inputs or outputs is an `Exec` action:
a change of the machine that may stop at a fault, and then leaves the machine as far as it had got.

* `Exec.load`     — the value at an address
* `Exec.fetch`    — the word at the program counter, which moves on
* `Exec.operand`  — a parameter as a value
* `Exec.store`    — a parameter as a destination
* `Exec.decode`   — the next instruction
-/

/-- A memory with registers. -/
structure Machine where
  memory : Memory := .ofList []
  /-- The address of the next word to fetch. -/
  pc : Int := 0
  /-- The relative base, from which relative parameters count. -/
  base : Int := 0
  /-- The number of instructions completed. -/
  steps : Nat := 0

/-- A change of the machine that may stop at a fault. -/
abbrev Exec := EStateM Fault Machine

/-- The machine that holds a program. -/
def Machine.ofCells (cells : List Int) : Machine := { memory := .ofList cells }

/-- The registers in their written form. -/
def Machine.renderRegisters (m : Machine) : String :=
  s!"PC={Decimal.zeroPadded 6 m.pc} RB={Decimal.zeroPadded 6 m.base} N={m.steps}"

namespace Exec

/-- The address an integer denotes. -/
def address (v : Int) : Exec Address :=
  match Address.ofInt? v with
  | some a => pure a
  | none => throw (Offer.int v).refusal

/-- The value at an address given by an integer. -/
def load (v : Int) : Exec Int := do
  let a ← address v
  modifyGet fun ⟨memory, pc, base, steps⟩ =>
    let (x, memory) := memory.read a
    (x, ⟨memory, pc, base, steps⟩)

/-- Stores `x` at an address given by an integer. -/
def save (v x : Int) : Exec Unit := do
  let a ← address v
  modify fun ⟨memory, pc, base, steps⟩ => ⟨memory.write a x, pc, base, steps⟩

/-- Moves the program counter. -/
def jump (pc : Int) : Exec Unit := modify fun m => { m with pc }

/-- The word at the program counter, which moves on to the next. -/
def fetch : Exec Int := do
  let pc := (← get).pc
  let word ← load pc
  jump (pc + 1)
  return word

/-- The next parameter as a value.  An unknown mode is refused before the parameter is fetched. -/
def operand (digit : Int) : Exec Int :=
  match Mode.ofDigit? digit with
  | some .position => do load (← fetch)
  | some .immediate => fetch
  | some .relative => do
    let offset ← fetch
    load ((← get).base + offset)
  | none => throw (.unrecognizedMode digit)

/-- Stores `x` where the next parameter points.  There is no storing in an immediate value. -/
def store (digit x : Int) : Exec Unit :=
  match Mode.ofDigit? digit with
  | some .position => do save (← fetch) x
  | some .relative => do
    let offset ← fetch
    save ((← get).base + offset) x
  | _ => throw (.unrecognizedMode digit)

/-- Fetches and decodes an instruction; the program counter stays at a word that does not decode. -/
def decode : Exec Instruction := do
  let pc := (← get).pc
  let word ← load pc
  match decodeWord word with
  | .ok i =>
    jump (pc + 1)
    return i
  | .error f => throw f

/-- Counts an instruction as completed. -/
def complete : Exec Unit := modify fun m => { m with steps := m.steps + 1 }

end Exec

end Intcode
