import Intcode.Machine.Execute
import Intcode.Channel.Hub
import Intcode.Console

namespace Intcode

/-!
# Engines

An engine is a machine with an input and an output.  Each of the two is an end of a channel if one
is bound, and the console otherwise.  Ends can be bound until the first instruction is attempted;
after that they can only be taken away, which leaves the console.

An engine runs until it halts or a fault stops it; both are final.  An input instruction on an
empty open channel suspends the engine in the middle of the instruction: the program counter has
passed the instruction word, and the engine holds a `Request` until a value or the end of the
stream arrives.

* `Engine`             — the state
* `Status`             — running, halted, or stopped by a fault
* `Engine.bindInput`, `Engine.takeInput`, `Engine.cloneOutput`, `Engine.close` — the two ends
* `Engine.get`, `Engine.set` — memory, seen from outside
-/

/-- Whether an engine runs, and what stopped it. -/
inductive Status where
  | running
  | halted
  /-- Stopped by a fault of the instruction at address `origin`. -/
  | faulted (cause : Fault) (origin : Int)
  deriving Repr, DecidableEq

/-- The name of a status. -/
def Status.name : Status → String
  | .running => "RUNNING"
  | .halted => "HALTED"
  | .faulted _ _ => "FAULTED"

/-- An input instruction that waits for its value. -/
structure Request where
  /-- The mode of its parameter. -/
  mode : Int
  /-- The end it waits at. -/
  receiver : ReceiverRef
  /-- The address of the instruction. -/
  origin : Int
  deriving Repr, DecidableEq

/-- A machine with an input and an output. -/
structure Engine where
  machine : Machine := {}
  status : Status := .running
  /-- Whether an instruction has been attempted. -/
  started : Bool := false
  /-- The input instruction the engine is suspended in. -/
  request : Option Request := none
  /-- The bound input, if it is not the console. -/
  input : Option ReceiverRef := none
  /-- The bound output, if it is not the console. -/
  output : Option SenderRef := none
  console : Console := {}
  /-- Whether decoded instructions are recorded. -/
  tracing : Bool := false
  /-- The lines recorded. -/
  trace : Array String := #[]

/-- Why an end was not bound. -/
inductive BindingError where
  | inputAfterStart
  | outputAfterStart
  deriving Repr, DecidableEq

/-- The wording of a refused binding. -/
def BindingError.message : BindingError → String
  | .inputAfterStart => "cannot bind input after execution has started"
  | .outputAfterStart => "cannot bind output after execution has started"

namespace Engine

/-- The engine that holds a program. -/
def ofCells (cells : List Int) (tracing : Bool) (console : Console) : Engine :=
  { machine := .ofCells cells, tracing, console }

/-- The engine can still act. -/
def isRunning (e : Engine) : Bool := e.status == .running

/-- The fault that stopped the engine. -/
def fault? (e : Engine) : Option Fault :=
  match e.status with
  | .faulted cause _ => some cause
  | _ => none

/-- What whoever steps the engine learns: its status, or the fault that stopped it. -/
def verdict (e : Engine) : Except Fault Status :=
  match e.status with
  | .faulted cause _ => .error cause
  | s => .ok s

/-- A line that tells the status and the registers. -/
def render (e : Engine) : String :=
  s!"IntcodeEmulator({e.status.name}, {e.machine.renderRegisters})"

/-! ### Memory, seen from outside -/

/-- Lets the machine act.  A fault of the action is an answer and does not stop the engine. -/
def act {α : Type} (e : Engine) (action : Exec α) : Except Fault α × Engine :=
  let ⟨machine, status, started, request, input, output, console, tracing, trace⟩ := e
  match action.run machine with
  | .ok x machine =>
    (.ok x, ⟨machine, status, started, request, input, output, console, tracing, trace⟩)
  | .error f machine =>
    (.error f, ⟨machine, status, started, request, input, output, console, tracing, trace⟩)

/-- The value at an address. -/
def get (e : Engine) (address : Int) : Except Fault Int × Engine := e.act (Exec.load address)

/-- Stores a value at an address. -/
def set (e : Engine) (address v : Int) : Except Fault Unit × Engine := e.act (Exec.save address v)

/-- Stores values at addresses one by one. -/
def patch (e : Engine) : List (Int × Int) → Except Fault Engine
  | [] => .ok e
  | (address, v) :: rest =>
    match e.set address v with
    | (.ok _, e) => e.patch rest
    | (.error f, _) => .error f

/-! ### The two ends -/

/-- Binds the input to a channel. -/
def bindInput (e : Engine) (rx : ReceiverRef) : Except BindingError Engine :=
  if e.started then .error .inputAfterStart else .ok { e with input := some rx }

/-- Binds the output to a channel. -/
def bindOutput (e : Engine) (tx : SenderRef) : Except BindingError Engine :=
  if e.started then .error .outputAfterStart else .ok { e with output := some tx }

/-- The engine with both ends bound, before it has started. -/
def wired (e : Engine) (rx : ReceiverRef) (tx : SenderRef) : Engine :=
  { e with input := some rx, output := some tx }

/-- Takes the input end away, which leaves the console. -/
def takeInput (e : Engine) : Option ReceiverRef × Engine := (e.input, { e with input := none })

/-- Takes the output end away, which leaves the console. -/
def takeOutput (e : Engine) : Option SenderRef × Engine := (e.output, { e with output := none })

/-- Makes another sending end for the bound output, if there is one. -/
def cloneOutput (e : Engine) (h : Hub) : Except ChannelError (Option (SenderRef × Hub)) :=
  match e.output with
  | none => .ok none
  | some tx => (h.clone tx).map some

/-- Closes the ends the engine holds.  It goes on holding them. -/
def close (e : Engine) (h : Hub) : Hub :=
  let h := match e.input with
    | some rx => h.closeReceiver rx
    | none => h
  match e.output with
  | some tx => h.closeSender tx
  | none => h

end Engine

end Intcode
