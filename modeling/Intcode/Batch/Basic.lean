import Intcode.Engine.Step
import Intcode.Error

namespace Intcode

/-!
# Batch runs

A batch run loads a program, patches its memory and runs it to completion.  Its inputs are either
given, and then wait in a closed channel while the outputs are collected from another, or they are
typed in at the console, where the outputs are printed.

* `Batch.prepare`  — the engine, loaded and patched
* `Batch.execute`  — the run
* `Batch.run`      — both, for a run that halts
-/

/-- A run and the outputs collected from it. -/
structure Batch where
  outputs : List Int
  engine : Engine

namespace Batch

/-- The engine that holds a program with patches, applied in order. -/
def prepare (program : Program.Source) (patches : List (Int × Int)) (tracing : Bool)
    (console : Console) : Except Error Engine :=
  match program.image with
  | .error e => .error (.parse e)
  | .ok cells => ((Engine.ofCells cells tracing console).patch patches).mapError .fault

/-- The channels of a run on given inputs: the inputs in one that nobody will add to, and an empty
    one for the outputs. -/
def channels (inputs : List Int) : Hub := ⟨#[Channel.sealed inputs, {}]⟩

/-- Runs an engine on given inputs, or at its console. -/
def execute (fuel : Nat) (e : Engine) : Option (List Int) → Batch
  | none =>
    let (engine, _) := e.runFor fuel {}
    { outputs := [], engine }
  | some inputs =>
    let (engine, hub) := (e.wired ⟨0⟩ ⟨1, 0⟩).runFor fuel (channels inputs)
    { outputs := (hub.drain ⟨1⟩).1, engine }

/-- A run counts if it has halted. -/
def result (b : Batch) : Except Error Batch := b.engine.outcome.map fun _ => b

/-- Loads, patches and runs a program. -/
def run (fuel : Nat) (program : Program.Source) (inputs : Option (List Int))
    (patches : List (Int × Int)) (tracing : Bool) (console : Console) : Except Error Batch :=
  match prepare program patches tracing console with
  | .error e => .error e
  | .ok e => (execute fuel e inputs).result

end Batch

end Intcode
