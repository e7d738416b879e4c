import Intcode.Log.Record
import Intcode.Amplifier.Best
import Intcode.Batch.Search
import Intcode.Control.Loop

namespace Intcode.Log

/-!
# Journals

What the activities of the library report about themselves, in order: the loading of a program,
the run of an engine, the life of a worker, and the result of a search or of a controller.

A hang-up is reported as a detail, since only its observer can tell whether it is a fault; any other
fault is a warning.
-/

/-- The file a program was loaded from. -/
def loaded (cells : List Int) (path : String) : Record :=
  { level := info, source := "intcode_vm.loader"
    text := s!"Loaded {cells.length} cells from {path}" }

/-- A report about an engine. -/
def ofEngine (level : Int) (text : String) : Record := { level, source := "intcode_vm.emu", text }

/-- How the run of an engine ended. -/
def ending (e : Engine) : List Record :=
  match e.status with
  | .running => []
  | .halted => [ofEngine debug s!"Halted after {e.machine.steps} steps"]
  | .faulted cause origin =>
    [ofEngine (if cause.isHangUp then debug else warning) <|
      s!"Fault at {Decimal.zeroPadded 6 origin} after {e.machine.steps} steps: {cause.message}"]

/-- The run of an engine: the instructions recorded, and its end. -/
def engineRun (e : Engine) : List Record := e.trace.toList.map (ofEngine debug) ++ ending e

/-- A report about a worker. -/
def ofWorker (text : String) : Record :=
  { level := debug, source := "intcode_vm.harness.workers", text }

/-- The life of a worker with its engine. -/
def workerLife (n : Network) (w : Worker) : List Record :=
  let e := n.engine w.engine
  let fault := match n.failure? w with
    | some f => s!" ({f.message})"
    | none => ""
  ofWorker s!"{w.name}: started" :: engineRun e ++
    if w.isAlive then []
    else
      [ofWorker <|
        s!"{w.name}: finished {e.status.name} after {e.machine.steps} steps" ++ fault]

/-- The report of a worker joined after a hang-up that was expected. -/
def expectedShutdown (n : Network) (w : Worker) : List Record :=
  match n.failure? w with
  | some f => [ofWorker s!"{w.name}: expected shutdown: {f.message}"]
  | none => []

/-- The run of a controller. -/
def controllerRun {σ : Type} (c : Control.Controller σ) (l : Control.Loop σ) : List Record :=
  let n := l.network
  let lives := n.workers.toList.flatMap (workerLife n)
  match l.result with
  | .error _ => lives
  | .ok _ =>
    lives ++ n.workers.toList.flatMap (expectedShutdown n) ++
      [{ level := info, source := "intcode_vm.harness.controller"
         text := s!"{c.name}: {l.rounds} steps, engine {l.engine.status.name}" }]

/-- The pair a noun and verb search found. -/
def pairFound (target noun verb : Int) : Record :=
  { level := info, source := "intcode_vm.harness.batch"
    text := s!"noun={Decimal.ofInt noun} verb={Decimal.ofInt verb} gives {Decimal.ofInt target}" }

/-- A list of numbers in parentheses; a single one is followed by a comma. -/
def renderTuple : List Int → String
  | [v] => s!"({Decimal.ofInt v},)"
  | vs => "(" ++ ", ".intercalate (vs.map Decimal.ofInt) ++ ")"

/-- The best ordering of phases. -/
def bestFound (wiring : Amplifier.Wiring) (b : Amplifier.Best) : Record :=
  let kind := match wiring with
    | .chain => "chain"
    | .ring => "feedback"
  { level := info, source := "intcode_vm.harness.ring"
    text := s!"Max {kind} signal {Decimal.ofInt b.signal} from phases {renderTuple b.phases}" }

end Intcode.Log
