import Intcode.CommandLine.Arguments
import Intcode.CommandLine.Clauses
import Intcode.Control.Arcade
import Intcode.Control.HullRobot
import Intcode.Log.Journal
import Intcode.Log.Logger

namespace Intcode.CommandLine

/-!
# The commands of the toolkit

A command loads a program from a directory, runs it, and prints what came of it.  What a command
prints before it fails stays printed; the failure itself is dealt with by a clause for its kind.

* `Setting`   — the directory and the text to read
* `Pace`      — who takes turns when
* `Output`    — what a command writes, and the records it leaves
* `perform`   — carries out an order
* `callAt`, `call`   — a whole call of the toolkit, at any pace and at the fair one
-/

/-- What a command finds: a directory, and the text on its input stream. -/
structure Setting where
  directory : Program.Directory := {}
  stdin : String := ""

/-- The program in a named file. -/
def Setting.program (s : Setting) (path : String) : Except Error (List Int) :=
  (s.directory.load path).mapError .ofLoadError

/-- How far runs are followed, and the order in which those who run side by side take turns. -/
structure Pace where
  /-- A bound on the steps of an engine that runs alone. -/
  steps : Nat
  /-- The turns of the workers of a network. -/
  network : Network → Network
  /-- The turns of a controller and its engine. -/
  loop : {σ : Type} → Control.Controller σ → Control.Loop σ → Control.Loop σ

/-- The pace at which everybody gets a turn, followed for a number of steps. -/
def Pace.fair (fuel : Nat) : Pace where
  steps := fuel
  network := Network.settle fuel
  loop c := Control.Loop.run c false fuel

/-- What a command writes, and what it reports of itself. -/
structure Output where
  stdout : String := ""
  stderr : String := ""
  journal : Array Log.Record := #[]

/-- The work of a command: it writes, and may fail. -/
abbrev Work := EStateM Error Output

namespace Work

/-- Prints a line. -/
def line (text : String) : Work Unit :=
  modify fun o => { o with stdout := o.stdout ++ text ++ "\n" }

/-- Reports something. -/
def note (r : Log.Record) : Work Unit :=
  modify fun o => { o with journal := o.journal.push r }

/-- Reports several things. -/
def notes (rs : List Log.Record) : Work Unit := rs.forM note

/-- Goes on with a result, or fails. -/
def check {α : Type} (r : Except Error α) : Work α :=
  match r with
  | .ok x => pure x
  | .error e => throw e

/-- An integer in its written form. -/
def written (v : Int) : Work String := check ((Decimal.write v).mapError .overlong)

/-- Prints an integer on a line. -/
def number (v : Int) : Work Unit := do line (← written v)

/-- Loads a program. -/
def load (s : Setting) (path : String) : Work (List Int) := do
  let cells ← check (s.program path)
  note (Log.loaded cells path)
  return cells

end Work

open Work

/-! ### `run` -/

/-- The integer a text stands for. -/
def readInteger (text : String) : Except Error Int :=
  match Numeral.lenient text with
  | .ok v => .ok v
  | .error .malformed => .error (.notAnInteger text)
  | .error (.overlong digits) => .error (.overlong (.read digits))

/-- The memory patch in a text: an address and a value with `=` between them. -/
def readPatch (text : String) : Except Error (Int × Int) :=
  match splitValue text with
  | (_, none) => .error (.notAPatch text)
  | (address, some value) => do
    let address ← readInteger address
    let value ← readInteger value
    return (address, value)

/-- Prints the values at addresses after a run. -/
def peek (e : Engine) : List Int → Work Unit
  | [] => pure ()
  | address :: rest => do
    let shown ← written address
    let (r, e) := e.get address
    let v ← check (r.mapError .fault)
    let v ← written v
    line s!"[{shown}] = {v}"
    peek e rest

/-- What the console of an engine has written. -/
def writeConsole (c : Console) : Work Unit :=
  modify fun o =>
    { o with stdout := o.stdout ++ c.printed, stderr := o.stderr ++ c.promptText defaultPrompt }

/-- Runs a program to completion, and prints its outputs and some of its memory. -/
def run (pace : Pace) (s : Setting) (o : RunOrder) : Work Unit := do
  let cells ← load s o.path
  let patches ← check (o.patches.mapM readPatch)
  let e ← check (Batch.prepare (.cells cells) patches o.tracing (Console.ofText s.stdin))
  let b := Batch.execute pace.steps e o.inputs
  notes (Log.engineRun b.engine)
  writeConsole b.engine.console
  let b ← check b.result
  b.outputs.forM number
  peek b.engine o.peeks

/-! ### `amplify` -/

/-- The set of phases in a text: integers with commas between them.  The empty text stands for
    none. -/
def readPhases (text : String) : Except Error (List Int) := (text.splitOn ",").mapM readInteger

/-- How the amplifiers are wired. -/
def AmplifyOrder.wiring (o : AmplifyOrder) : Amplifier.Wiring :=
  if o.feedback then .ring else .chain

/-- The set of phases asked for. -/
def AmplifyOrder.phaseSet (o : AmplifyOrder) : Except Error (List Int) :=
  match o.phases with
  | none => .ok o.wiring.defaultPhases
  | some "" => .ok o.wiring.defaultPhases
  | some text => readPhases text

/-- Runs amplifiers with one ordering of phases. -/
def runOrdering (pace : Pace) (wiring : Amplifier.Wiring) (image : List Int) (phases : List Int) :
    Work Int :=
  match wiring with
  | .chain => do
    let c := Amplifier.Chain.run pace.steps image phases Amplifier.defaultSeed
    notes (c.engines.flatMap Log.engineRun)
    check c.result
  | .ring => do
    check (Amplifier.Ring.checkNames phases)
    let n := pace.network (Amplifier.Ring.start image phases Amplifier.defaultSeed)
    notes (n.workers.toList.flatMap (Log.workerLife n))
    check (Amplifier.Ring.finish n none)

/-- Finds and prints the best ordering of phases. -/
def amplify (pace : Pace) (s : Setting) (o : AmplifyOrder) : Work Unit := do
  let image ← load s o.path
  let phases ← check o.phaseSet
  match ← Amplifier.search (runOrdering pace o.wiring image) phases with
  | none => throw .emptyPhaseSet
  | some best => do
    let signal ← written best.signal
    let phases := ",".intercalate (← best.phases.mapM written)
    note (Log.bestFound o.wiring best)
    line s!"{signal} (phases {phases})"

/-! ### `paint` and `arcade` -/

/-- Runs a controller on a program, and goes on with its state. -/
def drive {σ : Type} (pace : Pace) (c : Control.Controller σ) (state : σ) (cells : List Int) :
    Work σ := do
  let o := Control.driveBy (pace.loop c) c state (.cells cells)
  match o.loop with
  | some l => notes (Log.controllerRun c l)
  | none => pure ()
  let _ ← check o.engine
  return o.state

/-- The robot before it begins. -/
def PaintOrder.robot (o : PaintOrder) : Control.HullRobot := { startColor := o.startColor }

/-- Runs the hull painting robot, and prints the number of panels painted or a picture of them. -/
def paint (pace : Pace) (s : Setting) (o : PaintOrder) : Work Unit := do
  let cells ← load s o.path
  let r ← drive pace Control.HullRobot.controller o.robot cells
  if o.startColor = 0 then line (toString r.panels.size) else r.render.forM line

/-- The arcade cabinet before the game begins. -/
def ArcadeOrder.cabinet (o : ArcadeOrder) : Control.Arcade := { play := o.play }

/-- Runs the arcade cabinet, and prints the score or the number of blocks. -/
def arcade (pace : Pace) (s : Setting) (o : ArcadeOrder) : Work Unit := do
  let cells ← load s o.path
  let a ← drive pace Control.Arcade.controller o.cabinet cells
  if o.showScreen then
    let rows ← check a.render
    rows.forM line
  number (if o.play then a.score else (a.blocks : Int))

/-! ### `nounverb` -/

/-- Whether the run of a pair leaves the value wanted. -/
def tryPair (pace : Pace) (image : List Int) (target noun verb : Int) : Work Bool := do
  let b ← check (NounVerb.attempt pace.steps image noun verb)
  notes (Log.engineRun b.engine)
  check (NounVerb.leaves b target)

/-- Finds and prints the noun and verb that leave a value. -/
def nounVerb (pace : Pace) (s : Setting) (o : NounVerbOrder) : Work Unit := do
  let image ← load s o.path
  let range := NounVerb.defaultRange
  let found ← NounVerb.find (tryPair pace image o.target) range range
  if let some (noun, verb) := found then note (Log.pairFound o.target noun verb)
  let answer ← check (NounVerb.result o.target found)
  number answer

/-! ### Calls -/

/-- The name of the command an order is for. -/
def Order.command : Order → String
  | .run _ => "run"
  | .amplify _ => "amplify"
  | .paint _ => "paint"
  | .arcade _ => "arcade"
  | .nounVerb _ => "nounverb"

/-- Carries out an order. -/
def perform (pace : Pace) (s : Setting) : Order → Work Unit
  | .run o => run pace s o
  | .amplify o => amplify pace s o
  | .paint o => paint pace s o
  | .arcade o => arcade pace s o
  | .nounVerb o => nounVerb pace s o

/-- What a call of the toolkit leaves behind. -/
structure Result where
  exit : Nat
  stdout : String := ""
  stderr : String := ""
  /-- The logger, if the call got so far as to have one. -/
  logger : Option Log.Logger := none

/-- The least level shown on the console. -/
def consoleLevel (verbosity : Nat) : Int :=
  match verbosity with
  | 0 => Log.warning
  | 1 => Log.info
  | _ => Log.debug

/-- The logger of a request. -/
def loggerOf (r : Request) : Log.Logger :=
  Log.Logger.configure { name := "intcode_vm" }
    { consoleLevel := consoleLevel r.verbosity, file := r.logFile }

/-- The record left by an error that nobody expects. -/
def unhandled (o : Order) : Log.Record :=
  { level := Log.error, source := "intcode_vm.cli", text := s!"Unhandled error in {o.command}" }

/-- Carries out a request.  An error for which there is no clause escapes. -/
def carryOut (pace : Pace) (s : Setting) (r : Request) : Except Error Result :=
  let logger := loggerOf r
  match (perform pace s r.order).run {} with
  | .ok _ o =>
    .ok { exit := 0, stdout := o.stdout, stderr := o.stderr,
          logger := logger.emitAll o.journal.toList }
  | .error e o =>
    match clauseFor? e with
    | none => .error e
    | some clause =>
      let logger := logger.emitAll o.journal.toList
      .ok { exit := clause.exit, stdout := o.stdout, stderr := o.stderr ++ clause.message e
            logger := if clause.isRecorded then logger.emit (unhandled r.order) else logger }

/-- How to use the toolkit. -/
def usage : String :=
  "usage: " ++ toolName ++ " [-h] [--version] [-v] [--log-file LOG_FILE] command ...\n"

/-- The result of a command line that is not carried out. -/
def Stop.result : Stop → Result
  | .help => { exit := 0, stdout := usage }
  | .version => { exit := 0, stdout := s!"{toolName} {toolVersion}\n" }
  | .refused program message => { exit := 2, stderr := s!"{program}: error: {message}\n" }

/-- A whole call of the toolkit, or the error that escapes from it. -/
def callAt (pace : Pace) (s : Setting) (args : List String) : Except Error Result :=
  match interpret args with
  | .ok r => carryOut pace s r
  | .error stop => .ok stop.result

/-- A whole call of the toolkit at the fair pace. -/
def call (fuel : Nat) (s : Setting) (args : List String) : Result :=
  match callAt (.fair fuel) s args with
  | .ok result => result
  | .error e => { exit := 1, stderr := s!"{e.message}\n" }

end Intcode.CommandLine
