import Intcode.Control.Controller
import Intcode.Network.Join

namespace Intcode.Control

/-!
# Controller loops

A controller and an engine with its worker run side by side, joined by a channel of commands and a
channel of readings.  The controller sends its first commands and then takes readings.  It leaves
the loop when the readings end, when a command is refused because the engine has ended, or when it
has no answer.  It then hangs up both channels, so an engine that still waits for a command or
sends a reading is stopped; the controller expects that.  If it had an answer to everything, it
joins the worker.

Engine and controller take their steps in any order (`Loop.step`).  `Loop.run` lets the controller
go first, or, if it is patient, lets the engine go on as far as it can before an answer is sent.

* `Loop`           — both parties
* `Loop.start`     — the parties before the first step
* `Loop.canStep`, `Loop.step`, `Loop.follow`   — one step of a party, and the steps of a schedule
* `Loop.run`       — steps until the controller is done
* `Loop.result`    — how it ended
-/

/-- Where a controller is in its loop. -/
inductive Stage where
  /-- It has these commands to send. -/
  | sending (commands : List Int)
  /-- It takes readings; so far it has these of the next group. -/
  | reading (group : List Int)
  /-- It has a group to answer. -/
  | answering (group : List Int)
  /-- It has left the loop and hangs up the commands. -/
  | closingCommands
  /-- It hangs up the readings. -/
  | closingReadings
  /-- It waits for the worker. -/
  | joining
  | done

/-- The controller has left its loop for good. -/
def Stage.isDone : Stage → Bool
  | .done => true
  | _ => false

/-- The two parties. -/
inductive Party where
  | controller
  | engine
  deriving Repr, DecidableEq

/-- A controller and the engine it drives. -/
structure Loop (σ : Type) where
  /-- The engine, its worker and the two channels. -/
  network : Network
  state : σ
  /-- The number of groups answered. -/
  rounds : Nat := 0
  stage : Stage
  /-- Why the controller had no answer. -/
  failure : Option Error := none

namespace Loop

variable {σ : Type}

/-- The sending end of the commands. -/
def commandSender : SenderRef := ⟨0, 0⟩

/-- The receiving end of the readings. -/
def readingReceiver : ReceiverRef := ⟨1⟩

/-- The worker of an engine driven by a controller. -/
def worker (c : Controller σ) : Worker :=
  { engine := 0, name := c.name ++ "-engine", expectInput := true, expectOutput := true }

/-- The engine, patched and wired, with its worker and channels. -/
def wire (c : Controller σ) (e : Engine) : Network :=
  { hub := ⟨#[{}, {}]⟩, engines := #[e.wired ⟨0⟩ ⟨1, 0⟩], workers := #[worker c] }

/-- The parties when the controller has made up its first commands. -/
def opened (network : Network) (s : σ) : Except Error (List Int) → Loop σ
  | .ok commands => { network, state := s, stage := .sending commands }
  | .error e => { network, state := s, stage := .closingCommands, failure := some e }

/-- The parties before the first step. -/
def start (c : Controller σ) (s : σ) (program : Program.Source) : Except Error (Loop σ) :=
  match program.image with
  | .error e => .error (.parse e)
  | .ok cells =>
    match (Engine.ofCells cells false {}).patch (c.patches s) with
    | .error f => .error (.fault f)
    | .ok e => .ok (opened (wire c e) s (c.opening s))

/-- The engine. -/
def engine (l : Loop σ) : Engine := l.network.engine 0

/-- The worker has ended. -/
def engineEnded (l : Loop σ) : Bool :=
  match l.network.workers[0]? with
  | some w => !w.isAlive
  | none => true

/-- Whether a party can take a step. -/
def canStep (l : Loop σ) : Party → Bool
  | .engine => l.network.canStep 0
  | .controller =>
    match l.stage with
    | .reading _ => l.network.hub.isReady readingReceiver
    | .joining => l.engineEnded
    | .done => false
    | _ => true

/-- The controller's answer takes effect. -/
def deliver (l : Loop σ) : Except Error (List Int) → Loop σ
  | .ok commands => { l with rounds := l.rounds + 1, stage := .sending commands }
  | .error e => { l with failure := some e, stage := .closingCommands }

/-- Replaces the channels. -/
def withHub (l : Loop σ) (hub : Hub) (stage : Stage) : Loop σ :=
  { l with network := { l.network with hub }, stage }

/-- A step of the controller, given where it is. -/
def controllerStep (c : Controller σ) (l : Loop σ) : Stage → Loop σ
  | .sending [] => { l with stage := .reading [] }
  | .sending (v :: commands) =>
    match l.network.hub.send commandSender v with
    | .ok hub => l.withHub hub (.sending commands)
    | .error _ => { l with stage := .closingCommands }
  | .reading group =>
    match l.network.hub.recv readingReceiver with
    | .value v hub =>
      let group := group ++ [v]
      l.withHub hub (if group.length < c.groupSize then .reading group else .answering group)
    | .closed _ => { l with stage := .closingCommands }
    | .wait => l
  | .answering group =>
    let (answer, state) := c.answer l.state group
    { l with state }.deliver answer
  | .closingCommands => l.withHub (l.network.hub.closeSender commandSender) .closingReadings
  | .closingReadings =>
    l.withHub (l.network.hub.closeReceiver readingReceiver)
      (if l.failure.isSome then .done else .joining)
  | .joining => if l.engineEnded then { l with stage := .done } else l
  | .done => l

/-- A step of a party. -/
def step (c : Controller σ) (l : Loop σ) : Party → Loop σ
  | .controller => controllerStep c l l.stage
  | .engine =>
    let ⟨network, state, rounds, stage, failure⟩ := l
    ⟨network.step 0, state, rounds, stage, failure⟩

/-- The steps of a schedule; a party whose turn comes while it cannot step is passed over. -/
def follow (c : Controller σ) (l : Loop σ) : List Party → Loop σ
  | [] => l
  | p :: schedule => if l.canStep p then (l.step c p).follow c schedule else l.follow c schedule

/-- The controller holds an answer back as long as the engine goes on without it. -/
def holdsBack (l : Loop σ) : Bool :=
  match l.stage with
  | .sending _ => 0 < l.rounds && l.canStep .engine
  | _ => false

/-- The party whose turn it is: the controller if it can step, else the engine.  A patient
    controller leaves the turn to the engine before it sends an answer. -/
def next? (l : Loop σ) (patient : Bool) : Option Party :=
  if l.stage.isDone then none
  else if patient && l.holdsBack then some .engine
  else if l.canStep .controller then some .controller
  else if l.canStep .engine then some .engine
  else none

/-- Steps until the controller is done or neither party can step, at most `fuel` of them. -/
def run (c : Controller σ) (patient : Bool) : Nat → Loop σ → Loop σ
  | 0, l => l
  | fuel + 1, l =>
    match l.next? patient with
    | some p => run c patient fuel (l.step c p)
    | none => l

/-- How a loop has ended. -/
def result (l : Loop σ) : Except Error Unit :=
  match l.failure, l.stage, l.network.workers[0]? with
  | some e, _, _ => .error e
  | none, .done, some w => (l.network.joinResult w none).map fun _ => ()
  | none, _, _ => .error .unfinished

end Loop

/-- A controller's run on a program: the state and the number of groups answered, with the engine if
    all went well. -/
structure Outcome (σ : Type) where
  state : σ
  rounds : Nat
  /-- The loop, unless the program could not be loaded. -/
  loop : Option (Loop σ)
  engine : Except Error Engine

/-- Runs a controller on a program, the two parties taking the steps that `turns` lets them take. -/
def driveBy {σ : Type} (turns : Loop σ → Loop σ) (c : Controller σ) (s : σ)
    (program : Program.Source) : Outcome σ :=
  match Loop.start c s program with
  | .error e => { state := s, rounds := 0, loop := none, engine := .error e }
  | .ok l =>
    let l := turns l
    { state := l.state, rounds := l.rounds, loop := some l,
      engine := l.result.map fun _ => l.engine }

/-- Runs a controller on a program. -/
def drive {σ : Type} (fuel : Nat) (c : Controller σ) (patient : Bool) (s : σ)
    (program : Program.Source) : Outcome σ :=
  driveBy (Loop.run c patient fuel) c s program

end Intcode.Control
