import Intcode.Engine.Step

namespace Intcode

/-!
# Networks

A network is a collection of engines, the channels between them, and workers.  A worker runs one
engine: while it runs, its engine takes steps; when the engine has ended, the worker closes the
engine's output, then its input, and ends.  Closing the output tells the reader that nobody is
coming; the input may be kept, so that what is left in it can still be read.

Workers take their steps in any order.  `Network.step n i` is one step of worker `i`, and
`Network.canStep n i` tells whether it can take one: a worker cannot while its engine waits for a
value.  A schedule is a list of workers (`Network.follow`).

* `Worker`           — a worker, and what its owner expects of it
* `Network.canStep`, `Network.step`   — one step of a worker
* `Network.follow`   — the steps of a schedule
-/

/-- How far a worker has got. -/
inductive Phase where
  /-- The engine takes steps. -/
  | running
  /-- The engine has ended; its output is to be closed. -/
  | releasingOutput
  /-- Its input is to be closed. -/
  | releasingInput
  | ended
  deriving Repr, DecidableEq

/-- The name of a worker nobody named. -/
def defaultWorkerName : String := "intcode-engine"

/-- A worker. -/
structure Worker where
  /-- The number of its engine. -/
  engine : Nat
  name : String := defaultWorkerName
  /-- A hang-up of the input's senders is a normal end. -/
  expectInput : Bool := false
  /-- A hang-up of the output's receiver is a normal end. -/
  expectOutput : Bool := false
  /-- The input stays open when the engine has ended. -/
  keepInput : Bool := false
  phase : Phase := .running
  deriving Repr, DecidableEq

/-- A worker that has not ended. -/
def Worker.isAlive (w : Worker) : Bool := w.phase != .ended

/-- Engines, the channels between them, and workers. -/
structure Network where
  hub : Hub := {}
  engines : Array Engine := #[]
  workers : Array Worker := #[]

namespace Network

/-- An engine by its number.  One that was never added counts as an empty engine. -/
def engine (n : Network) (k : Nat) : Engine := n.engines.getD k {}

/-- Lets an engine act on itself and the channels. -/
def withEngine (n : Network) (k : Nat) (act : Engine → Hub → Engine × Hub) : Network :=
  let ⟨hub, engines, workers⟩ := n
  let e := engines.getD k {}
  -- the slot is vacant while the engine acts, so that its memory changes in place
  let engines := engines.setIfInBounds k {}
  let (e, hub) := act e hub
  ⟨hub, engines.setIfInBounds k e, workers⟩

/-- Moves a worker to a phase. -/
def enter (n : Network) (i : Nat) (phase : Phase) : Network :=
  { n with workers := n.workers.modify i fun w => { w with phase } }

/-- Takes the output away from an engine and closes it. -/
def releaseOutput (e : Engine) (h : Hub) : Engine × Hub :=
  match e.takeOutput with
  | (some tx, e) => (e, h.closeSender tx)
  | (none, e) => (e, h)

/-- Takes the input away from an engine and closes it. -/
def releaseInput (e : Engine) (h : Hub) : Engine × Hub :=
  match e.takeInput with
  | (some rx, e) => (e, h.closeReceiver rx)
  | (none, e) => (e, h)

/-- A running worker can step unless its engine waits for a value; a worker that releases the ends
    can always step; one that has ended cannot. -/
def canStep (n : Network) (i : Nat) : Bool :=
  match n.workers[i]? with
  | none => false
  | some w =>
    match w.phase with
    | .ended => false
    | .running =>
      match (n.engine w.engine).request with
      | some r => n.hub.isReady r.receiver
      | none => true
    | _ => true

/-- One step of a worker. -/
def step (n : Network) (i : Nat) : Network :=
  match n.workers[i]? with
  | none => n
  | some w =>
    match w.phase with
    | .running =>
      let n := n.withEngine w.engine Engine.step
      if (n.engine w.engine).isRunning then n else n.enter i .releasingOutput
    | .releasingOutput => (n.withEngine w.engine releaseOutput).enter i .releasingInput
    | .releasingInput =>
      let n := if w.keepInput then n else n.withEngine w.engine releaseInput
      n.enter i .ended
    | .ended => n

/-- The steps of a schedule; a worker whose turn comes while it cannot step is passed over. -/
def follow (n : Network) : List Nat → Network
  | [] => n
  | i :: schedule => if n.canStep i then (n.step i).follow schedule else n.follow schedule

/-- No worker can step. -/
def isSettled (n : Network) : Bool := (List.range n.workers.size).all fun i => !n.canStep i

end Network

end Intcode
