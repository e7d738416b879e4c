import Intcode.Engine.Basic

namespace Intcode

/-!
# Stepping an engine

A step attempts one instruction: it is fetched and decoded, recorded if the engine is tracing, and
carried out; what the machine cannot do alone is done with the input and the output.  A suspended
engine goes on with the instruction it is suspended in.  Steps change nothing once the engine has
ended.

* `Engine.step`    — one step, with the channels before and after it
* `Engine.runFor`  — steps until the engine ends or is suspended, up to a bound
-/

/-- The line recorded for a decoded instruction at an address; the registers are those after its
    word has been fetched. -/
def traceLine (origin : Int) (i : Instruction) (m : Machine) : String :=
  Decimal.zeroPadded 6 origin ++ ": " ++ Decimal.alignLeft 16 i.render ++ " " ++ m.renderRegisters

namespace Engine

/-- Stops the engine by a fault of the instruction at `origin`. -/
def fail (e : Engine) (origin : Int) (cause : Fault) : Engine :=
  { e with status := .faulted cause origin }

/-- Counts the instruction as completed. -/
def complete (e : Engine) : Engine := (e.act Exec.complete).2

/-- Records a decoded instruction if the engine is tracing. -/
def record (e : Engine) (origin : Int) (i : Instruction) : Engine :=
  if e.tracing then { e with trace := e.trace.push (traceLine origin i e.machine) } else e

/-- Completes an input instruction with its value. -/
def accept (e : Engine) (origin mode v : Int) : Engine :=
  match e.act (Exec.store mode v) with
  | (.ok _, e) => e.complete
  | (.error f, e) => e.fail origin f

/-- Looks for the value an input instruction asks for at the end of a channel. -/
def receive (e : Engine) (h : Hub) (r : Request) : Engine × Hub :=
  match h.recv r.receiver with
  | .value v h => ({ e with request := none }.accept r.origin r.mode v, h)
  | .closed _ => ({ e with request := none }.fail r.origin .inputClosed, h)
  | .wait => ({ e with request := some r }, h)

/-- Obtains the value an input instruction asks for. -/
def obtain (e : Engine) (h : Hub) (origin mode : Int) : Engine × Hub :=
  match e.input with
  | some receiver => e.receive h { mode, receiver, origin }
  | none =>
    match e.console.read with
    | (.ok v, console) => ({ e with console }.accept origin mode v, h)
    | (.error f, console) => ({ e with console }.fail origin f, h)

/-- Completes an output instruction by emitting its value. -/
def emit (e : Engine) (h : Hub) (origin v : Int) : Engine × Hub :=
  match e.output with
  | some tx =>
    match h.send tx v with
    | .ok h => (e.complete, h)
    | .error _ => (e.fail origin .outputClosed, h)
  | none =>
    match e.console.print v with
    | .ok console => ({ e with console }.complete, h)
    | .error f => (e.fail origin f, h)

/-- Does what is left to do for the instruction at `origin`. -/
def meet (e : Engine) (h : Hub) (origin : Int) : Demand → Engine × Hub
  | .nothing => (e.complete, h)
  | .halt => ({ e with status := .halted }.complete, h)
  | .input mode => e.obtain h origin mode
  | .output v => e.emit h origin v

/-- Attempts the instruction at the program counter. -/
def attempt (e : Engine) (h : Hub) : Engine × Hub :=
  let origin := e.machine.pc
  let e := { e with started := true }
  match e.act Exec.decode with
  | (.error f, e) => (e.fail origin f, h)
  | (.ok i, e) =>
    match (e.record origin i).act (Exec.execute i) with
    | (.error f, e) => (e.fail origin f, h)
    | (.ok demand, e) => e.meet h origin demand

/-- One step.  An engine that has ended stays as it is. -/
def step (e : Engine) (h : Hub) : Engine × Hub :=
  match e.status with
  | .running =>
    match e.request with
    | some r => e.receive h r
    | none => e.attempt h
  | _ => (e, h)

/-- Steps until the engine has ended or is suspended, at most `fuel` of them. -/
def runFor : Nat → Engine → Hub → Engine × Hub
  | 0, e, h => (e, h)
  | fuel + 1, e, h =>
    if e.isRunning then
      let (e, h) := e.step h
      if e.request.isSome then (e, h) else runFor fuel e h
    else (e, h)

end Engine

end Intcode
