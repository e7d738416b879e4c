import Intcode.Network.Basic
import Intcode.Error

namespace Intcode

/-!
# Joining workers

Who joins a worker learns how its engine ended.  A hang-up that the owner expects is a normal end;
any other fault is an error.  When several workers are joined, a worker that has not ended
outweighs every fault, and a fault of a program's own outweighs a hang-up, which is often only its
consequence.

* `Network.failure?`    — the fault a worker has run into
* `Network.isExpected`  — whether it is a hang-up that was expected
* `Network.joinResult`  — the end of one worker
* `Network.joinAll`     — the ends of several
-/

namespace Network

/-- The fault the engine of a worker stopped with, once the worker has noticed. -/
def failure? (n : Network) (w : Worker) : Option Fault :=
  if w.phase = .running then none else (n.engine w.engine).fault?

/-- The worker stopped because of a hang-up that its owner expects. -/
def isExpected (n : Network) (w : Worker) : Bool :=
  match n.failure? w with
  | some .inputClosed => w.expectInput
  | some .outputClosed => w.expectOutput
  | _ => false

/-- The fault a worker stopped with, unless its owner expects it. -/
def unexpected? (n : Network) (w : Worker) : Option Fault :=
  if n.isExpected w then none else n.failure? w

/-- The status of a worker's engine. -/
def status (n : Network) (w : Worker) : Status := (n.engine w.engine).status

/-- The end of a worker; `seconds` is how long it was given, if its time was limited. -/
def joinResult (n : Network) (w : Worker) (seconds : Option String) : Except Error Status :=
  if w.isAlive then
    match seconds with
    | some seconds => .error (.stillRunning w.name seconds)
    | none => .error .unfinished
  else
    match n.unexpected? w with
    | some f => .error (.fault f)
    | none => .ok (n.status w)

/-- The fault that explains the others best: the first that is no hang-up, else the first. -/
def worst? (faults : List Fault) : Option Fault :=
  match faults.find? fun f => !f.isHangUp with
  | some f => some f
  | none => faults.head?

/-- The ends of several workers; `seconds` is how long they were given, if their time was
    limited. -/
def joinAll (n : Network) (ws : List Worker) (seconds : Option String) :
    Except Error (List Status) :=
  match (ws.filter Worker.isAlive).map Worker.name, seconds with
  | [], _ =>
    match worst? (ws.filterMap n.unexpected?) with
    | some f => .error (.fault f)
    | none => .ok (ws.map n.status)
  | names, some seconds => .error (.someStillRunning names seconds)
  | _, none => .error .unfinished

end Network

end Intcode
