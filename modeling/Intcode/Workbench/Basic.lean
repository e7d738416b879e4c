import Intcode.Network.Caller
import Intcode.Network.Join
import Intcode.Memory.Access

namespace Intcode

/-!
# The workbench

At the workbench channels and engines are made, wired and run by hand.  Ends of channels and
engines go by names; a name stands for what it was given to last.

* `Workbench`            — a network, and the names of its parts
* `Workbench.Command`    — what can be done
* `Workbench.Reply`      — what comes of it
* `Workbench.Answer`     — a reply, a refusal, or neither
-/

/-- A network, and the names of its parts, those given last first. -/
structure Workbench where
  network : Network := {}
  senders : List (String × SenderRef) := []
  receivers : List (String × ReceiverRef) := []
  engines : List (String × Nat) := []
  /-- The workers, by the names of their engines. -/
  workers : List (String × Nat) := []

namespace Workbench

/-- What a worker's owner asks of it. -/
structure Hire where
  name : String := defaultWorkerName
  expectInput : Bool := false
  expectOutput : Bool := false
  keepInput : Bool := false
  deriving Repr, DecidableEq

/-- What can be done at the workbench.  Ends and engines are given by their names. -/
inductive Command where
  /-- Makes a channel and names its ends. -/
  | channel (tx rx : String)
  | send (tx : String) (values : List Int)
  | clone (tx copy : String)
  | closeSender (tx : String)
  | closeReceiver (rx : String)
  /-- Receives a value, waiting at most as long as given, if a time is given. -/
  | recv (rx : String) (seconds : Option String)
  | tryRecv (rx : String)
  | drain (rx : String)
  | iterate (rx : String)
  /-- Sends values and then closes the sender, whether they were taken or not. -/
  | sendAndClose (tx : String) (values : List Int)
  /-- Takes everything buffered and then closes the receiver. -/
  | drainAndClose (rx : String)
  | describeSender (tx : String)
  | describeReceiver (rx : String)
  /-- Makes an engine with a console of its own. -/
  | engine (name : String) (program : Program.Source) (stdin : String) (tracing : Bool) (base : Int)
  | bindInput (e rx : String)
  | bindOutput (e tx : String)
  | takeInput (e : String)
  | takeOutput (e : String)
  | cloneOutput (e copy : String)
  | close (e : String)
  /-- Runs an engine and then closes its ends, whether it halted or not. -/
  | runAndClose (e : String)
  | step (e : String) (count : Nat)
  | run (e : String)
  | get (e : String) (place : Offer)
  | set (e : String) (place : Offer) (v : Int)
  | describe (e : String)
  | registers (e : String)
  | view (e : String)
  | trace (e : String)
  | printed (e : String)
  | fault (e : String)
  /-- Gives an engine to a worker. -/
  | spawn (e : String) (hire : Hire)
  | isAlive (e : String)
  | isExpected (e : String)
  /-- Joins the worker of an engine, waiting at most as long as given, if a time is given. -/
  | join (e : String) (seconds : Option String)
  | joinAll (es : List String) (seconds : Option String)
  deriving Repr, DecidableEq

/-- What comes of a command. -/
inductive Reply where
  | nothing
  | value (v : Int)
  | values (vs : List Int)
  | flag (b : Bool)
  | text (s : String)
  | lines (ss : List String)
  /-- The name of an end, if there is one. -/
  | name (s : Option String)
  | memory (m : Memory)
  | fault (f : Option Fault)
  | status (s : Status)
  | statuses (ss : List Status)

/-- A reply, a refusal, or neither because the command waits for ever. -/
inductive Answer where
  | reply (r : Reply)
  | refused (e : Error)
  | blocked

/-- The name that stands for something, if there is one. -/
def nameOf? {α : Type} [DecidableEq α] (names : List (String × α)) (x : α) : Option String :=
  (names.map Prod.fst).find? fun name => names.lookup name = some x

/-- An engine by its name. -/
def engine? (b : Workbench) (e : String) : Option Engine :=
  (b.engines.lookup e).map b.network.engine

end Workbench

end Intcode
