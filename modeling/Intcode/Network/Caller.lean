import Intcode.Network.Settle

namespace Intcode

/-!
# Running an engine beside the workers

Who has no worker for an engine runs it on their own.  While it waits for a value the workers take
their turns, since one of them may send it; if none does, the engine waits for ever.

* `Network.attempt`  — one instruction
* `Network.runFor`   — up to a number of instructions
-/

namespace Network

/-- The engine waits for a value that is not there. -/
def isStarved (n : Network) (k : Nat) : Bool :=
  match (n.engine k).request with
  | some r => !n.hub.isReady r.receiver
  | none => false

/-- One instruction of an engine, the workers taking up to `fuel` turns while it waits. -/
def attempt (fuel : Nat) (n : Network) (k : Nat) : Network :=
  let n := n.withEngine k Engine.step
  if (n.engine k).request.isNone then n
  else
    let n := n.settle fuel
    if n.isStarved k then n else n.withEngine k Engine.step

/-- Up to a number of instructions of an engine, until it has ended or waits for ever. -/
def runFor (fuel : Nat) : Nat → Network → Nat → Network
  | 0, n, _ => n
  | count + 1, n, k =>
    if (n.engine k).isRunning then
      let n := n.attempt fuel k
      if (n.engine k).request.isSome then n else runFor fuel count n k
    else n

end Network

end Intcode
