import Intcode.Network.Basic

namespace Intcode

/-!
# Settling a network

The fair schedule: workers take turns, each with a slice of steps, until none of them can step.
Either every worker has then ended, or each one left waits for a value that nobody sends.

* `Network.advance`  — a slice of one worker
* `Network.settle`   — turns of all workers until the network is settled
-/

/-- The number of steps of one turn. -/
def timeSlice : Nat := 1000

namespace Network

/-- Lets a worker take up to `slice` steps. -/
def advance : Nat → Network → Nat → Network
  | 0, n, _ => n
  | slice + 1, n, i => if n.canStep i then advance slice (n.step i) i else n

/-- One turn of every worker. -/
def turn (n : Network) : Network :=
  (List.range n.workers.size).foldl (advance timeSlice) n

/-- Turns until the network is settled, at most `fuel` of them. -/
def settle : Nat → Network → Network
  | 0, n => n
  | fuel + 1, n => if n.isSettled then n else settle fuel n.turn

end Network

end Intcode
