import Intcode.Amplifier.Signal
import Intcode.Engine.Step

namespace Intcode.Amplifier

/-!
# Open chains

In an open chain each amplifier reads its phase and then what the one before it has sent; the first
reads the seed.  Nothing feeds back, so the amplifiers run one after the other, each to its end.

* `Chain.link`    — a channel that already holds the phase of the amplifier that reads it
* `Chain.amplify` — one amplifier, between two channels
* `Chain.run`     — the whole chain
-/

/-- A chain that has run: the amplifiers that did, in order, and the result. -/
structure Chain where
  engines : List Engine
  result : Except Error Int

namespace Chain

/-- A new channel for the next amplifier, which finds its phase there.  The channel behind the last
    amplifier starts empty. -/
def link (h : Hub) (phase : Option Int) : SenderRef × ReceiverRef × Hub :=
  let (tx, rx, h) := h.add
  (tx, rx, (h.sendAll tx phase.toList).2)

/-- Runs one amplifier to its end; it then closes both channels. -/
def amplify (fuel : Nat) (image : List Int) (rx : ReceiverRef) (tx : SenderRef) (h : Hub) :
    Engine × Hub :=
  let (e, h) := ((Engine.ofCells image false {}).wired rx tx).runFor fuel h
  (e, e.close h)

/-- Runs the amplifier that reads from `rx`, then those with the phases that follow.  `done` holds
    the amplifiers that have run, the last one first. -/
def runFrom (fuel : Nat) (image : List Int) (rx : ReceiverRef) (h : Hub) (done : List Engine) :
    List Int → Chain
  | [] =>
    let (tx, out, h) := link h none
    let (e, h) := amplify fuel image rx tx h
    { engines := (e :: done).reverse, result := do e.outcome; lastSignal (h.drain out).1 }
  | phase :: phases =>
    let (tx, next, h) := link h (some phase)
    let (e, h) := amplify fuel image rx tx h
    match e.outcome with
    | .ok _ => runFrom fuel image next h (e :: done) phases
    | .error cause => { engines := (e :: done).reverse, result := .error cause }

/-- Runs a chain on a program already read. -/
def run (fuel : Nat) (image : List Int) (phases : List Int) (seed : Int) : Chain :=
  match phases with
  | [] => { engines := [], result := .error .emptyPhaseSet }
  | phase :: phases =>
    let (tx, rx, h) := link {} (some phase)
    let h := (h.sendAll tx [seed]).2.closeSender tx
    runFrom fuel image rx h [] phases

/-- The result of a chain.  The phases are looked at before the program. -/
def signal (fuel : Nat) (program : Program.Source) (phases : List Int) (seed : Int) :
    Except Error Int := do
  checkPhases phases
  let image ← program.image.mapError .parse
  (run fuel image phases seed).result

end Chain

end Intcode.Amplifier
