import Intcode.Amplifier.Chain
import Intcode.Amplifier.Ring
import Intcode.Amplifier.Orderings

namespace Intcode.Amplifier

/-!
# The best ordering of phases

The best ordering of a set of phases is the first one with the greatest signal.  An ordering
without a signal ends the search with its error.

* `better`     — the better of the best so far and one more
* `search`     — the best ordering, by any way of running one
* `maxSignal`  — the best ordering of a program
-/

/-- An ordering of phases and its signal. -/
structure Best where
  signal : Int
  phases : List Int
  deriving Repr, DecidableEq

/-- The wiring of amplifiers. -/
inductive Wiring where
  /-- An open chain. -/
  | chain
  /-- A feedback ring. -/
  | ring
  deriving Repr, DecidableEq

/-- The phases taken unless told otherwise. -/
def Wiring.defaultPhases : Wiring → List Int
  | .chain => chainPhases
  | .ring => ringPhases

/-- The better of the best ordering so far and one more: the earlier one keeps its place unless the
    later one is strictly greater. -/
def better (best : Option Best) (signal : Int) (phases : List Int) : Option Best :=
  match best with
  | none => some { signal, phases }
  | some b => if b.signal < signal then some { signal, phases } else some b

/-- The best ordering of a set of phases, each ordering run by `run`. -/
def search {m : Type → Type} [Monad m] (run : List Int → m Int) (phases : List Int) :
    m (Option Best) :=
  foldOrderings
    (fun best ordering => do
      let signal ← run ordering
      return better best signal ordering)
    phases none

/-- The signal of one ordering. -/
def runOrdering (fuel : Nat) (wiring : Wiring) (image : List Int) (phases : List Int) :
    Except Error Int :=
  match wiring with
  | .chain => (Chain.run fuel image phases defaultSeed).result
  | .ring => Ring.run fuel image phases defaultSeed none

/-- The best ordering of a set of phases for a program.  The program is looked at before the
    phases. -/
def maxSignal (fuel : Nat) (program : Program.Source) (phases : Option (List Int))
    (wiring : Wiring) : Except Error Best := do
  let image ← program.image.mapError .parse
  let phases := phases.getD wiring.defaultPhases
  checkPhases phases
  match ← search (runOrdering fuel wiring image) phases with
  | some best => .ok best
  | none => .error .emptyPhaseSet

end Intcode.Amplifier
