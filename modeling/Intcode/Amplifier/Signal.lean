import Intcode.Error

namespace Intcode.Amplifier

/-!
# Signals

Amplifiers are copies of one program.  Each is told its phase as its first input, takes signals in
and sends signals out; the first signal of all is the seed.  The result is the last signal sent.

* `defaultSeed`, `chainPhases`, `ringPhases`  — what is taken unless told otherwise
* `lastSignal`    — the result among the signals sent
* `checkPhases`   — there has to be an amplifier
-/

/-- The first signal. -/
def defaultSeed : Int := 0

/-- The phases of an open chain. -/
def chainPhases : List Int := [0, 1, 2, 3, 4]

/-- The phases of a feedback ring. -/
def ringPhases : List Int := [5, 6, 7, 8, 9]

/-- The last of the signals sent. -/
def lastSignal (signals : List Int) : Except Error Int :=
  match signals.getLast? with
  | some v => .ok v
  | none => .error .noSignal

/-- There has to be a phase. -/
def checkPhases (phases : List Int) : Except Error Unit :=
  if phases.isEmpty then .error .emptyPhaseSet else .ok ()

end Intcode.Amplifier
