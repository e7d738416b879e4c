import Intcode.Amplifier.Signal
import Intcode.Network.Settle
import Intcode.Network.Join

namespace Intcode.Amplifier

/-!
# Feedback rings

In a feedback ring the last amplifier sends to the first.  Every channel holds the phase of its
reader from the start, the first one also the seed, and all amplifiers run side by side.  When all
have ended, the last signal is still in the channel of the first amplifier, which is kept open.

* `Ring.ampName` — what an amplifier is called
* `Ring.start`   — the network, ready to run
* `Ring.finish`  — the result of a network that has run
* `Ring.signal`  — the whole run
-/

namespace Ring

/-- The text of a code point.  A surrogate is no character, and shows as its number. -/
def codePointText (n : Nat) : String :=
  if 0xD800 ≤ n ∧ n ≤ 0xDFFF then String.ofList ('\\' :: 'u' :: Quoted.hexDigits 4 n)
  else String.singleton (Char.ofNat n)

/-- The name of an amplifier: a letter from `A` on. -/
def ampName (i : Nat) : String := "amp-" ++ codePointText ('A'.toNat + i)

/-- Every amplifier needs a name, and there are only so many code points from `A` on. -/
def checkNames (phases : List Int) : Except Error Unit :=
  if 'A'.toNat + phases.length ≤ 0x110000 then .ok () else .error .noCharacter

/-- The channels: each holds a phase, the first one also the seed. -/
def links (phases : List Int) (seed : Int) : Hub :=
  let link (i : Nat) (phase : Int) : Channel :=
    .holding (if i = 0 then [phase, seed] else [phase])
  ⟨(phases.mapIdx link).toArray⟩

/-- Amplifier `i` of `size` many. -/
def amplifier (image : List Int) (size i : Nat) : Engine :=
  (Engine.ofCells image false {}).wired ⟨i⟩ ⟨(i + 1) % size, 0⟩

/-- The worker of amplifier `i`.  The channel of the first one is kept for the result. -/
def worker (i : Nat) : Worker := { engine := i, name := ampName i, keepInput := i == 0 }

/-- The ring, ready to run. -/
def start (image : List Int) (phases : List Int) (seed : Int) : Network :=
  let size := phases.length
  { hub := links phases seed
    engines := ((List.range size).map (amplifier image size)).toArray
    workers := ((List.range size).map worker).toArray }

/-- The result of a ring that has run. -/
def finish (n : Network) (seconds : Option String) : Except Error Int := do
  let _ ← n.joinAll n.workers.toList seconds
  match (n.engine 0).input with
  | some rx => lastSignal (n.hub.drain rx).1
  | none => .error .noSignal

/-- Runs a ring on a program already read. -/
def run (fuel : Nat) (image : List Int) (phases : List Int) (seed : Int)
    (seconds : Option String) : Except Error Int := do
  checkNames phases
  finish ((start image phases seed).settle fuel) seconds

/-- The result of a ring.  The phases are looked at before the program. -/
def signal (fuel : Nat) (program : Program.Source) (phases : List Int) (seed : Int)
    (seconds : Option String) : Except Error Int := do
  checkPhases phases
  let image ← program.image.mapError .parse
  run fuel image phases seed seconds

end Ring

end Intcode.Amplifier
