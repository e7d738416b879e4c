import Intcode.Error

namespace Intcode.Control

/-!
# Controllers

A controller drives one engine: it sends commands, and it takes the engine's readings a group at a
time and answers each group with more commands.  What a controller knows is its state, of type `σ`.

* `Controller`        — the answers of a controller
* `Controller.start`  — the commands it begins with
-/

/-- The answers of a controller whose state is of type `σ`. -/
structure Controller (σ : Type) where
  /-- What the controller is called in reports. -/
  name : String
  /-- The number of readings it takes at a time. -/
  groupSize : Nat
  groupSize_pos : 0 < groupSize := by decide
  /-- What is stored in the engine's memory before it starts: addresses with values. -/
  patches : σ → List (Int × Int) := fun _ => []
  /-- The commands sent before the first reading, or why there are none. -/
  opening : σ → Except Error (List Int) := fun _ => .ok []
  /-- The commands that answer a group of readings, or why there are none, and the state after
      it. -/
  answer : σ → List Int → Except Error (List Int) × σ

/-- The commands sent before the first reading. -/
def Controller.start {σ : Type} (c : Controller σ) (s : σ) : List Int :=
  match c.opening s with
  | .ok commands => commands
  | .error _ => []

end Intcode.Control
