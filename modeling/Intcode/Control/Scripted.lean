import Intcode.Control.Controller

namespace Intcode.Control

/-!
# Scripted controllers

A scripted controller answers from a list prepared beforehand, one entry for each group of
readings and nothing when the list is at its end.  Without a list it has no answers at all.  It
notes the groups it is given.
-/

/-- The answers prepared and the groups seen. -/
structure Scripted where
  /-- The commands sent before the first reading. -/
  opening : List Int := []
  patches : List (Int × Int) := []
  /-- The answers still to be given, if there are any prepared. -/
  script : Option (List (List Int)) := none
  /-- The groups seen, the last one first. -/
  seen : List (List Int) := []
  deriving Repr, DecidableEq

namespace Scripted

/-- Notes a group of readings and gives the next answer. -/
def answer (s : Scripted) (readings : List Int) : Except Error (List Int) × Scripted :=
  let s := { s with seen := readings :: s.seen }
  match s.script with
  | none => (.error .noAnswer, s)
  | some [] => (.ok [], s)
  | some (commands :: script) => (.ok commands, { s with script := some script })

/-- The scripted controller with groups of a given size; a group holds at least one reading. -/
def controller (size : Nat) : Controller Scripted where
  name := "Controller"
  groupSize := max 1 size
  groupSize_pos := by omega
  patches s := s.patches
  opening s := .ok s.opening
  answer := answer

end Scripted

end Intcode.Control
