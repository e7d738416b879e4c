namespace Intcode

/-!
# Arithmetic progressions

The numbers from a first one on, a step apart, on this side of a limit.

* `progression`  — the numbers as a list
-/

/-- The numbers from `start` on, `step` apart, before `stop`: below it if the step is positive,
    above it if the step is negative. -/
def progression (start stop step : Int) : List Int :=
  let span := if 0 < step then stop - start else start - stop
  let count := (span.toNat + step.natAbs - 1) / step.natAbs
  (List.range count).map fun (i : Nat) => start + i * step

end Intcode
