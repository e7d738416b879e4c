import Intcode.Batch.Basic

namespace Intcode

/-!
# The noun and verb search

Two numbers, a noun patched into cell 1 and a verb patched into cell 2, make a program leave a value
in cell 0.  The search tries the pairs noun by noun and stops at the first one that leaves the value
wanted.  A pair whose run stops at a fault is passed over, as long as the fault is one of those that
programs are known to stop at; any other error ends the search.

* `NounVerb.attempt`  — the run of one pair
* `NounVerb.leaves`   — whether the run has left the value wanted
* `NounVerb.find`     — the first pair that an attempt accepts
* `NounVerb.search`   — the search, answering `100 * noun + verb`
-/

namespace NounVerb

/-- The numbers a search tries unless told otherwise. -/
def defaultRange : List Int := (List.range 100).map fun (n : Nat) => (n : Int)

/-- The run of a program with a noun and a verb. -/
def attempt (fuel : Nat) (image : List Int) (noun verb : Int) : Except Error Batch :=
  match Batch.prepare (.cells image) [(1, noun), (2, verb)] false {} with
  | .error e => .error e
  | .ok e => .ok (Batch.execute fuel e (some []))

/-- Whether a run has left a value in cell 0. -/
def leaves (b : Batch) (target : Int) : Except Error Bool :=
  match b.engine.status with
  | .halted => .ok (b.engine.machine.memory.lookup 0 == target)
  | .faulted cause _ => if cause.kind.isA .fault then .ok false else .error (.fault cause)
  | .running => .error .unfinished

/-- The first pair, noun by noun, that `accepts` accepts. -/
def find {m : Type → Type} [Monad m] (accepts : Int → Int → m Bool) :
    List Int → List Int → m (Option (Int × Int))
  | [], _ => return none
  | noun :: nouns, verbs => do
    match ← verbs.findM? (accepts noun) with
    | some verb => return some (noun, verb)
    | none => find accepts nouns verbs

/-- The answer that stands for a pair. -/
def answer (noun verb : Int) : Int := 100 * noun + verb

/-- The result of a search. -/
def result (target : Int) : Option (Int × Int) → Except Error Int
  | some (noun, verb) => .ok (answer noun verb)
  | none => .error (if Decimal.isWritable target then .noPair target else .overlong .written)

/-- Whether the run of a pair leaves a value. -/
def accepts (fuel : Nat) (image : List Int) (target noun verb : Int) : Except Error Bool := do
  let b ← attempt fuel image noun verb
  leaves b target

/-- The answer for the first pair that leaves the value wanted. -/
def search (fuel : Nat) (program : Program.Source) (target : Int) (nouns verbs : List Int) :
    Except Error Int := do
  let image ← program.image.mapError .parse
  let found ← find (accepts fuel image target) nouns verbs
  result target found

end NounVerb

end Intcode
