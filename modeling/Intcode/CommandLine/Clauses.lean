import Intcode.Error

namespace Intcode.CommandLine

/-!
# What becomes of errors

A call of the toolkit has a list of clauses for the errors of its command.  The first clause that
names the kind of an error, or a wider one, says what is written and with which code the call ends.

* `Clause`      — what becomes of the errors of some kinds
* `clauses`     — the clauses, in the order in which they are tried
* `clauseFor?`  — the clause for an error
-/

/-- What becomes of the errors of some kinds. -/
structure Clause where
  kinds : List Kind
  /-- The words that introduce an error on the error stream. -/
  introduction : String
  /-- The exit code. -/
  exit : Nat
  /-- Whether the error leaves a record of its own. -/
  isRecorded : Bool := false
  deriving Repr, DecidableEq

/-- Whether a clause is for the errors of a kind. -/
def Clause.covers (c : Clause) (kind : Kind) : Bool := c.kinds.any kind.isA

/-- What is written on the error stream about an error. -/
def Clause.message (c : Clause) (e : Error) : String := s!"{c.introduction}: {e.message}\n"

/-- The clauses.  A clause for a kind stands before those for wider kinds. -/
def clauses : List Clause :=
  [{ kinds := [.parse], introduction := "Parse error", exit := 1 },
   { kinds := [.fault], introduction := "Runtime error", exit := 1 },
   { kinds := [.toolkit], introduction := "Error", exit := 1 },
   { kinds := [.system, .value, .lookup], introduction := "Error", exit := 1 },
   { kinds := [.any], introduction := "Internal error", exit := 2, isRecorded := true }]

/-- The clause for an error. -/
def clauseFor? (e : Error) : Option Clause :=
  match e.kind? with
  | some kind => clauses.find? (·.covers kind)
  | none => none

end Intcode.CommandLine
