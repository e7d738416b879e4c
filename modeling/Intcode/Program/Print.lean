import Intcode.Program.Parse

namespace Intcode.Program

/-!
# Printing program text

The canonical text of a program: its cells in decimal, separated by commas.
-/

/-- The line terminators that may follow a program text. -/
inductive Terminator where
  | none
  | lf
  | crlf
  deriving Repr, DecidableEq

/-- The characters of a terminator. -/
def Terminator.text : Terminator → String
  | .none => ""
  | .lf => "\n"
  | .crlf => "\r\n"

/-- The canonical text of a list of cells. -/
def print (cells : List Int) (ending : Terminator) : String :=
  Decimal.commaSeparated cells ++ ending.text

end Intcode.Program
