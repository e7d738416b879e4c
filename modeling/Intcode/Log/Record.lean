import Intcode.Text.Decimal

namespace Intcode.Log

/-!
# Log records

A record is a message with a level and the part of the program it comes from.  Levels are integers;
five of them have names of their own.

* `levelName`         — the name of a level
* `Record.render`     — a record on the console
* `Record.fileLine`, `Record.plainLine`  — a record in a file and on a plain stream
-/

/-- The level of messages for whoever looks into details. -/
def debug : Int := 10

/-- The level of messages on the normal course of things. -/
def info : Int := 20

/-- The level of messages on what may be wrong. -/
def warning : Int := 30

/-- The level of messages on what went wrong. -/
def error : Int := 40

/-- The highest of the named levels. -/
def critical : Int := 50

/-- The name of a level. -/
def levelName (level : Int) : String :=
  if level = debug then "DEBUG"
  else if level = info then "INFO"
  else if level = warning then "WARNING"
  else if level = error then "ERROR"
  else if level = critical then "CRITICAL"
  else if level = 0 then "NOTSET"
  else s!"Level {Decimal.ofInt level}"

/-- A message with its level and source. -/
structure Record where
  level : Int
  source : String
  text : String
  deriving Repr, DecidableEq

/-- A record on the console. -/
def Record.render (r : Record) : String := s!"{levelName r.level} {r.source} {r.text}"

/-- A record on a plain stream. -/
def Record.plainLine (r : Record) : String :=
  Decimal.alignLeft 7 (levelName r.level) ++ " | " ++ r.text

/-- A record in a file. -/
def Record.fileLine (r : Record) : String :=
  Decimal.alignLeft 7 (levelName r.level) ++ " | " ++ r.source ++ " | " ++ r.text

end Intcode.Log
