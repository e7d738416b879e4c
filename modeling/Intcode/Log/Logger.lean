import Intcode.Log.Record

namespace Intcode.Log

/-!
# Loggers

A logger hands records to its sinks: at most one file, and the console.  Logger and sinks each
have a least level of their own.  A logger is configured once; configuring it again changes
nothing.

* `Settings`          — what a logger is configured to
* `Logger.configure`  — configures a logger, which then tells so
* `Logger.emit`       — hands a record to the sinks
-/

/-- What a sink writes to. -/
inductive SinkKind where
  | file (path : String)
  /-- The console, with colors. -/
  | console
  /-- The console as a plain stream. -/
  | plain
  deriving Repr, DecidableEq

/-- The name of a kind of sink. -/
def SinkKind.name : SinkKind → String
  | .file _ => "FileHandler"
  | .console => "RichHandler"
  | .plain => "StreamHandler"

/-- A place where records end up. -/
structure Sink where
  kind : SinkKind
  /-- The least level it takes. -/
  level : Int
  /-- The records it has taken. -/
  records : Array Record := #[]
  deriving Repr, DecidableEq

/-- A named logger. -/
structure Logger where
  name : String
  /-- The least level it hands on; zero stands for the default. -/
  level : Int := 0
  sinks : List Sink := []
  deriving Repr, DecidableEq

/-- What a logger is configured to. -/
structure Settings where
  /-- The least level for the file. -/
  level : Int := debug
  consoleLevel : Int := warning
  file : Option String := none
  /-- Whether the console shows colors. -/
  colors : Bool := true
  deriving Repr, DecidableEq

/-- A sink takes the records from its level up. -/
def Sink.take (s : Sink) (r : Record) : Sink :=
  if s.level ≤ r.level then { s with records := s.records.push r } else s

namespace Logger

/-- The least level a logger hands on. -/
def threshold (l : Logger) : Int := if l.level = 0 then warning else l.level

/-- Hands a record to the sinks.  A level that is not positive is never high enough. -/
def emit (l : Logger) (r : Record) : Logger :=
  if 0 < r.level ∧ l.threshold ≤ r.level then { l with sinks := l.sinks.map fun s => s.take r }
  else l

/-- Hands records to the sinks in order. -/
def emitAll (l : Logger) (rs : List Record) : Logger := rs.foldl emit l

/-- The sinks of given settings, the file first. -/
def sinksOf (s : Settings) : List Sink :=
  let console : Sink := { kind := if s.colors then .console else .plain, level := s.consoleLevel }
  match s.file with
  | some path => [{ kind := .file path, level := s.level }, console]
  | none => [console]

/-- What a logger tells about its settings. -/
def greeting (l : Logger) (s : Settings) : List Record :=
  let note (text : String) : Record := { level := debug, source := l.name, text }
  note s!"Logger initialized: {l.name} (console level {levelName s.consoleLevel})" ::
    s.file.toList.map fun path => note s!"Log file: {path}"

/-- Configures a logger.  One that has sinks already stays as it is. -/
def configure (l : Logger) (s : Settings) : Logger :=
  if l.sinks.isEmpty then
    { l with level := min s.level s.consoleLevel, sinks := sinksOf s }.emitAll (l.greeting s)
  else l

/-- The records in the file, if there is one. -/
def inFile (l : Logger) : Option (List Record) :=
  l.sinks.findSome? fun s =>
    match s.kind with
    | .file _ => some s.records.toList
    | _ => none

/-- The records taken by the sinks of a kind. -/
def onSink (l : Logger) (kind : SinkKind) : List Record :=
  l.sinks.flatMap fun s => if s.kind = kind then s.records.toList else []

end Logger

end Intcode.Log
