import Intcode.CommandLine.Commands

/-!
# The executable

Reads the program file a request names and the input stream, carries the request out, and writes
the result: both output streams, the records for the console, and the log file.  All decisions are
made in `Intcode.CommandLine`.
-/

namespace Intcode.CommandLine

/-- Whether an order reads the input stream. -/
def Order.readsInput : Order → Bool
  | .run o => o.inputs.isNone
  | _ => false

end Intcode.CommandLine

namespace Intcode

/-- A bound on the steps of a run that no run reaches. -/
def stepBound : Nat := 1000000000000000

/-- The directory as far as one path is concerned. -/
def lookAt (path : String) : IO Program.Directory := do
  try
    let bytes ← IO.FS.readBinFile path
    return .ofFiles [(path, bytes.toList)]
  catch
    | .inappropriateType .. => return .ofFiles [(path ++ "/entry", [])]
    | _ => return {}

/-- Writes the records of a file sink. -/
def writeLog (logger : Log.Logger) : IO Unit := do
  for sink in logger.sinks do
    match sink.kind with
    | .file path =>
      let steps := (path.splitOn "/").dropLast
      if !steps.isEmpty then IO.FS.createDirAll ("/".intercalate steps)
      IO.FS.writeFile path (String.join (sink.records.toList.map fun r => r.fileLine ++ "\n"))
    | _ =>
      let stderr ← IO.getStderr
      for r in sink.records do stderr.putStrLn r.render

end Intcode

/-- Runs the toolkit on the words of the command line. -/
def main (args : List String) : IO UInt32 := do
  let setting : Intcode.CommandLine.Setting ←
    match Intcode.CommandLine.interpret args with
    | .error _ => pure {}
    | .ok r => do
      let directory ← Intcode.lookAt r.order.path
      let stdin ← if r.order.readsInput then (← IO.getStdin).readToEnd else pure ""
      pure { directory, stdin }
  let result := Intcode.CommandLine.call Intcode.stepBound setting args
  (← IO.getStdout).putStr result.stdout
  (← IO.getStderr).putStr result.stderr
  if let some logger := result.logger then Intcode.writeLog logger
  return result.exit.toUInt32
