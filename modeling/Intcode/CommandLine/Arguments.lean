import Intcode.CommandLine.Grammar
import Intcode.Text.Numeral
import Intcode.Text.Decimal

namespace Intcode.CommandLine

/-!
# The command line of the toolkit

The toolkit runs programs.  Its own options come first; then a command with options and arguments of
its own.

* `Order`      — a command with everything it needs
* `Request`    — an order with the toolkit's own options
* `interpret`  — the request in the words of a command line
-/

/-- What `run` needs. -/
structure RunOrder where
  path : String := ""
  /-- The memory patches, as they were written. -/
  patches : List String := []
  /-- The inputs, unless they are to be typed in. -/
  inputs : Option (List Int) := none
  /-- The addresses to print after the run. -/
  peeks : List Int := []
  tracing : Bool := false
  deriving Repr, DecidableEq

/-- What `amplify` needs. -/
structure AmplifyOrder where
  path : String := ""
  feedback : Bool := false
  /-- The set of phases, as it was written. -/
  phases : Option String := none
  deriving Repr, DecidableEq

/-- What `paint` needs. -/
structure PaintOrder where
  path : String := ""
  startColor : Int := 0
  deriving Repr, DecidableEq

/-- What `arcade` needs. -/
structure ArcadeOrder where
  path : String := ""
  play : Bool := false
  showScreen : Bool := false
  deriving Repr, DecidableEq

/-- What `nounverb` needs. -/
structure NounVerbOrder where
  path : String := ""
  target : Int := 0
  deriving Repr, DecidableEq

/-- A command with everything it needs. -/
inductive Order where
  | run (o : RunOrder)
  | amplify (o : AmplifyOrder)
  | paint (o : PaintOrder)
  | arcade (o : ArcadeOrder)
  | nounVerb (o : NounVerbOrder)
  deriving Repr, DecidableEq

/-- The path of the program file of an order. -/
def Order.path : Order → String
  | .run o => o.path
  | .amplify o => o.path
  | .paint o => o.path
  | .arcade o => o.path
  | .nounVerb o => o.path

/-- The toolkit's own options, and the command with the words behind it. -/
structure Globals where
  /-- How much the console is to show. -/
  verbosity : Nat := 0
  logFile : Option String := none
  command : Option (String × List String) := none
  deriving Repr, DecidableEq

/-- An order with the toolkit's own options. -/
structure Request where
  verbosity : Nat
  logFile : Option String
  order : Order
  deriving Repr, DecidableEq

/-- What the toolkit is called. -/
def toolName : String := "intcodekit"

/-- The version of the toolkit. -/
def toolVersion : String := "0.4.0"

/-! ### Values -/

/-- An integer argument. -/
def integer {σ : Type} (apply : Int → σ → Except String σ) (text : String) (s : σ) :
    Except String σ :=
  match Numeral.lenient text with
  | .ok v => apply v s
  | .error _ => .error s!"invalid int value: {Quoted.render text}"

/-- An argument that has to be one of some choices, each in its written form. -/
def oneOf (shown : String) (choices : List String) : Except String Unit :=
  if choices.contains shown then .ok ()
  else .error <| s!"invalid choice: {shown} (choose from " ++ ", ".intercalate choices ++ ")"

/-! ### Grammars -/

/-- The option that asks how to use a command. -/
def helpOption {σ : Type} : Opt σ := ⟨["-h", "--help"], .stop .help⟩

/-- The argument that names the program file. -/
def programArgument {σ : Type} (apply : String → σ → σ) : Positional σ :=
  { name := "program", slot := .word fun text s => .ok (apply text s) }

/-- The names of the commands. -/
def commandNames : List String := ["run", "amplify", "paint", "arcade", "nounverb"]

/-- The toolkit's own options; its one argument is the command with everything behind it. -/
def globalGrammar : Grammar Globals where
  program := toolName
  options :=
    [helpOption,
     ⟨["--version"], .stop .version⟩,
     ⟨["-v", "--verbose"], .flag fun s => { s with verbosity := s.verbosity + 1 }⟩,
     ⟨["--log-file"], .value fun text s => .ok { s with logFile := some text }⟩]
  positionals :=
    [{ name := "command", required := false
       slot := .rest fun name words s =>
        (oneOf (Quoted.render name) (commandNames.map Quoted.render)).map fun _ =>
          { s with command := some (name, words) } }]

/-- The program name of a command in messages. -/
def commandProgram (command : String) : String := s!"{toolName} {command}"

/-- The grammar of `run`. -/
def runGrammar : Grammar RunOrder where
  program := commandProgram "run"
  options :=
    [helpOption,
     ⟨["--set"], .value fun text s => .ok { s with patches := s.patches ++ [text] }⟩,
     ⟨["--input"], .value <| integer fun v s =>
        .ok { s with inputs := some (s.inputs.getD [] ++ [v]) }⟩,
     ⟨["--peek"], .value <| integer fun v s => .ok { s with peeks := s.peeks ++ [v] }⟩,
     ⟨["--trace"], .flag fun s => { s with tracing := true }⟩]
  positionals := [programArgument fun path s => { s with path }]

/-- The grammar of `amplify`. -/
def amplifyGrammar : Grammar AmplifyOrder where
  program := commandProgram "amplify"
  options :=
    [helpOption,
     ⟨["--feedback"], .flag fun s => { s with feedback := true }⟩,
     ⟨["--phases"], .value fun text s => .ok { s with phases := some text }⟩]
  positionals := [programArgument fun path s => { s with path }]

/-- The grammar of `paint`. -/
def paintGrammar : Grammar PaintOrder where
  program := commandProgram "paint"
  options :=
    [helpOption,
     ⟨["--start-color"], .value <| integer fun v s =>
        (oneOf (Decimal.ofInt v) ["0", "1"]).map fun _ => { s with startColor := v }⟩]
  positionals := [programArgument fun path s => { s with path }]

/-- The grammar of `arcade`. -/
def arcadeGrammar : Grammar ArcadeOrder where
  program := commandProgram "arcade"
  options :=
    [helpOption,
     ⟨["--play"], .flag fun s => { s with play := true }⟩,
     ⟨["--show"], .flag fun s => { s with showScreen := true }⟩]
  positionals := [programArgument fun path s => { s with path }]

/-- The grammar of `nounverb`. -/
def nounVerbGrammar : Grammar NounVerbOrder where
  program := commandProgram "nounverb"
  options := [helpOption]
  positionals :=
    [programArgument fun path s => { s with path },
     { name := "target", slot := .word <| integer fun target s => .ok { s with target } }]

/-! ### Requests -/

/-- The order in the words of a command, and the words nothing is known about. -/
def readOrder (command : String) (words : List String) : Except Stop (Order × List String) :=
  match command with
  | "run" => (runGrammar.read words {}).map fun (o, unknown) => (.run o, unknown)
  | "amplify" => (amplifyGrammar.read words {}).map fun (o, unknown) => (.amplify o, unknown)
  | "paint" => (paintGrammar.read words {}).map fun (o, unknown) => (.paint o, unknown)
  | "arcade" => (arcadeGrammar.read words {}).map fun (o, unknown) => (.arcade o, unknown)
  | _ => (nounVerbGrammar.read words {}).map fun (o, unknown) => (.nounVerb o, unknown)

/-- A command line has to be known to its last word. -/
def checkUnknown (unknown : List String) : Except Stop Unit :=
  if unknown.isEmpty then .ok ()
  else .error (.refused toolName ("unrecognized arguments: " ++ " ".intercalate unknown))

/-- The request in the words of a command line.  Without a command, how to use the toolkit is what
    is asked for. -/
def interpret (args : List String) : Except Stop Request := do
  let (globals, unknown) ← globalGrammar.read args {}
  match globals.command with
  | none => do
    checkUnknown unknown
    .error .help
  | some (command, words) => do
    let (order, more) ← readOrder command words
    checkUnknown (unknown ++ more)
    return { verbosity := globals.verbosity, logFile := globals.logFile, order }

end Intcode.CommandLine
