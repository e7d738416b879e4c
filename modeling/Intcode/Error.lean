import Intcode.Program.File
import Intcode.Engine.Basic

namespace Intcode

/-!
# Errors

Everything that can go wrong when programs are loaded, wired and run.  Each constructor of `Error`
is a cause; `Error.message` is its wording.

Errors are told apart by their kinds (`Error.kind?`).  A kind may belong to a wider one
(`Kind.isA`), so who deals with a kind of errors deals with every narrower kind too.
-/

/-- Why there is no result. -/
inductive Error where
  /-- A text is not read as a program. -/
  | parse (e : Program.Rejection)
  /-- A program file cannot be read. -/
  | file (e : Program.FileError)
  /-- An end of a channel was bound too late. -/
  | binding (e : BindingError)
  /-- A program stopped at a fault, or memory was accessed out of bounds from outside. -/
  | fault (f : Fault)
  /-- An operation on a channel was refused. -/
  | channel (e : ChannelError)
  /-- No value arrived in a channel in time. -/
  | noValueWithin (seconds : String)
  /-- An engine did not end in time. -/
  | stillRunning (name seconds : String)
  /-- Some of several engines did not end in time. -/
  | someStillRunning (names : List String) (seconds : String)
  /-- There is no amplifier without a phase. -/
  | emptyPhaseSet
  /-- The last amplifier sent nothing. -/
  | noSignal
  /-- The robot was told to turn in no known direction. -/
  | badTurn (turn : Int)
  /-- No noun and verb produce the value wanted. -/
  | noPair (target : Int)
  /-- The controller has no answer to readings. -/
  | noAnswer
  /-- A size or an index is no signed 64-bit word. -/
  | unfitIndex
  /-- An index is beyond the ends of a list, where a member was looked up or is to be replaced. -/
  | noMember (replacing : Bool)
  /-- A range of numbers needs a step. -/
  | zeroStep
  /-- A text is no integer. -/
  | notAnInteger (text : String)
  /-- An integer was to be converted from or to text, and has too many digits. -/
  | overlong (cause : Overlong)
  /-- A number stands for no character. -/
  | noCharacter
  /-- A text is no memory patch. -/
  | notAPatch (text : String)
  /-- Nothing goes by a name. -/
  | unknownName (name : String)
  /-- A run was not over within its bound on steps, or waits for ever. -/
  | unfinished
  deriving Repr, DecidableEq

/-- The wording of an error. -/
def Error.message : Error → String
  | .parse e => e.message
  | .file e => e.message
  | .binding e => e.message
  | .fault f => f.message
  | .channel e => e.message
  | .noValueWithin seconds => s!"no value within {seconds}s"
  | .stillRunning name seconds => s!"{name} still running after {seconds}s"
  | .someStillRunning names seconds =>
    s!"still running after {seconds}s: " ++ ", ".intercalate names
  | .emptyPhaseSet => "empty phase set"
  | .noSignal => "amplifiers produced no signal"
  | .badTurn turn =>
    -- the error is of the same kind whether its wording can be written or not
    match Decimal.write turn with
    | .ok shown => s!"bad turn instruction {shown}"
    | .error cause => cause.message
  | .noPair target => s!"no noun/verb pair produces {Decimal.ofInt target}"
  | .noAnswer => ""
  | .unfitIndex => "cannot fit 'int' into an index-sized integer"
  | .noMember false => "list index out of range"
  | .noMember true => "list assignment index out of range"
  | .zeroStep => "range() arg 3 must not be zero"
  | .notAnInteger text => s!"invalid literal for int() with base 10: {Quoted.render text}"
  | .overlong cause => cause.message
  | .noCharacter => "chr() arg not in range(0x110000)"
  | .notAPatch text => s!"expected ADDR=VALUE, got {Quoted.render text}"
  | .unknownName name => Quoted.render name
  | .unfinished => "the run does not end"

/-- The error of a file that gave no program. -/
def Error.ofLoadError : Program.LoadError → Error
  | .file e => .file e
  | .parse e => .parse e

/-- Whether an engine that acts no more has halted, and if not, why. -/
def Engine.outcome (e : Engine) : Except Error Unit :=
  match e.status with
  | .halted => .ok ()
  | .faulted cause _ => .error (.fault cause)
  | .running => .error .unfinished

/-! ### Kinds -/

/-- A kind of errors: any error, or those of a name within a wider kind. -/
inductive Kind where
  | any
  | within (wider : Kind) (name : String)
  deriving Repr, DecidableEq

namespace Kind

/-- Whether every error of a kind is of another kind too. -/
def isA (kind wide : Kind) : Bool :=
  kind = wide ||
    match kind with
    | any => false
    | within wider _ => wider.isA wide

/-- What the library itself complains about. -/
def toolkit : Kind := within any "toolkit"

/-- A text is no program. -/
def parse : Kind := within toolkit "parse"

/-- An end of a channel was bound too late. -/
def binding : Kind := within toolkit "binding"

/-- What stops a program. -/
def fault : Kind := within toolkit "fault"

/-- An input could not be read. -/
def input : Kind := within fault "input"

/-- An output could not be written. -/
def output : Kind := within fault "output"

/-- What the system refuses. -/
def system : Kind := within any "system"

/-- A wait took too long. -/
def timeout : Kind := within system "timeout"

/-- A value of the right type that makes no sense. -/
def value : Kind := within any "value"

/-- A value that cannot be decoded. -/
def decoding : Kind := within value "decoding"

/-- Nothing is found where it was looked for. -/
def lookup : Kind := within any "lookup"

/-- Nothing goes by a key. -/
def key : Kind := within lookup "key"

/-- Nothing is at an index. -/
def index : Kind := within lookup "index"

/-- What comes of a calculation. -/
def arithmetic : Kind := within any "arithmetic"

/-- A number too large, or too far below zero. -/
def overflow : Kind := within arithmetic "overflow"

/-- What happens at run time, of no other kind. -/
def runtime : Kind := within any "runtime"

/-- What is left to others to say. -/
def unsupported : Kind := within runtime "unsupported"

/-- The other end of a channel has gone away. -/
def channelClosed : Kind := within any "channel closed"

/-- Nothing is buffered in a channel. -/
def channelEmpty : Kind := within any "channel empty"

end Kind

/-- The kind of a file error. -/
def Program.FileError.kind : Program.FileError → Kind
  | .notFound _ => .within .system "not found"
  | .isDirectory _ => .within .system "is a directory"
  | .notADirectory _ => .within .system "not a directory"
  | .notAscii .. => .decoding

/-- The kind of a fault. -/
def Fault.kind : Fault → Kind
  | .outOfBounds _ => .within .fault "out of bounds"
  | .unrecognizedOpcode _ => .within .fault "unrecognized opcode"
  | .unrecognizedMode _ => .within .fault "unrecognized parameter mode"
  | .console _ => .input
  | .inputClosed => .within .input "closed"
  | .outputClosed => .within .output "closed"
  | .overlong _ => .value

/-- The kind of a rejection. -/
def Program.Rejection.kind : Program.Rejection → Kind
  | .malformed _ => .parse
  | .overlong _ => .value

/-- The kind of a refusal of a channel. -/
def ChannelError.kind : ChannelError → Kind
  | .empty => .channelEmpty
  | _ => .channelClosed

/-- The kind of an error.  A run that is not over has come to no error yet. -/
def Error.kind? : Error → Option Kind
  | .parse e => some e.kind
  | .file e => some e.kind
  | .binding _ => some .binding
  | .fault f => some f.kind
  | .channel e => some e.kind
  | .noValueWithin _ => some .timeout
  | .stillRunning .. => some .timeout
  | .someStillRunning .. => some .timeout
  | .emptyPhaseSet => some .value
  | .noSignal => some .value
  | .badTurn _ => some .value
  | .noPair _ => some .lookup
  | .noAnswer => some .unsupported
  | .unfitIndex => some .overflow
  | .noMember _ => some .index
  | .zeroStep => some .value
  | .notAnInteger _ => some .value
  | .overlong _ => some .value
  | .noCharacter => some .value
  | .notAPatch _ => some .value
  | .unknownName _ => some .key
  | .unfinished => none

end Intcode
