import Intcode.Program.Parse

namespace Intcode.Program

/-!
# Program files

A program file holds ASCII text.  Bytes are decoded first, so a byte outside ASCII is reported even
behind malformed text; then the line ends CRLF and CR are read as LF; then the text is parsed.

* `decodeAscii`       — the characters of an ASCII file
* `unifyLineEnds`     — one kind of line end
* `parseFile`         — the cells in a file's bytes
* `Directory`         — named files, as a program finds them
* `Directory.load`    — the cells in a named file
-/

/-- Why a file gave no text. -/
inductive FileError where
  | notFound (path : String)
  | isDirectory (path : String)
  /-- A step of the path goes through a file. -/
  | notADirectory (path : String)
  /-- The byte at `position` is no ASCII character. -/
  | notAscii (byte : UInt8) (position : Nat)
  deriving Repr, DecidableEq

/-- The wording of a file error. -/
def FileError.message : FileError → String
  | .notFound path => s!"[Errno 2] No such file or directory: {Quoted.render path}"
  | .isDirectory path => s!"[Errno 21] Is a directory: {Quoted.render path}"
  | .notADirectory path => s!"[Errno 20] Not a directory: {Quoted.render path}"
  | .notAscii byte position =>
    s!"'ascii' codec can't decode byte 0x{String.ofList (Quoted.hexDigits 2 byte.toNat)} " ++
      s!"in position {position}: ordinal not in range(128)"

/-- Why a file gave no program. -/
inductive LoadError where
  | file (e : FileError)
  | parse (e : Rejection)
  deriving Repr, DecidableEq

/-! ### From bytes to cells -/

/-- Decodes ASCII, with `position` bytes before `bytes` and the characters `done` read from them,
    last first. -/
def decodeAsciiFrom (position : Nat) (done : List Char) : List UInt8 → Except FileError (List Char)
  | [] => .ok done.reverse
  | b :: bytes =>
    if b < 0x80 then decodeAsciiFrom (position + 1) (Char.ofUInt8 b :: done) bytes
    else .error (.notAscii b position)

/-- The characters of an ASCII file. -/
def decodeAscii (bytes : List UInt8) : Except FileError (List Char) := decodeAsciiFrom 0 [] bytes

/-- Reads CRLF and CR as LF, behind the characters `done`, last first. -/
def unifyLineEndsFrom (done : List Char) : List Char → List Char
  | [] => done.reverse
  | '\r' :: '\n' :: cs => unifyLineEndsFrom ('\n' :: done) cs
  | '\r' :: cs => unifyLineEndsFrom ('\n' :: done) cs
  | c :: cs => unifyLineEndsFrom (c :: done) cs

/-- Reads CRLF and CR as LF. -/
def unifyLineEnds (cs : List Char) : List Char := unifyLineEndsFrom [] cs

/-- The cells in the bytes of a program file. -/
def parseFile (bytes : List UInt8) : Except LoadError (List Int) :=
  match decodeAscii bytes with
  | .error e => .error (.file e)
  | .ok cs => (parseChars (unifyLineEnds cs)).mapError .parse

/-! ### Named files -/

/-- The steps of a path; empty and `.` steps lead nowhere. -/
def pathSteps (path : String) : List String :=
  (path.splitOn "/").filter fun s => s != "" && s != "."

/-- Where a path starts: one leading slash counts as one, exactly two as two, and more as one. -/
def pathRoot (path : String) : String :=
  match path.toList with
  | '/' :: '/' :: '/' :: _ => "/"
  | '/' :: '/' :: _ => "//"
  | '/' :: _ => "/"
  | _ => ""

/-- A path in its shortest spelling.  The empty path is `.`. -/
def normalPath (path : String) : String :=
  match pathRoot path, pathSteps path with
  | "", [] => "."
  | root, steps => root ++ "/".intercalate steps

/-- A path as a list of its root, if it has one, and its steps. -/
def pathKey (path : String) : List String :=
  match pathRoot path with
  | "" => pathSteps path
  | root => root :: pathSteps path

/-- A directory: its files by the steps that lead to them, with their bytes. -/
structure Directory where
  files : List (List String × List UInt8) := []

/-- What lies at the end of a path. -/
inductive Entry where
  | file (bytes : List UInt8)
  | directory
  | nothing
  /-- The path goes through a file. -/
  | throughFile
  deriving Repr, DecidableEq

namespace Directory

/-- The directory that holds named files. -/
def ofFiles (files : List (String × List UInt8)) : Directory :=
  ⟨files.map fun (name, bytes) => (pathKey name, bytes)⟩

/-- What some plain steps lead to: there is a directory where some file lies further on. -/
def entry (d : Directory) (steps : List String) : Entry :=
  match d.files.lookup steps with
  | some bytes => .file bytes
  | none =>
    if steps.isEmpty || d.files.any fun (name, _) => steps.isPrefixOf name then .directory
    else .nothing

/-- Follows steps from `here`; `..` leads back.  Outside the directory only the directories above it
    are known. -/
def locate (d : Directory) (here : List String) : List String → Entry
  | [] => d.entry here
  | step :: steps =>
    match d.entry here with
    | .directory =>
      if step = ".." then
        if here.isEmpty then
          if steps.all (· == "..") then .directory else .nothing
        else d.locate here.dropLast steps
      else d.locate (here ++ [step]) steps
    | .file _ => .throughFile
    | e => e

/-- What lies at the end of a path.  A path that leads nowhere straight on is followed step by
    step; of the absolute ones among them only the root is known. -/
def find (d : Directory) (path : String) : Entry :=
  match d.entry (pathKey path) with
  | .nothing =>
    match pathRoot path, pathSteps path with
    | "", steps => d.locate [] steps
    | _, [] => .directory
    | _, _ => .nothing
  | e => e

/-- The bytes of a file. -/
def read (d : Directory) (path : String) : Except FileError (List UInt8) :=
  match d.find path with
  | .file bytes => .ok bytes
  | .directory => .error (.isDirectory (normalPath path))
  | .throughFile => .error (.notADirectory (normalPath path))
  | .nothing => .error (.notFound (normalPath path))

/-- The cells in a named file. -/
def load (d : Directory) (path : String) : Except LoadError (List Int) :=
  match d.read path with
  | .error e => .error (.file e)
  | .ok bytes => parseFile bytes

end Directory

end Intcode.Program
