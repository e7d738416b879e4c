import Intcode.Text.Digit
import Intcode.Text.Quoted

namespace Intcode.CommandLine

/-!
# Command line grammars

A grammar says which options and positional arguments a command takes; `Grammar.read` reads the
words of a command line by it.  What has been read so far is a value of type `σ`, which each
option and argument changes.

Words are told apart first.  A word with a leading `-` is an option, unless it is a plain negative
number or holds a space; after a lone `--` every word is an argument.  A long option may be
shortened as long as only one option begins that way, and may carry its value behind `=`; options
of one letter may be joined, and the last one may carry its value at once.

* `Grammar`         — the options and arguments of a command
* `classify`        — what kind of word a word is
* `Grammar.read`    — reads the words of a command line
-/

/-- Why a command line is not carried out. -/
inductive Stop where
  /-- How to use the command was asked for. -/
  | help
  /-- The version was asked for. -/
  | version
  /-- A command line of the named program is refused. -/
  | refused (program message : String)
  deriving Repr, DecidableEq

/-- What an option does. -/
inductive Action (σ : Type) where
  /-- It stands alone. -/
  | flag (apply : σ → σ)
  /-- It takes a value, which it may refuse. -/
  | value (apply : String → σ → Except String σ)
  /-- It ends the reading. -/
  | stop (why : Stop)

/-- An option with its names. -/
structure Opt (σ : Type) where
  names : List String
  action : Action σ

/-- What a positional argument takes. -/
inductive Slot (σ : Type) where
  /-- One word, which it may refuse. -/
  | word (apply : String → σ → Except String σ)
  /-- A word and everything behind it, options included. -/
  | rest (apply : String → List String → σ → Except String σ)

/-- A positional argument with its name. -/
structure Positional (σ : Type) where
  name : String
  slot : Slot σ
  required : Bool := true

/-- The options and arguments of a command. -/
structure Grammar (σ : Type) where
  /-- What the command is called in messages. -/
  program : String
  options : List (Opt σ)
  positionals : List (Positional σ)

/-- An option found in a word: the name it goes by, and the value joined to it. -/
structure Found (σ : Type) where
  option : Opt σ
  name : String
  joined : Option String

/-- The kinds of words. -/
inductive Word (σ : Type) where
  | argument (text : String)
  /-- The first lone `--`. -/
  | separator
  /-- A word that looks like an option, with the option it is, if it is one. -/
  | option (text : String) (found : Option (Found σ))

variable {σ : Type}

/-- The text of a word. -/
def Word.text : Word σ → String
  | .argument text => text
  | .separator => "--"
  | .option text _ => text

/-- An option in a message: all of its names. -/
def Opt.title (o : Opt σ) : String := "/".intercalate o.names

/-! ### Telling words apart -/

/-- The option of a name. -/
def Grammar.named? (g : Grammar σ) (name : String) : Option (Opt σ) :=
  g.options.find? fun o => o.names.contains name

/-- Splits a text at its first `=`. -/
def splitValue (text : String) : String × Option String :=
  let cs := text.toList
  match cs.dropWhile (· != '=') with
  | [] => (text, none)
  | _ :: value => (String.ofList (cs.takeWhile (· != '=')), some (String.ofList value))

/-- The names that satisfy a condition, with their options. -/
def Grammar.namesWhere (g : Grammar σ) (p : String → Bool) : List (Opt σ × String) :=
  g.options.flatMap fun o => (o.names.filter p).map fun name => (o, name)

/-- The options a long word may be short for. -/
def Grammar.longMatches (g : Grammar σ) (text : String) : List (Found σ) :=
  let (start, value) := splitValue text
  (g.namesWhere start.isPrefixOf).map fun (o, name) => ⟨o, name, value⟩

/-- The options a word with a single dash may be: a letter with something joined to it, or the
    start of a name. -/
def Grammar.shortMatches (g : Grammar σ) (text : String) : List (Found σ) :=
  let letter := String.ofList (text.toList.take 2)
  (g.namesWhere fun name => name == letter || text.isPrefixOf name).map fun (o, name) =>
    if name == letter then ⟨o, name, some (String.ofList (text.toList.drop 2))⟩
    else ⟨o, name, none⟩

/-- The options a word may be meant as. -/
def Grammar.matches (g : Grammar σ) (text : String) : List (Found σ) :=
  if text.startsWith "--" then g.longMatches text else g.shortMatches text

/-- Digits of any script, at least one. -/
def isDigits (cs : List Char) : Bool := !cs.isEmpty && cs.all isScriptDigit

/-- A negative number without exponent: `-5`, `-1.5` or `-.5`. -/
def isNegativeNumber (text : String) : Bool :=
  match text.toList with
  | '-' :: cs =>
    -- one line feed at the end does no harm
    let cs := match cs.reverse with
      | '\n' :: front => front.reverse
      | _ => cs
    isDigits cs ||
      match cs.dropWhile isScriptDigit with
      | '.' :: part => isDigits part
      | _ => false
  | _ => false

/-- What kind of word a word in front of the separator is. -/
def Grammar.classifyWord (g : Grammar σ) (text : String) : Except Stop (Word σ) :=
  if !text.startsWith "-" || text.length == 1 then .ok (.argument text)
  else
    match g.named? text with
    | some o => .ok (.option text (some ⟨o, text, none⟩))
    | none =>
      let (name, value) := splitValue text
      match g.named? name, value with
      | some o, some value => .ok (.option text (some ⟨o, name, some value⟩))
      | _, _ =>
        match g.matches text with
        | [found] => .ok (.option text (some found))
        | [] =>
          if isNegativeNumber text || text.contains ' ' then .ok (.argument text)
          else .ok (.option text none)
        | several =>
          .error <| .refused g.program <|
            s!"ambiguous option: {text} could match " ++ ", ".intercalate (several.map Found.name)

/-- What kind of words the words of a command line are. -/
def Grammar.classify (g : Grammar σ) : List String → Except Stop (List (Word σ))
  | [] => .ok []
  | "--" :: words => .ok (.separator :: words.map .argument)
  | text :: words => do
    let word ← g.classifyWord text
    let words ← g.classify words
    return word :: words

/-! ### Reading -/

/-- How far the reading has got. -/
structure Reading (σ : Type) where
  state : σ
  /-- The positional arguments not met yet. -/
  missing : List (Positional σ)
  /-- The words nothing is known about, the last one first. -/
  unknown : List String := []

/-- A refusal that names an option or argument. -/
def Grammar.refuse {α : Type} (g : Grammar σ) (title message : String) : Except Stop α :=
  .error (.refused g.program s!"argument {title}: {message}")

/-- Takes the value of an option. -/
def Grammar.take (g : Grammar σ) (o : Opt σ) (apply : String → σ → Except String σ)
    (value : String) (s : σ) : Except Stop σ :=
  match apply value s with
  | .ok s => .ok s
  | .error message => g.refuse o.title message

/-- The options joined in one word: those in front, which stand alone, and the last one with the
    value joined to it.  After an option that stands alone, what is joined to it is more options
    of one letter. -/
def Grammar.unjoin (g : Grammar σ) (o : Opt σ) (name : String) (cs : List Char) :
    Except Stop (List (Opt σ) × Opt σ × Option String) :=
  match o.action, cs with
  | .value _, cs => .ok ([], o, some (String.ofList cs))
  | _, [] => g.refuse o.title s!"ignored explicit argument {Quoted.renderChars []}"
  | _, c :: rest =>
    let next := String.ofList ['-', c]
    match name.startsWith "--", g.named? next with
    | false, some last =>
      if rest.isEmpty then .ok ([o], last, none)
      else (g.unjoin last next rest).map fun (front, last) => (o :: front, last)
    | _, _ => g.refuse o.title s!"ignored explicit argument {Quoted.renderChars (c :: rest)}"

/-- Does what options that stand alone do. -/
def applyFlags (s : σ) : List (Opt σ) → Except Stop σ
  | [] => .ok s
  | o :: rest =>
    match o.action with
    | .flag apply => applyFlags (apply s) rest
    | .stop why => .error why
    | .value _ => applyFlags s rest

/-- Does what an option does, given the value joined to it and the words behind it; answers with the
    words left. -/
def Grammar.apply (g : Grammar σ) (o : Opt σ) (joined : Option String) (words : List (Word σ))
    (s : σ) : Except Stop (σ × List (Word σ)) :=
  match o.action, joined, words with
  | .flag apply, _, words => .ok (apply s, words)
  | .stop why, _, _ => .error why
  | .value apply, some value, words => (g.take o apply value s).map (·, words)
  | .value apply, none, .argument value :: words => (g.take o apply value s).map (·, words)
  | .value _, none, _ => g.refuse o.title "expected one argument"

/-- Does what the options in a word do, given the words behind it; answers with the words left. -/
def Grammar.applyWord (g : Grammar σ) (found : Found σ) (words : List (Word σ)) (s : σ) :
    Except Stop (σ × List (Word σ)) :=
  match found.joined with
  | none => g.apply found.option none words s
  | some text => do
    let (front, last, value) ← g.unjoin found.option found.name text.toList
    let s ← applyFlags s front
    g.apply last value words s

/-- Drops the separator from the front of the words left. -/
def dropSeparator : List (Word σ) → List (Word σ)
  | .separator :: words => words
  | words => words

/-- Gives words to the next positional argument; answers with the words left. -/
def Grammar.positional (g : Grammar σ) (p : Positional σ) (separated : Bool) (value : String)
    (words : List (Word σ)) (s : σ) : Except Stop (σ × List (Word σ)) :=
  let result := match p.slot with
    | .word apply => (apply value s).map (·, dropSeparator words)
    | .rest apply =>
      -- a separator in front counts as the word
      let texts := words.map Word.text
      let taken := if separated then apply "--" (value :: texts) s else apply value texts s
      taken.map (·, [])
  match result with
  | .ok r => .ok r
  | .error message => g.refuse p.name message

/-- The words up to the next option, and the words from there on. -/
def untilOption : List (Word σ) → List String × List (Word σ)
  | [] => ([], [])
  | .option text found :: words => ([], .option text found :: words)
  | word :: words =>
    let (texts, rest) := untilOption words
    (word.text :: texts, rest)

/-- Reads the words one after the other, at most `fuel` groups of them. -/
def Grammar.readFrom (g : Grammar σ) : Nat → List (Word σ) → Reading σ → Except Stop (Reading σ)
  | 0, _, r => .ok r
  | _ + 1, [], r => .ok r
  | fuel + 1, .option text none :: words, r =>
    g.readFrom fuel words { r with unknown := text :: r.unknown }
  | fuel + 1, .option _ (some found) :: words, r => do
    let (state, words) ← g.applyWord found words r.state
    g.readFrom fuel words { r with state }
  | fuel + 1, words, r => do
    match r.missing, words with
    | p :: missing, .argument value :: words =>
      let (state, words) ← g.positional p false value words r.state
      g.readFrom fuel words { r with state, missing }
    | p :: missing, .separator :: .argument value :: words =>
      let (state, words) ← g.positional p true value words r.state
      g.readFrom fuel words { r with state, missing }
    | _, words =>
      let (texts, words) := untilOption words
      g.readFrom fuel words { r with unknown := texts.reverse ++ r.unknown }

/-- Reads the words of a command line; answers with what has been read and the words nothing is
    known about. -/
def Grammar.read (g : Grammar σ) (args : List String) (s : σ) : Except Stop (σ × List String) := do
  let words ← g.classify args
  let r ← g.readFrom (words.length + 1) words { state := s, missing := g.positionals }
  match (r.missing.filter Positional.required).map Positional.name with
  | [] => return (r.state, r.unknown.reverse)
  | names =>
    .error <| .refused g.program <|
      "the following arguments are required: " ++ ", ".intercalate names

end Intcode.CommandLine
