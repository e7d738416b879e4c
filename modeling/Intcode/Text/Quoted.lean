import Intcode.Text.Printable

namespace Intcode.Quoted

/-!
# Quoted text

How a message quotes a text from its input: between apostrophes, or between double quotes if the
text holds an apostrophe and no double quote.  The backslash and the quote in use are written
behind a backslash, line feed, carriage return and tab as `\n`, `\r` and `\t`, and every other
character that does not print as the number of its code point.

* `renderChar`  — one character
* `render`      — the quoted form
-/

/-- The last `width` hexadecimal digits of a number, in lower case. -/
def hexDigits (width n : Nat) : List Char :=
  let digits := Nat.toDigits 16 n
  List.replicate (width - digits.length) '0' ++ digits

/-- The code point of a character behind the escape of the shortest width that holds it. -/
def codePoint (c : Char) : List Char :=
  let n := c.toNat
  if n < 0x100 then '\\' :: 'x' :: hexDigits 2 n
  else if n < 0x10000 then '\\' :: 'u' :: hexDigits 4 n
  else '\\' :: 'U' :: hexDigits 8 n

/-- One character inside quotes of the kind `quote`. -/
def renderChar (quote c : Char) : List Char :=
  if c == '\\' || c == quote then ['\\', c]
  else if c == '\n' then ['\\', 'n']
  else if c == '\r' then ['\\', 'r']
  else if c == '\t' then ['\\', 't']
  else if isPrintable c then [c]
  else codePoint c

/-- The quote a text is written in: apostrophes unless it holds one and no double quote. -/
def quoteFor (cs : List Char) : Char :=
  if cs.contains '\x27' && !cs.contains '"' then '"' else '\x27'

/-- The quoted form of a text given by its characters. -/
def renderChars (cs : List Char) : String :=
  let quote := quoteFor cs
  String.ofList (quote :: cs.flatMap (renderChar quote) ++ [quote])

/-- The quoted form of a text. -/
def render (s : String) : String := renderChars s.toList

end Intcode.Quoted
