namespace Intcode

/-!
# Blank characters

The characters with the Unicode property `White_Space`, and the four information separators that
line-oriented readers treat alike.  Trimming removes them from the ends of a text.

* `isBlank`   — the table
* `trimBy`, `trim`  — drops some characters, or the blanks, at both ends
* `dropTrailingSpaces` — drops plain spaces at the end of a row of a picture
-/

/-- The blank characters: the Unicode white space and the information separators
    `U+001C` to `U+001F`. -/
def isBlank (c : Char) : Bool :=
  let n := c.toNat
  (0x09 ≤ n && n ≤ 0x0D) || (0x1C ≤ n && n ≤ 0x20) || n == 0x85 || n == 0xA0 || n == 0x1680 ||
    (0x2000 ≤ n && n ≤ 0x200A) || n == 0x2028 || n == 0x2029 || n == 0x202F || n == 0x205F ||
    n == 0x3000

/-- Drops the characters satisfying `p` from the end of a text. -/
def dropTrailing (p : Char → Bool) (cs : List Char) : List Char :=
  (cs.reverse.dropWhile p).reverse

/-- What has been dropped are the characters at the end that satisfy `p`. -/
theorem dropTrailing_append (p : Char → Bool) (cs : List Char) :
    dropTrailing p cs ++ (cs.reverse.takeWhile p).reverse = cs := by
  rw [dropTrailing, ← List.reverse_append, List.takeWhile_append_dropWhile, List.reverse_reverse]

/-- What is left does not end in such a character. -/
theorem not_of_mem_getLast?_dropTrailing {p : Char → Bool} {cs : List Char} {c : Char}
    (hc : c ∈ (dropTrailing p cs).getLast?) : p c = false := by
  have hstop := List.head?_dropWhile_not p cs.reverse
  rw [dropTrailing, List.getLast?_reverse, Option.mem_def] at hc
  rw [hc] at hstop
  exact hstop

/-- Drops the characters satisfying `p` at both ends. -/
def trimBy (p : Char → Bool) (cs : List Char) : List Char := dropTrailing p (cs.dropWhile p)

/-- Drops blanks at both ends. -/
def trim (cs : List Char) : List Char := trimBy isBlank cs

/-- Drops the spaces at the end of a row. -/
def dropTrailingSpaces (cs : List Char) : List Char := dropTrailing (· == ' ') cs

end Intcode
