import Mathlib.Data.List.TakeWhile
import Intcode.Console
import Intcode.Proofs.Text.Literal

namespace Intcode

open Numeral (IsDigit Literal)

/-!
# Values on lines

Values are typed in at a console, each in its decimal form on a line of its own.  Every request
gives the next of them, whatever its sign, until the text is used up; only a value with too many
digits is refused, and its line is used up like any other.

* `OnLines`                  — the values that stand on the lines of a text
* `typedValue`               — what the line of a value is read as
* `lineValue_ofInt`          — a line with a decimal form is read like this
* `Console.read_of_onLines_cons`, `Console.read_of_onLines_nil` — a request, and one too late
-/

/-- Each value stands in its decimal form on a line of its own.  The last line may lack its line
    feed. -/
inductive OnLines : List Char → List Int → Prop where
  | nil : OnLines [] []
  | last (v : Int) : OnLines (Decimal.ofInt v).toList [v]
  | cons (v : Int) {cs : List Char} {vs : List Int} (hmore : OnLines cs vs) :
    OnLines ((Decimal.ofInt v).toList ++ '\n' :: cs) (v :: vs)

/-- The values in their decimal forms, each followed by a line feed. -/
def Decimal.lines (vs : List Int) : String := String.join (vs.map fun v => ofInt v ++ "\n")

/-- What the line of a value is read as: the value, unless it has too many digits. -/
def typedValue (v : Int) : Except Fault Int :=
  if Decimal.isWritable v then .ok v else .error (.overlong (.read (Decimal.digitCount v)))

variable {cs l : List Char} {v : Int} {vs : List Int}

/-! ### The decimal form on a line -/

/-- A decimal form is made of digits and minus signs. -/
theorem mem_ofInt (v : Int) {c : Char} (hc : c ∈ (Decimal.ofInt v).toList) :
    c = '-' ∨ IsDigit c :=
  (Numeral.literal_ofInt v).mem hc

theorem ofInt_ne_nil (v : Int) : (Decimal.ofInt v).toList ≠ [] := (Numeral.literal_ofInt v).ne_nil

/-- No digit is blank. -/
theorem isBlank_of_isDigit {c : Char} (hc : IsDigit c) : isBlank c = false := by
  have hlow : 48 ≤ c.toNat := hc.1
  have hhigh : c.toNat ≤ 57 := hc.2
  simp [isBlank]
  omega

/-- There is no blank in a decimal form. -/
theorem isBlank_ofInt (v : Int) {c : Char} (hc : c ∈ (Decimal.ofInt v).toList) :
    isBlank c = false := by
  rcases mem_ofInt v hc with rfl | hdigit
  · decide
  · exact isBlank_of_isDigit hdigit

/-- There is no line feed in a decimal form. -/
theorem ne_lineFeed_ofInt (v : Int) {c : Char} (hc : c ∈ (Decimal.ofInt v).toList) :
    (c != '\n') = true := by
  rw [bne_iff_ne]
  rintro rfl
  exact absurd (isBlank_ofInt v hc) (by decide)

/-- A text without blanks stays as it is when it is trimmed. -/
theorem trim_eq_self (hl : ∀ c ∈ l, isBlank c = false) : trim l = l := by
  have hkeep : ∀ {cs : List Char}, (∀ c ∈ cs, isBlank c = false) → cs.dropWhile isBlank = cs := by
    intro cs hcs
    cases cs with
    | nil => rfl
    | cons c cs => exact List.dropWhile_cons_of_neg (by rw [hcs c List.mem_cons_self]; decide)
  unfold trim trimBy dropTrailing
  rw [hkeep hl, hkeep fun c hc => hl c (List.mem_reverse.1 hc), List.reverse_reverse]

/-- **A line that holds a decimal form** is read as its value, unless that has too many digits. -/
theorem lineValue_ofInt (v : Int) : lineValue (Decimal.ofInt v).toList = typedValue v := by
  have hread := Numeral.ofChars?_of_literal (Numeral.literal_ofInt v)
  rw [Numeral.unsigned_ofInt] at hread
  unfold lineValue typedValue Decimal.isWritable
  dsimp only
  rw [trim_eq_self fun c hc => isBlank_ofInt v hc, hread]
  by_cases hshort : Decimal.digitCount v ≤ digitLimit
  · rw [if_pos (decide_eq_true hshort)]
    exact if_neg (Nat.not_lt.2 hshort)
  · rw [if_neg (by rwa [decide_eq_true_iff])]
    exact if_pos (Nat.lt_of_not_le hshort)

/-! ### The first line of a text -/

/-- A line ends at its line feed. -/
theorem takeLine_append (hl : ∀ c ∈ l, (c != '\n') = true) (rest : List Char) :
    takeLine (l ++ '\n' :: rest) = (l, rest) := by
  unfold takeLine
  rw [List.takeWhile_append_of_pos hl, List.dropWhile_append_of_pos hl]
  simp

/-- The last line may end with the text. -/
theorem takeLine_eq_self (hl : ∀ c ∈ l, (c != '\n') = true) : takeLine l = (l, []) := by
  unfold takeLine
  rw [List.takeWhile_eq_self_iff.2 hl, List.dropWhile_eq_nil_iff.2 hl]
  rfl

/-! ### Texts of lines -/

/-- A text on whose lines there is no value is empty. -/
theorem OnLines.eq_nil (h : OnLines cs []) : cs = [] := by
  cases h
  rfl

/-- The first line of a text holds the first value. -/
theorem OnLines.takeLine (h : OnLines cs (v :: vs)) :
    cs ≠ [] ∧ ∃ rest, takeLine cs = ((Decimal.ofInt v).toList, rest) ∧ OnLines rest vs := by
  cases h with
  | last => exact ⟨ofInt_ne_nil v, [], takeLine_eq_self fun c hc => ne_lineFeed_ofInt v hc, .nil⟩
  | cons _ hmore =>
    exact ⟨List.append_ne_nil_of_right_ne_nil _ (List.cons_ne_nil _ _), _,
      takeLine_append (fun c hc => ne_lineFeed_ofInt v hc) _, hmore⟩

namespace Console

variable {c : Console}

/-! ### Requests -/

/-- Every request writes one prompt. -/
theorem prompts_read (c : Console) : c.read.2.prompts = c.prompts + 1 := by
  unfold read
  dsimp only
  split
  · rfl
  · split <;> rfl

/-- **A request reads the value on the next line.** -/
theorem read_of_onLines_cons (hopen : c.closed = false) (h : OnLines c.unread (v :: vs)) :
    ∃ rest, c.read = (typedValue v, { c with prompts := c.prompts + 1, unread := rest }) ∧
      OnLines rest vs := by
  obtain ⟨hne, rest, hline, hmore⟩ := h.takeLine
  refine ⟨rest, ?_, hmore⟩
  obtain ⟨unread, closed, prompts, outputs⟩ := c
  dsimp only at hopen hne hline
  subst hopen
  cases unread with
  | nil => exact absurd rfl hne
  | cons ch cs =>
    simp only [read, hline, lineValue_ofInt]
    rfl

/-- **A request when all lines have been read** finds the end of the input. -/
theorem read_of_onLines_nil (hopen : c.closed = false) (h : OnLines c.unread []) :
    c.read = (.error (.console .endOfInput), { c with prompts := c.prompts + 1 }) := by
  have hempty := h.eq_nil
  obtain ⟨unread, closed, prompts, outputs⟩ := c
  dsimp only at hopen hempty
  subst hopen hempty
  rfl

end Console

end Intcode
