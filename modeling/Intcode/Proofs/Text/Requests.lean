import Intcode.Proofs.Text.Lines

namespace Intcode

open Numeral (Literal IsShort)

/-!
# Requests at a console

A console asks for values one after another.  The text it reads is cut into lines at its line feeds
only, and each request writes a prompt and uses up one line, whatever is on it: what it answers does
not depend on the lines before and behind.  When there is no line left, it answers that the input
has come to its end.

A literal with too many digits is on its line as it should be, yet its value is not converted.  The
refusal tells of the conversion then, and not of the input.

* `linesOf`                — the lines of a text
* `Trimmed`, `trimmed_trim` — a text without the blanks around it
* `Answers`                — what a request answers, told from the next line
* `Console.answers_read`   — one request
* `Console.readMany_spec`  — any number of requests
* `Console.readMany_longLine` — a literal that is not converted
-/

/-- The lines of a text, each with the line feed that ends it.  The last one may lack it. -/
def linesOf : List Char → List (List Char)
  | [] => []
  | c :: cs =>
    if c = '\n' then [c] :: linesOf cs
    else
      match linesOf cs with
      | [] => [[c]]
      | l :: ls => (c :: l) :: ls

/-- The text is the line without the blanks around it. -/
structure Trimmed (line text : List Char) : Prop where
  surrounded : ∃ front back, line = front ++ text ++ back ∧
    (∀ c ∈ front, isBlank c = true) ∧ ∀ c ∈ back, isBlank c = true
  first : ∀ c ∈ text.head?, isBlank c = false
  last : ∀ c ∈ text.getLast?, isBlank c = false

/-- What a request answers to the next line, or when there is none. -/
inductive Answers : Option (List Char) → Except Fault Int → Prop where
  /-- A short literal with blanks around it gives its value, a longer one is not converted, and any
      other text is refused. -/
  | line {l text : List Char} {r : Except Fault Int} (htrimmed : Trimmed l text)
      (hvalue : ∀ v, r = .ok v ↔ Literal text v ∧ IsShort text)
      (hoverlong : ∀ v, Literal text v → ¬IsShort text →
        r = .error (.overlong (.read (Numeral.unsigned text).length)))
      (hrefused : (∀ v, ¬Literal text v) →
        r = .error (.console (.notAnInteger (String.ofList text)))) :
      Answers (some l) r
  | ended : Answers none (.error (.console .endOfInput))

variable {cs l line text back : List Char}

/-! ### Lines -/

/-- The lines are the whole text. -/
theorem flatten_linesOf (cs : List Char) : (linesOf cs).flatten = cs := by
  induction cs with
  | nil => rfl
  | cons c cs ih =>
    rw [linesOf]
    split
    · rw [List.flatten_cons, ih]
      rfl
    · split
      · rename_i hnil
        rw [hnil] at ih
        rw [← ih]
        rfl
      · rename_i l ls hcons
        rw [hcons] at ih
        rw [← ih]
        rfl

/-- The first line is what is taken from a text, with its line feed if there is one. -/
theorem linesOf_eq (hne : cs ≠ []) :
    ∃ back, linesOf cs = ((takeLine cs).1 ++ back) :: linesOf (takeLine cs).2 ∧
      ∀ c ∈ back, c = '\n' := by
  induction cs with
  | nil => exact absurd rfl hne
  | cons c cs ih =>
    by_cases hc : c = '\n'
    · subst hc
      have htake : takeLine ('\n' :: cs) = ([], cs) := takeLine_append (l := []) nofun cs
      rw [htake]
      exact ⟨['\n'], rfl, fun c hc => List.mem_singleton.1 hc⟩
    · have htake : takeLine (c :: cs) = (c :: (takeLine cs).1, (takeLine cs).2) := by
        simp [takeLine, hc]
      rw [htake, linesOf, if_neg hc]
      by_cases hcs : cs = []
      · subst hcs
        exact ⟨[], rfl, nofun⟩
      · obtain ⟨back, hlines, hback⟩ := ih hcs
        rw [hlines]
        exact ⟨back, rfl, hback⟩

/-! ### Blanks around a text -/

/-- What follows the blanks at the front does not begin with one. -/
theorem isBlank_of_head?_dropWhile {c : Char} (hc : c ∈ (cs.dropWhile isBlank).head?) :
    isBlank c = false := by
  have hstop := List.head?_dropWhile_not isBlank cs
  rw [Option.mem_def.1 hc] at hstop
  exact hstop

/-- **Trimming drops the blanks at both ends of a line**, and no other characters. -/
theorem trimmed_trim (line : List Char) : Trimmed line (trim line) := by
  have hback := dropTrailing_append isBlank (line.dropWhile isBlank)
  refine ⟨⟨line.takeWhile isBlank, ((line.dropWhile isBlank).reverse.takeWhile isBlank).reverse,
    ?_, ?_, ?_⟩, ?_, ?_⟩
  · rw [List.append_assoc, trim, trimBy, hback, List.takeWhile_append_dropWhile]
  · exact fun c hc => List.all_eq_true.1 List.all_takeWhile c hc
  · exact fun c hc => List.all_eq_true.1 List.all_takeWhile c (List.mem_reverse.1 hc)
  · intro c hc
    -- nothing stands before the text when the blanks at the front have been dropped
    obtain ⟨cs, hcs⟩ := List.head?_eq_some_iff.1 (Option.mem_def.1 hc)
    have hhead : c ∈ (line.dropWhile isBlank).head? := by
      rw [← hback, show dropTrailing isBlank (line.dropWhile isBlank) = c :: cs from hcs]
      rfl
    exact isBlank_of_head?_dropWhile hhead
  · exact fun c hc => not_of_mem_getLast?_dropTrailing hc

/-- More blanks behind a line make no difference. -/
theorem Trimmed.append (htrimmed : Trimmed line text) (hback : ∀ c ∈ back, isBlank c = true) :
    Trimmed (line ++ back) text := by
  obtain ⟨⟨front, back', rfl, hfront, hback'⟩, hfirst, hlast⟩ := htrimmed
  refine ⟨⟨front, back' ++ back, ?_, hfront, ?_⟩, hfirst, hlast⟩
  · rw [List.append_assoc (front ++ text)]
  · exact fun c hc => (List.mem_append.1 hc).elim (hback' c) (hback c)

/-- A text is a literal, or is none. -/
theorem lineValue_eq (line : List Char) :
    (∃ v, Literal (trim line) v ∧ lineValue line = if IsShort (trim line) then .ok v
      else .error (.overlong (.read (Numeral.unsigned (trim line)).length))) ∨
    (∀ v, ¬Literal (trim line) v) ∧
      lineValue line = .error (.console (.notAnInteger (String.ofList (trim line)))) := by
  unfold lineValue
  dsimp only
  cases hread : Numeral.ofChars? (trim line) with
  | some scan =>
    obtain ⟨hliteral, hscan⟩ := Numeral.ofChars?_eq_some_iff.1 hread
    rw [hscan]
    refine .inl ⟨scan.value, hliteral, ?_⟩
    simp only [IsShort, ← Nat.not_lt, ite_not]
  | none => exact .inr ⟨Numeral.ofChars?_eq_none_iff.1 hread, rfl⟩

/-- The integer on a line is read as a request should answer. -/
theorem answers_lineValue (hback : ∀ c ∈ back, isBlank c = true) :
    Answers (some (line ++ back)) (lineValue line) := by
  have htrimmed := (trimmed_trim line).append hback
  rcases lineValue_eq line with ⟨v, hliteral, heq⟩ | ⟨hno, heq⟩
  · rw [heq]
    by_cases hshort : IsShort (trim line)
    · rw [if_pos hshort]
      refine .line htrimmed (fun w => ?_) (fun _ _ h => absurd hshort h)
        fun hno => absurd hliteral (hno v)
      rw [Except.ok.injEq]
      constructor
      · rintro rfl
        exact ⟨hliteral, hshort⟩
      · exact fun h => hliteral.unique h.1
    · rw [if_neg hshort]
      exact .line htrimmed (fun w => ⟨nofun, fun h => absurd h.2 hshort⟩) (fun _ _ _ => rfl)
        fun hno => absurd hliteral (hno v)
  · rw [heq]
    exact .line htrimmed (fun v => ⟨nofun, fun h => absurd h.1 (hno v)⟩)
      (fun v h _ => absurd h (hno v)) fun _ => rfl

namespace Console

variable {c : Console}

/-! ### Requests -/

/-- **A request answers the next line and uses it up.** -/
theorem answers_read (hopen : c.closed = false) :
    Answers (linesOf c.unread)[0]? c.read.1 ∧ linesOf c.read.2.unread = (linesOf c.unread).drop 1 ∧
      c.read.2.closed = false := by
  obtain ⟨cs, closed, prompts, outputs⟩ := c
  dsimp only at hopen
  subst hopen
  cases cs with
  | nil => exact ⟨.ended, rfl, rfl⟩
  | cons ch cs =>
    obtain ⟨back, hlines, hback⟩ := linesOf_eq (List.cons_ne_nil ch cs)
    have hblank : ∀ c ∈ back, isBlank c = true := by
      intro c hc
      rw [hback c hc]
      rfl
    dsimp only
    rw [hlines]
    exact ⟨answers_lineValue hblank, rfl, rfl⟩

theorem readMany_succ (c : Console) (n : Nat) :
    c.readMany (n + 1) = (c.read.1 :: (c.read.2.readMany n).1, (c.read.2.readMany n).2) := rfl

/-- Requests at a console that is open: as many answers and as many prompts, and each of them uses
    up a line. -/
theorem answers_readMany (hopen : c.closed = false) (n : Nat) :
    (c.readMany n).1.length = n ∧ (c.readMany n).2.prompts = c.prompts + n ∧
      linesOf (c.readMany n).2.unread = (linesOf c.unread).drop n ∧
      ∀ (i : Nat) r, (c.readMany n).1[i]? = some r → Answers (linesOf c.unread)[i]? r := by
  induction n generalizing c with
  | zero => exact ⟨rfl, rfl, rfl, nofun⟩
  | succ n ih =>
    obtain ⟨hfirst, hrest, hopen'⟩ := answers_read hopen
    obtain ⟨hlength, hprompts, hunread, hanswers⟩ := ih hopen'
    rw [readMany_succ]
    refine ⟨congrArg (· + 1) hlength, ?_, ?_, ?_⟩
    · rw [hprompts, prompts_read, Nat.add_assoc, Nat.add_comm 1]
    · rw [hunread, hrest, List.drop_drop, Nat.add_comm 1]
    · rintro (_ | i) r hr
      · cases hr
        exact hfirst
      · have hanswer := hanswers i r hr
        rw [hrest, List.getElem?_drop, Nat.add_comm 1] at hanswer
        exact hanswer

/-- **Requests one after another.**  Whatever the text to be read, each of any number of requests
    writes one prompt and uses up one line, and what it answers is told from this line alone. -/
theorem readMany_spec (text prompt : String) (n : Nat) :
    let lines := linesOf text.toList
    let asked := (ofText text).readMany n
    asked.2.promptText prompt = String.join (List.replicate n prompt) ∧
      asked.2.unread = (lines.drop n).flatten ∧ asked.1.length = n ∧
      ∀ (i : Nat) r, asked.1[i]? = some r → Answers lines[i]? r := by
  intro lines asked
  obtain ⟨hlength, hprompts, hunread, hanswers⟩ := answers_readMany (c := ofText text) rfl n
  refine ⟨?_, ?_, hlength, hanswers⟩
  · rw [promptText, hprompts]
    exact congrArg (fun k => String.join (List.replicate k prompt)) (Nat.zero_add n)
  · rw [← flatten_linesOf asked.2.unread]
    exact congrArg List.flatten hunread

/-- A blank line is refused, a number with blanks around it is read behind it, and the last line
    may lack its line feed. -/
theorem readMany_spec_of_blank_line :
    ((ofText " \t\n 12\r\n-3").readMany 4).1 =
        [.error (.console (.notAnInteger "")), .ok 12, .ok (-3), .error (.console .endOfInput)] ∧
      ((ofText " \t\n 12\r\n-3").readMany 4).2.promptText "? " = "? ? ? ? " ∧
      Answers (some "-3".toList) (.ok (-3)) ∧ Answers none (.error (.console .endOfInput)) := by
  obtain ⟨hprompts, -, -, hanswers⟩ := readMany_spec " \t\n 12\r\n-3" "? " 4
  refine ⟨by decide +kernel, hprompts.trans (by decide +kernel), ?_, ?_⟩
  · exact hanswers 2 _ (by decide +kernel)
  · exact hanswers 3 _ (by decide +kernel)

/-- A text of one line is answered as that line. -/
theorem readMany_of_line (hne : l ≠ []) (hl : ∀ c ∈ l, (c != '\n') = true) :
    ((ofText (String.ofList l)).readMany 1).1 = [lineValue l] := by
  have hunread : (ofText (String.ofList l)).unread = l := String.toList_ofList
  rw [readMany_succ]
  show [(ofText (String.ofList l)).read.1] = _
  unfold read
  rw [hunread]
  cases l with
  | nil => exact absurd rfl hne
  | cons c cs =>
    show [lineValue (takeLine (c :: cs)).1] = _
    rw [takeLine_eq_self hl]

/-- A line of one digit more than is converted. -/
def longLine : List Char := List.replicate (digitLimit + 1) '1'

/-- **A literal that is not converted.**  The line holds a literal, but the request gives no value;
    what it answers is not one of the failures to read the input either. -/
theorem readMany_longLine :
    ∃ v, Literal longLine v ∧
      ((ofText (String.ofList longLine)).readMany 1).1 = [.error (.overlong (.read 4301))] ∧
      ((ofText (String.ofList longLine)).readMany 1).1 ≠ [.ok v] ∧
      ∀ cause, ((ofText (String.ofList longLine)).readMany 1).1 ≠ [.error (.console cause)] := by
  obtain ⟨v, hliteral⟩ : ∃ v, Literal longLine v :=
    Numeral.exists_literal_ones (Nat.succ_pos digitLimit)
  have hlong : ¬IsShort longLine := Numeral.not_isShort_ones
  have hdigits : (Numeral.unsigned longLine).length = 4301 := Numeral.length_unsigned_ones _
  have htrim : trim longLine = longLine :=
    trim_eq_self fun c hc => isBlank_of_isDigit (Numeral.isDigit_of_mem_ones hc)
  have hfeed : ∀ c ∈ longLine, (c != '\n') = true := fun c hc => by
    rw [List.eq_of_mem_replicate hc]
    decide
  have hvalue : lineValue longLine = .error (.overlong (.read 4301)) := by
    rcases lineValue_eq longLine with ⟨_, -, heq⟩ | ⟨hno, -⟩
    · rw [htrim, if_neg hlong, hdigits] at heq
      exact heq
    · rw [htrim] at hno
      exact absurd hliteral (hno v)
  have hasked := (readMany_of_line hliteral.ne_nil hfeed).trans (congrArg (fun r => [r]) hvalue)
  rw [hasked]
  exact ⟨v, hliteral, rfl, by rintro ⟨⟩, by rintro cause ⟨⟩⟩

end Console

end Intcode
