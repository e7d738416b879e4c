import Mathlib.Data.List.Basic
import Intcode.Program.File
import Intcode.Proofs.Program.Offender

namespace Intcode.Program

open Numeral (Literal NoDigit)

/-!
# Program files and their line ends

In a file a line ends with LF, with CRLF or with a CR alone, and all three are read as LF before the
text is parsed.  So a body may be followed by any one of them.  Since no body holds a line end, no
line end stands before the place of an error, and the place is the same in the bytes of the file as
in the text that is parsed.  Nor does a line end make a literal shorter.

* `FileText`          — the texts in program files, with their cells
* `PointsInto`        — an error that points at the place where a file goes wrong
* `decodeAscii_of_isAscii`, `decodeAscii_append` — what bytes are decoded to
* `unifyLineEnds_append`, `exists_lineEnd`       — what becomes of line ends
* `literals_append`   — the reader of a body stops at a line end, if not before
* `exceeds_append_iff` — no literal goes on behind a line end
* `load_spec`         — what is read from a file
-/

/-- All bytes are ASCII characters. -/
def IsAscii (bytes : List UInt8) : Prop := ∀ b ∈ bytes, b < 0x80

instance (bytes : List UInt8) : Decidable (IsAscii bytes) := List.decidableBAll _ bytes

/-- The characters that ASCII bytes stand for. -/
def characters (bytes : List UInt8) : List Char := bytes.map Char.ofUInt8

/-- The line ends in files. -/
inductive LineEnd : List Char → Prop where
  | lf : LineEnd ['\n']
  | crlf : LineEnd ['\r', '\n']
  | cr : LineEnd ['\r']

/-- The texts in program files, with their cells: a body with at most one line end behind it. -/
inductive FileText : List Char → List Int → Prop where
  | unended {b : List Char} {cells : List Int} (hbody : Body b cells) : FileText b cells
  | ended {b ending : List Char} {cells : List Int} (hbody : Body b cells)
      (hending : LineEnd ending) : FileText (b ++ ending) cells

/-- What is left of the text in a file when its one line end is dropped. -/
inductive Unended : List Char → List Char → Prop where
  | none {b : List Char} (hlast : b.getLast? ≠ some '\n' ∧ b.getLast? ≠ some '\r') : Unended b b
  | lf {b : List Char} (hlast : b.getLast? ≠ some '\r') : Unended (b ++ ['\n']) b
  | crlf (b : List Char) : Unended (b ++ ['\r', '\n']) b
  | cr (b : List Char) : Unended (b ++ ['\r']) b

/-- A text without line ends. -/
def OneLine (cs : List Char) : Prop := ∀ c ∈ cs, c ≠ '\n' ∧ c ≠ '\r'

/-- An error points into the text of a file as it is, before any line end has been translated. -/
structure PointsInto (cs : List Char) (e : ParseError) : Prop where
  /-- There is no line end before the place of the error. -/
  before : OneLine (cs.take e.position)
  /-- The text as it is goes wrong at the same place. -/
  untranslated : ∃ e', parseChars cs = .error (.malformed e') ∧ e'.position = e.position
  blames : ∃ b, Unended cs b ∧ Blames b e.position

/-- A text that is empty or begins with a line end. -/
def Stops (cs : List Char) : Prop := ∀ c ∈ cs.head?, c = '\n' ∨ c = '\r'

variable {b cs l r r' ending : List Char} {bytes front rest : List UInt8} {cells done : List Int}
  {byte : UInt8} {digits position : Nat} {v : Int} {c : Char} {e e' : ParseError}

/-! ### From bytes to characters -/

/-- ASCII characters are read one by one. -/
theorem decodeAsciiFrom_append (hfront : IsAscii front) (position : Nat) (done : List Char)
    (rest : List UInt8) :
    decodeAsciiFrom position done (front ++ rest) =
      decodeAsciiFrom (position + front.length) ((characters front).reverse ++ done) rest := by
  induction front generalizing position done with
  | nil => rfl
  | cons c front ih =>
    rw [List.cons_append, decodeAsciiFrom, if_pos (hfront c List.mem_cons_self),
      ih (fun d hd => hfront d (List.mem_cons_of_mem _ hd)), List.length_cons]
    simp [characters, Nat.add_assoc, Nat.add_comm 1]

/-- **ASCII bytes are decoded.** -/
theorem decodeAscii_of_isAscii (hbytes : IsAscii bytes) :
    decodeAscii bytes = .ok (characters bytes) := by
  have hread := decodeAsciiFrom_append hbytes 0 [] []
  rw [List.append_nil, List.append_nil] at hread
  rw [decodeAscii, hread, decodeAsciiFrom, List.reverse_reverse]

/-- **The first byte that is none is reported**, whatever stands before it. -/
theorem decodeAscii_append (hfront : IsAscii front) (hbyte : ¬byte < 0x80) :
    decodeAscii (front ++ byte :: rest) = .error (.notAscii byte front.length) := by
  rw [decodeAscii, decodeAsciiFrom_append hfront, decodeAsciiFrom, if_neg hbyte, Nat.zero_add]

/-! ### What becomes of line ends -/

theorem unifyLineEndsFrom_append (done front cs : List Char) :
    unifyLineEndsFrom (done ++ front) cs = front.reverse ++ unifyLineEndsFrom done cs := by
  fun_induction unifyLineEndsFrom done cs with
  | case1 done => rw [unifyLineEndsFrom, List.reverse_append]
  | case2 done cs ih => rw [unifyLineEndsFrom, ← ih, List.cons_append]
  | case3 done cs hno ih => rw [unifyLineEndsFrom, ← ih, List.cons_append]; exact hno
  | case4 done c cs hno hno' ih => rw [unifyLineEndsFrom, ← ih, List.cons_append] <;> assumption

theorem unifyLineEnds_cons (hc : c ≠ '\r') : unifyLineEnds (c :: cs) = c :: unifyLineEnds cs := by
  rw [unifyLineEnds, unifyLineEndsFrom]
  · exact unifyLineEndsFrom_append [] [c] cs
  · exact fun _ hcr _ => hc hcr
  · exact hc

theorem unifyLineEnds_crlf (cs : List Char) :
    unifyLineEnds ('\r' :: '\n' :: cs) = '\n' :: unifyLineEnds cs :=
  unifyLineEndsFrom_append [] ['\n'] cs

theorem unifyLineEnds_cr (hcs : cs.head? ≠ some '\n') :
    unifyLineEnds ('\r' :: cs) = '\n' :: unifyLineEnds cs := by
  rw [unifyLineEnds, unifyLineEndsFrom]
  · exact unifyLineEndsFrom_append [] ['\n'] cs
  · rintro more rfl
    exact hcs rfl

/-- A text without line ends stays as it is. -/
theorem unifyLineEnds_append (hl : OneLine l) : unifyLineEnds (l ++ r) = l ++ unifyLineEnds r := by
  induction l with
  | nil => rfl
  | cons c l ih =>
    rw [List.cons_append, unifyLineEnds_cons (hl c List.mem_cons_self).2,
      ih fun d hd => hl d (List.mem_cons_of_mem _ hd), List.cons_append]

/-- The line end at the front of a text becomes LF. -/
theorem exists_lineEnd (hr : Stops r) :
    r = [] ∨ ∃ ending more, r = ending ++ more ∧ LineEnd ending ∧
      unifyLineEnds r = '\n' :: unifyLineEnds more := by
  cases r with
  | nil => exact .inl rfl
  | cons c cs =>
    right
    rcases hr c rfl with rfl | rfl
    · exact ⟨['\n'], cs, rfl, .lf, unifyLineEnds_cons (by decide)⟩
    · by_cases hcs : cs.head? = some '\n'
      · obtain ⟨more, rfl⟩ := List.head?_eq_some_iff.1 hcs
        exact ⟨['\r', '\n'], more, rfl, .crlf, unifyLineEnds_crlf more⟩
      · exact ⟨['\r'], cs, rfl, .cr, unifyLineEnds_cr hcs⟩

/-- No text vanishes. -/
theorem unifyLineEnds_eq_nil (hcs : unifyLineEnds cs = []) : cs = [] := by
  cases cs with
  | nil => rfl
  | cons c cs =>
    by_cases hstops : Stops (c :: cs)
    · rcases exists_lineEnd hstops with hnil | ⟨ending, more, -, -, hunified⟩
      · exact hnil
      · rw [hunified] at hcs
        cases hcs
    · have hc : c ≠ '\r' := by
        rintro rfl
        exact hstops fun _ hd => .inr (Option.some.inj hd).symm
      rw [unifyLineEnds_cons hc] at hcs
      cases hcs

/-- What stands behind a line is still no part of it when the line ends have become LF. -/
theorem stops_unifyLineEnds (hr : Stops r) : Stops (unifyLineEnds r) := by
  rcases exists_lineEnd hr with rfl | ⟨_, _, -, -, hunified⟩
  · exact nofun
  · rw [hunified]
    rintro c ⟨⟩
    exact .inl rfl

/-- A text is a line and what stands behind it. -/
theorem exists_oneLine (cs : List Char) : ∃ l r, cs = l ++ r ∧ OneLine l ∧ Stops r := by
  induction cs with
  | nil => exact ⟨[], [], rfl, nofun, nofun⟩
  | cons c cs ih =>
    by_cases hc : c ≠ '\n' ∧ c ≠ '\r'
    · obtain ⟨l, r, rfl, hl, hr⟩ := ih
      exact ⟨c :: l, r, rfl, List.forall_mem_cons.2 ⟨hc, hl⟩, hr⟩
    · refine ⟨[], c :: cs, rfl, nofun, ?_⟩
      rintro d ⟨⟩
      exact Decidable.or_iff_not_not_and_not.2 hc

/-- When line ends are dropped from the end of a text, its first line stays. -/
theorem exists_append_of_dropped (hl : OneLine l) (hr : Stops r)
    (hending : ∀ c ∈ ending, c = '\n' ∨ c = '\r') (heq : l ++ r = b ++ ending) :
    ∃ r', b = l ++ r' ∧ Stops r' := by
  rcases List.append_eq_append_iff.1 heq with ⟨r', rfl, rfl⟩ | ⟨m, rfl, rfl⟩
  · refine ⟨r', rfl, fun c hc => hr c ?_⟩
    obtain ⟨cs, rfl⟩ := List.head?_eq_some_iff.1 hc
    rfl
  · -- a character both of the line and of what has been dropped would be a line end and none
    cases m with
    | nil => exact ⟨[], by simp, nofun⟩
    | cons c cs =>
      obtain ⟨hlf, hcr⟩ := hl c (by simp)
      rcases hending c (by simp) with rfl | rfl
      · exact absurd rfl hlf
      · exact absurd rfl hcr

/-! ### Where the reader of a body stops -/

theorem noDigit_append (hcs : NoDigit cs) (hr : NoDigit r) : NoDigit (cs ++ r) := by
  cases cs with
  | nil => exact hr
  | cons c cs => exact hcs

/-- A line end is no digit. -/
theorem Stops.noDigit (hr : Stops r) : NoDigit r := by
  intro c hc
  rcases hr c hc with rfl | rfl <;> decide

/-- A line end does not make a literal of what is none. -/
theorem scan?_append_eq_none (hscan : Numeral.scan? cs = none) (hr : Stops r) :
    Numeral.scan? (cs ++ r) = none := by
  cases cs with
  | nil =>
    cases r with
    | nil => exact hscan
    | cons c r =>
      have hne : c ≠ '-' := by
        rintro rfl
        exact absurd (hr '-' rfl) (by decide)
      exact (Numeral.scan?_cons_eq_none_iff hne).2 (Numeral.noDigit_cons_iff.1 hr.noDigit)
  | cons c cs =>
    by_cases hc : c = '-'
    · subst hc
      exact Numeral.scan?_minus_eq_none_iff.2
        (noDigit_append (Numeral.scan?_minus_eq_none_iff.1 hscan) hr.noDigit)
    · exact (Numeral.scan?_cons_eq_none_iff hc).2 ((Numeral.scan?_cons_eq_none_iff hc).1 hscan)

/-- **The reader of a body stops at a line end**, if it has not stopped before. -/
theorem literals_append (hr : Stops r)
    (hread : literals position done (l ++ r) = .error (.malformed e)) :
    (∃ e', literals position done l = .error (.malformed e') ∧ e'.position = e.position) ∨
      (∃ cells, literals position done l = .ok cells) ∧ e.position = position + l.length := by
  fun_induction literals position done l with
  | case1 position done cs hscan =>
    rw [literals_of_scan?_eq_none (scan?_append_eq_none hscan hr)] at hread
    cases hread
    exact .inl ⟨_, rfl, rfl⟩
  | case2 position done cs scan hscan hlong =>
    obtain ⟨l, hliteral, rfl, -, hdigits, hrest⟩ := Numeral.scan?_eq_some_iff.1 hscan
    rw [hdigits] at hlong
    rw [List.append_assoc,
      literals_of_overlong (scan?_of_literal hliteral (noDigit_append hrest hr.noDigit)) hlong]
      at hread
    cases hread
  | case3 position done cs scan hscan hshort hrest =>
    obtain ⟨l, hliteral, rfl, -, hdigits, -⟩ := Numeral.scan?_eq_some_iff.1 hscan
    rw [hdigits, Nat.not_lt] at hshort
    rw [hrest, List.append_nil] at hread ⊢
    cases r with
    | nil =>
      rw [List.append_nil, literals_of_last hliteral hshort] at hread
      cases hread
    | cons c r =>
      have hc : c ≠ ',' := by
        rintro rfl
        exact absurd (hr ',' rfl) (by decide)
      rw [literals_of_unexpected hliteral hshort (Numeral.noDigit_cons_iff.1 hr.noDigit) hc] at hread
      cases hread
      exact .inr ⟨⟨_, rfl⟩, rfl⟩
  | case4 position done cs scan hscan hshort more hrest ih =>
    obtain ⟨l, hliteral, rfl, hwidth, hdigits, -⟩ := Numeral.scan?_eq_some_iff.1 hscan
    rw [hdigits, Nat.not_lt] at hshort
    rw [hrest, List.append_assoc, List.cons_append, literals_of_comma hliteral hshort, ← hwidth]
      at hread
    rw [hrest, List.length_append, List.length_cons, ← hwidth, Nat.add_comm more.length,
      ← Nat.add_assoc, ← Nat.add_assoc]
    exact ih hread
  | case5 position done cs scan hscan hshort c more hrest hc =>
    obtain ⟨l, hliteral, rfl, hwidth, hdigits, hdigit⟩ := Numeral.scan?_eq_some_iff.1 hscan
    rw [hdigits, Nat.not_lt] at hshort
    rw [hrest] at hdigit
    rw [hrest, List.append_assoc, List.cons_append,
      literals_of_unexpected hliteral hshort (Numeral.noDigit_cons_iff.1 hdigit) hc, ← hwidth]
      at hread
    cases hread
    exact .inl ⟨_, rfl, rfl⟩

/-- So it does not matter which line end it is, and what follows. -/
theorem position_eq (hr : Stops r) (hr' : Stops r')
    (hread : literals position done (l ++ r) = .error (.malformed e))
    (hread' : literals position done (l ++ r') = .error (.malformed e')) :
    e.position = e'.position := by
  rcases literals_append hr hread with ⟨e₁, herror, h₁⟩ | ⟨⟨_, hok⟩, h₁⟩ <;>
    rcases literals_append hr' hread' with ⟨e₂, herror', h₂⟩ | ⟨⟨_, hok'⟩, h₂⟩
  · cases herror.symm.trans herror'
    exact h₁.symm.trans h₂
  · cases herror.symm.trans hok'
  · cases hok.symm.trans herror'
  · exact h₁.trans h₂.symm

/-- A literal and what stands between it and a line end are on one line. -/
theorem exists_append_of_prefix {start back : List Char} (hstart : OneLine start) (hr : Stops r)
    (heq : start ++ back = l ++ r) : ∃ m, l = start ++ m ∧ back = m ++ r := by
  rcases List.append_eq_append_iff.1 heq with ⟨m, hl, hback⟩ | ⟨m, rfl, rfl⟩
  · exact ⟨m, hl, hback⟩
  · cases m with
    | nil => exact ⟨[], by simp, rfl⟩
    | cons c m =>
      obtain ⟨hlf, hcr⟩ := hstart c (by simp)
      exact absurd (hr c rfl) (not_or.2 ⟨hlf, hcr⟩)

/-- **No literal goes on behind a line end.** -/
theorem exceeds_append_iff (hr : Stops r) : Exceeds (l ++ r) digits ↔ Exceeds l digits := by
  have honeLine {l' : List Char} {v : Int} (hliteral : Literal l' v) : OneLine l' :=
    fun _ hc => (Literals.last hliteral).mem_ne hc
  constructor
  · intro h
    generalize hcs : l ++ r = cs at h
    induction h generalizing l with
    | here hliteral hrest hlong =>
      obtain ⟨m, rfl, rfl⟩ := exists_append_of_prefix (honeLine hliteral) hr hcs.symm
      refine .here hliteral (fun c hc => hrest c ?_) hlong
      obtain ⟨m, rfl⟩ := List.head?_eq_some_iff.1 hc
      rfl
    | @later l' ls v digits hliteral hshort hmore ih =>
      have hcomma : OneLine (l' ++ [',']) := by
        intro c hc
        rcases List.mem_append.1 hc with hc | hc
        · exact honeLine hliteral c hc
        · obtain rfl := List.mem_singleton.1 hc
          decide
      rw [List.append_cons l' ',' ls] at hcs
      obtain ⟨m, rfl, rfl⟩ := exists_append_of_prefix hcomma hr hcs.symm
      rw [← List.append_cons]
      exact .later hliteral hshort (ih rfl)
  · intro h
    induction h with
    | here hliteral hrest hlong =>
      rw [List.append_assoc]
      exact .here hliteral (noDigit_append hrest hr.noDigit) hlong
    | later hliteral hshort _ ih =>
      rw [List.append_assoc]
      exact .later hliteral hshort ih

/-! ### Texts in files -/

theorem LineEnd.mem (hending : LineEnd ending) (hc : c ∈ ending) : c = '\n' ∨ c = '\r' := by
  cases hending with
  | lf => exact .inl (List.mem_singleton.1 hc)
  | cr => exact .inr (List.mem_singleton.1 hc)
  | crlf =>
    rcases List.mem_cons.1 hc with hcr | hlf
    · exact .inr hcr
    · exact .inl (List.mem_singleton.1 hlf)

/-- What is dropped from a text is a line end, if anything. -/
theorem exists_terminator_lineEnd (cs : List Char) :
    ∃ ending, cs = body cs ++ ending ∧ ∀ c ∈ ending, c = '\n' ∨ c = '\r' := by
  obtain ⟨ending, hcs⟩ := exists_terminator cs
  refine ⟨_, hcs, ?_⟩
  cases ending with
  | none => simp [Terminator.text]
  | lf => exact fun c hc => LineEnd.lf.mem hc
  | crlf => exact fun c hc => LineEnd.crlf.mem hc

/-- The body of a text goes on with its first line. -/
theorem exists_body (hl : OneLine l) (hr : Stops r) :
    ∃ r', body (l ++ r) = l ++ r' ∧ Stops r' := by
  obtain ⟨ending, hcs, hending⟩ := exists_terminator_lineEnd (l ++ r)
  exact exists_append_of_dropped hl hr hending hcs

/-- Of each text one line end can be dropped. -/
theorem exists_unended (cs : List Char) :
    ∃ b ending, cs = b ++ ending ∧ Unended cs b ∧ (ending = [] ∨ LineEnd ending) := by
  have hstripped := stripped_body cs
  generalize body cs = b at hstripped
  cases hstripped with
  | crlf b => exact ⟨b, _, rfl, .crlf b, .inr .crlf⟩
  | lf hlast => exact ⟨b, _, rfl, .lf hlast, .inr .lf⟩
  | none hlast =>
    by_cases hcr : cs.getLast? = some '\r'
    · obtain ⟨b, rfl⟩ := List.getLast?_eq_some_iff.1 hcr
      exact ⟨b, _, rfl, .cr b, .inr .cr⟩
    · exact ⟨cs, [], (List.append_nil cs).symm, .none ⟨hlast, hcr⟩, .inl rfl⟩

theorem unifyLineEnds_of_lineEnd (hending : LineEnd ending) : unifyLineEnds ending = ['\n'] := by
  cases hending <;> rfl

theorem Body.oneLine (h : Body b cells) : OneLine b := fun _ hc => h.mem_ne hc

/-- The body of a text in a file is left when its line end has become LF and is dropped. -/
theorem FileText.body_unified (h : FileText cs cells) :
    ∃ b ending, cs = b ++ ending ∧ Stops ending ∧ body (unifyLineEnds cs) = b ∧ Body b cells := by
  cases h with
  | unended hbody =>
    have hunified : unifyLineEnds (cs ++ []) = cs ++ [] := unifyLineEnds_append hbody.oneLine
    have hdropped : body (cs ++ []) = cs := body_append hbody.oneLine .none
    rw [List.append_nil] at hunified hdropped
    refine ⟨cs, [], (List.append_nil cs).symm, nofun, ?_, hbody⟩
    rw [hunified, hdropped]
  | @ended b ending _ hbody hlineEnd =>
    have hdropped : body (b ++ ['\n']) = b := body_append hbody.oneLine .lf
    refine ⟨b, ending, rfl, fun c hc => ?_, ?_, hbody⟩
    · obtain ⟨more, rfl⟩ := List.head?_eq_some_iff.1 hc
      exact hlineEnd.mem List.mem_cons_self
    · rw [unifyLineEnds_append hbody.oneLine, unifyLineEnds_of_lineEnd hlineEnd, hdropped]

/-- A line end makes no difference to the digits. -/
theorem legible_append_lineEnd (hending : LineEnd ending) : Legible (b ++ ending) ↔ Legible b := by
  cases hending with
  | lf => exact legible_append_terminator .lf
  | crlf => exact legible_append_terminator .crlf
  | cr => rw [legible_append_cons (by decide), and_iff_left legible_nil]

/-- **The texts that are read from files** are the bodies with at most one line end behind them,
    if their literals are short. -/
theorem parseChars_unifyLineEnds :
    parseChars (unifyLineEnds cs) = .ok cells ↔ FileText cs cells ∧ Legible cs := by
  rw [parseChars_eq_ok_iff, ← legible_body_iff]
  constructor
  · rintro ⟨hbody, hlegible⟩
    obtain ⟨l, r, rfl, hl, hr⟩ := exists_oneLine cs
    rw [unifyLineEnds_append hl] at hbody hlegible
    -- the body is the first line, for it holds no line end
    obtain ⟨r', hfirst, hr'⟩ := exists_body hl (stops_unifyLineEnds hr)
    obtain rfl : r' = [] := by
      rw [hfirst] at hbody
      cases r' with
      | nil => rfl
      | cons c cs =>
        obtain ⟨hlf, hcr⟩ := hbody.mem_ne (c := c) (by simp)
        exact absurd (hr' c rfl) (not_or.2 ⟨hlf, hcr⟩)
    obtain ⟨ending, hending⟩ := exists_terminator (l ++ unifyLineEnds r)
    rw [hfirst, List.append_nil, List.append_cancel_left_eq] at hending
    rw [hfirst, List.append_nil] at hbody hlegible
    rcases exists_lineEnd hr with rfl | ⟨ending', more, rfl, hlineEnd, hunified⟩
    · rw [List.append_nil]
      exact ⟨.unended hbody, hlegible⟩
    · rw [hunified] at hending
      cases ending with
      | none => cases hending
      | crlf => cases hending
      | lf =>
        -- there is nothing behind the line end
        obtain rfl : more = [] := unifyLineEnds_eq_nil (List.cons_eq_cons.1 hending).2
        rw [List.append_nil]
        exact ⟨.ended hbody hlineEnd, (legible_append_lineEnd hlineEnd).2 hlegible⟩
  · rintro ⟨htext, hlegible⟩
    obtain ⟨b, ending, rfl, -, hdropped, hbody⟩ := htext.body_unified
    rw [hdropped]
    exact ⟨hbody, hlegible.of_part (List.prefix_append _ _).isInfix⟩

/-- **Too many digits are found in the file as it is.** -/
theorem parseChars_unifyLineEnds_eq_overlong_iff :
    parseChars (unifyLineEnds cs) = .error (.overlong digits) ↔ Exceeds cs digits := by
  obtain ⟨l, r, rfl, hl, hr⟩ := exists_oneLine cs
  obtain ⟨r', hbody, hr'⟩ := exists_body hl (stops_unifyLineEnds hr)
  rw [parseChars_eq_overlong_iff, unifyLineEnds_append hl, hbody, exceeds_append_iff hr',
    exceeds_append_iff hr]

/-- A body with a line end behind it that is not legible begins with too many digits. -/
theorem FileText.legible_or_exceeds (h : FileText cs cells) :
    Legible cs ∨ ∃ digits, Exceeds cs digits := by
  cases h with
  | unended hbody => exact hbody.legible_or_exceeds
  | ended hbody hending =>
    rw [legible_append_lineEnd hending]
    exact hbody.legible_or_exceeds.imp_right fun ⟨digits, hexceeds⟩ =>
      ⟨digits, (exceeds_append_iff fun c hc => hending.mem (List.mem_of_head? hc)).2 hexceeds⟩

/-- A text that is read as it is is read from a file. -/
theorem fileText_of_parseChars (hread : parseChars cs = .ok cells) : FileText cs cells := by
  have hbody := (parseChars_eq_ok_iff.1 hread).1
  obtain ⟨ending, hcs⟩ := exists_terminator cs
  rw [hcs]
  cases ending with
  | none =>
    rw [Terminator.text, String.toList_empty, List.append_nil]
    exact .unended hbody
  | lf => exact .ended hbody .lf
  | crlf => exact .ended hbody .crlf

/-- A parse error is one of the body. -/
theorem literals_of_parseChars {why : Rejection} (hread : parseChars cs = .error why) :
    literals 0 [] (body cs) = .error why := by
  unfold parseChars at hread
  split at hread
  · cases hread
  · exact hread

/-- A text that can be completed to a body holds no line end. -/
theorem Viable.oneLine (h : Viable cs) : OneLine cs := by
  obtain ⟨more, vs, hliterals⟩ := h
  exact fun c hc => hliterals.mem_ne (List.mem_append_left more hc)

/-- **An error in the text made of a file points into the file.** -/
theorem pointsInto (hread : parseChars (unifyLineEnds cs) = .error (.malformed e)) :
    PointsInto cs e := by
  have hno (cells : List Int) (hlegible : Legible cs) : ¬FileText cs cells := fun htext =>
    nomatch hread.symm.trans (parseChars_unifyLineEnds.2 ⟨htext, hlegible⟩)
  have hshort (digits : Nat) : ¬Exceeds cs digits := fun hexceeds =>
    nomatch hread.symm.trans (parseChars_unifyLineEnds_eq_overlong_iff.2 hexceeds)
  obtain ⟨l, r, hcs, hl, hr⟩ := exists_oneLine cs
  obtain ⟨r₁, hbody, hr₁⟩ := exists_body hl (stops_unifyLineEnds hr)
  have hliterals := literals_of_parseChars hread
  rw [hcs, unifyLineEnds_append hl, hbody] at hliterals
  -- whatever is dropped from the file, the reader stops at the same place of the first line
  obtain ⟨b, ending, hb, hunended, hending⟩ := exists_unended cs
  have hdropped : ∀ c ∈ ending, c = '\n' ∨ c = '\r' := by
    rcases hending with rfl | hlineEnd
    · exact nofun
    · exact fun c hc => hlineEnd.mem hc
  obtain ⟨r₂, hb₂, hr₂⟩ := exists_append_of_dropped hl hr hdropped (hcs.symm.trans hb)
  have hblames : Blames b e.position := by
    rcases hread' : literals 0 [] b with (e' | digits) | cells
    · obtain ⟨k, hk, hblames, -⟩ := literals_blames hread'
      rw [hb₂] at hread'
      rw [position_eq hr₁ hr₂ hliterals hread', hk, Nat.zero_add]
      exact hblames
    · have hexceeds := literals_eq_overlong_iff.1 hread'
      rw [hb₂, exceeds_append_iff hr₂, ← exceeds_append_iff hr, ← hcs] at hexceeds
      exact absurd hexceeds (hshort digits)
    · obtain ⟨vs, hvs, hlegible, -⟩ := literals_eq_ok_iff.1 hread'
      rcases hending with rfl | hlineEnd
      · rw [hb, List.append_nil] at hno
        exact absurd (.unended (.literals hvs)) (hno vs hlegible)
      · rw [hb] at hno
        exact absurd (.ended (.literals hvs) hlineEnd)
          (hno vs ((legible_append_lineEnd hlineEnd).2 hlegible))
  refine ⟨?_, ?_, b, hunended, hblames⟩
  · rw [hb, List.take_append_of_le_length hblames.le_length]
    exact hblames.viable.oneLine
  · obtain ⟨r₃, hbody', hr₃⟩ := exists_body hl hr
    rcases hread' : parseChars cs with (e' | digits) | cells
    · have hliterals' := literals_of_parseChars hread'
      rw [hcs, hbody'] at hliterals'
      exact ⟨e', rfl, position_eq hr₃ hr₁ hliterals' hliterals⟩
    · have hexceeds := parseChars_eq_overlong_iff.1 hread'
      rw [hcs, hbody', exceeds_append_iff hr₃, ← exceeds_append_iff hr, ← hcs] at hexceeds
      exact absurd hexceeds (hshort digits)
    · exact absurd (fileText_of_parseChars hread') (hno cells (parseChars_eq_ok_iff.1 hread').2)

/-! ### Files -/

/-- Bytes that are not all ASCII characters have a first one that is none. -/
theorem exists_first_byte (hbytes : ¬IsAscii bytes) :
    ∃ front byte rest, bytes = front ++ byte :: rest ∧ IsAscii front ∧ ¬byte < 0x80 := by
  induction bytes with
  | nil => exact absurd nofun hbytes
  | cons c bytes ih =>
    by_cases hc : c < 0x80
    · have hrest : ¬IsAscii bytes := fun h => hbytes (List.forall_mem_cons.2 ⟨hc, h⟩)
      obtain ⟨front, byte, rest, rfl, hfront, hbyte⟩ := ih hrest
      exact ⟨c :: front, byte, rest, rfl, List.forall_mem_cons.2 ⟨hc, hfront⟩, hbyte⟩
    · exact ⟨[], c, bytes, rfl, nofun, hc⟩

theorem parseFile_of_isAscii (hbytes : IsAscii bytes) :
    parseFile bytes = (parseChars (unifyLineEnds (characters bytes))).mapError .parse := by
  rw [parseFile, decodeAscii_of_isAscii hbytes]

theorem parseFile_append (hfront : IsAscii front) (hbyte : ¬byte < 0x80) :
    parseFile (front ++ byte :: rest) = .error (.file (.notAscii byte front.length)) := by
  rw [parseFile, decodeAscii_append hfront hbyte]

/-- Cells are read from ASCII bytes only. -/
theorem parseFile_eq_ok_iff :
    parseFile bytes = .ok cells ↔
      IsAscii bytes ∧ FileText (characters bytes) cells ∧ Legible (characters bytes) := by
  by_cases hbytes : IsAscii bytes
  · rw [parseFile_of_isAscii hbytes, ← parseChars_unifyLineEnds, and_iff_right hbytes]
    cases parseChars (unifyLineEnds (characters bytes)) <;> simp [Except.mapError]
  · obtain ⟨front, byte, rest, rfl, hfront, hbyte⟩ := exists_first_byte hbytes
    rw [parseFile_append hfront hbyte]
    exact ⟨nofun, fun h => absurd h.1 hbytes⟩

/-- A literal with too many digits is refused in a file of ASCII bytes. -/
theorem parseFile_of_exceeds (hbytes : IsAscii bytes) (h : Exceeds (characters bytes) digits) :
    parseFile bytes = .error (.parse (.overlong digits)) := by
  rw [parseFile_of_isAscii hbytes, parseChars_unifyLineEnds_eq_overlong_iff.2 h]
  rfl

namespace Directory

/-- A readable file is loaded as its bytes are parsed. -/
theorem load_of_read {d : Directory} {path : String} (hfile : d.read path = .ok bytes) :
    d.load path = parseFile bytes := by
  rw [load, hfile]

/-- **What is read from a file.**  Cells are read if all bytes are ASCII characters, the text is a
    body with at most one line end behind it, and none of its literals has too many digits.  If some
    bytes are no ASCII characters the first of them is reported with its offset, whatever stands
    before it.  If the text begins with literals, the last of them with too many digits and the
    others not, it is refused for these.  Any other file gives a parse error, and it points into the
    bytes as they are. -/
theorem load_spec (d : Directory) (path : String) (bytes : List UInt8)
    (hfile : d.read path = .ok bytes) :
    (∀ cells, d.load path = .ok cells ↔
      IsAscii bytes ∧ FileText (characters bytes) cells ∧ Legible (characters bytes)) ∧
    (∀ front byte rest, bytes = front ++ byte :: rest → IsAscii front → ¬byte < 0x80 →
      d.load path = .error (.file (.notAscii byte front.length))) ∧
    (IsAscii bytes → ∀ digits, Exceeds (characters bytes) digits →
      digitLimit < digits ∧ d.load path = .error (.parse (.overlong digits))) ∧
    (IsAscii bytes → (∀ digits, ¬Exceeds (characters bytes) digits) →
      (∀ cells, ¬FileText (characters bytes) cells) →
      ∃ e, d.load path = .error (.parse (.malformed e)) ∧ PointsInto (characters bytes) e) ∧
    (∀ cells, FileText (characters bytes) cells →
      Legible (characters bytes) ∨ ∃ digits, Exceeds (characters bytes) digits) := by
  rw [load_of_read hfile]
  refine ⟨fun _ => parseFile_eq_ok_iff, ?_, ?_, ?_, fun _ => FileText.legible_or_exceeds⟩
  · rintro front byte rest rfl hfront hbyte
    exact parseFile_append hfront hbyte
  · exact fun hbytes digits hexceeds => ⟨hexceeds.digitLimit_lt, parseFile_of_exceeds hbytes hexceeds⟩
  · intro hbytes hshort hno
    rw [parseFile_of_isAscii hbytes]
    rcases hread : parseChars (unifyLineEnds (characters bytes)) with (e | digits) | cells
    · exact ⟨e, rfl, pointsInto hread⟩
    · exact absurd (parseChars_unifyLineEnds_eq_overlong_iff.1 hread) (hshort digits)
    · exact absurd (parseChars_unifyLineEnds.1 hread).1 (hno cells)

/-- A directory with a single file gives its bytes. -/
theorem read_ofFiles_singleton (path : String) (bytes : List UInt8) :
    (ofFiles [(path, bytes)]).read path = .ok bytes := by
  have hentry : (ofFiles [(path, bytes)]).entry (pathKey path) = .file bytes := by
    simp [entry, ofFiles]
  rw [read, find, hentry]

/-- A CR ends the line `1,-2`.  A byte that is no character is reported although a comma too many
    stands before it, and of two CRLF the first one is wrong, where it stands. -/
theorem load_spec_of_line_ends :
    (ofFiles [("code", [49, 44, 45, 50, 13])]).load "code" = .ok [1, -2] ∧
      (ofFiles [("code", [49, 44, 44, 200])]).load "code" = .error (.file (.notAscii 200 3)) ∧
      ∃ e, (ofFiles [("code", [49, 13, 10, 13, 10])]).load "code" = .error (.parse (.malformed e)) ∧
        e.position = 1 := by
  obtain ⟨hok, -, -⟩ := load_spec _ _ _ (read_ofFiles_singleton "code" [49, 44, 45, 50, 13])
  obtain ⟨-, hfirst, -⟩ := load_spec _ _ _ (read_ofFiles_singleton "code" [49, 44, 44, 200])
  obtain ⟨-, -, -, herror, -⟩ :=
    load_spec _ _ _ (read_ofFiles_singleton "code" [49, 13, 10, 13, 10])
  have htext : FileText ['1', ',', '-', '2', '\r'] [1, -2] ∧ Legible ['1', ',', '-', '2', '\r'] :=
    parseChars_unifyLineEnds.1 (by decide +kernel)
  have hwrong : parseChars (unifyLineEnds ['1', '\r', '\n', '\r', '\n']) =
      .error (.malformed ⟨1, .unexpected '\n', "\n"⟩) := by decide +kernel
  have hnone (cells : List Int) : ¬FileText ['1', '\r', '\n', '\r', '\n'] cells := fun h =>
    have hlegible : Legible ['1', '\r', '\n', '\r', '\n'] := fun ds hrun _ =>
      Nat.le_trans hrun.length_le (by decide)
    nomatch hwrong.symm.trans (parseChars_unifyLineEnds.2 ⟨h, hlegible⟩)
  have hshort (digits : Nat) : ¬Exceeds ['1', '\r', '\n', '\r', '\n'] digits := fun h =>
    nomatch hwrong.symm.trans (parseChars_unifyLineEnds_eq_overlong_iff.2 h)
  refine ⟨(hok _).2 ⟨by decide, htext⟩, hfirst [49, 44, 44] 200 [] rfl (by decide) (by decide), ?_⟩
  obtain ⟨e, hload, hpoints⟩ := herror (by decide) hshort hnone
  obtain ⟨e', hread, hposition⟩ := hpoints.untranslated
  have hwhole : parseChars ['1', '\r', '\n', '\r', '\n'] =
      .error (.malformed ⟨1, .unexpected '\r', "\r\n"⟩) := by decide +kernel
  cases hwhole.symm.trans hread
  exact ⟨e, hload, hposition.symm⟩

/-- A file of one literal, with one digit more than is converted. -/
def longFile : List UInt8 := List.replicate (digitLimit + 1) 49

/-- **A literal that is not converted.**  The file holds nothing but a literal of ASCII digits, but
    it gives no cells, and no parse error either. -/
theorem load_longFile :
    IsAscii longFile ∧ (∃ v, FileText (characters longFile) [v]) ∧
      (ofFiles [("code", longFile)]).load "code" = .error (.parse (.overlong 4301)) ∧
      ∀ e, (ofFiles [("code", longFile)]).load "code" ≠ .error (.parse (.malformed e)) := by
  have hascii : IsAscii longFile := fun b hb => by
    rw [List.eq_of_mem_replicate hb]
    decide
  have hcharacters : characters longFile = List.replicate (digitLimit + 1) '1' :=
    List.map_replicate
  obtain ⟨v, hliteral⟩ := Numeral.exists_literal_ones (Nat.succ_pos digitLimit)
  have hexceeds := Exceeds.of_literal hliteral Numeral.not_isShort_ones
  rw [Numeral.length_unsigned_ones, ← hcharacters] at hexceeds
  rw [← hcharacters] at hliteral
  have hload : (ofFiles [("code", longFile)]).load "code" = .error (.parse (.overlong 4301)) :=
    (load_of_read (read_ofFiles_singleton "code" longFile)).trans
      (parseFile_of_exceeds hascii hexceeds)
  rw [hload]
  exact ⟨hascii, ⟨v, .unended (.literals (.last hliteral))⟩, rfl, by rintro e ⟨⟩⟩

end Directory

end Intcode.Program
