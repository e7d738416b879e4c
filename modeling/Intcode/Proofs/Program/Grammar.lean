import Intcode.Program.Print
import Intcode.Proofs.Text.Literal

namespace Intcode.Program

open Numeral (Literal NoDigit IsDigit IsShort)

/-!
# The grammar of program text

A program text is a body, empty or `intgr(,intgr)*`, with at most one line terminator behind it.
Without literals of too many digits the parser accepts exactly these texts, and gives the values of
the literals in order.  With one, it stops at the first of them, if the text does not go wrong
before.

* `Body`, `Written`        — the grammar, with the cells its texts stand for
* `Legible`, `Exceeds`     — the texts without runs of too many digits, and how others begin
* `legible_append_cons`    — a character that is no digit separates two texts
* `literals_eq_ok_iff`, `literals_eq_overlong_iff` — what is read from a body
* `body_append`, `exists_terminator` — the terminator that is dropped
* `parse_accepts`          — what is read from a text
-/

/-- The texts `intgr(,intgr)*`, with the values of their literals. -/
inductive Literals : List Char → List Int → Prop where
  | last {l : List Char} {v : Int} (hliteral : Literal l v) : Literals l [v]
  | cons {l ls : List Char} {v : Int} {vs : List Int} (hliteral : Literal l v)
      (hmore : Literals ls vs) : Literals (l ++ ',' :: ls) (v :: vs)

/-- The bodies of program texts, with their cells. -/
inductive Body : List Char → List Int → Prop where
  | empty : Body [] []
  | literals {cs : List Char} {vs : List Int} (hliterals : Literals cs vs) : Body cs vs

/-- The program texts, with their cells. -/
inductive Written : List Char → List Int → Prop where
  | ended {b : List Char} {vs : List Int} (hbody : Body b vs) (ending : Terminator) :
    Written (b ++ ending.text.toList) vs

/-- The texts in which no more digits stand next to each other than are converted. -/
def Legible (cs : List Char) : Prop :=
  ∀ ds, ds <:+: cs → (∀ d ∈ ds, IsDigit d) → ds.length ≤ digitLimit

/-- The texts that begin with literals, the last one with so many digits, which are the first that
    are too many. -/
inductive Exceeds : List Char → Nat → Prop where
  | here {l rest : List Char} {v : Int} (hliteral : Literal l v) (hrest : NoDigit rest)
      (hlong : ¬IsShort l) : Exceeds (l ++ rest) (Numeral.unsigned l).length
  | later {l ls : List Char} {v : Int} {digits : Nat} (hliteral : Literal l v) (hshort : IsShort l)
      (hmore : Exceeds ls digits) : Exceeds (l ++ ',' :: ls) digits

variable {b cs ds l ls : List Char} {cells done vs : List Int} {v : Int} {c : Char}
  {digits position : Nat}

/-! ### Runs of digits -/

theorem Legible.of_part (h : Legible cs) (hpart : ds <:+: cs) : Legible ds :=
  fun _ hrun hdigits => h _ (hrun.trans hpart) hdigits

theorem legible_nil : Legible [] := fun _ hrun _ => Nat.le_trans hrun.length_le (Nat.zero_le _)

/-- A text that does not hold the character between two others stands in one of these. -/
theorem infix_append_cons (hc : c ∉ ds) (h : ds <:+: cs ++ c :: ls) : ds <:+: cs ∨ ds <:+: ls := by
  obtain ⟨front, back, heq⟩ := h
  rw [List.append_assoc] at heq
  rcases List.append_eq_append_iff.1 heq with ⟨mid, rfl, hmid⟩ | ⟨mid, rfl, hmid⟩
  · -- the text begins before the character, so it ends there as well
    rcases List.append_eq_append_iff.1 hmid with ⟨rest, rfl, -⟩ | ⟨rest, rfl, hrest⟩
    · exact .inl ⟨front, rest, List.append_assoc ..⟩
    · cases rest with
      | nil => exact .inl ⟨front, [], by simp⟩
      | cons d rest =>
        obtain rfl := (List.cons_eq_cons.1 hrest).1
        exact absurd (List.mem_append_right _ List.mem_cons_self) hc
  · cases mid with
    | nil =>
      cases ds with
      | nil => exact .inl List.nil_infix
      | cons d ds =>
        obtain rfl := (List.cons_eq_cons.1 hmid).1
        exact absurd List.mem_cons_self hc
    | cons d mid =>
      obtain ⟨-, rfl⟩ := List.cons_eq_cons.1 hmid
      exact .inr ⟨mid, back, List.append_assoc ..⟩

/-- **A character that is no digit separates two texts.** -/
theorem legible_append_cons (hc : ¬IsDigit c) :
    Legible (cs ++ c :: ls) ↔ Legible cs ∧ Legible ls := by
  constructor
  · exact fun h => ⟨h.of_part ⟨[], c :: ls, rfl⟩, h.of_part ⟨cs ++ [c], [], by simp⟩⟩
  · rintro ⟨hcs, hls⟩ ds hrun hdigits
    rcases infix_append_cons (fun hmem => hc (hdigits c hmem)) hrun with hrun | hrun
    · exact hcs ds hrun hdigits
    · exact hls ds hrun hdigits

theorem legible_of_digits_iff (hds : ∀ d ∈ ds, IsDigit d) :
    Legible ds ↔ ds.length ≤ digitLimit :=
  ⟨fun h => h ds (List.infix_refl ds) hds, fun h _ hrun _ => Nat.le_trans hrun.length_le h⟩

/-- **A literal is legible if it is short.** -/
theorem Literal.legible_iff (hliteral : Literal l v) : Legible l ↔ IsShort l := by
  cases hliteral with
  | plain _ hds => rw [legible_of_digits_iff hds, IsShort, Numeral.unsigned_of_digits hds]
  | @minus ds _ hds =>
    have hsign : Legible ([] ++ '-' :: ds) ↔ Legible [] ∧ Legible ds :=
      legible_append_cons (by decide)
    rw [List.nil_append] at hsign
    rw [hsign, and_iff_right legible_nil]
    exact legible_of_digits_iff hds

/-- Behind a literal and a comma it is a matter of what follows. -/
theorem legible_comma_iff (hliteral : Literal l v) :
    Legible (l ++ ',' :: ls) ↔ IsShort l ∧ Legible ls := by
  rw [legible_append_cons (by decide), Literal.legible_iff hliteral]

/-- A text that begins with too many digits is not legible. -/
theorem Exceeds.not_legible (h : Exceeds cs digits) : ¬Legible cs := by
  induction h with
  | here hliteral _ hlong =>
    intro hlegible
    exact hlong ((Literal.legible_iff hliteral).1 (hlegible.of_part (List.prefix_append _ _).isInfix))
  | later hliteral _ _ ih => exact fun hlegible => ih ((legible_comma_iff hliteral).1 hlegible).2

/-- They are too many. -/
theorem Exceeds.digitLimit_lt (h : Exceeds cs digits) : digitLimit < digits := by
  induction h with
  | here _ _ hlong => exact Nat.lt_of_not_le hlong
  | later _ _ _ ih => exact ih

/-! ### Bodies -/

/-- No text of literals is empty. -/
theorem Literals.ne_nil (h : Literals cs vs) : cs ≠ [] := by
  cases h with
  | last hliteral => exact hliteral.ne_nil
  | cons => exact List.append_ne_nil_of_right_ne_nil _ (List.cons_ne_nil _ _)

/-- A comma is no digit. -/
theorem noDigit_comma (cs : List Char) : NoDigit (',' :: cs) := by
  rintro c ⟨⟩
  decide

/-- Where a short literal begins, what stands behind it decides. -/
theorem literals_of_scan? {scan : Numeral.Scan} (hscan : Numeral.scan? cs = some scan)
    (hshort : scan.digits ≤ digitLimit) :
    literals position done cs =
      match scan.rest with
      | [] => .ok (scan.value :: done).reverse
      | c :: more =>
        if c = ',' then literals (position + scan.width + 1) (scan.value :: done) more
        else .error (.malformed (.here (position + scan.width) (.unexpected c) (c :: more))) := by
  rw [literals]
  split
  · rename_i hnone
    cases hscan.symm.trans hnone
  · rename_i scan' hscan'
    obtain rfl : scan = scan' := Option.some.inj (hscan.symm.trans hscan')
    obtain ⟨v, width, digits, rest⟩ := scan
    rw [if_neg (Nat.not_lt.2 hshort)]
    cases rest <;> rfl

/-- Where a literal with too many digits begins, nothing else matters. -/
theorem literals_of_overlong {scan : Numeral.Scan} (hscan : Numeral.scan? cs = some scan)
    (hlong : digitLimit < scan.digits) :
    literals position done cs = .error (.overlong scan.digits) := by
  rw [literals]
  split
  · rename_i hnone
    cases hscan.symm.trans hnone
  · rename_i scan' hscan'
    obtain rfl : scan = scan' := Option.some.inj (hscan.symm.trans hscan')
    rw [if_pos hlong]

/-- Where no literal begins, the body goes wrong. -/
theorem literals_of_scan?_eq_none (hnone : Numeral.scan? cs = none) :
    literals position done cs = .error (.malformed (.here position .expectedInteger cs)) := by
  rw [literals]
  split
  · rfl
  · simp_all

/-- What is scanned where a literal stands that no digit follows. -/
theorem scan?_of_literal {rest : List Char} (hliteral : Literal l v) (hrest : NoDigit rest) :
    Numeral.scan? (l ++ rest) = some ⟨v, l.length, (Numeral.unsigned l).length, rest⟩ :=
  Numeral.scan?_eq_some_iff.2 ⟨l, hliteral, rfl, rfl, rfl, hrest⟩

/-- A literal may be the whole text. -/
theorem scan?_of_last (hliteral : Literal l v) :
    Numeral.scan? l = some ⟨v, l.length, (Numeral.unsigned l).length, []⟩ := by
  have hscan : Numeral.scan? (l ++ []) = _ := scan?_of_literal hliteral nofun
  rwa [List.append_nil] at hscan

/-- The last literal ends the body. -/
theorem literals_of_last (hliteral : Literal l v) (hshort : IsShort l) :
    literals position done l = .ok (v :: done).reverse :=
  literals_of_scan? (scan?_of_last hliteral) hshort

/-- Behind a literal and a comma the body goes on. -/
theorem literals_of_comma (hliteral : Literal l v) (hshort : IsShort l) :
    literals position done (l ++ ',' :: ls) = literals (position + l.length + 1) (v :: done) ls :=
  (literals_of_scan? (scan?_of_literal hliteral (noDigit_comma ls)) hshort).trans (if_pos rfl)

/-- Behind a literal there is nothing else but a comma. -/
theorem literals_of_unexpected (hliteral : Literal l v) (hshort : IsShort l) (hdigit : ¬IsDigit c)
    (hc : c ≠ ',') :
    literals position done (l ++ c :: ls) =
      .error (.malformed (.here (position + l.length) (.unexpected c) (c :: ls))) :=
  (literals_of_scan? (scan?_of_literal hliteral (Numeral.noDigit_cons_iff.2 hdigit)) hshort).trans
    (if_neg hc)

/-- **A body is read if it is one of short literals**, and gives their values behind those read
    before. -/
theorem literals_eq_ok_iff :
    literals position done cs = .ok cells ↔
      ∃ vs, Literals cs vs ∧ Legible cs ∧ cells = done.reverse ++ vs := by
  constructor
  · intro hread
    fun_induction literals position done cs with
    | case1 | case2 | case5 => cases hread
    | case3 position done cs scan hscan hshort hrest =>
      cases hread
      obtain ⟨l, hliteral, rfl, -, hdigits, -⟩ := Numeral.scan?_eq_some_iff.1 hscan
      rw [hdigits, Nat.not_lt] at hshort
      rw [hrest, List.append_nil]
      exact ⟨[scan.value], .last hliteral, (Literal.legible_iff hliteral).2 hshort,
        List.reverse_cons⟩
    | case4 position done cs scan hscan hshort more hrest ih =>
      obtain ⟨l, hliteral, rfl, -, hdigits, -⟩ := Numeral.scan?_eq_some_iff.1 hscan
      rw [hdigits, Nat.not_lt] at hshort
      obtain ⟨vs, hmore, hlegible, rfl⟩ := ih hread
      rw [hrest]
      exact ⟨scan.value :: vs, .cons hliteral hmore,
        (legible_comma_iff hliteral).2 ⟨hshort, hlegible⟩, by simp⟩
  · rintro ⟨vs, hliterals, hlegible, rfl⟩
    induction hliterals generalizing position done with
    | last hliteral =>
      rw [literals_of_last hliteral ((Literal.legible_iff hliteral).1 hlegible), List.reverse_cons]
    | cons hliteral hmore ih =>
      obtain ⟨hshort, hlegible⟩ := (legible_comma_iff hliteral).1 hlegible
      rw [literals_of_comma hliteral hshort, ih hlegible, List.reverse_cons, List.append_assoc]
      rfl

/-- **A body is refused for its digits** if the first literals of it are short, and the next has that
    many digits. -/
theorem literals_eq_overlong_iff :
    literals position done cs = .error (.overlong digits) ↔ Exceeds cs digits := by
  constructor
  · intro hread
    fun_induction literals position done cs with
    | case1 | case3 | case5 => cases hread
    | case2 position done cs scan hscan hlong =>
      cases hread
      obtain ⟨l, hliteral, rfl, -, hdigits, hrest⟩ := Numeral.scan?_eq_some_iff.1 hscan
      rw [hdigits] at hlong ⊢
      exact .here hliteral hrest (Nat.not_le.2 hlong)
    | case4 position done cs scan hscan hshort more hrest ih =>
      obtain ⟨l, hliteral, rfl, -, hdigits, -⟩ := Numeral.scan?_eq_some_iff.1 hscan
      rw [hdigits, Nat.not_lt] at hshort
      rw [hrest]
      exact .later hliteral hshort (ih hread)
  · intro hexceeds
    induction hexceeds generalizing position done with
    | here hliteral hrest hlong =>
      exact literals_of_overlong (scan?_of_literal hliteral hrest) (Nat.lt_of_not_le hlong)
    | later hliteral hshort _ ih => rw [literals_of_comma hliteral hshort, ih]

/-- A literal may be the whole text. -/
theorem Exceeds.of_literal (hliteral : Literal l v) (hlong : ¬IsShort l) :
    Exceeds l (Numeral.unsigned l).length := by
  have hexceeds : Exceeds (l ++ []) _ := .here hliteral nofun hlong
  rwa [List.append_nil] at hexceeds

/-- Literals are short, up to the first that is not. -/
theorem Literals.legible_or_exceeds (h : Literals cs vs) :
    Legible cs ∨ ∃ digits, Exceeds cs digits := by
  induction h with
  | @last l v hliteral =>
    by_cases hshort : IsShort l
    · exact .inl ((Literal.legible_iff hliteral).2 hshort)
    · exact .inr ⟨_, .of_literal hliteral hshort⟩
  | @cons l ls v vs hliteral _ ih =>
    by_cases hshort : IsShort l
    · rcases ih with hlegible | ⟨digits, hexceeds⟩
      · exact .inl ((legible_comma_iff hliteral).2 ⟨hshort, hlegible⟩)
      · exact .inr ⟨digits, .later hliteral hshort hexceeds⟩
    · exact .inr ⟨_, .here hliteral (noDigit_comma ls) hshort⟩

theorem Body.legible_or_exceeds (h : Body b vs) : Legible b ∨ ∃ digits, Exceeds b digits := by
  cases h with
  | empty => exact .inl legible_nil
  | literals hliterals => exact hliterals.legible_or_exceeds

/-! ### Terminators -/

/-- A body holds no line terminator, nor a part of one. -/
theorem Literals.mem_ne (h : Literals cs vs) {c : Char} (hc : c ∈ cs) : c ≠ '\n' ∧ c ≠ '\r' := by
  have hliteral {l : List Char} {v : Int} (hl : Literal l v) (hc : c ∈ l) :
      c ≠ '\n' ∧ c ≠ '\r' := by
    rcases hl.mem hc with rfl | hdigit
    · decide
    · constructor
      · rintro rfl
        exact absurd hdigit (by decide)
      · rintro rfl
        exact absurd hdigit (by decide)
  induction h with
  | last hl => exact hliteral hl hc
  | cons hl _ ih =>
    rcases List.mem_append.1 hc with hc | hc
    · exact hliteral hl hc
    · rcases List.mem_cons.1 hc with rfl | hc
      · decide
      · exact ih hc

theorem Body.mem_ne (h : Body b vs) {c : Char} (hc : c ∈ b) : c ≠ '\n' ∧ c ≠ '\r' := by
  cases h with
  | empty => cases hc
  | literals hliterals => exact hliterals.mem_ne hc

/-- A text is its body with a terminator behind it. -/
theorem exists_terminator (cs : List Char) :
    ∃ ending : Terminator, cs = body cs ++ ending.text.toList := by
  unfold body
  split
  · rename_i front hfront
    refine ⟨.crlf, ?_⟩
    rw [← cs.reverse_reverse, hfront]
    simp [Terminator.text]
  · rename_i front _ hfront
    refine ⟨.lf, ?_⟩
    rw [← cs.reverse_reverse, hfront]
    simp [Terminator.text]
  · exact ⟨.none, (List.append_nil cs).symm⟩

/-- One terminator behind a body is dropped, and no more than that. -/
theorem body_append (hb : ∀ c ∈ b, c ≠ '\n' ∧ c ≠ '\r') (ending : Terminator) :
    body (b ++ ending.text.toList) = b := by
  have hlast : ∀ c front, b.reverse = c :: front → c ≠ '\n' ∧ c ≠ '\r' := by
    intro c front hrev
    apply hb
    rw [← List.mem_reverse, hrev]
    exact List.mem_cons_self
  unfold body
  cases ending with
  | none =>
    simp only [Terminator.text, String.toList_empty, List.append_nil]
    split
    · rename_i hrev
      exact absurd rfl (hlast _ _ hrev).1
    · rename_i hrev
      exact absurd rfl (hlast _ _ hrev).1
    · rfl
  | lf =>
    have hrev : (b ++ Terminator.lf.text.toList).reverse = '\n' :: b.reverse := by
      simp [Terminator.text]
    rw [hrev]
    split
    · rename_i hback
      exact absurd rfl (hlast _ _ (List.cons_eq_cons.1 hback).2).2
    · rename_i hback
      rw [← (List.cons_eq_cons.1 hback).2, List.reverse_reverse]
    · rename_i hno
      exact absurd rfl (hno b.reverse)
  | crlf =>
    have hrev : (b ++ Terminator.crlf.text.toList).reverse = '\n' :: '\r' :: b.reverse := by
      simp [Terminator.text]
    rw [hrev]
    exact List.reverse_reverse b

/-! ### Texts -/

/-- A terminator behind a body makes no difference to its digits. -/
theorem legible_append_terminator (ending : Terminator) :
    Legible (b ++ ending.text.toList) ↔ Legible b := by
  have hfeed (cs : List Char) : Legible (cs ++ ['\n']) ↔ Legible cs := by
    rw [legible_append_cons (by decide), and_iff_left legible_nil]
  cases ending with
  | none => exact iff_of_eq (congrArg Legible (List.append_nil b))
  | lf => exact hfeed b
  | crlf =>
    have hreturn : Legible (b ++ '\r' :: ['\n']) ↔ Legible b := by
      rw [legible_append_cons (by decide)]
      exact and_iff_left ((hfeed []).2 legible_nil)
    exact hreturn

theorem legible_body_iff (cs : List Char) : Legible (body cs) ↔ Legible cs := by
  obtain ⟨ending, hending⟩ := exists_terminator cs
  rw [← legible_append_terminator ending, ← hending]

/-- The cells of a body are read from any text it is the body of, if its literals are short. -/
theorem parseChars_eq_ok_iff : parseChars cs = .ok cells ↔ Body (body cs) cells ∧ Legible cs := by
  rw [← legible_body_iff]
  unfold parseChars
  cases hbody : body cs with
  | nil =>
    constructor
    · rintro ⟨⟩
      exact ⟨.empty, legible_nil⟩
    · rintro ⟨h, -⟩
      cases h with
      | empty => rfl
      | literals hliterals => exact absurd rfl hliterals.ne_nil
  | cons c b =>
    dsimp only
    rw [literals_eq_ok_iff]
    constructor
    · rintro ⟨vs, hliterals, hlegible, rfl⟩
      exact ⟨.literals hliterals, hlegible⟩
    · rintro ⟨h, hlegible⟩
      cases h with
      | literals hliterals => exact ⟨cells, hliterals, hlegible, rfl⟩

/-- A literal with too many digits is found in the body. -/
theorem parseChars_eq_overlong_iff :
    parseChars cs = .error (.overlong digits) ↔ Exceeds (body cs) digits := by
  have hempty : ¬Exceeds [] digits := fun h => h.not_legible legible_nil
  unfold parseChars
  cases body cs with
  | nil => exact ⟨nofun, fun h => absurd h hempty⟩
  | cons c b => exact literals_eq_overlong_iff

/-- A text is a program text if its body is one. -/
theorem written_iff : Written cs cells ↔ Body (body cs) cells := by
  constructor
  · intro h
    cases h with
    | ended hbody ending =>
      rw [body_append (fun c hc => hbody.mem_ne hc) ending]
      exact hbody
  · intro h
    obtain ⟨ending, hending⟩ := exists_terminator cs
    rw [hending]
    exact .ended h ending

/-- **The parser accepts exactly the grammar.**  A text that is a body with at most one terminator
    behind it gives the cells of the body, if no more digits stand next to each other than are
    converted; with more of them it is refused for its digits.  Every other text without so many
    digits gives a parse error. -/
theorem parse_accepts (text : String) :
    (∀ cells, parse text = .ok cells ↔ Written text.toList cells ∧ Legible text.toList) ∧
      (Legible text.toList → ((∃ e : ParseError, parse text = .error (.malformed e)) ↔
        ∀ cells, ¬ Written text.toList cells)) ∧
      ∀ cells, Written text.toList cells → ¬Legible text.toList →
        ∃ digits, digitLimit < digits ∧ parse text = .error (.overlong digits) := by
  have hok (cells : List Int) :
      parse text = .ok cells ↔ Written text.toList cells ∧ Legible text.toList := by
    rw [written_iff]
    exact parseChars_eq_ok_iff
  refine ⟨hok, fun hlegible => ?_, fun cells hwritten hnot => ?_⟩
  · have hshort (digits : Nat) : parse text ≠ .error (.overlong digits) := fun hread =>
      (parseChars_eq_overlong_iff.1 hread).not_legible ((legible_body_iff _).2 hlegible)
    simp only [hlegible, and_true] at hok
    simp only [← hok]
    rcases hread : parse text with (e | digits) | cells
    · simp
    · exact absurd hread (hshort digits)
    · simp
  · rw [← legible_body_iff] at hnot
    obtain ⟨digits, hexceeds⟩ := (written_iff.1 hwritten).legible_or_exceeds.resolve_left hnot
    exact ⟨digits, hexceeds.digitLimit_lt, parseChars_eq_overlong_iff.2 hexceeds⟩

/-- A sign and leading zeros are read, and one line end is dropped. -/
example : (parse "-07,0,12\r\n").toOption = some [-7, 0, 12] := by decide +kernel

/-- A second line end is one too many. -/
example : (parse "1,2\n\n").toOption = none := by decide +kernel

end Intcode.Program
