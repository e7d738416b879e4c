import Mathlib.Data.List.Forall2
import Intcode.Proofs.Program.Offender
import Intcode.Proofs.Text.Canonical

namespace Intcode.Program

open Numeral (Literal Canonical IsShort)

/-!
# Printing and reading program text

Cells are printed as a text that is read as these cells again, unless one of them has too many
digits.  A text that is read need not be the one that is printed for its cells, since there are other
ways to write a literal; it is that one, its line terminator left aside, if all its literals are
canonical.

* `pieces`         — the literals of a body
* `body_iff`       — a body is its literals, joined with commas
* `toList_print`   — so is what is printed, with the decimal forms of the cells
* `print_eq_iff`   — when a body is what is printed for its cells
* `readBack`       — what is read when cells have been printed
* `parse_print`    — printing and reading, both ways
-/

/-- The literals of a body: what stands between its commas. -/
def pieces : List Char → List (List Char)
  | [] => []
  | c :: cs => (c :: cs).splitOn ','

variable {b cs l : List Char} {cells vs : List Int} {v : Int} {ls : List (List Char)}

/-! ### Literals joined with commas -/

theorem Literals.of_forall₂ (hls : List.Forall₂ Literal ls vs) (hne : ls ≠ []) :
    Literals ([','].intercalate ls) vs := by
  induction hls with
  | nil => exact absurd rfl hne
  | cons hliteral hls ih =>
    cases hls with
    | nil =>
      rw [List.intercalate_singleton]
      exact .last hliteral
    | cons hnext hmore =>
      rw [List.intercalate_cons_cons, List.append_assoc]
      exact .cons hliteral (ih (List.cons_ne_nil _ _))

theorem Literals.exists_forall₂ (h : Literals cs vs) :
    ∃ ls, cs = [','].intercalate ls ∧ List.Forall₂ Literal ls vs := by
  induction h with
  | @last l v hliteral => exact ⟨[l], List.intercalate_singleton.symm, .cons hliteral .nil⟩
  | @cons l cs v vs hliteral hmore ih =>
    obtain ⟨ls, rfl, hls⟩ := ih
    cases hls with
    | nil => exact absurd rfl hmore.ne_nil
    | @cons l' v' ls vs hnext hls =>
      refine ⟨l :: l' :: ls, ?_, .cons hliteral (.cons hnext hls)⟩
      rw [List.intercalate_cons_cons, List.append_assoc]
      rfl

/-- **A body is its literals, joined with commas.** -/
theorem body_iff : Body b vs ↔ ∃ ls, b = [','].intercalate ls ∧ List.Forall₂ Literal ls vs := by
  constructor
  · rintro (_ | hliterals)
    · exact ⟨[], rfl, .nil⟩
    · exact hliterals.exists_forall₂
  · rintro ⟨ls, rfl, hls⟩
    by_cases hne : ls = []
    · subst hne
      cases hls
      exact .empty
    · exact .literals (.of_forall₂ hls hne)

/-- A literal holds no comma. -/
theorem comma_notMem (hliteral : Literal l v) : ',' ∉ l := by
  intro hcomma
  rcases hliteral.mem hcomma with hminus | hdigit
  · exact absurd hminus (by decide)
  · exact absurd hdigit (by decide)

/-- The literals are found again between the commas. -/
theorem pieces_intercalate (hls : List.Forall₂ Literal ls vs) :
    pieces ([','].intercalate ls) = ls := by
  have hliterals : ∀ l ∈ ls, l ≠ [] ∧ ',' ∉ l :=
    ((List.forall₂_and_left ls vs).1 <| hls.imp fun _ _ hliteral =>
      ⟨⟨hliteral.ne_nil, comma_notMem hliteral⟩, hliteral⟩).1
  by_cases hne : ls = []
  · subst hne
    rfl
  · have hsplit := List.splitOn_intercalate ',' (fun l hl => (hliterals l hl).2) hne
    obtain ⟨c, cs, hcons⟩ := List.exists_cons_of_ne_nil (Literals.of_forall₂ hls hne).ne_nil
    rw [hcons] at hsplit ⊢
    exact hsplit

/-- Joined literals are legible if each of them is short. -/
theorem legible_intercalate (hls : List.Forall₂ Literal ls vs) :
    Legible ([','].intercalate ls) ↔ ∀ l ∈ ls, IsShort l := by
  induction hls with
  | nil => exact ⟨fun _ => nofun, fun _ => legible_nil⟩
  | @cons l v ls vs hliteral hls ih =>
    cases hls with
    | nil => rw [List.intercalate_singleton, Literal.legible_iff hliteral, List.forall_mem_singleton]
    | cons =>
      rw [List.intercalate_cons_cons, List.append_assoc, List.forall_mem_cons, ← ih]
      exact legible_comma_iff hliteral

/-! ### Printed texts -/

/-- The decimal forms of cells. -/
def decimals (cells : List Int) : List (List Char) := cells.map fun v => (Decimal.ofInt v).toList

theorem forall₂_decimals (cells : List Int) : List.Forall₂ Literal (decimals cells) cells :=
  List.forall₂_map_left_iff.2 (List.forall₂_same.2 fun v _ => Numeral.literal_ofInt v)

/-- What is printed is the decimal forms of the cells, joined with commas. -/
theorem toList_print (cells : List Int) (ending : Terminator) :
    (print cells ending).toList = [','].intercalate (decimals cells) ++ ending.text.toList := by
  rw [print, String.toList_append, Decimal.commaSeparated, String.toList_intercalate, List.map_map]
  rfl

/-- The decimal forms of the values are the literals themselves if these are canonical. -/
theorem decimals_eq_iff (hls : List.Forall₂ Literal ls vs) :
    decimals vs = ls ↔ ∀ l ∈ ls, Canonical l := by
  induction hls with
  | nil => simp [decimals]
  | cons hliteral _ ih =>
    rw [List.forall_mem_cons, ← hliteral.ofInt_eq_iff, ← ih]
    exact List.cons_eq_cons

/-- **A body is what is printed for its cells** if its literals are canonical. -/
theorem print_eq_iff (hbody : Body b cells) :
    (print cells .none).toList = b ↔ ∀ l ∈ pieces b, Canonical l := by
  obtain ⟨ls, rfl, hls⟩ := body_iff.1 hbody
  have hprint : (print cells .none).toList = [','].intercalate (decimals cells) :=
    (toList_print cells .none).trans (List.append_nil _)
  rw [hprint, pieces_intercalate hls, ← decimals_eq_iff hls]
  constructor
  · -- the literals of both texts are the same
    intro heq
    rw [← pieces_intercalate (forall₂_decimals cells), heq, pieces_intercalate hls]
  · rintro rfl
    rfl

/-- What is read when cells have been printed: the cells, or the first of them that has too many
    digits is refused. -/
def readBack (cells : List Int) : Except Rejection (List Int) :=
  match cells.find? fun v => !Decimal.isWritable v with
  | none => .ok cells
  | some v => .error (.overlong (Decimal.digitCount v))

/-- The first cell with too many digits is the first literal with too many. -/
theorem exceeds_decimals (hfind : cells.find? (fun v => !Decimal.isWritable v) = some v) :
    Exceeds ([','].intercalate (decimals cells)) (Decimal.digitCount v) := by
  induction cells with
  | nil => cases hfind
  | cons w cells ih =>
    have hliteral := Numeral.literal_ofInt w
    rw [List.find?_cons] at hfind
    cases hw : Decimal.isWritable w with
    | true =>
      rw [hw] at hfind
      have hmore := ih hfind
      cases cells with
      | nil => cases hfind
      | cons x cells =>
        rw [decimals, List.map_cons, List.map_cons, List.intercalate_cons_cons, List.append_assoc]
        exact .later hliteral ((Numeral.isShort_ofInt_iff w).2 hw) hmore
    | false =>
      rw [hw] at hfind
      obtain rfl : w = v := Option.some.inj hfind
      have hlong : ¬IsShort (Decimal.ofInt w).toList := by
        rw [Numeral.isShort_ofInt_iff, hw]
        exact Bool.false_ne_true
      have hcount : Decimal.digitCount w = (Numeral.unsigned (Decimal.ofInt w).toList).length :=
        congrArg List.length (Numeral.unsigned_ofInt w).symm
      rw [hcount]
      cases cells with
      | nil =>
        rw [decimals, List.map_singleton, List.intercalate_singleton]
        exact .of_literal hliteral hlong
      | cons x cells =>
        rw [decimals, List.map_cons, List.map_cons, List.intercalate_cons_cons, List.append_assoc]
        exact .here hliteral (noDigit_comma _) hlong

/-- What is printed is read as the cells, up to the limit on digits. -/
theorem parse_print_eq (cells : List Int) (ending : Terminator) :
    parse (print cells ending) = readBack cells := by
  have hdecimals := forall₂_decimals cells
  have hbody : Body ([','].intercalate (decimals cells)) cells := body_iff.2 ⟨_, rfl, hdecimals⟩
  have hprinted := body_append (fun c hc => hbody.mem_ne hc) ending
  unfold readBack
  rw [parse, toList_print]
  split
  · rename_i hnone
    rw [parseChars_eq_ok_iff, hprinted, legible_append_terminator, legible_intercalate hdecimals]
    refine ⟨hbody, List.forall_mem_map.2 fun v hv => ?_⟩
    have hwritable := List.find?_eq_none.1 hnone v hv
    rw [Bool.not_eq_true, Bool.not_eq_false'] at hwritable
    exact (Numeral.isShort_ofInt_iff v).2 hwritable
  · rename_i v hfind
    rw [parseChars_eq_overlong_iff, hprinted]
    exact exceeds_decimals hfind

/-- Cells that have been read can be read back. -/
theorem readBack_of_literals (hls : List.Forall₂ Literal ls cells) (hshort : ∀ l ∈ ls, IsShort l) :
    readBack cells = .ok cells := by
  have hwritable : ∀ v ∈ cells, Decimal.isWritable v = true := by
    induction hls with
    | nil => exact nofun
    | cons hliteral _ ih =>
      rw [List.forall_mem_cons] at hshort ⊢
      exact ⟨hliteral.isWritable hshort.1, ih hshort.2⟩
  have hnone : cells.find? (fun v => !Decimal.isWritable v) = none :=
    List.find?_eq_none.2 fun v hv => by rw [hwritable v hv]; exact Bool.false_ne_true
  rw [readBack, hnone]

/-- **Printing and reading are inverse to each other, up to the form of the literals and the limit
    on digits.**  Any cells, printed with any terminator, are read back, unless one of them has too
    many digits; then the first such cell is refused.  The cells of any text that is read can be
    printed and read back, and what is printed is the text without its terminator if each of its
    literals is canonical, and only then. -/
theorem parse_print (cells : List Int) :
    (∀ ending, parse (print cells ending) = readBack cells) ∧
    ((∀ v ∈ cells, Decimal.digitCount v ≤ digitLimit) ↔ readBack cells = .ok cells) ∧
    ∀ text, parse text = .ok cells →
      let b := body text.toList
      Stripped text.toList b ∧ parse (print cells .none) = .ok cells ∧
        ((print cells .none).toList = b ↔ ∀ l ∈ pieces b, Canonical l) := by
  refine ⟨parse_print_eq cells, ?_, fun text hread => ?_⟩
  · unfold readBack
    split
    · rename_i hnone
      refine ⟨fun _ => rfl, fun _ v hv => ?_⟩
      have hwritable := List.find?_eq_none.1 hnone v hv
      rw [Bool.not_eq_true, Bool.not_eq_false'] at hwritable
      exact of_decide_eq_true hwritable
    · rename_i v hfind
      refine ⟨fun hall => ?_, nofun⟩
      have hlong := List.find?_some hfind
      rw [Decimal.isWritable, decide_eq_true (hall v (List.mem_of_find?_eq_some hfind))] at hlong
      cases hlong
  · obtain ⟨hbody, hlegible⟩ := parseChars_eq_ok_iff.1 hread
    refine ⟨stripped_body _, ?_, print_eq_iff hbody⟩
    rw [← legible_body_iff] at hlegible
    obtain ⟨ls, hls, hliterals⟩ := body_iff.1 hbody
    rw [hls, legible_intercalate hliterals] at hlegible
    rw [parse_print_eq, readBack_of_literals hliterals hlegible]

/-- A zero in front and a sign before a zero are read, but they are not printed. -/
theorem parse_print_of_superfluous :
    parse "-07,-0,12\r\n" = .ok [-7, 0, 12] ∧
      ¬(print [-7, 0, 12] .none).toList = "-07,-0,12".toList ∧
      parse "-7,0,12\r\n" = .ok [-7, 0, 12] ∧
      (print [-7, 0, 12] .none).toList = "-7,0,12".toList := by
  have hloose : parse "-07,-0,12\r\n" = .ok [-7, 0, 12] := by decide +kernel
  have hexact : parse "-7,0,12\r\n" = .ok [-7, 0, 12] := by decide +kernel
  have hprint := (parse_print [-7, 0, 12]).2.2
  refine ⟨hloose, ?_, hexact, ?_⟩
  · exact (hprint _ hloose).2.2.not.2 (by decide)
  · exact (hprint _ hexact).2.2.2 (by decide)

/-- **A program that cannot be read back.**  Its only cell has one digit more than is converted. -/
theorem parse_print_of_power :
    parse (print [10 ^ digitLimit] .none) = .error (.overlong 4301) ∧
      parse (print [10 ^ digitLimit] .none) ≠ .ok [10 ^ digitLimit] := by
  have hread : parse (print [10 ^ digitLimit] .none) = .error (.overlong 4301) := by
    rw [parse_print_eq, readBack, List.find?_cons, Numeral.isWritable_pow]
    exact congrArg (fun n => Except.error (Rejection.overlong n)) (Numeral.digitCount_pow digitLimit)
  rw [hread]
  exact ⟨rfl, by rintro ⟨⟩⟩

end Intcode.Program
