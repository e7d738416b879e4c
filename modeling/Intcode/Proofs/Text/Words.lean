import Intcode.Proofs.Text.Requests

namespace Intcode

/-!
# Words

The words of a text are what stands between its blanks, however many of these there are.  Where a
text has been put together from parts with a blank between them, the words of the parts are found
again; if that blank is a line feed, each part is a line.  What fills up a column stands in front of
its text.

* `wordsOf`                         — the words of a text
* `wordsOf_append_cons`             — no word goes on behind a blank
* `Decimal.toList_alignRight`, `Decimal.toList_zeroPadded` — columns
* `wordsOf_intercalate`             — parts with a blank between them
* `map_wordsOf_linesOf_intercalate` — parts with a line feed between them
-/

/-- The words of a text: what stands between its blanks, unless it is empty. -/
def wordsOf (cs : List Char) : List (List Char) := (cs.splitOnP isBlank).filter (· ≠ [])

variable {b : Char} {cs front back : List Char} {parts : List (List Char)}

/-! ### Words and blanks -/

/-- A text without blanks is one word. -/
theorem wordsOf_eq_singleton (hcs : ∀ c ∈ cs, isBlank c = false) (hne : cs ≠ []) :
    wordsOf cs = [cs] := by
  rw [wordsOf, List.splitOnP_eq_singleton hcs]
  simp [hne]

/-- **No word goes on behind a blank.** -/
theorem wordsOf_append_cons (cs rest : List Char) (hb : isBlank b = true) :
    wordsOf (cs ++ b :: rest) = wordsOf cs ++ wordsOf rest := by
  rw [wordsOf, List.splitOnP_append_cons cs rest hb, List.filter_append]
  rfl

/-- A blank in front of a text makes no difference. -/
theorem wordsOf_cons (cs : List Char) (hb : isBlank b = true) : wordsOf (b :: cs) = wordsOf cs :=
  wordsOf_append_cons [] cs hb

/-- Nor do more of them. -/
theorem wordsOf_append_left (hfront : ∀ c ∈ front, isBlank c = true) :
    wordsOf (front ++ cs) = wordsOf cs := by
  induction front with
  | nil => rfl
  | cons c front ih =>
    obtain ⟨hc, hfront⟩ := List.forall_mem_cons.1 hfront
    exact (wordsOf_cons (front ++ cs) hc).trans (ih hfront)

/-- Blanks behind a text make no difference either. -/
theorem wordsOf_append_right (hback : ∀ c ∈ back, isBlank c = true) :
    wordsOf (cs ++ back) = wordsOf cs := by
  cases back with
  | nil => rw [List.append_nil]
  | cons c back =>
    obtain ⟨hc, hback⟩ := List.forall_mem_cons.1 hback
    have hnone : wordsOf back = [] := by
      rw [← List.append_nil back]
      exact wordsOf_append_left hback
    rw [wordsOf_append_cons cs back hc, hnone, List.append_nil]

/-! ### Columns -/

/-- A text that is aligned right has blanks in front. -/
theorem Decimal.toList_alignRight (k : Nat) (s : String) :
    (Decimal.alignRight k s).toList = List.leftpad k ' ' s.toList := by
  rw [Decimal.alignRight, Decimal.filler, String.toList_append, String.toList_ofList,
    ← String.length_toList]
  rfl

/-- A number from zero on is filled up with zeros in front. -/
theorem Decimal.toList_zeroPadded (k : Nat) {v : Int} (hv : 0 ≤ v) :
    (Decimal.zeroPadded k v).toList = List.leftpad k '0' (Decimal.ofInt v).toList := by
  obtain ⟨n, rfl⟩ := Int.eq_ofNat_of_zero_le hv
  show (Decimal.filler '0' (k - (Nat.repr n).length) ++ Nat.repr n).toList = _
  rw [Decimal.filler, String.toList_append, String.toList_ofList, ← String.length_toList]
  rfl

/-- What holds of a text and of the character it is filled up with holds of the filled text. -/
theorem forall_mem_leftpad {p : Char → Prop} (k : Nat) (hb : p b) (hcs : ∀ c ∈ cs, p c) :
    ∀ c ∈ List.leftpad k b cs, p c := by
  rw [List.leftpad, List.forall_mem_append]
  exact ⟨fun c hc => List.eq_of_mem_replicate hc ▸ hb, hcs⟩

/-! ### Texts put together -/

/-- What holds of all characters of some parts and of the one between them holds of them all. -/
theorem forall_mem_intercalate {p : Char → Prop} (hb : p b) (hparts : ∀ l ∈ parts, ∀ c ∈ l, p c) :
    ∀ c ∈ [b].intercalate parts, p c := by
  induction parts with
  | nil => exact nofun
  | cons l ls ih =>
    obtain ⟨hl, hls⟩ := List.forall_mem_cons.1 hparts
    cases ls with
    | nil =>
      rw [List.intercalate_singleton]
      exact hl
    | cons l' ls =>
      rw [List.intercalate_cons_cons, List.forall_mem_append, List.forall_mem_append]
      exact ⟨⟨hl, fun c hc => List.mem_singleton.1 hc ▸ hb⟩, ih hls⟩

/-- **With a blank between them, parts keep their words.** -/
theorem wordsOf_intercalate (hb : isBlank b = true) (parts : List (List Char)) :
    wordsOf ([b].intercalate parts) = parts.flatMap wordsOf := by
  induction parts with
  | nil => rfl
  | cons l ls ih =>
    cases ls with
    | nil =>
      rw [List.intercalate_singleton]
      exact (List.append_nil _).symm
    | cons l' ls =>
      rw [List.intercalate_cons_cons, List.append_assoc, List.singleton_append,
        wordsOf_append_cons l _ hb, ih]
      rfl

/-- The words on the first line of a text, and those on the lines behind it. -/
theorem map_wordsOf_linesOf (hne : cs ≠ []) :
    (linesOf cs).map wordsOf =
      wordsOf (takeLine cs).1 :: (linesOf (takeLine cs).2).map wordsOf := by
  obtain ⟨back, hlines, hback⟩ := linesOf_eq hne
  have hblank : ∀ c ∈ back, isBlank c = true := fun c hc => by
    rw [hback c hc]
    rfl
  rw [hlines, List.map_cons, wordsOf_append_right hblank]

/-- **With a line feed between them, parts are lines**, if they are not empty and hold none. -/
theorem map_wordsOf_linesOf_intercalate
    (hparts : ∀ l ∈ parts, l ≠ [] ∧ ∀ c ∈ l, (c != '\n') = true) :
    (linesOf (['\n'].intercalate parts)).map wordsOf = parts.map wordsOf := by
  induction parts with
  | nil => rfl
  | cons l ls ih =>
    obtain ⟨⟨hne, hl⟩, hls⟩ := List.forall_mem_cons.1 hparts
    cases ls with
    | nil =>
      rw [List.intercalate_singleton, map_wordsOf_linesOf hne, takeLine_eq_self hl]
      rfl
    | cons l' ls =>
      rw [List.intercalate_cons_cons, List.append_assoc, List.singleton_append,
        map_wordsOf_linesOf (List.append_ne_nil_of_left_ne_nil hne _), takeLine_append hl, ih hls]
      rfl

end Intcode
