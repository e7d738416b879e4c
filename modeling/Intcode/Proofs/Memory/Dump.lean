import Mathlib.Algebra.Order.Floor.Div
import Intcode.Memory.Dump
import Intcode.Proofs.Memory.Accesses
import Intcode.Proofs.Program.RoundTrip
import Intcode.Proofs.Text.Words

namespace Intcode.Memory

open Program (decimals)

/-!
# Reading a dump

A dump lays a range of flat cells out in rows, a line each.  No cell is left out where one row ends
and the next begins, and none is shown twice; and whatever the cells, a line falls into its label
and their decimal forms.  So the cells can be read back from the text.  There is no text if one of
the integers on its lines has too many digits.

* `inRows`, `flatten_inRows` — cells in rows of a width, and that they are all there
* `rowText`, `dumpRow_eq`    — a row, and when it is written
* `labelled`, `shown`        — the rows of a dump, and their text
* `dump_of_written`, `dump_of_overlong` — when there is a dump
* `wordsOf_rowText`          — the words on a line
* `readDump?`, `readDump?_labelled` — the cells that are read from a dump
* `dump_law`                 — what a dump shows
-/

/-- Cells in rows of some width.  The last row may be shorter. -/
def inRows (width : Nat) (cells : List Int) : List (List Int) :=
  (List.range (cells.length ⌈/⌉ width)).map fun i => (cells.drop (i * width)).take width

/-- The cells that are read from a dump: the values of the words on each line behind its label. -/
def readDump? (text : String) : Option (List Int) :=
  ((linesOf text.toList).flatMap fun line => (wordsOf line).tail).mapM fun word =>
    (Numeral.ofChars? word).map Numeral.Scan.value

/-- The text of a row whose integers are written. -/
def rowText (label : Int) (cells : List Int) : String :=
  Decimal.zeroPadded 6 label ++ "  " ++
    " ".intercalate (cells.map fun v => Decimal.alignRight 8 (Decimal.ofInt v))

/-- Cells in rows of some width, each with the number of its first cell, from `start` on. -/
def labelled (start width : Nat) (cells : List Int) : List (Int × List Int) :=
  (inRows width cells).mapIdx fun i row => (start + i * width, row)

/-- The text of labelled rows, a line each. -/
def shown (rows : List (Int × List Int)) : String :=
  "\n".intercalate (rows.map fun row => rowText row.1 row.2)

variable {width i n lines : Nat} {cells row : List Int} {label : Int}

/-! ### Rows of cells -/

/-- There is a row for each multiple of the width that is less than the number of cells. -/
theorem lt_ceilDiv_iff (hwidth : 0 < width) : i < n ⌈/⌉ width ↔ i * width < n := by
  rw [← Nat.not_le, ceilDiv_le_iff_le_mul hwidth, Nat.not_le, Nat.mul_comm]

/-- Some rows one after another are the cells up to the end of the last one. -/
theorem flatten_rows (width k : Nat) (cells : List Int) :
    ((List.range k).map fun i => (cells.drop (i * width)).take width).flatten =
      cells.take (k * width) := by
  induction k with
  | zero => simp
  | succ k ih =>
    -- one row more goes on where the prefix before it ends
    rw [List.range_succ, List.map_append, List.flatten_append, ih, Nat.succ_mul, List.take_add]
    simp

/-- **The rows one after another are the cells.** -/
theorem flatten_inRows (hwidth : 0 < width) (cells : List Int) :
    (inRows width cells).flatten = cells := by
  have hcover : cells.length ≤ cells.length ⌈/⌉ width * width := by
    rw [Nat.mul_comm]
    exact (ceilDiv_le_iff_le_mul hwidth).1 (Nat.le_refl _)
  rw [inRows, flatten_rows, List.take_of_length_le hcover]

theorem length_inRows (width : Nat) (cells : List Int) :
    (inRows width cells).length = cells.length ⌈/⌉ width := by
  simp [inRows]

/-- No row is empty, and none is too long. -/
theorem length_of_mem_inRows (hwidth : 0 < width) (hrow : row ∈ inRows width cells) :
    0 < row.length ∧ row.length ≤ width := by
  obtain ⟨i, hi, rfl⟩ := List.mem_map.1 hrow
  have hlt := (lt_ceilDiv_iff hwidth).1 (List.mem_range.1 hi)
  rw [List.length_take, List.length_drop]
  omega

/-- **All rows but the last are full.** -/
theorem length_of_mem_dropLast_inRows (hwidth : 0 < width)
    (hrow : row ∈ (inRows width cells).dropLast) : row.length = width := by
  rw [inRows, ← List.map_dropLast, List.dropLast_eq_take, List.length_range, List.take_range,
    Nat.min_eq_left (Nat.sub_le _ _)] at hrow
  obtain ⟨i, hi, rfl⟩ := List.mem_map.1 hrow
  -- the row behind it begins among the cells
  have hnext : i + 1 < cells.length ⌈/⌉ width := by
    have := List.mem_range.1 hi
    omega
  have hlt := (lt_ceilDiv_iff hwidth).1 hnext
  rw [Nat.succ_mul] at hlt
  rw [List.length_take, List.length_drop]
  omega

/-! ### The rows of a dump -/

theorem boundIn_natCast (size n : Nat) : boundIn size n = min n size := by
  simp [boundIn]

/-- Between two bounds that do not count from the end there are the cells from the lower one up to
    the upper one. -/
theorem cellsBetween_natCast (flat : Array Int) (lower upper : Nat) :
    cellsBetween flat lower upper = flat.toList.extract lower upper := by
  rw [cellsBetween, Array.toList_extract, boundIn_natCast, boundIn_natCast,
    List.extract_eq_take_drop, List.extract_eq_take_drop]
  have hdrop : flat.toList.drop (min lower flat.size) = flat.toList.drop lower := by
    rw [List.drop_eq_drop_iff, Array.length_toList]
    omega
  rw [hdrop, List.take_eq_take_iff, List.length_drop, Array.length_toList]
  omega

/-- A row begins a multiple of the width behind the first cell, and ends where it is full or where
    the range ends. -/
theorem cellsBetween_row (flat : Array Int) {start : Nat} {stop : Int}
    (hrow : i * width < (stop - start).toNat) :
    cellsBetween flat (start + i * width) (min (start + i * width + width) stop) =
      ((flat.toList.extract start stop.toNat).drop (i * width)).take width := by
  -- the range ends behind a cell, so neither bound counts from the end of the flat cells
  have hlower : (start + i * width : Int) = (start + i * width : Nat) := by
    push_cast
    rfl
  have hupper : min (start + i * width + width : Int) stop =
      (min (start + i * width + width) stop.toNat : Nat) := by
    omega
  rw [hupper, hlower, cellsBetween_natCast, List.extract_eq_take_drop, List.extract_eq_take_drop,
    List.drop_take, List.drop_drop, List.take_take]
  congr 1
  omega

/-- There are as many cells in a range as its bounds are apart. -/
theorem length_extract_toNat (flat : Array Int) (start : Nat) {stop : Int}
    (hstop : stop ≤ flat.size) :
    (flat.toList.extract start stop.toNat).length = (stop - start).toNat := by
  rw [List.extract_eq_take_drop, List.length_take, List.length_drop, Array.length_toList]
  omega

/-- Members that are all converted, or else are refused alike, are converted or refused as a list. -/
theorem mapM_eq_ite {α β : Type} {f : α → Except Overlong β} {p : α → Bool} {g : α → β}
    (hf : ∀ x, f x = if p x then .ok (g x) else .error .written) (l : List α) :
    l.mapM f = if l.all p then .ok (l.map g) else .error .written := by
  induction l with
  | nil => rfl
  | cons x l ih =>
    rw [List.mapM_cons, hf, ih, List.all_cons]
    cases p x with
    | false => rfl
    | true => cases l.all p <;> rfl

/-- **A row is written** if all integers on it are. -/
theorem dumpRow_eq (label : Int) (cells : List Int) :
    dumpRow label cells =
      if (label :: cells).all Decimal.isWritable then .ok (rowText label cells)
      else .error .written := by
  have hcells := mapM_eq_ite (f := Decimal.write) (fun _ => rfl) cells
  unfold dumpRow
  rw [hcells, Decimal.within, List.all_cons]
  cases Decimal.isWritable label with
  | false => rfl
  | true =>
    cases cells.all Decimal.isWritable with
    | false => rfl
    | true =>
      show Except.ok _ = _
      rw [List.map_map]
      rfl

/-- The rows begin where a progression does, and hold the cells up to its next member. -/
theorem map_progression (flat : Array Int) (start : Nat) (hwidth : 0 < width) {stop : Int}
    (hstop : stop ≤ flat.size) :
    (progression start stop width).map (fun row =>
        (row, cellsBetween flat row (min (row + width) stop))) =
      labelled start width (flat.toList.extract start stop.toNat) := by
  have hcells := length_extract_toNat flat start hstop
  have hcount : (progression start stop width).length = (stop - start).toNat ⌈/⌉ width := by
    simp [progression, hwidth, Nat.ceilDiv_eq_add_pred_div]
  refine List.ext_getElem ?_ fun i hi _ => ?_
  · rw [List.length_map, hcount, labelled, List.length_mapIdx, length_inRows, hcells]
  · rw [List.length_map, hcount, lt_ceilDiv_iff hwidth] at hi
    simp only [labelled, progression, inRows, List.getElem_mapIdx, List.getElem_map,
      List.getElem_range]
    exact congrArg (Prod.mk _) (cellsBetween_row flat hi)

/-- The integers on labelled rows are the labels and the cells. -/
theorem all_labelled (start : Nat) (hwidth : 0 < width)
    (hlines : cells.length ⌈/⌉ width = lines) :
    ((labelled start width cells).all fun row => (row.1 :: row.2).all Decimal.isWritable) = true ↔
      ∀ v ∈ ((List.range lines).map fun (i : Nat) => (start + i * width : Int)) ++ cells,
        Decimal.digitCount v ≤ digitLimit := by
  have hlabels : (labelled start width cells).map Prod.fst =
      (List.range lines).map fun (i : Nat) => (start + i * width : Int) := by
    refine List.ext_getElem ?_ fun i _ _ => ?_
    · simp [labelled, length_inRows, hlines]
    · simp [labelled]
  have hrows : (labelled start width cells).map Prod.snd = inRows width cells := by
    refine List.ext_getElem ?_ fun i _ _ => ?_
    · simp [labelled]
    · simp [labelled]
  have hcells (v : Int) : v ∈ cells ↔ ∃ row ∈ labelled start width cells, v ∈ row.2 := by
    conv_lhs => rw [← flatten_inRows hwidth cells, ← hrows]
    simp only [List.mem_flatten, List.mem_map, exists_exists_and_eq_and]
  have hwritable (v : Int) : Decimal.isWritable v = true ↔ Decimal.digitCount v ≤ digitLimit :=
    decide_eq_true_iff
  simp only [List.all_eq_true, List.forall_mem_cons, forall_and, List.forall_mem_append, hcells,
    hwritable]
  refine and_congr ?_ ⟨fun h v ⟨row, hrow, hv⟩ => h row hrow v hv,
    fun h row hrow v hv => h v ⟨row, hrow, hv⟩⟩
  rw [← hlabels, List.forall_mem_map]

section Written

variable {length stop : Int}

/-- A dump is the text of its labelled rows, if all integers on these are written. -/
theorem dump_eq (m : Memory) (start : Nat) (length : Int) (hwidth : 0 < width) :
    let stop := min (start + length) m.flat.size
    let rows := labelled start width (m.flat.toList.extract start stop.toNat)
    m.dump start length width =
      if rows.all fun row => (row.1 :: row.2).all Decimal.isWritable then .ok (shown rows)
      else .error (.overlong .written) := by
  intro stop rows
  have hrows : rows = (progression start stop width).map _ :=
    (map_progression m.flat start hwidth (Int.min_le_right _ _)).symm
  have hdump : m.dumpRows start length width = rows.mapM fun row => dumpRow row.1 row.2 := by
    rw [hrows, List.mapM_map]
    rfl
  have hne : (width : Int) ≠ 0 := by omega
  rw [dump, if_neg hne, hdump, mapM_eq_ite fun row => dumpRow_eq row.1 row.2]
  split <;> rfl

/-- **There is a dump** if no label and no cell has too many digits. -/
theorem dump_of_written (m : Memory) (start : Nat) (hwidth : 0 < width)
    (hstop : stop = min (start + length) m.flat.size)
    (hwritten : ∀ v ∈ ((List.range ((stop - start).toNat ⌈/⌉ width)).map fun (i : Nat) =>
      (start + i * width : Int)) ++ m.flat.toList.extract start stop.toNat,
        Decimal.digitCount v ≤ digitLimit) :
    m.dump start length width =
      .ok (shown (labelled start width (m.flat.toList.extract start stop.toNat))) := by
  subst hstop
  have hlines := length_extract_toNat m.flat start (Int.min_le_right (start + length) m.flat.size)
  rw [dump_eq m start length hwidth]
  exact if_pos ((all_labelled start hwidth (congrArg (· ⌈/⌉ width) hlines)).2 hwritten)

/-- **There is none** if one of them has. -/
theorem dump_of_overlong (m : Memory) (start : Nat) (hwidth : 0 < width)
    (hstop : stop = min (start + length) m.flat.size)
    (hlong : ∃ v ∈ ((List.range ((stop - start).toNat ⌈/⌉ width)).map fun (i : Nat) =>
      (start + i * width : Int)) ++ m.flat.toList.extract start stop.toNat,
        digitLimit < Decimal.digitCount v) :
    m.dump start length width = .error (.overlong .written) := by
  subst hstop
  have hlines := length_extract_toNat m.flat start (Int.min_le_right (start + length) m.flat.size)
  obtain ⟨v, hv, hdigits⟩ := hlong
  rw [dump_eq m start length hwidth, if_neg]
  intro hwritten
  exact Nat.not_le.2 hdigits
    ((all_labelled start hwidth (congrArg (· ⌈/⌉ width) hlines)).1 hwritten v hv)

end Written

/-! ### The words on a line -/

/-- A line is its label and, behind two blanks, its cells with a blank between them. -/
theorem toList_rowText (hlabel : 0 ≤ label) (cells : List Int) :
    (rowText label cells).toList =
      List.leftpad 6 '0' (Decimal.ofInt label).toList ++
        ' ' :: ' ' :: [' '].intercalate
          (cells.map fun v => List.leftpad 8 ' ' (Decimal.ofInt v).toList) := by
  have hcells : (cells.map fun v => Decimal.alignRight 8 (Decimal.ofInt v)).map String.toList =
      cells.map fun v => List.leftpad 8 ' ' (Decimal.ofInt v).toList := by
    rw [List.map_map]
    exact List.map_congr_left fun v _ => Decimal.toList_alignRight 8 (Decimal.ofInt v)
  rw [rowText, String.toList_append, String.toList_append, Decimal.toList_zeroPadded 6 hlabel,
    String.toList_intercalate, hcells, List.append_assoc]
  rfl

/-- A label is one word. -/
theorem wordsOf_label (v : Int) : wordsOf (List.leftpad 6 '0' (Decimal.ofInt v).toList) =
    [List.leftpad 6 '0' (Decimal.ofInt v).toList] := by
  refine wordsOf_eq_singleton (forall_mem_leftpad 6 (by decide) fun c hc => isBlank_ofInt v hc) ?_
  exact List.append_ne_nil_of_right_ne_nil _ (ofInt_ne_nil v)

/-- The word in a column is the decimal form of a cell, be it wider than the column or not. -/
theorem wordsOf_cell (v : Int) :
    wordsOf (List.leftpad 8 ' ' (Decimal.ofInt v).toList) = [(Decimal.ofInt v).toList] := by
  rw [List.leftpad, wordsOf_append_left fun c hc => List.eq_of_mem_replicate hc ▸ by decide]
  exact wordsOf_eq_singleton (fun c hc => isBlank_ofInt v hc) (ofInt_ne_nil v)

/-- **The words on a line** are its label and the decimal forms of its cells. -/
theorem wordsOf_rowText (hlabel : 0 ≤ label) (cells : List Int) :
    wordsOf (rowText label cells).toList =
      List.leftpad 6 '0' (Decimal.ofInt label).toList :: decimals cells := by
  have hblank : isBlank ' ' = true := by decide
  have hcells : wordsOf ([' '].intercalate
      (cells.map fun v => List.leftpad 8 ' ' (Decimal.ofInt v).toList)) = decimals cells := by
    rw [wordsOf_intercalate hblank, List.flatMap_map, decimals, List.map_eq_flatMap]
    exact List.flatMap_congr fun v _ => wordsOf_cell v
  rw [toList_rowText hlabel, wordsOf_append_cons _ _ hblank, wordsOf_label, wordsOf_cons _ hblank,
    hcells]
  rfl

/-- A row is one line, and there is something on it. -/
theorem rowText_line (hlabel : 0 ≤ label) (cells : List Int) :
    (rowText label cells).toList ≠ [] ∧
      ∀ c ∈ (rowText label cells).toList, (c != '\n') = true := by
  rw [toList_rowText hlabel]
  refine ⟨List.append_ne_nil_of_right_ne_nil _ (List.cons_ne_nil _ _), ?_⟩
  rw [List.forall_mem_append, List.forall_mem_cons, List.forall_mem_cons]
  refine ⟨forall_mem_leftpad 6 (by decide) fun c hc => ne_lineFeed_ofInt label hc, by decide,
    by decide, forall_mem_intercalate (by decide) fun l hl => ?_⟩
  obtain ⟨v, -, rfl⟩ := List.mem_map.1 hl
  exact forall_mem_leftpad 8 (by decide) fun c hc => ne_lineFeed_ofInt v hc

/-- **The lines of a dump** hold its rows, each with the number of its first cell as the label. -/
theorem map_wordsOf_labelled (start width : Nat) (cells : List Int) :
    (linesOf (shown (labelled start width cells)).toList).map wordsOf =
      (inRows width cells).mapIdx fun i row =>
        List.leftpad 6 '0' (Decimal.ofInt (start + i * width)).toList :: decimals row := by
  have hlabel (i : Nat) : 0 ≤ (start + i * width : Int) := by
    exact_mod_cast Nat.zero_le (start + i * width)
  rw [shown, String.toList_intercalate, show "\n".toList = ['\n'] from rfl, List.map_map,
    map_wordsOf_linesOf_intercalate]
  · rw [List.map_map, labelled, List.mapIdx_eq_zipIdx_map, List.mapIdx_eq_zipIdx_map, List.map_map]
    refine List.map_congr_left fun ⟨row, i⟩ _ => ?_
    dsimp only [Function.comp]
    exact wordsOf_rowText (hlabel i) row
  · -- no row breaks off before its end, so the line feeds between them are all there are
    intro l hl
    obtain ⟨row, hrow, rfl⟩ := List.mem_map.1 hl
    obtain ⟨i, _, rfl⟩ := List.mem_mapIdx.1 hrow
    exact rowText_line (hlabel i) _

/-- There is a line for each row. -/
theorem length_linesOf_labelled (start width : Nat) (cells : List Int) :
    (linesOf (shown (labelled start width cells)).toList).length = cells.length ⌈/⌉ width := by
  rw [← length_inRows, ← List.length_map (f := wordsOf), map_wordsOf_labelled, List.length_mapIdx]

/-- **Where there are no cells, there is no text.** -/
theorem shown_labelled_nil (start width : Nat) : shown (labelled start width []) = "" := by
  have hlines := length_linesOf_labelled start width []
  rw [List.length_nil, zero_ceilDiv, List.length_eq_zero_iff] at hlines
  have hnil := flatten_linesOf (shown (labelled start width [])).toList
  rw [hlines] at hnil
  exact String.toList_eq_nil_iff.1 hnil.symm

/-! ### Reading the cells back -/

/-- The decimal forms of cells are read as the cells. -/
theorem mapM_decimals (cells : List Int) :
    (decimals cells).mapM (fun word => (Numeral.ofChars? word).map Numeral.Scan.value) =
      some cells := by
  have hread : (fun word => (Numeral.ofChars? word).map Numeral.Scan.value) ∘
      (fun v => (Decimal.ofInt v).toList) = fun v => pure (id v) := by
    funext v
    rw [Function.comp_apply, Numeral.ofChars?_of_literal (Numeral.literal_ofInt v)]
    rfl
  rw [decimals, List.mapM_map, hread, List.mapM_pure, List.map_id]
  rfl

/-- **What is read from lines** with a label and the decimal forms of a row of cells each are all
    these cells, whatever the labels. -/
theorem readDump?_eq {text : String} {rows : List (List Int)} {labels : Nat → List Char}
    (hwords : (linesOf text.toList).map wordsOf =
      rows.mapIdx fun i row => labels i :: decimals row) :
    readDump? text = some rows.flatten := by
  have htails : ((linesOf text.toList).flatMap fun line => (wordsOf line).tail) =
      decimals rows.flatten := calc
    _ = ((linesOf text.toList).map wordsOf).flatMap List.tail := (List.flatMap_map _ _ _).symm
    _ = rows.zipIdx.flatMap fun p => decimals p.1 := by
      rw [hwords, List.mapIdx_eq_zipIdx_map, List.flatMap_map]
      rfl
    _ = rows.flatMap decimals := by
      rw [← List.flatMap_map, List.zipIdx_map_fst]
    _ = decimals rows.flatten := List.map_flatten.symm
  rw [readDump?, htails, mapM_decimals]

/-- **The cells are read back from their rows.** -/
theorem readDump?_labelled (start : Nat) (hwidth : 0 < width) (cells : List Int) :
    readDump? (shown (labelled start width cells)) = some cells := by
  rw [readDump?_eq (map_wordsOf_labelled start width cells), flatten_inRows hwidth]

/-! ### The law -/

/-- The numbers of cells that are addresses can be written. -/
theorem isWritable_of_le_maxAddress (hn : n ≤ maxAddress) : Decimal.isWritable n = true := by
  by_contra hlong
  rw [Decimal.isWritable, decide_eq_true_iff, Nat.not_le] at hlong
  rcases out_of_overlong hlong with hneg | hbeyond
  · omega
  · omega

/-- **The law of a dump.**  A dump of `length` cells from `start` on, in rows of `width`, is one of
    the flat cells from `start` up to `start + length`, or up to the end of the flat cells if that
    comes first.  There is none if one of these cells has too many digits to be written, or one of
    the labels; but no label has, unless there are more flat cells than addresses.  Otherwise it has
    a line for each `width` of the cells, the last of which need not be full, and no line if the
    range ends where it begins or before.  The words on a line are the number of its first cell,
    with zeros in front up to six characters, and the decimal forms of the cells of its row.  All
    rows but the last are full, none is empty, and one after another they are the cells in the
    range: so these can be read back from the text. -/
theorem dump_law (m : Memory) (start length width : Int) (hstart : 0 ≤ start) (hwidth : 1 ≤ width) :
    let stop := min (start + length) m.flat.size
    let cells := m.flat.toList.extract start.toNat stop.toNat
    let lines := (stop - start).toNat ⌈/⌉ width.toNat
    let labels := (List.range lines).map fun (i : Nat) => start + i * width
    (m.flat.size ≤ maxAddress → ∀ v ∈ labels, Decimal.digitCount v ≤ digitLimit) ∧
    ((∃ v ∈ labels ++ cells, digitLimit < Decimal.digitCount v) →
      m.dump start length width = .error (.overlong .written)) ∧
    ((∀ v ∈ labels ++ cells, Decimal.digitCount v ≤ digitLimit) →
      ∃ (text : String) (rows : List (List Int)), m.dump start length width = .ok text ∧
        (linesOf text.toList).length = lines ∧
        (stop ≤ start → text = "") ∧
        (linesOf text.toList).map wordsOf = rows.mapIdx (fun i row =>
          List.leftpad 6 '0' (Decimal.ofInt (start + i * width)).toList :: decimals row) ∧
        (∀ row ∈ rows.dropLast, (row.length : Int) = width) ∧
        (∀ row ∈ rows, 0 < row.length ∧ (row.length : Int) ≤ width) ∧
        rows.flatten = cells ∧ readDump? text = some cells) := by
  intro stop cells lines labels
  obtain ⟨first, rfl⟩ := Int.eq_ofNat_of_zero_le hstart
  obtain ⟨width, rfl⟩ := Int.eq_ofNat_of_zero_le (Int.le_trans (by decide) hwidth)
  have hpos : 0 < width := Int.natCast_pos.1 hwidth
  refine ⟨fun hflat v hv => ?_, dump_of_overlong m first hpos rfl, fun hwritten =>
    ⟨_, inRows width cells, dump_of_written m first hpos rfl hwritten, ?_, fun hempty => ?_,
      map_wordsOf_labelled first width cells, fun row hrow => ?_, fun row hrow => ?_,
      flatten_inRows hpos cells, readDump?_labelled first hpos cells⟩⟩
  · obtain ⟨i, hi, rfl⟩ := List.mem_map.1 hv
    have hlt := (lt_ceilDiv_iff hpos).1 (List.mem_range.1 hi)
    have hle : first + i * width ≤ maxAddress := by omega
    exact_mod_cast of_decide_eq_true (isWritable_of_le_maxAddress hle)
  · exact (length_linesOf_labelled first width cells).trans
      (congrArg (· ⌈/⌉ width) (length_extract_toNat m.flat first (Int.min_le_right _ _)))
  · have hnil : m.flat.toList.extract first stop.toNat = [] := by
      rw [← List.length_eq_zero_iff, length_extract_toNat m.flat first (Int.min_le_right _ _)]
      omega
    rw [hnil]
    exact shown_labelled_nil first width
  · exact congrArg Nat.cast (length_of_mem_dropLast_inRows hpos hrow)
  · obtain ⟨hsome, hle⟩ := length_of_mem_inRows hpos hrow
    exact ⟨hsome, Int.ofNat_le.2 hle⟩

/-- A range that goes past the end of the flat cells, with cells too wide for their columns and a
    last row that is not full. -/
theorem dump_law_of_wide_cells :
    let text := "000001        -7 12345678901        0\n000004  -123456789        5"
    (ofList [3, -7, 12345678901, 0, -123456789, 5]).dump 1 20 3 = .ok text ∧
      (linesOf text.toList).length = 2 ∧
      readDump? text = some [-7, 12345678901, 0, -123456789, 5] := by
  intro text
  have htext : (ofList [3, -7, 12345678901, 0, -123456789, 5]).dump 1 20 3 = .ok text := by
    decide +kernel
  obtain ⟨-, -, hwritten⟩ :=
    dump_law (ofList [3, -7, 12345678901, 0, -123456789, 5]) 1 20 3 (by decide) (by decide)
  obtain ⟨text', rows, hdump, hlines, -, -, -, -, -, hread⟩ := hwritten (by decide +kernel)
  obtain rfl : text = text' := Except.ok.inj (htext.symm.trans hdump)
  exact ⟨htext, hlines, hread⟩

/-- **A cell that cannot be shown.**  It has one digit more than is written, so there is no dump of
    it. -/
theorem not_dumped_of_power :
    (ofList [10 ^ digitLimit]).dump 0 1 1 = .error (.overlong .written) ∧
      ∀ text, (ofList [10 ^ digitLimit]).dump 0 1 1 ≠ .ok text := by
  have hdump : (ofList [10 ^ digitLimit]).dump 0 1 1 = .error (.overlong .written) :=
    dump_of_overlong (ofList [10 ^ digitLimit]) 0 Nat.one_pos rfl
      ⟨10 ^ digitLimit, List.mem_append_right _ List.mem_cons_self, Numeral.overlong_pow⟩
  rw [hdump]
  exact ⟨rfl, by rintro text ⟨⟩⟩

end Intcode.Memory
