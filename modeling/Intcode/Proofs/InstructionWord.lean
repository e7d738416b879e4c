import Intcode.Instruction

namespace Intcode

/-!
# Words and their digits

A word has its digits by division toward zero, so they carry its sign, and up to that sign they are
the last five decimal digits of its absolute value.  The decoder looks at nothing else: a word
stands for an instruction if its digits are those of the instruction, and for none otherwise.

* `Digits.word`            — the word that digits make up
* `Digits.Splits`          — what it takes to be the digits of a word
* `Digits.splits_iff`      — every word has exactly one such split, which is `splitWord`
* `StandsFor`              — a word is one of those that stand for an instruction
* `decodeWord_eq_ok_iff`   — the decoder accepts these words
* `decodeWord_accepts`     — all this of one word
-/

/-- The word that digits make up. -/
def Digits.word (d : Digits) : Int := d.opcode + 100 * d.mode1 + 1000 * d.mode2 + 10000 * d.mode3

/-- The digits are those of a word: each has its sign or is zero, the opcode has at most two decimal
    digits and a mode has one, and together they make up the word without its higher digits. -/
structure Digits.Splits (d : Digits) (word : Int) : Prop where
  nonneg : 0 ≤ word → ∀ x ∈ d.opcode :: d.modes, 0 ≤ x
  nonpos : word ≤ 0 → ∀ x ∈ d.opcode :: d.modes, x ≤ 0
  opcode_lt : d.opcode.natAbs < 100
  modes_lt : ∀ m ∈ d.modes, m.natAbs < 10
  word_eq : d.word = word.tmod 100000

/-! ### Digits -/

/-- The digits of a word that is not negative. -/
theorem splitWord_natCast (n : Nat) :
    splitWord n = ⟨(n % 100 : Nat), (n / 100 % 10 : Nat), (n / 1000 % 10 : Nat),
      (n / 10000 % 10 : Nat)⟩ := rfl

/-- The digits of a word with the other sign. -/
theorem splitWord_neg (word : Int) :
    splitWord (-word) = ⟨-(splitWord word).opcode, -(splitWord word).mode1,
      -(splitWord word).mode2, -(splitWord word).mode3⟩ := by
  simp only [splitWord, Int.neg_tdiv, Int.neg_tmod]

namespace Digits

/-- What it takes to be the digits of a word, digit by digit. -/
theorem splits_mk_iff {opcode mode1 mode2 mode3 word : Int} :
    (Digits.mk opcode mode1 mode2 mode3).Splits word ↔
      (0 ≤ word → 0 ≤ opcode ∧ 0 ≤ mode1 ∧ 0 ≤ mode2 ∧ 0 ≤ mode3) ∧
      (word ≤ 0 → opcode ≤ 0 ∧ mode1 ≤ 0 ∧ mode2 ≤ 0 ∧ mode3 ≤ 0) ∧
      opcode.natAbs < 100 ∧ (mode1.natAbs < 10 ∧ mode2.natAbs < 10 ∧ mode3.natAbs < 10) ∧
      opcode + 100 * mode1 + 1000 * mode2 + 10000 * mode3 = word.tmod 100000 := by
  constructor
  · rintro ⟨hnonneg, hnonpos, hopcode, hmodes, hword⟩
    exact ⟨by simpa [modes] using hnonneg, by simpa [modes] using hnonpos, hopcode,
      by simpa [modes] using hmodes, hword⟩
  · rintro ⟨hnonneg, hnonpos, hopcode, hmodes, hword⟩
    exact ⟨by simpa [modes] using hnonneg, by simpa [modes] using hnonpos, hopcode,
      by simpa [modes] using hmodes, hword⟩

/-- The decoder finds the digits of a word. -/
theorem splits_splitWord (word : Int) : (splitWord word).Splits word := by
  obtain ⟨n, rfl | rfl⟩ := word.eq_nat_or_neg
  · have hrest : (n : Int).tmod 100000 = (n % 100000 : Nat) := rfl
    rw [splitWord_natCast, splits_mk_iff, hrest]
    refine ⟨fun _ => ?_, fun _ => ?_, ?_, ?_, ?_⟩ <;> omega
  · have hrest : (-(n : Int)).tmod 100000 = -(n % 100000 : Nat) := by
      rw [Int.neg_tmod]
      rfl
    rw [splitWord_neg, splitWord_natCast, splits_mk_iff, hrest]
    dsimp only
    refine ⟨fun _ => ?_, fun _ => ?_, ?_, ?_, ?_⟩ <;> omega

/-- Two numbers of the same sign do not differ by more than either of them. -/
theorem sub_bounds {x y : Int} {size : Nat} (hx : x.natAbs < size) (hy : y.natAbs < size)
    (hsign : 0 ≤ x ∧ 0 ≤ y ∨ x ≤ 0 ∧ y ≤ 0) : -size < x - y ∧ x - y < size := by
  omega

/-- Digits that differ by less than their place allows are told by the word they make up. -/
theorem eq_of_word_eq {a b c d a' b' c' d' : Int} (ha : -100 < a - a' ∧ a - a' < 100)
    (hb : -10 < b - b' ∧ b - b' < 10) (hc : -10 < c - c' ∧ c - c' < 10)
    (hword : a + 100 * b + 1000 * c + 10000 * d = a' + 100 * b' + 1000 * c' + 10000 * d') :
    a = a' ∧ b = b' ∧ c = c' ∧ d = d' := by
  obtain rfl : a = a' := by omega
  obtain rfl : b = b' := by omega
  obtain rfl : c = c' := by omega
  exact ⟨rfl, rfl, rfl, by omega⟩

/-- A word has no other digits. -/
theorem Splits.unique {d d' : Digits} {word : Int} (h : d.Splits word) (h' : d'.Splits word) :
    d = d' := by
  obtain ⟨opcode, mode1, mode2, mode3⟩ := d
  obtain ⟨opcode', mode1', mode2', mode3'⟩ := d'
  obtain ⟨hnonneg, hnonpos, hopcode, ⟨hmode1, hmode2, -⟩, hword⟩ := splits_mk_iff.1 h
  obtain ⟨hnonneg', hnonpos', hopcode', ⟨hmode1', hmode2', -⟩, hword'⟩ := splits_mk_iff.1 h'
  have hsign : (0 ≤ opcode ∧ 0 ≤ opcode' ∨ opcode ≤ 0 ∧ opcode' ≤ 0) ∧
      (0 ≤ mode1 ∧ 0 ≤ mode1' ∨ mode1 ≤ 0 ∧ mode1' ≤ 0) ∧
      (0 ≤ mode2 ∧ 0 ≤ mode2' ∨ mode2 ≤ 0 ∧ mode2' ≤ 0) := by
    rcases Int.le_total 0 word with hword | hword
    · obtain ⟨h₀, h₁, h₂, -⟩ := hnonneg hword
      obtain ⟨h₀', h₁', h₂', -⟩ := hnonneg' hword
      exact ⟨.inl ⟨h₀, h₀'⟩, .inl ⟨h₁, h₁'⟩, .inl ⟨h₂, h₂'⟩⟩
    · obtain ⟨h₀, h₁, h₂, -⟩ := hnonpos hword
      obtain ⟨h₀', h₁', h₂', -⟩ := hnonpos' hword
      exact ⟨.inr ⟨h₀, h₀'⟩, .inr ⟨h₁, h₁'⟩, .inr ⟨h₂, h₂'⟩⟩
  rw [mk.injEq]
  exact eq_of_word_eq (sub_bounds hopcode hopcode' hsign.1) (sub_bounds hmode1 hmode1' hsign.2.1)
    (sub_bounds hmode2 hmode2' hsign.2.2) (hword.trans hword'.symm)

/-- **A word has exactly one split**, and `splitWord` finds it. -/
theorem splits_iff {d : Digits} {word : Int} : d.Splits word ↔ d = splitWord word := by
  constructor
  · exact fun h => h.unique (splits_splitWord word)
  · rintro rfl
    exact splits_splitWord word

end Digits

/-! ### Decoding -/

/-- The table of operations, read backwards. -/
theorem Opcode.ofCode?_eq_some_iff {code : Int} {op : Opcode} :
    Opcode.ofCode? code = some op ↔ op.code = code := by
  constructor
  · intro hop
    unfold ofCode? at hop
    split at hop <;> cases hop <;> rfl
  · rintro rfl
    cases op <;> rfl

/-- A code is positive and has at most two decimal digits. -/
theorem Opcode.code_bounds (op : Opcode) : 0 < op.code ∧ op.code < 100 := by
  cases op <;> decide

/-- A word stands for an instruction: it is not negative, it has the instruction's digits, and no
    mode is given for a parameter that the operation does not have. -/
def StandsFor (word : Int) (i : Instruction) : Prop :=
  0 ≤ word ∧ i.digits = splitWord word ∧ ∀ m ∈ (splitWord word).modes.drop i.opcode.arity, m = 0

/-- The instruction with given digits, if they have one. -/
theorem Digits.instruction?_eq_some_iff {d : Digits} {i : Instruction} :
    d.instruction? = some i ↔ i.digits = d ∧ ∀ m ∈ d.modes.drop i.opcode.arity, m = 0 := by
  obtain ⟨opcode, mode1, mode2, mode3⟩ := i
  have hcode : Opcode.ofCode? d.opcode = some opcode ↔ opcode.code = d.opcode :=
    Opcode.ofCode?_eq_some_iff
  unfold instruction? Instruction.digits
  cases hop : Opcode.ofCode? d.opcode with
  | none =>
    rw [hop] at hcode
    constructor
    · exact nofun
    · rintro ⟨rfl, -⟩
      exact absurd (hcode.2 rfl) nofun
  | some op =>
    rw [hop, Option.some.injEq] at hcode
    simp only [Option.ite_none_right_eq_some, Option.some.injEq, List.all_eq_true, beq_iff_eq,
      Instruction.mk.injEq]
    constructor
    · rintro ⟨hmodes, rfl, rfl, rfl, rfl⟩
      exact ⟨by rw [hcode.1 rfl], hmodes⟩
    · rintro ⟨rfl, hmodes⟩
      obtain rfl := hcode.2 rfl
      exact ⟨hmodes, rfl, rfl, rfl, rfl⟩

/-- **The decoder accepts the words that stand for an instruction.**  None of them is negative,
    since its opcode would be. -/
theorem decodeWord_eq_ok_iff {word : Int} {i : Instruction} :
    decodeWord word = .ok i ↔ StandsFor word i := by
  have hopcode : i.digits = splitWord word → 0 ≤ word := by
    intro hdigits
    have hsplits := Digits.splits_iff.2 hdigits
    have hpos := i.opcode.code_bounds.1
    refine Int.not_lt.1 fun hneg => ?_
    have hle := hsplits.nonpos (Int.le_of_lt hneg) i.opcode.code List.mem_cons_self
    omega
  unfold StandsFor decodeWord
  cases hinstruction : (splitWord word).instruction? with
  | some j =>
    rw [← Digits.instruction?_eq_some_iff, hinstruction, Except.ok.injEq, Option.some.injEq]
    refine ⟨fun hji => ⟨?_, hji⟩, And.right⟩
    subst hji
    exact hopcode (Digits.instruction?_eq_some_iff.1 hinstruction).1
  | none =>
    rw [← Digits.instruction?_eq_some_iff, hinstruction]
    exact ⟨nofun, fun h => nomatch h.2⟩

/-- A word that stands for no instruction is refused with its digits. -/
theorem decodeWord_eq_error_iff {word : Int} {f : Fault} :
    decodeWord word = .error f ↔
      (∀ i, ¬ StandsFor word i) ∧ f = .unrecognizedOpcode (splitWord word) := by
  have hok (i : Instruction) := @decodeWord_eq_ok_iff word i
  cases hdecode : decodeWord word with
  | ok i =>
    refine ⟨nofun, fun h => absurd ?_ (h.1 i)⟩
    exact (hok i).1 hdecode
  | error f' =>
    have hf : f' = .unrecognizedOpcode (splitWord word) := by
      unfold decodeWord at hdecode
      split at hdecode <;> cases hdecode
      rfl
    have hnone (i : Instruction) : ¬ StandsFor word i := by
      rw [← hok i, hdecode]
      exact nofun
    rw [Except.error.injEq, hf]
    exact ⟨fun h => ⟨hnone, h.symm⟩, fun h => h.2.symm⟩

-- up to the sign this would be a multiplication
example : decodeWord (-1002) = .error (.unrecognizedOpcode ⟨-2, 0, -1, 0⟩) := rfl

/-- An instruction with a mode digit for each parameter stands in the word that its digits make up,
    whatever stands above them. -/
theorem standsFor_word {i : Instruction} (hmodes : ∀ m ∈ i.modes, 0 ≤ m ∧ m ≤ 9)
    (hbeyond : ∀ m ∈ i.modes.drop i.opcode.arity, m = 0) (high : Nat) :
    StandsFor (i.digits.word + 100000 * high) i := by
  obtain ⟨hpos, hlt⟩ := i.opcode.code_bounds
  simp only [Instruction.modes, List.forall_mem_cons] at hmodes
  have hword : i.digits.word =
      i.opcode.code + 100 * i.mode1 + 1000 * i.mode2 + 10000 * i.mode3 := rfl
  have hsplits : i.digits.Splits (i.digits.word + 100000 * high) := by
    refine Digits.splits_mk_iff.2 ?_
    rw [Int.tmod_eq_emod_of_nonneg (by omega)]
    omega
  have hdigits := Digits.splits_iff.1 hsplits
  refine ⟨by omega, hdigits, ?_⟩
  rw [← hdigits]
  exact hbeyond

/-- **The digits of a word, and what becomes of it.** -/
theorem decodeWord_accepts (word : Int) :
    (∀ d : Digits, d.Splits word ↔ d = splitWord word) ∧
    (∀ i, decodeWord word = .ok i ↔ StandsFor word i) ∧
    ((∀ i, ¬ StandsFor word i) →
      decodeWord word = .error (.unrecognizedOpcode (splitWord word))) ∧
    (∀ (i : Instruction) (high : Nat), (∀ m ∈ i.modes, 0 ≤ m ∧ m ≤ 9) →
      (∀ m ∈ i.modes.drop i.opcode.arity, m = 0) → word = i.digits.word + 100000 * high →
        decodeWord word = .ok i) ∧
    (word < 0 → ∀ i, decodeWord word ≠ .ok i) := by
  refine ⟨fun d => Digits.splits_iff, fun i => decodeWord_eq_ok_iff, ?_, ?_, ?_⟩
  · intro hnone
    exact decodeWord_eq_error_iff.2 ⟨hnone, rfl⟩
  · rintro i high hmodes hbeyond rfl
    exact decodeWord_eq_ok_iff.2 (standsFor_word hmodes hbeyond high)
  · intro hneg i hok
    have hword := (decodeWord_eq_ok_iff.1 hok).1
    omega

end Intcode
