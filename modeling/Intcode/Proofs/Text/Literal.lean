import Mathlib.Data.Nat.Digits.Defs
import Intcode.Text.Decimal
import Intcode.Text.Numeral

namespace Intcode.Numeral

/-!
# Literals

The grammar of the integers that programs and users write, `-?[0-9]+` over ASCII digits, with the
values its texts stand for, and what the readers of literals accept.  A literal may have any number
of digits; only the short ones are converted.

* `Literal`              — a text of the grammar, and its value
* `unsigned`, `IsShort`  — its digits, and those literals that are within the limit on digits
* `scan?_eq_some_iff`    — what is read from the front of a text
* `ofChars?_eq_some_iff` — what is read from a whole text
* `literal_ofInt`        — the decimal form of an integer is a literal
-/

/-- An ASCII digit. -/
def IsDigit (c : Char) : Prop := '0' ≤ c ∧ c ≤ '9'

instance (c : Char) : Decidable (IsDigit c) := inferInstanceAs (Decidable (_ ∧ _))

/-- The value of digits in the decimal system. -/
def decimalValue : List Char → Nat
  | [] => 0
  | d :: ds => (d.toNat - '0'.toNat) * 10 ^ ds.length + decimalValue ds

/-- The texts `-?[0-9]+`, with their values. -/
inductive Literal : List Char → Int → Prop where
  | plain {ds : List Char} (hne : ds ≠ []) (hds : ∀ d ∈ ds, IsDigit d) :
    Literal ds (decimalValue ds)
  | minus {ds : List Char} (hne : ds ≠ []) (hds : ∀ d ∈ ds, IsDigit d) :
    Literal ('-' :: ds) (-(decimalValue ds))

/-- The digits of a literal. -/
def unsigned : List Char → List Char
  | '-' :: ds => ds
  | ds => ds

/-- A literal within the limit on digits. -/
def IsShort (l : List Char) : Prop := (unsigned l).length ≤ digitLimit

instance (l : List Char) : Decidable (IsShort l) := inferInstanceAs (Decidable (_ ≤ _))

/-- A text that begins with no digit. -/
def NoDigit (cs : List Char) : Prop := ∀ c ∈ cs.head?, ¬ IsDigit c

variable {cs ds l rest : List Char} {v : Int}

/-! ### Digits -/

theorem isDigit_iff (c : Char) : c.isDigit = true ↔ IsDigit c := by
  unfold Char.isDigit IsDigit
  rw [Bool.and_eq_true, decide_eq_true_iff, decide_eq_true_iff]
  exact Iff.rfl

/-- The digits are summed up from the left. -/
theorem digitsValue_eq (ds : List Char) : digitsValue ds = decimalValue ds := by
  unfold digitsValue
  induction ds with
  | nil => rfl
  | cons d ds ih =>
    rw [Nat.ofDigitChars_cons, Nat.ofDigitChars_eq_ofDigitChars_zero, ih, decimalValue,
      Nat.mul_zero, Nat.zero_add, Nat.mul_comm]

/-- Where the digits at the front of a text end there is none. -/
theorem noDigit_dropWhile (cs : List Char) : NoDigit (cs.dropWhile Char.isDigit) := by
  intro c hc
  have hstop := List.head?_dropWhile_not Char.isDigit cs
  rw [Option.mem_def.1 hc] at hstop
  rw [← isDigit_iff, hstop]
  exact Bool.false_ne_true

/-- The digits at the front of a text are read as far as they go, if there are any. -/
theorem scanDigits?_eq_some_iff :
    scanDigits? cs = some (ds, rest) ↔
      cs = ds ++ rest ∧ ds ≠ [] ∧ (∀ d ∈ ds, IsDigit d) ∧ NoDigit rest := by
  constructor
  · intro hscan
    obtain ⟨hcs, hne⟩ := scanDigits?_eq_some hscan
    unfold scanDigits? at hscan
    split at hscan
    · cases hscan
    · rename_i d ds' htake
      cases hscan
      refine ⟨hcs, hne, fun c hc => ?_, noDigit_dropWhile cs⟩
      rw [← htake] at hc
      exact (isDigit_iff c).1 (List.all_eq_true.1 List.all_takeWhile c hc)
  · rintro ⟨rfl, hne, hds, hrest⟩
    have hdigits : ∀ d ∈ ds, d.isDigit = true := fun d hd => (isDigit_iff d).2 (hds d hd)
    have htake : (ds ++ rest).takeWhile Char.isDigit = ds := by
      rw [List.takeWhile_append_of_pos hdigits]
      cases rest with
      | nil => exact List.append_nil ds
      | cons c rest =>
        have hc : c.isDigit = false :=
          eq_false_of_ne_true fun h => hrest c rfl ((isDigit_iff c).1 h)
        rw [List.takeWhile_cons, hc]
        exact List.append_nil ds
    have hdrop : (ds ++ rest).dropWhile Char.isDigit = rest := by
      have hsplit := List.takeWhile_append_dropWhile (p := Char.isDigit) (l := ds ++ rest)
      rw [htake] at hsplit
      exact List.append_cancel_left hsplit
    unfold scanDigits?
    rw [htake, hdrop]
    cases ds with
    | nil => exact absurd rfl hne
    | cons d ds => rfl

/-- A text that goes on begins with a digit or with none. -/
theorem noDigit_cons_iff {c : Char} : NoDigit (c :: cs) ↔ ¬IsDigit c := by
  constructor
  · intro h
    exact h c rfl
  · rintro h c ⟨⟩
    exact h

/-- No digits are read from a text that begins with none. -/
theorem scanDigits?_eq_none_iff : scanDigits? cs = none ↔ NoDigit cs := by
  cases cs with
  | nil => exact ⟨fun _ => nofun, fun _ => rfl⟩
  | cons c cs =>
    rw [noDigit_cons_iff, ← isDigit_iff]
    unfold scanDigits?
    cases hc : c.isDigit <;> simp [hc]

/-! ### Literals -/

/-- A text of digits has no sign. -/
theorem unsigned_of_digits (hds : ∀ d ∈ ds, IsDigit d) : unsigned ds = ds := by
  unfold unsigned
  split
  · exact absurd (hds '-' List.mem_cons_self) (by decide)
  · rfl

/-- **A literal is read from the front of a text** as far as it goes, if there is one. -/
theorem scan?_eq_some_iff {s : Scan} :
    scan? cs = some s ↔
      ∃ l, Literal l s.value ∧ cs = l ++ s.rest ∧ s.width = l.length ∧
        s.digits = (unsigned l).length ∧ NoDigit s.rest := by
  constructor
  · intro hscan
    unfold scan? at hscan
    split at hscan <;> obtain ⟨⟨ds, rest⟩, hdigits, rfl⟩ := Option.map_eq_some_iff.1 hscan
    · obtain ⟨rfl, hne, hds, hrest⟩ := scanDigits?_eq_some_iff.1 hdigits
      dsimp only
      rw [digitsValue_eq]
      exact ⟨'-' :: ds, .minus hne hds, rfl, rfl, rfl, hrest⟩
    · obtain ⟨rfl, hne, hds, hrest⟩ := scanDigits?_eq_some_iff.1 hdigits
      dsimp only
      rw [digitsValue_eq]
      exact ⟨ds, .plain hne hds, rfl, rfl, by rw [unsigned_of_digits hds], hrest⟩
  · rintro ⟨l, hliteral, rfl, hwidth, hdigits, hrest⟩
    obtain ⟨v, width, digits, rest⟩ := s
    dsimp only at hliteral hwidth hdigits hrest ⊢
    subst hwidth hdigits
    cases hliteral with
    | minus hne hds =>
      rename_i ds
      have hdigits : scanDigits? (ds ++ rest) = some (ds, rest) :=
        scanDigits?_eq_some_iff.2 ⟨rfl, hne, hds, hrest⟩
      rw [List.cons_append, scan?, hdigits, ← digitsValue_eq]
      rfl
    | plain hne hds =>
      have hdigits : scanDigits? (l ++ rest) = some (l, rest) :=
        scanDigits?_eq_some_iff.2 ⟨rfl, hne, hds, hrest⟩
      unfold scan?
      split
      · -- no digits begin with a minus sign
        rename_i cs hminus
        obtain ⟨d, ds, rfl⟩ := List.exists_cons_of_ne_nil hne
        obtain rfl : d = '-' := (List.cons_eq_cons.1 hminus).1
        exact absurd (hds '-' List.mem_cons_self) (by decide)
      · rw [hdigits, ← digitsValue_eq, unsigned_of_digits hds]
        rfl

/-- No literal begins with a minus sign that no digit follows. -/
theorem scan?_minus_eq_none_iff : scan? ('-' :: cs) = none ↔ NoDigit cs := by
  rw [scan?, Option.map_eq_none_iff, scanDigits?_eq_none_iff]

/-- Nor does one begin with a character that is neither a sign nor a digit. -/
theorem scan?_cons_eq_none_iff {c : Char} (hc : c ≠ '-') :
    scan? (c :: cs) = none ↔ ¬IsDigit c := by
  unfold scan?
  split
  · rename_i hminus
    exact absurd (List.cons_eq_cons.1 hminus).1 hc
  · rw [Option.map_eq_none_iff, scanDigits?_eq_none_iff, noDigit_cons_iff]

/-- **A whole text is read if it is a literal.** -/
theorem ofChars?_eq_some_iff {s : Scan} :
    ofChars? cs = some s ↔ Literal cs s.value ∧ s = ⟨s.value, cs.length, (unsigned cs).length, []⟩ := by
  unfold ofChars?
  rw [Option.filter_eq_some_iff, scan?_eq_some_iff, List.isEmpty_iff]
  obtain ⟨v, width, digits, rest⟩ := s
  constructor
  · rintro ⟨⟨l, hliteral, rfl, rfl, rfl, -⟩, rfl⟩
    rw [List.append_nil]
    exact ⟨hliteral, rfl⟩
  · rintro ⟨hliteral, heq⟩
    cases heq
    exact ⟨⟨cs, hliteral, (List.append_nil cs).symm, rfl, rfl, nofun⟩, rfl⟩

/-- A literal is read as a whole. -/
theorem ofChars?_of_literal (hliteral : Literal cs v) :
    ofChars? cs = some ⟨v, cs.length, (unsigned cs).length, []⟩ :=
  ofChars?_eq_some_iff.2 ⟨hliteral, rfl⟩

/-- What is not read as a whole is no literal. -/
theorem ofChars?_eq_none_iff : ofChars? cs = none ↔ ∀ v, ¬Literal cs v := by
  constructor
  · intro hnone v hliteral
    rw [ofChars?_of_literal hliteral] at hnone
    cases hnone
  · intro hno
    cases hread : ofChars? cs with
    | none => rfl
    | some s => exact absurd (ofChars?_eq_some_iff.1 hread).1 (hno s.value)

/-- A literal stands for one integer. -/
theorem Literal.unique {w : Int} (hv : Literal cs v) (hw : Literal cs w) : v = w := by
  have hread := (ofChars?_of_literal hv).symm.trans (ofChars?_of_literal hw)
  exact congrArg Scan.value (Option.some.inj hread)

/-- A literal holds digits and at most a sign. -/
theorem Literal.mem (h : Literal l v) {c : Char} (hc : c ∈ l) : c = '-' ∨ IsDigit c := by
  cases h with
  | plain _ hds => exact .inr (hds c hc)
  | minus _ hds =>
    rcases List.mem_cons.1 hc with rfl | hc
    · exact .inl rfl
    · exact .inr (hds c hc)

/-- A literal is not empty. -/
theorem Literal.ne_nil (h : Literal l v) : l ≠ [] := by
  cases h with
  | plain hne => exact hne
  | minus => exact List.cons_ne_nil _ _

/-! ### Decimal forms -/

/-- The decimal form of a natural number consists of digits with its value. -/
theorem toDigits_spec (n : Nat) :
    Nat.toDigits 10 n ≠ [] ∧ (∀ d ∈ Nat.toDigits 10 n, IsDigit d) ∧
      decimalValue (Nat.toDigits 10 n) = n := by
  refine ⟨Nat.toDigits_ne_nil, fun d hd => ?_, ?_⟩
  · exact (isDigit_iff d).1 (Nat.isDigit_of_mem_toDigits (by decide) (by decide) hd)
  · rw [← digitsValue_eq]
    exact Nat.ofDigitChars_toDigits (by decide) (by decide)

/-- **The decimal form of an integer** is a literal with its value. -/
theorem literal_ofInt (v : Int) : Literal (Decimal.ofInt v).toList v := by
  cases v with
  | ofNat n =>
    obtain ⟨hne, hds, hvalue⟩ := toDigits_spec n
    have hliteral := Literal.plain hne hds
    rw [hvalue] at hliteral
    rw [Decimal.ofInt, Nat.toList_repr]
    exact hliteral
  | negSucc n =>
    obtain ⟨hne, hds, hvalue⟩ := toDigits_spec (n + 1)
    have hliteral := Literal.minus hne hds
    rw [hvalue] at hliteral
    rw [Decimal.ofInt, String.toList_append, Nat.toList_repr]
    exact hliteral

/-- Its digits are those of the absolute value. -/
theorem unsigned_ofInt (v : Int) :
    unsigned (Decimal.ofInt v).toList = Nat.toDigits 10 v.natAbs := by
  cases v with
  | ofNat n =>
    rw [Decimal.ofInt, Nat.toList_repr, unsigned_of_digits (toDigits_spec n).2.1]
    rfl
  | negSucc n =>
    rw [Decimal.ofInt, String.toList_append, Nat.toList_repr]
    rfl

/-- **The integers that are written are those whose decimal forms are short.** -/
theorem isShort_ofInt_iff (v : Int) :
    IsShort (Decimal.ofInt v).toList ↔ Decimal.isWritable v = true := by
  rw [IsShort, unsigned_ofInt, Decimal.isWritable, decide_eq_true_iff, Decimal.digitCount]

/-! ### Numbers of digits -/

/-- Digits have a value below the power of ten of their number. -/
theorem decimalValue_lt (hds : ∀ d ∈ ds, IsDigit d) : decimalValue ds < 10 ^ ds.length := by
  induction ds with
  | nil => exact Nat.one_pos
  | cons d ds ih =>
    have hrest := ih fun c hc => hds c (List.mem_cons_of_mem _ hc)
    have hdigit : d.toNat - '0'.toNat ≤ 9 := by
      have hhigh : d.toNat ≤ 57 := (hds d List.mem_cons_self).2
      have hzero : '0'.toNat = 48 := rfl
      omega
    have hfirst := Nat.mul_le_mul_right (10 ^ ds.length) hdigit
    rw [decimalValue, List.length_cons, Nat.pow_succ]
    omega

/-- An integer has no more digits than any literal that stands for it. -/
theorem Literal.digitCount_le (h : Literal l v) : Decimal.digitCount v ≤ (unsigned l).length := by
  have hcount {ds : List Char} (hne : ds ≠ []) (hds : ∀ d ∈ ds, IsDigit d) :
      (Nat.toDigits 10 (decimalValue ds)).length ≤ ds.length :=
    Nat.toDigits_length 10 _ _ (List.length_pos_iff.2 hne) (decimalValue_lt hds)
  cases h with
  | plain hne hds =>
    rw [unsigned_of_digits hds]
    exact hcount hne hds
  | minus hne hds =>
    unfold Decimal.digitCount
    rw [Int.natAbs_neg]
    exact hcount hne hds

/-- **What is read can be written.** -/
theorem Literal.isWritable (h : Literal l v) (hshort : IsShort l) : Decimal.isWritable v = true :=
  decide_eq_true (Nat.le_trans h.digitCount_le hshort)

/-- An integer below a power of ten has at most so many digits. -/
theorem digitCount_le_iff {k : Nat} (hk : 0 < k) : Decimal.digitCount v ≤ k ↔ v.natAbs < 10 ^ k := by
  constructor
  · intro hle
    obtain ⟨-, hds, hvalue⟩ := toDigits_spec v.natAbs
    have hlt := decimalValue_lt hds
    rw [hvalue] at hlt
    exact Nat.lt_of_lt_of_le hlt (Nat.pow_le_pow_right (by decide) hle)
  · exact Nat.toDigits_length 10 v.natAbs k hk

/-- A power of ten has one digit more than its exponent tells. -/
theorem digitCount_pow (k : Nat) : Decimal.digitCount (10 ^ k) = k + 1 := by
  have hpow : ((10 : Int) ^ k).natAbs = 10 ^ k := Int.natAbs_pow 10 k
  have hle : Decimal.digitCount (10 ^ k) ≤ k + 1 := by
    rw [digitCount_le_iff (Nat.succ_pos k), hpow]
    exact Nat.pow_lt_pow_right (by decide) (Nat.lt_succ_self k)
  refine Nat.le_antisymm hle (Nat.succ_le_of_lt (Nat.lt_of_not_le fun hk => ?_))
  cases k with
  | zero => exact absurd hk (by decide)
  | succ k =>
    rw [digitCount_le_iff (Nat.succ_pos k), hpow] at hk
    exact Nat.lt_irrefl _ hk

/-- The first power of ten that is too long. -/
theorem overlong_pow : digitLimit < Decimal.digitCount (10 ^ digitLimit) := by
  rw [digitCount_pow]
  exact Nat.lt_succ_self digitLimit

theorem isWritable_pow : Decimal.isWritable (10 ^ digitLimit) = false :=
  decide_eq_false (Nat.not_le_of_lt overlong_pow)

theorem isDigit_of_mem_ones {n : Nat} {d : Char} (hd : d ∈ List.replicate n '1') : IsDigit d := by
  rw [List.eq_of_mem_replicate hd]
  decide

/-- Ones are a literal. -/
theorem exists_literal_ones {n : Nat} (hn : 0 < n) : ∃ v, Literal (List.replicate n '1') v :=
  ⟨_, .plain (List.ne_nil_of_length_pos (List.length_replicate.symm ▸ hn))
    fun _ hd => isDigit_of_mem_ones hd⟩

theorem length_unsigned_ones (n : Nat) : (unsigned (List.replicate n '1')).length = n := by
  rw [unsigned_of_digits fun _ hd => isDigit_of_mem_ones hd, List.length_replicate]

/-- With one more of them than digits are converted, the literal is not short. -/
theorem not_isShort_ones : ¬IsShort (List.replicate (digitLimit + 1) '1') := by
  rw [IsShort, length_unsigned_ones]
  exact Nat.not_succ_le_self digitLimit

end Intcode.Numeral
