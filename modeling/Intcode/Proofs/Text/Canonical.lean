import Mathlib.Data.List.Induction
import Intcode.Proofs.Text.Literal

namespace Intcode.Numeral

/-!
# Canonical literals

Many literals stand for one integer: zeros may precede the digits, and a sign may precede a zero.
One of them is its decimal form, and it is the one that has neither.

* `Canonical`                — no superfluous zero in front, and no sign before a zero
* `toDigits_decimalValue`, `noLeadingZero_toDigits` — the decimal form of a natural number
* `Literal.ofInt_eq_iff`     — the literals that are decimal forms are the canonical ones
-/

/-- Digits begin with a zero only if that is all there is. -/
def NoLeadingZero (ds : List Char) : Prop := ds.head? = some '0' → ds = ['0']

/-- A literal without superfluous zeros in front, and without a sign before a zero. -/
structure Canonical (l : List Char) : Prop where
  noLeadingZero : NoLeadingZero (unsigned l)
  noMinusZero : l ≠ ['-', '0']

instance (ds : List Char) : Decidable (NoLeadingZero ds) := inferInstanceAs (Decidable (_ → _))

instance (l : List Char) : Decidable (Canonical l) :=
  decidable_of_iff (NoLeadingZero (unsigned l) ∧ l ≠ ['-', '0'])
    ⟨fun h => ⟨h.1, h.2⟩, fun h => ⟨h.1, h.2⟩⟩

variable {ds l : List Char} {d : Char} {v : Int}

/-! ### Decimal forms of natural numbers -/

/-- A digit is the decimal form of its value. -/
theorem exists_digitChar (hd : IsDigit d) : ∃ k < 10, d = Nat.digitChar k := by
  have hlow : 48 ≤ d.toNat := hd.1
  have hhigh : d.toNat ≤ 57 := hd.2
  have hlt : d.toNat - 48 < 10 := by omega
  refine ⟨d.toNat - 48, hlt, Char.toNat_inj.1 ?_⟩
  rw [Nat.toNat_digitChar_of_lt_ten hlt]
  omega

theorem decimalValue_digitChar {k : Nat} (hk : k < 10) : decimalValue [k.digitChar] = k := by
  have hvalue := Nat.toNat_digitChar_of_lt_ten hk
  show (k.digitChar.toNat - 48) * 1 + 0 = k
  omega

/-- A digit behind others is the last one of their value. -/
theorem decimalValue_concat (ds : List Char) (d : Char) :
    decimalValue (ds ++ [d]) = 10 * decimalValue ds + decimalValue [d] := by
  simp only [← digitsValue_eq, digitsValue, Nat.ofDigitChars_append, Nat.ofDigitChars_cons,
    Nat.ofDigitChars_nil, Nat.mul_zero, Nat.zero_add]

/-- Digits that do not begin with a zero have a value. -/
theorem decimalValue_pos (hds : ∀ d ∈ ds, IsDigit d) (hne : ds ≠ []) (hhead : ds.head? ≠ some '0') :
    0 < decimalValue ds := by
  obtain ⟨d, ds, rfl⟩ := List.exists_cons_of_ne_nil hne
  obtain ⟨k, hk, rfl⟩ := exists_digitChar (hds d List.mem_cons_self)
  have hpos : 0 < k := by
    rw [Nat.pos_iff_ne_zero]
    rintro rfl
    exact hhead rfl
  have hvalue := Nat.toNat_digitChar_of_lt_ten hk
  have hfirst : 0 < (k.digitChar.toNat - 48) * 10 ^ ds.length :=
    Nat.mul_pos (by omega) (Nat.pow_pos (by decide))
  exact Nat.add_pos_left hfirst _

/-- **Digits without a superfluous zero are the decimal form of their value.** -/
theorem toDigits_decimalValue (hds : ∀ d ∈ ds, IsDigit d) (hne : ds ≠ [])
    (hleading : NoLeadingZero ds) : Nat.toDigits 10 (decimalValue ds) = ds := by
  -- the decimal form grows at its end, and so must the digits
  induction ds using List.reverseRecOn with
  | nil => exact absurd rfl hne
  | append_singleton ds d ih =>
    obtain ⟨k, hk, rfl⟩ := exists_digitChar (hds d (by simp))
    rw [decimalValue_concat, decimalValue_digitChar hk]
    cases ds with
    | nil =>
      rw [decimalValue, Nat.mul_zero, Nat.zero_add]
      exact Nat.toDigits_of_lt_base hk
    | cons c cs =>
      have hhead : (c :: cs).head? ≠ some '0' := by
        intro hzero
        have hall := hleading hzero
        simp at hall
      have hfront : ∀ d ∈ c :: cs, IsDigit d := fun d hd => hds d (List.mem_append_left _ hd)
      have hpos := decimalValue_pos hfront (List.cons_ne_nil c cs) hhead
      rw [← Nat.toDigits_append_toDigits (by decide) hpos hk, Nat.toDigits_of_lt_base hk,
        ih hfront (List.cons_ne_nil c cs) fun hzero => absurd hzero hhead]

/-- The decimal form of a natural number has no superfluous zero. -/
theorem noLeadingZero_toDigits (n : Nat) : NoLeadingZero (Nat.toDigits 10 n) := by
  induction n using Nat.strongRecOn with
  | ind n ih =>
    rcases Nat.lt_or_ge n 10 with hlt | hge
    · rw [Nat.toDigits_of_lt_base hlt]
      intro hhead
      exact congrArg (List.cons · []) (Option.some.inj hhead)
    · rw [Nat.toDigits_of_base_le (by decide) hge]
      intro hhead
      -- the front is the decimal form of a number that is not zero
      obtain ⟨d, ds, hfront⟩ := List.exists_cons_of_ne_nil (@Nat.toDigits_ne_nil (n / 10) 10)
      rw [hfront] at hhead
      have hall := ih (n / 10) (by omega) (hfront ▸ hhead)
      have hvalue := (toDigits_spec (n / 10)).2.2
      rw [hall] at hvalue
      have hzero : 0 = n / 10 := hvalue
      omega

/-! ### Decimal forms of integers -/

/-- The decimal form of an integer is canonical. -/
theorem canonical_ofInt (v : Int) : Canonical (Decimal.ofInt v).toList := by
  cases v with
  | ofNat n =>
    have hds := (toDigits_spec n).2.1
    rw [Decimal.ofInt, Nat.toList_repr]
    refine ⟨?_, ?_⟩
    · rw [unsigned_of_digits hds]
      exact noLeadingZero_toDigits n
    · intro hminus
      rw [hminus] at hds
      exact absurd (hds '-' List.mem_cons_self) (by decide)
  | negSucc n =>
    rw [Decimal.ofInt, String.toList_append, Nat.toList_repr]
    refine ⟨noLeadingZero_toDigits (n + 1), ?_⟩
    intro hminus
    have hzero : Nat.toDigits 10 (n + 1) = ['0'] := (List.cons_eq_cons.1 hminus).2
    have hvalue := (toDigits_spec (n + 1)).2.2
    rw [hzero] at hvalue
    cases hvalue

/-- A canonical literal is the decimal form of its value. -/
theorem Literal.ofInt_eq (h : Literal l v) (hcanonical : Canonical l) :
    (Decimal.ofInt v).toList = l := by
  cases h with
  | plain hne hds =>
    have hleading := hcanonical.noLeadingZero
    rw [unsigned_of_digits hds] at hleading
    show (Nat.repr _).toList = _
    rw [Nat.toList_repr, toDigits_decimalValue hds hne hleading]
  | @minus ds hne hds =>
    have hdigits := toDigits_decimalValue hds hne hcanonical.noLeadingZero
    cases hvalue : decimalValue ds with
    | zero =>
      rw [hvalue] at hdigits
      exact absurd (congrArg (List.cons '-') hdigits.symm) hcanonical.noMinusZero
    | succ n =>
      rw [hvalue] at hdigits
      show ("-" ++ Nat.repr (n + 1)).toList = _
      rw [String.toList_append, Nat.toList_repr, hdigits]
      rfl

/-- **The decimal form of its value is the literal itself if that is canonical.** -/
theorem Literal.ofInt_eq_iff (h : Literal l v) :
    (Decimal.ofInt v).toList = l ↔ Canonical l := by
  refine ⟨?_, h.ofInt_eq⟩
  rintro rfl
  exact canonical_ofInt v

end Intcode.Numeral
