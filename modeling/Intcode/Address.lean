import Intcode.Text.Decimal

namespace Intcode

/-!
# Addresses

A memory address is a natural number that fits a signed 64-bit word.  What a caller or a program
offers as an address may be anything; `Offer` names the kinds of values that can be offered, and
`Offer.address?` accepts exactly the integers in range.

* `Address`          — the valid addresses
* `Address.ofInt?`   — the valid address with a given value
* `Offer`            — a value offered as an address
* `Offer.render`     — its written form in a message
-/

/-- The largest address, one less than the 63rd power of two. -/
def maxAddress : Nat := 9223372036854775807

/-- A valid address. -/
structure Address where
  /-- The number of the cell. -/
  index : Nat
  index_le : index ≤ maxAddress := by decide
  deriving DecidableEq

/-- The valid address with the given value, if there is one. -/
def Address.ofInt? : Int → Option Address
  | .ofNat n => if h : n ≤ maxAddress then some ⟨n, h⟩ else none
  | .negSucc _ => none

/-- The value of an address. -/
def Address.toInt (a : Address) : Int := a.index

/-- An integer denotes the address it is the value of. -/
theorem Address.ofInt?_eq_some_iff {v : Int} {a : Address} :
    Address.ofInt? v = some a ↔ v = a.toInt := by
  obtain ⟨n, hn⟩ := a
  cases v with
  | ofNat k =>
    by_cases hk : k ≤ maxAddress
    · simp only [ofInt?, hk, dif_pos, toInt, Option.some.injEq, Address.mk.injEq]
      exact ⟨congrArg Int.ofNat, Int.ofNat.inj⟩
    · simp only [ofInt?, hk, not_false_eq_true, dif_neg, reduceCtorEq, false_iff]
      intro heq
      exact hk (Int.ofNat.inj heq ▸ hn)
  | negSucc k =>
    simp only [ofInt?, reduceCtorEq, false_iff]
    intro heq
    cases heq

/-- An integer out of range denotes no address. -/
theorem Address.ofInt?_eq_none_iff {v : Int} :
    Address.ofInt? v = none ↔ v < 0 ∨ (maxAddress : Int) < v := by
  cases v with
  | ofNat k =>
    by_cases hk : k ≤ maxAddress
    · simp only [ofInt?, hk, dif_pos, reduceCtorEq, Int.ofNat_eq_natCast, false_iff]
      omega
    · simp only [ofInt?, hk, dif_neg, not_false_eq_true, Int.ofNat_eq_natCast, true_iff]
      omega
  | negSucc k =>
    simp only [ofInt?, true_iff]
    omega

/-- A value offered as an address. -/
inductive Offer where
  | int (v : Int)
  | bool (b : Bool)
  /-- The absence of a value. -/
  | nothing
  /-- A floating-point number, by its written form. -/
  | float (written : String)
  | text (s : String)
  deriving Repr, DecidableEq

/-- The written form of an offered value. -/
def Offer.render : Offer → String
  | .int v => Decimal.ofInt v
  | .bool true => "True"
  | .bool false => "False"
  | .nothing => "None"
  | .float written => written
  | .text s => s

/-- The address an offered value denotes: only integers in range denote one. -/
def Offer.address? : Offer → Option Address
  | .int v => Address.ofInt? v
  | _ => none

end Intcode
