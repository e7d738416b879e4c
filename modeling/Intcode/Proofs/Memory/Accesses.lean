import Intcode.Memory.Access
import Intcode.Proofs.Text.Literal

namespace Intcode.Memory

/-!
# Accesses to a memory

A caller gets and sets values in any order, at whatever is offered as an address.  Between two
accesses cells may come to lie in the flat array, or in the sparse map, but the answers do not show
it: a memory answers as a total store does, zero where nothing was put.  What is no address is
refused, as what it is unless it has too many digits to be written.

* `Access`, `perform`, `run`     — accesses one after another
* `Access.stored?`, `latest?`    — the value an access stores at a place, and the latest one
* `lookup_perform`, `lookup_run` — what an access and a sequence of them do to the total map
* `get_run`                      — what is answered after any sequence
-/

/-- An access from outside, at whatever is offered as an address. -/
inductive Access where
  | get (place : Offer)
  | set (place : Offer) (v : Int)
  deriving Repr, DecidableEq

/-- The memory after an access, be it refused or not. -/
def perform (m : Memory) : Access → Memory
  | .get place => (m.get place).2
  | .set place v => (m.set place v).2

/-- The memory after accesses one after another. -/
def run (m : Memory) (accesses : List Access) : Memory := accesses.foldl perform m

/-- The value that an access offers to store at `n`.  Only integers stand for places. -/
def Access.stored? (n : Int) : Access → Option Int
  | .set (.int place) v => if place = n then some v else none
  | _ => none

/-- The latest value stored at `n`, if there is one. -/
def latest? (n : Int) (accesses : List Access) : Option Int :=
  (accesses.filterMap (Access.stored? n)).getLast?

/-! ### Offers -/

/-- An integer in range denotes the address it is the value of. -/
theorem resolve_toInt (a : Address) : (Offer.int a.toInt).resolve = .ok a := by
  have ha : Address.ofInt? a.toInt = some a := Address.ofInt?_eq_some_iff.2 rfl
  simp [Offer.resolve, Offer.address?, ha]

/-- What can be written is refused as what it is. -/
theorem refusal_of_writable {place : Offer}
    (hplace : ∀ n, place = .int n → Decimal.digitCount n ≤ digitLimit) :
    place.refusal = .outOfBounds place := by
  cases place with
  | int n => exact if_pos (decide_eq_true (hplace n rfl))
  | bool | nothing | float | text => rfl

/-- An integer with too many digits is not even named. -/
theorem refusal_of_overlong {n : Int} (hn : digitLimit < Decimal.digitCount n) :
    (Offer.int n).refusal = .overlong .written :=
  if_neg fun hwritable => Nat.not_le.2 hn (of_decide_eq_true hwritable)

/-- All addresses can be written. -/
theorem out_of_overlong {n : Int} (hn : digitLimit < Decimal.digitCount n) :
    n < 0 ∨ maxAddress < n := by
  by_contra hin
  have hsmall : n.natAbs < 10 ^ 19 := by
    have hmax : maxAddress < 10 ^ 19 := by decide
    omega
  have hcount := (Numeral.digitCount_le_iff (by decide)).2 hsmall
  exact absurd (Nat.lt_of_lt_of_le hn hcount) (by decide)

/-- Whatever is no integer in range is refused. -/
theorem resolve_eq_error {place : Offer} (hplace : ∀ n, place = .int n → n < 0 ∨ maxAddress < n) :
    place.resolve = .error place.refusal := by
  have hnone : place.address? = none := by
    cases place with
    | int n => exact Address.ofInt?_eq_none_iff.2 (hplace n rfl)
    | bool | nothing | float | text => rfl
  simp [Offer.resolve, hnone]

/-- An offer is resolved to the address it has as its value, or it is refused. -/
theorem resolve_cases (place : Offer) :
    (∃ a : Address, place = .int a.toInt ∧ place.resolve = .ok a) ∨
      (∀ n, place = .int n → n < 0 ∨ maxAddress < n) ∧
        place.resolve = .error place.refusal := by
  cases place with
  | int v =>
    cases hv : Address.ofInt? v with
    | some a =>
      obtain rfl := Address.ofInt?_eq_some_iff.1 hv
      exact .inl ⟨a, rfl, resolve_toInt a⟩
    | none =>
      have hout : ∀ n, Offer.int v = .int n → n < 0 ∨ maxAddress < n := by
        rintro n ⟨⟩
        exact Address.ofInt?_eq_none_iff.1 hv
      exact .inr ⟨hout, resolve_eq_error hout⟩
  | bool | nothing | float | text => exact .inr ⟨nofun, rfl⟩

/-- An integer in range is the value of an address. -/
theorem exists_eq_toInt {n : Int} (hlow : 0 ≤ n) (hhigh : n ≤ maxAddress) :
    ∃ a : Address, n = a.toInt :=
  ⟨⟨n.toNat, by omega⟩, (Int.toNat_of_nonneg hlow).symm⟩

/-! ### The total map -/

/-- The image, with zeros behind it. -/
theorem lookup_ofList (cells : List Int) (n : Nat) : (ofList cells).lookup n = cells.getD n 0 := by
  rcases Nat.lt_or_ge n cells.length with hlt | hge
  · simp [lookup, ofList, hlt]
  · simp [lookup, ofList, hge]

/-- **An access gives a place the value it stores there** and leaves all other places alone. -/
theorem lookup_perform (m : Memory) (access : Access) (a : Address) :
    (m.perform access).lookup a.index =
      (access.stored? a.toInt).getD (m.lookup a.index) := by
  cases access with
  | get place =>
    rcases resolve_cases place with ⟨b, -, hresolve⟩ | ⟨-, hresolve⟩
    · simp [perform, Memory.get, hresolve, Access.stored?]
    · simp [perform, Memory.get, hresolve, Access.stored?]
  | set place v =>
    rcases resolve_cases place with ⟨b, rfl, hresolve⟩ | ⟨hplace, hresolve⟩
    · simp only [perform, Memory.set, hresolve, lookup_write, Access.stored?]
      have hsame : a.index = b.index ↔ b.toInt = a.toInt := by
        simp only [Address.toInt]
        omega
      by_cases hab : a.index = b.index
      · rw [if_pos hab, if_pos (hsame.1 hab)]
        rfl
      · rw [if_neg hab, if_neg (fun h => hab (hsame.2 h))]
        rfl
    · -- what is refused is not the value of an address
      have hnone : (Access.set place v).stored? a.toInt = none := by
        cases place with
        | bool | nothing | float | text => rfl
        | int n =>
          have hle := a.index_le
          have hout := hplace n rfl
          refine if_neg ?_
          simp only [Address.toInt]
          omega
      simp [perform, Memory.set, hresolve, hnone]

/-- **Accesses give a place the latest value stored there.** -/
theorem lookup_run (m : Memory) (accesses : List Access) (a : Address) :
    (m.run accesses).lookup a.index = (latest? a.toInt accesses).getD (m.lookup a.index) := by
  induction accesses generalizing m with
  | nil => rfl
  | cons access accesses ih =>
    have hrun : m.run (access :: accesses) = (m.perform access).run accesses := rfl
    rw [hrun, ih, lookup_perform]
    unfold latest?
    cases hstored : access.stored? a.toInt with
    | none => rw [List.filterMap_cons_none hstored]; rfl
    | some v =>
      -- the first value counts only if no other comes after it
      rw [List.filterMap_cons_some hstored, List.getLast?_cons]
      cases (accesses.filterMap (Access.stored? a.toInt)).getLast? <;> rfl

/-- **A memory is a total store.**  Whatever has been got and set before, at whatever places: an
    integer in range gets the latest value set there, or else that of the image, or else zero, and
    can be set; anything else is refused, and the memory is as it was.  What is refused is named,
    unless it is an integer with too many digits to be written. -/
theorem get_run (cells : List Int) (accesses : List Access) :
    let m := (ofList cells).run accesses
    (∀ n : Int, 0 ≤ n → n ≤ maxAddress →
      (m.get (.int n)).1 = .ok ((latest? n accesses).getD (cells.getD n.toNat 0)) ∧
        ∀ v, (m.set (.int n) v).1 = .ok ()) ∧
    ∀ place : Offer, (∀ n, place = .int n → n < 0 ∨ maxAddress < n) →
      ∃ f, m.get place = (.error f, m) ∧ (∀ v, m.set place v = (.error f, m)) ∧
        ((∀ n, place = .int n → Decimal.digitCount n ≤ digitLimit) → f = .outOfBounds place) ∧
        ∀ n, place = .int n → digitLimit < Decimal.digitCount n → f = .overlong .written := by
  intro m
  constructor
  · intro n hlow hhigh
    obtain ⟨a, rfl⟩ := exists_eq_toInt hlow hhigh
    have hvalue := lookup_run (ofList cells) accesses a
    rw [lookup_ofList] at hvalue
    constructor
    · simp only [Memory.get, resolve_toInt, read_fst, m, hvalue]
      rfl
    · intro v
      simp [Memory.set, resolve_toInt]
  · intro place hplace
    have hresolve := resolve_eq_error hplace
    refine ⟨place.refusal, ?_, fun v => ?_, refusal_of_writable, ?_⟩
    · simp [Memory.get, hresolve]
    · simp [Memory.set, hresolve]
    · rintro n rfl hlong
      exact refusal_of_overlong hlong

/-- After a far cell, a low cell behind the image and a cell of the image have been set, the second
    one through a growing array, each keeps its own value; the truth value `true` is no address. -/
theorem get_run_of_far :
    let accesses : List Access := [.set (.int 4611686018427387904) 5, .get (.int 6),
      .set (.int 4) 7, .set (.bool true) 9, .set (.int 0) 8, .set (.int 4) 6]
    let m := (ofList [1, 2]).run accesses
    (m.get (.int 4611686018427387904)).1 = .ok 5 ∧ (m.get (.int 4)).1 = .ok 6 ∧
      (m.get (.int 1)).1 = .ok 2 ∧ (m.get (.int 9223372036854775807)).1 = .ok 0 ∧
      m.get (.bool true) = (.error (.outOfBounds (.bool true)), m) ∧
      m.get (.int (-1)) = (.error (.outOfBounds (.int (-1))), m) := by
  intro accesses m
  obtain ⟨hvalid, hrefused⟩ := get_run [1, 2] accesses
  obtain ⟨f, htrue, -, hnamed, -⟩ := hrefused (.bool true) (by rintro n ⟨⟩)
  obtain rfl := hnamed (by rintro n ⟨⟩)
  have hout : ∀ n, Offer.int (-1) = .int n → n < 0 ∨ maxAddress < n := by
    rintro n ⟨⟩
    decide
  obtain ⟨f, hnegative, -, hnamed, -⟩ := hrefused (.int (-1)) hout
  obtain rfl := hnamed (by rintro n ⟨⟩; decide +kernel)
  exact ⟨(hvalid _ (by decide) (by decide)).1, (hvalid _ (by decide) (by decide)).1,
    (hvalid _ (by decide) (by decide)).1, (hvalid _ (by decide) (by decide)).1, htrue, hnegative⟩

/-- **A place that is refused without a name.**  It has one digit more than is written. -/
theorem get_power :
    (∀ n, Offer.int (10 ^ digitLimit) = .int n → n < 0 ∨ maxAddress < n) ∧
      ((ofList []).get (.int (10 ^ digitLimit))).1 = .error (.overlong .written) ∧
      ((ofList []).get (.int (10 ^ digitLimit))).1 ≠
        .error (.outOfBounds (.int (10 ^ digitLimit))) := by
  have hout : ∀ n, Offer.int (10 ^ digitLimit) = .int n → n < 0 ∨ maxAddress < n := by
    rintro n ⟨⟩
    exact out_of_overlong Numeral.overlong_pow
  have hget : ((ofList []).get (.int (10 ^ digitLimit))).1 = .error (.overlong .written) := by
    simp only [Memory.get, resolve_eq_error hout, refusal_of_overlong Numeral.overlong_pow]
  rw [hget]
  exact ⟨hout, rfl, nofun⟩

end Intcode.Memory
