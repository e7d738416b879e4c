import Intcode.Memory.Basic
import Intcode.Fault

namespace Intcode

/-!
# Access to memory from outside

A caller may offer anything as an address.  What denotes no address is refused, and the memory stays
as it was.

* `Offer.resolve`  — the address an offer denotes, or the refusal
* `Memory.get`     — the value at an offered address
* `Memory.set`     — stores a value at an offered address
-/

/-- The address an offer denotes, or the fault that refuses it. -/
def Offer.resolve (place : Offer) : Except Fault Address :=
  match place.address? with
  | some a => .ok a
  | none => .error place.refusal

/-- The value at an offered address, with the memory after the access. -/
def Memory.get (m : Memory) (place : Offer) : Except Fault Int × Memory :=
  match place.resolve with
  | .ok a =>
    let (v, m) := m.read a
    (.ok v, m)
  | .error f => (.error f, m)

/-- Stores a value at an offered address. -/
def Memory.set (m : Memory) (place : Offer) (v : Int) : Except Fault Unit × Memory :=
  match place.resolve with
  | .ok a => (.ok (), m.write a v)
  | .error f => (.error f, m)

end Intcode
