import Intcode.Address
import Std.Data.TreeMap

namespace Intcode

/-!
# Memory

A memory is an integer store without an end: every address holds a value, zero until something is
written there.  Low cells lie in a flat array that grows to the highest low cell touched, by a read
or by a write; cells from `denseLimit` on that were not in the initial image lie in a sparse map, so
touching a far address costs one entry and not an array.  No cell lies in both parts.

* `Memory.lookup`    — the value at a cell: the memory as a total map
* `Memory.touch`     — makes room for a low cell
* `Memory.read`      — the value at an address, and the memory after the access
* `Memory.write`     — the memory after storing a value
* `Memory.length`    — one more than the highest cell in use

What an access does to the total map is said by `lookup_touch` and `lookup_write`: reading leaves it
alone, and writing changes one cell.
-/

/-- The number of cells up to which the flat array grows on demand, the 20th power of two. -/
def denseLimit : Nat := 1048576

/-- An integer store: flat cells from zero on, and sparse cells beyond them. -/
structure Memory where
  flat : Array Int
  sparse : Std.TreeMap Nat Int
  /-- A sparse cell lies beyond the flat ones and beyond the limit of their growth. -/
  sparse_beyond : ∀ n ∈ sparse, flat.size ≤ n ∧ denseLimit ≤ n

/-- The memory that holds a list of cells from address zero on. -/
def Memory.ofList (cells : List Int) : Memory where
  flat := cells.toArray
  sparse := ∅
  sparse_beyond := by simp

/-- The value at a cell, zero where nothing was stored. -/
def Memory.lookup (m : Memory) (n : Nat) : Int :=
  match m.flat[n]? with
  | some v => v
  | none => m.sparse.getD n 0

/-! ### Growing -/

/-- Flat cells, extended by zeros so that cell `n` is among them. -/
def extendTo (flat : Array Int) (n : Nat) : Array Int :=
  if n < flat.size then flat else flat ++ Array.replicate (n + 1 - flat.size) 0

theorem size_extendTo (flat : Array Int) (n : Nat) :
    (extendTo flat n).size = max flat.size (n + 1) := by
  unfold extendTo
  split
  · omega
  · simp only [Array.size_append, Array.size_replicate]
    omega

/-- Cells that were there stay as they were, and the new ones hold zero. -/
theorem getElem?_extendTo (flat : Array Int) (n k : Nat) :
    (extendTo flat n)[k]? =
      if k < flat.size then flat[k]? else if k ≤ n then some 0 else none := by
  unfold extendTo
  by_cases hk : k < flat.size
  · by_cases hn : n < flat.size
    · simp [hn, hk]
    · simp [hn, hk, Array.getElem?_append]
  · by_cases hn : n < flat.size
    · have hkn : ¬ k ≤ n := by omega
      simp [hn, hk, hkn]
    · simp only [hn, hk, if_false, Array.getElem?_append, Array.getElem?_replicate]
      by_cases hkn : k ≤ n
      · have : k - flat.size < n + 1 - flat.size := by omega
        simp [this, hkn]
      · have : ¬ k - flat.size < n + 1 - flat.size := by omega
        simp [this, hkn]

/-- A cell belongs to the flat array if it lies in it already or below the limit of its growth. -/
def Memory.isFlat (m : Memory) (n : Nat) : Bool := n < m.flat.size || n < denseLimit

/-- Flat cells may grow to hold a cell that belongs to them. -/
theorem Memory.size_extendTo_le {m : Memory} {n : Nat} (h : m.isFlat n) {k : Nat}
    (hk : k ∈ m.sparse) : (extendTo m.flat n).size ≤ k := by
  have hbeyond := m.sparse_beyond k hk
  simp only [isFlat, Bool.or_eq_true, decide_eq_true_eq] at h
  rw [size_extendTo]
  omega

/-- Makes room for cell `n` if it belongs to the flat array. -/
def Memory.touch (m : Memory) (n : Nat) : Memory :=
  if h : m.isFlat n then
    { m with
      flat := extendTo m.flat n
      sparse_beyond := fun _ hk => ⟨size_extendTo_le h hk, (m.sparse_beyond _ hk).2⟩ }
  else m

/-- Making room changes no value. -/
@[simp] theorem Memory.lookup_touch (m : Memory) (n k : Nat) :
    (m.touch n).lookup k = m.lookup k := by
  unfold touch
  split
  · rename_i h
    simp only [lookup, getElem?_extendTo]
    by_cases hk : k < m.flat.size
    · simp [hk]
    · by_cases hkn : k ≤ n
      · have hout : k ∉ m.sparse := by
          intro hmem
          have := size_extendTo_le h hmem
          rw [size_extendTo] at this
          omega
        simp [hk, hkn, Std.TreeMap.getD_eq_fallback hout]
      · simp [hk, hkn]
  · rfl

/-! ### Access -/

/-- The value at an address, and the memory after the access, which may have grown. -/
def Memory.read (m : Memory) (a : Address) : Int × Memory :=
  let m := m.touch a.index
  (m.lookup a.index, m)

/-- Stores a value at an address. -/
def Memory.write (m : Memory) (a : Address) (v : Int) : Memory :=
  if h : m.isFlat a.index then
    { m with
      flat := (extendTo m.flat a.index).setIfInBounds a.index v
      sparse_beyond := by
        intro k hk
        rw [Array.size_setIfInBounds]
        exact ⟨size_extendTo_le h hk, (m.sparse_beyond k hk).2⟩ }
  else
    { m with
      sparse := m.sparse.insert a.index v
      sparse_beyond := by
        intro k hk
        simp only [isFlat, Bool.or_eq_true, decide_eq_true_eq] at h
        rcases Std.TreeMap.mem_insert.1 hk with heq | hk
        · have : a.index = k := Std.LawfulEqOrd.eq_of_compare heq
          omega
        · exact m.sparse_beyond k hk }

/-- Reading an address gives the value there. -/
@[simp] theorem Memory.read_fst (m : Memory) (a : Address) :
    (m.read a).1 = m.lookup a.index := by
  simp [read]

/-- Reading changes no value. -/
@[simp] theorem Memory.lookup_read (m : Memory) (a : Address) (k : Nat) :
    (m.read a).2.lookup k = m.lookup k := by
  simp [read]

/-- Writing changes the value at its address and no other. -/
theorem Memory.lookup_write (m : Memory) (a : Address) (v : Int) (k : Nat) :
    (m.write a v).lookup k = if k = a.index then v else m.lookup k := by
  by_cases h : m.isFlat a.index
  · have htouch : (m.touch a.index).lookup k = m.lookup k := lookup_touch m a.index k
    simp only [touch, h, dif_pos, lookup] at htouch
    simp only [write, h, dif_pos, lookup, Array.getElem?_setIfInBounds]
    by_cases hk : k = a.index
    · have hlt : a.index < (extendTo m.flat a.index).size := by
        rw [size_extendTo]
        omega
      simp [hk, hlt]
    · have hne : ¬ a.index = k := fun heq => hk heq.symm
      simp only [hk, hne, if_false]
      exact htouch
  · have hsize : m.flat.size ≤ a.index := by
      simp only [isFlat, Bool.or_eq_true, decide_eq_true_eq] at h
      omega
    have hwrite : (m.write a v).lookup k =
        match m.flat[k]? with
        | some v => v
        | none => (m.sparse.insert a.index v).getD k 0 := by
      simp only [write, h, lookup, Bool.false_eq_true, dite_false]
    rw [hwrite, Std.TreeMap.getD_insert]
    by_cases hk : k = a.index
    · have hnone : m.flat[a.index]? = none := Array.getElem?_eq_none hsize
      simp [hk, hnone]
    · have hne : ¬ compare a.index k = .eq := fun heq =>
        hk (Std.LawfulEqOrd.eq_of_compare heq).symm
      simp [hk, hne, lookup]

/-! ### Sizes -/

/-- One more than the highest cell in use.  It may be one too many for an index (`extent`). -/
def Memory.length (m : Memory) : Nat :=
  match m.sparse.maxKey? with
  | some top => max m.flat.size (top + 1)
  | none => m.flat.size

/-- The sparse cells with their values, in ascending order. -/
def Memory.sparseCells (m : Memory) : List (Nat × Int) := m.sparse.toList

/-- A line that tells the sizes of both parts. -/
def Memory.summary (m : Memory) : String :=
  s!"Memory({m.flat.size} cells, {m.sparse.size} sparse)"

end Intcode
