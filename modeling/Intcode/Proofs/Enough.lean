import Intcode.Proofs.FairSchedule
import Intcode.Proofs.LongerInput
import Intcode.Proofs.Network.Join

namespace Intcode

/-!
# Enough steps

A run is given a number of steps, or of rounds, and tells if these were too few.  If they were
enough, more of them change nothing.

* `Lasts`                        — a result that is there with some steps is the same with more
* `Lasts.eq`                     — so there is only one
* `Batch.lasts_result`           — batch runs
* `Network.settle_of_isSettled`, `Network.joinAll_of_not_isSettled` — networks
-/

variable {α β σ : Type}

/-- The later result is the earlier one, unless the earlier run was not over. -/
def Lasts (earlier later : Except Error α) : Prop :=
  earlier ≠ .error .unfinished → later = earlier

namespace Lasts

variable {x y : Except Error α}

/-- What is done with a result that lasts lasts. -/
theorem bind {f g : α → Except Error β} (hxy : Lasts x y) (hfg : ∀ a, Lasts (f a) (g a)) :
    Lasts (x >>= f) (y >>= g) := by
  intro hover
  cases x with
  | error cause =>
    have hx : Except.error cause ≠ (Except.error .unfinished : Except Error α) := by
      rintro ⟨⟩
      exact hover rfl
    rw [hxy hx]
    rfl
  | ok a =>
    rw [hxy nofun]
    exact hfg a hover

theorem map (f : α → β) (hxy : Lasts x y) : Lasts (x.map f) (y.map f) := by
  intro hover
  have hx : x ≠ .error .unfinished := by
    rintro rfl
    exact hover rfl
  rw [hxy hx]

/-- A loop whose rounds last lasts. -/
theorem foldlM {f g : σ → α → Except Error σ} (hfg : ∀ s a, Lasts (f s a) (g s a)) (l : List α)
    (s : σ) : Lasts (l.foldlM f s) (l.foldlM g s) := by
  induction l generalizing s with
  | nil => exact fun _ => rfl
  | cons a l ih =>
    rw [List.foldlM_cons, List.foldlM_cons]
    exact (hfg s a).bind ih

/-- **What a run comes to does not depend on how long one waits for it.** -/
theorem eq {f : Nat → Except Error α} (hlasts : ∀ k m, k ≤ m → Lasts (f k) (f m)) {k m : Nat}
    (hk : f k ≠ .error .unfinished) (hm : f m ≠ .error .unfinished) : f m = f k := by
  rcases Nat.le_total k m with hkm | hmk
  · exact hlasts k m hkm hk
  · exact (hlasts m k hmk hm).symm

end Lasts

/-- If each of some things is so with enough steps, then all are. -/
theorem exists_enough_forall {l : List α} {holds : α → Nat → Prop}
    (hl : ∀ a ∈ l, ∃ enough, ∀ k, enough ≤ k → holds a k) :
    ∃ enough, ∀ k, enough ≤ k → ∀ a ∈ l, holds a k := by
  induction l with
  | nil => exact ⟨0, fun _ _ => nofun⟩
  | cons a l ih =>
    obtain ⟨hfirst, hrest⟩ := List.forall_mem_cons.1 hl
    obtain ⟨first, hfirst⟩ := hfirst
    obtain ⟨rest, hrest⟩ := ih hrest
    refine ⟨max first rest, fun k hk => List.forall_mem_cons.2 ⟨hfirst k ?_, hrest k ?_⟩⟩
    · omega
    · omega

/-! ### Batch runs -/

/-- A run whose result is there has ended. -/
theorem Batch.isRunning_of_result {b : Batch} (hover : b.result ≠ .error .unfinished) :
    b.engine.isRunning = false := by
  rw [Engine.isRunning_eq_false_iff]
  intro hrunning
  apply hover
  simp [result, Engine.outcome, hrunning, Except.map]

/-- **The result of a batch run lasts.** -/
theorem Batch.lasts_result {e : Engine} (hreq : e.request = none) (inputs : List Int) {k m : Nat}
    (hkm : k ≤ m) : Lasts (execute k e (some inputs)).result (execute m e (some inputs)).result := by
  intro hover
  have hended := isRunning_of_result hover
  rw [execute_eq_progress hreq] at hended ⊢
  rw [execute_eq_progress hreq, progress_of_ended hended hkm]

/-! ### Networks -/

namespace Network

variable {n : Network} {k m : Nat}

/-- More rounds change nothing once a network is settled. -/
theorem settle_of_isSettled (hsettled : (n.settle k).isSettled = true) (hkm : k ≤ m) :
    n.settle m = n.settle k := by
  -- by induction on the rounds that were enough; the network is another after each of them
  induction k generalizing n m with
  | zero =>
    cases m with
    | zero => rfl
    | succ m => exact if_pos hsettled
  | succ k ih =>
    obtain ⟨m, rfl⟩ : ∃ m', m = m' + 1 := ⟨m - 1, by omega⟩
    rw [settle] at hsettled ⊢
    rw [settle]
    by_cases hnow : n.isSettled = true
    · rw [if_pos hnow, if_pos hnow]
    · rw [if_neg hnow] at hsettled ⊢
      rw [if_neg hnow]
      exact ih hsettled (Nat.le_of_succ_le_succ hkm)

/-- Who can step has not ended. -/
theorem exists_isAlive (hunsettled : n.isSettled = false) :
    ∃ w ∈ n.workers.toList, w.isAlive = true := by
  rw [isSettled, List.all_eq_false] at hunsettled
  obtain ⟨i, -, hcan⟩ := hunsettled
  unfold canStep at hcan
  cases hworker : n.workers[i]? with
  | none => simp [hworker] at hcan
  | some w =>
    refine ⟨w, Array.mem_toList_iff.2 (Array.mem_of_getElem? hworker), ?_⟩
    cases hphase : w.phase with
    | ended => simp [hworker, hphase] at hcan
    | _ => simp [Worker.isAlive, hphase]

/-- Joining all workers tells nothing as long as the network is not settled. -/
theorem joinAll_of_not_isSettled (hunsettled : n.isSettled = false) :
    n.joinAll n.workers.toList none = .error .unfinished :=
  joinAll_of_alive (exists_isAlive hunsettled)

end Network

end Intcode
