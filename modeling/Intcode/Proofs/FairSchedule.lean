import Intcode.Network.Settle
import Intcode.Proofs.Turns

namespace Intcode.Network

/-!
# The fair schedule

Settling a network is following a schedule, one that is long enough: it goes on taking turns until
the network is settled.

* `round`                      — the turns of all workers, a slice each
* `turn_eq_follow`             — a turn of every worker is such a round
* `exists_settle_eq_follow`    — settling is following a schedule
-/

/-- The turns of all workers, a slice each. -/
def round (n : Network) : List Nat :=
  (List.range n.workers.size).flatMap (List.replicate timeSlice)

theorem follow_append (n : Network) (schedule schedule' : List Nat) :
    n.follow (schedule ++ schedule') = (n.follow schedule).follow schedule' := by
  induction schedule generalizing n with
  | nil => rfl
  | cons i schedule ih =>
    rw [List.cons_append, follow, follow]
    split
    · exact ih _
    · exact ih _

theorem turns_append (n : Network) (schedule schedule' : List Nat) :
    n.turns (schedule ++ schedule') =
      n.turns schedule + (n.follow schedule).turns schedule' := by
  induction schedule generalizing n with
  | nil => exact (Nat.zero_add _).symm
  | cons i schedule ih =>
    rw [List.cons_append, turns, turns, follow]
    split
    · rw [ih]
      omega
    · exact ih _

/-- A schedule in which every turn is passed over changes nothing, and nobody in it can step. -/
theorem follow_of_turns_eq_zero {n : Network} {schedule : List Nat} (hnone : n.turns schedule = 0) :
    n.follow schedule = n ∧ ∀ i ∈ schedule, n.canStep i = false := by
  induction schedule with
  | nil => exact ⟨rfl, nofun⟩
  | cons i schedule ih =>
    rw [turns] at hnone
    rw [follow]
    split at hnone
    · cases hnone
    · rename_i hcan
      rw [if_neg hcan]
      obtain ⟨hsame, hstuck⟩ := ih hnone
      refine ⟨hsame, fun j hj => ?_⟩
      rcases List.mem_cons.1 hj with rfl | hj
      · exact eq_false_of_ne_true hcan
      · exact hstuck j hj

/-- A slice of a worker is a schedule of its turns. -/
theorem advance_eq_follow (slice : Nat) (n : Network) (i : Nat) :
    advance slice n i = n.follow (List.replicate slice i) := by
  induction slice generalizing n with
  | zero => rfl
  | succ slice ih =>
    rw [advance, List.replicate_succ, follow]
    cases hcan : n.canStep i with
    | true => exact ih _
    | false =>
      -- who cannot step now cannot step in the rest of the slice
      have hrest := ih n
      cases slice with
      | zero => rfl
      | succ slice =>
        rw [advance, hcan] at hrest
        exact hrest

theorem foldl_advance_eq_follow (slice : Nat) (n : Network) (workers : List Nat) :
    workers.foldl (advance slice) n = n.follow (workers.flatMap (List.replicate slice)) := by
  induction workers generalizing n with
  | nil => rfl
  | cons i workers ih =>
    rw [List.foldl_cons, ih, List.flatMap_cons, follow_append, advance_eq_follow]

/-- A turn of every worker is a round. -/
theorem turn_eq_follow (n : Network) : n.turn = n.follow n.round :=
  foldl_advance_eq_follow timeSlice n _

/-- In a round of a network that is not settled somebody takes a turn. -/
theorem isSettled_of_turns_round {n : Network} (hnone : n.turns n.round = 0) :
    n.isSettled = true := by
  obtain ⟨_, hstuck⟩ := follow_of_turns_eq_zero hnone
  unfold isSettled
  apply List.all_eq_true.2
  intro i hi
  have hmem : i ∈ n.round :=
    List.mem_flatMap.2 ⟨i, hi, List.mem_replicate.2 ⟨by decide, rfl⟩⟩
  rw [hstuck i hmem]
  rfl

/-- **Settling is following a schedule**, and as long as the network is not settled every round of
    it takes a turn. -/
theorem exists_settle_eq_follow (fuel : Nat) (n : Network) :
    ∃ schedule, n.settle fuel = n.follow schedule ∧
      ((n.settle fuel).isSettled = true ∨ fuel ≤ n.turns schedule) := by
  induction fuel generalizing n with
  | zero => exact ⟨[], rfl, .inr (Nat.zero_le _)⟩
  | succ fuel ih =>
    rw [settle]
    split
    · rename_i hsettled
      exact ⟨[], rfl, .inl hsettled⟩
    · rename_i hunsettled
      obtain ⟨schedule, hfollow, hlong⟩ := ih n.turn
      rw [turn_eq_follow] at hfollow hlong ⊢
      refine ⟨n.round ++ schedule, ?_, ?_⟩
      · rw [follow_append]
        exact hfollow
      · rw [turns_append]
        -- the first round takes at least one turn
        have hround : n.turns n.round ≠ 0 := fun h => hunsettled (isSettled_of_turns_round h)
        exact hlong.imp_right fun h => by omega

end Intcode.Network
