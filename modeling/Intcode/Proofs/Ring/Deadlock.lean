import Intcode.Proofs.Ring.Confluence

namespace Intcode.Amplifier.Ring

/-!
# Deadlocks of a ring

An amplifier waits only for one that has not let go of its output.  In a ring in which nobody can
step that one waits as well, and so waiting goes all around the ring: either all amplifiers wait, or
all workers have ended.

* `Deadlocked`                   — everybody waits
* `Mirrors.running_before`       — who waits, waits for one that waits
* `Mirrors.deadlocked`           — a settled ring in which somebody has not ended
* `deadlocked_or_ended`          — the same for every schedule, and what follows for those after it
-/

/-- No worker has ended, every amplifier is suspended in an input instruction, and every channel is
    empty, with its one sender and its receiver open. -/
structure Deadlocked (size : Nat) (n : Network) : Prop where
  alive : ∀ w ∈ n.workers, w.phase ≠ .ended
  running : ∀ i < size, (n.engine i).isRunning = true
  waiting : ∀ i < size, ∃ r, (n.engine i).request = some r ∧ r.receiver = ⟨i⟩
  empty : ∀ i < size, n.hub.content i = []
  ends : ∀ i < size, n.hub.ends i = (#[true], 1, true)

variable {size i : Nat} {preload : Nat → List Int} {n : Network} {s : Nat → Process}

namespace Mirrors

/-- In a settled ring, the amplifier before one that runs runs. -/
theorem running_before (hm : Mirrors size preload n s) (hsettled : n.isSettled = true)
    (hi : i < size) (hphase : (s i).phase = .running) :
    (s (before size i)).phase = .running := by
  obtain ⟨r, _, _, hwait⟩ := hm.waits_of_isSettled hsettled hi hphase
  have hsome : (n.hub.channel i).senders ≠ 0 := (Hub.open_of_isReady_eq_false hwait).2
  have hsenders : (n.hub.channel i).senders = (s (before size i)).phase.holdsOutput.toNat :=
    congrArg (·.2.1) (hm.linked.link i hi).ends
  rcases hm.phase_of_isSettled hsettled (before_lt hi) with hended | hrunning
  · rw [hsenders, hended] at hsome
    exact absurd rfl hsome
  · exact hrunning

/-- **A settled ring in which somebody has not ended is a deadlock of all.** -/
theorem deadlocked (hm : Mirrors size preload n s) (hsettled : n.isSettled = true) (hi : i < size)
    (halive : (s i).phase ≠ .ended) : Deadlocked size n := by
  have hrunning := (hm.phase_of_isSettled hsettled hi).resolve_left halive
  have hall : ∀ j < size, (s j).phase = .running :=
    around (fun j hj hphase => hm.running_before hsettled hj hphase) hi hrunning
  constructor
  · intro w hw
    obtain ⟨j, hj, rfl⟩ := exists_of_mem_workers hm hw
    simp [hall j hj]
  · intro j hj
    exact (hm.wired j hj).phase.2 (hall j hj)
  · intro j hj
    obtain ⟨r, hreq, hrx, _⟩ := hm.waits_of_isSettled hsettled hj (hall j hj)
    exact ⟨r, hreq, hrx⟩
  · intro j hj
    obtain ⟨_, _, _, hwait⟩ := hm.waits_of_isSettled hsettled hj (hall j hj)
    exact Hub.content_of_isReady_eq_false hwait
  · intro j hj
    have hends := (hm.linked.link j hj).ends
    rw [hall _ (before_lt hj), hall j hj] at hends
    exact hends

/-- The workers of a ring, in order. -/
theorem workers_toList (hm : Mirrors size preload n s) :
    n.workers.toList = (List.range size).map fun i => { Ring.worker i with phase := (s i).phase } := by
  apply List.ext_getElem?
  intro j
  rw [Array.getElem?_toList, List.getElem?_map]
  rcases Nat.lt_or_ge j size with hj | hj
  · rw [hm.worker j hj, List.getElem?_range hj]
    rfl
  · rw [Array.getElem?_eq_none (by rw [hm.workers]; exact hj),
      List.getElem?_eq_none (by rw [List.length_range]; exact hj)]
    rfl

/-- Who joins a deadlocked ring is told that all amplifiers are still running. -/
theorem finish_of_deadlocked (hm : Mirrors size preload n s) (hsize : 0 < size)
    (hdead : Deadlocked size n) (seconds : String) :
    finish n (some seconds) =
      .error (.someStillRunning ((List.range size).map ampName) seconds) := by
  have halive : n.workers.toList.filter Worker.isAlive = n.workers.toList := by
    apply List.filter_eq_self.2
    intro w hw
    have hphase := hdead.alive w (Array.mem_toList_iff.1 hw)
    simp [Worker.isAlive, hphase]
  have hnames : n.workers.toList.map Worker.name = (List.range size).map ampName := by
    rw [hm.workers_toList, List.map_map]
    rfl
  obtain ⟨m, rfl⟩ : ∃ m, size = m + 1 := ⟨size - 1, by omega⟩
  unfold finish Network.joinAll
  rw [halive, hnames, List.range_succ_eq_map]
  rfl

end Mirrors

/-- **Deadlock is all or nothing.**  When nobody can step after a schedule and some worker has not
    ended, the ring is deadlocked, and who joins it is told all names.  And once the engine of one
    amplifier has ended, whatever turns are taken after that, nobody can step only when all workers
    have ended. -/
theorem deadlocked_or_ended (image phases : List Int) (seed : Int) (schedule : List Nat) :
    (((start image phases seed).follow schedule).isSettled = true →
      (∃ w ∈ ((start image phases seed).follow schedule).workers, w.phase ≠ .ended) →
      Deadlocked phases.length ((start image phases seed).follow schedule) ∧
        ∀ seconds, finish ((start image phases seed).follow schedule) (some seconds) =
          .error (.someStillRunning ((List.range phases.length).map ampName) seconds)) ∧
    ((∃ i < phases.length,
        (((start image phases seed).follow schedule).engine i).isRunning = false) →
      ∀ schedule', (((start image phases seed).follow schedule).follow schedule').isSettled = true →
        ∀ w ∈ (((start image phases seed).follow schedule).follow schedule').workers,
          w.phase = .ended) := by
  obtain ⟨s, hkeeps⟩ := (mirrors_start image phases seed).keeps_follow schedule
  have hm := hkeeps.mirrors
  constructor
  · rintro hsettled ⟨w, hw, halive⟩
    obtain ⟨i, hi, rfl⟩ := exists_of_mem_workers hm hw
    have hdead := hm.deadlocked hsettled hi halive
    exact ⟨hdead, hm.finish_of_deadlocked (by omega) hdead⟩
  · rintro ⟨i, hi, hended⟩ schedule' hsettled w hw
    obtain ⟨s', hkeeps'⟩ := hm.keeps_follow schedule'
    by_contra halive
    obtain ⟨j, hj, rfl⟩ := exists_of_mem_workers hkeeps'.mirrors hw
    have hdead := hkeeps'.mirrors.deadlocked hsettled hj halive
    -- the engine that has ended would wait as well
    have hrunning := hdead.running i hi
    have hstatus := Network.status_follow schedule' _ hended
    rw [Engine.isRunning_eq_false_iff, ← hstatus] at hended
    exact hended ((Engine.isRunning_iff _).1 hrunning)

/-- A program that takes three values, which is one more than there are for the first of a ring. -/
def greedy : List Int := [3, 11, 3, 11, 3, 11, 99, 0, 0, 0, 0, 0]

/-- Two greedy amplifiers wait for each other; and of two relays neither waits for the other once
    the first has halted. -/
theorem deadlocked_greedy :
    Deadlocked 2 ((start greedy [5, 6] 7).follow [0, 0, 0, 1, 1]) ∧
      finish ((start greedy [5, 6] 7).follow [0, 0, 0, 1, 1]) (some "0.05") =
        .error (.someStillRunning ["amp-A", "amp-B"] "0.05") ∧
      ∀ w ∈ (((start relay [5, 6] 7).follow [0, 0, 0, 0]).follow
          [0, 0, 1, 1, 1, 1, 1, 1]).workers, w.phase = .ended := by
  have hgreedy := deadlocked_or_ended greedy [5, 6] 7 [0, 0, 0, 1, 1]
  have hrelay := deadlocked_or_ended relay [5, 6] 7 [0, 0, 0, 0]
  obtain ⟨hdead, hfinish⟩ := hgreedy.1 (by decide +kernel) (by decide +kernel)
  refine ⟨hdead, hfinish "0.05", ?_⟩
  exact hrelay.2 ⟨0, by decide, by decide +kernel⟩ [0, 0, 1, 1, 1, 1, 1, 1] (by decide +kernel)

end Intcode.Amplifier.Ring
