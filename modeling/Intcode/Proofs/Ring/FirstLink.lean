import Intcode.Proofs.OwnFault
import Intcode.Proofs.Pipe.Flows
import Intcode.Proofs.Ring.Signal

namespace Intcode

/-!
# The channel of the first amplifier

Every worker but the first closes its input when its amplifier has ended, so an amplifier may find
that nobody listens to it any more.  The last one never does: the channel it sends into is kept, and
whatever it emits is added to what has been there from the start, until the first amplifier takes
it.

* `Network.emittedBy`     — what the output instructions of an engine emit
* `Mirrors.listens_first` — the last amplifier is heard
* `Mirrors.heard_step`, `Mirrors.heard_follow` — so it is never told of a closed output
* `Mirrors.emittedBy_eq`  — and all that it emits is accepted
* `first_link_keeps_all`  — what has been taken from the channel, and what it holds
-/

/-- The values the output instructions of engine `k` emit along a schedule, accepted or not. -/
def Network.emittedBy (n : Network) (k : Nat) (schedule : List Nat) : List Int :=
  n.passed Engine.told? k schedule

namespace Amplifier.Ring

variable {size i : Nat} {preload : Nat → List Int} {n : Network} {s : Nat → Process}

/-- The engine of an amplifier that runs stands between its two channels. -/
theorem Wired.plugged {e : Engine} {p : Process} (hwired : Wired size i e p)
    (hphase : p.phase = .running) : Engine.Plugged ⟨i⟩ ⟨(i + 1) % size, 0⟩ e :=
  ⟨(hwired.ends hphase).1, (hwired.ends hphase).2, hwired.request⟩

namespace Mirrors

/-- The last amplifier sends to the first. -/
theorem plugged_last (hm : Mirrors size preload n s) (hsize : 0 < size)
    (hphase : (s (size - 1)).phase = .running) :
    Engine.Plugged ⟨size - 1⟩ ⟨0, 0⟩ (n.engine (size - 1)) := by
  have hplugged := (hm.wired (size - 1) (by omega)).plugged hphase
  rwa [Nat.sub_add_cancel hsize, Nat.mod_self] at hplugged

/-- The last amplifier is heard as long as it runs, wherever the first one has got to. -/
theorem listens_first (hm : Mirrors size preload n s) (hsize : 0 < size)
    (hphase : (s (size - 1)).phase = .running) : n.hub.listens ⟨0, 0⟩ = true := by
  have hlink := hm.linked.link 0 hsize
  rw [show before size 0 = size - 1 from rfl, hphase,
    show ((s 0).phase.holdsInput || 0 == 0) = true from Bool.or_true _] at hlink
  exact Hub.listens_of_ends hlink.ends

/-- Whoever takes a turn, the last amplifier is not told of a closed output. -/
theorem heard_step (hm : Mirrors size preload n s) (hsize : 0 < size)
    (hcan : n.canStep i = true) (hfault : (n.engine (size - 1)).fault? ≠ some .outputClosed) :
    ((n.step i).engine (size - 1)).fault? ≠ some .outputClosed := by
  have hi := hm.lt_of_canStep hcan
  by_cases hphase : (s (size - 1)).phase = .running
  · by_cases hlast : size - 1 = i
    · subst hlast
      rw [hm.step_running hi hphase, Network.engine_after (by rw [hm.engines]; exact hi),
        if_pos rfl]
      have hheard := hm.listens_first hsize hphase
      exact (hm.plugged_last hsize hphase).outputClosed_step hheard hfault
    · rw [Network.engine_step_of_ne (hm.worker i hi) hlast]
      exact hfault
  · -- it has ended, which is final
    have hended : (n.engine (size - 1)).isRunning = false :=
      eq_false_of_ne_true fun hrun => hphase ((hm.wired _ (by omega)).phase.1 hrun)
    unfold Engine.fault? at hfault ⊢
    rw [n.status_step i hended]
    exact hfault

/-- What the last amplifier emits in a turn is accepted. -/
theorem passing_last (hm : Mirrors size preload n s) (hsize : 0 < size)
    (hcan : n.canStep i = true) :
    n.passing Engine.told? (size - 1) i = n.passing Engine.sent? (size - 1) i := by
  unfold Network.passing
  rw [hm.worker i (hm.lt_of_canStep hcan)]
  dsimp only
  split
  · rename_i hturn
    obtain ⟨hphase, rfl⟩ : (s i).phase = .running ∧ i = size - 1 := hturn
    have hheard := hm.listens_first hsize hphase
    rw [(hm.plugged_last hsize hphase).outlet.sent?_eq_told? hheard]
  · rfl

/-- Along a schedule the last amplifier is never told of a closed output. -/
theorem heard_follow (hm : Mirrors size preload n s) (hsize : 0 < size)
    (hfault : (n.engine (size - 1)).fault? ≠ some .outputClosed) (schedule : List Nat) :
    ((n.follow schedule).engine (size - 1)).fault? ≠ some .outputClosed := by
  induction schedule generalizing n s with
  | nil => exact hfault
  | cons i schedule ih =>
    unfold Network.follow
    split
    · rename_i hcan
      obtain ⟨s', hkeeps⟩ := hm.keeps_step hcan
      exact ih hkeeps.mirrors (hm.heard_step hsize hcan hfault)
    · exact ih hm hfault

/-- Along a schedule all that the last amplifier emits is accepted. -/
theorem emittedBy_eq (hm : Mirrors size preload n s) (hsize : 0 < size) (schedule : List Nat) :
    n.emittedBy (size - 1) schedule = n.sentBy (size - 1) schedule := by
  induction schedule generalizing n s with
  | nil => rfl
  | cons i schedule ih =>
    unfold Network.emittedBy Network.sentBy Network.passed
    split
    · rename_i hcan
      obtain ⟨s', hkeeps⟩ := hm.keeps_step hcan
      rw [hm.passing_last hsize hcan]
      exact congrArg (_ ++ ·) (ih hkeeps.mirrors)
    · exact ih hm

end Mirrors

/-- **No signal of the last amplifier is refused or lost.**  Whatever turns are taken, the last
    amplifier is never told that its output is closed, and the channel of the first one stays open:
    what the first amplifier has taken from it and what it holds are together its phase, the seed,
    and all that the last amplifier has emitted, in this order. -/
theorem first_link_keeps_all (image : List Int) (phase : Int) (phases : List Int) (seed : Int)
    (schedule : List Nat) :
    let ring := start image (phase :: phases) seed
    let n := ring.follow schedule
    (n.engine phases.length).fault? ≠ some .outputClosed ∧
      (n.hub.channel 0).receiverOpen = true ∧
      ring.takenBy 0 schedule ++ n.hub.content 0 =
        phase :: seed :: ring.emittedBy phases.length schedule := by
  intro ring n
  have hsize : 0 < (phase :: phases).length := Nat.succ_pos _
  have hm := mirrors_start image (phase :: phases) seed
  obtain ⟨s, hkeeps⟩ := hm.keeps_follow schedule
  have hlink := hkeeps.mirrors.linked.link 0 hsize
  rw [show ((s 0).phase.holdsInput || 0 == 0) = true from Bool.or_true _] at hlink
  have hstart : (ring.engine phases.length).fault? ≠ some .outputClosed := by
    have hrun := (hm.wired phases.length (Nat.lt_succ_self _)).phase.2 rfl
    rw [Engine.fault?_of_running ((Engine.isRunning_iff _).1 hrun)]
    exact nofun
  refine ⟨hm.heard_follow hsize hstart schedule, congrArg (·.2.2) hlink.ends, ?_⟩
  have htaken : (s 0).taken = ring.takenBy 0 schedule := hkeeps.taken 0 hsize
  have hsent : (s phases.length).sent = ring.sentBy phases.length schedule :=
    hkeeps.sent phases.length (Nat.lt_succ_self _)
  have hemitted : ring.emittedBy phases.length schedule = ring.sentBy phases.length schedule :=
    hm.emittedBy_eq hsize schedule
  calc ring.takenBy 0 schedule ++ n.hub.content 0
      = (s 0).taken ++ n.hub.content 0 := by rw [htaken]
    _ = supply (phases.length + 1) (links (phase :: phases) seed).content s 0 :=
        (hlink.content rfl).symm
    _ = phase :: seed :: (s phases.length).sent := supply_first phase phases seed s
    _ = phase :: seed :: ring.emittedBy phases.length schedule := by rw [hsent, hemitted]

/-- The first of two amplifiers takes its phase, jumps to a word that does not decode, and its worker
    ends.  The second sends two values after that, and they are kept behind the seed. -/
example :
    let n := (start [3, 11, 1006, 11, 10, 104, 8, 104, 9, 99, 0, 0] [0, 1] 7).follow
      [0, 0, 0, 0, 0, 1, 1, 1, 1, 1]
    (n.workers[0]?.map Worker.isAlive = some false) ∧ n.hub.content 0 = [7, 8, 9] := by
  decide +kernel

end Amplifier.Ring

end Intcode
