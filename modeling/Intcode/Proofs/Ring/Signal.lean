import Intcode.Amplifier.Chain
import Intcode.Proofs.Ring.Confluence

namespace Intcode.Amplifier.Ring

/-!
# The signal of a ring

Who joins a ring is told an error unless all amplifiers have halted.  When they have, the result is
read from the channel of the first amplifier.  The last amplifier sends into it, but the phase and
the seed were there before: the first amplifier has to take both for the result to be a signal at
all.

* `Over`             — all workers have ended, and all amplifiers have halted
* `over_of_joinAll`  — only then does joining succeed
* `finish_cases`     — the result for every schedule
* `finish_ne_signal` — a ring that returns its seed although nothing was sent
-/

/-- All workers of a ring have ended, and all its amplifiers have halted. -/
structure Over (size : Nat) (n : Network) : Prop where
  ended : ∀ w ∈ n.workers, w.phase = .ended
  halted : ∀ i < size, (n.engine i).status = .halted

variable {size i : Nat} {preload : Nat → List Int} {n : Network} {s : Nat → Process}

/-! ### Joining -/

/-- Whose owner expects no hang-up is to tell of every fault. -/
theorem unexpected?_eq_failure? (n : Network) {w : Worker} (hin : w.expectInput = false)
    (hout : w.expectOutput = false) : n.unexpected? w = n.failure? w := by
  have hexpected : n.isExpected w = false := by
    unfold Network.isExpected
    split
    · exact hin
    · exact hout
    · rfl
  simp [Network.unexpected?, hexpected]

/-- An engine that has ended without a fault has halted. -/
theorem status_of_fault?_eq_none {e : Engine} (hended : e.isRunning = false)
    (hfault : e.fault? = none) : e.status = .halted := by
  rw [Engine.isRunning_eq_false_iff] at hended
  unfold Engine.fault? at hfault
  cases hstatus : e.status with
  | running => exact absurd hstatus hended
  | halted => rfl
  | faulted f origin =>
    rw [hstatus] at hfault
    cases hfault

namespace Mirrors

/-- The processes of a ring that is over have all halted. -/
theorem allHalted_of_over (hm : Mirrors size preload n s) (hover : Over size n) :
    AllHalted size s := by
  intro i hi
  constructor
  · exact hover.ended _ (Array.mem_of_getElem? (hm.worker i hi))
  · rw [(hm.wired i hi).engine]
    exact hover.halted i hi

/-- A ring is over when its processes have all halted. -/
theorem over_of_allHalted (hm : Mirrors size preload n s) (hall : AllHalted size s) :
    Over size n := by
  constructor
  · intro w hw
    obtain ⟨i, hi, rfl⟩ := exists_of_mem_workers hm hw
    exact (hall i hi).1
  · intro i hi
    have hhalted := (hall i hi).2
    rw [(hm.wired i hi).engine] at hhalted
    exact hhalted

/-- **Joining a ring succeeds only when it is over.** -/
theorem over_of_joinAll (hm : Mirrors size preload n s) {seconds : Option String}
    {statuses : List Status} (hjoin : n.joinAll n.workers.toList seconds = .ok statuses) :
    Over size n := by
  obtain ⟨hquiet, -⟩ := Network.joinAll_eq_ok_iff_forall.1 hjoin
  have hended (w : Worker) (hw : w ∈ n.workers) : w.phase = .ended := by
    have halive := (hquiet w (Array.mem_toList_iff.2 hw)).1
    simpa [Worker.isAlive] using halive
  refine ⟨hended, fun i hi => ?_⟩
  have hw := Array.mem_of_getElem? (hm.worker i hi)
  have hphase : (s i).phase = .ended := hended _ hw
  have hfault := (hquiet _ (Array.mem_toList_iff.2 hw)).2
  rw [unexpected?_eq_failure? n rfl rfl, hphase] at hfault
  apply status_of_fault?_eq_none _ hfault
  -- a worker ends only after its engine
  have hrunning := (hm.wired i hi).phase
  rw [hphase] at hrunning
  exact Bool.eq_false_iff.2 fun hrun => nomatch hrunning.1 hrun

/-- Who joins a ring that is not over gets the error of joining it. -/
theorem finish_of_not_over (hm : Mirrors size preload n s) (hover : ¬Over size n)
    (seconds : Option String) :
    ∃ error, n.joinAll n.workers.toList seconds = .error error ∧
      finish n seconds = .error error := by
  cases hjoin : n.joinAll n.workers.toList seconds with
  | error error =>
    refine ⟨error, rfl, ?_⟩
    unfold finish
    rw [hjoin]
    rfl
  | ok statuses => exact absurd (hm.over_of_joinAll hjoin) hover

end Mirrors

/-! ### Results -/

/-- The first amplifier is supplied with its phase, the seed, and what the last one sends. -/
theorem supply_first (phase : Int) (phases : List Int) (seed : Int) (s : Nat → Process) :
    supply (phases.length + 1) (links (phase :: phases) seed).content s 0 =
      phase :: seed :: (s phases.length).sent := by
  simp [supply, before, links, Hub.content, Hub.channel, Channel.content, Channel.holding]

/-- The last value of a queue of which some have been taken. -/
theorem getLast?_drop_pair (phase seed : Int) (sent : List Int) (k : Nat) :
    ((phase :: seed :: sent).drop k).getLast? =
      if sent.length + 2 ≤ k then none else some (sent.getLast?.getD seed) := by
  rw [List.getLast?_drop, List.getLast?_cons, List.getLast?_cons]
  rfl

/-- **The result of a ring.**  Whatever turns are taken, who joins a ring that is not over gets an
    error of its amplifiers.  One that is over has no signal when the first amplifier has taken all
    that was there for it; otherwise its result is the last value the last amplifier has sent, or
    the seed, if it has sent nothing. -/
theorem finish_cases (image : List Int) (phase : Int) (phases : List Int) (seed : Int)
    (schedule : List Nat) (seconds : Option String) :
    let n := (start image (phase :: phases) seed).follow schedule
    let taken := (start image (phase :: phases) seed).takenBy 0 schedule
    let sent := (start image (phase :: phases) seed).sentBy phases.length schedule
    (¬Over (phases.length + 1) n → ∃ error,
      n.joinAll n.workers.toList seconds = .error error ∧ finish n seconds = .error error) ∧
    (Over (phases.length + 1) n → taken.length = sent.length + 2 →
      finish n seconds = .error .noSignal) ∧
    (Over (phases.length + 1) n → taken.length ≠ sent.length + 2 →
      finish n seconds = .ok (sent.getLast?.getD seed)) := by
  intro n taken sent
  obtain ⟨s, hkeeps⟩ := (mirrors_start image (phase :: phases) seed).keeps_follow schedule
  have hm := hkeeps.mirrors
  have hsize : 0 < (phase :: phases).length := Nat.succ_pos _
  have htaken : (s 0).taken = taken := hkeeps.taken 0 hsize
  have hsent : (s phases.length).sent = sent := hkeeps.sent phases.length (Nat.lt_succ_self _)
  have hsupply : supply (phase :: phases).length (links (phase :: phases) seed).content s 0 =
      phase :: seed :: sent := by
    rw [← hsent]
    exact supply_first phase phases seed s
  -- no more is taken than was there
  have hlen : taken.length ≤ sent.length + 2 := by
    have hcontent := (hm.linked.link 0 hsize).content (Bool.or_true _)
    rw [hsupply, htaken] at hcontent
    have hlength := congrArg List.length hcontent
    simp at hlength
    omega
  have hresult (hover : Over (phases.length + 1) n) :
      finish n seconds = lastSignal ((phase :: seed :: sent).drop taken.length) := by
    rw [finish_eq hm hsize (hm.allHalted_of_over hover) seconds, hsupply, htaken]
  refine ⟨fun hover => hm.finish_of_not_over hover seconds, ?_, ?_⟩
  · intro hover hall
    rw [hresult hover]
    unfold lastSignal
    rw [getLast?_drop_pair, if_pos (by omega)]
  · intro hover hleft
    rw [hresult hover]
    unfold lastSignal
    rw [getLast?_drop_pair, if_neg (by omega)]

/-- Two relays return the signal that the second has passed on. -/
theorem finish_cases_relay :
    finish ((start relay [5, 6] 7).follow [0, 0, 0, 0, 0, 0, 1, 1, 1, 1, 1, 1]) none = .ok 7 := by
  obtain ⟨_, _, hresult⟩ :=
    finish_cases relay 5 [6] 7 [0, 0, 0, 0, 0, 0, 1, 1, 1, 1, 1, 1] none
  exact hresult ⟨by decide +kernel, by decide +kernel⟩ (by decide +kernel)

/-- An amplifier that halts at once sends nothing, and still its ring returns the seed; a chain of
    it tells that there is no signal. -/
theorem finish_ne_signal :
    Over 1 ((start [99] [7] 0).follow [0, 0, 0]) ∧
      (start [99] [7] 0).sentBy 0 [0, 0, 0] = [] ∧
      finish ((start [99] [7] 0).follow [0, 0, 0]) none = .ok 0 ∧
      (Chain.run 2 [99] [7] 0).result = .error .noSignal := by
  refine ⟨⟨by decide +kernel, by decide +kernel⟩, by decide +kernel, ?_, ?_⟩
  · rfl
  · rfl

end Intcode.Amplifier.Ring
