import Intcode.Proofs.Alone
import Intcode.Proofs.Chain.Batches
import Intcode.Proofs.Ring.Signal

namespace Intcode.Amplifier.Ring

open Interleaving

/-!
# Chains closed to rings

A program that makes a signal in an open chain needs no feedback.  The amplifiers of a ring can then
run one after another as well, each on its phase and what the one before it has sent, and so come to
an end with the same signal.  By confluence there is no other end, unless an amplifier is told that
nobody listens any more.

* `reaches_of_leads`       — a process does in the ring what it does on its own
* `Staged`                 — the first amplifiers have halted one after another
* `exists_fedForward`      — a chain with a signal is an end of the ring
* `finish_eq_of_chain`     — every order of turns comes to it
-/

variable {size i j : Nat} {preload : Nat → List Int} {s : Nat → Process}

/-- A process does in the ring what it does on its own with no more than it finds there. -/
theorem reaches_of_leads (hi : i < size) {inputs : List Int} {p q : Process}
    (hlead : Process.Leads inputs p q) (hp : s i = p)
    (hmore : inputs <+: supply size preload s i) :
    ∃ m, Reaches (act size preload) m s (Function.update s i q) := by
  induction hlead using Relation.ReflTransGen.head_induction_on generalizing s with
  | refl =>
    refine ⟨0, ?_⟩
    rw [← hp, Function.update_eq_self]
    exact .refl s
  | @head p p' hstep _ ih =>
    have hact : act size preload i s = some (Function.update s i p') :=
      act_of_advance hi (by rw [hp]; exact Process.advance_mono hmore hstep)
    -- its step may feed the process itself, and then it finds still more
    have hgrow := supply_prefix hact i
    obtain ⟨m, hrun⟩ := ih (Function.update_self ..) (hmore.trans hgrow)
    rw [Function.update_idem] at hrun
    exact ⟨m + 1, .head hact hrun⟩

/-- When all processes have ended nobody can act. -/
theorem AllHalted.stuck (hall : AllHalted size s) : Stuck (act size preload) s := by
  intro i
  unfold act
  split
  · rename_i hi
    rw [Process.advance_ended (hall i hi).1]
    rfl
  · rfl

/-! ### One amplifier after another -/

variable {image phases signals outputs : List Int} {phase seed : Int} {fuel : Nat}

/-- What the channel of an amplifier holds at the start. -/
theorem content_links (seed : Int) (hphase : phases[j]? = some phase) :
    (links phases seed).content j = if j = 0 then [phase, seed] else [phase] := by
  obtain ⟨hj, rfl⟩ := List.getElem?_eq_some_iff.1 hphase
  simp [links, Hub.content, Hub.channel, Channel.content, Channel.holding, hj]

/-- The first `j` amplifiers have halted, one after another, and the others have not begun.  The
    next one is to read these signals. -/
structure Staged (image phases : List Int) (seed : Int) (j : Nat) (signals : List Int)
    (s : Nat → Process) : Prop where
  halted : AllHalted j s
  fresh : ∀ i, j ≤ i → s i = processes image phases.length i
  signals : signals = if j = 0 then [seed] else (s (j - 1)).sent
  first : (s 0).taken.length ≤ 2

namespace Staged

theorem start (image phases : List Int) (seed : Int) :
    Staged image phases seed 0 [seed] (processes image phases.length) :=
  ⟨nofun, fun _ _ => rfl, rfl, Nat.zero_le _⟩

/-- The next amplifier finds its phase and the signals it is to read. -/
theorem supplied (hs : Staged image phases seed j signals s) (hphase : phases[j]? = some phase) :
    phase :: signals <+: supply phases.length (links phases seed).content s j := by
  rw [supply, content_links seed hphase, hs.signals]
  cases j with
  | zero => exact List.prefix_append _ _
  | succ j => exact List.prefix_rfl

/-- **The next amplifier** does what its batch run does. -/
theorem next (hs : Staged image phases seed j signals s) (hphase : phases[j]? = some phase)
    (hemitted : Chain.emitted fuel image signals phase = .ok outputs) :
    ∃ m s', Reaches (act phases.length (links phases seed).content) m s s' ∧
      Staged image phases seed (j + 1) outputs s' := by
  have hj : j < phases.length := (List.getElem?_eq_some_iff.1 hphase).1
  obtain ⟨hhalted, houtputs⟩ := Chain.emitted_eq_ok_iff.1 hemitted
  obtain ⟨q, hlead, hended, hhalted', htaken, hsent⟩ :=
    Process.leads_of_halted (e := .ofCells image false {}) rfl rfl ⟨j⟩
      ⟨(j + 1) % phases.length, 0⟩ hhalted
  obtain ⟨m, hrun⟩ := reaches_of_leads hj hlead (hs.fresh j (Nat.le_refl j)) (hs.supplied hphase)
  refine ⟨m, _, hrun, ?_, ?_, ?_, ?_⟩
  · intro i hi
    by_cases hij : i = j
    · rw [hij, Function.update_self]
      exact ⟨hended, hhalted'⟩
    · rw [Function.update_of_ne hij]
      exact hs.halted i (by omega)
  · intro i hi
    rw [Function.update_of_ne (by omega)]
    exact hs.fresh i (by omega)
  · rw [if_neg (Nat.succ_ne_zero j), Nat.add_sub_cancel, Function.update_self, hsent]
    exact houtputs.symm
  · by_cases hj₀ : j = 0
    · -- the first amplifier reads its phase and the seed
      have hsignals := hs.signals
      rw [if_pos hj₀] at hsignals
      subst hj₀ hsignals
      rw [Function.update_self]
      exact htaken.length_le
    · rw [Function.update_of_ne (Ne.symm hj₀)]
      exact hs.first

/-- **All that follow** do what their batch runs do. -/
theorem rest (front : List Int) {back : List Int} (hphases : front ++ back = phases)
    (hs : Staged image phases seed front.length signals s)
    (hchain : back.foldlM (Chain.emitted fuel image) signals = .ok outputs) :
    ∃ m f, Reaches (act phases.length (links phases seed).content) m s f ∧
      Staged image phases seed phases.length outputs f := by
  induction back generalizing front signals s with
  | nil =>
    rw [List.append_nil] at hphases
    cases hchain
    rw [hphases] at hs
    exact ⟨0, s, .refl s, hs⟩
  | cons phase back ih =>
    rw [List.foldlM_cons] at hchain
    obtain ⟨signals', hemitted, hrest⟩ := Chain.exists_of_bind_eq_ok hchain
    have hphase : phases[front.length]? = some phase := by simp [← hphases]
    obtain ⟨m, s', hrun, hs'⟩ := hs.next hphase hemitted
    -- the amplifier that has just halted joins those in front
    have hlength : (front ++ [phase]).length = front.length + 1 := by simp
    have hphases' : (front ++ [phase]) ++ back = phases := by simp [← hphases]
    rw [← hlength] at hs'
    obtain ⟨m', f, hrun', hf⟩ := ih (front ++ [phase]) hphases' hs' hrest
    exact ⟨m + m', f, hrun.trans hrun', hf⟩

end Staged

/-! ### The end -/

/-- An end of the processes in which all have halted, the first has taken no more than its phase and
    the seed, and the last has sent these signals. -/
structure FedForward (image phases : List Int) (seed : Int) (signals : List Int) (bound : Nat)
    (f : Nat → Process) : Prop where
  run : Reaches (act phases.length (links phases seed).content) bound
    (processes image phases.length) f
  allHalted : AllHalted phases.length f
  first : (f 0).taken.length ≤ 2
  last : (f (phases.length - 1)).sent = signals

/-- **A chain that ends is an end of the ring.** -/
theorem exists_fedForward (hphases : phases ≠ [])
    (hchain : phases.foldlM (Chain.emitted fuel image) [seed] = .ok outputs) :
    ∃ bound f, FedForward image phases seed outputs bound f := by
  obtain ⟨bound, f, hrun, hf⟩ :=
    Staged.rest [] (List.nil_append phases) (Staged.start image phases seed) hchain
  have hsize : phases.length ≠ 0 := mt List.length_eq_zero_iff.1 hphases
  have hsignals := hf.signals
  rw [if_neg hsize] at hsignals
  exact ⟨bound, f, hrun, hf.halted, hf.first, hsignals.symm⟩

namespace FedForward

variable {bound : Nat} {f : Nat → Process} {n : Network}

/-- Every schedule leads on towards this end, unless an amplifier stops because nobody listens. -/
theorem follow (hf : FedForward image phases seed signals bound f) (schedule : List Nat)
    (hheard : ∀ i < phases.length,
      (((start image phases seed).follow schedule).engine i).fault? ≠ some .outputClosed) :
    ∃ d s, (start image phases seed).turns schedule + d ≤ bound ∧
      Reaches (act phases.length (links phases seed).content) d s f ∧
      Mirrors phases.length (links phases seed).content
        ((start image phases seed).follow schedule) s := by
  have hstuck : Stuck (act phases.length (links phases seed).content) f := hf.allHalted.stuck
  rcases (mirrors_start image phases seed).follow schedule with
    ⟨m, s, hturns, hadvances⟩ | ⟨i, hi, cause, ⟨m, s, hrun, hpoint⟩, origin, hfault⟩
  · obtain ⟨d, hbound, hahead⟩ := hf.run.of_reaches act_commutes hstuck hadvances.run
    exact ⟨d, s, by omega, hahead, hadvances.mirrors⟩
  · exfalso
    rcases hpoint with ⟨_, hstarved⟩ | ⟨rfl, _⟩
    · -- the end is still ahead, and there it has ended
      obtain ⟨d, _, hahead⟩ := hf.run.of_reaches act_commutes hstuck hrun
      exact not_starved hahead (hf.allHalted i hi).1 hstarved
    · apply hheard i hi
      rw [Engine.fault?, hfault]

/-- The ring that has come to this end returns the last of the signals. -/
theorem finish_eq (hf : FedForward image phases seed signals bound f) (hphases : phases ≠ [])
    (hm : Mirrors phases.length (links phases seed).content n f) {v : Int}
    (hlast : signals.getLast? = some v) (seconds : Option String) : finish n seconds = .ok v := by
  rw [Ring.finish_eq hm (List.length_pos_iff.2 hphases) hf.allHalted seconds]
  cases phases with
  | nil => exact absurd rfl hphases
  | cons phase phases =>
    have hsent : (f phases.length).sent = signals := hf.last
    have hnonempty : signals ≠ [] := by
      rintro rfl
      cases hlast
    have hlength := List.length_pos_iff.2 hnonempty
    have hfirst := hf.first
    rw [List.length_cons, supply_first, hsent]
    unfold lastSignal
    rw [getLast?_drop_pair, if_neg (by omega), hlast]
    rfl

end FedForward

/-- **A ring agrees with the chain on feed-forward programs.**  When a chain returns a signal, the
    turns of every schedule of the ring in which no amplifier is told of a closed output have a
    common bound; no amplifier faults in it; and where nobody can step any more, all workers have
    ended, all amplifiers have halted, and whoever joins the ring gets the same signal. -/
theorem finish_eq_of_chain {program : Program.Source} {v : Int}
    (hchain : Chain.signal fuel program phases seed = .ok v) :
    ∃ image, program.image = .ok image ∧ ∃ bound, ∀ schedule,
      (∀ i < phases.length,
        (((start image phases seed).follow schedule).engine i).fault? ≠ some .outputClosed) →
      (start image phases seed).turns schedule ≤ bound ∧
      (∀ i < phases.length,
        (((start image phases seed).follow schedule).engine i).fault? = none) ∧
      (((start image phases seed).follow schedule).isSettled = true →
        Over phases.length ((start image phases seed).follow schedule) ∧
        ∀ seconds, finish ((start image phases seed).follow schedule) seconds = .ok v) := by
  obtain ⟨hphases, image, outputs, himage, houtputs, hlast⟩ := Chain.of_signal_eq_ok hchain
  obtain ⟨bound, f, hf⟩ := exists_fedForward hphases houtputs
  refine ⟨image, himage, bound, fun schedule hheard => ?_⟩
  obtain ⟨d, s, hbound, hahead, hm⟩ := hf.follow schedule hheard
  refine ⟨by omega, fun i hi => fault?_eq_none hm hahead hf.allHalted hi, fun hsettled => ?_⟩
  -- a settled ring has come to the end
  obtain rfl := hahead.eq_of_stuck (hm.stuck_of_isSettled hsettled)
  exact ⟨hm.over_of_allHalted hf.allHalted, fun seconds => hf.finish_eq hphases hm hlast seconds⟩

/-- Two relays pass the seed on in a chain, and also in a ring in which they take turns. -/
theorem finish_eq_of_chain_relay :
    Chain.signal 6 (.cells relay) [5, 6] 7 = .ok 7 ∧
      finish ((start relay [5, 6] 7).follow [1, 0, 1, 0, 1, 0, 1, 0, 1, 0, 1, 0, 1, 0, 1]) none =
        .ok 7 := by
  have hchain : Chain.signal 6 (.cells relay) [5, 6] 7 = .ok 7 := rfl
  obtain ⟨image, himage, bound, hall⟩ := finish_eq_of_chain hchain
  cases himage
  obtain ⟨_, _, hover⟩ := hall [1, 0, 1, 0, 1, 0, 1, 0, 1, 0, 1, 0, 1, 0, 1] (by decide +kernel)
  exact ⟨hchain, (hover (by decide +kernel)).2 none⟩

end Intcode.Amplifier.Ring
