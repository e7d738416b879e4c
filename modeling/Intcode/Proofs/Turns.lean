import Intcode.Network.Basic
import Intcode.Proofs.Exchange

namespace Intcode

/-!
# Turns of workers

What a turn of a worker changes, and what a schedule of turns leaves behind.

* `Network.after`      — a network in which one worker has had its turn
* `Network.step_running`, `Network.step_releasingOutput`, … — one lemma for each phase
* `Network.turns`, `Network.takenBy`, `Network.sentBy`      — the account of a schedule
-/

/-- How far the worker of an engine is after a step of the engine. -/
def Engine.phase (e : Engine) : Phase := if e.isRunning then .running else .releasingOutput

/-- The worker has not let go of the output. -/
def Phase.holdsOutput : Phase → Bool
  | .running | .releasingOutput => true
  | .releasingInput | .ended => false

/-- The worker has not let go of the input. -/
def Phase.holdsInput : Phase → Bool
  | .running | .releasingOutput | .releasingInput => true
  | .ended => false

theorem Engine.holdsOutput_phase (e : Engine) : e.phase.holdsOutput = true := by
  unfold phase
  split <;> rfl

theorem Engine.holdsInput_phase (e : Engine) : e.phase.holdsInput = true := by
  unfold phase
  split <;> rfl

theorem Engine.phase_eq_running_iff (e : Engine) : e.phase = .running ↔ e.isRunning = true := by
  unfold phase
  split
  · rename_i hrun
    exact ⟨fun _ => hrun, fun _ => rfl⟩
  · rename_i hended
    exact ⟨nofun, fun hrun => absurd hrun hended⟩

namespace Network

/-- The network when worker `i` has come to a phase and engine `k` has acted. -/
def after (n : Network) (i k : Nat) (result : Engine × Hub) (phase : Phase) : Network :=
  { hub := result.2
    engines := n.engines.setIfInBounds k result.1
    workers := n.workers.modify i fun w => { w with phase } }

/-! ### The account of a schedule -/

/-- The number of turns that are taken, and not passed over. -/
def turns (n : Network) : List Nat → Nat
  | [] => 0
  | i :: schedule => if n.canStep i then (n.step i).turns schedule + 1 else n.turns schedule

/-- What the turn of worker `i` makes pass through engine `k`. -/
def passing (look : Engine → Hub → Option Int) (n : Network) (k i : Nat) : List Int :=
  match n.workers[i]? with
  | some w =>
    if w.phase = .running ∧ w.engine = k then (look (n.engine k) n.hub).toList else []
  | none => []

/-- What a schedule makes pass through engine `k`. -/
def passed (look : Engine → Hub → Option Int) (n : Network) (k : Nat) : List Nat → List Int
  | [] => []
  | i :: schedule =>
    if n.canStep i then n.passing look k i ++ (n.step i).passed look k schedule
    else n.passed look k schedule

/-- The values engine `k` takes along a schedule. -/
def takenBy (n : Network) (k : Nat) (schedule : List Nat) : List Int :=
  n.passed Engine.taken? k schedule

/-- The values engine `k` sends along a schedule. -/
def sentBy (n : Network) (k : Nat) (schedule : List Nat) : List Int :=
  n.passed Engine.sent? k schedule

/-! ### The network after a turn -/

variable {n : Network} {w : Worker} {i k : Nat}

theorem engine_after (hk : k < n.engines.size) (result : Engine × Hub) (phase : Phase) (j : Nat) :
    (n.after i k result phase).engine j = if j = k then result.1 else n.engine j := by
  unfold after engine
  simp only [Array.getD_eq_getD_getElem?, Array.getElem?_setIfInBounds]
  by_cases hj : j = k
  · simp [hj, hk]
  · have hne : ¬k = j := fun heq => hj heq.symm
    simp [hj, hne]

theorem worker_after (result : Engine × Hub) (phase : Phase) (j : Nat) :
    (n.after i k result phase).workers[j]? =
      if i = j then n.workers[j]?.map fun w => { w with phase } else n.workers[j]? :=
  Array.getElem?_modify

/-- An engine that acts takes the place it had. -/
theorem withEngine_eq (n : Network) (k : Nat) (act : Engine → Hub → Engine × Hub) :
    n.withEngine k act =
      { n with
        hub := (act (n.engine k) n.hub).2
        engines := n.engines.setIfInBounds k (act (n.engine k) n.hub).1 } := by
  obtain ⟨hub, engines, workers⟩ := n
  show Network.mk _ ((engines.setIfInBounds k {}).setIfInBounds k _) workers = _
  rw [Array.setIfInBounds_setIfInBounds]
  rfl

/-- A worker that comes to the phase it is in. -/
theorem modify_phase (hw : n.workers[i]? = some w) {phase : Phase} (hphase : w.phase = phase) :
    (n.workers.modify i fun w => { w with phase }) = n.workers := by
  apply Array.ext_getElem?
  intro j
  rw [Array.getElem?_modify]
  split
  · rename_i hij
    rw [← hij, hw, ← hphase]
    rfl
  · rfl

/-- An engine in its own place. -/
theorem setIfInBounds_engine (hk : k < n.engines.size) :
    n.engines.setIfInBounds k (n.engine k) = n.engines := by
  apply Array.ext_getElem?
  intro j
  rw [Array.getElem?_setIfInBounds]
  split
  · rename_i hkj
    subst hkj
    rw [Array.getElem?_eq_getElem hk]
    unfold engine
    rw [Array.getD_eq_getD_getElem?, Array.getElem?_eq_getElem hk, Option.getD_some]
  · rfl

/-- A worker whose engine runs can take its turn unless the engine waits for a value. -/
theorem canStep_running (hw : n.workers[i]? = some w) (hphase : w.phase = .running) :
    n.canStep i = match (n.engine w.engine).request with
      | some r => n.hub.isReady r.receiver
      | none => true := by
  unfold canStep
  cases hreq : (n.engine w.engine).request <;> simp only [hw, hphase, hreq]

/-- Only the turn of its own worker makes values pass through an engine. -/
theorem passing_running (look : Engine → Hub → Option Int) (hw : n.workers[i]? = some w)
    (hphase : w.phase = .running) (k : Nat) :
    n.passing look k i = if w.engine = k then (look (n.engine k) n.hub).toList else [] := by
  unfold passing
  rw [hw]
  dsimp only
  rw [hphase]
  by_cases hk : w.engine = k
  · rw [if_pos ⟨rfl, hk⟩, if_pos hk]
  · rw [if_neg fun h => hk h.2, if_neg hk]

/-- A worker that lets go of its ends makes nothing pass. -/
theorem passing_of_ne_running (look : Engine → Hub → Option Int) (hw : n.workers[i]? = some w)
    (hphase : w.phase ≠ .running) (k : Nat) : n.passing look k i = [] := by
  unfold passing
  rw [hw]
  exact if_neg fun h => hphase h.1

/-- A turn of a worker whose engine runs is a step of the engine. -/
theorem step_running (hw : n.workers[i]? = some w) (hphase : w.phase = .running)
    (hk : w.engine < n.engines.size) :
    n.step i = n.after i w.engine ((n.engine w.engine).step n.hub)
      ((n.engine w.engine).step n.hub).1.phase := by
  have hacted : (n.withEngine w.engine Engine.step).engine w.engine =
      ((n.engine w.engine).step n.hub).1 := by
    rw [withEngine_eq]
    have hengine := engine_after (i := i) hk ((n.engine w.engine).step n.hub) .running w.engine
    rw [if_pos rfl] at hengine
    exact hengine
  unfold step
  rw [hw]
  dsimp only
  rw [hphase]
  dsimp only
  rw [hacted]
  unfold Engine.phase
  split
  · -- the engine runs on, and the worker stays in its phase
    unfold after
    rw [modify_phase hw hphase, withEngine_eq]
  · rw [withEngine_eq]
    rfl

/-- A worker lets go of the output. -/
theorem step_releasingOutput (hw : n.workers[i]? = some w) (hphase : w.phase = .releasingOutput) :
    n.step i = n.after i w.engine (releaseOutput (n.engine w.engine) n.hub) .releasingInput := by
  unfold step
  rw [hw]
  dsimp only
  rw [hphase]
  dsimp only
  rw [withEngine_eq]
  rfl

/-- A worker lets go of the input, unless it is to be kept. -/
theorem step_releasingInput (hw : n.workers[i]? = some w) (hphase : w.phase = .releasingInput)
    (hk : w.engine < n.engines.size) :
    n.step i = n.after i w.engine
      (if w.keepInput then (n.engine w.engine, n.hub)
        else releaseInput (n.engine w.engine) n.hub) .ended := by
  unfold step
  rw [hw]
  dsimp only
  rw [hphase]
  dsimp only
  split
  · unfold after
    dsimp only
    rw [setIfInBounds_engine hk]
    rfl
  · rw [withEngine_eq]
    rfl

/-! ### Engines that have ended -/

theorem engine_enter (n : Network) (i : Nat) (phase : Phase) (j : Nat) :
    (n.enter i phase).engine j = n.engine j := rfl

theorem engine_withEngine (n : Network) (k : Nat) (act : Engine → Hub → Engine × Hub) (j : Nat) :
    (n.withEngine k act).engine j = n.engine j ∨
      j = k ∧ (n.withEngine k act).engine j = (act (n.engine k) n.hub).1 := by
  rw [withEngine_eq]
  rcases Nat.lt_or_ge k n.engines.size with hk | hk
  · have hengine := engine_after (i := 0) hk (act (n.engine k) n.hub) .running j
    by_cases hj : j = k
    · rw [if_pos hj] at hengine
      exact .inr ⟨hj, hengine⟩
    · rw [if_neg hj] at hengine
      exact .inl hengine
  · -- there is no such engine, so nobody acts
    rw [Array.setIfInBounds_eq_of_size_le hk]
    exact .inl rfl

/-- The turn of a worker concerns no other engine than its own. -/
theorem engine_step_of_ne (hw : n.workers[i]? = some w) {j : Nat} (hne : j ≠ w.engine) :
    (n.step i).engine j = n.engine j := by
  have hother (act : Engine → Hub → Engine × Hub) :
      (n.withEngine w.engine act).engine j = n.engine j := by
    rcases n.engine_withEngine w.engine act j with hsame | ⟨heq, _⟩
    · exact hsame
    · exact absurd heq hne
  unfold step
  rw [hw]
  dsimp only
  split
  · split
    · exact hother Engine.step
    · exact (engine_enter _ i _ j).trans (hother Engine.step)
  · exact (engine_enter _ i _ j).trans (hother releaseOutput)
  · rw [engine_enter]
    split
    · rfl
    · exact hother releaseInput
  · rfl

/-- Letting go of the output hangs up its sending end. -/
theorem releaseOutput_eq (e : Engine) (h : Hub) :
    releaseOutput e h = ({ e with output := none }, match e.output with
      | some tx => h.closeSender tx
      | none => h) := by
  unfold releaseOutput Engine.takeOutput
  cases e.output <;> rfl

/-- Letting go of the input closes its receiving end. -/
theorem releaseInput_eq (e : Engine) (h : Hub) :
    releaseInput e h = ({ e with input := none }, match e.input with
      | some rx => h.closeReceiver rx
      | none => h) := by
  unfold releaseInput Engine.takeInput
  cases e.input <;> rfl

/-- An engine that has ended keeps its status when some engine acts in a way that keeps the status
    of engines that have ended. -/
theorem status_withEngine {act : Engine → Hub → Engine × Hub} {j : Nat}
    (hact : ∀ e h, e.isRunning = false → (act e h).1.status = e.status)
    (hended : (n.engine j).isRunning = false) :
    ((n.withEngine k act).engine j).status = (n.engine j).status := by
  rcases n.engine_withEngine k act j with hsame | ⟨rfl, hacted⟩
  · rw [hsame]
  · rw [hacted]
    exact hact _ _ hended

/-- No turn changes the status of an engine that has ended. -/
theorem status_step (n : Network) (i : Nat) {j : Nat} (hended : (n.engine j).isRunning = false) :
    ((n.step i).engine j).status = (n.engine j).status := by
  have hstep (e : Engine) (h : Hub) (he : e.isRunning = false) :
      (e.step h).1.status = e.status := by
    rw [Engine.step_of_ended he]
  have hout (e : Engine) (h : Hub) (_ : e.isRunning = false) :
      (releaseOutput e h).1.status = e.status := by
    rw [releaseOutput_eq]
  have hin (e : Engine) (h : Hub) (_ : e.isRunning = false) :
      (releaseInput e h).1.status = e.status := by
    rw [releaseInput_eq]
  unfold step
  split
  · rfl
  · split
    · dsimp only
      split
      · exact status_withEngine hstep hended
      · rw [engine_enter]
        exact status_withEngine hstep hended
    · rw [engine_enter]
      exact status_withEngine hout hended
    · dsimp only
      rw [engine_enter]
      split
      · rfl
      · exact status_withEngine hin hended
    · rfl

/-- No schedule changes the status of an engine that has ended. -/
theorem status_follow (schedule : List Nat) (n : Network) {j : Nat}
    (hended : (n.engine j).isRunning = false) :
    ((n.follow schedule).engine j).status = (n.engine j).status := by
  induction schedule generalizing n with
  | nil => rfl
  | cons i schedule ih =>
    rw [follow]
    split
    · have hstatus := n.status_step i hended
      have hended' : ((n.step i).engine j).isRunning = false := by
        rw [Engine.isRunning_eq_false_iff] at hended ⊢
        rw [hstatus]
        exact hended
      exact (ih _ hended').trans hstatus
    · exact ih n hended

end Network

end Intcode
