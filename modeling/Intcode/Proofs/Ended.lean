import Intcode.Proofs.Calls

namespace Intcode.Engine

/-!
# Engines that have ended

An engine that has halted, or that a fault has stopped, stays so whatever is asked of it.  Its
memory and its ends are at the disposal of whoever holds it, but its own state does not change any
more, and it neither takes nor emits anything.

* `Orderly`          — only a running engine is unstarted or suspended
* `orderly_live`     — so every engine is orderly, whatever has been asked of it
* `Remains`          — nothing that belongs to the run of an engine has changed
* `ended_for_good`   — an engine that has ended remains as it is, and answers accordingly
-/

variable {e e' : Engine} {r : Request}

/-! ### Started engines -/

theorem started_act {α : Type} (e : Engine) (action : Exec α) :
    (e.act action).2.started = e.started := by
  rw [act_snd]

theorem started_record (e : Engine) (origin : Int) (i : Instruction) :
    (e.record origin i).started = e.started := by
  unfold record
  split <;> rfl

theorem started_accept (e : Engine) (origin mode v : Int) :
    (e.accept origin mode v).started = e.started := by
  have hact := started_act e (Exec.store mode v)
  unfold accept
  split
  · rename_i heq
    rw [heq] at hact
    exact (started_act _ _).trans hact
  · rename_i heq
    rw [heq] at hact
    exact hact

/-- Whatever an engine does in this move, it has started by then. -/
def Move.Started : Move → Prop
  | .act next => next.started = true
  | .tell _ _ _ told => told.started = true
  | .rest | .await _ => True

theorem started_pursue (he : e.started = true) (origin : Int) (d : Demand) :
    (e.pursue origin d).Started := by
  cases d with
  | nothing => exact (started_act e _).trans he
  | halt => exact (started_act { e with status := .halted } _).trans he
  | input mode =>
    show (e.ask origin mode e.input).Started
    cases e.input with
    | some receiver => exact he
    | none =>
      show (e.typed origin mode e.console.read).started = true
      rcases e.console.read with ⟨cause | v, console⟩
      · exact he
      · exact (started_accept { e with console } origin mode v).trans he
  | output v =>
    show (e.say origin v e.output).Started
    cases e.output with
    | some tx => exact he
    | none =>
      show (e.printed origin (e.console.print v)).started = true
      rcases e.console.print v with cause | console
      · exact he
      · exact (started_act { e with console } _).trans he

theorem started_carryOn (he : e.started = true) (origin : Int) (action : Exec Demand) :
    (carryOn origin (e.act action)).Started := by
  have hstarted := started_act e action
  rcases hact : e.act action with ⟨f | d, next⟩
  · rw [hact] at hstarted
    exact hstarted.trans he
  · rw [hact] at hstarted
    exact started_pursue (hstarted.trans he) origin d

theorem started_launch (he : e.started = true) (origin : Int) (action : Exec Instruction) :
    (launch origin (e.act action)).Started := by
  have hstarted := started_act e action
  rcases hact : e.act action with ⟨f | i, next⟩
  · rw [hact] at hstarted
    exact hstarted.trans he
  · rw [hact] at hstarted
    have hrecord := (started_record next origin i).trans (hstarted.trans he)
    exact started_carryOn hrecord origin (Exec.execute i)

/-- Who does anything has started. -/
theorem started_move (e : Engine) : e.move.Started := by
  unfold move
  split
  · split
    · trivial
    · exact started_launch (e := { e with started := true }) rfl _ Exec.decode
  · trivial

theorem started_of_move {m : Move} (hmove : e.move = m) : m.Started := by
  rw [← hmove]
  exact started_move e

/-! ### Orderly engines -/

/-- An engine that has not started runs and is not suspended; one that is suspended runs. -/
structure Orderly (e : Engine) : Prop where
  unstarted : e.started = false → e.status = .running ∧ e.request = none
  suspended : e.request ≠ none → e.status = .running

/-- An engine that asks for a value has started. -/
theorem Awaiting.started (hask : Awaiting e r e') (he : e.Orderly) : e'.started = true := by
  cases hask with
  | already hmove =>
    refine eq_true_of_ne_false fun hunstarted => ?_
    have hreq : e.request = some r := respects_of_move hmove
    rw [(he.unstarted hunstarted).2] at hreq
    cases hreq
  | now hmove => exact started_of_move hmove

/-- Whoever has been stepped has started. -/
theorem Orderly.started_step (he : e.Orderly) (h : Hub) : (e.step h).1.started = true := by
  have hexchange := exchange_step e h
  generalize e.taken? h = taken, e.sent? h = sent, e.step h = result at hexchange ⊢
  cases hexchange with
  | rest hmove =>
    refine eq_true_of_ne_false fun hunstarted => ?_
    have hended := (isRunning_eq_false_iff e).1 ((move_eq_rest_iff e).1 hmove)
    exact hended (he.unstarted hunstarted).1
  | silent hmove => exact started_of_move hmove
  | waits hask => exact hask.started he
  | takes hask => exact (started_accept _ _ _ _).trans (hask.started he)
  | givesUp hask => exact hask.started he
  | @sends tx origin v told hmove => exact (started_act told _).trans (started_of_move hmove)
  | refused hmove => exact started_of_move hmove

/-- A step leaves an engine orderly. -/
theorem Orderly.step (he : e.Orderly) (h : Hub) : (e.step h).1.Orderly where
  unstarted hunstarted := absurd ((he.started_step h).symm.trans hunstarted) nofun
  suspended hreq := by
    have hrun : e.request ≠ none → e.isRunning = true := fun hreq =>
      (isRunning_iff e).2 (he.suspended hreq)
    exact (isRunning_iff _).1 (isRunning_of_request_step hrun hreq)

/-- No call makes an engine disorderly. -/
theorem kept_orderly : Kept Orderly where
  step _ h he := he.step h
  memory _ _ he := ⟨he.unstarted, he.suspended⟩
  ends _ _ _ he := ⟨he.unstarted, he.suspended⟩

/-- **Every engine is orderly**, whatever has been asked of it. -/
theorem orderly_live (cells : List Int) (tracing : Bool) (console : Console) (h : Hub)
    (events : List Event) : (live (ofCells cells tracing console, h) events).1.Orderly :=
  kept_orderly.live ⟨fun _ => ⟨rfl, rfl⟩, fun hreq => absurd rfl hreq⟩ events

/-! ### The end -/

/-- Nothing that belongs to the run of `e` has changed in `e'`: not what stopped it, no register,
    and no line of the trace. -/
structure Remains (e e' : Engine) : Prop where
  status : e'.status = e.status
  started : e'.started = e.started
  request : e'.request = e.request
  pc : e'.machine.pc = e.machine.pc
  base : e'.machine.base = e.machine.base
  steps : e'.machine.steps = e.machine.steps
  trace : e'.trace = e.trace

/-- Every step and every run ends in the same way and changes nothing, neither the engine nor the
    channels, and no end can be bound any more. -/
structure Spent (final : Except Fault Status) (e : Engine) : Prop where
  step : ∀ h, e.perform h .step = (.verdict final, e, h)
  run : ∀ fuel h, e.perform h (.run fuel) = (.verdict final, e, h)
  bindInput : ∀ rx h, e.perform h (.bindInput rx) = (.bound (.error .inputAfterStart), e, h)
  bindOutput : ∀ tx h, e.perform h (.bindOutput tx) = (.bound (.error .outputAfterStart), e, h)

/-- What becomes of an engine that has ended: it has halted, or its fault is raised again. -/
def final (e : Engine) : Except Fault Status :=
  match e.fault? with
  | some cause => .error cause
  | none => .ok .halted

theorem verdict_of_ended (hended : e.isRunning = false) : e.verdict = e.final := by
  have hne := (isRunning_eq_false_iff e).1 hended
  unfold verdict final fault?
  cases hstatus : e.status with
  | running => exact absurd hstatus hne
  | halted | faulted => rfl

theorem runFor_of_ended (hended : e.isRunning = false) (fuel : Nat) (h : Hub) :
    e.runFor fuel h = (e, h) := by
  cases fuel with
  | zero => rfl
  | succ fuel => rw [runFor, if_neg (ne_true_of_eq_false hended)]

/-- An engine that has ended has started, and waits for nothing. -/
theorem Orderly.spent (he : e.Orderly) (hended : e.isRunning = false) : e.Spent e.final := by
  have hne := (isRunning_eq_false_iff e).1 hended
  have hstarted : e.started = true :=
    eq_true_of_ne_false fun hunstarted => hne (he.unstarted hunstarted).1
  have hreq : e.request = none := Decidable.not_not.1 fun hreq => hne (he.suspended hreq)
  have hreport : e.report = .verdict e.final := by
    unfold report
    rw [hreq]
    exact congrArg Answer.verdict (verdict_of_ended hended)
  constructor
  · intro h
    rw [perform, step_of_ended hended, hreport]
  · intro fuel h
    rw [perform, runFor_of_ended hended, hreport]
  · exact perform_bindInput_of_started hstarted
  · exact perform_bindOutput_of_started hstarted

namespace Remains

/-- A property of an engine's run holds of every engine that agrees with it. -/
theorem isRunning (hremains : Remains e e') : e'.isRunning = e.isRunning :=
  congrArg (· == Status.running) hremains.status

theorem final (hremains : Remains e e') : e'.final = e.final := by
  unfold Engine.final fault?
  rw [hremains.status]

end Remains

/-- What an engine that has ended keeps, no call takes away. -/
theorem kept_remains (hended : e.isRunning = false) : Kept (Remains e) where
  step e' h hremains := by
    rw [step_of_ended (hremains.isRunning.trans hended)]
    exact hremains
  memory _ _ hremains := { hremains with }
  ends _ _ _ hremains := { hremains with }

/-- **What has ended has ended for good.**  However an engine has been dealt with until it halted or
    met a fault, and however it is dealt with from then on, nothing that belongs to its run changes
    any more; each step and each run gives its end again, and no end can be bound. -/
theorem ended_for_good (cells : List Int) (tracing : Bool) (console : Console) (h : Hub)
    (events later : List Event)
    (hended : (live (ofCells cells tracing console, h) events).1.isRunning = false) :
    let s := live (ofCells cells tracing console, h) events
    Remains s.1 (live s later).1 ∧ Spent s.1.final (live s later).1 := by
  intro s
  -- what ended the engine stays, so it is still ended, and still orderly
  have hremains : Remains s.1 (live s later).1 :=
    (kept_remains hended).live ⟨rfl, rfl, rfl, rfl, rfl, rfl, rfl⟩ later
  have horderly : (live s later).1.Orderly :=
    kept_orderly.live (orderly_live cells tracing console h events) later
  refine ⟨hremains, ?_⟩
  rw [← hremains.final]
  exact horderly.spent (hremains.isRunning.trans hended)

/-- An engine that found no line at the console.  A halt written over its instruction later does not
    make it halt. -/
theorem ended_for_good_of_endOfInput :
    let s := live (ofCells [3, 0, 99] true {}, {}) [.call .step]
    let later : List Event := [.call (.set (.int 0) 99), .call .takeInput, .call (.run 9)]
    s.1.final = .error (.console .endOfInput) ∧ Remains s.1 (live s later).1 ∧
      Spent s.1.final (live s later).1 :=
  ⟨rfl, ended_for_good [3, 0, 99] true {} {} [.call .step] _ rfl⟩

end Intcode.Engine
