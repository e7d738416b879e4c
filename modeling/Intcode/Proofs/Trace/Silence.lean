import Intcode.Proofs.Moments

namespace Intcode.Engine

/-!
# Tracing is not noticed

An engine writes its trace and never looks at it.  The same engine without a trace does the same,
step by step, gets the same answers from the channels and the console, and gives the same answers.

* `mute`         — the engine without its trace
* `step_mute`    — it takes the same steps
* `perform_mute` — it answers every call in the same way
* `live_mute`, `moments_mute` — it leads the same life, call by call
-/

/-- The same engine, which records nothing and has recorded nothing. -/
def mute (e : Engine) : Engine := { e with tracing := false, trace := #[] }

/-- The channels stay what they are. -/
def muted (s : Engine × Hub) : Engine × Hub := (s.1.mute, s.2)

/-- The same call, made to the engine without its trace. -/
def Moment.mute (m : Moment) : Moment := { m with engine := m.engine.mute }

/-! ### Steps -/

theorem act_mute {α : Type} (e : Engine) (action : Exec α) :
    e.mute.act action = ((e.act action).1, (e.act action).2.mute) := by
  have hmachine : e.mute.machine = e.machine := rfl
  rw [act_eq, act_eq, hmachine]
  cases action e.machine <;> rfl

@[simp] theorem complete_mute (e : Engine) : e.mute.complete = e.complete.mute :=
  congrArg Prod.snd (act_mute e _)

/-- What is recorded is all that is lost. -/
@[simp] theorem record_mute (e : Engine) (origin : Int) (i : Instruction) :
    e.mute.record origin i = (e.record origin i).mute := by
  have hmute : e.mute.record origin i = e.mute := rfl
  rw [hmute]
  unfold record
  split <;> rfl

theorem accept_mute (e : Engine) (origin mode v : Int) :
    e.mute.accept origin mode v = (e.accept origin mode v).mute := by
  unfold accept
  rw [act_mute]
  rcases e.act (Exec.store mode v) with ⟨f | x, next⟩
  · rfl
  · exact complete_mute next

theorem receive_mute (e : Engine) (h : Hub) (r : Request) :
    e.mute.receive h r = muted (e.receive h r) := by
  unfold receive
  cases h.recv r.receiver with
  | value v h' => exact congrArg (·, h') (accept_mute { e with request := none } r.origin r.mode v)
  | closed error => rfl
  | wait => rfl

theorem typed_mute (e : Engine) (origin mode : Int) (line : Except Fault Int × Console) :
    e.mute.typed origin mode line = (e.typed origin mode line).mute := by
  obtain ⟨cause | v, console⟩ := line
  · rfl
  · exact accept_mute { e with console } origin mode v

theorem printed_mute (e : Engine) (origin : Int) (console : Except Fault Console) :
    e.mute.printed origin console = (e.printed origin console).mute := by
  cases console with
  | error cause => rfl
  | ok console => exact complete_mute { e with console }

theorem obtain_mute (e : Engine) (h : Hub) (origin mode : Int) :
    e.mute.obtain h origin mode = muted (e.obtain h origin mode) := by
  cases hin : e.input with
  | some receiver =>
    rw [obtain_of_input hin, obtain_of_input (e := e.mute) hin]
    exact receive_mute e h _
  | none =>
    rw [obtain_of_input_none hin, obtain_of_input_none (e := e.mute) hin]
    exact congrArg (·, h) (typed_mute e origin mode _)

theorem emit_mute (e : Engine) (h : Hub) (origin v : Int) :
    e.mute.emit h origin v = muted (e.emit h origin v) := by
  cases hout : e.output with
  | none =>
    rw [emit_of_output_none hout, emit_of_output_none (e := e.mute) hout]
    exact congrArg (·, h) (printed_mute e origin _)
  | some tx =>
    have hout' : e.mute.output = some tx := hout
    unfold emit
    rw [hout, hout']
    dsimp only
    cases h.send tx v with
    | ok h' => exact congrArg (·, h') (complete_mute e)
    | error f => rfl

theorem meet_mute (e : Engine) (h : Hub) (origin : Int) (d : Demand) :
    e.mute.meet h origin d = muted (e.meet h origin d) := by
  cases d with
  | nothing => exact congrArg (·, h) (complete_mute e)
  | halt => exact congrArg (·, h) (complete_mute { e with status := .halted })
  | input mode => exact obtain_mute e h origin mode
  | output v => exact emit_mute e h origin v

theorem attempt_mute (e : Engine) (h : Hub) : e.mute.attempt h = muted (e.attempt h) := by
  have hpc : e.mute.machine.pc = e.machine.pc := rfl
  have hstarted : { e.mute with started := true } = mute { e with started := true } := rfl
  unfold attempt
  dsimp only
  rw [hpc, hstarted, act_mute]
  rcases Engine.act { e with started := true } Exec.decode with ⟨f | i, mid⟩
  · rfl
  · dsimp only
    rw [record_mute, act_mute]
    rcases (mid.record e.machine.pc i).act (Exec.execute i) with ⟨f | d, next⟩
    · rfl
    · exact meet_mute next h _ d

/-- **A step is the same without the trace.** -/
theorem step_mute (e : Engine) (h : Hub) : e.mute.step h = muted (e.step h) := by
  have hstatus : e.mute.status = e.status := rfl
  have hreq : e.mute.request = e.request := rfl
  unfold step
  rw [hstatus, hreq]
  split
  · split
    · exact receive_mute e h _
    · exact attempt_mute e h
  · rfl

/-- So is a run. -/
theorem runFor_mute (e : Engine) (fuel : Nat) (h : Hub) :
    e.mute.runFor fuel h = muted (e.runFor fuel h) := by
  induction fuel generalizing e h with
  | zero => rfl
  | succ fuel ih =>
    have hrun : e.mute.isRunning = e.isRunning := rfl
    rw [runFor, runFor, hrun, step_mute]
    split
    · show (if (e.step h).1.request.isSome then _ else _) = _
      dsimp only
      split
      · rfl
      · exact ih _ _
    · rfl

/-! ### Lives -/

theorem actAt_mute {α : Type} (e : Engine) (place : Offer) (action : Int → Exec α) :
    e.mute.actAt place action =
      ((e.actAt place action).1, (e.actAt place action).2.mute) := by
  unfold actAt
  cases place.resolve with
  | ok a => exact act_mute e (action a.toInt)
  | error f => rfl

/-- **Every call** is answered in the same way, and does the same. -/
theorem perform_mute (e : Engine) (h : Hub) (c : Call) :
    e.mute.perform h c = ((e.perform h c).1, muted (e.perform h c).2) := by
  cases c with
  | step => rw [perform, perform, step_mute]; rfl
  | run fuel => rw [perform, perform, runFor_mute]; rfl
  | get place => rw [perform, perform, actAt_mute]; rfl
  | set place v => rw [perform, perform, actAt_mute]; rfl
  | bindInput rx | bindOutput tx =>
    -- whether the engine has started is the same
    obtain ⟨machine, status, started, request, input, output, console, tracing, trace⟩ := e
    cases started <;> rfl
  | takeInput | takeOutput | cloneOutput | close => rfl

theorem happen_mute (s : Engine × Hub) (event : Event) :
    happen (muted s) event = muted (happen s event) := by
  cases event with
  | call c => exact congrArg Prod.snd (perform_mute s.1 s.2 c)
  | outside change => rfl

/-- **The engine leads the same life without its trace**, and so do the channels. -/
theorem live_mute (s : Engine × Hub) (events : List Event) :
    live (muted s) events = muted (live s events) := by
  induction events generalizing s with
  | nil => rfl
  | cons event events ih =>
    show live (happen (muted s) event) events = _
    rw [happen_mute]
    exact ih _

theorem runMoments_mute (e : Engine) (fuel : Nat) (h : Hub) :
    runMoments fuel e.mute h = (runMoments fuel e h).map Moment.mute := by
  induction fuel generalizing e h with
  | zero => rfl
  | succ fuel ih =>
    have hrun : e.mute.isRunning = e.isRunning := rfl
    rw [runMoments, runMoments, hrun, step_mute]
    split
    · show _ :: (if (e.step h).1.request.isSome then [] else _) = _
      dsimp only
      split
      · rfl
      · exact congrArg (_ :: ·) (ih _ _)
    · rfl

/-- **The same calls are made to it**, one after another. -/
theorem moments_mute (s : Engine × Hub) (events : List Event) :
    moments (muted s) events = (moments s events).map Moment.mute := by
  induction events generalizing s with
  | nil => rfl
  | cons event events ih =>
    have hevent : event.moments (muted s) = (event.moments s).map Moment.mute := by
      cases event with
      | outside change => rfl
      | call c =>
        cases c with
        | run fuel => exact runMoments_mute s.1 fuel s.2
        | _ => rfl
    rw [moments, moments, List.map_append, hevent, happen_mute, ih]

end Intcode.Engine
