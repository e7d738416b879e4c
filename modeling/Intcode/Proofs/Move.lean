import Intcode.Engine.Step

namespace Intcode

/-!
# Moves of engines

What an engine does next is decided by the engine alone: it changes on its own, it waits for an
input value, or it has a value to emit.  The channels decide only what becomes of the last two.

* `Engine.move`      — what an engine does next
* `Engine.step_eq`   — a step is the move, with the channels' part
* `Engine.ports`     — what a move leaves alone
-/

namespace Engine

/-- What an engine does next. -/
inductive Move where
  /-- It has ended. -/
  | rest
  /-- It changes on its own; it may then be suspended. -/
  | act (next : Engine)
  /-- It is suspended and needs an input value. -/
  | await (r : Request)
  /-- The instruction at `origin` emits a value at the end of a channel. -/
  | tell (tx : SenderRef) (origin v : Int) (e : Engine)

/-- Completes an input instruction with what has been typed in. -/
def typed (e : Engine) (origin mode : Int) : Except Fault Int × Console → Engine
  | (.ok v, console) => { e with console }.accept origin mode v
  | (.error f, console) => { e with console }.fail origin f

/-- Completes an output instruction with the console on which its value is printed. -/
def printed (e : Engine) (origin : Int) : Except Fault Console → Engine
  | .ok console => { e with console }.complete
  | .error f => e.fail origin f

/-- Turns to an input for a value. -/
def ask (e : Engine) (origin mode : Int) : Option ReceiverRef → Move
  | some receiver => .act { e with request := some { mode, receiver, origin } }
  | none => .act (e.typed origin mode e.console.read)

/-- Turns to an output with a value. -/
def say (e : Engine) (origin v : Int) : Option SenderRef → Move
  | some tx => .tell tx origin v e
  | none => .act (e.printed origin (e.console.print v))

/-- Sees to what is left to do for the instruction at `origin`, up to an exchange with a channel. -/
def pursue (e : Engine) (origin : Int) : Demand → Move
  | .nothing => .act e.complete
  | .halt => .act { e with status := .halted }.complete
  | .input mode => e.ask origin mode e.input
  | .output v => e.say origin v e.output

/-- Goes on with the result of carrying out the instruction at `origin`. -/
def carryOn (origin : Int) : Except Fault Demand × Engine → Move
  | (.error f, e) => .act (e.fail origin f)
  | (.ok demand, e) => e.pursue origin demand

/-- Goes on with the result of decoding the instruction at `origin`. -/
def launch (origin : Int) : Except Fault Instruction × Engine → Move
  | (.error f, e) => .act (e.fail origin f)
  | (.ok i, e) => carryOn origin ((e.record origin i).act (Exec.execute i))

/-- What an engine does next. -/
def move (e : Engine) : Move :=
  match e.status with
  | .running =>
    match e.request with
    | some r => .await r
    | none => launch e.machine.pc ({ e with started := true }.act Exec.decode)
  | _ => .rest

/-- The engine goes on with the value it has been waiting for. -/
def answer (e : Engine) (r : Request) (v : Int) : Engine :=
  { e with request := none }.accept r.origin r.mode v

/-- The engine learns that no value will come. -/
def giveUp (e : Engine) (r : Request) : Engine :=
  { e with request := none }.fail r.origin .inputClosed

/-! ### What an action leaves alone -/

/-- The suspension of an engine and its two ends. -/
def ports (e : Engine) : Option Request × Option ReceiverRef × Option SenderRef :=
  (e.request, e.input, e.output)

variable {e e' : Engine} {α : Type}

/-- An action changes the machine only. -/
theorem act_eq (e : Engine) (action : Exec α) :
    e.act action = match action e.machine with
      | .ok x machine => (.ok x, { e with machine })
      | .error f machine => (.error f, { e with machine }) := rfl

theorem act_snd (e : Engine) (action : Exec α) :
    (e.act action).2 = { e with machine := (e.act action).2.machine } := by
  rw [act_eq]
  cases action e.machine <;> rfl

@[simp] theorem ports_act (e : Engine) (action : Exec α) : (e.act action).2.ports = e.ports := by
  rw [act_snd]
  rfl

@[simp] theorem status_act (e : Engine) (action : Exec α) : (e.act action).2.status = e.status := by
  rw [act_snd]

@[simp] theorem ports_complete (e : Engine) : e.complete.ports = e.ports := ports_act e _

@[simp] theorem ports_record (e : Engine) (origin : Int) (i : Instruction) :
    (e.record origin i).ports = e.ports := by
  unfold record
  split <;> rfl

@[simp] theorem status_record (e : Engine) (origin : Int) (i : Instruction) :
    (e.record origin i).status = e.status := by
  unfold record
  split <;> rfl

@[simp] theorem machine_record (e : Engine) (origin : Int) (i : Instruction) :
    (e.record origin i).machine = e.machine := by
  unfold record
  split <;> rfl

@[simp] theorem ports_accept (e : Engine) (origin mode v : Int) :
    (e.accept origin mode v).ports = e.ports := by
  have hact := ports_act e (Exec.store mode v)
  unfold accept
  split
  · rename_i heq
    rw [heq] at hact
    rw [ports_complete]
    exact hact
  · rename_i heq
    rw [heq] at hact
    exact hact

theorem input_act (e : Engine) (action : Exec α) : (e.act action).2.input = e.input :=
  congrArg (·.2.1) (ports_act e action)

theorem input_record (e : Engine) (origin : Int) (i : Instruction) :
    (e.record origin i).input = e.input :=
  congrArg (·.2.1) (ports_record e origin i)

theorem console_act (e : Engine) (action : Exec α) : (e.act action).2.console = e.console := by
  rw [act_snd]

theorem console_record (e : Engine) (origin : Int) (i : Instruction) :
    (e.record origin i).console = e.console := by
  unfold record
  split <;> rfl

theorem console_accept (e : Engine) (origin mode v : Int) :
    (e.accept origin mode v).console = e.console := by
  have hact := console_act e (Exec.store mode v)
  unfold accept
  split
  · rename_i heq
    rw [heq] at hact
    exact (console_act _ _).trans hact
  · rename_i heq
    rw [heq] at hact
    exact hact

/-- What each kind of move leaves of the ports.  Only a running engine is suspended or emits. -/
def Move.Respects (e : Engine) : Move → Prop
  | .rest => True
  | .act next =>
    next.input = e.input ∧ next.output = e.output ∧
      ∀ r, next.request = some r → next.status = .running ∧ e.input = some r.receiver
  | .await r => e.request = some r
  | .tell tx _ _ told => e.output = some tx ∧ told.ports = e.ports ∧ told.status = .running

/-- A move that leaves the engine with its ports. -/
theorem Move.respects_act_of_ports (hreq : e.request = none) (hports : e'.ports = e.ports) :
    (Move.act e').Respects e := by
  have hnone : e'.request = none := (congrArg Prod.fst hports).trans hreq
  refine ⟨congrArg (·.2.1) hports, congrArg (·.2.2) hports, fun r hr => ?_⟩
  rw [hnone] at hr
  cases hr

/-- What is kept is kept of an engine with the same ports. -/
theorem Move.Respects.of_ports {m : Move} (h : m.Respects e') (hports : e'.ports = e.ports) :
    m.Respects e := by
  have hreq : e'.request = e.request := congrArg Prod.fst hports
  have hin : e'.input = e.input := congrArg (·.2.1) hports
  have hout : e'.output = e.output := congrArg (·.2.2) hports
  cases m with
  | rest => trivial
  | act next =>
    obtain ⟨hin', hout', hsuspended⟩ := h
    refine ⟨hin'.trans hin, hout'.trans hout, fun r hr => ?_⟩
    rw [← hin]
    exact hsuspended r hr
  | await r => exact hreq.symm.trans h
  | tell tx origin v told =>
    obtain ⟨hout', htold, hrun⟩ := h
    exact ⟨hout.symm.trans hout', htold.trans hports, hrun⟩

theorem ports_typed (e : Engine) (origin mode : Int) (line : Except Fault Int × Console) :
    (e.typed origin mode line).ports = e.ports := by
  obtain ⟨f | v, console⟩ := line
  · rfl
  · exact ports_accept _ origin mode v

theorem ports_printed (e : Engine) (origin : Int) (line : Except Fault Console) :
    (e.printed origin line).ports = e.ports := by
  cases line with
  | ok console => exact ports_complete _
  | error f => rfl

theorem console_typed (e : Engine) (origin mode : Int) (line : Except Fault Int × Console) :
    (e.typed origin mode line).console = line.2 := by
  obtain ⟨f | v, console⟩ := line
  · rfl
  · exact console_accept { e with console } origin mode v

theorem respects_pursue (hreq : e.request = none) (hrun : e.status = .running) (origin : Int)
    (d : Demand) : (e.pursue origin d).Respects e := by
  cases d with
  | nothing => exact Move.respects_act_of_ports hreq (ports_complete e)
  | halt => exact Move.respects_act_of_ports hreq (ports_complete _)
  | input mode =>
    show (e.ask origin mode e.input).Respects e
    cases hin : e.input with
    | none => exact Move.respects_act_of_ports hreq (ports_typed e origin mode _)
    | some receiver =>
      refine ⟨rfl, rfl, fun r hr => ⟨hrun, ?_⟩⟩
      cases hr
      exact hin
  | output v =>
    show (e.say origin v e.output).Respects e
    cases hout : e.output with
    | none => exact Move.respects_act_of_ports hreq (ports_printed e origin _)
    | some tx => exact ⟨hout, rfl, hrun⟩

theorem respects_carryOn (hreq : e.request = none) (hrun : e.status = .running) (origin : Int)
    (action : Exec Demand) : (carryOn origin (e.act action)).Respects e := by
  have hports := ports_act e action
  have hstatus := status_act e action
  rcases hact : e.act action with ⟨f | d, e₁⟩
  · rw [hact] at hports
    exact Move.respects_act_of_ports hreq hports
  · rw [hact] at hports hstatus
    have hreq₁ : e₁.request = none := (congrArg Prod.fst hports).trans hreq
    exact (respects_pursue hreq₁ (hstatus.trans hrun) origin d).of_ports hports

theorem respects_launch (hreq : e.request = none) (hrun : e.status = .running) (origin : Int)
    (action : Exec Instruction) : (launch origin (e.act action)).Respects e := by
  have hports := ports_act e action
  have hstatus := status_act e action
  rcases hact : e.act action with ⟨f | i, e₁⟩
  · rw [hact] at hports
    exact Move.respects_act_of_ports hreq hports
  · rw [hact] at hports hstatus
    have hports₁ := (ports_record e₁ origin i).trans hports
    have hreq₁ := (congrArg Prod.fst hports₁).trans hreq
    have hrun₁ := (status_record e₁ origin i).trans (hstatus.trans hrun)
    exact (respects_carryOn hreq₁ hrun₁ origin (Exec.execute i)).of_ports hports₁

/-- Every move keeps the ends of the engine. -/
theorem respects_move (e : Engine) : e.move.Respects e := by
  unfold move
  split
  · rename_i hrun
    split
    · rename_i r hreq
      exact hreq
    · rename_i hreq
      exact (respects_launch (e := { e with started := true }) hreq hrun _ Exec.decode).of_ports rfl
  · trivial

/-- What the move of an engine leaves of its ports. -/
theorem respects_of_move {m : Move} (hmove : e.move = m) : m.Respects e := by
  rw [← hmove]
  exact respects_move e

/-! ### Engines that have ended -/

theorem isRunning_iff (e : Engine) : e.isRunning = true ↔ e.status = .running := beq_iff_eq

theorem isRunning_eq_false_iff (e : Engine) : e.isRunning = false ↔ e.status ≠ .running :=
  beq_eq_false_iff_ne

/-- An engine with a fault has ended. -/
theorem isRunning_eq_false_of_fault? {f : Fault} (hfault : e.fault? = some f) :
    e.isRunning = false := by
  rw [isRunning_eq_false_iff]
  intro hrun
  simp [fault?, hrun] at hfault

/-- An engine that runs has met no fault. -/
theorem fault?_of_running (hrun : e.status = .running) : e.fault? = none := by
  simp [fault?, hrun]

theorem pursue_ne_rest (e : Engine) (origin : Int) (d : Demand) : e.pursue origin d ≠ .rest := by
  cases d with
  | nothing | halt => exact nofun
  | input mode =>
    show e.ask origin mode e.input ≠ .rest
    cases e.input <;> exact nofun
  | output v =>
    show e.say origin v e.output ≠ .rest
    cases e.output <;> exact nofun

theorem launch_ne_rest (origin : Int) (decoded : Except Fault Instruction × Engine) :
    launch origin decoded ≠ .rest := by
  obtain ⟨f | i, e₁⟩ := decoded
  · exact nofun
  · show carryOn origin ((e₁.record origin i).act (Exec.execute i)) ≠ .rest
    rcases (e₁.record origin i).act (Exec.execute i) with ⟨f | d, e₂⟩
    · exact nofun
    · exact pursue_ne_rest e₂ origin d

/-- The engines that rest are those that have ended. -/
theorem move_eq_rest_iff (e : Engine) : e.move = .rest ↔ e.isRunning = false := by
  unfold move isRunning
  cases hstatus : e.status with
  | running =>
    cases hreq : e.request with
    | some r => exact ⟨nofun, nofun⟩
    | none => exact ⟨fun h => absurd h (launch_ne_rest _ _), nofun⟩
  | halted => exact ⟨fun _ => rfl, fun _ => rfl⟩
  | faulted cause origin => exact ⟨fun _ => rfl, fun _ => rfl⟩

/-- An engine that does anything runs. -/
theorem isRunning_of_move {m : Move} (hmove : e.move = m) (hne : m ≠ .rest) :
    e.isRunning = true := by
  apply eq_true_of_ne_false
  intro hended
  exact hne (hmove.symm.trans ((move_eq_rest_iff e).2 hended))

/-- An engine that runs and waits for nothing attempts its next instruction. -/
theorem move_of_running (hrun : e.status = .running) (hreq : e.request = none) :
    e.move = launch e.machine.pc ({ e with started := true }.act Exec.decode) := by
  unfold move
  rw [hrun, hreq]

/-! ### Steps as moves -/

/-- A running engine that waits for nothing attempts its next instruction. -/
theorem step_eq_attempt (hrun : e.status = .running) (hreq : e.request = none) (h : Hub) :
    e.step h = e.attempt h := by
  simp only [step, hrun, hreq]

/-- A suspended engine looks for its value again. -/
theorem step_eq_receive {r : Request} (hrun : e.status = .running) (hreq : e.request = some r)
    (h : Hub) : e.step h = e.receive h r := by
  simp only [step, hrun, hreq]

/-- What becomes of a move among the channels. -/
def Move.settle (h : Hub) (e : Engine) : Move → Engine × Hub
  | .rest => (e, h)
  | .act next =>
    match next.request with
    | none => (next, h)
    | some r => next.receive h r
  | .await r => e.receive h r
  | .tell _ origin v told => told.emit h origin v

/-- A move after which the engine is not suspended is the whole step. -/
theorem Move.settle_act_of_ports {h : Hub} {e₀ : Engine} (hreq : e.request = none)
    (hports : e'.ports = e.ports) : (Move.act e').settle h e₀ = (e', h) := by
  have hnone : e'.request = none := (congrArg Prod.fst hports).trans hreq
  unfold settle
  simp only [hnone]

/-- With a channel the value is looked for there. -/
theorem obtain_of_input {rx : ReceiverRef} (hin : e.input = some rx) (h : Hub)
    (origin mode : Int) : e.obtain h origin mode = e.receive h ⟨mode, rx, origin⟩ := by
  unfold Engine.obtain
  rw [hin]

/-- Without a channel the value is typed in. -/
theorem obtain_of_input_none (hin : e.input = none) (h : Hub) (origin mode : Int) :
    e.obtain h origin mode = (e.typed origin mode e.console.read, h) := by
  obtain ⟨machine, status, started, request, input, output, console, tracing, trace⟩ := e
  cases hin
  unfold Engine.obtain
  dsimp only
  rcases console.read with ⟨f | v, console'⟩ <;> rfl

/-- Without a channel the value is printed. -/
theorem emit_of_output_none (hout : e.output = none) (h : Hub) (origin v : Int) :
    e.emit h origin v = (e.printed origin (e.console.print v), h) := by
  obtain ⟨machine, status, started, request, input, output, console, tracing, trace⟩ := e
  cases hout
  unfold Engine.emit
  dsimp only
  cases console.print v <;> rfl

theorem settle_pursue (hreq : e.request = none) (h : Hub) (e₀ : Engine) (origin : Int)
    (d : Demand) : (e.pursue origin d).settle h e₀ = e.meet h origin d := by
  cases d with
  | nothing => exact Move.settle_act_of_ports hreq (ports_complete e)
  | halt => exact Move.settle_act_of_ports hreq (ports_complete _)
  | input mode =>
    show (e.ask origin mode e.input).settle h e₀ = e.obtain h origin mode
    cases hin : e.input with
    | some receiver =>
      rw [obtain_of_input hin]
      rfl
    | none =>
      rw [obtain_of_input_none hin]
      exact Move.settle_act_of_ports hreq (ports_typed e origin mode _)
  | output v =>
    show (e.say origin v e.output).settle h e₀ = e.emit h origin v
    cases hout : e.output with
    | some tx => rfl
    | none =>
      rw [emit_of_output_none hout]
      exact Move.settle_act_of_ports hreq (ports_printed e origin _)

theorem settle_launch (hreq : e.request = none) (h : Hub) (e₀ : Engine) :
    (launch e.machine.pc ({ e with started := true }.act Exec.decode)).settle h e₀ =
      e.attempt h := by
  have hdecode := ports_act { e with started := true } Exec.decode
  unfold attempt
  dsimp only
  rcases hact : Engine.act { e with started := true } Exec.decode with ⟨f | i, e₁⟩
  · rw [hact] at hdecode
    exact Move.settle_act_of_ports (e := e) hreq hdecode
  · rw [hact] at hdecode
    have hrecord := (ports_record e₁ e.machine.pc i).trans hdecode
    have hexecute := (ports_act (e₁.record e.machine.pc i) (Exec.execute i)).trans hrecord
    show (carryOn _ ((e₁.record e.machine.pc i).act (Exec.execute i))).settle h e₀ = _
    dsimp only
    rcases hact₁ : (e₁.record e.machine.pc i).act (Exec.execute i) with ⟨f | d, e₂⟩
    · rw [hact₁] at hexecute
      exact Move.settle_act_of_ports (e := e) hreq hexecute
    · rw [hact₁] at hexecute
      exact settle_pursue ((congrArg Prod.fst hexecute).trans hreq) h e₀ e.machine.pc d

/-- **A step is a move.**  The channels decide only about an input value and about the fate of an
    emitted one. -/
theorem step_eq (e : Engine) (h : Hub) : e.step h = e.move.settle h e := by
  cases hrun : e.status with
  | halted => simp only [step, move, hrun, Move.settle]
  | faulted cause origin => simp only [step, move, hrun, Move.settle]
  | running =>
    cases hreq : e.request with
    | some r => simp only [step, move, hrun, hreq, Move.settle]
    | none =>
      rw [step_eq_attempt hrun hreq]
      rw [move_of_running hrun hreq]
      exact (settle_launch hreq h e).symm

end Engine

end Intcode
