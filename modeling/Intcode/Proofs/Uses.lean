import Intcode.Proofs.Moments
import Intcode.Proofs.Refinement

namespace Intcode.Engine

/-!
# What a call does elsewhere

A call may read from the end of a channel, send to one, copy or close it, and it may turn to the
console.  All this is known before the call is made, and it is all that the call has to do with the
channels: they change by it and by nothing else, and the engine learns what the ends it uses reply,
and nothing else.

* `End`, `Use`  — the ends of channels, and what is done with them
* `alone`       — an engine once its machine has done what it can do for the next instruction alone
* `uses`        — what a call uses
* `Confined`    — a call does nothing elsewhere but what it uses
* `confined`    — every single call is confined
-/

/-- An end of a channel. -/
inductive End where
  | reading (rx : ReceiverRef)
  | writing (tx : SenderRef)
  deriving DecidableEq

/-- What is done with an end of a channel, or at the console. -/
inductive Use where
  | receive (rx : ReceiverRef)
  | send (tx : SenderRef) (v : Int)
  | copy (tx : SenderRef)
  | closeReceiver (rx : ReceiverRef)
  | closeSender (tx : SenderRef)
  /-- A value is asked for at the console. -/
  | ask
  /-- A value is printed at the console. -/
  | print (v : Int)
  deriving DecidableEq

/-- What an end answers to a use. -/
inductive Reply where
  | value (v : Int)
  | noMore
  | notYet
  | accepted
  | refused
  | copied (r : Except ChannelError SenderRef)
  | nothing

namespace Use

/-- The end that is used. -/
def end? : Use → Option End
  | .receive rx | .closeReceiver rx => some (.reading rx)
  | .send tx _ | .copy tx | .closeSender tx => some (.writing tx)
  | .ask | .print _ => none

/-- The channels after a use. -/
def onHub (h : Hub) : Use → Hub
  | .receive rx =>
    match h.recv rx with
    | .value _ h => h
    | _ => h
  | .send tx v =>
    match h.send tx v with
    | .ok h => h
    | .error _ => h
  | .copy tx =>
    match h.clone tx with
    | .ok (_, h) => h
    | .error _ => h
  | .closeReceiver rx => h.closeReceiver rx
  | .closeSender tx => h.closeSender tx
  | .ask | .print _ => h

/-- The console after a use. -/
def onConsole (console : Console) : Use → Console
  | .ask => console.read.2
  | .print v =>
    match console.print v with
    | .ok console => console
    | .error _ => console
  | _ => console

/-- What a use is answered. -/
def reply (h : Hub) : Use → Reply
  | .receive rx =>
    match h.recv rx with
    | .value v _ => .value v
    | .closed _ => .noMore
    | .wait => .notYet
  | .send tx v =>
    match h.send tx v with
    | .ok _ => .accepted
    | .error _ => .refused
  | .copy tx => .copied ((h.clone tx).map Prod.fst)
  | _ => .nothing

end Use

/-! ### What an engine does alone -/

/-- The engine once its machine has carried out the next instruction as far as it can alone. -/
def alone (e : Engine) : Except Fault Demand × Engine :=
  match { e with started := true }.act Exec.decode with
  | (.error f, mid) => (.error f, mid)
  | (.ok i, mid) => (mid.record e.machine.pc i).act (Exec.execute i)

/-- What is left of an attempt is to meet the demand. -/
theorem attempt_eq (e : Engine) (h : Hub) :
    e.attempt h = match e.alone with
      | (.error f, mid) => (mid.fail e.machine.pc f, h)
      | (.ok demand, mid) => mid.meet h e.machine.pc demand := by
  unfold attempt alone
  dsimp only
  rcases Engine.act { e with started := true } Exec.decode with ⟨f | i, mid⟩ <;> rfl

/-- What the machine does alone leaves the ends and the console alone. -/
theorem surroundings_alone (e : Engine) :
    e.alone.2.ports = e.ports ∧ e.alone.2.console = e.console := by
  have hports := ports_act { e with started := true } Exec.decode
  have hconsole := console_act { e with started := true } Exec.decode
  unfold alone
  rcases hact : Engine.act { e with started := true } Exec.decode with ⟨f | i, mid⟩
  · rw [hact] at hports hconsole
    exact ⟨hports, hconsole⟩
  · rw [hact] at hports hconsole
    exact ⟨(ports_act _ _).trans ((ports_record mid _ i).trans hports),
      (console_act _ _).trans ((console_record mid _ i).trans hconsole)⟩

/-- What a fetched instruction demands of an engine. -/
theorem alone_of_fetch {e : Engine} {i : Instruction}
    (hfetch : Reference.fetch e.machine.config = .ok i) :
    ∃ mid : Engine, mid.machine.config = e.machine.config.after 1 ∧
      e.alone = mid.act (Exec.execute i) := by
  have hdecode := Exec.decode_yields e.machine (Config.after_zero _).symm
  rw [hfetch] at hdecode
  obtain ⟨m, hdecode, hconfig, -⟩ := hdecode
  refine ⟨Engine.record { e with started := true, machine := m } e.machine.pc i, ?_, ?_⟩
  · rw [machine_record]
    exact hconfig
  · unfold alone
    rw [act_eq]
    dsimp only
    rw [hdecode]

/-- An input instruction demands a value, and needs nothing for it. -/
theorem alone_of_input {e : Engine} {i : Instruction}
    (hfetch : Reference.fetch e.machine.config = .ok i) (hop : i.opcode = .input) :
    e.alone.1 = .ok (.input i.mode1) := by
  obtain ⟨mid, -, halone⟩ := alone_of_fetch hfetch
  rw [halone, Exec.execute_input hop]
  rfl

/-- An output instruction whose operand can be had demands that it is emitted. -/
theorem alone_of_output {e : Engine} {i : Instruction} {v : Int}
    (hfetch : Reference.fetch e.machine.config = .ok i) (hop : i.opcode = .output)
    (hoperand : Reference.operand e.machine.config 1 i.mode1 = .ok v) :
    e.alone.1 = .ok (.output v) := by
  obtain ⟨mid, hconfig, halone⟩ := alone_of_fetch hfetch
  have hrun := Exec.output_yields hop mid.machine hconfig
  rw [hoperand] at hrun
  obtain ⟨m, hrun, -⟩ := hrun
  rw [halone, act_eq, hrun]

/-! ### What is used -/

/-- An input value is asked for at the end of a channel, or at the console. -/
def Use.ofInput : Option ReceiverRef → Use
  | some rx => .receive rx
  | none => .ask

/-- A value is sent to the end of a channel, or printed at the console. -/
def Use.ofOutput (v : Int) : Option SenderRef → Use
  | some tx => .send tx v
  | none => .print v

/-- What is used to meet a demand. -/
def demandUses (e : Engine) : Demand → List Use
  | .input _ => [.ofInput e.input]
  | .output v => [.ofOutput v e.output]
  | .nothing | .halt => []

/-- What an attempt uses. -/
def attemptUses (e : Engine) : List Use :=
  match e.alone.1 with
  | .ok demand => e.demandUses demand
  | .error _ => []

/-- What a step uses. -/
def stepUses (e : Engine) : List Use :=
  match e.status with
  | .running =>
    match e.request with
    | some r => [.receive r.receiver]
    | none => e.attemptUses
  | _ => []

/-- What a single call uses. -/
def uses (e : Engine) : Call → List Use
  | .step => e.stepUses
  | .cloneOutput => (e.output.map .copy).toList
  | .close => (e.input.map .closeReceiver).toList ++ (e.output.map .closeSender).toList
  | _ => []

/-- A running engine that waits for nothing uses what its attempt uses. -/
theorem uses_step_of_running {e : Engine} (hrun : e.isRunning = true) (hreq : e.request = none) :
    e.uses .step = e.attemptUses := by
  unfold uses stepUses
  dsimp only
  rw [(isRunning_iff e).1 hrun, hreq]

/-! ### Steps -/

/-- What comes of an engine is a matter of its uses, whatever the channels are like.  The engine has
    `console` before. -/
structure Through (uses : List Use) (console : Console) (next : Hub → Engine × Hub) : Prop where
  hub : ∀ h, (next h).2 = uses.foldl Use.onHub h
  console : ∀ h, (next h).1.console = uses.foldl Use.onConsole console
  blind : ∀ h h', (∀ u ∈ uses, u.reply h' = u.reply h) → (next h').1 = (next h).1

/-- An engine that uses nothing. -/
theorem through_nothing {e : Engine} {console : Console} (hconsole : e.console = console) :
    Through [] console fun h => (e, h) :=
  ⟨fun _ => rfl, fun _ => hconsole, fun _ _ _ => rfl⟩

/-- Looking for a value at the end of a channel. -/
theorem through_receive (e : Engine) (r : Request) :
    Through [.receive r.receiver] e.console fun h => e.receive h r := by
  -- the engine goes by the reply of the end, and does not look at the channels itself
  have hheeds (h : Hub) : e.receive h r = (match Use.reply h (.receive r.receiver) with
      | .value v => { e with request := none }.accept r.origin r.mode v
      | .noMore => { e with request := none }.fail r.origin .inputClosed
      | _ => { e with request := some r }, Use.onHub h (.receive r.receiver)) := by
    unfold receive Use.reply Use.onHub
    dsimp only
    cases h.recv r.receiver <;> rfl
  refine ⟨fun h => congrArg Prod.snd (hheeds h), fun h => ?_, fun h h' hreply => ?_⟩
  · rw [hheeds]
    dsimp only
    split
    · exact console_accept { e with request := none } r.origin r.mode _
    · rfl
    · rfl
  · rw [hheeds, hheeds, hreply (.receive r.receiver) (List.mem_singleton_self _)]

/-- Looking for a value at the input, whichever it is. -/
theorem through_obtain (e : Engine) (origin mode : Int) :
    Through [.ofInput e.input] e.console fun h => e.obtain h origin mode := by
  cases hin : e.input with
  | some rx =>
    have hobtain : (fun h => e.obtain h origin mode) = fun h => e.receive h ⟨mode, rx, origin⟩ :=
      funext fun h => obtain_of_input hin h origin mode
    rw [hobtain]
    exact through_receive e ⟨mode, rx, origin⟩
  | none =>
    have hobtain : (fun h => e.obtain h origin mode) =
        fun h => (e.typed origin mode e.console.read, h) :=
      funext fun h => obtain_of_input_none hin h origin mode
    rw [hobtain]
    exact ⟨fun _ => rfl, fun _ => console_typed e origin mode _, fun _ _ _ => rfl⟩

/-- Emitting a value at the output, whichever it is. -/
theorem through_emit (e : Engine) (origin v : Int) :
    Through [.ofOutput v e.output] e.console fun h => e.emit h origin v := by
  cases hout : e.output with
  | none =>
    have hemit : (fun h => e.emit h origin v) =
        fun h => (e.printed origin (e.console.print v), h) :=
      funext fun h => emit_of_output_none hout h origin v
    have hconsole : (e.printed origin (e.console.print v)).console =
        Use.onConsole e.console (.print v) := by
      unfold Use.onConsole
      dsimp only
      cases e.console.print v <;> rfl
    rw [hemit]
    exact ⟨fun _ => rfl, fun _ => hconsole, fun _ _ _ => rfl⟩
  | some tx =>
    -- again it is only the reply that the engine goes by
    have hheeds (h : Hub) : e.emit h origin v = (match Use.reply h (.send tx v) with
        | .accepted => e.complete
        | _ => e.fail origin .outputClosed, Use.onHub h (.send tx v)) := by
      unfold emit Use.reply Use.onHub
      rw [hout]
      dsimp only
      cases h.send tx v <;> rfl
    refine ⟨fun h => congrArg Prod.snd (hheeds h), fun h => ?_, fun h h' hreply => ?_⟩
    · rw [hheeds]
      dsimp only
      split <;> rfl
    · rw [hheeds, hheeds, hreply (.send tx v) (List.mem_singleton_self _)]

theorem through_meet (e : Engine) (origin : Int) (d : Demand) :
    Through (e.demandUses d) e.console fun h => e.meet h origin d := by
  cases d with
  | nothing | halt => exact through_nothing rfl
  | input mode => exact through_obtain e origin mode
  | output v => exact through_emit e origin v

theorem through_attempt (e : Engine) : Through e.attemptUses e.console e.attempt := by
  obtain ⟨hports, hconsole⟩ := surroundings_alone e
  have hattempt := funext (attempt_eq e)
  unfold attemptUses
  rw [hattempt]
  rcases halone : e.alone with ⟨f | d, mid⟩
  · rw [halone] at hconsole
    exact through_nothing hconsole
  · rw [halone] at hports hconsole
    -- the demand is met by an engine that still has the ends of the one before
    have huses : e.demandUses d = mid.demandUses d := by
      unfold demandUses
      rw [show mid.input = e.input from congrArg (·.2.1) hports,
        show mid.output = e.output from congrArg (·.2.2) hports]
    dsimp only at hconsole ⊢
    rw [huses, ← hconsole]
    exact through_meet mid e.machine.pc d

/-- **What comes of a step is a matter of what it uses.** -/
theorem through_step (e : Engine) : Through e.stepUses e.console e.step := by
  unfold stepUses
  cases hstatus : e.status with
  | halted | faulted =>
    have hended : e.isRunning = false := by
      rw [isRunning_eq_false_iff, hstatus]
      exact nofun
    rw [show e.step = fun h => (e, h) from funext fun h => step_of_ended hended]
    exact through_nothing rfl
  | running =>
    cases hreq : e.request with
    | some r =>
      rw [show e.step = fun h => e.receive h r from funext (step_eq_receive hstatus hreq)]
      exact through_receive e r
    | none =>
      rw [show e.step = e.attempt from funext (step_eq_attempt hstatus hreq)]
      exact through_attempt e

/-! ### Calls -/

/-- A call does to the channels and the console what it uses them for, and nothing else; and the
    engine learns what the ends it uses reply, and nothing else. -/
structure Confined (e : Engine) (c : Call) : Prop where
  hub : ∀ h, (e.perform h c).2.2 = (e.uses c).foldl Use.onHub h
  console : ∀ h, (e.perform h c).2.1.console = (e.uses c).foldl Use.onConsole e.console
  blind : ∀ h h', (∀ u ∈ e.uses c, u.reply h' = u.reply h) →
    (e.perform h' c).1 = (e.perform h c).1 ∧ (e.perform h' c).2.1 = (e.perform h c).2.1

/-- Nothing is used by a call about the memory or the ends of the engine. -/
theorem confined_of_no_use {e : Engine} {c : Call} (huses : e.uses c = [])
    (hdrives : c.drives = false)
    (hblind : ∀ h h', e.perform h' c = ((e.perform h c).1, (e.perform h c).2.1, h')) :
    Confined e c where
  hub h := by
    rw [huses, hblind h h]
    rfl
  console h := by
    rw [huses]
    rcases perform_of_not_drives e h hdrives with ⟨memory, hnext⟩ | ⟨input, output, hnext⟩
    · rw [hnext]
      rfl
    · rw [hnext]
      rfl
  blind h h' _ := by
    rw [hblind h h']
    exact ⟨rfl, rfl⟩

theorem confined_cloneOutput (e : Engine) : Confined e .cloneOutput := by
  have huses : e.uses .cloneOutput = (e.output.map .copy).toList := rfl
  cases hout : e.output with
  | none =>
    rw [hout] at huses
    refine confined_of_no_use huses rfl fun h h' => ?_
    unfold perform cloneOutput
    rw [hout]
    rfl
  | some tx =>
    have hclone (h : Hub) : e.cloneOutput h = (h.clone tx).map some := by
      unfold cloneOutput
      rw [hout]
    rw [hout] at huses
    refine ⟨fun h => ?_, fun h => ?_, fun h h' hreply => ?_⟩
    · show afterCloning h (e.cloneOutput h) = _
      rw [huses, hclone]
      show _ = Use.onHub h (.copy tx)
      unfold Use.onHub
      dsimp only
      cases h.clone tx <;> rfl
    · rw [huses]
      rfl
    · rw [huses] at hreply
      have hreply := hreply _ (List.mem_singleton_self _)
      have hcopied : (h'.clone tx).map Prod.fst = (h.clone tx).map Prod.fst :=
        Reply.copied.inj hreply
      have hanswer (h : Hub) :
          (e.cloneOutput h).map (·.map Prod.fst) = ((h.clone tx).map Prod.fst).map some := by
        rw [hclone]
        cases h.clone tx <;> rfl
      refine ⟨?_, rfl⟩
      show Answer.sender ((e.cloneOutput h').map _) = Answer.sender ((e.cloneOutput h).map _)
      rw [hanswer, hanswer, hcopied]

theorem confined_close (e : Engine) : Confined e .close := by
  have huses : e.uses .close =
      (e.input.map .closeReceiver).toList ++ (e.output.map .closeSender).toList := rfl
  refine ⟨fun h => ?_, fun h => ?_, fun _ _ _ => ⟨rfl, rfl⟩⟩
  · show e.close h = _
    rw [huses]
    unfold close
    cases e.input <;> cases e.output <;> rfl
  · show e.console = _
    rw [huses]
    cases e.input <;> cases e.output <;> rfl

/-- **Every single call is confined** to what it uses. -/
theorem confined (e : Engine) {c : Call} (hsingle : ∀ fuel, c ≠ .run fuel) : Confined e c := by
  cases c with
  | step =>
    have hthrough := through_step e
    refine ⟨hthrough.hub, hthrough.console, fun h h' hreply => ?_⟩
    have hnext := hthrough.blind h h' hreply
    exact ⟨congrArg report hnext, hnext⟩
  | run fuel => exact absurd rfl (hsingle fuel)
  | cloneOutput => exact confined_cloneOutput e
  | close => exact confined_close e
  | _ => exact confined_of_no_use rfl rfl fun _ _ => rfl

end Intcode.Engine
