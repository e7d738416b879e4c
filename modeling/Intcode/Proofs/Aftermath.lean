import Intcode.Proofs.Exchange
import Intcode.Proofs.Refinement

namespace Intcode

open Reference

/-!
# What a fault leaves behind

An instruction has its effect after everything in it has been looked at, so one that stops at a
fault has had none: every cell, the relative base, the number of instructions and all outputs are as
they were.  What can be told from the engine is how many words of the instruction have been consumed,
and what is gone from the input is at most the value that was to be stored.

* `Reference.Within`            — the words consumed when an instruction stops
* `Engine.StopsBy`              — the ways an instruction can stop, and the channels after it
* `Engine.Undone`               — what is left of the engine
* `Engine.undone_of_raised`     — every step that raises a fault leaves that
-/

namespace Reference

variable {β γ : Type} {c : Config} {low high : Nat}

/-! ### Words consumed -/

/-- If this stops, then after so many words of the instruction. -/
def Within (low high : Nat) (spec : Except Stop β) : Prop :=
  ∀ s, spec = .error s → low ≤ s.words ∧ s.words ≤ high

theorem within_ok (x : β) : Within low high (.ok x) := nofun

theorem within_error {s : Stop} (hlow : low ≤ s.words) (hhigh : s.words ≤ high) :
    Within low high (.error s : Except Stop β) := by
  rintro _ ⟨⟩
  exact ⟨hlow, hhigh⟩

/-- One after the other. -/
theorem Within.bind {spec : Except Stop β} {f : β → Except Stop γ} (hspec : Within low high spec)
    (hf : ∀ x, Within low high (f x)) : Within low high (spec >>= f) := by
  cases spec with
  | error s => exact within_error (hspec s rfl).1 (hspec s rfl).2
  | ok x => exact hf x

theorem Within.map {spec : Except Stop β} (hspec : Within low high spec) (f : β → γ) :
    Within low high (spec.map f) := by
  cases spec with
  | error s => exact within_error (hspec s rfl).1 (hspec s rfl).2
  | ok x => exact within_ok (f x)

theorem Within.mono {spec : Except Stop β} {low' high' : Nat} (hspec : Within low high spec)
    (hlow : low' ≤ low) (hhigh : high ≤ high') : Within low' high' spec :=
  fun s hs => ⟨Nat.le_trans hlow (hspec s hs).1, Nat.le_trans (hspec s hs).2 hhigh⟩

theorem within_cell (k : Nat) (v : Int) : Within k k (cell k v) := by
  unfold cell
  split
  · exact within_ok _
  · split
    · exact within_error (Nat.le_refl k) (Nat.le_refl k)
    · exact within_error (Nat.le_refl k) (Nat.le_refl k)

theorem within_word (c : Config) (k : Nat) : Within k k (word c k) := (within_cell k _).map _

theorem within_target (c : Config) (k : Nat) (origin : Int) :
    Within k (k + 1) (target c k origin) :=
  ((within_word c k).mono (Nat.le_refl k) (Nat.le_succ k)).bind fun _ =>
    (within_cell (k + 1) _).mono (Nat.le_succ k) (Nat.le_refl _)

/-- A parameter stops before its word has been consumed, or after that. -/
theorem within_operand (c : Config) (k : Nat) (digit : Int) :
    Within k (k + 1) (operand c k digit) := by
  unfold operand
  split
  · exact (within_target c k 0).map _
  · exact (within_word c k).mono (Nat.le_refl k) (Nat.le_succ k)
  · exact (within_target c k c.base).map _
  · exact within_error (Nat.le_refl k) (Nat.le_succ k)

theorem within_destination (c : Config) (k : Nat) (digit : Int) :
    Within k (k + 1) (destination c k digit) := by
  unfold destination
  split
  · exact within_target c k 0
  · exact within_target c k c.base
  · exact within_error (Nat.le_refl k) (Nat.le_succ k)

theorem within_combine (c : Config) (i : Instruction) (f : Int → Int → Int) :
    Within 1 4 (combine c i f) := by
  refine ((within_operand c 1 i.mode1).mono (by omega) (by omega)).bind fun x => ?_
  refine ((within_operand c 2 i.mode2).mono (by omega) (by omega)).bind fun y => ?_
  refine ((within_destination c 3 i.mode3).mono (by omega) (by omega)).bind fun d => ?_
  exact within_ok _

theorem within_branch (c : Config) (i : Instruction) (taken : Int → Bool) :
    Within 1 3 (branch c i taken) := by
  refine ((within_operand c 1 i.mode1).mono (by omega) (by omega)).bind fun x => ?_
  refine ((within_operand c 2 i.mode2).mono (by omega) (by omega)).bind fun pc => ?_
  split
  · exact ((within_cell 3 pc).mono (by omega) (by omega)).bind fun _ => within_ok _
  · exact within_ok _

/-- An instruction stops between its opcode word and the word of its last parameter. -/
theorem within_effect (c : Config) (next : Option Int) (listening : Bool) (i : Instruction) :
    Within 1 (1 + i.opcode.arity) (effect c next listening i) := by
  unfold effect change
  cases i.opcode with
  | add | multiply | lessThan | equal => exact (within_combine c i _).map _
  | jumpIfTrue | jumpIfFalse => exact (within_branch c i _).map _
  | halt => exact within_ok _
  | input =>
    cases next with
    | none => exact within_error (by decide) (by decide)
    | some v => exact (within_destination c 1 i.mode1).bind fun _ => within_ok _
  | output =>
    refine (within_operand c 1 i.mode1).bind fun v => ?_
    split
    · exact within_ok _
    · exact within_error (by decide) (by decide)
  | adjustBase =>
    refine Within.map (Within.bind (within_operand c 1 i.mode1) fun offset => ?_) _
    exact ((within_cell 2 _).mono (by omega) (Nat.le_refl _)).bind fun _ => within_ok _

/-- Before an instruction is decoded no word of it counts as consumed. -/
theorem within_fetch (c : Config) : Within 0 0 (fetch c) := by
  refine (within_word c 0).bind fun w => ?_
  split
  · exact within_ok _
  · exact within_error (Nat.le_refl 0) (Nat.le_refl 0)

/-- What stops after words within bounds, by the number of parameter words. -/
theorem Within.exists_fetched {spec : Except Stop β} {arity : Nat} {s : Stop}
    (hspec : Within 1 (1 + arity) spec) (hs : spec = .error s) :
    ∃ fetched ≤ arity, s = ⟨1 + fetched, s.cause⟩ := by
  obtain ⟨words, cause⟩ := s
  obtain ⟨hlow, hhigh⟩ := hspec _ hs
  dsimp only at hlow hhigh
  refine ⟨words - 1, by omega, ?_⟩
  rw [show 1 + (words - 1) = words by omega]

end Reference

/-- Asking for a value prints nothing. -/
theorem Console.outputs_read (c : Console) : c.read.2.outputs = c.outputs := by
  unfold Console.read
  dsimp only
  split
  · rfl
  · split <;> rfl

namespace Engine

variable {e e' : Engine} {h : Hub} {f : Fault} {i : Instruction} {r : Request}

/-- Somebody takes the output: who receives from its channel, or the console. -/
def isHeard (e : Engine) (h : Hub) : Bool :=
  match e.output with
  | some tx => h.listens tx
  | none => true

/-- The ways the instruction of an engine can stop at a fault, with the words of it that have been
    consumed by then and the channels after it. -/
inductive StopsBy (e : Engine) (h : Hub) : Fault → Nat → Hub → Prop where
  /-- The opcode word cannot be fetched, or it does not decode. -/
  | fetching {f : Fault} (hfetch : fetch e.machine.config = .error ⟨0, f⟩) : StopsBy e h f 0 h
  /-- An instruction that asks for no input stops when so many of its parameter words have been
      fetched. -/
  | executing {i : Instruction} {f : Fault} {fetched : Nat}
      (hfetch : fetch e.machine.config = .ok i) (hop : i.opcode ≠ .input)
      (hle : fetched ≤ i.opcode.arity)
      (hstop : effect e.machine.config none (e.isHeard h) i = .error ⟨1 + fetched, f⟩) :
    StopsBy e h f (1 + fetched) h
  /-- An input instruction finds no value in its channel, and none will come. -/
  | wanting {i : Instruction} {rx : ReceiverRef} (hfetch : fetch e.machine.config = .ok i)
      (hop : i.opcode = .input) (hin : e.input = some rx)
      (hclosed : (h.channel rx.channel).receiverOpen = false ∨
        h.content rx.channel = [] ∧ (h.channel rx.channel).senders = 0) :
    StopsBy e h .inputClosed 1 h
  /-- What is typed in for an input instruction is no value. -/
  | mistyped {i : Instruction} {f : Fault} (hfetch : fetch e.machine.config = .ok i)
      (hop : i.opcode = .input) (hin : e.input = none)
      (hread : e.console.read.1 = .error f) : StopsBy e h f 1 h
  /-- A value has been typed in, and its destination is refused. -/
  | typed {i : Instruction} {f : Fault} {v : Int} {fetched : Nat}
      (hfetch : fetch e.machine.config = .ok i) (hop : i.opcode = .input) (hin : e.input = none)
      (hread : e.console.read.1 = .ok v) (hle : fetched ≤ i.opcode.arity)
      (hstop : destination e.machine.config 1 i.mode1 = .error ⟨1 + fetched, f⟩) :
    StopsBy e h f (1 + fetched) h
  /-- One value has been taken from the channel, and its destination is refused. -/
  | taken {i : Instruction} {f : Fault} {rx : ReceiverRef} {v : Int} {buffer : Fifo Int}
      {fetched : Nat} (hfetch : fetch e.machine.config = .ok i) (hop : i.opcode = .input)
      (hin : e.input = some rx) (hopen : (h.channel rx.channel).receiverOpen = true)
      (hcontent : h.content rx.channel = v :: buffer.toList) (hle : fetched ≤ i.opcode.arity)
      (hstop : destination e.machine.config 1 i.mode1 = .error ⟨1 + fetched, f⟩) :
    StopsBy e h f (1 + fetched) (h.refill rx.channel buffer)
  /-- The value that is to be printed has too many digits. -/
  | unprinted {i : Instruction} {v : Int} (hfetch : fetch e.machine.config = .ok i)
      (hop : i.opcode = .output) (hout : e.output = none)
      (hoperand : operand e.machine.config 1 i.mode1 = .ok v)
      (hlong : Decimal.isWritable v = false) : StopsBy e h (.overlong .written) (1 + 1) h

/-- What is left when the instruction of an engine has stopped at a fault: the fault is recorded,
    nothing that a program could see has changed, and nothing has been emitted. -/
structure Undone (e : Engine) (h : Hub) (f : Fault) (after : Engine × Hub) : Prop where
  status : after.1.status = .faulted f e.machine.pc
  cells : ∀ n, after.1.machine.memory.lookup n = e.machine.memory.lookup n
  base : after.1.machine.base = e.machine.base
  steps : after.1.machine.steps = e.machine.steps
  printed : after.1.console.outputs = e.console.outputs
  stops : ∃ words, StopsBy e h f words after.2 ∧ after.1.machine.pc = e.machine.pc + words

/-! ### Faults that are raised -/

/-- A fault that is raised has been recorded. -/
theorem verdict_eq_error_iff : e.verdict = .error f ↔ ∃ origin, e.status = .faulted f origin := by
  unfold verdict
  cases e.status <;> simp

/-- An instruction that is completed raises nothing. -/
theorem verdict_of_completed {c : Config} {taken : Bool} {eff : Effect}
    (hleaves : (completed c taken i eff).Leaves e e') : e'.verdict ≠ .error f := by
  intro hraised
  obtain ⟨origin, hstatus⟩ := verdict_eq_error_iff.1 hraised
  have hdone : e'.status = eff.status := hleaves.status
  rw [hdone] at hstatus
  cases eff <;> cases hstatus

/-- An engine that runs raises nothing. -/
theorem verdict_of_running (hrun : e.status = .running) : e.verdict ≠ .error f := by
  intro hraised
  obtain ⟨origin, hstatus⟩ := verdict_eq_error_iff.1 hraised
  rw [hrun] at hstatus
  cases hstatus

/-- An instruction that stops leaves nothing but its words consumed. -/
theorem undone_of_stopped {after : Engine × Hub} {taken : Bool} {s : Stop}
    (hleaves : (stopped e.machine.config taken s).Leaves e after.1)
    (hraised : after.1.verdict = .error f)
    (hprinted : after.1.console.outputs = e.console.outputs)
    (hstops : StopsBy e h s.cause s.words after.2) : Undone e h f after := by
  have hstatus : after.1.status = .faulted s.cause e.machine.pc := hleaves.status
  obtain ⟨origin, hfault⟩ := verdict_eq_error_iff.1 hraised
  rw [hstatus] at hfault
  cases hfault
  constructor
  · exact hstatus
  · intro n
    exact congrFun (congrArg Config.cells hleaves.config) n
  · exact congrArg Config.base hleaves.config
  · exact hleaves.steps
  · exact hprinted
  · exact ⟨s.words, hstops, congrArg Config.pc hleaves.config⟩

/-! ### Instructions one by one -/

/-- An input instruction with its value, if the destination is refused. -/
theorem undone_accept {v : Int} {h' : Hub} (hmid : Midway e e' e.machine.config 1)
    (hop : i.opcode = .input) (hprinted : e'.console.outputs = e.console.outputs)
    (hstops : ∀ s, destination e.machine.config 1 i.mode1 = .error s →
      StopsBy e h s.cause s.words h')
    (hraised : (e'.accept e.machine.pc i.mode1 v).verdict = .error f) :
    Undone e h f (e'.accept e.machine.pc i.mode1 v, h') := by
  have hleaves := hmid.leaves_accept hop v
  cases hd : destination e.machine.config 1 i.mode1 with
  | error s =>
    rw [hd] at hleaves
    refine undone_of_stopped hleaves hraised ?_ (hstops s hd)
    rw [console_accept]
    exact hprinted
  | ok d =>
    rw [hd] at hleaves
    exact absurd hraised (verdict_of_completed hleaves)

/-- The destination of an input instruction is its only parameter. -/
theorem exists_fetched_input (hop : i.opcode = .input) {c : Config} {s : Stop}
    (hs : destination c 1 i.mode1 = .error s) :
    ∃ fetched ≤ i.opcode.arity, s = ⟨1 + fetched, s.cause⟩ := by
  have harity : i.opcode.arity = 1 := by rw [hop]; rfl
  rw [harity]
  exact (within_destination c 1 i.mode1).exists_fetched hs

/-- An input instruction whose value is typed in. -/
theorem undone_typed (hmid : Midway e e' e.machine.config 1) (hconsole : e'.console = e.console)
    (hfetch : fetch e.machine.config = .ok i) (hop : i.opcode = .input) (hin : e.input = none)
    (hraised : (e'.typed e.machine.pc i.mode1 e'.console.read).verdict = .error f) :
    Undone e h f (e'.typed e.machine.pc i.mode1 e'.console.read, h) := by
  have hprinted := Console.outputs_read e.console
  rw [hconsole] at hraised ⊢
  rcases hread : e.console.read with ⟨cause | v, console⟩
  · rw [hread] at hraised hprinted
    have hmid' : Midway e { e' with console } e.machine.config 1 :=
      ⟨hmid.config, hmid.steps, hmid.ports, hmid.running⟩
    exact undone_of_stopped (s := ⟨1, cause⟩)
      (hmid'.leaves_fail (m := e'.machine) ⟨hmid.config, rfl⟩ false) hraised hprinted
      (.mistyped hfetch hop hin (congrArg Prod.fst hread))
  · rw [hread] at hraised hprinted
    have hmid' : Midway e { e' with console } e.machine.config 1 :=
      ⟨hmid.config, hmid.steps, hmid.ports, hmid.running⟩
    refine undone_accept hmid' hop hprinted (fun s hs => ?_) hraised
    obtain ⟨fetched, hle, hwords⟩ := exists_fetched_input hop hs
    rw [hwords] at hs ⊢
    exact .typed hfetch hop hin (congrArg Prod.fst hread) hle hs

/-- An input instruction whose value is received, by an engine that is suspended until then. -/
theorem undone_received {rx : ReceiverRef}
    (hresumed : Midway e { e' with request := none } e.machine.config 1)
    (hconsole : e'.console = e.console) (hfetch : fetch e.machine.config = .ok i)
    (hop : i.opcode = .input) (hin : e.input = some rx)
    (hraised : (e'.receive h ⟨i.mode1, rx, e.machine.pc⟩).1.verdict = .error f) :
    Undone e h f (e'.receive h ⟨i.mode1, rx, e.machine.pc⟩) := by
  have hprinted : e'.console.outputs = e.console.outputs := congrArg Console.outputs hconsole
  unfold receive at hraised ⊢
  dsimp only at hraised ⊢
  rcases h.recv_cases rx with
    ⟨v, buffer, hopen, hcontent, hrecv⟩ | ⟨_, hclosed, hrecv⟩ | ⟨_, _, _, hrecv⟩
  · rw [hrecv] at hraised ⊢
    refine undone_accept hresumed hop hprinted (fun s hs => ?_) hraised
    obtain ⟨fetched, hle, hwords⟩ := exists_fetched_input hop hs
    rw [hwords] at hs ⊢
    exact .taken hfetch hop hin hopen hcontent hle hs
  · rw [hrecv] at hraised ⊢
    exact undone_of_stopped (s := ⟨1, .inputClosed⟩)
      (hresumed.leaves_fail (m := e'.machine) ⟨hresumed.config, rfl⟩ false) hraised hprinted
      (.wanting hfetch hop hin hclosed)
  · -- an engine that waits goes on running
    rw [hrecv] at hraised
    exact absurd hraised (verdict_of_running hresumed.running)

/-- An output instruction, once its operand is resolved. -/
theorem undone_output {v : Int} (hmid : Midway e e' e.machine.config 2)
    (hconsole : e'.console = e.console) (hreq : e.request = none)
    (hfetch : fetch e.machine.config = .ok i) (hop : i.opcode = .output)
    (hoperand : operand e.machine.config 1 i.mode1 = .ok v) {e₀ : Engine}
    (hraised : ((e'.say e.machine.pc v e'.output).settle h e₀).1.verdict = .error f) :
    Undone e h f ((e'.say e.machine.pc v e'.output).settle h e₀) := by
  have hout' : e'.output = e.output := congrArg (·.2.2) hmid.ports
  have hreq' : e'.request = none := (congrArg Prod.fst hmid.ports).trans hreq
  cases hout : e'.output with
  | none =>
    rw [hout] at hraised
    have hprint : (e'.say e.machine.pc v none).settle h e₀ =
        (e'.printed e.machine.pc (e'.console.print v), h) :=
      Move.settle_act_of_ports hreq' (ports_printed _ _ _)
    rw [hprint] at hraised ⊢
    unfold Console.print at hraised ⊢
    cases hwritable : Decimal.isWritable v with
    | true =>
      -- what is printed needs nobody to take it
      rw [hwritable] at hraised
      exact absurd hraised (verdict_of_running hmid.running)
    | false =>
      rw [hwritable] at hraised
      exact undone_of_stopped (s := ⟨1 + 1, .overlong .written⟩)
        (hmid.leaves_fail (m := e'.machine) ⟨hmid.config, rfl⟩ false) hraised
        (congrArg Console.outputs hconsole)
        (.unprinted hfetch hop (hout'.symm.trans hout) hoperand hwritable)
  | some tx =>
    rw [hout] at hraised
    change (e'.emit h e.machine.pc v).1.verdict = _ at hraised
    show Undone e h f (e'.emit h e.machine.pc v)
    unfold emit at hraised ⊢
    rw [hout] at hraised ⊢
    dsimp only at hraised ⊢
    rcases h.send_cases tx v with ⟨_, _, hsend⟩ | ⟨hdeaf, _, hsend⟩
    · rw [hsend] at hraised
      exact absurd hraised (verdict_of_running hmid.running)
    · rw [hsend] at hraised ⊢
      have hheard : e.isHeard h = false := by
        unfold isHeard
        rw [← hout', hout]
        exact hdeaf
      have hstop : effect e.machine.config none (e.isHeard h) i =
          .error ⟨1 + 1, .outputClosed⟩ := by
        unfold effect
        rw [hop, hoperand, hheard]
        rfl
      exact undone_of_stopped (s := ⟨1 + 1, .outputClosed⟩)
        (hmid.leaves_fail (m := e'.machine) ⟨hmid.config, rfl⟩ false) hraised
        (congrArg Console.outputs hconsole)
        (.executing hfetch (by rw [hop]; nofun) (by rw [hop]; decide) hstop)

/-- What an instruction that asks for no input stops by. -/
theorem stopsBy_executing {s : Stop} (hfetch : fetch e.machine.config = .ok i)
    (hop : i.opcode ≠ .input)
    (hstop : effect e.machine.config none (e.isHeard h) i = .error s) :
    StopsBy e h s.cause s.words h := by
  obtain ⟨fetched, hle, hwords⟩ := (within_effect _ none (e.isHeard h) i).exists_fetched hstop
  rw [hwords] at hstop ⊢
  exact .executing hfetch hop hle hstop

/-- An instruction that stops before it asks for anything. -/
theorem undone_stopped {words : Nat} {s : Stop} {m : Machine}
    (hmid : Midway e e' e.machine.config words) (hreq : e.request = none)
    (hconsole : e'.console = e.console)
    (hm : m.config = e.machine.config.after s.words ∧ m.steps = e'.machine.steps)
    (hstops : StopsBy e h s.cause s.words h) {e₀ : Engine}
    (hraised : ((Move.act ({ e' with machine := m }.fail e.machine.pc s.cause)).settle h
      e₀).1.verdict = .error f) :
    Undone e h f ((Move.act ({ e' with machine := m }.fail e.machine.pc s.cause)).settle h e₀) := by
  have hleaves : (stopped e.machine.config false s).Leaves e
      ({ e' with machine := m }.fail e.machine.pc s.cause) := hmid.leaves_fail hm false
  rw [Move.settle_act_of_ports hreq hleaves.ports] at hraised ⊢
  exact undone_of_stopped hleaves hraised (congrArg Console.outputs hconsole) hstops

/-- An input instruction. -/
theorem undone_input (hmid : Midway e e' e.machine.config 1) (hreq : e.request = none)
    (hconsole : e'.console = e.console) (hfetch : fetch e.machine.config = .ok i)
    (hop : i.opcode = .input) {e₀ : Engine}
    (hraised : ((e'.ask e.machine.pc i.mode1 e.input).settle h e₀).1.verdict = .error f) :
    Undone e h f ((e'.ask e.machine.pc i.mode1 e.input).settle h e₀) := by
  have hreq' : e'.request = none := (congrArg Prod.fst hmid.ports).trans hreq
  cases hin : e.input with
  | none =>
    rw [hin] at hraised
    have hsettle : (e'.ask e.machine.pc i.mode1 none).settle h e₀ =
        (e'.typed e.machine.pc i.mode1 e'.console.read, h) :=
      Move.settle_act_of_ports hreq' (ports_typed e' _ _ _)
    rw [hsettle] at hraised ⊢
    exact undone_typed hmid hconsole hfetch hop hin hraised
  | some rx =>
    rw [hin] at hraised
    let suspended : Engine := { e' with request := some ⟨i.mode1, rx, e.machine.pc⟩ }
    have hresumed : Midway e { suspended with request := none } e.machine.config 1 := by
      refine ⟨hmid.config, hmid.steps, ?_, hmid.running⟩
      rw [← hmid.ports]
      unfold Engine.ports
      rw [hreq']
    exact undone_received hresumed hconsole hfetch hop hin hraised

/-- A decoded instruction. -/
theorem undone_carryOn (hmid : Midway e e' e.machine.config 1) (hreq : e.request = none)
    (hconsole : e'.console = e.console) (hfetch : fetch e.machine.config = .ok i) {e₀ : Engine}
    (hraised : ((carryOn e.machine.pc (e'.act (Exec.execute i))).settle h e₀).1.verdict =
      .error f) :
    Undone e h f ((carryOn e.machine.pc (e'.act (Exec.execute i))).settle h e₀) := by
  have hreq' : e'.request = none := (congrArg Prod.fst hmid.ports).trans hreq
  have hin' : e'.input = e.input := congrArg (·.2.1) hmid.ports
  rw [act_eq] at hraised ⊢
  by_cases hinput : i.opcode = .input
  · rw [Exec.execute_input hinput] at hraised ⊢
    change ((e'.ask e.machine.pc i.mode1 e'.input).settle h e₀).1.verdict = _ at hraised
    show Undone e h f ((e'.ask e.machine.pc i.mode1 e'.input).settle h e₀)
    rw [hin'] at hraised ⊢
    exact undone_input hmid hreq hconsole hfetch hinput hraised
  by_cases houtput : i.opcode = .output
  · have hrun := Exec.output_yields houtput e'.machine hmid.config
    cases hoperand : operand e.machine.config 1 i.mode1 with
    | error s =>
      rw [hoperand] at hrun
      obtain ⟨m, hrun, hm⟩ := hrun
      rw [hrun] at hraised ⊢
      have hstop : effect e.machine.config none (e.isHeard h) i = .error s := by
        unfold effect
        rw [houtput, hoperand]
        rfl
      exact undone_stopped hmid hreq hconsole hm (stopsBy_executing hfetch hinput hstop) hraised
    | ok v =>
      rw [hoperand] at hrun
      obtain ⟨m, hrun, hconfig, hsteps⟩ := hrun
      rw [hrun] at hraised ⊢
      have hmid₂ : Midway e { e' with machine := m } e.machine.config 2 :=
        ⟨hconfig, hsteps.trans hmid.steps, hmid.ports, hmid.running⟩
      exact undone_output hmid₂ hconsole hreq hfetch houtput hoperand hraised
  by_cases hhalt : i.opcode = .halt
  · rw [Exec.execute_halt hhalt] at hraised
    have hsettle : (carryOn e.machine.pc (.ok .halt, e')).settle h e₀ =
        ({ e' with status := .halted }.complete, h) :=
      Move.settle_act_of_ports hreq' (ports_complete _)
    change ((carryOn e.machine.pc (.ok .halt, e')).settle h e₀).1.verdict = _ at hraised
    rw [hsettle] at hraised
    cases hraised
  · have hrun := Exec.execute_yields i hinput houtput hhalt e'.machine hmid.config
    have heffect := effect_change (c := e.machine.config) hinput houtput hhalt none (e.isHeard h)
    cases hchange : change e.machine.config i with
    | error s =>
      rw [hchange] at hrun heffect
      obtain ⟨m, hrun, hm⟩ := hrun
      rw [hrun] at hraised ⊢
      exact undone_stopped hmid hreq hconsole hm (stopsBy_executing hfetch hinput heffect) hraised
    | ok ch =>
      rw [hchange] at hrun
      obtain ⟨m, hrun, hm⟩ := hrun
      rw [hrun] at hraised
      have hsettle : (carryOn e.machine.pc (.ok .nothing, { e' with machine := m })).settle h e₀ =
          ({ e' with machine := m }.complete, h) :=
        Move.settle_act_of_ports hreq' (ports_complete _)
      rw [hsettle] at hraised
      exact absurd hraised (verdict_of_running hmid.running)

/-! ### The step -/

/-- A step of an engine that begins with its next instruction. -/
theorem undone_step (hrun : e.status = .running) (hreq : e.request = none)
    (hraised : (e.step h).1.verdict = .error f) : Undone e h f (e.step h) := by
  -- no word of the instruction has been consumed yet
  have hstart : e.machine.config = e.machine.config.after 0 := (Config.after_zero _).symm
  have hdecode := Exec.decode_yields (c := e.machine.config) e.machine hstart
  rw [step_eq, move_of_running hrun hreq, act_eq] at hraised ⊢
  cases hfetch : Reference.fetch e.machine.config with
  | error s =>
    rw [hfetch] at hdecode
    obtain ⟨m, hdecode, hconfig, hsteps⟩ := hdecode
    dsimp only at hraised ⊢
    rw [hdecode] at hraised ⊢
    obtain ⟨words, cause⟩ := s
    obtain rfl : words = 0 := Nat.le_zero.1 (within_fetch _ _ hfetch).2
    have hmid : Midway e { e with started := true } e.machine.config 0 := ⟨hstart, rfl, rfl, hrun⟩
    exact undone_stopped hmid hreq rfl ⟨hconfig, hsteps⟩ (.fetching hfetch) hraised
  | ok i =>
    rw [hfetch] at hdecode
    obtain ⟨m, hdecode, hconfig, hsteps⟩ := hdecode
    dsimp only at hraised ⊢
    rw [hdecode] at hraised ⊢
    -- recording the instruction changes neither the machine nor the ends
    have hmid : Midway e ({ e with started := true, machine := m }.record e.machine.pc i)
        e.machine.config 1 := by
      refine ⟨?_, ?_, ?_, ?_⟩
      · rw [machine_record]
        exact hconfig
      · rw [machine_record]
        exact hsteps
      · rw [ports_record]
        rfl
      · rw [status_record]
        exact hrun
    exact undone_carryOn hmid hreq (console_record _ _ _) hfetch hraised

/-- **An instruction that stops at a fault has had no effect.**  Its step may begin with the
    instruction, or go on with an input instruction that the engine has been suspended in. -/
theorem undone_of_raised (e e' : Engine) (h : Hub) (f : Fault) (hrun : e.status = .running)
    (hreq : e.request = none) (hbegun : e' = e ∨ ∃ r, Awaiting e r e')
    (hraised : (e'.step h).1.verdict = .error f) : Undone e h f (e'.step h) := by
  have hsame : e'.step h = e.step h := by
    rcases hbegun with rfl | ⟨r, hask⟩
    · rfl
    · exact hask.step_suspended
  rw [hsame] at hraised ⊢
  exact undone_step hrun hreq hraised

/-- An input instruction whose destination is refused, suspended until its value is there. -/
theorem undone_of_raised_of_refused :
    Undone ((ofCells [203, -1] false {}).wired ⟨0⟩ ⟨1, 0⟩) ⟨#[.sealed [7], {}]⟩
        (.outOfBounds (.int (-1)))
        ((((ofCells [203, -1] false {}).wired ⟨0⟩ ⟨1, 0⟩).step ⟨#[{}, {}]⟩).1.step
          ⟨#[.sealed [7], {}]⟩) ∧
      ((((ofCells [203, -1] false {}).wired ⟨0⟩ ⟨1, 0⟩).step ⟨#[{}, {}]⟩).1.step
          ⟨#[.sealed [7], {}]⟩).2.content 0 = [] := by
  refine ⟨?_, by decide⟩
  exact undone_of_raised _ _ _ _ rfl rfl (.inr ⟨⟨2, ⟨0⟩, 0⟩, .now rfl rfl⟩) rfl

end Engine

end Intcode
