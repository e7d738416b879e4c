import Intcode.Proofs.Aftermath
import Intcode.Proofs.AtConsole

namespace Intcode

/-!
# Batch runs at the console

A program does the same whether its inputs are given to the batch run or typed in, each on a line of
its own: instruction by instruction the machine is the same, what is printed is the outputs, and the
run ends in the same way, the end of the text taking the place of the closed channel.  But an integer
passes the console as text, so the run at the console stops at the first one with too many digits.

* `Engine.attemptsInput`  — the engine is about to attempt an input instruction
* `Engine.prompts_step`   — there is one prompt for each attempt
* `Batch.prepare_console` — a program is loaded and patched in the same way at any console
* `Batch.Agree`           — a typed run and a queued run that have come to the same
* `Batch.Stopped`         — a typed run that has stopped at a value with too many digits
* `Batch.typed_agrees`    — the two runs agree, until the typed one stops like that
-/

/-- What is left to do is to obtain an input value. -/
def Demand.isInput : Demand → Bool
  | .input _ => true
  | _ => false

/-- The engine runs, and the word at the program counter is an input instruction. -/
def Engine.attemptsInput (e : Engine) : Bool :=
  e.isRunning &&
    match Reference.fetch e.machine.config with
    | .ok i => i.opcode == .input
    | .error _ => false

/-! ### Instructions that ask for a value -/

namespace Exec

variable {α β : Type} {c : Config} {m m' : Machine} {i : Instruction}

/-- The result of an action that does not stop. -/
theorem Yields.of_ok {action : Exec α} {k : Nat} {spec : Except Stop β} {post : β → α × Config}
    {x : α} (hyields : action.Yields c k spec post) (hm : m.config = c.after k)
    (hrun : action m = .ok x m') :
    ∃ b, spec = .ok b ∧ x = (post b).1 ∧ m'.config = (post b).2 := by
  have hpost := hyields m hm
  cases spec with
  | error s =>
    obtain ⟨_, hstop, _⟩ := hpost
    rw [hrun] at hstop
    cases hstop
  | ok b =>
    obtain ⟨_, hdone, hconfig, _⟩ := hpost
    rw [hrun] at hdone
    cases hdone
    exact ⟨b, rfl, rfl, hconfig⟩

/-- The fault of an action that stops. -/
theorem Yields.of_error {action : Exec α} {k : Nat} {spec : Except Stop β} {post : β → α × Config}
    {f : Fault} (hyields : action.Yields c k spec post) (hm : m.config = c.after k)
    (hrun : action m = .error f m') : ∃ s, spec = .error s := by
  have hpost := hyields m hm
  cases spec with
  | error s => exact ⟨s, rfl⟩
  | ok b =>
    obtain ⟨_, hdone, _⟩ := hpost
    rw [hrun] at hdone
    cases hdone

/-- Only input instructions come to ask for a value. -/
theorem isInput_of_execute {d : Demand} (hm : m.config = c.after 1)
    (hrun : execute i m = .ok d m') : d.isInput = (i.opcode == .input) := by
  by_cases hinput : i.opcode = .input
  · rw [execute_input hinput] at hrun
    cases hrun
    rw [hinput]
    rfl
  rw [beq_eq_false_iff_ne.2 hinput]
  by_cases houtput : i.opcode = .output
  · obtain ⟨v, _, rfl, _⟩ := (output_yields houtput).of_ok hm hrun
    rfl
  by_cases hhalt : i.opcode = .halt
  · rw [execute_halt hhalt] at hrun
    cases hrun
    rfl
  · obtain ⟨ch, _, rfl, _⟩ := (execute_yields i hinput houtput hhalt).of_ok hm hrun
    rfl

end Exec

namespace Engine

variable {e e' next : Engine} {i : Instruction} {h : Hub}

/-- What an engine without channels does next, it does on its own. -/
theorem move_of_ports_none (hports : e.ports = (none, none, none)) (hrun : e.isRunning = true) :
    ∃ next, e.move = .act next ∧ next.request = none := by
  have hrespects := respects_move e
  cases hmove : e.move with
  | rest =>
    rw [(move_eq_rest_iff e).1 hmove] at hrun
    cases hrun
  | await r =>
    rw [hmove] at hrespects
    exact absurd ((congrArg Prod.fst hports).symm.trans hrespects) nofun
  | tell tx origin v told =>
    rw [hmove] at hrespects
    exact absurd ((congrArg (·.2.2) hports).symm.trans hrespects.1) nofun
  | act next =>
    rw [hmove] at hrespects
    refine ⟨next, rfl, Option.eq_none_iff_forall_ne_some.2 fun r hr => ?_⟩
    exact absurd ((congrArg (·.2.1) hports).symm.trans (hrespects.2.2 r hr).2) nofun

/-- An engine without channels is not given any by a step. -/
theorem ports_step_of_none (hports : e.ports = (none, none, none)) (h : Hub) :
    (e.step h).1.ports = (none, none, none) := by
  have hreq : e.request = none := congrArg Prod.fst hports
  have hin : e.input = none := congrArg (·.2.1) hports
  have hout : e.output = none := congrArg (·.2.2) hports
  rcases ports_step e h with hsame | ⟨r, hask⟩ | hstep
  · rw [hsame, hports]
  · -- it has nobody to ask
    rcases hask.receiver with hasked | hasks
    · rw [hreq] at hasked
      cases hasked
    · rw [hin] at hasks
      cases hasks
  · rw [hstep, hin, hout]

theorem ports_stepped_of_none (hports : e.ports = (none, none, none)) (h : Hub) (k : Nat) :
    (stepped (e, h) k).1.ports = (none, none, none) := by
  induction k with
  | zero => exact hports
  | succ k ih => exact ports_step_of_none ih _

/-- It is never suspended, so it takes its steps one after another. -/
theorem runFor_eq_of_none (hports : e.ports = (none, none, none)) (h : Hub) (k : Nat) :
    e.runFor k h = stepped (e, h) k := by
  induction k with
  | zero => rfl
  | succ k ih =>
    have hreq : (e.runFor k h).1.request = none := by
      rw [ih]
      exact congrArg Prod.fst (ports_stepped_of_none hports h k)
    rw [runFor_succ k e h hreq, ih]
    rfl

/-! ### Prompts -/

/-- The prompts when an engine is through with a move of its own. -/
def Move.Prompts (n : Nat) : Move → Prop
  | .act next => next.console.prompts = n
  | _ => True

theorem prompts_typed (e : Engine) (origin mode : Int) :
    (e.typed origin mode e.console.read).console.prompts = e.console.prompts + 1 := by
  rw [console_typed, Console.prompts_read]

theorem prompts_printed (e : Engine) (origin v : Int) :
    (e.printed origin (e.console.print v)).console.prompts = e.console.prompts := by
  unfold Console.print
  split
  · exact (congrArg Console.prompts (console_act _ Exec.complete)).trans rfl
  · rfl

/-- What is left to do writes a prompt if it is to obtain a value. -/
theorem prompts_pursue (hin : e.input = none) (hout : e.output = none) (origin : Int)
    (d : Demand) :
    (e.pursue origin d).Prompts (e.console.prompts + if d.isInput then 1 else 0) := by
  cases d with
  | nothing => exact congrArg Console.prompts (console_act e Exec.complete)
  | halt => exact congrArg Console.prompts (console_act { e with status := .halted } Exec.complete)
  | input mode =>
    show (e.ask origin mode e.input).Prompts _
    rw [hin]
    exact prompts_typed e origin mode
  | output v =>
    show (e.say origin v e.output).Prompts _
    rw [hout]
    exact prompts_printed e origin v

/-- Carrying out an instruction writes a prompt if it is an input instruction. -/
theorem prompts_carryOn {c : Config} (hin : e.input = none) (hout : e.output = none)
    (hconfig : e.machine.config = c.after 1) (origin : Int) (i : Instruction) :
    (carryOn origin (e.act (Exec.execute i))).Prompts
      (e.console.prompts + if i.opcode == .input then 1 else 0) := by
  rw [act_eq]
  cases hrun : Exec.execute i e.machine with
  | ok d m =>
    rw [← Exec.isInput_of_execute hconfig hrun]
    exact prompts_pursue (e := { e with machine := m }) hin hout origin d
  | error f m =>
    -- an input instruction does not stop before it has asked
    have hop : (i.opcode == .input) = false := by
      rw [beq_eq_false_iff_ne]
      intro hinput
      rw [Exec.execute_input hinput] at hrun
      cases hrun
    rw [hop]
    rfl

/-- **There is one prompt for each attempt of an input instruction.** -/
theorem prompts_step (hports : e.ports = (none, none, none)) (h : Hub) :
    (e.step h).1.console.prompts = e.console.prompts + if e.attemptsInput then 1 else 0 := by
  cases hrun : e.isRunning with
  | false =>
    rw [step_of_ended hrun, attemptsInput, hrun]
    rfl
  | true =>
    obtain ⟨next, hmove, hreq⟩ := move_of_ports_none hports hrun
    suffices hprompts : e.move.Prompts (e.console.prompts + if e.attemptsInput then 1 else 0) by
      rw [hmove] at hprompts
      rw [step_of_act hmove hreq]
      exact hprompts
    -- no word of the instruction has been consumed yet
    have hstart : e.machine.config = e.machine.config.after 0 := (Config.after_zero _).symm
    have hdecode := Exec.decode_yields (c := e.machine.config)
    rw [move_of_running ((isRunning_iff e).1 hrun) (congrArg Prod.fst hports), act_eq,
      attemptsInput, hrun]
    dsimp only
    cases hact : Exec.decode e.machine with
    | error f m =>
      obtain ⟨s, hfetch⟩ := hdecode.of_error hstart hact
      rw [hfetch]
      rfl
    | ok i m =>
      obtain ⟨_, hfetch, rfl, hconfig⟩ := hdecode.of_ok hstart hact
      rw [hfetch]
      -- recording the instruction changes neither the machine nor the console
      let e₁ : Engine := { e with started := true, machine := m }
      have hports₁ : (e₁.record e.machine.pc i).ports = (none, none, none) :=
        (ports_record e₁ e.machine.pc i).trans hports
      have hconfig₁ : (e₁.record e.machine.pc i).machine.config = e.machine.config.after 1 := by
        rw [machine_record]
        exact hconfig
      have hprompts := prompts_carryOn (congrArg (·.2.1) hports₁) (congrArg (·.2.2) hports₁)
        hconfig₁ e.machine.pc i
      rw [console_record] at hprompts
      exact hprompts

/-! ### Patched engines -/

theorem act_console {α : Type} (e : Engine) (console : Console) (action : Exec α) :
    act { e with console } action = ((e.act action).1, { (e.act action).2 with console }) := by
  rw [act_eq, act_eq]
  dsimp only
  cases action e.machine <;> rfl

/-- Patches are the same whatever the console. -/
theorem patch_console (e : Engine) (console : Console) (patches : List (Int × Int)) :
    patch { e with console } patches =
      (e.patch patches).map fun e' => { e' with console } := by
  induction patches generalizing e with
  | nil => rfl
  | cons p patches ih =>
    obtain ⟨address, v⟩ := p
    unfold patch set
    rw [act_console]
    rcases e.act (Exec.save address v) with ⟨f | x, next⟩
    · rfl
    · exact ih next

/-- Patches change the machine only. -/
theorem patch_eq {patches : List (Int × Int)} (hpatch : e.patch patches = .ok e') :
    e' = { e with machine := e'.machine } := by
  induction patches generalizing e with
  | nil =>
    cases hpatch
    rfl
  | cons p patches ih =>
    obtain ⟨address, v⟩ := p
    have hact := act_snd e (Exec.save address v)
    unfold patch set at hpatch
    rcases hsave : e.act (Exec.save address v) with ⟨f | x, next⟩
    · rw [hsave] at hpatch
      cases hpatch
    · rw [hsave] at hpatch hact
      have hnext : e' = { next with machine := e'.machine } := ih hpatch
      dsimp only at hact
      rw [hnext, hact]

end Engine

namespace Batch

variable {program : Program.Source} {patches : List (Int × Int)} {tracing : Bool}
  {console : Console} {e : Engine}

/-! ### Loading -/

/-- A program is loaded and patched in the same way at any console. -/
theorem prepare_console (program : Program.Source) (patches : List (Int × Int)) (tracing : Bool)
    (console console' : Console) :
    prepare program patches tracing console' =
      (prepare program patches tracing console).map fun e => { e with console := console' } := by
  unfold prepare
  cases program.image with
  | error cause => rfl
  | ok cells =>
    have hpatch := Engine.patch_console (.ofCells cells tracing console) console' patches
    have hcells : Engine.ofCells cells tracing console' =
        { Engine.ofCells cells tracing console with console := console' } := rfl
    dsimp only
    rw [hcells, hpatch]
    cases Engine.patch (.ofCells cells tracing console) patches <;> rfl

/-- An engine that has been loaded and patched is ready to run at its console. -/
theorem prepare_eq (hprepare : prepare program patches tracing console = .ok e) :
    e = { machine := e.machine, tracing, console } := by
  unfold prepare at hprepare
  cases himage : program.image with
  | error cause =>
    rw [himage] at hprepare
    cases hprepare
  | ok cells =>
    rw [himage] at hprepare
    dsimp only at hprepare
    cases hpatch : (Engine.ofCells cells tracing console).patch patches with
    | error f =>
      rw [hpatch] at hprepare
      cases hprepare
    | ok e' =>
      rw [hpatch] at hprepare
      cases hprepare
      exact Engine.patch_eq hpatch

end Batch

/-! ### The two runs -/

namespace Batch

/-- A run at a console and a run on given inputs have come to the same. -/
structure Agree (typed queued : Batch) : Prop where
  /-- The memory and the registers are the same, and as many instructions have been completed. -/
  machine : typed.engine.machine = queued.engine.machine
  /-- The same instructions have been recorded. -/
  trace : typed.engine.trace = queued.engine.trace
  /-- What has been printed is the outputs, each on a line of its own. -/
  printed : typed.engine.console.printed = Decimal.lines queued.outputs
  halted : typed.engine.status = .halted ↔ queued.engine.status = .halted
  /-- A fault that has nothing to do with the input is met at the same instruction. -/
  faulted : ∀ cause origin, cause.isInput = false →
    (typed.engine.status = .faulted cause origin ↔ queued.engine.status = .faulted cause origin)
  /-- The text has come to its end where the channel is closed. -/
  ended : ∀ origin, typed.engine.status = .faulted (.console .endOfInput) origin ↔
    queued.engine.status = .faulted .inputClosed origin
  /-- Every line that is read is an integer. -/
  legible : ∀ cause origin, typed.engine.status = .faulted (.console cause) origin →
    cause = .endOfInput

/-- The run at the console has stopped in the step behind step `k`, in which the run on given inputs
    reads or emits a value with too many digits. -/
structure Stopped (typed queued : Engine) (xs : List Int) (k fuel : Nat) (f : Fault) : Prop where
  /-- Before that step the two runs have come to the same. -/
  agree : Agree (execute k typed none) (execute k queued (some xs))
  value : ∃ v, digitLimit < Decimal.digitCount v ∧
    ((progress queued xs k).unread = v :: (progress queued xs (k + 1)).unread ∧
        f = .overlong (.read (Decimal.digitCount v)) ∨
      (progress queued xs (k + 1)).outputs = (progress queued xs k).outputs ++ [v] ∧
        f = .overlong .written)
  /-- The instruction has had no effect, and the run has not gone on since. -/
  undone : (execute k typed none).engine.Undone {} f ((execute fuel typed none).engine, {})

/-- The input instructions that a run at the console attempts. -/
def inputsAttempted (e : Engine) (fuel : Nat) : Nat :=
  (List.range fuel).countP fun k => (execute k e none).engine.attemptsInput

variable {s : Engine × Hub} {typed queued : Engine} {xs : List Int} {fuel : Nat}

/-- A run at the console comes to what its steps come to. -/
theorem execute_eq_stepped (hports : typed.ports = (none, none, none)) (fuel : Nat) :
    execute fuel typed none = ⟨[], (Engine.stepped (typed, {}) fuel).1⟩ := by
  have hrun := Engine.runFor_eq_of_none hports {} fuel
  simp only [execute, hrun]

/-- As many prompts are written as input instructions are attempted. -/
theorem prompts_execute (hports : typed.ports = (none, none, none)) (fuel : Nat) :
    (execute fuel typed none).engine.console.prompts =
      typed.console.prompts + inputsAttempted typed fuel := by
  induction fuel with
  | zero => rfl
  | succ fuel ih =>
    have hprompts := Engine.prompts_step (Engine.ports_stepped_of_none hports {} fuel)
      (Engine.stepped (typed, {}) fuel).2
    have hcount : inputsAttempted typed (fuel + 1) = inputsAttempted typed fuel +
        if (Engine.stepped (typed, {}) fuel).1.attemptsInput then 1 else 0 := by
      unfold inputsAttempted
      rw [List.range_succ, List.countP_append, List.countP_singleton, execute_eq_stepped hports]
    rw [execute_eq_stepped hports] at ih
    rw [execute_eq_stepped hports, hcount, ← Nat.add_assoc, ← ih]
    exact hprompts

/-- Two runs that go on in the same way have come to the same. -/
theorem agree_of_typing (ht : Engine.Typing xs s typed) :
    Agree ⟨[], typed⟩ ⟨s.2.content 1, s.1⟩ := by
  have hstatus : typed.status = s.1.status.atConsole := congrArg Engine.status ht.engine
  have hmachine : typed.machine = s.1.machine := by
    rw [ht.engine]
    rfl
  have htrace : typed.trace = s.1.trace := by
    rw [ht.engine]
    rfl
  have hnone (cause : ConsoleFault) (origin : Int) :
      s.1.status ≠ .faulted (.console cause) origin := by
    intro hfault
    apply ht.supplied cause
    simp [Engine.fault?, hfault]
  refine ⟨hmachine, htrace, congrArg Decimal.lines ht.printed, ?_, ?_, ?_, ?_⟩
  · dsimp only
    rw [hstatus]
    exact Status.atConsole_eq_halted_iff
  · intro cause origin hcause
    dsimp only
    rw [hstatus]
    exact Status.atConsole_eq_faulted_iff hcause
  · intro origin
    dsimp only
    rw [hstatus, Status.atConsole_eq_console_iff hnone]
    exact ⟨And.right, fun hclosed => ⟨rfl, hclosed⟩⟩
  · intro cause origin hfault
    dsimp only at hfault
    rw [hstatus, Status.atConsole_eq_console_iff hnone] at hfault
    exact hfault.1

/-- Nothing has happened at the start. -/
theorem typing_start (hprepare : prepare program patches tracing console = .ok e) {cs : List Char}
    (htext : OnLines cs xs) :
    Engine.Typing xs (e.wired ⟨0⟩ ⟨1, 0⟩, channels xs) { e with console := { unread := cs } } := by
  have heq := prepare_eq hprepare
  have hreq : e.request = none := by rw [heq]
  have hrun : e.status = .running := by rw [heq]
  have hcontent : (channels xs).content 0 = xs := Fifo.toList_ofList xs
  refine ⟨sealed_start hreq xs, rfl, ?_, rfl, ?_, rfl, ?_, [], ?_, nofun⟩
  · rw [heq]
    rfl
  · exact hcontent.symm ▸ htext
  · intro cause hfault
    exact absurd ((Engine.fault?_of_running hrun).symm.trans hfault) nofun
  · exact hcontent.symm

/-- A run that has been blocked has stopped at a value with too many digits. -/
theorem stopped_of_blocked {k : Nat} {before after : Engine} {f : Fault}
    (hreq : queued.request = none) (hports : typed.ports = (none, none, none))
    (hbefore : Engine.stepped (typed, {}) k = (before, {}))
    (ht : Engine.Typing xs (Engine.stepped (queued.wired ⟨0⟩ ⟨1, 0⟩, channels xs) k) before)
    (hstep : before.step {} = (after, {})) (hafter : Engine.stepped (typed, {}) fuel = (after, {}))
    (hblocked : Engine.Blocked (Engine.stepped (queued.wired ⟨0⟩ ⟨1, 0⟩, channels xs) k) after f) :
    Stopped typed queued xs k fuel f := by
  have hexecuted : execute k typed none = ⟨[], before⟩ := by
    rw [execute_eq_stepped hports, hbefore]
  have hlong {v : Int} (hv : Decimal.isWritable v = false) : digitLimit < Decimal.digitCount v :=
    Nat.lt_of_not_le (of_decide_eq_false hv)
  -- who exchanges a value has not ended
  have hrun : before.isRunning = true := by
    rw [ht.engine, Engine.isRunning_atConsole]
    apply eq_true_of_ne_false
    intro hended
    cases hblocked with
    | reading _ htaken =>
      rw [Engine.step_of_ended hended] at htaken
      exact List.cons_ne_self _ _ htaken.symm
    | printing _ hsent =>
      rw [Engine.step_of_ended hended] at hsent
      exact absurd (List.append_right_eq_self.1 hsent.symm) (List.cons_ne_nil _ _)
  have hraised : (before.step {}).1.verdict = .error f := by
    rw [hstep]
    cases hblocked with
    | reading _ _ hraised | printing _ _ hraised => exact hraised
  have hports' : before.ports = (none, none, none) := by
    have hstepped := Engine.ports_stepped_of_none hports {} k
    rwa [hbefore] at hstepped
  have hundone := Engine.undone_step ((Engine.isRunning_iff _).1 hrun) (congrArg Prod.fst hports')
    hraised
  constructor
  · rw [hexecuted, execute_eq_progress hreq]
    exact agree_of_typing ht
  · cases hblocked with
    | reading hv htaken => exact ⟨_, hlong hv, .inl ⟨htaken, rfl⟩⟩
    | printing hv hsent => exact ⟨_, hlong hv, .inr ⟨hsent, rfl⟩⟩
  · rw [hexecuted, execute_eq_stepped hports, hafter]
    rw [hstep] at hundone
    exact hundone

/-- What is not read yet is the last of the inputs. -/
theorem unread_suffix (hreq : queued.request = none) (xs : List Int) (k : Nat) :
    (progress queued xs k).unread <:+ xs := by
  have hsealed := sealed_start hreq xs
  induction k with
  | zero => exact ⟨[], Fifo.toList_ofList xs⟩
  | succ k ih =>
    have hread := (hsealed.stepped k).plugged.content_input_step (by decide)
      (Engine.stepped (queued.wired ⟨0⟩ ⟨1, 0⟩, channels xs) k).2
    exact List.IsSuffix.trans ⟨_, hread⟩ ih

/-- A run that has stopped like that has come upon an input, or it would have emitted an output. -/
theorem Stopped.exists_long {k : Nat} {f : Fault} (hstopped : Stopped typed queued xs k fuel f)
    (hreq : queued.request = none) (hk : k < fuel) :
    (∃ x ∈ xs, digitLimit < Decimal.digitCount x) ∨
      ∃ v ∈ (execute fuel queued (some xs)).outputs, digitLimit < Decimal.digitCount v := by
  obtain ⟨v, hlong, ⟨htaken, -⟩ | ⟨hsent, -⟩⟩ := hstopped.value
  · refine .inl ⟨v, (unread_suffix hreq xs k).subset ?_, hlong⟩
    rw [htaken]
    exact List.mem_cons_self
  · refine .inr ⟨v, ?_, hlong⟩
    rw [execute_eq_progress hreq]
    have hmore := (sealed_start hreq xs).outputs_stepped (by decide) (Nat.succ_le_of_lt hk)
    refine hmore.subset ?_
    show v ∈ (progress queued xs (k + 1)).outputs
    rw [hsent]
    exact List.mem_append_right _ (List.mem_singleton_self v)

/-- **Inputs may be typed in.**  A program is loaded and patched in the same way for a batch run on
    given inputs and for one at a console where these inputs have been typed in, each on a line of
    its own.  If neither an input nor an output has too many digits, the two runs have come to the
    same after as many steps: the machine is the same, what has been printed is the outputs, and the
    runs go on, halt, or stop by the same fault together, except that the text comes to its end
    where the channel is closed.  Otherwise the same holds up to the first step that reads or emits
    a value with too many digits; in this step the run at the console stops.  In any case it has
    written one prompt for each input instruction it has attempted. -/
theorem typed_agrees (program : Program.Source) (patches : List (Int × Int)) (tracing : Bool)
    (console : Console) (text : String) (xs : List Int) (htext : OnLines text.toList xs)
    (fuel : Nat) :
    match prepare program patches tracing (.ofText text),
        prepare program patches tracing console with
    | .ok typed, .ok queued =>
      ((∀ v ∈ xs ++ (execute fuel queued (some xs)).outputs, Decimal.digitCount v ≤ digitLimit) →
        Agree (execute fuel typed none) (execute fuel queued (some xs))) ∧
      (Agree (execute fuel typed none) (execute fuel queued (some xs)) ∨
        ∃ k < fuel, ∃ f, Stopped typed queued xs k fuel f) ∧
      (execute fuel typed none).engine.console.prompts = inputsAttempted typed fuel
    | .error cause, .error cause' => cause = cause'
    | _, _ => False := by
  rw [prepare_console program patches tracing console (.ofText text)]
  cases hprepare : prepare program patches tracing console with
  | error cause => rfl
  | ok e =>
    let typed : Engine := { e with console := { unread := text.toList } }
    have ht : Engine.Typing xs _ typed := typing_start hprepare htext
    have hreq : e.request = none := by rw [prepare_eq hprepare]
    have hports : typed.ports = (none, none, none) := by
      show e.ports = _
      rw [prepare_eq hprepare]
      rfl
    have hruns : Agree (execute fuel typed none) (execute fuel e (some xs)) ∨
        ∃ k < fuel, ∃ f, Stopped typed e xs k fuel f := by
      rcases ht.stepped {} fuel with ⟨typed', hstepped, ht'⟩ |
        ⟨k, hk, before, after, f, hbefore, ht', hstep, hafter, hblocked⟩
      · left
        rw [execute_eq_progress hreq, execute_eq_stepped hports, hstepped]
        exact agree_of_typing ht'
      · exact .inr ⟨k, hk, f, stopped_of_blocked hreq hports hbefore ht' hstep hafter hblocked⟩
    refine ⟨fun hshort => ?_, hruns, (prompts_execute hports fuel).trans (Nat.zero_add _)⟩
    rcases hruns with hagree | ⟨k, hk, f, hstopped⟩
    · exact hagree
    · rw [List.forall_mem_append] at hshort
      rcases hstopped.exists_long hreq hk with ⟨x, hx, hlong⟩ | ⟨v, hv, hlong⟩
      · exact absurd (hshort.1 x hx) (Nat.not_le.2 hlong)
      · exact absurd (hshort.2 v hv) (Nat.not_le.2 hlong)

/-- Of two echoes the first is made and the second waits for its value: typed in or not, the input
    comes to its end at the same instruction, after two prompts. -/
theorem typed_agrees_of_echo :
    OnLines "-70".toList [-70] ∧
      Agree (execute 9 (.ofCells echoTwice true (.ofText "-70")) none)
        (execute 9 (.ofCells echoTwice true {}) (some [-70])) ∧
      (execute 9 (.ofCells echoTwice true (.ofText "-70")) none).engine.console.printed = "-70\n" ∧
      (execute 9 (.ofCells echoTwice true (.ofText "-70")) none).engine.console.prompts = 2 ∧
      (execute 9 (.ofCells echoTwice true {}) (some [-70])).engine.status =
        .faulted .inputClosed 4 := by
  have htext : OnLines "-70".toList [-70] := by
    rw [show "-70" = Decimal.ofInt (-70) by decide +kernel]
    exact .last (-70)
  obtain ⟨hagree, -, hprompts⟩ := typed_agrees (.cells echoTwice) [] true {} "-70" [-70] htext 9
  have hagree := hagree (by decide +kernel)
  refine ⟨htext, hagree, ?_, ?_, ?_⟩
  · exact hagree.printed.trans (by decide +kernel)
  · exact hprompts.trans (by decide +kernel)
  · decide +kernel

/-- Emits a value and halts. -/
def printer (v : Int) : Engine := .ofCells [104, v, 99] false {}

/-- What has too many digits is not printed, but it is sent. -/
theorem status_printer {v : Int} (hlong : Decimal.isWritable v = false) :
    (execute 2 (printer v) none).engine.status = .faulted (.overlong .written) 0 ∧
      (execute 2 (printer v) (some [])).engine.status = .halted := by
  have hprint : Console.print {} v = .error (.overlong .written) := by
    rw [Console.print, hlong]
    rfl
  let decoded : Engine := (Engine.act { printer v with started := true } Exec.decode).2
  let resolved : Engine := (decoded.act (Exec.operand 1)).2
  have hstep : (printer v).step {} = (resolved.printed 0 (Console.print {} v), {}) :=
    Engine.emit_of_output_none (e := resolved) rfl {} 0 v
  constructor
  · rw [execute_eq_stepped rfl, Engine.stepped, Engine.stepped, Engine.stepped, hstep, hprint,
      Engine.step_of_ended rfl]
    rfl
  · rfl

/-- **An output that cannot be printed.**  With no inputs the one run halts; the other one, at the
    same program with nothing typed in, stops by a fault that has nothing to do with the input. -/
theorem not_typed_of_power :
    OnLines "".toList [] ∧
      (execute 2 (printer (10 ^ digitLimit)) (some [])).engine.status = .halted ∧
      (execute 2 (printer (10 ^ digitLimit)) none).engine.status =
        .faulted (.overlong .written) 0 ∧
      ¬Agree (execute 2 (printer (10 ^ digitLimit)) none)
        (execute 2 (printer (10 ^ digitLimit)) (some [])) := by
  obtain ⟨htyped, hqueued⟩ := status_printer Numeral.isWritable_pow
  refine ⟨.nil, hqueued, htyped, fun hagree => ?_⟩
  have hhalted := hagree.halted.2 hqueued
  rw [htyped] at hhalted
  cases hhalted

end Batch

end Intcode
