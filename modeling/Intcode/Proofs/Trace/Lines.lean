import Intcode.Proofs.Moments
import Intcode.Proofs.Refinement
import Intcode.Proofs.Trace.Silence

namespace Intcode

/-!
# The lines of a trace

With tracing, an engine writes one line for each instruction it decodes, in the middle of the step:
the program counter has moved on by then, and whether the instruction will be completed is open.
The lines are compared with what the engine was to decode at each of its steps, which the reference
machine tells and which has nothing to do with tracing.

* `Decoded`, `Decoded.line` — an instruction as it has been decoded, and its line
* `Engine.attempts`, `Engine.decodings` — the steps an engine has taken, and what they have decoded
* `Engine.Pursued`          — what is left of an instruction once it has been decoded
* `Engine.Noted`            — the trace is the lines of what has been decoded, and how many they are
* `Engine.trace_transparent_and_complete` — tracing is not noticed, and misses nothing
-/

/-- An instruction as it has been decoded. -/
structure Decoded where
  /-- The address its word has been fetched from. -/
  origin : Int
  instruction : Instruction
  /-- The relative base before the instruction. -/
  base : Int

/-- The line of an instruction before which `k` have been decoded. -/
def Decoded.line (d : Decoded) (k : Nat) : String :=
  s!"{Decimal.zeroPadded 6 d.origin}: {Decimal.alignLeft 16 d.instruction.render} " ++
    s!"PC={Decimal.zeroPadded 6 (d.origin + 1)} RB={Decimal.zeroPadded 6 d.base} N={k}"

/-- The line is the one recorded once the word has been fetched. -/
theorem Decoded.line_eq_traceLine {d : Decoded} {m : Machine} (hpc : m.pc = d.origin + 1)
    (hbase : m.base = d.base) : d.line m.steps = traceLine d.origin d.instruction m := by
  unfold line traceLine Machine.renderRegisters
  rw [hpc, hbase]
  simp only [String.append_assoc, toString]

/-- No action counts an instruction as completed. -/
theorem Exec.Yields.steps_act {α β : Type} {action : Exec α} {k : Nat}
    {spec : Config → Except Stop β} {post : Config → β → α × Config}
    (hyields : ∀ c, action.Yields c k (spec c) (post c)) (e : Engine) :
    (e.act action).2.machine.steps = e.machine.steps := by
  obtain ⟨c, hstart⟩ := e.machine.exists_config_eq_after k
  have hrun := hyields c e.machine hstart
  rw [Engine.act_eq]
  cases hspec : spec c with
  | error s =>
    rw [hspec] at hrun
    obtain ⟨m, hrun, -, hsteps⟩ := hrun
    rw [hrun]
    exact hsteps
  | ok b =>
    rw [hspec] at hrun
    obtain ⟨m, hrun, -, hsteps⟩ := hrun
    rw [hrun]
    exact hsteps

namespace Engine

/-! ### What has been decoded -/

/-- What an engine decodes that is not in the middle of an instruction. -/
def decodes? (e : Engine) : Option Decoded :=
  match e.request with
  | some _ => none
  | none =>
    (Reference.fetch e.machine.config).toOption.map fun i => ⟨e.machine.pc, i, e.machine.base⟩

/-- The engine in front of a step, if it goes on working. -/
def Moment.attempt? (m : Moment) : Option Engine :=
  match m.call with
  | .step => if m.engine.isRunning then some m.engine else none
  | _ => none

/-- The engine in front of each step it has taken. -/
def attempts (past : List Moment) : List Engine := past.filterMap Moment.attempt?

/-- What the steps have decoded. -/
def decodings (past : List Moment) : List Decoded := (attempts past).filterMap decodes?

/-- The instruction of the last step had been decoded, in this step or before. -/
def decodedLast (past : List Moment) : Bool :=
  (attempts past).getLast?.any fun e => e.request.isSome || e.decodes?.isSome

/-! ### The rest of an instruction -/

/-- The engine is in the middle of an instruction, or was stopped there. -/
def unfinished (e : Engine) : Bool := e.request.isSome || e.fault?.isSome

/-- What becomes of an instruction that `e` has decoded: it is completed, or it is left unfinished.
    Nothing is recorded any more. -/
structure Pursued (e e' : Engine) : Prop where
  tracing : e'.tracing = e.tracing
  trace : e'.trace = e.trace
  steps : e'.machine.steps + e'.unfinished.toNat = e.machine.steps + 1

variable {e e' mid : Engine}

theorem unfinished_eq_false_iff :
    e.unfinished = false ↔ e.request = none ∧ e.fault? = none := by
  unfold unfinished
  rw [Bool.or_eq_false_iff, Option.isSome_eq_false_iff, Option.isSome_eq_false_iff,
    Option.isNone_iff_eq_none, Option.isNone_iff_eq_none]

/-- Nothing is recorded or completed between two engines. -/
theorem Pursued.congr (hpursued : Pursued mid e') (htracing : mid.tracing = e.tracing)
    (htrace : mid.trace = e.trace) (hsteps : mid.machine.steps = e.machine.steps) :
    Pursued e e' where
  tracing := hpursued.tracing.trans htracing
  trace := hpursued.trace.trans htrace
  steps := hsteps ▸ hpursued.steps

/-- The machine acts on its own in between. -/
theorem Pursued.of_act {α : Type} {action : Exec α} {result : Except Fault α}
    (hact : e.act action = (result, mid))
    (hsteps : (e.act action).2.machine.steps = e.machine.steps) (hpursued : Pursued mid e') :
    Pursued e e' := by
  have hsame : mid = { e with machine := mid.machine } := by
    have hsame := act_snd e action
    rwa [hact] at hsame
  rw [hact] at hsteps
  refine hpursued.congr ?_ ?_ hsteps
  · rw [hsame]
  · rw [hsame]

theorem pursued_fail (e : Engine) (origin : Int) (cause : Fault) :
    Pursued e (e.fail origin cause) := by
  have hunfinished : (e.fail origin cause).unfinished = true := Bool.or_true _
  refine ⟨rfl, rfl, ?_⟩
  rw [hunfinished]
  rfl

theorem pursued_complete (hdone : e.unfinished = false) : Pursued e e.complete := by
  have hdone' : e.complete.unfinished = false := hdone
  refine ⟨rfl, rfl, ?_⟩
  rw [hdone']
  rfl

/-- An action does not end an instruction. -/
theorem unfinished_of_act {α : Type} {action : Exec α} {result : Except Fault α}
    (hact : e.act action = (result, mid)) : mid.unfinished = e.unfinished := by
  have hsame : mid = { e with machine := mid.machine } := by
    have hsame := act_snd e action
    rwa [hact] at hsame
  rw [hsame]
  rfl

theorem pursued_accept (hdone : e.unfinished = false) (origin mode v : Int) :
    Pursued e (e.accept origin mode v) := by
  have hsteps := Exec.Yields.steps_act (k := 0) (fun _ => Exec.store_yields mode v) e
  unfold accept
  rcases hact : e.act (Exec.store mode v) with ⟨f | x, next⟩
  · exact (pursued_fail next origin f).of_act hact hsteps
  · have hdone' := (unfinished_of_act hact).trans hdone
    exact (pursued_complete hdone').of_act hact hsteps

/-- An engine that has found no value is left unfinished. -/
theorem pursued_receive (hrun : e.fault? = none) (h : Hub) (r : Request) :
    Pursued e (e.receive h r).1 := by
  have hdone : unfinished { e with request := none } = false :=
    unfinished_eq_false_iff.2 ⟨rfl, hrun⟩
  unfold receive
  cases h.recv r.receiver with
  | value v h' => exact (pursued_accept hdone r.origin r.mode v).congr rfl rfl rfl
  | closed error => exact (pursued_fail { e with request := none } _ _).congr rfl rfl rfl
  | wait => exact ⟨rfl, rfl, rfl⟩

theorem pursued_typed (hdone : e.unfinished = false) (origin mode : Int)
    (line : Except Fault Int × Console) : Pursued e (e.typed origin mode line) := by
  obtain ⟨cause | v, console⟩ := line
  · exact (pursued_fail { e with console } origin cause).congr rfl rfl rfl
  · exact (pursued_accept (e := { e with console }) hdone origin mode v).congr rfl rfl rfl

theorem pursued_printed (hdone : e.unfinished = false) (origin : Int)
    (console : Except Fault Console) : Pursued e (e.printed origin console) := by
  cases console with
  | error cause => exact pursued_fail e origin cause
  | ok console => exact (pursued_complete (e := { e with console }) hdone).congr rfl rfl rfl

theorem pursued_obtain (hdone : e.unfinished = false) (h : Hub) (origin mode : Int) :
    Pursued e (e.obtain h origin mode).1 := by
  cases hin : e.input with
  | some receiver =>
    rw [obtain_of_input hin]
    exact pursued_receive (unfinished_eq_false_iff.1 hdone).2 h _
  | none =>
    rw [obtain_of_input_none hin]
    exact pursued_typed hdone origin mode _

theorem pursued_emit (hdone : e.unfinished = false) (h : Hub) (origin v : Int) :
    Pursued e (e.emit h origin v).1 := by
  cases hout : e.output with
  | none =>
    rw [emit_of_output_none hout]
    exact pursued_printed hdone origin _
  | some tx =>
    unfold emit
    rw [hout]
    dsimp only
    split
    · exact pursued_complete hdone
    · exact pursued_fail e origin _

theorem pursued_meet (hdone : e.unfinished = false) (h : Hub) (origin : Int) (d : Demand) :
    Pursued e (e.meet h origin d).1 := by
  cases d with
  | nothing => exact pursued_complete hdone
  | halt =>
    have hdone' : unfinished { e with status := .halted } = false :=
      unfinished_eq_false_iff.2 ⟨(unfinished_eq_false_iff.1 hdone).1, rfl⟩
    exact (pursued_complete hdone').congr rfl rfl rfl
  | input mode => exact pursued_obtain hdone h origin mode
  | output v => exact pursued_emit hdone h origin v

/-- The machine carries out an instruction, and the rest of it is seen to. -/
theorem pursued_execute (hdone : e.unfinished = false) (h : Hub) (origin : Int) (i : Instruction) :
    Pursued e (match e.act (Exec.execute i) with
      | (.error f, next) => (next.fail origin f, h)
      | (.ok demand, next) => next.meet h origin demand).1 := by
  obtain ⟨_, _, _, hyields⟩ := Exec.exists_execute_yields i
  have hsteps := Exec.Yields.steps_act hyields e
  rcases hact : e.act (Exec.execute i) with ⟨f | d, next⟩
  · exact (pursued_fail next origin f).of_act hact hsteps
  · have hdone' := (unfinished_of_act hact).trans hdone
    exact (pursued_meet hdone' h origin d).of_act hact hsteps

/-! ### Steps -/

/-- A step whose word does not decode records nothing and completes nothing. -/
structure Barred (e e' : Engine) : Prop where
  tracing : e'.tracing = e.tracing
  trace : e'.trace = e.trace
  steps : e'.machine.steps = e.machine.steps
  request : e'.request = none

theorem barred_attempt (hreq : e.request = none) (hnone : e.decodes? = none) (h : Hub) :
    Barred e (e.attempt h).1 := by
  have hdecode := Exec.decode_yields e.machine (Config.after_zero _).symm
  unfold decodes? at hnone
  rw [hreq] at hnone
  cases hfetch : Reference.fetch e.machine.config with
  | ok i =>
    rw [hfetch] at hnone
    cases hnone
  | error s =>
    rw [hfetch] at hdecode
    obtain ⟨m, hdecode, -, hsteps⟩ := hdecode
    unfold attempt
    dsimp only
    rw [act_eq]
    dsimp only
    rw [hdecode]
    exact ⟨rfl, rfl, hsteps, hreq⟩

/-- An instruction that decodes has its line recorded, and is pursued. -/
theorem pursued_attempt (htracing : e.tracing = true) (hdone : e.unfinished = false) {d : Decoded}
    (hsome : e.decodes? = some d) (h : Hub) :
    Pursued { e with trace := e.trace.push (d.line e.machine.steps) } (e.attempt h).1 := by
  have hdecode := Exec.decode_yields e.machine (Config.after_zero _).symm
  unfold decodes? at hsome
  rw [(unfinished_eq_false_iff.1 hdone).1] at hsome
  cases hfetch : Reference.fetch e.machine.config with
  | error s =>
    rw [hfetch] at hsome
    cases hsome
  | ok i =>
    rw [hfetch] at hdecode hsome
    obtain rfl := Option.some.inj hsome
    obtain ⟨m, hdecode, hconfig, hsteps⟩ := hdecode
    have hline : Decoded.line ⟨e.machine.pc, i, e.machine.base⟩ e.machine.steps =
        traceLine e.machine.pc i m := by
      rw [← hsteps]
      exact Decoded.line_eq_traceLine (congrArg Config.pc hconfig) (congrArg Config.base hconfig)
    unfold attempt
    dsimp only
    rw [act_eq]
    dsimp only
    rw [hdecode, hline]
    dsimp only
    unfold record
    rw [if_pos (by exact htracing)]
    exact (pursued_execute (by exact hdone) h e.machine.pc i).congr rfl rfl hsteps

/-! ### Lives -/

/-- An instruction has been decoded that has not been completed. -/
def pending (past : List Moment) (e : Engine) : Bool :=
  e.request.isSome || (e.fault?.isSome && decodedLast past)

/-- The trace is the lines of all that has been decoded, and that is all that has been completed and
    what is still pending. -/
structure Noted (past : List Moment) (e : Engine) : Prop where
  tracing : e.tracing = true
  lines : e.trace.toList = (decodings past).mapIdx fun k d => d.line k
  count : (decodings past).length = e.machine.steps + (e.pending past).toNat

variable {past : List Moment}

/-- A step of an engine that runs is an attempt. -/
theorem attempts_step (past : List Moment) (hrun : e.isRunning = true) :
    attempts (past ++ [⟨e, .step⟩]) = attempts past ++ [e] := by
  have hattempt : Moment.attempt? ⟨e, .step⟩ = some e := if_pos hrun
  unfold attempts
  rw [List.filterMap_append, List.filterMap_cons_some hattempt, List.filterMap_nil]

/-- Anything else is none. -/
theorem attempts_other (past : List Moment) {m : Moment} (hother : m.attempt? = none) :
    attempts (past ++ [m]) = attempts past := by
  unfold attempts
  rw [List.filterMap_append, List.filterMap_cons_none hother, List.filterMap_nil, List.append_nil]

theorem decodings_step (past : List Moment) (hrun : e.isRunning = true) :
    decodings (past ++ [⟨e, .step⟩]) = decodings past ++ e.decodes?.toList := by
  unfold decodings
  rw [attempts_step past hrun, List.filterMap_append]
  cases hdecodes : e.decodes? with
  | none => rw [List.filterMap_cons_none hdecodes]; rfl
  | some d => rw [List.filterMap_cons_some hdecodes]; rfl

theorem decodedLast_step (past : List Moment) (hrun : e.isRunning = true) :
    decodedLast (past ++ [⟨e, .step⟩]) = (e.request.isSome || e.decodes?.isSome) := by
  unfold decodedLast
  rw [attempts_step past hrun, List.getLast?_append]
  rfl

/-- What is no attempt, and leaves the trace and the run as they are, changes nothing about it. -/
theorem Noted.other (hnoted : Noted past e) {m : Moment} (hother : m.attempt? = none)
    (htracing : e'.tracing = e.tracing) (htrace : e'.trace = e.trace)
    (hsteps : e'.machine.steps = e.machine.steps) (hreq : e'.request = e.request)
    (hstatus : e'.status = e.status) : Noted (past ++ [m]) e' := by
  have hattempts := attempts_other past hother
  have hdecodings : decodings (past ++ [m]) = decodings past :=
    congrArg (List.filterMap decodes?) hattempts
  have hpending : e'.pending (past ++ [m]) = e.pending past := by
    unfold pending decodedLast fault?
    rw [hattempts, hreq, hstatus]
  refine ⟨htracing.trans hnoted.tracing, ?_, ?_⟩
  · rw [hdecodings, htrace]
    exact hnoted.lines
  · rw [hdecodings, hpending, hsteps]
    exact hnoted.count

/-- A step that decodes nothing, and after which as many lines are accounted for as before. -/
theorem Noted.undecoded (hnoted : Noted past e) (hrun : e.isRunning = true)
    (hnone : e.decodes? = none) (htracing : e'.tracing = e.tracing) (htrace : e'.trace = e.trace)
    (hcount : e'.machine.steps + (e'.pending (past ++ [⟨e, .step⟩])).toNat =
      e.machine.steps + (e.pending past).toNat) : Noted (past ++ [⟨e, .step⟩]) e' := by
  have hdecodings := decodings_step past hrun
  rw [hnone, Option.toList_none, List.append_nil] at hdecodings
  refine ⟨htracing.trans hnoted.tracing, ?_, ?_⟩
  · rw [hdecodings, htrace]
    exact hnoted.lines
  · rw [hdecodings, hcount]
    exact hnoted.count

/-- A suspended engine goes on with the instruction that is pending, and decodes nothing. -/
theorem Noted.resumed {r : Request} (hnoted : Noted past e) (hrun : e.isRunning = true)
    (hreq : e.request = some r) (h : Hub) :
    Noted (past ++ [⟨e, .step⟩]) (e.receive h r).1 := by
  have hfault := fault?_of_running ((isRunning_iff e).1 hrun)
  have hpursued := pursued_receive hfault h r
  have hnone : e.decodes? = none := by
    unfold decodes?
    rw [hreq]
  refine hnoted.undecoded hrun hnone hpursued.tracing hpursued.trace ?_
  unfold pending
  rw [decodedLast_step past hrun, hreq, Option.isSome_some, Bool.true_or, Bool.true_or,
    Bool.and_true]
  exact hpursued.steps

/-- A word that does not decode stops the engine, and nothing is pending before or after it. -/
theorem Noted.barred (hnoted : Noted past e) (hrun : e.isRunning = true) (hreq : e.request = none)
    (hnone : e.decodes? = none) (h : Hub) :
    Noted (past ++ [⟨e, .step⟩]) (e.attempt h).1 := by
  have hfault := fault?_of_running ((isRunning_iff e).1 hrun)
  have hbarred := barred_attempt hreq hnone h
  refine hnoted.undecoded hrun hnone hbarred.tracing hbarred.trace ?_
  unfold pending
  rw [decodedLast_step past hrun, hbarred.steps, hbarred.request, hreq, hnone, hfault]
  simp

/-- An instruction that decodes has its line, whose number is that of the lines before it. -/
theorem Noted.decoded {d : Decoded} (hnoted : Noted past e) (hrun : e.isRunning = true)
    (hreq : e.request = none) (hsome : e.decodes? = some d) (h : Hub) :
    Noted (past ++ [⟨e, .step⟩]) (e.attempt h).1 := by
  have hfault := fault?_of_running ((isRunning_iff e).1 hrun)
  have hpursued :=
    pursued_attempt hnoted.tracing (unfinished_eq_false_iff.2 ⟨hreq, hfault⟩) hsome h
  have hdecodings := decodings_step past hrun
  rw [hsome, Option.toList_some] at hdecodings
  have hnumber : (decodings past).length = e.machine.steps := by
    have hcount := hnoted.count
    unfold pending at hcount
    rw [hreq, hfault] at hcount
    exact hcount
  refine ⟨hpursued.tracing.trans hnoted.tracing, ?_, ?_⟩
  · rw [hdecodings, hpursued.trace, Array.toList_push, List.mapIdx_concat, hnoted.lines, hnumber]
  · unfold pending
    rw [hdecodings, decodedLast_step past hrun, hsome, Option.isSome_some, Bool.or_true,
      Bool.and_true, List.length_append, hnumber]
    exact hpursued.steps.symm

/-- **One step.** -/
theorem Noted.step (hnoted : Noted past e) (h : Hub) :
    Noted (past ++ [⟨e, .step⟩]) (e.step h).1 := by
  cases hrun : e.isRunning with
  | false =>
    rw [step_of_ended hrun]
    have hother : Moment.attempt? ⟨e, .step⟩ = none := if_neg (ne_true_of_eq_false hrun)
    exact hnoted.other hother rfl rfl rfl rfl rfl
  | true =>
    have hstatus := (isRunning_iff e).1 hrun
    cases hreq : e.request with
    | some r =>
      rw [step_eq_receive hstatus hreq]
      exact hnoted.resumed hrun hreq h
    | none =>
      rw [step_eq_attempt hstatus hreq]
      cases hdecodes : e.decodes? with
      | none => exact hnoted.barred hrun hreq hdecodes h
      | some d => exact hnoted.decoded hrun hreq hdecodes h

/-- **One call.** -/
theorem Noted.perform (hnoted : Noted past e) (h : Hub) {c : Call}
    (hsingle : ∀ fuel, c ≠ .run fuel) : Noted (past ++ [⟨e, c⟩]) (e.perform h c).2.1 := by
  cases hdrives : c.drives with
  | true =>
    cases c with
    | step => exact hnoted.step h
    | run fuel => exact absurd rfl (hsingle fuel)
    | _ => cases hdrives
  | false =>
    have hother : Moment.attempt? ⟨e, c⟩ = none := by
      cases c with
      | step => cases hdrives
      | _ => rfl
    rcases perform_of_not_drives e h hdrives with ⟨memory, hnext⟩ | ⟨input, output, hnext⟩
    · rw [hnext]
      exact hnoted.other hother rfl rfl rfl rfl rfl
    · rw [hnext]
      exact hnoted.other hother rfl rfl rfl rfl rfl

/-- **Every life** leaves the trace as it should be. -/
theorem noted_live (cells : List Int) (console : Console) (h : Hub) (events : List Event) :
    let s := (ofCells cells true console, h)
    Noted (moments s events) (live s events).1 := by
  intro s
  have hstart : Noted [] s.1 := ⟨rfl, rfl, rfl⟩
  exact live_induction (P := Noted)
    (fun past e h c hsingle hnoted => hnoted.perform h hsingle) hstart events

/-- What is attempted has nothing to do with the trace. -/
theorem attempts_mute (past : List Moment) :
    attempts (past.map Moment.mute) = (attempts past).map mute := by
  have hattempt : Moment.attempt? ∘ Moment.mute = fun m => m.attempt?.map mute := by
    funext ⟨e, c⟩
    cases c with
    | step =>
      show (if e.isRunning then some e.mute else none) =
        (if e.isRunning then some e else none).map mute
      split <;> rfl
    | _ => rfl
  unfold attempts
  rw [List.filterMap_map, List.map_filterMap, hattempt]

theorem decodings_mute (past : List Moment) :
    decodings (past.map Moment.mute) = decodings past := by
  unfold decodings
  rw [attempts_mute, List.filterMap_map]
  rfl

theorem decodedLast_mute (past : List Moment) :
    decodedLast (past.map Moment.mute) = decodedLast past := by
  unfold decodedLast
  rw [attempts_mute, List.getLast?_map, Option.any_map]
  rfl

/-- **Tracing is transparent and complete.**  An engine that traces and one that does not, with the
    same program, go through the same calls, while others do the same with the channels.  They then
    differ in nothing but the trace, the channels are the same, and every call is answered in the
    same way.  The trace is made of the lines of what the silent engine has decoded, in that order,
    each with its own number.  There are as many lines as instructions completed, and one more if
    the engine is suspended in an instruction, or has been stopped by a fault after its instruction
    had been decoded. -/
theorem trace_transparent_and_complete (cells : List Int) (console : Console) (h : Hub)
    (events : List Event) :
    let s := live (ofCells cells true console, h) events
    let silent := live (ofCells cells false console, h) events
    let past := moments (ofCells cells false console, h) events
    silent = (s.1.mute, s.2) ∧
      (∀ c, (silent.1.perform silent.2 c).1 = (s.1.perform s.2 c).1) ∧
      s.1.trace.toList = (decodings past).mapIdx (fun k d => d.line k) ∧
      s.1.trace.size = s.1.machine.steps +
        if s.1.request ≠ none ∨ s.1.fault? ≠ none ∧ decodedLast past then 1 else 0 := by
  intro s silent past
  have hsilent : silent = muted s := live_mute (ofCells cells true console, h) events
  have hpast : past = (moments (ofCells cells true console, h) events).map Moment.mute :=
    moments_mute (ofCells cells true console, h) events
  have hnoted : Noted (moments (ofCells cells true console, h) events) s.1 :=
    noted_live cells console h events
  have hlines : s.1.trace.toList = (decodings past).mapIdx fun k d => d.line k := by
    rw [hpast, decodings_mute]
    exact hnoted.lines
  refine ⟨hsilent, fun c => ?_, hlines, ?_⟩
  · rw [hsilent]
    show (s.1.mute.perform s.2 c).1 = _
    rw [perform_mute]
  · have hsize : s.1.trace.size = (decodings past).length := by
      rw [← Array.length_toList, hlines, List.length_mapIdx]
    have hcount := hnoted.count
    unfold pending at hcount
    rw [← decodings_mute, ← decodedLast_mute, ← hpast] at hcount
    rw [hsize, hcount]
    show _ + cond _ 1 0 = _
    simp only [cond_eq_ite, Bool.or_eq_true, Bool.and_eq_true, Option.isSome_iff_ne_none]

/-- A number of an addition is stored at an address that there is not, so the second instruction of
    this program has a line and is not completed. -/
example :
    let s := live (ofCells [109, 7, 21101, 2, 3, -8] true {}, {}) [.call (.run 5)]
    s.1.machine.steps = 1 ∧ s.1.trace.toList =
      ["000000: ARB  IMM         PC=000001 RB=000000 N=0",
        "000002: ADD  IMM,IMM,REL PC=000003 RB=000007 N=1"] := by
  decide +kernel

end Engine

end Intcode
