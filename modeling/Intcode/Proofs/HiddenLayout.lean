import Intcode.Proofs.Calls
import Intcode.Proofs.Memory.Accesses
import Intcode.Proofs.Refinement

namespace Intcode

/-!
# The layout of memory is hidden

Reading a cell makes the flat part of a memory grow, and so does an image with zeros at its end,
which may even reach beyond the limit of that growth.  The values stay the same, and a program has
nothing else to go by: two engines that agree on the value of every cell go on in the same way,
whatever the layout of their memories is.

* `Machine.Alike`, `Engine.Alike` — the same, but for the layout of the memory
* `Exec.Blind`                    — an action that does not see the layout
* `Engine.Alike.step`, `Engine.Alike.perform` — neither does a step, nor any call
* `Engine.alike_live_of_padded`   — padding and peeking are hidden from a program and from its owner
-/

/-- The same registers, and the same value in every cell. -/
structure Machine.Alike (m m' : Machine) : Prop where
  config : m'.config = m.config
  steps : m'.steps = m.steps

/-- The same engine, with a machine that may lay out its memory differently. -/
inductive Engine.Alike (e : Engine) : Engine → Prop where
  | of_machine {machine : Machine} (hmachine : e.machine.Alike machine) : Alike e { e with machine }

namespace Machine.Alike

variable {m m' m'' : Machine}

theorem refl (m : Machine) : m.Alike m := ⟨rfl, rfl⟩

theorem symm (hm : m.Alike m') : m'.Alike m := ⟨hm.config.symm, hm.steps.symm⟩

theorem trans (hm : m.Alike m') (hm' : m'.Alike m'') : m.Alike m'' :=
  ⟨hm'.config.trans hm.config, hm'.steps.trans hm.steps⟩

/-- The registers are written in the same way. -/
theorem renderRegisters (hm : m.Alike m') : m'.renderRegisters = m.renderRegisters := by
  unfold Machine.renderRegisters
  rw [show m'.pc = m.pc from congrArg Config.pc hm.config,
    show m'.base = m.base from congrArg Config.base hm.config, hm.steps]

end Machine.Alike

/-- Zeros at the end of an image are what lies behind it anyway. -/
theorem Memory.lookup_ofList_append_zeros (cells : List Int) (k n : Nat) :
    (ofList (cells ++ List.replicate k 0)).lookup n = (ofList cells).lookup n := by
  rw [lookup_ofList, lookup_ofList, List.getD_eq_getElem?_getD, List.getD_eq_getElem?_getD]
  rcases Nat.lt_or_ge n cells.length with hlt | hge
  · rw [List.getElem?_append_left hlt]
  · rw [List.getElem?_append_right hge, List.getElem?_eq_none hge, List.getElem?_replicate]
    split <;> rfl

theorem Machine.alike_ofCells_append_zeros (cells : List Int) (k : Nat) :
    (ofCells cells).Alike (ofCells (cells ++ List.replicate k 0)) :=
  ⟨congrArg (Config.mk · 0 0) (funext (Memory.lookup_ofList_append_zeros cells k)), rfl⟩

/-! ### Actions -/

/-- An action that does not see the layout of the memory. -/
def Exec.Blind {α : Type} (action : Exec α) : Prop :=
  ∀ m m' : Machine, m.Alike m' →
    (∃ f n n', action m = .error f n ∧ action m' = .error f n' ∧ n.Alike n') ∨
      ∃ x n n', action m = .ok x n ∧ action m' = .ok x n' ∧ n.Alike n'

namespace Exec

variable {α β : Type}

/-- What is told by the configuration does not depend on the layout. -/
theorem Yields.blind {action : Exec α} {k : Nat} {spec : Config → Except Stop β}
    {post : Config → β → α × Config} (hyields : ∀ c, action.Yields c k (spec c) (post c)) :
    Blind action := by
  intro m m' hm
  -- the configuration in which the instruction would have begun
  obtain ⟨c, hstart⟩ := m.exists_config_eq_after k
  have hhere := hyields c m hstart
  have hthere := hyields c m' (hm.config.trans hstart)
  cases hspec : spec c with
  | error s =>
    rw [hspec] at hhere hthere
    obtain ⟨n, hrun, hconfig, hsteps⟩ := hhere
    obtain ⟨n', hrun', hconfig', hsteps'⟩ := hthere
    refine .inl ⟨s.cause, n, n', hrun, hrun', hconfig'.trans hconfig.symm, ?_⟩
    rw [hsteps, hsteps', hm.steps]
  | ok b =>
    rw [hspec] at hhere hthere
    obtain ⟨n, hrun, hconfig, hsteps⟩ := hhere
    obtain ⟨n', hrun', hconfig', hsteps'⟩ := hthere
    refine .inr ⟨(post c b).1, n, n', hrun, hrun', hconfig'.trans hconfig.symm, ?_⟩
    rw [hsteps, hsteps', hm.steps]

theorem blind_load (v : Int) : Blind (load v) := Yields.blind (k := 0) fun _ => load_yields v

theorem blind_save (v x : Int) : Blind (save v x) := Yields.blind (k := 0) fun _ => save_yields v x

theorem blind_store (digit x : Int) : Blind (store digit x) :=
  Yields.blind (k := 0) fun _ => store_yields digit x

theorem blind_decode : Blind decode := Yields.blind fun _ => decode_yields

theorem blind_execute (i : Instruction) : Blind (execute i) := by
  obtain ⟨_, _, _, hyields⟩ := exists_execute_yields i
  exact Yields.blind hyields

end Exec

/-! ### Engines -/

namespace Engine

variable {e e' e'' : Engine}

/-- Two engines that are alike, among the same channels. -/
structure Twins (s t : Engine × Hub) : Prop where
  engine : s.1.Alike t.1
  hub : t.2 = s.2

namespace Alike

theorem status (halike : e.Alike e') : e'.status = e.status := by
  cases halike
  rfl

theorem request (halike : e.Alike e') : e'.request = e.request := by
  cases halike
  rfl

theorem input (halike : e.Alike e') : e'.input = e.input := by
  cases halike
  rfl

theorem output (halike : e.Alike e') : e'.output = e.output := by
  cases halike
  rfl

theorem console (halike : e.Alike e') : e'.console = e.console := by
  cases halike
  rfl

theorem pc (halike : e.Alike e') : e'.machine.pc = e.machine.pc := by
  obtain ⟨hmachine⟩ := halike
  exact congrArg Config.pc hmachine.config

theorem refl (e : Engine) : e.Alike e := .of_machine (.refl _)

theorem symm (halike : e.Alike e') : e'.Alike e := by
  obtain ⟨hmachine⟩ := halike
  exact .of_machine (e := { e with machine := _ }) hmachine.symm

theorem trans (halike : e.Alike e') (halike' : e'.Alike e'') : e.Alike e'' := by
  obtain ⟨hmachine⟩ := halike
  obtain ⟨hmachine'⟩ := halike'
  exact .of_machine (hmachine.trans hmachine')

/-- An action that does not see the layout has the same result on both. -/
theorem act {α : Type} {action : Exec α} (halike : e.Alike e') (hblind : action.Blind) :
    (∃ f n n', e.act action = (.error f, n) ∧ e'.act action = (.error f, n') ∧ n.Alike n') ∨
      ∃ x n n', e.act action = (.ok x, n) ∧ e'.act action = (.ok x, n') ∧ n.Alike n' := by
  obtain ⟨hmachine⟩ := halike
  rw [act_eq, act_eq]
  rcases hblind _ _ hmachine with
    ⟨f, n, n', hrun, hrun', hn⟩ | ⟨x, n, n', hrun, hrun', hn⟩
  · refine .inl ⟨f, { e with machine := n }, { e with machine := n' }, ?_, ?_, .of_machine hn⟩
    · rw [hrun]
    · rw [hrun']
  · refine .inr ⟨x, { e with machine := n }, { e with machine := n' }, ?_, ?_, .of_machine hn⟩
    · rw [hrun]
    · rw [hrun']

theorem complete (halike : e.Alike e') : e.complete.Alike e'.complete := by
  obtain ⟨hmachine⟩ := halike
  exact .of_machine (e := e.complete) ⟨hmachine.config, congrArg (· + 1) hmachine.steps⟩

theorem fail (halike : e.Alike e') (origin : Int) (cause : Fault) :
    (e.fail origin cause).Alike (e'.fail origin cause) := by
  obtain ⟨hmachine⟩ := halike
  exact .of_machine (e := e.fail origin cause) hmachine

/-- The lines recorded are the same. -/
theorem record (halike : e.Alike e') (origin : Int) (i : Instruction) :
    (e.record origin i).Alike (e'.record origin i) := by
  obtain ⟨hmachine⟩ := halike
  unfold Engine.record traceLine
  dsimp only
  rw [hmachine.renderRegisters]
  split
  · exact .of_machine (e := { e with trace := _ }) hmachine
  · exact .of_machine hmachine

theorem accept (halike : e.Alike e') (origin mode v : Int) :
    (e.accept origin mode v).Alike (e'.accept origin mode v) := by
  unfold Engine.accept
  rcases halike.act (Exec.blind_store mode v) with
    ⟨f, n, n', hact, hact', hn⟩ | ⟨x, n, n', hact, hact', hn⟩
  · rw [hact, hact']
    exact hn.fail origin f
  · rw [hact, hact']
    exact hn.complete

/-! ### Steps -/

theorem receive (halike : e.Alike e') (h : Hub) (r : Request) :
    Twins (e.receive h r) (e'.receive h r) := by
  obtain ⟨hmachine⟩ := halike
  unfold Engine.receive
  cases h.recv r.receiver with
  | value v h' =>
    exact ⟨accept (e := { e with request := none }) (.of_machine hmachine) _ _ v, rfl⟩
  | closed error =>
    exact ⟨fail (e := { e with request := none }) (.of_machine hmachine) _ _, rfl⟩
  | wait => exact ⟨.of_machine (e := { e with request := some r }) hmachine, rfl⟩

theorem typed (halike : e.Alike e') (origin mode : Int)
    (line : Except Fault Int × Console) :
    (e.typed origin mode line).Alike (e'.typed origin mode line) := by
  obtain ⟨hmachine⟩ := halike
  obtain ⟨cause | v, console⟩ := line
  · exact fail (e := { e with console }) (.of_machine hmachine) _ _
  · exact accept (e := { e with console }) (.of_machine hmachine) _ _ v

theorem printed (halike : e.Alike e') (origin : Int) (console : Except Fault Console) :
    (e.printed origin console).Alike (e'.printed origin console) := by
  obtain ⟨hmachine⟩ := halike
  cases console with
  | error cause => exact fail (.of_machine hmachine) _ _
  | ok console => exact complete (e := { e with console }) (.of_machine hmachine)

theorem obtain (halike : e.Alike e') (h : Hub) (origin mode : Int) :
    Twins (e.obtain h origin mode) (e'.obtain h origin mode) := by
  have hin' : e'.input = e.input := halike.input
  cases hin : e.input with
  | some receiver =>
    rw [obtain_of_input hin, obtain_of_input (hin'.trans hin)]
    exact halike.receive h _
  | none =>
    rw [obtain_of_input_none hin, obtain_of_input_none (hin'.trans hin), halike.console]
    exact ⟨halike.typed origin mode _, rfl⟩

theorem emit (halike : e.Alike e') (h : Hub) (origin v : Int) :
    Twins (e.emit h origin v) (e'.emit h origin v) := by
  have hout' : e'.output = e.output := halike.output
  cases hout : e.output with
  | none =>
    rw [emit_of_output_none hout, emit_of_output_none (hout'.trans hout), halike.console]
    exact ⟨halike.printed origin _, rfl⟩
  | some tx =>
    unfold Engine.emit
    rw [hout'.trans hout, hout]
    dsimp only
    split
    · exact ⟨halike.complete, rfl⟩
    · exact ⟨halike.fail _ _, rfl⟩

theorem meet (halike : e.Alike e') (h : Hub) (origin : Int) (d : Demand) :
    Twins (e.meet h origin d) (e'.meet h origin d) := by
  cases d with
  | nothing => exact ⟨halike.complete, rfl⟩
  | halt =>
    obtain ⟨hmachine⟩ := halike
    exact ⟨complete (e := { e with status := .halted }) (.of_machine hmachine), rfl⟩
  | input mode => exact halike.obtain h origin mode
  | output v => exact halike.emit h origin v

/-- Both attempt the same instruction. -/
theorem attempt (halike : e.Alike e') (h : Hub) : Twins (e.attempt h) (e'.attempt h) := by
  have hpc : e'.machine.pc = e.machine.pc := halike.pc
  have hstarted : Alike { e with started := true } { e' with started := true } := by
    obtain ⟨hmachine⟩ := halike
    exact .of_machine (e := { e with started := true }) hmachine
  unfold Engine.attempt
  dsimp only
  rw [hpc]
  rcases hstarted.act Exec.blind_decode with
    ⟨f, n, n', hact, hact', hn⟩ | ⟨i, n, n', hact, hact', hn⟩
  · rw [hact, hact']
    exact ⟨hn.fail _ f, rfl⟩
  · rw [hact, hact']
    dsimp only
    rcases (hn.record e.machine.pc i).act (Exec.blind_execute i) with
      ⟨f, k, k', hact, hact', hk⟩ | ⟨d, k, k', hact, hact', hk⟩
    · rw [hact, hact']
      exact ⟨hk.fail _ f, rfl⟩
    · rw [hact, hact']
      exact hk.meet h _ d

/-- **A step does not see the layout.** -/
theorem step (halike : e.Alike e') (h : Hub) : Twins (e.step h) (e'.step h) := by
  have hstatus : e'.status = e.status := halike.status
  have hreq : e'.request = e.request := halike.request
  unfold Engine.step
  rw [hstatus, hreq]
  split
  · split
    · exact halike.receive h _
    · exact halike.attempt h
  · exact ⟨halike, rfl⟩

/-- A run does not see it either. -/
theorem runFor (halike : e.Alike e') (fuel : Nat) (h : Hub) :
    Twins (e.runFor fuel h) (e'.runFor fuel h) := by
  induction fuel generalizing e e' h with
  | zero => exact ⟨halike, rfl⟩
  | succ fuel ih =>
    -- both take a step and are suspended, or both go on
    have hnext := halike.step h
    rw [Engine.runFor, Engine.runFor]
    rw [show e'.isRunning = e.isRunning from congrArg (· == Status.running) halike.status]
    split
    · dsimp only
      rw [hnext.engine.request, hnext.hub]
      split
      · exact ⟨hnext.engine, rfl⟩
      · exact ih hnext.engine _
    · exact ⟨halike, rfl⟩

/-! ### Calls -/

theorem report (halike : e.Alike e') : e'.report = e.report := by
  cases halike
  rfl

/-- Access to memory gives the same on both. -/
theorem actAt {α : Type} {action : Int → Exec α} (halike : e.Alike e') (place : Offer)
    (hblind : ∀ v, (action v).Blind) :
    (e'.actAt place action).1 = (e.actAt place action).1 ∧
      (e.actAt place action).2.Alike (e'.actAt place action).2 := by
  unfold Engine.actAt
  cases place.resolve with
  | error f => exact ⟨rfl, halike⟩
  | ok a =>
    rcases halike.act (hblind a.toInt) with
      ⟨f, n, n', hact, hact', hn⟩ | ⟨x, n, n', hact, hact', hn⟩
    · dsimp only
      rw [hact, hact']
      exact ⟨rfl, hn⟩
    · dsimp only
      rw [hact, hact']
      exact ⟨rfl, hn⟩

/-- **No call sees the layout**: both give the same answer and go on alike. -/
theorem perform (halike : e.Alike e') (h : Hub) (c : Call) :
    (e'.perform h c).1 = (e.perform h c).1 ∧ Twins (e.perform h c).2 (e'.perform h c).2 := by
  cases c with
  | step => exact ⟨(halike.step h).engine.report, halike.step h⟩
  | run fuel => exact ⟨(halike.runFor fuel h).engine.report, halike.runFor fuel h⟩
  | get place =>
    obtain ⟨hanswer, hnext⟩ := halike.actAt place Exec.blind_load
    exact ⟨congrArg Answer.value hanswer, hnext, rfl⟩
  | set place v =>
    obtain ⟨hanswer, hnext⟩ := halike.actAt place (Exec.blind_save · v)
    exact ⟨congrArg Answer.stored hanswer, hnext, rfl⟩
  | bindInput rx =>
    obtain ⟨hmachine⟩ := halike
    unfold Engine.perform bindInput
    dsimp only
    split
    · exact ⟨rfl, .of_machine hmachine, rfl⟩
    · exact ⟨rfl, .of_machine (e := { e with input := some rx }) hmachine, rfl⟩
  | bindOutput tx =>
    obtain ⟨hmachine⟩ := halike
    unfold Engine.perform bindOutput
    dsimp only
    split
    · exact ⟨rfl, .of_machine hmachine, rfl⟩
    · exact ⟨rfl, .of_machine (e := { e with output := some tx }) hmachine, rfl⟩
  | takeInput =>
    obtain ⟨hmachine⟩ := halike
    exact ⟨rfl, .of_machine (e := { e with input := none }) hmachine, rfl⟩
  | takeOutput =>
    obtain ⟨hmachine⟩ := halike
    exact ⟨rfl, .of_machine (e := { e with output := none }) hmachine, rfl⟩
  | cloneOutput | close =>
    obtain ⟨hmachine⟩ := halike
    exact ⟨rfl, .of_machine hmachine, rfl⟩

end Alike

/-! ### Lives -/

namespace Twins

variable {s t u : Engine × Hub}

theorem symm (htwins : Twins s t) : Twins t s := ⟨htwins.engine.symm, htwins.hub.symm⟩

theorem trans (htwins : Twins s t) (htwins' : Twins t u) : Twins s u :=
  ⟨htwins.engine.trans htwins'.engine, htwins'.hub.trans htwins.hub⟩

/-- The same event in the life of both. -/
theorem happen (htwins : Twins s t) (event : Event) :
    Twins (happen s event) (happen t event) := by
  cases event with
  | call c =>
    show Twins (s.1.perform s.2 c).2 (t.1.perform t.2 c).2
    rw [htwins.hub]
    exact (htwins.engine.perform s.2 c).2
  | outside change => exact ⟨htwins.engine, congrArg change htwins.hub⟩

end Twins

/-- The engine is only asked for a value in its memory. -/
def Event.isPeek : Event → Bool
  | .call (.get _) => true
  | _ => false

/-- Reading a value may change the layout, and changes nothing else. -/
theorem alike_peek (e : Engine) (place : Offer) : e.Alike (e.actAt place Exec.load).2 := by
  unfold actAt
  cases place.resolve with
  | error f => exact .refl e
  | ok a =>
    dsimp only
    rw [act_load]
    exact .of_machine ⟨Machine.config_read e.machine a, rfl⟩

theorem twins_peek (s : Engine × Hub) {event : Event} (hpeek : event.isPeek = true) :
    Twins s (happen s event) := by
  unfold Event.isPeek at hpeek
  split at hpeek
  · exact ⟨alike_peek s.1 _, rfl⟩
  · cases hpeek

/-- **Peeking is hidden**: without it, everything is alike. -/
theorem Twins.live_filter {s t : Engine × Hub} (htwins : Twins s t) (events : List Event) :
    Twins (live s events) (live t (events.filter (!·.isPeek))) := by
  induction events generalizing s t with
  | nil => exact htwins
  | cons event events ih =>
    cases hpeek : event.isPeek with
    | true =>
      -- the one that is not peeked at waits for the other
      rw [List.filter_cons_of_neg (by simp [hpeek])]
      exact ih ((twins_peek s hpeek).symm.trans htwins)
    | false =>
      rw [List.filter_cons_of_pos (by simp [hpeek])]
      exact ih (htwins.happen event)

/-- **The layout of memory and peeking at it are hidden.**  One engine holds an image, another one
    the same image with `k` zeros at its end, and both go through the same events but for the calls
    that ask for a value in memory, which may come at any time and any number of times.  Then both
    are in the same state, but for the layout of their memories, with the same value in every cell,
    and the channels are the same; whatever is asked of the one or the other next, the answer is
    the same. -/
theorem alike_live_of_padded (cells : List Int) (k : Nat) (tracing : Bool) (console : Console)
    (h : Hub) (events events' : List Event)
    (hsame : events.filter (!·.isPeek) = events'.filter (!·.isPeek)) :
    let s := live (ofCells cells tracing console, h) events
    let t := live (ofCells (cells ++ List.replicate k 0) tracing console, h) events'
    s.1.Alike t.1 ∧ t.2 = s.2 ∧ ∀ c, (t.1.perform t.2 c).1 = (s.1.perform s.2 c).1 := by
  intro s t
  have hstart : Twins (ofCells (cells ++ List.replicate k 0) tracing console, h)
      (ofCells cells tracing console, h) := by
    have hmachine := Machine.alike_ofCells_append_zeros cells k
    exact Twins.symm ⟨.of_machine (e := ofCells cells tracing console) hmachine, rfl⟩
  -- both are alike to the engine that holds the image and is not peeked at
  have hquiet : Twins s (live (ofCells cells tracing console, h) (events.filter (!·.isPeek))) :=
    Twins.live_filter ⟨.refl _, rfl⟩ events
  have hpadded : Twins t (live (ofCells cells tracing console, h) (events.filter (!·.isPeek))) := by
    rw [hsame]
    exact hstart.live_filter events'
  have htwins : Twins s t := hquiet.trans hpadded.symm
  refine ⟨htwins.engine, htwins.hub, fun c => ?_⟩
  rw [htwins.hub]
  exact (htwins.engine.perform s.2 c).1

/-- Zeros beyond the limit of the flat part, one of which is looked at, and so is a cell that the
    shorter image does not have. -/
theorem alike_live_of_padded_beyond_limit :
    let s := live (ofCells [4, 3, 99, 7] true {}, {}) [.call .step]
    let t := live (ofCells ([4, 3, 99, 7] ++ List.replicate 2000000 0) true {}, {})
      [.call (.get (.int 1500000)), .call .step, .call (.get (.int 9))]
    s.1.console.outputs = [7] ∧ s.1.Alike t.1 ∧ t.2 = s.2 ∧
      ∀ c, (t.1.perform t.2 c).1 = (s.1.perform s.2 c).1 :=
  ⟨rfl, alike_live_of_padded [4, 3, 99, 7] 2000000 true {} {} [.call .step] _ rfl⟩

end Engine

end Intcode
