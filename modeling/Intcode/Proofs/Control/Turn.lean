import Intcode.Control.Loop
import Intcode.Proofs.Between
import Intcode.Proofs.Turns

namespace Intcode.Control

/-!
# Turns of a controller loop

What a turn of the controller and a turn of its engine's worker can be, and who holds which end of
the two channels between them.

* `Loop.ControllerTurn`, `Loop.EngineTurn`  — the ways a turn can go
* `Loop.controllerTurn`, `Loop.Attached.engineTurn`  — every turn is one of them
* `Loop.Attached`        — who holds which end
* `Loop.Attached.stepController`, `Loop.Attached.stepEngine` — a turn keeps it so
* `Loop.Attached.of_idle_engine`, `Loop.of_idle_controller` — parties that cannot take a turn
* `Loop.attached_start`  — it is so at the start
-/

/-- The controller has not hung up the commands. -/
def Stage.holdsCommands : Stage → Bool
  | .sending _ | .reading _ | .answering _ | .closingCommands => true
  | .closingReadings | .joining | .done => false

/-- The controller has not hung up the readings. -/
def Stage.holdsReadings : Stage → Bool
  | .sending _ | .reading _ | .answering _ | .closingCommands | .closingReadings => true
  | .joining | .done => false

namespace Loop

variable {σ : Type} {c : Controller σ} {l : Loop σ} {phase : Phase}

/-! ### Turns of the controller -/

/-- The ways a turn of the controller can go, with the loop after it. -/
inductive ControllerTurn (c : Controller σ) (l : Loop σ) : Loop σ → Prop where
  /-- All commands have been sent. -/
  | settles (hstage : l.stage = .sending []) : ControllerTurn c l { l with stage := .reading [] }
  | sends {v : Int} {commands : List Int} (hstage : l.stage = .sending (v :: commands))
      (hlistens : l.network.hub.listens commandSender = true)
      (hlt : 0 < l.network.hub.channels.size) :
    ControllerTurn c l
      (l.withHub (l.network.hub.refill 0 ((l.network.hub.channel 0).buffer.push v))
        (.sending commands))
  /-- A command is refused. -/
  | isRefused {v : Int} {commands : List Int} (hstage : l.stage = .sending (v :: commands))
      (hdeaf : l.network.hub.listens commandSender = false) :
    ControllerTurn c l { l with stage := .closingCommands }
  | takes {group : List Int} {v : Int} {buffer : Fifo Int} (hstage : l.stage = .reading group)
      (hlt : 1 < l.network.hub.channels.size)
      (hcontent : l.network.hub.content 1 = v :: buffer.toList) :
    ControllerTurn c l
      (l.withHub (l.network.hub.refill 1 buffer)
        (if (group ++ [v]).length < c.groupSize then .reading (group ++ [v])
          else .answering (group ++ [v])))
  /-- There are no more readings. -/
  | readsNoMore {group : List Int} (hstage : l.stage = .reading group)
      (hclosed : (l.network.hub.channel 1).receiverOpen = false ∨
        l.network.hub.content 1 = [] ∧ (l.network.hub.channel 1).senders = 0) :
    ControllerTurn c l { l with stage := .closingCommands }
  | answers {group commands : List Int} {state : σ} (hstage : l.stage = .answering group)
      (hanswer : c.answer l.state group = (.ok commands, state)) :
    ControllerTurn c l { l with state, rounds := l.rounds + 1, stage := .sending commands }
  /-- There is no answer. -/
  | fails {group : List Int} {e : Error} {state : σ} (hstage : l.stage = .answering group)
      (hanswer : c.answer l.state group = (.error e, state)) :
    ControllerTurn c l { l with state, failure := some e, stage := .closingCommands }
  | closesCommands (hstage : l.stage = .closingCommands) :
    ControllerTurn c l (l.withHub (l.network.hub.closeSender commandSender) .closingReadings)
  | closesReadings (hstage : l.stage = .closingReadings) :
    ControllerTurn c l
      (l.withHub (l.network.hub.closeReceiver readingReceiver)
        (if l.failure.isSome then .done else .joining))
  | joins (hstage : l.stage = .joining) (hended : l.engineEnded = true) :
    ControllerTurn c l { l with stage := .done }

/-- **Every turn of the controller is one of these.** -/
theorem controllerTurn (hcan : l.canStep .controller = true) :
    ControllerTurn c l (l.step c .controller) := by
  show ControllerTurn c l (controllerStep c l l.stage)
  unfold canStep at hcan
  rcases hstage : l.stage with commands | group | group | _ | _ | _ | _
  · cases commands with
    | nil => exact .settles hstage
    | cons v commands =>
      dsimp only [controllerStep]
      rcases l.network.hub.send_cases commandSender v with
        ⟨hlistens, hlt, hsend⟩ | ⟨hdeaf, e, hsend⟩
      · rw [hsend]
        exact .sends hstage hlistens hlt
      · rw [hsend]
        exact .isRefused hstage hdeaf
  · dsimp only [controllerStep]
    rcases l.network.hub.recv_cases readingReceiver with
      ⟨v, buffer, hopen, hcontent, hrecv⟩ | ⟨e, hclosed, hrecv⟩ | ⟨_, _, _, hrecv⟩
    · rw [hrecv]
      exact .takes hstage (Hub.lt_size_of_receiverOpen hopen) hcontent
    · rw [hrecv]
      exact .readsNoMore hstage hclosed
    · -- who would have to wait does not take a turn
      rw [hstage] at hcan
      exact absurd hrecv ((Hub.isReady_iff _ _).1 hcan)
  · show ControllerTurn c l (deliver _ (c.answer l.state group).1)
    cases hanswer : (c.answer l.state group).1 with
    | error e => exact .fails hstage (Prod.ext hanswer rfl)
    | ok commands => exact .answers hstage (Prod.ext hanswer rfl)
  · exact .closesCommands hstage
  · exact .closesReadings hstage
  · rw [hstage] at hcan
    dsimp only [controllerStep]
    rw [if_pos hcan]
    exact .joins hstage hcan
  · rw [hstage] at hcan
    cases hcan

/-! ### The ends of the channels -/

/-- Who holds which end: the controller by its stage, the engine by the phase of its worker. -/
structure Attached (c : Controller σ) (phase : Phase) (l : Loop σ) : Prop where
  engines : l.network.engines.size = 1
  worker : l.network.workers[0]? = some { worker c with phase }
  channels : l.network.hub.channels.size = 2
  input : l.engine.input = if phase.holdsInput then some ⟨0⟩ else none
  output : l.engine.output = if phase.holdsOutput then some ⟨1, 0⟩ else none
  request : ∀ r, l.engine.request = some r → r.receiver = ⟨0⟩
  running : l.engine.isRunning = true ↔ phase = .running
  commands : l.network.hub.ends 0 =
    (#[l.stage.holdsCommands], l.stage.holdsCommands.toNat, phase.holdsInput)
  readings : l.network.hub.ends 1 =
    (#[phase.holdsOutput], phase.holdsOutput.toNat, l.stage.holdsReadings)

/-- The ways a turn of the worker can go, with the engine, the channels and the phase after it. -/
inductive EngineTurn (l : Loop σ) : Phase → Engine × Hub → Phase → Prop where
  | steps :
    EngineTurn l .running (l.engine.step l.network.hub) (l.engine.step l.network.hub).1.phase
  | closesOutput :
    EngineTurn l .releasingOutput
      ({ l.engine with output := none }, l.network.hub.closeSender ⟨1, 0⟩) .releasingInput
  | closesInput :
    EngineTurn l .releasingInput
      ({ l.engine with input := none }, l.network.hub.closeReceiver ⟨0⟩) .ended

namespace Attached

theorem lt_engines (ha : Attached c phase l) : 0 < l.network.engines.size := by
  rw [ha.engines]
  decide

theorem lt_channels (ha : Attached c phase l) : 1 < l.network.hub.channels.size := by
  rw [ha.channels]
  decide

/-- What a turn of the worker makes pass through the engine is what a step of the engine does. -/
theorem passing_eq (ha : Attached c phase l) (hphase : phase = .running)
    (look : Engine → Hub → Option Int) :
    l.network.passing look 0 0 = (look l.engine l.network.hub).toList :=
  (Network.passing_running look ha.worker hphase 0).trans (if_pos rfl)

/-- A worker that lets go of its ends makes nothing pass. -/
theorem passing_eq_nil (ha : Attached c phase l) (hphase : phase ≠ .running)
    (look : Engine → Hub → Option Int) : l.network.passing look 0 0 = [] :=
  Network.passing_of_ne_running look ha.worker hphase 0

/-- A worker that has not noticed the end of its engine has left it between the channels. -/
theorem plugged (ha : Attached c .running l) : Engine.Plugged ⟨0⟩ ⟨1, 0⟩ l.engine :=
  ⟨ha.input, ha.output, ha.request⟩

/-- **Every turn of the worker is one of these.** -/
theorem engineTurn (ha : Attached c phase l) (hcan : l.canStep .engine = true) :
    ∃ result phase', EngineTurn l phase result phase' ∧
      l.step c .engine = { l with network := l.network.after 0 0 result phase' } := by
  have hstep : l.step c .engine = { l with network := l.network.step 0 } := rfl
  rw [hstep]
  cases phase with
  | running =>
    rw [Network.step_running ha.worker rfl ha.lt_engines]
    exact ⟨_, _, .steps, rfl⟩
  | releasingOutput =>
    rw [Network.step_releasingOutput ha.worker rfl, Network.releaseOutput_eq]
    have hout : (l.network.engine 0).output = some ⟨1, 0⟩ := ha.output
    exact ⟨_, _, .closesOutput, by simp only [Loop.worker, hout]; rfl⟩
  | releasingInput =>
    rw [Network.step_releasingInput ha.worker rfl ha.lt_engines, Network.releaseInput_eq]
    have hin : (l.network.engine 0).input = some ⟨0⟩ := ha.input
    exact ⟨_, _, .closesInput, by simp only [Loop.worker, hin]; rfl⟩
  | ended =>
    have hidle : l.canStep .engine = false := by
      show l.network.canStep 0 = false
      unfold Network.canStep
      rw [ha.worker]
    rw [hidle] at hcan
    cases hcan

/-- The worker has had a turn that leaves its engine with these ends. -/
theorem afterEngine (ha : Attached c phase l) {result : Engine × Hub} {phase' : Phase}
    (hsize : result.2.channels.size = l.network.hub.channels.size)
    (hinput : result.1.input = if phase'.holdsInput then some ⟨0⟩ else none)
    (houtput : result.1.output = if phase'.holdsOutput then some ⟨1, 0⟩ else none)
    (hrequest : ∀ r, result.1.request = some r → r.receiver = ⟨0⟩)
    (hrunning : result.1.isRunning = true ↔ phase' = .running)
    (hcommands : result.2.ends 0 =
      (#[l.stage.holdsCommands], l.stage.holdsCommands.toNat, phase'.holdsInput))
    (hreadings : result.2.ends 1 =
      (#[phase'.holdsOutput], phase'.holdsOutput.toNat, l.stage.holdsReadings)) :
    Attached c phase' { l with network := l.network.after 0 0 result phase' } := by
  have hengine : (l.network.after 0 0 result phase').engine 0 = result.1 :=
    Network.engine_after ha.lt_engines result phase' 0
  constructor
  · exact (Array.size_setIfInBounds ..).trans ha.engines
  · rw [Network.worker_after, if_pos rfl, ha.worker]
    rfl
  · exact hsize.trans ha.channels
  · rw [← hinput, ← hengine]
    rfl
  · rw [← houtput, ← hengine]
    rfl
  · rw [← hengine] at hrequest
    exact hrequest
  · rw [← hengine] at hrunning
    exact hrunning
  · exact hcommands
  · exact hreadings

/-- **A turn of the worker keeps the ends together.** -/
theorem stepEngine (ha : Attached c phase l) {result : Engine × Hub} {phase' : Phase}
    (hturn : EngineTurn l phase result phase') :
    Attached c phase' { l with network := l.network.after 0 0 result phase' } := by
  have hlt := ha.lt_channels
  cases hturn with
  | steps =>
    -- a step hangs nobody up, and the worker lets go of nothing before its next turn
    have hp := ha.plugged.step l.network.hub
    apply ha.afterEngine (Engine.size_step _ _)
    · rw [Engine.holdsInput_phase]
      exact hp.input
    · rw [Engine.holdsOutput_phase]
      exact hp.output
    · exact hp.request
    · exact (Engine.phase_eq_running_iff _).symm
    · rw [Engine.ends_step, Engine.holdsInput_phase]
      exact ha.commands
    · rw [Engine.ends_step, Engine.holdsOutput_phase]
      exact ha.readings
  | closesOutput =>
    apply ha.afterEngine (Hub.size_put _ _ _) ha.input rfl ha.request
    · exact iff_of_false (fun hrun => nomatch ha.running.1 hrun) nofun
    · rw [Hub.ends_closeSender _ ⟨1, 0⟩ hlt]
      exact ha.commands
    · rw [Hub.ends_closeSender _ ⟨1, 0⟩ hlt]
      exact Channel.ends_hangUp ha.readings
  | closesInput =>
    apply ha.afterEngine (Hub.size_put _ _ _) rfl ha.output ha.request
    · exact iff_of_false (fun hrun => nomatch ha.running.1 hrun) nofun
    · rw [Hub.ends_closeReceiver _ ⟨0⟩ (Nat.lt_of_succ_lt hlt)]
      exact Channel.ends_closeReceiver ha.commands
    · rw [Hub.ends_closeReceiver _ ⟨0⟩ (Nat.lt_of_succ_lt hlt)]
      exact ha.readings

/-- The controller has had a turn that leaves the channels with these ends. -/
theorem afterController (ha : Attached c phase l) {hub : Hub} {l' : Loop σ}
    (hnetwork : l'.network = { l.network with hub })
    (hsize : hub.channels.size = l.network.hub.channels.size)
    (hcommands : hub.ends 0 =
      (#[l'.stage.holdsCommands], l'.stage.holdsCommands.toNat, phase.holdsInput))
    (hreadings : hub.ends 1 =
      (#[phase.holdsOutput], phase.holdsOutput.toNat, l'.stage.holdsReadings)) :
    Attached c phase l' := by
  have hengine : l'.engine = l.engine := by
    unfold engine
    rw [hnetwork]
    rfl
  constructor
  · rw [hnetwork]
    exact ha.engines
  · rw [hnetwork]
    exact ha.worker
  · rw [hnetwork]
    exact hsize.trans ha.channels
  · rw [hengine]
    exact ha.input
  · rw [hengine]
    exact ha.output
  · rw [hengine]
    exact ha.request
  · rw [hengine]
    exact ha.running
  · rw [hnetwork]
    exact hcommands
  · rw [hnetwork]
    exact hreadings

/-- **A turn of the controller keeps the ends together.** -/
theorem stepController (ha : Attached c phase l) {l' : Loop σ} (hturn : ControllerTurn c l l') :
    Attached c phase l' := by
  have hlt := ha.lt_channels
  have hcommands := ha.commands
  have hreadings := ha.readings
  cases hturn with
  | settles hstage | isRefused hstage | readsNoMore hstage | answers hstage | fails hstage
  | joins hstage =>
    rw [hstage] at hcommands hreadings
    exact ha.afterController rfl rfl hcommands hreadings
  | sends hstage hlistens hlt =>
    rw [hstage] at hcommands hreadings
    rw [← Hub.ends_refill hlt] at hcommands hreadings
    exact ha.afterController rfl (Hub.size_refill _ _ _) hcommands hreadings
  | takes hstage hlt hcontent =>
    -- whether the group is full now or not, the controller stays in its loop
    rw [hstage] at hcommands hreadings
    rw [← Hub.ends_refill hlt] at hcommands hreadings
    refine ha.afterController rfl (Hub.size_refill _ _ _) ?_ ?_
    · rw [hcommands]
      unfold withHub
      dsimp only
      split <;> rfl
    · rw [hreadings]
      unfold withHub
      dsimp only
      split <;> rfl
  | closesCommands hstage =>
    rw [hstage] at hcommands hreadings
    refine ha.afterController rfl (Hub.size_put _ _ _) ?_ ?_
    · rw [Hub.ends_closeSender _ commandSender (Nat.lt_of_succ_lt hlt)]
      exact Channel.ends_hangUp hcommands
    · rw [Hub.ends_closeSender _ commandSender (Nat.lt_of_succ_lt hlt)]
      exact hreadings
  | closesReadings hstage =>
    rw [hstage] at hcommands hreadings
    refine ha.afterController rfl (Hub.size_put _ _ _) ?_ ?_
    · rw [Hub.ends_closeReceiver _ readingReceiver hlt, if_neg (by decide)]
      unfold withHub
      dsimp only
      split <;> exact hcommands
    · rw [Hub.ends_closeReceiver _ readingReceiver hlt, if_pos (by decide)]
      unfold withHub
      dsimp only
      split <;> exact Channel.ends_closeReceiver hreadings

/-! ### Parties that cannot take a turn -/

/-- A worker that cannot take a turn has ended, or its engine waits for a command. -/
theorem of_idle_engine (ha : Attached c phase l) (hidle : l.canStep .engine = false) :
    phase = .ended ∨ phase = .running ∧ ∃ r, l.engine.request = some r ∧ r.receiver = ⟨0⟩ ∧
      l.network.hub.isReady ⟨0⟩ = false := by
  have hcan : l.network.canStep 0 = false := hidle
  cases phase with
  | ended => exact .inl rfl
  | releasingOutput | releasingInput =>
    unfold Network.canStep at hcan
    rw [ha.worker] at hcan
    cases hcan
  | running =>
    rw [Network.canStep_running ha.worker rfl] at hcan
    simp only [Loop.worker] at hcan
    cases hreq : (l.network.engine 0).request with
    | none =>
      rw [hreq] at hcan
      cases hcan
    | some r =>
      have hrx := ha.request r hreq
      simp only [hreq, hrx] at hcan
      exact .inr ⟨rfl, r, hreq, hrx, hcan⟩

end Attached

/-- A controller that cannot take a turn waits for a reading or for the worker, or is done. -/
theorem of_idle_controller (hidle : l.canStep .controller = false) :
    (∃ group, l.stage = .reading group ∧ l.network.hub.isReady readingReceiver = false) ∨
      l.stage = .joining ∧ l.engineEnded = false ∨ l.stage = .done := by
  unfold canStep at hidle
  dsimp only at hidle
  cases hstage : l.stage with
  | sending | answering | closingCommands | closingReadings =>
    rw [hstage] at hidle
    cases hidle
  | reading group =>
    rw [hstage] at hidle
    exact .inl ⟨group, rfl, hidle⟩
  | joining =>
    rw [hstage] at hidle
    exact .inr (.inl ⟨rfl, hidle⟩)
  | done => exact .inr (.inr rfl)

/-! ### The start -/

/-- Patches change the memory of an engine and no more. -/
theorem patch_keeps (patches : List (Int × Int)) {e e' : Engine}
    (hpatch : e.patch patches = .ok e') : e'.ports = e.ports ∧ e'.status = e.status := by
  induction patches generalizing e with
  | nil =>
    cases hpatch
    exact ⟨rfl, rfl⟩
  | cons patch patches ih =>
    unfold Engine.patch at hpatch
    have hports := Engine.ports_act e (Exec.save patch.1 patch.2)
    have hstatus := Engine.status_act e (Exec.save patch.1 patch.2)
    split at hpatch
    · rename_i hset
      unfold Engine.set at hset
      rw [hset] at hports hstatus
      obtain ⟨hports', hstatus'⟩ := ih hpatch
      exact ⟨hports'.trans hports, hstatus'.trans hstatus⟩
    · cases hpatch

/-- What the parties of a loop start with. -/
theorem of_start {s : σ} {program : Program.Source} (hstart : start c s program = .ok l) :
    ∃ e : Engine, e.request = none ∧ e.isRunning = true ∧
      l = opened (wire c e) s (c.opening s) := by
  unfold start at hstart
  split at hstart
  · cases hstart
  · rename_i cells himage
    split at hstart
    · cases hstart
    · rename_i e hpatch
      obtain ⟨hports, hstatus⟩ := patch_keeps _ hpatch
      refine ⟨e, congrArg Prod.fst hports, ?_, (Except.ok.inj hstart).symm⟩
      exact (Engine.isRunning_iff e).2 hstatus

/-- At the start everybody holds the ends they are given. -/
theorem attached_start {e : Engine} (hreq : e.request = none) (hrun : e.isRunning = true) (s : σ)
    (opening : Except Error (List Int)) : Attached c .running (opened (wire c e) s opening) := by
  have hrequest (r : Request) (hr : e.request = some r) : r.receiver = ⟨0⟩ := by
    rw [hreq] at hr
    cases hr
  have hrunning : e.isRunning = true ↔ Phase.running = .running := ⟨fun _ => rfl, fun _ => hrun⟩
  cases opening with
  | ok commands => exact ⟨rfl, rfl, rfl, rfl, rfl, hrequest, hrunning, rfl, rfl⟩
  | error err => exact ⟨rfl, rfl, rfl, rfl, rfl, hrequest, hrunning, rfl, rfl⟩

end Loop

end Intcode.Control
