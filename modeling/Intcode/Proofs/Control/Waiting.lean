import Intcode.Control.Scripted
import Intcode.Proofs.Control.Turn

namespace Intcode.Control.Loop

/-!
# Who waits for whom in a controller loop

As long as the controller is in its loop, the two parties can come to wait for each other.  Once it
has left the loop and has hung up on both channels, the engine waits for nothing any more: it is
stopped where it would, and the controller does not take that for an error.

* `Waiting`               — each party waits for the other
* `Unblocked`             — the engine does not wait, and is stopped where it would
* `Attached.waiting`      — when neither party can take a turn, each waits for the other
* `Attached.unblocked`    — nobody waits for a controller that has hung up
* `Joined.result_eq`      — what a controller that is done reports of its engine
* `waiting_or_unblocked`  — the same for every schedule
-/

variable {σ : Type} {c : Controller σ} {l l' : Loop σ} {phase : Phase}

/-- Each party waits for the other: the engine in an input instruction, the controller in its loop.
    Both channels are empty, and the controller holds its ends of them. -/
structure Waiting (l : Loop σ) : Prop where
  running : l.engine.isRunning = true
  request : ∃ r, l.engine.request = some r ∧ r.receiver = ⟨0⟩
  reading : ∃ group, l.stage = .reading group
  noCommand : l.network.hub.content 0 = []
  noReading : l.network.hub.content 1 = []
  commandSender : (l.network.hub.channel 0).isOpen 0 = true
  readingReceiver : (l.network.hub.channel 1).receiverOpen = true

/-- The controller has hung up on both channels, and its worker can take a turn until it ends.  An
    input instruction that finds no command stops the engine, and so does an output instruction. -/
structure Unblocked (c : Controller σ) (l : Loop σ) : Prop where
  commandSender : (l.network.hub.channel 0).isOpen 0 = false
  readingReceiver : (l.network.hub.channel 1).receiverOpen = false
  canStep : l.engineEnded = false → l.canStep .engine = true
  asks : ∀ r e, Engine.Awaiting l.engine r e → l.network.hub.content 0 = [] →
    (l.step c .engine).engine.status = .faulted .inputClosed r.origin
  tells : ∀ tx origin v told, l.engine.move = .tell tx origin v told →
    (l.step c .engine).engine.status = .faulted .outputClosed origin

namespace Attached

/-! ### The ends of the controller -/

/-- The sending end of the commands is open until the controller hangs it up. -/
theorem isOpen_commands (ha : Attached c phase l) :
    (l.network.hub.channel 0).isOpen 0 = l.stage.holdsCommands := by
  have hhandles : (l.network.hub.channel 0).handles = #[l.stage.holdsCommands] :=
    congrArg (·.1) ha.commands
  unfold Channel.isOpen
  rw [hhandles]
  rfl

/-- The receiving end of the readings is open until the controller hangs it up. -/
theorem receiverOpen_readings (ha : Attached c phase l) :
    (l.network.hub.channel 1).receiverOpen = l.stage.holdsReadings :=
  congrArg (·.2.2) ha.readings

/-- Whether the worker has ended is told by its phase. -/
theorem engineEnded_iff (ha : Attached c phase l) : l.engineEnded = true ↔ phase = .ended := by
  unfold engineEnded Worker.isAlive
  rw [ha.worker]
  cases phase <;> simp

/-- As long as there are commands to wait for, the controller has not hung them up. -/
theorem holdsCommands_of_wait (ha : Attached c phase l)
    (hwait : l.network.hub.isReady ⟨0⟩ = false) : l.stage.holdsCommands = true := by
  have hsenders := (Hub.open_of_isReady_eq_false hwait).2
  rw [Hub.senders_eq, ha.commands] at hsenders
  apply eq_true_of_ne_false
  intro hnone
  rw [hnone] at hsenders
  exact hsenders rfl

/-! ### Parties that wait -/

/-- **When neither party can take a turn and the controller is not done, each waits for the
    other.** -/
theorem waiting (ha : Attached c phase l) (hidle : ∀ party, l.canStep party = false)
    (hstage : l.stage ≠ .done) : l.Waiting := by
  rcases of_idle_controller (hidle .controller) with
    ⟨group, hreading, hwait⟩ | ⟨hjoining, halive⟩ | hdone
  · have hsenders : (l.network.hub.channel 1).senders ≠ 0 :=
      (Hub.open_of_isReady_eq_false hwait).2
    rw [Hub.senders_eq, ha.readings] at hsenders
    rcases ha.of_idle_engine (hidle .engine) with hended | ⟨hrunning, r, hreq, hrx, hwait'⟩
    · -- a worker that has ended has hung up the readings
      rw [hended] at hsenders
      exact absurd rfl hsenders
    · refine ⟨ha.running.2 hrunning, ⟨r, hreq, hrx⟩, ⟨group, hreading⟩,
        Hub.content_of_isReady_eq_false hwait', Hub.content_of_isReady_eq_false hwait, ?_, ?_⟩
      · rw [ha.isOpen_commands, hreading]
        rfl
      · rw [ha.receiverOpen_readings, hreading]
        rfl
  · -- nobody who joins the worker keeps the commands from it
    rcases ha.of_idle_engine (hidle .engine) with hended | ⟨_, _, _, _, hwait⟩
    · rw [ha.engineEnded_iff.2 hended] at halive
      cases halive
    · have hholds := ha.holdsCommands_of_wait hwait
      rw [hjoining] at hholds
      cases hholds
  · exact absurd hdone hstage

/-- A step of an engine that runs is what its turn does to it. -/
theorem engine_step (ha : Attached c .running l) :
    (l.step c .engine).engine = (l.engine.step l.network.hub).1 := by
  have hstep : l.network.step 0 = l.network.after 0 0 (l.engine.step l.network.hub)
      (l.engine.step l.network.hub).1.phase := Network.step_running ha.worker rfl ha.lt_engines
  show (l.network.step 0).engine 0 = _
  rw [hstep, Network.engine_after ha.lt_engines]
  rfl

/-- **Nobody waits for a controller that has hung up.** -/
theorem unblocked (ha : Attached c phase l) (hstage : l.stage.holdsReadings = false) :
    l.Unblocked c := by
  have hcommands : l.stage.holdsCommands = false := by
    cases hl : l.stage <;> simp_all [Stage.holdsReadings, Stage.holdsCommands]
  have hopen : (l.network.hub.channel 1).receiverOpen = false := by
    rw [ha.receiverOpen_readings, hstage]
  have hsenders : (l.network.hub.channel 0).senders = 0 := by
    rw [Hub.senders_eq, ha.commands, hcommands]
    rfl
  constructor
  · rw [ha.isOpen_commands, hcommands]
  · exact hopen
  · intro halive
    apply eq_true_of_ne_false
    intro hidle
    rcases ha.of_idle_engine hidle with hended | ⟨_, _, _, _, hwait⟩
    · rw [ha.engineEnded_iff.2 hended] at halive
      cases halive
    · have hholds := ha.holdsCommands_of_wait hwait
      rw [hcommands] at hholds
      cases hholds
  · intro r e hask hempty
    obtain rfl := ha.running.1 hask.isRunning
    have hrx : r.receiver.channel = 0 := congrArg ReceiverRef.channel (ha.plugged.receiver hask)
    rw [ha.engine_step, hask.step_givesUp hrx hempty hsenders]
    rfl
  · intro tx origin v told hmove
    obtain rfl := ha.running.1 (Engine.isRunning_of_move hmove nofun)
    have hlistens : l.network.hub.listens tx = false := by
      rw [ha.plugged.sender hmove]
      unfold Hub.listens Channel.listens
      rw [hopen, Bool.and_false]
    rw [ha.engine_step, Engine.step_refused hmove hlistens]
    rfl

end Attached

/-! ### The end of a loop -/

/-- Who holds which end; and when the controller is done and had an answer to everything, the
    worker has ended. -/
structure Joined (c : Controller σ) (phase : Phase) (l : Loop σ) : Prop where
  attached : Attached c phase l
  ended : l.stage = .done → l.failure = none → phase = .ended

namespace Joined

/-- A turn of the worker keeps it so. -/
theorem stepEngine (h : Joined c phase l) {result : Engine × Hub} {phase' : Phase}
    (hturn : EngineTurn l phase result phase') :
    Joined c phase' { l with network := l.network.after 0 0 result phase' } := by
  refine ⟨h.attached.stepEngine hturn, fun hdone hanswered => ?_⟩
  -- a worker that has ended has no turn
  obtain rfl := h.ended hdone hanswered
  cases hturn

/-- A turn of the controller keeps it so. -/
theorem stepController (h : Joined c phase l) (hturn : ControllerTurn c l l') :
    Joined c phase l' := by
  refine ⟨h.attached.stepController hturn, fun hdone hanswered => ?_⟩
  cases hturn with
  | settles | sends | isRefused | readsNoMore | answers | fails | closesCommands => cases hdone
  | takes =>
    unfold withHub at hdone
    dsimp only at hdone
    split at hdone <;> cases hdone
  | closesReadings =>
    -- without a failure the controller goes on to join the worker
    unfold withHub at hdone hanswered
    dsimp only at hdone hanswered
    rw [hanswered] at hdone
    cases hdone
  | joins _ hended => exact h.attached.engineEnded_iff.1 hended

/-- A turn of either party keeps it so. -/
theorem step (h : Joined c phase l) {party : Party} (hcan : l.canStep party = true) :
    ∃ phase', Joined c phase' (l.step c party) := by
  cases party with
  | controller => exact ⟨phase, h.stepController (controllerTurn hcan)⟩
  | engine =>
    obtain ⟨result, phase', hturn, hstep⟩ := h.attached.engineTurn (c := c) hcan
    rw [hstep]
    exact ⟨phase', h.stepEngine hturn⟩

theorem follow (h : Joined c phase l) (schedule : List Party) :
    ∃ phase', Joined c phase' (l.follow c schedule) := by
  induction schedule generalizing phase l with
  | nil => exact ⟨phase, h⟩
  | cons party schedule ih =>
    unfold Loop.follow
    split
    · rename_i hcan
      obtain ⟨_, hstep⟩ := h.step hcan
      exact ih hstep
    · exact ih h

/-- **A controller that has had an answer to everything reports the fault of its engine**, unless it
    is a hang-up. -/
theorem result_eq (h : Joined c phase l) (hdone : l.stage = .done) (hanswered : l.failure = none) :
    l.result = match l.engine.fault? with
      | some f => if f.isHangUp then .ok () else .error (.fault f)
      | none => .ok () := by
  obtain rfl := h.ended hdone hanswered
  have hworker := h.attached.worker
  have hfailure : l.network.failure? { worker c with phase := .ended } = l.engine.fault? := rfl
  unfold result
  simp only [hanswered, hdone, hworker]
  unfold Network.joinResult Network.unexpected? Network.isExpected
  rw [hfailure]
  cases l.engine.fault? with
  | none => rfl
  | some f => cases f <;> rfl

end Joined

/-! ### Schedules -/

/-- A controller that has hung up does not come back. -/
theorem holdsReadings_step (hstage : l.stage.holdsReadings = false) {party : Party}
    (hcan : l.canStep party = true) : (l.step c party).stage.holdsReadings = false := by
  cases party with
  | engine => exact hstage
  | controller =>
    have hturn := controllerTurn (c := c) hcan
    generalize l.step c .controller = l' at hturn ⊢
    cases hturn with
    | joins => rfl
    | settles hl | sends hl | isRefused hl | takes hl | readsNoMore hl | answers hl | fails hl
    | closesCommands hl | closesReadings hl =>
      rw [hl] at hstage
      cases hstage

theorem holdsReadings_follow (schedule : List Party) (hstage : l.stage.holdsReadings = false) :
    (l.follow c schedule).stage.holdsReadings = false := by
  induction schedule generalizing l with
  | nil => exact hstage
  | cons party schedule ih =>
    unfold follow
    split
    · rename_i hcan
      exact ih (holdsReadings_step hstage hcan)
    · exact ih hstage

/-- A loop that has not started is not done. -/
theorem joined_start {s : σ} {program : Program.Source} (hstart : start c s program = .ok l) :
    Joined c .running l := by
  obtain ⟨e, hreq, hrun, rfl⟩ := of_start hstart
  refine ⟨attached_start hreq hrun s (c.opening s), fun hdone _ => ?_⟩
  cases hopening : c.opening s <;> rw [hopening] at hdone <;> cases hdone

/-- **A controller that has left its loop waits for no engine that is blocked.**  When neither party
    can take a turn and the controller is not done, each waits for the other, both channels are
    empty, and the controller has hung up neither.  Once it has hung up both, whatever turns are
    taken after that, the engine is never blocked, and is stopped where it would be.  And a
    controller that had an answer to everything reports the fault of its engine, unless it is a
    hang-up. -/
theorem waiting_or_unblocked (c : Controller σ) (s : σ) (program : Program.Source) (l : Loop σ)
    (hstart : start c s program = .ok l) :
    (∀ schedule, (∀ party, (l.follow c schedule).canStep party = false) →
      (l.follow c schedule).stage ≠ .done → (l.follow c schedule).Waiting) ∧
    (∀ schedule more, (l.follow c schedule).stage = .joining ∨ (l.follow c schedule).stage = .done →
      ((l.follow c schedule).follow c more).Unblocked c) ∧
    (∀ schedule, (l.follow c schedule).stage = .done → (l.follow c schedule).failure = none →
      (l.follow c schedule).result = match (l.follow c schedule).engine.fault? with
        | some f => if f.isHangUp then .ok () else .error (.fault f)
        | none => .ok ()) := by
  refine ⟨fun schedule hidle hstage => ?_, fun schedule more hleft => ?_,
    fun schedule hdone hanswered => ?_⟩
  · obtain ⟨_, hjoined⟩ := (joined_start hstart).follow schedule
    exact hjoined.attached.waiting hidle hstage
  · have hclosed : (l.follow c schedule).stage.holdsReadings = false := by
      rcases hleft with hjoining | hdone
      · rw [hjoining]
        rfl
      · rw [hdone]
        rfl
    obtain ⟨_, hbefore⟩ := (joined_start hstart).follow schedule
    obtain ⟨_, hjoined⟩ := hbefore.follow more
    exact hjoined.attached.unblocked (holdsReadings_follow more hclosed)
  · obtain ⟨_, hjoined⟩ := (joined_start hstart).follow schedule
    exact hjoined.result_eq hdone hanswered

/-- A program that emits a value and asks for one. -/
def offering : List Int := [104, 1, 3, 0, 99]

/-- A controller that takes the value and answers nothing waits with the engine; one that has no
    answer hangs up, which stops the engine; and the fault of a program that has no first
    instruction is reported. -/
theorem waiting_or_unblocked_of_offering :
    (∃ l, start (Scripted.controller 1) { script := some [] } (.cells offering) = .ok l ∧
      (l.follow (Scripted.controller 1)
        (List.replicate 2 .engine ++ List.replicate 4 .controller)).Waiting) ∧
    (∃ l, start (Scripted.controller 1) {} (.cells offering) = .ok l ∧
      ((l.follow (Scripted.controller 1)
        (List.replicate 2 .engine ++ List.replicate 5 .controller)).follow
          (Scripted.controller 1) []).Unblocked (Scripted.controller 1)) ∧
    (∃ l, start (Scripted.controller 1) {} (.cells [98]) = .ok l ∧
      (l.follow (Scripted.controller 1)
        (List.replicate 3 .engine ++ List.replicate 5 .controller)).result =
          .error (.fault (.unrecognizedOpcode ⟨98, 0, 0, 0⟩))) := by
  refine ⟨⟨_, rfl, ?_⟩, ⟨_, rfl, ?_⟩, ⟨_, rfl, ?_⟩⟩
  · obtain ⟨hwaiting, _, _⟩ :=
      waiting_or_unblocked (Scripted.controller 1) { script := some [] } (.cells offering) _ rfl
    exact hwaiting _ (fun party => by cases party <;> decide +kernel) nofun
  · obtain ⟨_, hunblocked, _⟩ :=
      waiting_or_unblocked (Scripted.controller 1) {} (.cells offering) _ rfl
    exact hunblocked _ [] (.inr rfl)
  · obtain ⟨_, _, hresult⟩ :=
      waiting_or_unblocked (Scripted.controller 1) {} (.cells [98]) _ rfl
    exact hresult (List.replicate 3 .engine ++ List.replicate 5 .controller) rfl rfl

end Intcode.Control.Loop
