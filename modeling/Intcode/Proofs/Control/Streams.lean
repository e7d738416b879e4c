import Intcode.Proofs.Control.Agents
import Intcode.Proofs.Control.Commands

namespace Intcode.Control

open Interleaving

/-!
# The streams of a controller loop

A loop in which no command is refused and there is an answer to everything does what its process and
its agent do.  So neither the groups the controller is asked to answer nor the state and the engine
it ends with depend on the order of turns.

* `Loop.Mirrors`            — how a loop goes with a process and an agent
* `Loop.Mirrors.stepEngine`, `Loop.Mirrors.stepController` — a turn is some steps of them
* `Loop.Mirrors.follow`     — the same for a schedule
* `Loop.Mirrors.stuck`      — a loop at its end has a process and an agent that are stuck
* `Loop.streams_of_start`   — what passes through a loop, and what does not depend on the schedule
-/

namespace Loop

variable {σ : Type} {c : Controller σ} {l l' : Loop σ} {p q : Process} {a b : Agent σ}
  {phase' : Phase} {result : Engine × Hub}

/-- Where the controller is, compared with its agent.  When it has left its loop for want of
    readings, the agent is left waiting for them. -/
inductive Placed (l : Loop σ) (p : Process) (a : Agent σ) : Prop where
  | within (hin : l.stage.inLoop = true) (hstage : a.stage = l.stage)
      (hreadings : p.sent = a.taken ++ l.network.hub.content 1)
  | left {group : List Int} (hleft : l.stage.inLoop = false) (hstage : a.stage = .reading group)
      (hreadings : p.sent = a.taken) (hclosed : p.phase.holdsOutput = false)

/-- A loop goes with a process and an agent. -/
structure Mirrors (c : Controller σ) (l : Loop σ) (p : Process) (a : Agent σ) : Prop where
  attached : Attached c p.phase l
  engine : p.engine = l.engine.wired ⟨0⟩ ⟨1, 0⟩
  commands : p.phase.holdsInput = true → a.sent = p.taken ++ l.network.hub.content 0
  state : a.state = l.state
  placed : Placed l p a

namespace Placed

/-- As long as the engine holds its output, the controller is in its loop. -/
theorem inLoop (hp : Placed l p a) (hholds : p.phase.holdsOutput = true) :
    l.stage.inLoop = true := by
  cases hp with
  | within hin => exact hin
  | left _ _ _ hclosed => exact absurd (hholds.symm.trans hclosed) nofun

/-- A controller in its loop is where its agent is. -/
theorem of_inLoop (hp : Placed l p a) (hin : l.stage.inLoop = true) :
    a.stage = l.stage ∧ p.sent = a.taken ++ l.network.hub.content 1 := by
  cases hp with
  | within _ hstage hreadings => exact ⟨hstage, hreadings⟩
  | left hleft => exact absurd (hin.symm.trans hleft) nofun

/-- A controller that has left its loop does not come back. -/
theorem stay (hp : Placed l p a) (hleft : l.stage.inLoop = false)
    (hleft' : l'.stage.inLoop = false) : Placed l' p a := by
  cases hp with
  | within hin => exact absurd (hin.symm.trans hleft) nofun
  | left _ hstage hreadings hclosed => exact .left hleft' hstage hreadings hclosed

/-- What the engine emits goes into the channel, unless the engine has hung up. -/
theorem emit (hp : Placed l p a) {sent : List Int} (hstage : l'.stage = l.stage)
    (hcontent : l'.network.hub.content 1 = l.network.hub.content 1 ++ sent)
    (hsent : q.sent = p.sent ++ sent)
    (hquiet : p.phase.holdsOutput = false → sent = [] ∧ q.phase.holdsOutput = false) :
    Placed l' q a := by
  cases hp with
  | within hin hstage' hreadings =>
    rw [← hstage] at hin hstage'
    exact .within hin hstage' (by rw [hsent, hcontent, hreadings, List.append_assoc])
  | left hleft hstage' hreadings hclosed =>
    obtain ⟨hnone, hclosed'⟩ := hquiet hclosed
    rw [← hstage] at hleft
    exact .left hleft hstage' (by rw [hsent, hnone, hreadings, List.append_nil]) hclosed'

end Placed

namespace Mirrors

/-! ### Turns of the engine -/

/-- The engine is between its channels as long as it runs. -/
theorem plugged (hm : Mirrors c l p a) (hphase : p.phase = .running) :
    Engine.Plugged ⟨0⟩ ⟨1, 0⟩ l.engine := by
  have ha := hm.attached
  rw [hphase] at ha
  exact ha.plugged

/-- As long as it runs, the engine is that of the process. -/
theorem engine_eq (hm : Mirrors c l p a) (hphase : p.phase = .running) : p.engine = l.engine :=
  hm.engine.trans (hm.plugged hphase).wired_eq

/-- The process comes to the point where its engine is suspended. -/
theorem reaches_suspended (hm : Mirrors c l p a) (hphase : p.phase = .running) {e : Engine}
    {r : Request} (hask : Engine.Awaiting l.engine r e) :
    ∃ m, Reaches (act c) m (p, a) (p.become e, a) := by
  rw [← hm.engine_eq hphase] at hask
  rcases Process.advance_suspend hphase hask with hstep | hsame
  · exact ⟨1, .single (act_engine hstep)⟩
  · -- it has come there before
    rw [hsame]
    exact ⟨0, .refl _⟩

/-- The process comes to the point where its engine has been answered. -/
theorem reaches_answered (hm : Mirrors c l p a) (hphase : p.phase = .running) {e : Engine}
    {r : Request} (hask : Engine.Awaiting l.engine r e) {v : Int} {vs : List Int}
    (hcontent : l.network.hub.content 0 = v :: vs) :
    ∃ m, Reaches (act c) m (p, a)
      ({ p.become (e.answer r v) with taken := p.taken ++ [v] }, a) := by
  obtain ⟨m, hrun⟩ := hm.reaches_suspended hphase hask
  -- the first command in the channel is the first that the process has not taken
  have hnext : a.sent[p.taken.length]? = some v := by
    rw [hm.commands (by rw [hphase]; rfl), hcontent]
    simp
  rw [← hm.engine_eq hphase] at hask
  exact ⟨m + 1, hrun.trans (.single (act_engine (Process.advance_answer hask hnext)))⟩

/-- A turn of the worker is some steps of the process, after which it has the engine and the phase,
    and the values that have passed. -/
def Advances (c : Controller σ) (l : Loop σ) (p : Process) (a : Agent σ) (e : Engine)
    (phase : Phase) : Prop :=
  ∃ m q, Reaches (act c) m (p, a) (q, a) ∧ q.phase = phase ∧ q.engine = e.wired ⟨0⟩ ⟨1, 0⟩ ∧
    q.taken = p.taken ++ l.intake .engine ∧ q.sent = p.sent ++ l.emission .engine

/-- A turn of a worker whose engine runs. -/
theorem advances_running (hm : Mirrors c l p a) (hphase : p.phase = .running) :
    Advances c l p a (l.engine.step l.network.hub).1 (l.engine.step l.network.hub).1.phase := by
  have hengine := hm.engine_eq hphase
  have hplugged := hm.plugged hphase
  have hin := hm.placed.inLoop (by rw [hphase]; rfl)
  have hcommands := hm.attached.commands
  have hreadings := hm.attached.readings
  rw [hphase, Stage.holdsCommands_of_inLoop hin] at hcommands
  rw [hphase, Stage.holdsReadings_of_inLoop hin] at hreadings
  unfold Advances intake emission
  rw [(hplugged.step l.network.hub).wired_eq, hm.attached.passing_eq hphase,
    hm.attached.passing_eq hphase]
  have hexchange := Engine.exchange_step l.engine l.network.hub
  generalize l.engine.taken? l.network.hub = taken, l.engine.sent? l.network.hub = sent,
    l.engine.step l.network.hub = result at hexchange ⊢
  cases hexchange with
  | rest hmove =>
    -- an engine that runs does not rest
    have hended := (Engine.move_eq_rest_iff _).1 hmove
    rw [hm.attached.running.2 hphase] at hended
    cases hended
  | @silent next hmove hreq =>
    rw [← hengine] at hmove
    exact ⟨1, p.become next, .single (act_engine (Process.advance_act hphase hmove)), rfl, rfl,
      (List.append_nil _).symm, (List.append_nil _).symm⟩
  | @waits r e hask =>
    obtain ⟨m, hrun⟩ := hm.reaches_suspended hphase hask
    exact ⟨m, p.become e, hrun, rfl, rfl, (List.append_nil _).symm, (List.append_nil _).symm⟩
  | @takes r e v buffer hask hopen hcontent =>
    rw [hplugged.receiver hask] at hcontent
    obtain ⟨m, hrun⟩ := hm.reaches_answered hphase hask hcontent
    exact ⟨m, _, hrun, rfl, rfl, rfl, (List.append_nil _).symm⟩
  | givesUp hask hclosed =>
    -- a controller in its loop has not hung up the commands
    rw [hplugged.receiver hask, Hub.receiverOpen_eq, Hub.senders_eq, hcommands] at hclosed
    rcases hclosed with hfalse | ⟨_, hnone⟩
    · cases hfalse
    · cases hnone
  | @sends tx origin v told hmove hlistens hlt =>
    rw [← hengine] at hmove
    exact ⟨1, _, .single (act_engine (Process.advance_tell hphase hmove)), rfl, rfl,
      (List.append_nil _).symm, rfl⟩
  | refused hmove hlistens =>
    -- a controller in its loop still receives the readings
    rw [hplugged.sender hmove, Hub.listens_of_ends hreadings] at hlistens
    cases hlistens

/-- A turn of a worker that lets go of its ends. -/
theorem advances_releasing (hm : Mirrors c l p a) (hphase : p.phase ≠ .running) {e : Engine}
    (hengine : l.engine.wired ⟨0⟩ ⟨1, 0⟩ = e.wired ⟨0⟩ ⟨1, 0⟩)
    (hstep : p.advance a.sent = some { p with phase := phase' }) : Advances c l p a e phase' := by
  unfold Advances intake emission
  rw [hm.attached.passing_eq_nil hphase, hm.attached.passing_eq_nil hphase]
  exact ⟨1, _, .single (act_engine hstep), rfl, hm.engine.trans hengine, (List.append_nil _).symm,
    (List.append_nil _).symm⟩

/-- A turn of the worker. -/
theorem advances (hm : Mirrors c l p a) (hturn : EngineTurn l p.phase result phase') :
    Advances c l p a result.1 phase' := by
  generalize hphase : p.phase = phase at hturn
  cases hturn with
  | steps => exact hm.advances_running hphase
  | closesOutput =>
    exact hm.advances_releasing (by rw [hphase]; exact nofun) rfl
      (Process.advance_releasingOutput hphase)
  | closesInput =>
    exact hm.advances_releasing (by rw [hphase]; exact nofun) rfl
      (Process.advance_releasingInput hphase)

/-- **A turn of the worker** is some steps of the process. -/
theorem stepEngine (hm : Mirrors c l p a) (hturn : EngineTurn l p.phase result phase') :
    ∃ m q, Reaches (act c) m (p, a) (q, a) ∧
      Mirrors c { l with network := l.network.after 0 0 result phase' } q a := by
  obtain ⟨m, q, hrun, rfl, hengine, htaken, hsent⟩ := hm.advances hturn
  obtain ⟨hbefore, _⟩ := hm.attached.content_before hturn
  obtain ⟨hafter, hquiet⟩ := hm.attached.content_after hturn
  refine ⟨m, q, hrun, hm.attached.stepEngine hturn, ?_, fun hholds => ?_, hm.state, ?_⟩
  · rw [hengine]
    exact congrArg (·.wired ⟨0⟩ ⟨1, 0⟩)
      (Network.engine_after hm.attached.lt_engines result q.phase 0).symm
  · obtain ⟨hheld, hcontent⟩ := hbefore hholds
    show a.sent = q.taken ++ result.2.content 0
    rw [hm.commands hheld, htaken, ← hcontent, List.append_assoc]
  · exact hm.placed.emit rfl hafter hsent hquiet

/-! ### Turns of the controller -/

/-- **A turn of the controller** is a step of the agent, or the controller leaves its loop for want
    of readings, as long as it has an answer and no command is refused. -/
theorem stepController (hm : Mirrors c l p a) (hturn : ControllerTurn c l l')
    (haccepted : l.refusal .controller = []) (hanswered : l'.failure = none) :
    ∃ m b, Reaches (act c) m (p, a) (p, b) ∧ Mirrors c l' p b ∧
      b.asked = a.asked ++ l.call .controller := by
  have hattached := hm.attached.stepController hturn
  have hlt := hm.attached.lt_channels
  unfold call
  cases hturn with
  | settles hstage =>
    obtain ⟨hplace, hreadings⟩ := hm.placed.of_inLoop (by rw [hstage]; rfl)
    rw [hstage] at hplace ⊢
    exact ⟨1, _, .single (act_controller (Agent.advance_settles hplace)),
      ⟨hattached, hm.engine, hm.commands, hm.state, .within rfl rfl hreadings⟩,
      (List.append_nil _).symm⟩
  | @sends v commands hstage hlistens hlt =>
    obtain ⟨hplace, hreadings⟩ := hm.placed.of_inLoop (by rw [hstage]; rfl)
    rw [hstage] at hplace ⊢
    refine ⟨1, _, .single (act_controller (Agent.advance_sends hplace)),
      ⟨hattached, hm.engine, fun hholds => ?_, hm.state, .within rfl rfl ?_⟩,
      (List.append_nil _).symm⟩
    · show a.sent ++ [v] = p.taken ++ (l.network.hub.refill 0 _).content 0
      rw [Hub.content_refill hlt, if_pos rfl, Fifo.toList_push, hm.commands hholds,
        List.append_assoc]
      rfl
    · show p.sent = a.taken ++ (l.network.hub.refill 0 _).content 1
      rw [Hub.content_refill hlt, if_neg (by decide)]
      exact hreadings
  | isRefused hstage hdeaf =>
    unfold refusal at haccepted
    simp [hstage, hdeaf] at haccepted
  | @takes group v buffer hstage hlt hcontent =>
    obtain ⟨hplace, hreadings⟩ := hm.placed.of_inLoop (by rw [hstage]; rfl)
    rw [hstage] at hplace ⊢
    -- the first reading in the channel is the first that the agent has not taken
    have hnext : p.sent[a.taken.length]? = some v := by
      rw [hreadings, hcontent]
      simp
    have hstep : a.advance c p.sent = _ := Agent.advance_reading hplace
    rw [hnext] at hstep
    refine ⟨1, _, .single (act_controller hstep),
      ⟨hattached, hm.engine, fun hholds => ?_, hm.state, .within ?_ rfl ?_⟩,
      (List.append_nil _).symm⟩
    · show a.sent = p.taken ++ (l.network.hub.refill 1 buffer).content 0
      rw [Hub.content_refill hlt, if_neg (by decide)]
      exact hm.commands hholds
    · unfold withHub
      dsimp only
      split <;> rfl
    · show p.sent = (a.taken ++ [v]) ++ (l.network.hub.refill 1 buffer).content 1
      rw [Hub.content_refill hlt, if_pos rfl, hreadings, hcontent]
      exact List.append_cons a.taken v buffer.toList
  | @readsNoMore group hstage hclosed =>
    obtain ⟨hplace, hreadings⟩ := hm.placed.of_inLoop (by rw [hstage]; rfl)
    -- the controller still receives, so the engine has hung up and the channel is empty
    have hends := hm.attached.readings
    rw [hstage] at hends hplace ⊢
    rw [Hub.receiverOpen_eq, Hub.senders_eq, hends] at hclosed
    obtain ⟨hempty, hsenders⟩ := hclosed.resolve_left nofun
    rw [hempty, List.append_nil] at hreadings
    exact ⟨0, a, .refl _, ⟨hattached, hm.engine, hm.commands, hm.state,
      .left rfl hplace hreadings (Bool.toNat_eq_zero.1 hsenders)⟩, (List.append_nil _).symm⟩
  | @answers group commands state hstage hanswer =>
    obtain ⟨hplace, hreadings⟩ := hm.placed.of_inLoop (by rw [hstage]; rfl)
    rw [hstage] at hplace ⊢
    rw [← hm.state] at hanswer
    exact ⟨1, _, .single (act_controller (Agent.advance_answers hplace hanswer)),
      ⟨hattached, hm.engine, hm.commands, rfl, .within rfl rfl hreadings⟩, rfl⟩
  | fails hstage hanswer => cases hanswered
  | closesCommands hstage =>
    rw [hstage]
    refine ⟨0, a, .refl _, ⟨hattached, hm.engine, fun hholds => ?_, hm.state,
      hm.placed.stay (by rw [hstage]; rfl) rfl⟩, (List.append_nil _).symm⟩
    rw [hm.commands hholds]
    exact congrArg _ (Hub.content_closeSender (Nat.lt_of_succ_lt hlt) 0).symm
  | closesReadings hstage =>
    rw [hstage]
    refine ⟨0, a, .refl _, ⟨hattached, hm.engine, fun hholds => ?_, hm.state,
      hm.placed.stay (by rw [hstage]; rfl) ?_⟩, (List.append_nil _).symm⟩
    · rw [hm.commands hholds]
      exact congrArg _ (Hub.content_closeReceiver _ readingReceiver hlt 0).symm
    · unfold withHub
      dsimp only
      split <;> rfl
  | joins hstage =>
    rw [hstage]
    exact ⟨0, a, .refl _, ⟨hattached, hm.engine, hm.commands, hm.state,
      hm.placed.stay (by rw [hstage]; rfl) rfl⟩, (List.append_nil _).symm⟩

end Mirrors

/-! ### Schedules -/

/-- A controller that has had no answer does not find one later. -/
theorem failure_of_step {party : Party} (hcan : l.canStep party = true)
    (hanswered : (l.step c party).failure = none) : l.failure = none := by
  cases party with
  | engine => exact hanswered
  | controller =>
    have hturn := controllerTurn (c := c) hcan
    generalize l.step c .controller = l' at hturn hanswered
    cases hturn with
    | fails => cases hanswered
    | settles | sends | isRefused | takes | readsNoMore | answers | closesCommands
    | closesReadings | joins => exact hanswered

theorem failure_of_follow (schedule : List Party)
    (hanswered : (l.follow c schedule).failure = none) : l.failure = none := by
  induction schedule generalizing l with
  | nil => exact hanswered
  | cons party schedule ih =>
    unfold follow at hanswered
    split at hanswered
    · rename_i hcan
      exact failure_of_step hcan (ih hanswered)
    · exact ih hanswered

/-- **A schedule** is a run of the process and the agent, if no command is refused and there is an
    answer to everything. -/
theorem Mirrors.follow (hm : Mirrors c l p a) (schedule : List Party)
    (haccepted : l.refused c schedule = []) (hanswered : (l.follow c schedule).failure = none) :
    ∃ m q b, Reaches (act c) m (p, a) (q, b) ∧ Mirrors c (l.follow c schedule) q b ∧
      b.asked = a.asked ++ l.calls c schedule := by
  unfold refused at haccepted
  unfold calls
  induction schedule generalizing l p a with
  | nil => exact ⟨0, p, a, .refl _, hm, (List.append_nil _).symm⟩
  | cons party schedule ih =>
    unfold Loop.follow at hanswered ⊢
    unfold tally at haccepted ⊢
    split at hanswered
    · rename_i hcan
      rw [if_pos hcan] at haccepted ⊢
      obtain ⟨hfirst, hrest⟩ := List.append_eq_nil_iff.1 haccepted
      have hturn : ∃ m q b, Reaches (act c) m (p, a) (q, b) ∧ Mirrors c (l.step c party) q b ∧
          b.asked = a.asked ++ l.call party := by
        cases party with
        | engine =>
          obtain ⟨result, phase', hturn, hstep⟩ := hm.attached.engineTurn (c := c) hcan
          obtain ⟨m, q, hrun, hq⟩ := hm.stepEngine hturn
          rw [← hstep] at hq
          exact ⟨m, q, a, hrun, hq, (List.append_nil _).symm⟩
        | controller =>
          obtain ⟨m, b, hrun, hb, hasked⟩ := hm.stepController (controllerTurn hcan) hfirst
            (failure_of_follow schedule hanswered)
          exact ⟨m, p, b, hrun, hb, hasked⟩
      obtain ⟨m, q, b, hrun, hq, hasked⟩ := hturn
      obtain ⟨m', q', b', hrun', hq', hasked'⟩ := ih hq hrest hanswered
      refine ⟨m + m', q', b', hrun.trans hrun', hq', ?_⟩
      rw [if_pos hcan, hasked', hasked, List.append_assoc]
    · rename_i hcan
      rw [if_neg hcan] at haccepted ⊢
      rw [if_neg hcan]
      exact ih hm haccepted hanswered

/-- When neither party can take a turn, the process and the agent are stuck. -/
theorem Mirrors.stuck (hm : Mirrors c l p a) (hidle : ∀ party, l.canStep party = false) :
    Stuck (act c) (p, a) := by
  intro party
  cases party with
  | engine =>
    refine Option.map_eq_none_iff.2 ?_
    rcases hm.attached.of_idle_engine (hidle .engine) with hphase | ⟨hphase, r, hreq, _, hwait⟩
    · exact Process.advance_ended hphase
    · -- all commands sent have been taken
      have hempty : l.network.hub.content 0 = [] := Hub.content_of_isReady_eq_false hwait
      have hsent := hm.commands (by rw [hphase]; rfl)
      have hrun := (Engine.isRunning_iff _).1 (hm.attached.running.2 hphase)
      have hmove : p.engine.move = .await r := by
        rw [hm.engine_eq hphase]
        exact Engine.move_of_request hrun hreq
      rw [Process.advance_await hphase hmove, hsent, hempty, List.append_nil]
      simp
  | controller =>
    have hwaits {group : List Int} (hstage : a.stage = .reading group) (hsent : p.sent = a.taken) :
        a.advance c p.sent = none := by
      rw [Agent.advance_reading hstage, hsent]
      simp
    refine Option.map_eq_none_iff.2 ?_
    cases hm.placed with
    | within hin hstage hreadings =>
      rcases of_idle_controller (hidle .controller) with
        ⟨group, hreading, hwait⟩ | ⟨hjoining, _⟩ | hdone
      · have hempty : l.network.hub.content 1 = [] := Hub.content_of_isReady_eq_false hwait
        rw [hempty, List.append_nil] at hreadings
        exact hwaits (hstage.trans hreading) hreadings
      · rw [hjoining] at hin
        cases hin
      · rw [hdone] at hin
        cases hin
    | left _ hstage hreadings => exact hwaits hstage hreadings

/-- A loop that has not started goes with a process and an agent that have not. -/
theorem mirrors_start {s : σ} {program : Program.Source} (hstart : start c s program = .ok l)
    (hanswered : l.failure = none) : ∃ p a, Mirrors c l p a ∧ a.asked = [] := by
  obtain ⟨e, hreq, hrun, rfl⟩ := of_start hstart
  have hattached := attached_start (c := c) hreq hrun s (c.opening s)
  cases hopening : c.opening s with
  | ok commands =>
    rw [hopening] at hattached
    exact ⟨{ engine := e.wired ⟨0⟩ ⟨1, 0⟩ }, { state := s, stage := .sending commands },
      ⟨hattached, rfl, fun _ => rfl, rfl, .within rfl rfl rfl⟩, rfl⟩
  | error err =>
    rw [hopening] at hanswered
    cases hanswered

/-! ### The streams -/

/-- After this schedule neither party can take a turn.  No command has been refused on the way, and
    there has been an answer to everything. -/
structure Completes (c : Controller σ) (l : Loop σ) (schedule : List Party) : Prop where
  idle : ∀ party, (l.follow c schedule).canStep party = false
  accepted : l.refused c schedule = []
  answered : (l.follow c schedule).failure = none

/-- The engine of a loop is told by its process. -/
theorem Mirrors.engine_of (hm : Mirrors c l p a) :
    l.engine = { p.engine with
      input := if p.phase.holdsInput then some ⟨0⟩ else none
      output := if p.phase.holdsOutput then some ⟨1, 0⟩ else none } := by
  rw [hm.engine, ← hm.attached.input, ← hm.attached.output]
  rfl

/-- Schedules that complete a loop come to the same. -/
theorem agree_of_completes {schedule schedule' : List Party} {s : σ} {program : Program.Source}
    (hstart : start c s program = .ok l) (hdone : l.Completes c schedule)
    (hdone' : l.Completes c schedule') :
    l.calls c schedule = l.calls c schedule' ∧
      (l.follow c schedule).state = (l.follow c schedule').state ∧
      (l.follow c schedule).engine = (l.follow c schedule').engine := by
  obtain ⟨p, a, hm, hasked⟩ := mirrors_start hstart (failure_of_follow schedule hdone.answered)
  obtain ⟨m, q, b, hrun, hq, hcalls⟩ := hm.follow schedule hdone.accepted hdone.answered
  obtain ⟨m', q', b', hrun', hq', hcalls'⟩ := hm.follow schedule' hdone'.accepted hdone'.answered
  -- both schedules bring the two to the only end there is
  obtain ⟨rfl, rfl⟩ := Prod.mk.inj (hrun.unique (act_commutes c) (hq.stuck hdone.idle) hrun'
    (hq'.stuck hdone'.idle))
  rw [hasked, List.nil_append] at hcalls hcalls'
  exact ⟨hcalls.symm.trans hcalls', hq.state.symm.trans hq'.state,
    hq.engine_of.trans hq'.engine_of.symm⟩

/-- **What passes through a controller loop.**  Whatever turns the parties take, the controller is
    asked with consecutive groups of what the engine has emitted, the engine takes nothing but the
    commands of the controller, in order, and each answer counts once.  And if a schedule completes
    the loop, every other one that does comes to the same. -/
theorem streams_of_start (c : Controller σ) (s : σ) (program : Program.Source) (l : Loop σ)
    (hstart : start c s program = .ok l) :
    (∀ schedule,
      (∀ k group, (l.calls c schedule)[k]? = some group →
        (k + 1) * c.groupSize ≤ (l.emitted c schedule).length ∧
        group = ((l.emitted c schedule).drop (k * c.groupSize)).take c.groupSize) ∧
      l.consumed c schedule <+: c.start s ++ (c.replies s (l.calls c schedule)).flatten ∧
      (l.follow c schedule).rounds = (c.replies s (l.calls c schedule)).length) ∧
    (∀ schedule schedule', l.Completes c schedule → l.Completes c schedule' →
      l.calls c schedule = l.calls c schedule' ∧
      (l.follow c schedule).state = (l.follow c schedule').state ∧
      (l.follow c schedule).engine = (l.follow c schedule').engine) := by
  refine ⟨fun schedule => ?_, fun _ _ => agree_of_completes hstart⟩
  obtain ⟨_, haccount⟩ := (accounted_start hstart).follow schedule
  obtain ⟨_, hsupplied⟩ := (supplied_start hstart).follow schedule (accounted_start hstart)
  simp only [List.nil_append] at haccount hsupplied
  refine ⟨fun k group hcall => ?_, hsupplied.within, hsupplied.rounds⟩
  -- the groups are the first of those that the stream is made of
  obtain ⟨rest, hout⟩ := haccount.held.exists_rest
  have hgroups := completeGroups_flatten c.groupSize_pos _ haccount.answered.full rest
  rw [← hout] at hgroups
  apply of_getElem?_completeGroups
  rw [hgroups]
  exact getElem?_of_isPrefix (List.prefix_append _ _) hcall

/-- A program that sends two values back and halts. -/
def echoTwice : List Int := [3, 0, 4, 0, 3, 0, 4, 0, 99]

/-- The parties take turns. -/
def alternately : List Party := (List.replicate 20 [Party.controller, .engine]).flatten

/-- Each party goes on as long as it can. -/
def oneByOne : List Party :=
  List.replicate 3 .controller ++ List.replicate 4 .engine ++ List.replicate 4 .controller ++
    List.replicate 8 .engine ++ List.replicate 9 .controller

/-- A controller that sends a value, and another one when the first comes back. -/
def sender : Scripted := { opening := [5], script := some [[6]] }

/-- The program and the controller before their first turns. -/
def echoLoop : Loop Scripted :=
  opened (wire (Scripted.controller 1) (.ofCells echoTwice false {})) sender (.ok [5])

/-- Whether the parties take turns or go on one by one, the two values come back, and no others are
    taken. -/
theorem streams_of_start_echo :
    start (Scripted.controller 1) sender (.cells echoTwice) = .ok echoLoop ∧
      echoLoop.Completes (Scripted.controller 1) alternately ∧
      echoLoop.Completes (Scripted.controller 1) oneByOne ∧
      echoLoop.calls (Scripted.controller 1) alternately = [[5], [6]] ∧
      echoLoop.calls (Scripted.controller 1) oneByOne = [[5], [6]] ∧
      echoLoop.consumed (Scripted.controller 1) oneByOne <+: [5, 6] := by
  obtain ⟨heach, hagree⟩ :=
    streams_of_start (Scripted.controller 1) sender (.cells echoTwice) echoLoop rfl
  have hturns : echoLoop.Completes (Scripted.controller 1) alternately :=
    ⟨fun party => by cases party <;> decide +kernel, by decide +kernel, rfl⟩
  have hapart : echoLoop.Completes (Scripted.controller 1) oneByOne :=
    ⟨fun party => by cases party <;> decide +kernel, by decide +kernel, rfl⟩
  have hcalls : echoLoop.calls (Scripted.controller 1) alternately = [[5], [6]] := by
    decide +kernel
  obtain ⟨hsame, _, _⟩ := hagree _ _ hturns hapart
  obtain ⟨_, hconsumed, _⟩ := heach oneByOne
  rw [← hsame, hcalls] at hconsumed
  exact ⟨rfl, hturns, hapart, hcalls, hsame.symm.trans hcalls, hconsumed⟩

end Loop

end Intcode.Control
