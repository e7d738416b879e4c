import Intcode.Proofs.Control.Readings

namespace Intcode.Control

/-!
# The commands of a controller

The other direction: what becomes of the commands, in whatever order the parties take their turns.
As long as the engine holds its input, the commands it has taken, those in the channel and those not
sent yet are all that the controller has come up with, in order.  After that it takes none.

* `Controller.commands`   — what a controller comes up with when it is asked with some groups
* `Loop.consumed`         — the commands the engine takes along a schedule
* `Loop.Supplied`         — what the account says of the commands after a schedule
* `Loop.Supplied.follow`  — it says so after every schedule
-/

namespace Controller

variable {σ : Type} (c : Controller σ) (s : σ)

/-- The commands that answer a group, if there is an answer. -/
def reply (group : List Int) : List (List Int) :=
  match (c.answer s group).1 with
  | .ok commands => [commands]
  | .error _ => []

/-- The commands that answer groups one after another, beginning in a state. -/
def replies (s : σ) : List (List Int) → List (List Int)
  | [] => []
  | group :: groups => c.reply s group ++ replies (c.answer s group).2 groups

/-- All commands, when the groups are those the controller has been asked to answer. -/
def commands (groups : List (List Int)) : List Int := c.start s ++ (c.replies s groups).flatten

/-- A group is answered in the state after those before it. -/
theorem replies_concat (groups : List (List Int)) (group : List Int) :
    c.replies s (groups ++ [group]) =
      c.replies s groups ++ c.reply (groups.foldl (fun s g => (c.answer s g).2) s) group := by
  induction groups generalizing s with
  | nil => simp [replies]
  | cons g groups ih => simp [replies, ih]

theorem commands_concat (groups : List (List Int)) (group : List Int) :
    c.commands s (groups ++ [group]) = c.commands s groups ++
      (c.reply (groups.foldl (fun s g => (c.answer s g).2) s) group).flatten := by
  simp [commands, replies_concat]

end Controller

/-- The commands that have not been sent yet. -/
def Stage.unsent : Stage → List Int
  | .sending commands => commands
  | _ => []

namespace Loop

variable {σ : Type} {c : Controller σ} {s₀ : σ} {phase : Phase} {l : Loop σ}
  {out lost taken : List Int} {asked : List (List Int)}

/-- The command the engine takes in a turn. -/
def intake (l : Loop σ) : Party → List Int
  | .engine => l.network.passing Engine.taken? 0 0
  | .controller => []

/-- The commands the engine takes along a schedule. -/
def consumed (c : Controller σ) (l : Loop σ) (schedule : List Party) : List Int :=
  l.tally intake c schedule

/-- What a turn of the worker makes the engine take comes out of the channel of the commands. -/
theorem Attached.content_before (ha : Attached c phase l) {result : Engine × Hub} {phase' : Phase}
    (hturn : EngineTurn l phase result phase') :
    (phase'.holdsInput = true → phase.holdsInput = true ∧
      l.intake .engine ++ result.2.content 0 = l.network.hub.content 0) ∧
    (phase'.holdsInput = false → l.intake .engine = []) := by
  unfold intake
  cases hturn with
  | steps =>
    rw [ha.passing_eq rfl]
    refine ⟨fun _ => ⟨rfl, ha.plugged.content_input_step (by decide) _⟩, fun hnone => ?_⟩
    rw [Engine.holdsInput_phase] at hnone
    cases hnone
  | closesOutput =>
    rw [ha.passing_eq_nil nofun]
    exact ⟨fun _ => ⟨rfl, Hub.content_closeSender ha.lt_channels 0⟩, fun _ => rfl⟩
  | closesInput => exact ⟨nofun, fun _ => ha.passing_eq_nil nofun _⟩

/-- What the account of a schedule says of the commands after it. -/
structure Supplied (c : Controller σ) (s₀ : σ) (phase : Phase) (asked : List (List Int))
    (taken : List Int) (l : Loop σ) : Prop where
  rounds : l.rounds = (c.replies s₀ asked).length
  held : phase.holdsInput = true →
    taken ++ (l.network.hub.content 0 ++ l.stage.unsent) = c.commands s₀ asked
  within : taken <+: c.commands s₀ asked

namespace Supplied

/-- The commands are all there, so the engine has not taken any others. -/
theorem of_held {l' : Loop σ} (hrounds : l'.rounds = (c.replies s₀ asked).length)
    (hheld : taken ++ (l'.network.hub.content 0 ++ l'.stage.unsent) = c.commands s₀ asked) :
    Supplied c s₀ phase asked taken l' :=
  ⟨hrounds, fun _ => hheld, ⟨_, hheld⟩⟩

/-! ### Turns of the engine -/

/-- A turn of the worker takes a command from the channel, or none. -/
theorem stepEngine (h : Supplied c s₀ phase asked taken l) (ha : Attached c phase l)
    {result : Engine × Hub} {phase' : Phase} (hturn : EngineTurn l phase result phase') :
    Supplied c s₀ phase' asked (taken ++ l.intake .engine)
      { l with network := l.network.after 0 0 result phase' } := by
  obtain ⟨hcontent, hquiet⟩ := ha.content_before hturn
  cases hholds : phase'.holdsInput with
  | true =>
    obtain ⟨hheld, hcontent⟩ := hcontent hholds
    refine of_held h.rounds ?_
    show _ ++ (result.2.content 0 ++ l.stage.unsent) = _
    rw [← h.held hheld, ← hcontent]
    simp only [List.append_assoc]
  | false =>
    -- what is still in the channel is discarded
    rw [hquiet hholds, List.append_nil]
    exact ⟨h.rounds, fun htrue => absurd (hholds.symm.trans htrue) nofun, h.within⟩

/-! ### Turns of the controller -/

/-- The controller has had a turn in which it has come up with nothing. -/
theorem keep (h : Supplied c s₀ phase asked taken l) {l' : Loop σ} (hrounds : l'.rounds = l.rounds)
    (hheld : phase.holdsInput = true →
      l'.network.hub.content 0 ++ l'.stage.unsent = l.network.hub.content 0 ++ l.stage.unsent) :
    Supplied c s₀ phase asked taken l' := by
  refine ⟨hrounds.trans h.rounds, fun hphase => ?_, h.within⟩
  rw [hheld hphase]
  exact h.held hphase

/-- A turn of the controller moves commands to the channel, or comes up with new ones. -/
theorem stepController (h : Supplied c s₀ phase asked taken l) (ha : Attached c phase l)
    (hanswered : Answered c s₀ asked l) {l' : Loop σ} (hturn : ControllerTurn c l l') :
    Supplied c s₀ phase (asked ++ l.call .controller) taken l' := by
  have hlt := ha.lt_channels
  unfold call
  cases hturn with
  | settles hstage | readsNoMore hstage | joins hstage =>
    simp only [hstage, List.append_nil]
    exact h.keep rfl fun _ => by simp [hstage, Stage.unsent]
  | @sends v commands hstage hlistens hlt =>
    simp only [hstage, List.append_nil]
    refine h.keep rfl fun _ => ?_
    show (l.network.hub.refill 0 _).content 0 ++ commands = _
    rw [Hub.content_refill hlt, if_pos rfl, Fifo.toList_push, hstage]
    exact (List.append_cons _ v commands).symm
  | isRefused hstage hdeaf =>
    simp only [hstage, List.append_nil]
    -- a command is refused only when the engine takes no more
    refine h.keep rfl fun hphase => ?_
    have hends := ha.commands
    rw [hstage, hphase] at hends
    exact nomatch hdeaf.symm.trans (Hub.listens_of_ends hends)
  | takes hstage hlt' hcontent =>
    simp only [hstage, List.append_nil]
    refine h.keep rfl fun _ => ?_
    rw [hstage]
    unfold withHub
    dsimp only
    rw [Hub.content_refill hlt', if_neg (by decide)]
    split <;> rfl
  | @answers group commands state hstage hanswer =>
    have hreply : c.reply (asked.foldl (fun s g => (c.answer s g).2) s₀) group = [commands] := by
      rw [← hanswered.state, Controller.reply, hanswer]
    simp only [hstage]
    refine ⟨?_, fun hphase => ?_, ?_⟩
    · show l.rounds + 1 = _
      rw [h.rounds, Controller.replies_concat, hreply, List.length_append, List.length_singleton]
    · have hheld := h.held hphase
      simp only [hstage, Stage.unsent, List.append_nil] at hheld
      rw [Controller.commands_concat, hreply, ← hheld]
      simp [Stage.unsent]
    · rw [Controller.commands_concat]
      exact h.within.trans (List.prefix_append _ _)
  | @fails group e state hstage hanswer =>
    have hreply : c.reply (asked.foldl (fun s g => (c.answer s g).2) s₀) group = [] := by
      rw [← hanswered.state, Controller.reply, hanswer]
    have hcommands : c.commands s₀ (asked ++ [group]) = c.commands s₀ asked := by
      simp [Controller.commands_concat, hreply]
    simp only [hstage]
    refine ⟨?_, fun hphase => ?_, ?_⟩
    · rw [Controller.replies_concat, hreply, List.append_nil]
      exact h.rounds
    · have hheld := h.held hphase
      rw [hstage] at hheld
      rw [hcommands]
      exact hheld
    · rw [hcommands]
      exact h.within
  | closesCommands hstage =>
    simp only [hstage, List.append_nil]
    refine h.keep rfl fun _ => ?_
    show (l.network.hub.closeSender commandSender).content 0 ++ _ = _
    rw [Hub.content_closeSender (Nat.lt_of_succ_lt hlt), hstage]
    rfl
  | closesReadings hstage =>
    simp only [hstage, List.append_nil]
    refine h.keep rfl fun _ => ?_
    rw [hstage]
    unfold withHub
    dsimp only
    rw [Hub.content_closeReceiver _ readingReceiver hlt, if_neg (by decide)]
    split <;> rfl

/-! ### Schedules -/

/-- **A schedule** supplies the engine with commands of the controller, in order. -/
theorem follow (schedule : List Party) (h : Supplied c s₀ phase asked taken l)
    (haccount : Accounted c s₀ phase out asked lost l) :
    ∃ phase', Supplied c s₀ phase' (asked ++ l.calls c schedule) (taken ++ l.consumed c schedule)
      (l.follow c schedule) := by
  unfold calls consumed
  -- both accounts grow with the turns, so the induction is on all of them at once
  induction schedule generalizing phase out asked lost taken l with
  | nil =>
    simp only [tally, List.append_nil]
    exact ⟨phase, h⟩
  | cons p schedule ih =>
    unfold tally Loop.follow
    split
    · rename_i hcan
      simp only [← List.append_assoc]
      cases p with
      | controller =>
        have hturn := controllerTurn (c := c) hcan
        have hstep := h.stepController haccount.attached haccount.answered hturn
        rw [← List.append_nil taken] at hstep
        exact ih hstep (haccount.stepController hturn)
      | engine =>
        obtain ⟨result, phase', hturn, heq⟩ := haccount.attached.engineTurn (c := c) hcan
        have hstep := h.stepEngine haccount.attached hturn
        have hnext := haccount.stepEngine hturn
        rw [← heq] at hstep hnext
        rw [← List.append_nil asked] at hstep hnext
        exact ih hstep hnext
    · exact ih h haccount

end Supplied

/-- A loop that has not started has all its first commands to send. -/
theorem supplied_start {s : σ} {program : Program.Source} (hstart : start c s program = .ok l) :
    Supplied c s .running [] [] l := by
  obtain ⟨e, _, _, rfl⟩ := of_start hstart
  have hcommands : c.commands s [] = c.start s := List.append_nil _
  unfold Controller.start at hcommands
  cases hopening : c.opening s with
  | ok commands =>
    rw [hopening] at hcommands
    exact .of_held rfl hcommands.symm
  | error err =>
    rw [hopening] at hcommands
    exact .of_held rfl hcommands.symm

end Loop

end Intcode.Control
