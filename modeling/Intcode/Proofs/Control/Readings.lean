import Intcode.Control.Scripted
import Intcode.Proofs.Control.Turn

namespace Intcode.Control

/-!
# The readings of a controller

What a controller is called with, in whatever order the parties of its loop take their turns.  The
values the engine emits are those of the groups answered, in order, and then those that have not
been answered yet.  When the controller has left its loop with all commands accepted, these are too
few for a group; when a command has been refused, they are lost.

* `completeGroups`                 — the groups of a stream of values
* `Loop.emitted`, `Loop.calls`, `Loop.refused`   — the account of a schedule
* `Held`, `Loop.Accounted`         — what the account says of the loop after the schedule
* `Loop.Accounted.step`, `Loop.Accounted.follow` — the same turn by turn, and for a schedule
* `Loop.calls_eq`                  — the groups answered by a loop that has ended well
* `Loop.calls_ne_completeGroups`   — a loop that loses a group
-/

/-! ### Groups -/

/-- The complete groups of a stream of values, in order. -/
def completeGroups (size : Nat) (vs : List Int) : List (List Int) :=
  (List.range (vs.length / size)).map fun k => (vs.drop (k * size)).take size

theorem completeGroups_of_lt {size : Nat} {vs : List Int} (hlt : vs.length < size) :
    completeGroups size vs = [] := by
  unfold completeGroups
  rw [Nat.div_eq_of_lt hlt]
  rfl

theorem completeGroups_append {group : List Int} (hpos : 0 < group.length) (vs : List Int) :
    completeGroups group.length (group ++ vs) = group :: completeGroups group.length vs := by
  unfold completeGroups
  rw [List.length_append, Nat.add_div_left _ hpos, List.range_succ_eq_map, List.map_cons,
    List.map_map]
  congr 1
  · simp
  · apply List.map_congr_left
    intro k _
    have hdrop : (k + 1) * group.length = group.length + k * group.length := by
      rw [Nat.succ_mul, Nat.add_comm]
    simp only [Function.comp_apply, Nat.succ_eq_add_one]
    rw [hdrop, List.drop_length_add_append]

/-- Groups come first, and then those of the rest. -/
theorem completeGroups_flatten {size : Nat} (hpos : 0 < size) (groups : List (List Int))
    (hsize : ∀ g ∈ groups, g.length = size) (rest : List Int) :
    completeGroups size (groups.flatten ++ rest) = groups ++ completeGroups size rest := by
  induction groups with
  | nil => rfl
  | cons group groups ih =>
    have hgroup : group.length = size := hsize group List.mem_cons_self
    have ih := ih fun g hg => hsize g (List.mem_cons_of_mem _ hg)
    subst hgroup
    rw [List.flatten_cons, List.append_assoc, completeGroups_append hpos, ih]
    rfl

/-- Groups are numbered from the beginning of the stream. -/
theorem of_getElem?_completeGroups {size k : Nat} {vs group : List Int}
    (hgroup : (completeGroups size vs)[k]? = some group) :
    (k + 1) * size ≤ vs.length ∧ group = (vs.drop (k * size)).take size := by
  unfold completeGroups at hgroup
  rw [List.getElem?_map] at hgroup
  obtain ⟨i, hi, rfl⟩ := Option.map_eq_some_iff.1 hgroup
  obtain ⟨hlt, rfl⟩ := List.getElem?_eq_some_iff.1 hi
  rw [List.getElem_range]
  rw [List.length_range] at hlt
  exact ⟨Nat.mul_le_of_le_div _ _ _ hlt, rfl⟩

namespace Loop

variable {σ α : Type}

/-! ### The account of a schedule -/

/-- What the turns of a schedule bring about, by what each of them does. -/
def tally (look : Loop σ → Party → List α) (c : Controller σ) (l : Loop σ) : List Party → List α
  | [] => []
  | p :: schedule =>
    if l.canStep p then look l p ++ (l.step c p).tally look c schedule
    else l.tally look c schedule

/-- The value the engine emits in a turn. -/
def emission (l : Loop σ) : Party → List Int
  | .engine => l.network.passing Engine.sent? 0 0
  | .controller => []

/-- The group the controller is asked to answer in a turn. -/
def call (l : Loop σ) : Party → List (List Int)
  | .engine => []
  | .controller =>
    match l.stage with
    | .answering group => [group]
    | _ => []

/-- The command refused in a turn. -/
def refusal (l : Loop σ) : Party → List Int
  | .engine => []
  | .controller =>
    match l.stage with
    | .sending (v :: _) => if l.network.hub.listens commandSender then [] else [v]
    | _ => []

/-- The values the engine emits along a schedule. -/
def emitted (c : Controller σ) (l : Loop σ) (schedule : List Party) : List Int :=
  l.tally emission c schedule

/-- The groups the controller is asked to answer along a schedule. -/
def calls (c : Controller σ) (l : Loop σ) (schedule : List Party) : List (List Int) :=
  l.tally call c schedule

/-- The commands refused along a schedule. -/
def refused (c : Controller σ) (l : Loop σ) (schedule : List Party) : List Int :=
  l.tally refusal c schedule

end Loop

/-- The controller has not left its loop. -/
def Stage.inLoop : Stage → Bool
  | .sending _ | .reading _ | .answering _ => true
  | _ => false

/-- A controller in its loop has not hung up the commands. -/
theorem Stage.holdsCommands_of_inLoop {stage : Stage} (hin : stage.inLoop = true) :
    stage.holdsCommands = true := by
  cases stage with
  | sending | reading | answering => rfl
  | closingCommands | closingReadings | joining | done => cases hin

/-- A controller in its loop has not hung up the readings. -/
theorem Stage.holdsReadings_of_inLoop {stage : Stage} (hin : stage.inLoop = true) :
    stage.holdsReadings = true := by
  cases stage with
  | sending | reading | answering => rfl
  | closingCommands | closingReadings | joining | done => cases hin

/-- Where the values emitted are, by the stage of the controller: in the groups answered, among the
    values taken since then, and in the channel of the readings.  After the loop there are others;
    these are too few for a group, or a command has been refused, or there has been no answer. -/
inductive Held (size : Nat) (phase : Phase) (out content : List Int) (asked : List (List Int))
    (lost : List Int) (failure : Option Error) : Stage → Prop where
  | sending {commands : List Int} (hout : out = asked.flatten ++ content) :
    Held size phase out content asked lost failure (.sending commands)
  | reading {group : List Int} (hshort : group.length < size)
      (hout : out = asked.flatten ++ (group ++ content)) :
    Held size phase out content asked lost failure (.reading group)
  | answering {group : List Int} (hfull : group.length = size)
      (hout : out = asked.flatten ++ (group ++ content)) :
    Held size phase out content asked lost failure (.answering group)
  | left {stage : Stage} {rest : List Int} (hstage : stage.inLoop = false)
      (hout : out = asked.flatten ++ rest)
      (hwhy : rest.length < size ∧ phase.holdsOutput = false ∨ lost ≠ [] ∨ failure.isSome = true) :
    Held size phase out content asked lost failure stage

namespace Held

variable {size : Nat} {phase phase' : Phase} {out content sent lost : List Int}
  {asked : List (List Int)} {failure : Option Error} {stage stage' : Stage}

/-- What the engine emits goes into the channel, unless the engine has hung up. -/
theorem emit (h : Held size phase out content asked lost failure stage)
    (hquiet : phase.holdsOutput = false → sent = [] ∧ phase'.holdsOutput = false) :
    Held size phase' (out ++ sent) (content ++ sent) asked lost failure stage := by
  cases h with
  | sending hout =>
    apply Held.sending
    rw [hout, List.append_assoc]
  | reading hshort hout =>
    apply Held.reading hshort
    simp only [hout, List.append_assoc]
  | answering hfull hout =>
    apply Held.answering hfull
    simp only [hout, List.append_assoc]
  | @left _ rest hstage hout hwhy =>
    refine Held.left hstage (by rw [hout, List.append_assoc]) ?_
    rcases hwhy with ⟨hshort, hclosed⟩ | hwhy
    · obtain ⟨hnone, hclosed'⟩ := hquiet hclosed
      rw [hnone, List.append_nil]
      exact .inl ⟨hshort, hclosed'⟩
    · exact .inr hwhy

theorem of_sending {commands : List Int}
    (h : Held size phase out content asked lost failure (.sending commands)) :
    out = asked.flatten ++ content := by
  cases h with
  | sending hout => exact hout
  | left hstage => cases hstage

theorem of_reading {group : List Int}
    (h : Held size phase out content asked lost failure (.reading group)) :
    group.length < size ∧ out = asked.flatten ++ (group ++ content) := by
  cases h with
  | reading hshort hout => exact ⟨hshort, hout⟩
  | left hstage => cases hstage

theorem of_answering {group : List Int}
    (h : Held size phase out content asked lost failure (.answering group)) :
    group.length = size ∧ out = asked.flatten ++ (group ++ content) := by
  cases h with
  | answering hfull hout => exact ⟨hfull, hout⟩
  | left hstage => cases hstage

theorem of_left (h : Held size phase out content asked lost failure stage)
    (hstage : stage.inLoop = false) :
    ∃ rest, out = asked.flatten ++ rest ∧
      (rest.length < size ∧ phase.holdsOutput = false ∨ lost ≠ [] ∨ failure.isSome = true) := by
  cases h with
  | sending | reading | answering => cases hstage
  | left _ hout hwhy => exact ⟨_, hout, hwhy⟩

/-- At every stage the values emitted begin with the groups answered. -/
theorem exists_rest (h : Held size phase out content asked lost failure stage) :
    ∃ rest, out = asked.flatten ++ rest := by
  cases h with
  | sending hout | reading _ hout | answering _ hout | left _ hout => exact ⟨_, hout⟩

/-- The group to be answered is the next one. -/
theorem flatten_append {group : List Int}
    (h : Held size phase out content asked lost failure (.answering group)) :
    out = (asked ++ [group]).flatten ++ content := by
  rw [h.of_answering.2]
  simp

/-- Who has left the loop does not come back, and does not look at the channel any more. -/
theorem stay (h : Held size phase out content asked lost failure stage)
    (hstage : stage.inLoop = false) (hstage' : stage'.inLoop = false) (content' : List Int) :
    Held size phase out content' asked lost failure stage' := by
  obtain ⟨rest, hout, hwhy⟩ := h.of_left hstage
  exact Held.left hstage' hout hwhy

end Held

namespace Loop

variable {σ : Type} {c : Controller σ} {s₀ : σ} {phase : Phase} {l : Loop σ}
  {out lost group : List Int} {asked : List (List Int)}

/-- What the controller has done about the groups it was asked to answer. -/
structure Answered (c : Controller σ) (s₀ : σ) (asked : List (List Int)) (l : Loop σ) : Prop where
  full : ∀ g ∈ asked, g.length = c.groupSize
  state : l.state = asked.foldl (fun s g => (c.answer s g).2) s₀
  rounds : l.failure = none → l.rounds = asked.length

/-- The controller has been asked with another group. -/
theorem Answered.ask (h : Answered c s₀ asked l) (hfull : group.length = c.groupSize) {l' : Loop σ}
    (hstate : l'.state = (c.answer l.state group).2)
    (hrounds : l'.failure = none → l.failure = none ∧ l'.rounds = l.rounds + 1) :
    Answered c s₀ (asked ++ [group]) l' := by
  constructor
  · intro g hg
    rcases List.mem_append.1 hg with hold | hnew
    · exact h.full g hold
    · rw [List.mem_singleton.1 hnew]
      exact hfull
  · rw [hstate, h.state, List.foldl_append]
    rfl
  · intro hnone
    obtain ⟨hnone', hnext⟩ := hrounds hnone
    rw [hnext, h.rounds hnone', List.length_append]
    rfl

/-- What the account of a schedule says of the loop after it: the values emitted, the groups to be
    answered and the commands refused. -/
structure Accounted (c : Controller σ) (s₀ : σ) (phase : Phase) (out : List Int)
    (asked : List (List Int)) (lost : List Int) (l : Loop σ) : Prop where
  attached : Attached c phase l
  answered : Answered c s₀ asked l
  held : Held c.groupSize phase out (l.network.hub.content 1) asked lost l.failure l.stage

/-! ### Turns of the engine -/

/-- What a turn of the worker makes the engine emit goes into the channel of the readings. -/
theorem Attached.content_after (ha : Attached c phase l) {result : Engine × Hub} {phase' : Phase}
    (hturn : EngineTurn l phase result phase') :
    result.2.content 1 = l.network.hub.content 1 ++ l.emission .engine ∧
      (phase.holdsOutput = false → l.emission .engine = [] ∧ phase'.holdsOutput = false) := by
  unfold emission
  cases hturn with
  | steps =>
    rw [ha.passing_eq rfl]
    exact ⟨ha.plugged.content_step (by decide) _, nofun⟩
  | closesOutput =>
    rw [ha.passing_eq_nil nofun, List.append_nil]
    exact ⟨Hub.content_closeSender ha.lt_channels 1, nofun⟩
  | closesInput =>
    rw [ha.passing_eq_nil nofun, List.append_nil,
      Hub.content_closeReceiver _ ⟨0⟩ (Nat.lt_of_succ_lt ha.lt_channels)]
    exact ⟨rfl, fun _ => ⟨rfl, rfl⟩⟩

namespace Accounted

/-- A turn of the worker keeps the account. -/
theorem stepEngine (h : Accounted c s₀ phase out asked lost l) {result : Engine × Hub}
    {phase' : Phase} (hturn : EngineTurn l phase result phase') :
    Accounted c s₀ phase' (out ++ l.emission .engine) asked lost
      { l with network := l.network.after 0 0 result phase' } := by
  obtain ⟨hcontent, hquiet⟩ := h.attached.content_after hturn
  refine ⟨h.attached.stepEngine hturn, ⟨h.answered.full, h.answered.state, h.answered.rounds⟩, ?_⟩
  show Held c.groupSize phase' _ (result.2.content 1) asked lost l.failure l.stage
  rw [hcontent]
  exact h.held.emit hquiet

/-! ### Turns of the controller -/

/-- A turn of the controller answers the group it was to answer, if there is one. -/
theorem answeredController (h : Accounted c s₀ phase out asked lost l) {l' : Loop σ}
    (hturn : ControllerTurn c l l') : Answered c s₀ (asked ++ l.call .controller) l' := by
  have hheld := h.held
  unfold call
  cases hturn with
  | answers hstage hanswer =>
    rw [hstage] at hheld ⊢
    refine h.answered.ask hheld.of_answering.1 ?_ fun hnone => ⟨hnone, rfl⟩
    rw [hanswer]
  | fails hstage hanswer =>
    rw [hstage] at hheld ⊢
    refine h.answered.ask hheld.of_answering.1 ?_ nofun
    rw [hanswer]
  | settles hstage | sends hstage | isRefused hstage | takes hstage | readsNoMore hstage
  | closesCommands hstage | closesReadings hstage | joins hstage =>
    rw [hstage]
    simp only [List.append_nil]
    exact ⟨h.answered.full, h.answered.state, h.answered.rounds⟩

/-- A turn of the controller moves values from the channel to the groups, or it leaves the loop. -/
theorem heldController (h : Accounted c s₀ phase out asked lost l) {l' : Loop σ}
    (hturn : ControllerTurn c l l') :
    Held c.groupSize phase out (l'.network.hub.content 1) (asked ++ l.call .controller)
      (lost ++ l.refusal .controller) l'.failure l'.stage := by
  have hheld := h.held
  unfold call refusal
  cases hturn with
  | settles hstage =>
    simp only [hstage, List.append_nil] at hheld ⊢
    exact .reading c.groupSize_pos hheld.of_sending
  | sends hstage hlistens hlt =>
    simp only [hstage, hlistens, if_true, List.append_nil] at hheld ⊢
    apply Held.sending
    rw [hheld.of_sending]
    -- commands go through the other channel
    exact congrArg _ (Hub.content_refill hlt _ 1).symm
  | isRefused hstage hdeaf =>
    simp only [hstage, hdeaf, List.append_nil] at hheld ⊢
    -- what is in the channel now is never taken
    exact .left rfl hheld.of_sending (.inr (.inl (List.append_ne_nil_of_right_ne_nil _ nofun)))
  | @takes group v buffer hstage hlt hcontent =>
    simp only [hstage, List.append_nil] at hheld ⊢
    obtain ⟨hshort, hout⟩ := hheld.of_reading
    have hcontent' : (l.network.hub.refill 1 buffer).content 1 = buffer.toList :=
      (Hub.content_refill hlt buffer 1).trans (if_pos rfl)
    -- one value moves from the channel to the group
    have hout' : out = asked.flatten ++ (group ++ [v] ++ buffer.toList) := by
      rw [hout, hcontent, List.append_assoc]
      rfl
    have hlen : (group ++ [v]).length = group.length + 1 := List.length_append
    unfold withHub
    dsimp only
    rw [hcontent']
    split
    · rename_i hmore
      exact .reading hmore hout'
    · exact .answering (by omega) hout'
  | @readsNoMore group hstage hclosed =>
    simp only [hstage, List.append_nil] at hheld ⊢
    obtain ⟨hshort, hout⟩ := hheld.of_reading
    -- the controller still receives, so the engine has hung up and the channel is empty
    have hends := h.attached.readings
    rw [hstage] at hends
    rw [Hub.receiverOpen_eq, Hub.senders_eq, hends] at hclosed
    obtain ⟨hempty, hsenders⟩ := hclosed.resolve_left nofun
    rw [hempty, List.append_nil] at hout
    refine .left rfl hout (.inl ⟨hshort, ?_⟩)
    exact Bool.toNat_eq_zero.1 hsenders
  | answers hstage hanswer =>
    simp only [hstage, List.append_nil] at hheld ⊢
    exact .sending hheld.flatten_append
  | fails hstage hanswer =>
    simp only [hstage, List.append_nil] at hheld ⊢
    exact .left rfl hheld.flatten_append (.inr (.inr rfl))
  | closesCommands hstage | joins hstage =>
    simp only [hstage, List.append_nil] at hheld ⊢
    exact hheld.stay rfl rfl _
  | closesReadings hstage =>
    simp only [hstage, List.append_nil] at hheld ⊢
    refine hheld.stay rfl ?_ _
    unfold withHub
    dsimp only
    split <;> rfl

/-- A turn of the controller keeps the account. -/
theorem stepController (h : Accounted c s₀ phase out asked lost l) {l' : Loop σ}
    (hturn : ControllerTurn c l l') :
    Accounted c s₀ phase out (asked ++ l.call .controller) (lost ++ l.refusal .controller) l' :=
  ⟨h.attached.stepController hturn, h.answeredController hturn, h.heldController hturn⟩

/-! ### Schedules -/

/-- A turn of either party keeps the account. -/
theorem step (h : Accounted c s₀ phase out asked lost l) {p : Party} (hcan : l.canStep p = true) :
    ∃ phase', Accounted c s₀ phase' (out ++ l.emission p) (asked ++ l.call p) (lost ++ l.refusal p)
      (l.step c p) := by
  cases p with
  | controller =>
    have hstep := h.stepController (controllerTurn hcan)
    rw [← List.append_nil out] at hstep
    exact ⟨phase, hstep⟩
  | engine =>
    obtain ⟨result, phase', hturn, hstep⟩ := h.attached.engineTurn (c := c) hcan
    have hafter := h.stepEngine hturn
    rw [← List.append_nil asked, ← List.append_nil lost, ← hstep] at hafter
    exact ⟨phase', hafter⟩

/-- **The account of a schedule is right.** -/
theorem follow (schedule : List Party) (h : Accounted c s₀ phase out asked lost l) :
    ∃ phase', Accounted c s₀ phase' (out ++ l.emitted c schedule) (asked ++ l.calls c schedule)
      (lost ++ l.refused c schedule) (l.follow c schedule) := by
  unfold emitted calls refused
  -- the account grows with the turns, so the induction is on all accounts at once
  induction schedule generalizing phase out asked lost l with
  | nil =>
    simp only [tally, List.append_nil]
    exact ⟨phase, h⟩
  | cons p schedule ih =>
    unfold tally Loop.follow
    split
    · rename_i hcan
      obtain ⟨phase', hstep⟩ := h.step hcan
      simp only [← List.append_assoc]
      exact ih hstep
    · exact ih h

end Accounted

/-- The account of a loop that has not started is empty. -/
theorem accounted_start {s : σ} {program : Program.Source} (hstart : start c s program = .ok l) :
    Accounted c s .running [] [] [] l := by
  obtain ⟨e, hreq, hrun, rfl⟩ := of_start hstart
  refine ⟨attached_start hreq hrun s (c.opening s), ?_, ?_⟩
  · cases c.opening s with
    | ok commands => exact ⟨nofun, rfl, fun _ => rfl⟩
    | error err => exact ⟨nofun, rfl, nofun⟩
  · cases c.opening s with
    | ok commands => exact .sending rfl
    | error err => exact .left rfl rfl (.inr (.inr rfl))

/-- A loop that has ended well has an answer to everything. -/
theorem of_result_eq_ok (hresult : l.result = .ok ()) : l.failure = none ∧ l.stage = .done := by
  unfold result at hresult
  split at hresult
  · cases hresult
  · rename_i hfailure hstage _
    exact ⟨hfailure, hstage⟩
  · cases hresult

/-- Commands are refused only when the worker has ended. -/
theorem Attached.engineEnded_of_refusal (ha : Attached c phase l) {p : Party}
    (hrefusal : l.refusal p ≠ []) : l.engineEnded = true := by
  cases p with
  | engine => exact absurd rfl hrefusal
  | controller =>
    dsimp only [refusal] at hrefusal
    split at hrefusal
    · rename_i v commands hstage
      split at hrefusal
      · exact absurd rfl hrefusal
      · rename_i hdeaf
        have hends := ha.commands
        rw [hstage] at hends
        -- as long as the worker holds the input, a command is heard
        cases phase with
        | running | releasingOutput | releasingInput =>
          exact absurd (Hub.listens_of_ends hends) hdeaf
        | ended =>
          unfold engineEnded
          rw [ha.worker]
          rfl
    · exact absurd rfl hrefusal

/-- **No reading is lost unless a command is refused.**  Whatever turns the parties take, a loop that
    has ended well has been asked with complete groups of what the engine has emitted, each once and
    in order, has answered all of them, and is in the state after the last answer.  These are all
    the complete groups there are unless a command was refused, which happens only after the worker
    has ended. -/
theorem calls_eq (c : Controller σ) (s : σ) (program : Program.Source) (l : Loop σ)
    (hstart : start c s program = .ok l) :
    (∀ schedule, (l.follow c schedule).result = .ok () →
      l.calls c schedule <+: completeGroups c.groupSize (l.emitted c schedule) ∧
      (l.refused c schedule = [] →
        l.calls c schedule = completeGroups c.groupSize (l.emitted c schedule)) ∧
      (l.follow c schedule).rounds = (l.calls c schedule).length ∧
      (l.follow c schedule).state =
        (l.calls c schedule).foldl (fun s g => (c.answer s g).2) s) ∧
    (∀ schedule p, (l.follow c schedule).refusal p ≠ [] →
      (l.follow c schedule).engineEnded = true) := by
  constructor
  · intro schedule hresult
    obtain ⟨phase, haccount⟩ := (accounted_start hstart).follow schedule
    simp only [List.nil_append] at haccount
    obtain ⟨hfailure, hstage⟩ := of_result_eq_ok hresult
    have hanswered := haccount.answered
    have hheld := haccount.held
    rw [hstage, hfailure] at hheld
    obtain ⟨rest, hout, hwhy⟩ := hheld.of_left rfl
    have hgroups := completeGroups_flatten c.groupSize_pos _ hanswered.full rest
    rw [← hout] at hgroups
    refine ⟨⟨_, hgroups.symm⟩, ?_, hanswered.rounds hfailure, hanswered.state⟩
    intro hnone
    rcases hwhy with ⟨hshort, _⟩ | hlost | hsome
    · -- what has not been answered is too short for a group
      rw [hgroups, completeGroups_of_lt hshort, List.append_nil]
    · exact absurd hnone hlost
    · cases hsome
  · intro schedule p hrefusal
    obtain ⟨_, haccount⟩ := (accounted_start hstart).follow schedule
    exact haccount.attached.engineEnded_of_refusal hrefusal

/-- A program that emits two values and halts. -/
def pair : List Int := [104, 1, 104, 2, 99]

/-- The engine runs to its end before the controller has its first turn. -/
def engineFirst : List Party := List.replicate 5 .engine

/-- A controller that answers the two values with no command is asked with both; and a command that
    is sent after the worker has ended is refused. -/
theorem calls_eq_pair :
    (∃ l, start (Scripted.controller 2) { script := some [] } (.cells pair) = .ok l ∧
      l.calls (Scripted.controller 2) (engineFirst ++ List.replicate 9 .controller) = [[1, 2]]) ∧
    (∃ l, start (Scripted.controller 2) { opening := [5] } (.cells pair) = .ok l ∧
      (l.follow (Scripted.controller 2) engineFirst).engineEnded = true) := by
  refine ⟨⟨_, rfl, ?_⟩, ⟨_, rfl, ?_⟩⟩
  · obtain ⟨hcalls, _⟩ :=
      calls_eq (Scripted.controller 2) { script := some [] } (.cells pair) _ rfl
    obtain ⟨_, hall, _⟩ := hcalls (engineFirst ++ List.replicate 9 .controller) rfl
    rw [hall (by decide +kernel)]
    decide +kernel
  · obtain ⟨_, hended⟩ :=
      calls_eq (Scripted.controller 2) { opening := [5] } (.cells pair) _ rfl
    exact hended engineFirst .controller (by decide +kernel)

/-- When the engine has run to its end before its first value is answered with a command, the
    command is refused, and the second value is lost although the loop ends well. -/
theorem calls_ne_completeGroups :
    ∃ l, start (Scripted.controller 1) { script := some [[5], [5]] } (.cells pair) = .ok l ∧
      (l.follow (Scripted.controller 1)
        (engineFirst ++ List.replicate 7 .controller)).result = .ok () ∧
      l.calls (Scripted.controller 1) (engineFirst ++ List.replicate 7 .controller) = [[1]] ∧
      completeGroups 1 (l.emitted (Scripted.controller 1)
        (engineFirst ++ List.replicate 7 .controller)) = [[1], [2]] := by
  refine ⟨_, rfl, ?_, ?_, ?_⟩
  · rfl
  · decide +kernel
  · decide +kernel

end Loop

end Intcode.Control
