import Intcode.Proofs.Turns

namespace Intcode

/-!
# Processes

A process is an engine and its worker without the channels around them.  It remembers what it has
taken and what it has sent, and acts on what it has been supplied with in all.  A supply that grows
takes away nothing the process can do, which is why the order of steps does not matter.

* `Process.advance`       — what a process does next, if it can do anything
* `Process.advance_suspend`, `Process.advance_answer` — a process whose engine asks for a value
* `Process.advance_mono`  — a longer supply changes nothing
-/

/-- What a list holds at some place, every longer one holds there. -/
theorem getElem?_of_isPrefix {α : Type} {vs ws : List α} (hle : vs <+: ws) {n : Nat} {v : α}
    (hv : vs[n]? = some v) : ws[n]? = some v := by
  obtain ⟨more, rfl⟩ := hle
  have hlt : n < vs.length := (List.getElem?_eq_some_iff.1 hv).1
  rw [List.getElem?_append_left hlt, hv]

/-- An engine with its worker, and the values that have passed through it. -/
structure Process where
  /-- The engine, with the ends it started with. -/
  engine : Engine
  /-- How far its worker has got. -/
  phase : Phase := .running
  taken : List Int := []
  sent : List Int := []

namespace Process

/-- The process when its engine has changed. -/
def become (p : Process) (e : Engine) : Process := { p with engine := e, phase := e.phase }

/-- What a process does next.  It can do nothing when it has ended, and when it has taken all of
    its supply and needs more. -/
def advance (supply : List Int) (p : Process) : Option Process :=
  match p.phase with
  | .running =>
    match p.engine.move with
    | .rest => none
    | .act next => some (p.become next)
    | .await r =>
      supply[p.taken.length]?.map fun v =>
        { p.become (p.engine.answer r v) with taken := p.taken ++ [v] }
    | .tell _ _ v told => some { p.become told.complete with sent := p.sent ++ [v] }
  | .releasingOutput => some { p with phase := .releasingInput }
  | .releasingInput => some { p with phase := .ended }
  | .ended => none

variable {p q : Process} {supply supply' : List Int} {next told : Engine} {r : Request}
  {tx : SenderRef} {origin v : Int}

/-- A worker whose engine has taken a step holds what it has held. -/
theorem holdsOutput_become (hphase : p.phase = .running) (e : Engine) :
    (p.become e).phase.holdsOutput = p.phase.holdsOutput := by
  rw [hphase]
  exact Engine.holdsOutput_phase e

theorem holdsInput_become (hphase : p.phase = .running) (e : Engine) :
    (p.become e).phase.holdsInput = p.phase.holdsInput := by
  rw [hphase]
  exact Engine.holdsInput_phase e

/-! ### One lemma for each kind of step -/

theorem advance_act (hphase : p.phase = .running) (hmove : p.engine.move = .act next) :
    p.advance supply = some (p.become next) := by
  unfold advance
  rw [hphase, hmove]

theorem advance_await (hphase : p.phase = .running) (hmove : p.engine.move = .await r) :
    p.advance supply = supply[p.taken.length]?.map fun v =>
      { p.become (p.engine.answer r v) with taken := p.taken ++ [v] } := by
  unfold advance
  rw [hphase, hmove]

theorem advance_tell (hphase : p.phase = .running)
    (hmove : p.engine.move = .tell tx origin v told) :
    p.advance supply = some { p.become told.complete with sent := p.sent ++ [v] } := by
  unfold advance
  rw [hphase, hmove]

theorem advance_releasingOutput (hphase : p.phase = .releasingOutput) :
    p.advance supply = some { p with phase := .releasingInput } := by
  unfold advance
  rw [hphase]

theorem advance_releasingInput (hphase : p.phase = .releasingInput) :
    p.advance supply = some { p with phase := .ended } := by
  unfold advance
  rw [hphase]

theorem advance_ended (hphase : p.phase = .ended) : p.advance supply = none := by
  unfold advance
  rw [hphase]

/-! ### Engines that ask for a value -/

/-- A process whose engine asks comes to the point where the engine is suspended, or is there. -/
theorem advance_suspend {e : Engine} (hphase : p.phase = .running)
    (hask : Engine.Awaiting p.engine r e) :
    p.advance supply = some (p.become e) ∨ p.become e = p := by
  cases hask with
  | now hmove _ => exact .inl (advance_act hphase hmove)
  | already hmove =>
    have hrun := (Engine.phase_eq_running_iff _).2 (Engine.isRunning_of_move hmove nofun)
    right
    unfold become
    rw [hrun, ← hphase]

/-- From there it goes on with the next value of its supply. -/
theorem advance_answer {e : Engine} (hask : Engine.Awaiting p.engine r e)
    (hnext : supply[p.taken.length]? = some v) :
    (p.become e).advance supply =
      some { p.become (e.answer r v) with taken := p.taken ++ [v] } := by
  have hphase : (p.become e).phase = .running :=
    (Engine.phase_eq_running_iff e).2 hask.isRunning_suspended
  rw [advance_await hphase hask.move]
  show Option.map _ supply[p.taken.length]? = _
  rw [hnext]
  rfl

/-! ### What a step keeps -/

/-- **A longer supply changes nothing** about what a process does. -/
theorem advance_mono (hle : supply <+: supply') (hstep : p.advance supply = some q) :
    p.advance supply' = some q := by
  unfold advance at hstep ⊢
  cases hphase : p.phase with
  | releasingOutput | releasingInput | ended =>
    rw [hphase] at hstep
    exact hstep
  | running =>
    rw [hphase] at hstep
    dsimp only at hstep ⊢
    cases hmove : p.engine.move with
    | rest | act | tell =>
      rw [hmove] at hstep
      exact hstep
    | await r =>
      rw [hmove] at hstep
      dsimp only at hstep ⊢
      obtain ⟨v, hv, hq⟩ := Option.map_eq_some_iff.1 hstep
      -- the value it takes is one of the shorter supply already
      rw [getElem?_of_isPrefix hle hv]
      exact congrArg some hq

/-- What has been sent stays sent. -/
theorem sent_prefix (hstep : p.advance supply = some q) : p.sent <+: q.sent := by
  unfold advance at hstep
  split at hstep
  · split at hstep
    · cases hstep
    · cases hstep
      exact List.prefix_rfl
    · obtain ⟨v, _, rfl⟩ := Option.map_eq_some_iff.1 hstep
      exact List.prefix_rfl
    · cases hstep
      exact List.prefix_append _ _
  · cases hstep
    exact List.prefix_rfl
  · cases hstep
    exact List.prefix_rfl
  · cases hstep

/-- A process takes its supply in order. -/
theorem taken_prefix (hstep : p.advance supply = some q) (htaken : p.taken <+: supply) :
    q.taken <+: supply := by
  unfold advance at hstep
  split at hstep
  · split at hstep
    · cases hstep
    · cases hstep
      exact htaken
    · obtain ⟨v, hv, rfl⟩ := Option.map_eq_some_iff.1 hstep
      -- the value it takes is the first that it has not taken
      obtain ⟨rest, rfl⟩ := htaken
      rw [List.getElem?_append_right (Nat.le_refl _), Nat.sub_self] at hv
      obtain ⟨tail, rfl⟩ : ∃ tail, rest = v :: tail := List.head?_eq_some_iff.1 (by
        rw [List.head?_eq_getElem?]
        exact hv)
      exact ⟨tail, List.append_cons p.taken v tail |>.symm⟩
    · cases hstep
      exact htaken
  · cases hstep
    exact htaken
  · cases hstep
    exact htaken
  · cases hstep

/-- When its engine has ended, a process only lets go of its ends. -/
theorem advance_of_ne_running (hphase : p.phase ≠ .running) (hstep : p.advance supply = some q) :
    q.phase ≠ .running ∧ q.engine = p.engine ∧ q.taken = p.taken ∧ q.sent = p.sent := by
  unfold advance at hstep
  split at hstep
  · rename_i hrunning
    exact absurd hrunning hphase
  · cases hstep
    exact ⟨nofun, rfl, rfl, rfl⟩
  · cases hstep
    exact ⟨nofun, rfl, rfl, rfl⟩
  · cases hstep

end Process

end Intcode
