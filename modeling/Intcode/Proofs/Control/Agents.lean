import Intcode.Control.Loop
import Intcode.Proofs.Interleaving
import Intcode.Proofs.Process

namespace Intcode.Control

open Interleaving

/-!
# Agents

An agent is a controller without the channels around it, as a process is an engine without them.
It acts on the readings it has been supplied with in all.  An agent and a process supply each other,
and as a supply that grows takes away nothing they can do, the order of their steps does not matter.

* `Agent.advance`       — what an agent does next, if it can do anything
* `Agent.advance_mono`  — a longer supply changes nothing
* `act`, `act_commutes` — an agent and a process, and the order of their steps
-/

/-- A controller in its loop, and the values that have passed through it. -/
structure Agent (σ : Type) where
  state : σ
  /-- Where it is in its loop. -/
  stage : Stage
  /-- The groups it has been asked to answer. -/
  asked : List (List Int) := []
  /-- The readings it has taken. -/
  taken : List Int := []
  /-- The commands it has sent. -/
  sent : List Int := []

namespace Agent

variable {σ : Type}

/-- What an agent does next.  It can do nothing when it has taken all of its supply and needs more,
    and when it has no answer. -/
def advance (c : Controller σ) (supply : List Int) (a : Agent σ) : Option (Agent σ) :=
  match a.stage with
  | .sending [] => some { a with stage := .reading [] }
  | .sending (v :: commands) =>
    some { a with sent := a.sent ++ [v], stage := .sending commands }
  | .reading group =>
    supply[a.taken.length]?.map fun v =>
      { a with
        taken := a.taken ++ [v]
        stage := if (group ++ [v]).length < c.groupSize then .reading (group ++ [v])
          else .answering (group ++ [v]) }
  | .answering group =>
    match c.answer a.state group with
    | (.ok commands, state) =>
      some { a with state, asked := a.asked ++ [group], stage := .sending commands }
    | (.error _, _) => none
  | _ => none

variable {c : Controller σ} {a b : Agent σ} {supply supply' group commands : List Int} {v : Int}

/-! ### One lemma for each kind of step -/

theorem advance_settles (hstage : a.stage = .sending []) :
    a.advance c supply = some { a with stage := .reading [] } := by
  simp only [advance, hstage]

theorem advance_sends (hstage : a.stage = .sending (v :: commands)) :
    a.advance c supply =
      some { a with sent := a.sent ++ [v], stage := .sending commands } := by
  simp only [advance, hstage]

theorem advance_reading (hstage : a.stage = .reading group) :
    a.advance c supply = supply[a.taken.length]?.map fun v =>
      { a with
        taken := a.taken ++ [v]
        stage := if (group ++ [v]).length < c.groupSize then .reading (group ++ [v])
          else .answering (group ++ [v]) } := by
  simp only [advance, hstage]

theorem advance_answers {state : σ} (hstage : a.stage = .answering group)
    (hanswer : c.answer a.state group = (.ok commands, state)) :
    a.advance c supply =
      some { a with state, asked := a.asked ++ [group], stage := .sending commands } := by
  simp only [advance, hstage, hanswer]

/-! ### What a step keeps -/

/-- **A longer supply changes nothing** about what an agent does. -/
theorem advance_mono (hle : supply <+: supply') (hstep : a.advance c supply = some b) :
    a.advance c supply' = some b := by
  cases hstage : a.stage with
  | reading group =>
    rw [advance_reading hstage] at hstep ⊢
    obtain ⟨v, hv, hb⟩ := Option.map_eq_some_iff.1 hstep
    -- the value it takes is one of the shorter supply already
    rw [getElem?_of_isPrefix hle hv]
    exact congrArg some hb
  | sending commands =>
    unfold advance at hstep ⊢
    rw [hstage] at hstep ⊢
    cases commands <;> exact hstep
  | answering | closingCommands | closingReadings | joining | done =>
    unfold advance at hstep ⊢
    rw [hstage] at hstep ⊢
    exact hstep

/-- What has been sent stays sent. -/
theorem sent_prefix (hstep : a.advance c supply = some b) : a.sent <+: b.sent := by
  unfold advance at hstep
  split at hstep
  · cases hstep
    exact List.prefix_rfl
  · cases hstep
    exact List.prefix_append _ _
  · obtain ⟨v, _, rfl⟩ := Option.map_eq_some_iff.1 hstep
    exact List.prefix_rfl
  · split at hstep
    · cases hstep
      exact List.prefix_rfl
    · cases hstep
  · cases hstep

end Agent

/-! ### A process and an agent -/

variable {σ : Type} {c : Controller σ}

/-- One of the two does what it does next. -/
def act (c : Controller σ) : Party → Process × Agent σ → Option (Process × Agent σ)
  | .engine, (p, a) => (p.advance a.sent).map (·, a)
  | .controller, (p, a) => (a.advance c p.sent).map (p, ·)

theorem act_engine {p q : Process} {a : Agent σ} (hstep : p.advance a.sent = some q) :
    act c .engine (p, a) = some (q, a) := by
  simp only [act, hstep, Option.map_some]

theorem act_controller {p : Process} {a b : Agent σ} (hstep : a.advance c p.sent = some b) :
    act c .controller (p, a) = some (p, b) := by
  simp only [act, hstep, Option.map_some]

/-- **What the two do can be done in either order.** -/
theorem act_commutes (c : Controller σ) : Commutes (act c) := by
  have hboth {p q : Process} {a b : Agent σ} (hp : p.advance a.sent = some q)
      (ha : a.advance c p.sent = some b) :
      act c .controller (q, a) = some (q, b) ∧ act c .engine (p, b) = some (q, b) :=
    ⟨act_controller (Agent.advance_mono (Process.sent_prefix hp) ha),
      act_engine (Process.advance_mono (Agent.sent_prefix ha) hp)⟩
  rintro i j ⟨p, a⟩ t u hne ht hu
  cases i with
  | engine =>
    cases j with
    | engine => exact absurd rfl hne
    | controller =>
      obtain ⟨q, hq, rfl⟩ := Option.map_eq_some_iff.1 ht
      obtain ⟨b, hb, rfl⟩ := Option.map_eq_some_iff.1 hu
      exact ⟨_, hboth hq hb⟩
  | controller =>
    cases j with
    | controller => exact absurd rfl hne
    | engine =>
      obtain ⟨b, hb, rfl⟩ := Option.map_eq_some_iff.1 ht
      obtain ⟨q, hq, rfl⟩ := Option.map_eq_some_iff.1 hu
      exact ⟨_, (hboth hq hb).symm⟩

end Intcode.Control
