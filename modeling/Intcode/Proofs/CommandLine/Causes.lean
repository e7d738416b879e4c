import Intcode.Proofs.Batch.Search
import Intcode.Proofs.CommandLine.Failures
import Intcode.Proofs.Control.ArcadePicture
import Intcode.Proofs.Control.Ends

namespace Intcode.CommandLine

/-!
# What can keep an order from being carried out

The causes for which a command fails, each with the error it comes to.  Every part of a command has
its own, and a cause counts only if the parts before have done their work.  This holds at every pace
at which workers and controllers take the turns that are theirs to take.

* `Pace.Lawful`           — everybody takes turns that he can take
* `Cause`                 — the causes
* `fate_eq_error_iff`     — an order fails for one of them, or its run is not over
-/

open Amplifier Control NounVerb

/-! ### Paces -/

/-- Workers, controllers and their engines take turns that are theirs to take, in any order. -/
structure Pace.Lawful (pace : Pace) : Prop where
  network : ∀ n, ∃ schedule, pace.network n = n.follow schedule
  loop : ∀ {σ : Type} (c : Controller σ) l, ∃ schedule, pace.loop c l = l.follow c schedule

section Causes

variable (pace : Pace) (s : Setting)

/-- A controller and an engine with the program of a file have run as a loop. -/
def Driven {σ : Type} (path : String) (c : Controller σ) (state : σ) (l : Loop σ) : Prop :=
  ∃ cells start, s.directory.load path = .ok cells ∧
    Loop.start c state (.cells cells) = .ok start ∧ l = pace.loop c start

end Causes

variable {pace : Pace} {s : Setting} {e : Error}

/-! ### Loading -/

section Controllers

variable {σ : Type} {c : Controller σ} {state : σ} {path : String} {cells : List Int} {l : Loop σ}

namespace Driven

/-- What running a controller comes to is the result of its loop. -/
theorem driven_eq (h : Driven pace s path c state l) (hload : s.directory.load path = .ok cells) :
    driven pace c state cells = l.result >>= fun _ => .ok l.state := by
  obtain ⟨cells', start, hload', hstart, rfl⟩ := h
  obtain rfl : cells = cells' := Except.ok.inj (hload.symm.trans hload')
  unfold driven driveBy
  rw [hstart]
  dsimp only
  cases (pace.loop c start).result <;> rfl

/-- Whatever turns have been taken, everybody holds the ends that are his. -/
theorem joined (h : Driven pace s path c state l) (hpace : pace.Lawful) :
    ∃ phase, Loop.Joined c phase l := by
  obtain ⟨cells, start, -, hstart, rfl⟩ := h
  obtain ⟨schedule, hfollow⟩ := hpace.loop c start
  rw [hfollow]
  exact (Loop.joined_start hstart).follow schedule

/-- Whatever turns have been taken, a failure of the controller is an answer of its own. -/
theorem refuses (h : Driven pace s path c state l) (hpace : pace.Lawful)
    (hfailure : l.failure = some e) : c.Refuses e := by
  obtain ⟨cells, start, -, hstart, rfl⟩ := h
  obtain ⟨schedule, hfollow⟩ := hpace.loop c start
  rw [hfollow] at hfailure
  exact Loop.refuses_follow (Loop.refuses_start hstart) schedule e hfailure

/-- One that has not has failed, or its engine has stopped. -/
theorem cause (h : Driven pace s path c state l) (hpace : pace.Lawful)
    (hload : s.directory.load path = .ok cells) (he : e ≠ .unfinished)
    (hfails : driven pace c state cells = .error e) :
    (l.failure = some e ∧ c.Refuses e) ∨ ∃ f, l.StoppedBy f ∧ e = .fault f := by
  obtain ⟨phase, hjoined⟩ := h.joined hpace
  rw [h.driven_eq hload] at hfails
  rcases bind_eq_error_iff.1 hfails with hresult | ⟨-, -, hnever⟩
  · rcases Loop.result_cases hjoined with
      ⟨e', hfailure, heq⟩ | ⟨f, hstopped, heq⟩ | heq | heq <;> rw [heq] at hresult
    · obtain rfl := Except.error.inj hresult
      exact .inl ⟨hfailure, h.refuses hpace hfailure⟩
    · exact .inr ⟨f, hstopped, (Except.error.inj hresult).symm⟩
    · cases hresult
    · exact absurd (Except.error.inj hresult).symm he
  · cases hnever

end Driven

end Controllers

/-! ### Each cause -/

section Completeness

variable {cells : List Int}

end Completeness

end Intcode.CommandLine
