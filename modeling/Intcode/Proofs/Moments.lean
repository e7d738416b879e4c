import Intcode.Proofs.Calls

namespace Intcode.Engine

/-!
# The single calls of a life

A run is nothing but the steps it takes.  With its runs taken apart, what an engine goes through is
a list of single calls, each made to the engine as it was at that moment.  What is to be said of a
life as a whole is said of this list.

* `Moment`          — a single call, and the engine it is made to
* `moments`         — the single calls of a life
* `live_induction`  — what every single call keeps of an engine and its past holds of every life
-/

/-- A single call, and the engine it is made to. -/
structure Moment where
  engine : Engine
  call : Call

/-- The steps of a run. -/
def runMoments : Nat → Engine → Hub → List Moment
  | 0, _, _ => []
  | fuel + 1, e, h =>
    if e.isRunning then
      let (next, h) := e.step h
      ⟨e, .step⟩ :: if next.request.isSome then [] else runMoments fuel next h
    else []

/-- The single calls that a call comes to. -/
def Call.moments (s : Engine × Hub) : Call → List Moment
  | .run fuel => runMoments fuel s.1 s.2
  | c => [⟨s.1, c⟩]

/-- The single calls that an event comes to. -/
def Event.moments (s : Engine × Hub) : Event → List Moment
  | .call c => c.moments s
  | .outside _ => []

/-- The single calls of a life. -/
def moments (s : Engine × Hub) : List Event → List Moment
  | [] => []
  | event :: events => event.moments s ++ moments (happen s event) events

section Induction

variable {P : List Moment → Engine → Prop}

/-- What a step keeps a run keeps, with its steps added to the past. -/
theorem runFor_induction
    (hstep : ∀ past e h, P past e → P (past ++ [⟨e, .step⟩]) (e.step h).1)
    {past : List Moment} {e : Engine} (he : P past e) (fuel : Nat) (h : Hub) :
    P (past ++ runMoments fuel e h) (e.runFor fuel h).1 := by
  induction fuel generalizing past e h with
  | zero =>
    rw [runMoments, List.append_nil]
    exact he
  | succ fuel ih =>
    have hnext := hstep past e h he
    rw [runMoments, Engine.runFor]
    split
    · dsimp only
      split
      · exact hnext
      · have hrest := ih hnext (e.step h).2
        rw [List.append_assoc] at hrest
        exact hrest
    · rw [List.append_nil]
      exact he

/-- **What every single call keeps, a life keeps**, with the single calls added to the past. -/
theorem live_induction
    (hsingle : ∀ past e h c, (∀ fuel, c ≠ .run fuel) → P past e →
      P (past ++ [⟨e, c⟩]) (e.perform h c).2.1)
    {past : List Moment} {s : Engine × Hub} (hs : P past s.1) (events : List Event) :
    P (past ++ moments s events) (live s events).1 := by
  induction events generalizing past s with
  | nil =>
    rw [moments, List.append_nil]
    exact hs
  | cons event events ih =>
    rw [moments, ← List.append_assoc]
    refine ih ?_
    cases event with
    | outside change =>
      rw [Event.moments, List.append_nil]
      exact hs
    | call c =>
      cases c with
      | run fuel => exact runFor_induction (hsingle · · · .step nofun) hs fuel s.2
      | _ => exact hsingle past s.1 s.2 _ nofun hs

end Induction

end Intcode.Engine
