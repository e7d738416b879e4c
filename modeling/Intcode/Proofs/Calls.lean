import Intcode.Memory.Access
import Intcode.Proofs.Exchange

namespace Intcode.Engine

/-!
# Calls to an engine

Whoever holds an engine may ask anything of it, in any order and as often as they like, and between
two calls others may do what they like with the channels.

* `Call`, `Answer`     — what can be asked of an engine, and what is answered
* `perform`            — one call
* `Event`, `live`      — calls one after another, with what others do to the channels in between
* `perform_of_not_drives` — what the calls change that do not let the engine work
* `Kept`               — a property of engines that no call takes away
* `Kept.live`          — an engine that has such a property has it for ever
-/

/-- What can be asked of an engine. -/
inductive Call where
  | step
  /-- Runs the engine until it has ended or is suspended, at most `fuel` steps. -/
  | run (fuel : Nat)
  | get (place : Offer)
  | set (place : Offer) (v : Int)
  | bindInput (rx : ReceiverRef)
  | bindOutput (tx : SenderRef)
  | takeInput
  | takeOutput
  | cloneOutput
  | close
  deriving Repr, DecidableEq

/-- The engine is to work on its program. -/
def Call.drives : Call → Bool
  | .step | .run _ => true
  | _ => false

/-- What comes of a call. -/
inductive Answer where
  /-- The status of the engine, or the fault that stopped it. -/
  | verdict (r : Except Fault Status)
  /-- The engine is suspended until a value arrives. -/
  | blocked
  | value (r : Except Fault Int)
  | stored (r : Except Fault Unit)
  | bound (r : Except BindingError Unit)
  | receiver (rx : Option ReceiverRef)
  | sender (r : Except ChannelError (Option SenderRef))
  | closed

/-- What whoever steps or runs the engine is told. -/
def report (e : Engine) : Answer := if e.request.isSome then .blocked else .verdict e.verdict

/-- Lets the engine act at a place, if it is an address. -/
def actAt {α : Type} (e : Engine) (place : Offer) (action : Int → Exec α) :
    Except Fault α × Engine :=
  match place.resolve with
  | .ok a => e.act (action a.toInt)
  | .error f => (.error f, e)

/-- The engine after an attempt to bind one of its ends. -/
def afterBinding (e : Engine) : Except BindingError Engine → Engine
  | .ok bound => bound
  | .error _ => e

/-- The channels after an attempt to make another sending end. -/
def afterCloning (h : Hub) : Except ChannelError (Option (SenderRef × Hub)) → Hub
  | .ok (some (_, h)) => h
  | _ => h

/-- One call.  What is refused leaves everything as it was. -/
def perform (e : Engine) (h : Hub) : Call → Answer × Engine × Hub
  | .step => ((e.step h).1.report, e.step h)
  | .run fuel => ((e.runFor fuel h).1.report, e.runFor fuel h)
  | .get place => (.value (e.actAt place Exec.load).1, (e.actAt place Exec.load).2, h)
  | .set place v =>
    (.stored (e.actAt place (Exec.save · v)).1, (e.actAt place (Exec.save · v)).2, h)
  | .bindInput rx => (.bound ((e.bindInput rx).map fun _ => ()), e.afterBinding (e.bindInput rx), h)
  | .bindOutput tx =>
    (.bound ((e.bindOutput tx).map fun _ => ()), e.afterBinding (e.bindOutput tx), h)
  | .takeInput => (.receiver e.takeInput.1, e.takeInput.2, h)
  | .takeOutput => (.sender (.ok e.takeOutput.1), e.takeOutput.2, h)
  | .cloneOutput =>
    (.sender ((e.cloneOutput h).map (·.map Prod.fst)), e, afterCloning h (e.cloneOutput h))
  | .close => (.closed, e, e.close h)

/-- What can happen to an engine and the channels. -/
inductive Event where
  | call (c : Call)
  /-- Others do something with the channels. -/
  | outside (change : Hub → Hub)

/-- An engine and the channels after an event. -/
def happen (s : Engine × Hub) : Event → Engine × Hub
  | .call c => (s.1.perform s.2 c).2
  | .outside change => (s.1, change s.2)

/-- An engine and the channels after events one after another. -/
def live (s : Engine × Hub) (events : List Event) : Engine × Hub := events.foldl happen s

/-! ### Access to memory -/

/-- The engine with another memory. -/
def withMemory (e : Engine) (memory : Memory) : Engine :=
  { e with machine := { e.machine with memory } }

/-- An address can always be read. -/
theorem act_load (e : Engine) (a : Address) :
    e.act (Exec.load a.toInt) =
      (.ok (e.machine.memory.lookup a.index), e.withMemory (e.machine.memory.read a).2) := by
  have hload : Exec.load a.toInt e.machine =
      .ok (e.machine.memory.read a).1
        { e.machine with memory := (e.machine.memory.read a).2 } := by
    show EStateM.bind (Exec.address a.toInt) _ e.machine = _
    unfold Exec.address
    rw [Address.ofInt?_eq_some_iff.2 rfl]
    rfl
  rw [act_eq, hload, Memory.read_fst]
  rfl

/-- An address can always be written. -/
theorem act_save (e : Engine) (a : Address) (v : Int) :
    e.act (Exec.save a.toInt v) = (.ok (), e.withMemory (e.machine.memory.write a v)) := by
  have hsave : Exec.save a.toInt v e.machine =
      .ok () { e.machine with memory := e.machine.memory.write a v } := by
    show EStateM.bind (Exec.address a.toInt) _ e.machine = _
    unfold Exec.address
    rw [Address.ofInt?_eq_some_iff.2 rfl]
    rfl
  rw [act_eq, hsave]
  rfl

/-- Reading from outside changes the memory at most. -/
theorem actAt_load (e : Engine) (place : Offer) :
    ∃ memory, (e.actAt place Exec.load).2 = e.withMemory memory := by
  unfold actAt
  cases place.resolve with
  | ok a => exact ⟨_, congrArg Prod.snd (act_load e a)⟩
  | error f => exact ⟨e.machine.memory, rfl⟩

/-- Writing from outside changes the memory at most. -/
theorem actAt_save (e : Engine) (place : Offer) (v : Int) :
    ∃ memory, (e.actAt place (Exec.save · v)).2 = e.withMemory memory := by
  unfold actAt
  cases place.resolve with
  | ok a => exact ⟨_, congrArg Prod.snd (act_save e a v)⟩
  | error f => exact ⟨e.machine.memory, rfl⟩

/-! ### Binding -/

section Binding

variable {e : Engine}

/-- Once the engine has started, its ends cannot be bound. -/
theorem perform_bindInput_of_started (hstarted : e.started = true) (rx : ReceiverRef) (h : Hub) :
    e.perform h (.bindInput rx) = (.bound (.error .inputAfterStart), e, h) := by
  rw [perform, bindInput, if_pos hstarted]
  rfl

theorem perform_bindOutput_of_started (hstarted : e.started = true) (tx : SenderRef) (h : Hub) :
    e.perform h (.bindOutput tx) = (.bound (.error .outputAfterStart), e, h) := by
  rw [perform, bindOutput, if_pos hstarted]
  rfl

/-- Before that they can, in place of what has been bound. -/
theorem perform_bindInput_of_unstarted (hstarted : e.started = false) (rx : ReceiverRef)
    (h : Hub) :
    e.perform h (.bindInput rx) = (.bound (.ok ()), { e with input := some rx }, h) := by
  rw [perform, bindInput, if_neg (ne_true_of_eq_false hstarted)]
  rfl

theorem perform_bindOutput_of_unstarted (hstarted : e.started = false) (tx : SenderRef)
    (h : Hub) :
    e.perform h (.bindOutput tx) = (.bound (.ok ()), { e with output := some tx }, h) := by
  rw [perform, bindOutput, if_neg (ne_true_of_eq_false hstarted)]
  rfl

end Binding

/-- A call that does not let the engine work concerns its memory or its ends. -/
theorem perform_of_not_drives (e : Engine) (h : Hub) {c : Call} (hdrives : c.drives = false) :
    (∃ memory, (e.perform h c).2.1 = e.withMemory memory) ∨
      ∃ input output, (e.perform h c).2.1 = { e with input, output } := by
  cases c with
  | step | run fuel => cases hdrives
  | get place => exact .inl (actAt_load e place)
  | set place v => exact .inl (actAt_save e place v)
  | bindInput rx =>
    refine .inr ?_
    rcases Bool.eq_false_or_eq_true e.started with hstarted | hstarted
    · exact ⟨e.input, e.output, congrArg (·.2.1) (perform_bindInput_of_started hstarted rx h)⟩
    · exact ⟨some rx, e.output, congrArg (·.2.1) (perform_bindInput_of_unstarted hstarted rx h)⟩
  | bindOutput tx =>
    refine .inr ?_
    rcases Bool.eq_false_or_eq_true e.started with hstarted | hstarted
    · exact ⟨e.input, e.output, congrArg (·.2.1) (perform_bindOutput_of_started hstarted tx h)⟩
    · exact ⟨e.input, some tx, congrArg (·.2.1) (perform_bindOutput_of_unstarted hstarted tx h)⟩
  | takeInput => exact .inr ⟨none, e.output, rfl⟩
  | takeOutput => exact .inr ⟨e.input, none, rfl⟩
  | cloneOutput | close => exact .inr ⟨e.input, e.output, rfl⟩

/-! ### What no call takes away -/

/-- A run is made of steps, and keeps what they keep. -/
theorem runFor_keeps {I : Engine → Prop} (hstep : ∀ e h, I e → I (e.step h).1) {e : Engine}
    (he : I e) (fuel : Nat) (h : Hub) : I (e.runFor fuel h).1 := by
  induction fuel generalizing e h with
  | zero => exact he
  | succ fuel ih =>
    have hnext := hstep e h he
    rw [Engine.runFor]
    split
    · dsimp only
      split
      · exact hnext
      · exact ih hnext _
    · exact he

/-- No call takes this property away: no step does, and it is a matter neither of the memory nor of
    the ends. -/
structure Kept (I : Engine → Prop) : Prop where
  step : ∀ e h, I e → I (e.step h).1
  memory : ∀ (e : Engine) (memory : Memory), I e → I (e.withMemory memory)
  ends : ∀ (e : Engine) (input : Option ReceiverRef) (output : Option SenderRef),
    I e → I { e with input, output }

namespace Kept

variable {I : Engine → Prop} {e : Engine}

/-- **No call takes it away.** -/
theorem perform (hkept : Kept I) (h : Hub) (c : Call) (he : I e) : I (e.perform h c).2.1 := by
  cases hdrives : c.drives with
  | true =>
    cases c with
    | step => exact hkept.step e h he
    | run fuel => exact runFor_keeps hkept.step he fuel h
    | _ => cases hdrives
  | false =>
    rcases perform_of_not_drives e h hdrives with ⟨memory, hnext⟩ | ⟨input, output, hnext⟩
    · rw [hnext]
      exact hkept.memory e memory he
    · rw [hnext]
      exact hkept.ends e input output he

/-- **An engine that has it has it for ever.** -/
theorem live (hkept : Kept I) {s : Engine × Hub} (hs : I s.1) (events : List Event) :
    I (Engine.live s events).1 := by
  induction events generalizing s with
  | nil => exact hs
  | cons event events ih =>
    refine ih ?_
    cases event with
    | call c => exact hkept.perform s.2 c hs
    | outside change => exact hs

end Kept

end Intcode.Engine
