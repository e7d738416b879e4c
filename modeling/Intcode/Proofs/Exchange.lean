import Intcode.Proofs.Content
import Intcode.Proofs.Move

namespace Intcode

/-!
# Exchanges

A step of an engine among channels, case by case: what has passed between the engine and the
channels, and what the step leaves behind.

* `Engine.Awaiting`       — the engine asks for a value, and is suspended until it has one
* `Engine.Exchange`       — the ways a step can go, with the values taken and sent
* `Engine.exchange_step`  — every step is one of them
* `Engine.ports_step`     — what a step leaves of the ends and the suspension of an engine
-/

namespace Engine

/-- The engine asks for a value, now or since an earlier step.  The last argument is the engine
    while it is suspended. -/
inductive Awaiting (e : Engine) (r : Request) : Engine → Prop where
  | already (hmove : e.move = .await r) : Awaiting e r e
  | now {next : Engine} (hmove : e.move = .act next) (hreq : next.request = some r) :
    Awaiting e r next

/-- The value a step takes from the input. -/
def taken? (e : Engine) (h : Hub) : Option Int :=
  match e.move with
  | .await r => h.incoming? r.receiver
  | .act next => next.request.bind fun r => h.incoming? r.receiver
  | _ => none

/-- The value a step sends to the output. -/
def sent? (e : Engine) (h : Hub) : Option Int :=
  match e.move with
  | .tell tx _ v _ => if h.listens tx then some v else none
  | _ => none

/-- The ways a step can go, with the value taken, the value sent, and what is left behind. -/
inductive Exchange (e : Engine) (h : Hub) : Option Int → Option Int → Engine × Hub → Prop where
  /-- The engine has ended. -/
  | rest (hmove : e.move = .rest) : Exchange e h none none (e, h)
  /-- The step has nothing to do with the channels. -/
  | silent {next : Engine} (hmove : e.move = .act next) (hreq : next.request = none) :
    Exchange e h none none (next, h)
  /-- There is no value yet. -/
  | waits {r : Request} {e' : Engine} (hask : Awaiting e r e')
      (hopen : (h.channel r.receiver.channel).receiverOpen = true)
      (hempty : h.content r.receiver.channel = [])
      (hsenders : (h.channel r.receiver.channel).senders ≠ 0) : Exchange e h none none (e', h)
  /-- A value is taken. -/
  | takes {r : Request} {e' : Engine} {v : Int} {buffer : Fifo Int} (hask : Awaiting e r e')
      (hopen : (h.channel r.receiver.channel).receiverOpen = true)
      (hcontent : h.content r.receiver.channel = v :: buffer.toList) :
    Exchange e h (some v) none (e'.answer r v, h.refill r.receiver.channel buffer)
  /-- No value will come. -/
  | givesUp {r : Request} {e' : Engine} (hask : Awaiting e r e')
      (hclosed : (h.channel r.receiver.channel).receiverOpen = false ∨
        h.content r.receiver.channel = [] ∧ (h.channel r.receiver.channel).senders = 0) :
    Exchange e h none none (e'.giveUp r, h)
  /-- A value is sent. -/
  | sends {tx : SenderRef} {origin v : Int} {told : Engine}
      (hmove : e.move = .tell tx origin v told)
      (hlistens : h.listens tx = true) (hlt : tx.channel < h.channels.size) :
    Exchange e h none (some v)
      (told.complete, h.refill tx.channel ((h.channel tx.channel).buffer.push v))
  /-- Nobody listens to the value. -/
  | refused {tx : SenderRef} {origin v : Int} {told : Engine}
      (hmove : e.move = .tell tx origin v told) (hlistens : h.listens tx = false) :
    Exchange e h none none (told.fail origin .outputClosed, h)

variable {e e' next : Engine} {h : Hub} {r : Request}

/-! ### Engines that ask for a value -/

/-- A running engine with a request waits for its value. -/
theorem move_of_request (hrun : e.status = .running) (hreq : e.request = some r) :
    e.move = .await r := by
  unfold move
  rw [hrun, hreq]

theorem Awaiting.request (hask : Awaiting e r e') : e'.request = some r := by
  cases hask with
  | already hmove => exact respects_of_move hmove
  | now _ hreq => exact hreq

/-- The suspended engine goes on asking. -/
theorem Awaiting.move (hask : Awaiting e r e') : e'.move = .await r := by
  cases hask with
  | already hmove => exact hmove
  | now hmove hreq =>
    obtain ⟨_, _, hsuspended⟩ := respects_of_move hmove
    exact move_of_request (hsuspended r hreq).1 hreq

/-- Only running engines ask. -/
theorem Awaiting.isRunning (hask : Awaiting e r e') : e.isRunning = true := by
  cases hask with
  | already hmove => exact isRunning_of_move hmove nofun
  | now hmove _ => exact isRunning_of_move hmove nofun

/-- A suspended engine runs. -/
theorem Awaiting.isRunning_suspended (hask : Awaiting e r e') : e'.isRunning = true :=
  (Awaiting.already hask.move).isRunning

/-- Suspension leaves an engine its ends. -/
theorem Awaiting.ends (hask : Awaiting e r e') : e'.input = e.input ∧ e'.output = e.output := by
  cases hask with
  | already => exact ⟨rfl, rfl⟩
  | now hmove =>
    obtain ⟨hin, hout, _⟩ := respects_of_move hmove
    exact ⟨hin, hout⟩

/-- An engine asks at its input, if it does not ask already. -/
theorem Awaiting.receiver (hask : Awaiting e r e') :
    e.request = some r ∨ e.input = some r.receiver := by
  cases hask with
  | already hmove => exact .inl (respects_of_move hmove)
  | now hmove hsuspend =>
    obtain ⟨_, _, hsuspended⟩ := respects_of_move hmove
    exact .inr (hsuspended r hsuspend).2

/-- An engine that is answered has the ends it had. -/
theorem Awaiting.ports_answer (hask : Awaiting e r e') (v : Int) :
    (e'.answer r v).ports = (none, e.input, e.output) := by
  obtain ⟨hin, hout⟩ := hask.ends
  rw [← hin, ← hout]
  exact ports_accept _ _ _ v

/-- An engine that gives up has the ends it had. -/
theorem Awaiting.ports_giveUp (hask : Awaiting e r e') :
    (e'.giveUp r).ports = (none, e.input, e.output) := by
  obtain ⟨hin, hout⟩ := hask.ends
  rw [← hin, ← hout]
  rfl

/-- A step that suspends nobody keeps the ends. -/
theorem ports_of_act (hmove : e.move = .act next) (hreq : next.request = none) :
    next.ports = (none, e.input, e.output) := by
  obtain ⟨hin, hout, _⟩ := respects_of_move hmove
  unfold ports
  rw [hreq, hin, hout]

/-- A value is sent to the output, by an engine that waits for nothing and keeps its ends. -/
theorem ports_of_tell {tx : SenderRef} {origin v : Int} {told : Engine}
    (hmove : e.move = .tell tx origin v told) :
    e.output = some tx ∧ told.ports = (none, e.input, e.output) := by
  obtain ⟨hout, htold, _⟩ := respects_of_move hmove
  refine ⟨hout, htold.trans ?_⟩
  unfold ports
  cases hreq : e.request with
  | none => rfl
  | some r =>
    -- a running engine with a request would wait
    have hrun := (isRunning_iff e).1 (isRunning_of_move hmove nofun)
    rw [move_of_request hrun hreq] at hmove
    cases hmove

/-! ### The step after each move -/

theorem step_of_rest (hmove : e.move = .rest) : e.step h = (e, h) := by
  rw [step_eq, hmove]
  rfl

theorem step_of_act (hmove : e.move = .act next) (hreq : next.request = none) :
    e.step h = (next, h) := by
  rw [step_eq, hmove]
  unfold Move.settle
  dsimp only
  rw [hreq]

/-- A step of an engine that asks is what its suspension finds at the channel. -/
theorem Awaiting.step_eq (hask : Awaiting e r e') : e.step h = e'.receive h r := by
  rw [Engine.step_eq]
  cases hask with
  | already hmove => rw [hmove]; rfl
  | now hmove hreq =>
    rw [hmove]
    unfold Move.settle
    dsimp only
    rw [hreq]

/-- The suspended engine goes on as the engine would that asks. -/
theorem Awaiting.step_suspended (hask : Awaiting e r e') : e'.step h = e.step h :=
  (Awaiting.already hask.move).step_eq.trans hask.step_eq.symm

/-- An engine that asks takes the first value there is. -/
theorem Awaiting.step_takes {n : Nat} (hask : Awaiting e r e') (hrx : r.receiver.channel = n)
    (hopen : (h.channel n).receiverOpen = true) {v : Int} {vs : List Int}
    (hcontent : h.content n = v :: vs) :
    ∃ buffer : Fifo Int, buffer.toList = vs ∧
      e.step h = (e'.answer r v, h.refill n buffer) := by
  subst hrx
  rw [hask.step_eq]
  unfold receive
  rcases h.recv_cases r.receiver with
    ⟨w, buffer, _, hcontent', hrecv⟩ | ⟨err, hclosed, hrecv⟩ | ⟨_, hempty, _, hrecv⟩
  · rw [hcontent] at hcontent'
    obtain ⟨rfl, rfl⟩ := List.cons_eq_cons.1 hcontent'
    refine ⟨buffer, rfl, ?_⟩
    rw [hrecv]
    rfl
  · rcases hclosed with hfalse | ⟨hempty, _⟩
    · rw [hopen] at hfalse
      cases hfalse
    · rw [hcontent] at hempty
      cases hempty
  · rw [hcontent] at hempty
    cases hempty

/-- An engine that asks gives up at the end of the stream. -/
theorem Awaiting.step_givesUp {n : Nat} (hask : Awaiting e r e') (hrx : r.receiver.channel = n)
    (hempty : h.content n = []) (hsenders : (h.channel n).senders = 0) :
    e.step h = (e'.giveUp r, h) := by
  subst hrx
  rw [hask.step_eq]
  unfold receive
  rcases h.recv_cases r.receiver with
    ⟨w, buffer, _, hcontent, _⟩ | ⟨err, _, hrecv⟩ | ⟨_, _, hsome, _⟩
  · rw [hempty] at hcontent
    cases hcontent
  · rw [hrecv]
    rfl
  · exact absurd hsenders hsome

/-- The output that a value is sent to is the engine's own. -/
theorem step_of_tell {tx : SenderRef} {origin v : Int} {told : Engine}
    (hmove : e.move = .tell tx origin v told) :
    e.step h = match h.send tx v with
      | .ok h => (told.complete, h)
      | .error _ => (told.fail origin .outputClosed, h) := by
  obtain ⟨hout, hports, _⟩ := respects_of_move hmove
  have htold : told.output = some tx := (congrArg (·.2.2) hports).trans hout
  rw [Engine.step_eq, hmove]
  show told.emit h origin v = _
  unfold emit
  cases hsend : h.send tx v <;> simp only [htold, hsend]

/-- A value that somebody listens to is sent. -/
theorem step_sends {tx : SenderRef} {origin v : Int} {told : Engine}
    (hmove : e.move = .tell tx origin v told) (hlistens : h.listens tx = true) :
    e.step h =
      (told.complete, h.refill tx.channel ((h.channel tx.channel).buffer.push v)) := by
  rw [step_of_tell hmove]
  rcases h.send_cases tx v with ⟨_, _, hsend⟩ | ⟨hdeaf, _⟩
  · rw [hsend]
  · rw [hlistens] at hdeaf
    cases hdeaf

/-- A value that nobody listens to stops the engine. -/
theorem step_refused {tx : SenderRef} {origin v : Int} {told : Engine}
    (hmove : e.move = .tell tx origin v told) (hlistens : h.listens tx = false) :
    e.step h = (told.fail origin .outputClosed, h) := by
  rw [step_of_tell hmove]
  rcases h.send_cases tx v with ⟨hheard, _, _⟩ | ⟨_, err, hsend⟩
  · rw [hlistens] at hheard
    cases hheard
  · rw [hsend]

/-! ### Every step is an exchange -/

/-- What becomes of an engine that looks for its value. -/
theorem Awaiting.exchange (hask : Awaiting e r e') :
    Exchange e h (h.incoming? r.receiver) none (e.step h) := by
  have hreq := hask.request
  rw [hask.step_eq]
  unfold receive Hub.incoming?
  rcases h.recv_cases r.receiver with
    ⟨v, buffer, hopen, hcontent, hrecv⟩ | ⟨err, hclosed, hrecv⟩ | ⟨hopen, hempty, hsenders, hrecv⟩
  · rw [hrecv, hopen, hcontent]
    exact .takes hask hopen hcontent
  · have hnone : (if (h.channel r.receiver.channel).receiverOpen
        then (h.content r.receiver.channel).head? else none) = none := by
      rcases hclosed with hfalse | ⟨hempty, _⟩
      · rw [hfalse]
        rfl
      · rw [hempty]
        exact ite_self none
    rw [hrecv, hnone]
    exact .givesUp hask hclosed
  · -- the engine is suspended with the request it has, so it stays as it is
    rw [hrecv, hopen, hempty, ← hreq]
    exact .waits hask hopen hempty hsenders

/-- **Every step is an exchange**, with the values `taken?` and `sent?` tell. -/
theorem exchange_step (e : Engine) (h : Hub) :
    Exchange e h (e.taken? h) (e.sent? h) (e.step h) := by
  unfold taken? sent?
  rcases hmove : e.move with _ | next | r | ⟨tx, origin, v, told⟩
  · rw [step_of_rest hmove]
    exact .rest hmove
  · dsimp only
    cases hreq : next.request with
    | none =>
      rw [step_of_act hmove hreq]
      exact .silent hmove hreq
    | some r => exact (Awaiting.now hmove hreq).exchange
  · exact (Awaiting.already hmove).exchange
  · dsimp only
    rw [step_of_tell hmove]
    rcases h.send_cases tx v with ⟨hlistens, hlt, hsend⟩ | ⟨hlistens, err, hsend⟩
    · rw [hsend, if_pos hlistens]
      exact .sends hmove hlistens hlt
    · rw [hsend, if_neg (by rw [hlistens]; decide)]
      exact .refused hmove hlistens

/-- A step changes nothing about the ends of an engine, and leaves it suspended only if it asks for
    a value. -/
theorem ports_step (e : Engine) (h : Hub) :
    (e.step h).1 = e ∨ (∃ r, Awaiting e r (e.step h).1) ∨
      (e.step h).1.ports = (none, e.input, e.output) := by
  have hstep := exchange_step e h
  generalize e.taken? h = taken, e.sent? h = sent, e.step h = result at hstep ⊢
  cases hstep with
  | rest => exact .inl rfl
  | waits hask => exact .inr (.inl ⟨_, hask⟩)
  | silent hmove hreq => exact .inr (.inr (ports_of_act hmove hreq))
  | takes hask => exact .inr (.inr (hask.ports_answer _))
  | givesUp hask => exact .inr (.inr hask.ports_giveUp)
  | sends hmove => exact .inr (.inr ((ports_complete _).trans (ports_of_tell hmove).2))
  | refused hmove => exact .inr (.inr (ports_of_tell hmove).2)

theorem input_step (e : Engine) (h : Hub) : (e.step h).1.input = e.input := by
  rcases ports_step e h with hsame | ⟨r, hask⟩ | hports
  · rw [hsame]
  · exact hask.ends.1
  · exact congrArg (·.2.1) hports

theorem output_step (e : Engine) (h : Hub) : (e.step h).1.output = e.output := by
  rcases ports_step e h with hsame | ⟨r, hask⟩ | hports
  · rw [hsame]
  · exact hask.ends.2
  · exact congrArg (·.2.2) hports

/-- An engine that a step leaves suspended has been so before, or asks at its input. -/
theorem receiver_of_request_step (hreq : (e.step h).1.request = some r) :
    e.request = some r ∨ e.input = some r.receiver := by
  rcases ports_step e h with hsame | ⟨r', hask⟩ | hports
  · rw [hsame] at hreq
    exact .inl hreq
  · rw [hask.request] at hreq
    cases hreq
    exact hask.receiver
  · rw [show (e.step h).1.request = none from congrArg Prod.fst hports] at hreq
    cases hreq

/-- Only running engines are suspended. -/
theorem isRunning_of_request_step (hrun : e.request ≠ none → e.isRunning = true)
    (hreq : (e.step h).1.request ≠ none) : (e.step h).1.isRunning = true := by
  rcases ports_step e h with hsame | ⟨r, hask⟩ | hports
  · rw [hsame] at hreq ⊢
    exact hrun hreq
  · exact hask.isRunning_suspended
  · exact absurd (congrArg Prod.fst hports) hreq

/-- A step hangs nobody up. -/
theorem ends_step (e : Engine) (h : Hub) (n : Nat) : (e.step h).2.ends n = h.ends n := by
  have hstep := exchange_step e h
  generalize e.taken? h = taken, e.sent? h = sent, e.step h = result at hstep ⊢
  cases hstep with
  | rest | silent | waits | givesUp | refused => rfl
  | takes _ hopen _ => exact Hub.ends_refill (Hub.lt_size_of_receiverOpen hopen) _ n
  | sends _ _ hlt => exact Hub.ends_refill hlt _ n

/-! ### Runs -/

/-- An engine that has ended stays as it is. -/
theorem step_of_ended (hended : e.isRunning = false) : e.step h = (e, h) :=
  step_of_rest ((move_eq_rest_iff e).2 hended)

/-- A run that is not suspended goes on with a step. -/
theorem runFor_succ (k : Nat) (e : Engine) (h : Hub) (hreq : (e.runFor k h).1.request = none) :
    e.runFor (k + 1) h = (e.runFor k h).1.step (e.runFor k h).2 := by
  -- the run takes its steps from the front, so the induction is on all engines at once
  induction k generalizing e h with
  | zero =>
    show (if e.isRunning then _ else (e, h)) = e.step h
    split
    · dsimp only
      split <;> rfl
    · rename_i hended
      exact (step_of_ended (eq_false_of_ne_true hended)).symm
  | succ k ih =>
    rw [runFor] at hreq ⊢
    rw [runFor]
    split
    · rename_i hrun
      rw [if_pos hrun] at hreq
      dsimp only at hreq ⊢
      split
      · -- a run that stops because it is suspended has a request
        rename_i hsome
        rw [if_pos hsome] at hreq
        rw [hreq] at hsome
        cases hsome
      · rename_i hnone
        rw [if_neg hnone] at hreq
        exact ih _ _ hreq
    · rename_i hended
      exact (step_of_ended (eq_false_of_ne_true hended)).symm

end Engine

end Intcode
