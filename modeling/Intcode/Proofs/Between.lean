import Intcode.Proofs.Exchange

namespace Intcode.Engine

/-!
# Engines between two channels

An engine that reads from one channel, or from the console, and writes to another: what its steps do
to the two channels.

* `Outlet`            — the engine writes at this end and asks for values at its input only
* `Plugged`           — the same for an engine whose input is a channel
* `Outlet.step`, `Plugged.step` — a step keeps it so
* `Outlet.content_step`, `Plugged.content_step` — what a step adds to the output
* `Outlet.content_source_step`, `Plugged.content_input_step` — what it takes from the input
-/

/-- The engine writes at one end, and asks for values at its input, if that is a channel. -/
structure Outlet (source : Option ReceiverRef) (tx : SenderRef) (e : Engine) : Prop where
  input : e.input = source
  output : e.output = some tx
  request : ∀ r, e.request = some r → source = some r.receiver

/-- The engine reads at one end and writes at the other. -/
structure Plugged (rx : ReceiverRef) (tx : SenderRef) (e : Engine) : Prop where
  input : e.input = some rx
  output : e.output = some tx
  request : ∀ r, e.request = some r → r.receiver = rx

namespace Outlet

variable {source : Option ReceiverRef} {tx : SenderRef} {e e' : Engine} {h : Hub} {r : Request}

/-- The engine asks at its input. -/
theorem receiver (ho : Outlet source tx e) (hask : Awaiting e r e') : source = some r.receiver := by
  rcases hask.receiver with hreq | hin
  · exact ho.request r hreq
  · exact ho.input.symm.trans hin

/-- The engine emits at its output. -/
theorem sender (ho : Outlet source tx e) {tx' : SenderRef} {origin v : Int} {told : Engine}
    (hmove : e.move = .tell tx' origin v told) : tx' = tx := by
  have hout := (ports_of_tell hmove).1
  rw [ho.output] at hout
  exact (Option.some.inj hout).symm

/-- A step leaves the engine at its ends. -/
theorem step (ho : Outlet source tx e) (h : Hub) : Outlet source tx (e.step h).1 := by
  refine ⟨(input_step e h).trans ho.input, (output_step e h).trans ho.output, fun r hreq => ?_⟩
  rcases receiver_of_request_step hreq with hbefore | hin
  · exact ho.request r hbefore
  · exact ho.input.symm.trans hin

/-- A step adds to the output what is sent, and takes nothing from it. -/
theorem content_step (ho : Outlet source tx e) (hne : source ≠ some ⟨tx.channel⟩) (h : Hub) :
    (e.step h).2.content tx.channel = h.content tx.channel ++ (e.sent? h).toList := by
  have hstep := exchange_step e h
  generalize e.taken? h = taken, e.sent? h = sent, e.step h = result at hstep ⊢
  cases hstep with
  | rest | silent | waits | givesUp | refused => exact (List.append_nil _).symm
  | @takes r _ _ _ hask hopen _ =>
    have hother : tx.channel ≠ r.receiver.channel := by
      intro heq
      exact hne ((ho.receiver hask).trans (congrArg (some ∘ ReceiverRef.mk) heq.symm))
    rw [Hub.content_refill (Hub.lt_size_of_receiverOpen hopen), if_neg hother]
    exact (List.append_nil _).symm
  | sends hmove _ hlt =>
    rw [Hub.content_refill hlt, ho.sender hmove, if_pos rfl, Fifo.toList_push]
    rfl

/-- A step takes from the channel at the input what is taken, and adds nothing to it; at the console
    it leaves all channels but the output alone. -/
theorem content_source_step (ho : Outlet source tx e) {n : Nat} (hne : n ≠ tx.channel)
    (hin : ∀ rx, source = some rx → rx.channel = n) (h : Hub) :
    (e.taken? h).toList ++ (e.step h).2.content n = h.content n := by
  have hstep := exchange_step e h
  generalize e.taken? h = taken, e.sent? h = sent, e.step h = result at hstep ⊢
  cases hstep with
  | rest | silent | waits | givesUp | refused => rfl
  | takes hask hopen hcontent =>
    rw [hin _ (ho.receiver hask)] at hopen hcontent ⊢
    rw [Hub.content_refill (Hub.lt_size_of_receiverOpen hopen), if_pos rfl, hcontent]
    rfl
  | sends hmove _ hlt =>
    rw [Hub.content_refill hlt, ho.sender hmove, if_neg hne]
    rfl

end Outlet

namespace Plugged

variable {rx : ReceiverRef} {tx : SenderRef} {e e' : Engine} {h : Hub} {r : Request}

/-- An engine between two channels asks for values at the first. -/
theorem outlet (hp : Plugged rx tx e) : Outlet (some rx) tx e :=
  ⟨hp.input, hp.output, fun r hr => congrArg some (hp.request r hr).symm⟩

/-- An engine that asks for values at a channel is between two. -/
theorem of_outlet (ho : Outlet (some rx) tx e) : Plugged rx tx e :=
  ⟨ho.input, ho.output, fun r hr => (Option.some.inj (ho.request r hr)).symm⟩

/-- Wiring the engine to the ends it has changes nothing. -/
theorem wired_eq (hp : Plugged rx tx e) : e.wired rx tx = e := by
  rw [Engine.wired, ← hp.input, ← hp.output]

/-- The engine asks at its input. -/
theorem receiver (hp : Plugged rx tx e) (hask : Awaiting e r e') : r.receiver = rx :=
  (Option.some.inj (hp.outlet.receiver hask)).symm

/-- The engine emits at its output. -/
theorem sender (hp : Plugged rx tx e) {tx' : SenderRef} {origin v : Int} {told : Engine}
    (hmove : e.move = .tell tx' origin v told) : tx' = tx :=
  hp.outlet.sender hmove

/-- A step leaves the engine between its channels. -/
theorem step (hp : Plugged rx tx e) (h : Hub) : Plugged rx tx (e.step h).1 :=
  of_outlet (hp.outlet.step h)

/-- Nobody who has no sender to wait for is suspended. -/
theorem request_step (hp : Plugged rx tx e) (hreq : e.request = none)
    (hsenders : (h.channel rx.channel).senders = 0) : (e.step h).1.request = none := by
  have hstep := exchange_step e h
  generalize e.taken? h = taken, e.sent? h = sent, e.step h = result at hstep ⊢
  cases hstep with
  | rest hmove => exact hreq
  | silent hmove hreq => exact hreq
  | waits hask _ _ hsome =>
    rw [hp.receiver hask] at hsome
    exact absurd hsenders hsome
  | takes hask => exact congrArg Prod.fst (hask.ports_answer _)
  | givesUp hask => exact congrArg Prod.fst hask.ports_giveUp
  | sends hmove =>
    exact congrArg Prod.fst ((ports_complete _).trans (ports_of_tell hmove).2)
  | refused hmove => exact congrArg Prod.fst (ports_of_tell hmove).2

/-- A step adds to the output what is sent, and takes nothing from it. -/
theorem content_step (hp : Plugged rx tx e) (hne : tx.channel ≠ rx.channel) (h : Hub) :
    (e.step h).2.content tx.channel = h.content tx.channel ++ (e.sent? h).toList := by
  refine hp.outlet.content_step ?_ h
  rintro ⟨⟩
  exact hne rfl

/-- A step takes from the input what is taken, and adds nothing to it. -/
theorem content_input_step (hp : Plugged rx tx e) (hne : tx.channel ≠ rx.channel) (h : Hub) :
    (e.taken? h).toList ++ (e.step h).2.content rx.channel = h.content rx.channel := by
  refine hp.outlet.content_source_step hne.symm ?_ h
  rintro _ ⟨⟩
  rfl

end Plugged

/-- A step neither adds channels nor removes any. -/
theorem size_step (e : Engine) (h : Hub) : (e.step h).2.channels.size = h.channels.size := by
  have hstep := exchange_step e h
  generalize e.taken? h = taken, e.sent? h = sent, e.step h = result at hstep ⊢
  cases hstep with
  | rest | silent | waits | givesUp | refused => rfl
  | takes | sends => exact Hub.size_refill _ _ _

/-- A step hangs nobody up, so who is heard is heard after it. -/
theorem listens_step (e : Engine) (h : Hub) (tx : SenderRef) :
    (e.step h).2.listens tx = h.listens tx :=
  Channel.listens_eq_of_ends (ends_step e h tx.channel) tx.handle

end Intcode.Engine
