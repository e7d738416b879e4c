import Mathlib.Logic.Relation
import Intcode.Proofs.Process
import Intcode.Proofs.Rewiring

namespace Intcode

/-!
# Processes on their own

A process that finds no more than the inputs of a batch run goes the way of that run: it takes what
the run takes, sends what the run puts out, and halts when the run does.

* `Process.Leads`           — a process comes to another one on some supply
* `Process.Tracks`          — a process has come as far as a batch run
* `Process.Tracks.step`     — it follows a step of the run
* `Process.leads_of_halted` — a batch run that halts is a whole life of the process
-/

namespace Process

open Engine (Awaiting Sealed)

/-- On this supply the one process becomes the other by steps of its own. -/
def Leads (supply : List Int) : Process → Process → Prop :=
  Relation.ReflTransGen fun p q => p.advance supply = some q

/-- A process between its channels has come as far as a batch run of its engine. -/
structure Tracks (inputs : List Int) (rx : ReceiverRef) (tx : SenderRef) (s : Engine × Hub)
    (p : Process) : Prop where
  sealed : Sealed ⟨0⟩ ⟨1, 0⟩ s
  heard : s.2.listens ⟨1, 0⟩ = true
  engine : p.engine = s.1.rewired rx tx
  phase : p.phase = s.1.phase
  taken : p.taken ++ s.2.content 0 = inputs
  sent : p.sent = s.2.content 1

namespace Tracks

variable {inputs : List Int} {rx : ReceiverRef} {tx : SenderRef} {s : Engine × Hub}
  {p : Process} {e : Engine} {r : Request}

/-- What the process does next is what the engine of the run does next. -/
theorem move (ht : Tracks inputs rx tx s p) : p.engine.move = s.1.move.rewired rx tx := by
  rw [ht.engine]
  exact ht.sealed.plugged.move_rewired rx tx

/-- While the engine of the run does anything, so does the process. -/
theorem running (ht : Tracks inputs rx tx s p) {m : Engine.Move} (hmove : s.1.move = m)
    (hne : m ≠ .rest) : p.phase = .running := by
  rw [ht.phase]
  exact (Engine.phase_eq_running_iff _).2 (Engine.isRunning_of_move hmove hne)

/-- When the run asks for a value, the process comes to the point where it needs one. -/
theorem leads_suspended (ht : Tracks inputs rx tx s p) (hask : Awaiting s.1 r e) :
    Leads inputs p (p.become (e.rewired rx tx)) ∧
      (e.rewired rx tx).move = .await { r with receiver := rx } := by
  refine ⟨?_, (ht.sealed.plugged.asks_rewired rx tx hask).move⟩
  have hmoved := ht.move
  cases hask with
  | already hmove =>
    -- on a sealed input nobody has been left waiting
    have hreq := (Awaiting.already hmove).request
    rw [ht.sealed.request] at hreq
    cases hreq
  | now hmove hreq =>
    rw [hmove] at hmoved
    exact .single (advance_act (ht.running hmove nofun) hmoved)

/-- **A step of the run** is one or two steps of the process, or the run wants for an input. -/
theorem step (ht : Tracks inputs rx tx s p) :
    (∃ q, Leads inputs p q ∧ Tracks inputs rx tx (s.1.step s.2) q) ∨
      (s.1.step s.2).1.fault? = some .inputClosed := by
  have hsealed := ht.sealed.step
  have hheard := (Engine.listens_step s.1 s.2 ⟨1, 0⟩).trans ht.heard
  have hmoved := ht.move
  obtain ⟨e, h⟩ := s
  have hplugged := ht.sealed.plugged
  have htaken : p.taken ++ h.content 0 = inputs := ht.taken
  have hsent : p.sent = h.content 1 := ht.sent
  have hexchange := Engine.exchange_step e h
  dsimp only at hsealed hheard hmoved hplugged ⊢
  generalize e.taken? h = taken, e.sent? h = sent, e.step h = result at hexchange hsealed hheard ⊢
  cases hexchange with
  | rest => exact .inl ⟨p, .refl, ht⟩
  | @silent next hmove hreq =>
    rw [hmove] at hmoved
    exact .inl ⟨p.become (next.rewired rx tx),
      .single (advance_act (ht.running hmove nofun) hmoved),
      hsealed, hheard, rfl, rfl, htaken, hsent⟩
  | waits hask _ _ hsenders =>
    -- nobody is left to wait for
    rw [hplugged.receiver hask] at hsenders
    exact absurd ht.sealed.senders hsenders
  | @takes r e' v buffer hask hopen hcontent =>
    have hrx := hplugged.receiver hask
    rw [hrx] at hopen hcontent hsealed hheard ⊢
    obtain ⟨hlead, hmove'⟩ := ht.leads_suspended hask
    have hphase' : (p.become (e'.rewired rx tx)).phase = .running :=
      (Engine.phase_eq_running_iff _).2 hask.isRunning_suspended
    -- the next input of the run is the first that the process has not taken
    have hnext : inputs[p.taken.length]? = some v := by
      rw [← htaken, hcontent, List.getElem?_append_right (Nat.le_refl _), Nat.sub_self]
      rfl
    have hlt := Hub.lt_size_of_receiverOpen hopen
    refine .inl ⟨_, hlead.tail ((advance_await hphase' hmove').trans (congrArg _ hnext)), hsealed,
      hheard, Engine.answer_rewired rx tx e' r v, ?_, ?_, ?_⟩
    · show ((e'.rewired rx tx).answer { r with receiver := rx } v).phase = (e'.answer r v).phase
      rw [Engine.answer_rewired]
      rfl
    · rw [Hub.content_refill hlt, if_pos rfl, ← htaken, hcontent]
      exact (List.append_cons p.taken v buffer.toList).symm
    · rw [Hub.content_refill hlt, if_neg (by decide)]
      exact hsent
  | givesUp => exact .inr rfl
  | @sends tx₀ origin v told hmove hlistens hlt =>
    obtain rfl := hplugged.sender hmove
    rw [hmove] at hmoved
    refine .inl ⟨_, .single (advance_tell (ht.running hmove nofun) hmoved), hsealed, hheard,
      Engine.complete_rewired rx tx told, ?_, ?_, ?_⟩
    · show (told.rewired rx tx).complete.phase = told.complete.phase
      rw [Engine.complete_rewired]
      rfl
    · rw [Hub.content_refill hlt, if_neg (by decide)]
      exact htaken
    · rw [Hub.content_refill hlt, if_pos rfl, Fifo.toList_push]
      exact congrArg (· ++ [v]) hsent
  | refused hmove hlistens =>
    obtain rfl := hplugged.sender hmove
    exact absurd (ht.heard.symm.trans hlistens) nofun

/-- **A run** leads the process along, or has stopped for want of an input. -/
theorem stepped (ht : Tracks inputs rx tx s p) (k : Nat) :
    (∃ q, Leads inputs p q ∧ Tracks inputs rx tx (Engine.stepped s k) q) ∨
      (Engine.stepped s k).1.fault? = some .inputClosed := by
  induction k with
  | zero => exact .inl ⟨p, .refl, ht⟩
  | succ k ih =>
    rcases ih with ⟨q, hlead, hq⟩ | hfault
    · rcases hq.step with ⟨q', hlead', hq'⟩ | hfault
      · exact .inl ⟨q', hlead.trans hlead', hq'⟩
      · exact .inr hfault
    · -- the fault is final
      right
      rw [Engine.stepped, Engine.step_of_ended (Engine.isRunning_eq_false_of_fault? hfault)]
      exact hfault

end Tracks

/-- A process that is ready to run has come as far as a batch run that is. -/
theorem tracks_start {e : Engine} (hreq : e.request = none) (hrun : e.status = .running)
    (rx : ReceiverRef) (tx : SenderRef) (inputs : List Int) :
    Tracks inputs rx tx (e.wired ⟨0⟩ ⟨1, 0⟩, Batch.channels inputs)
      { engine := e.wired rx tx } where
  sealed := Batch.sealed_start hreq inputs
  heard := rfl
  engine := (Engine.rewired_eq_wired rx tx hreq).symm
  phase := ((Engine.phase_eq_running_iff _).2 ((Engine.isRunning_iff _).2 hrun)).symm
  taken := Fifo.toList_ofList inputs
  sent := rfl

/-- **A batch run that halts is a whole life of the process**, in which it takes only inputs and
    sends the outputs. -/
theorem leads_of_halted {e : Engine} (hreq : e.request = none) (hrun : e.status = .running)
    (rx : ReceiverRef) (tx : SenderRef) {fuel : Nat} {inputs : List Int}
    (hhalted : (Batch.execute fuel e (some inputs)).engine.status = .halted) :
    ∃ q, Leads inputs { engine := e.wired rx tx } q ∧ q.phase = .ended ∧
      q.engine.status = .halted ∧ q.taken <+: inputs ∧
      q.sent = (Batch.execute fuel e (some inputs)).outputs := by
  rw [Batch.execute_eq_progress hreq] at hhalted ⊢
  rw [Batch.progress] at hhalted ⊢
  have hended : (Engine.stepped (e.wired ⟨0⟩ ⟨1, 0⟩, Batch.channels inputs) fuel).1.isRunning =
      false := by
    rw [Engine.isRunning_eq_false_iff, hhalted]
    rintro ⟨⟩
  rcases (tracks_start hreq hrun rx tx inputs).stepped fuel with ⟨q, hlead, ht⟩ | hfault
  · have hphase : q.phase = .releasingOutput := by
      rw [ht.phase, Engine.phase, hended]
      rfl
    -- what is left to do for its worker is to let go of both ends
    refine ⟨{ q with phase := .ended }, (hlead.tail (advance_releasingOutput hphase)).tail
      (advance_releasingInput rfl), rfl, ?_, ⟨_, ht.taken⟩, ht.sent⟩
    rw [ht.engine]
    exact hhalted
  · rw [Engine.fault?, hhalted] at hfault
    cases hfault

end Process

end Intcode
