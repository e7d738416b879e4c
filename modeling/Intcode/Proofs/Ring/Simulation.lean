import Intcode.Amplifier.Ring
import Intcode.Proofs.Ring.Links

namespace Intcode.Amplifier.Ring

open Interleaving

/-!
# Rings and their processes

A ring of amplifiers does what its ring of processes does, as long as no amplifier is hung up on.

* `Wired`, `Mirrors`           — how an engine and a network go with the processes
* `Mirrors.step`               — a turn is one or two steps of a process, or a hang-up
* `Mirrors.follow`             — the same for a schedule
* `Mirrors.stuck_of_isSettled` — a settled ring has processes that are stuck
-/

variable {size i : Nat} {preload : Nat → List Int}

/-! ### Engines -/

/-- The engine of amplifier `i` goes with its process.  The first amplifier keeps its input. -/
structure Wired (size i : Nat) (e : Engine) (p : Process) : Prop where
  engine : p.engine = e.wired ⟨i⟩ ⟨(i + 1) % size, 0⟩
  input : e.input = if p.phase.holdsInput || i == 0 then some ⟨i⟩ else none
  output : e.output = if p.phase.holdsOutput then some ⟨(i + 1) % size, 0⟩ else none
  phase : e.isRunning = true ↔ p.phase = .running
  request : ∀ r, e.request = some r → r.receiver = ⟨i⟩

namespace Wired

variable {e e' : Engine} {p p' : Process} {r : Request}

/-- The two ends of an engine whose worker has not noticed that it has ended. -/
theorem ends (hwired : Wired size i e p) (hphase : p.phase = .running) :
    e.input = some ⟨i⟩ ∧ e.output = some ⟨(i + 1) % size, 0⟩ := by
  have hin := hwired.input
  have hout := hwired.output
  rw [hphase] at hin hout
  exact ⟨hin, hout⟩

/-- As long as it runs, the engine is that of the process. -/
theorem engine_eq (hwired : Wired size i e p) (hphase : p.phase = .running) : p.engine = e := by
  obtain ⟨hin, hout⟩ := hwired.ends hphase
  rw [hwired.engine, Engine.wired, ← hin, ← hout]

/-- The engine asks at its own channel. -/
theorem receiver (hwired : Wired size i e p) (hphase : p.phase = .running)
    (hask : Engine.Awaiting e r e') : r.receiver = ⟨i⟩ := by
  rcases hask.receiver with hreq | hin
  · exact hwired.request r hreq
  · rw [(hwired.ends hphase).1] at hin
    exact (Option.some.inj hin).symm

/-- The engine has taken a step that left it its ends. -/
theorem of_step (hwired : Wired size i e p) (hphase : p.phase = .running)
    (hends : e'.input = e.input ∧ e'.output = e.output)
    (hreq : ∀ r, e'.request = some r → r.receiver = ⟨i⟩)
    (hengine : p'.engine = e') (hphase' : p'.phase = e'.phase) : Wired size i e' p' := by
  obtain ⟨hin, hout⟩ := hwired.ends hphase
  have hin' := hends.1.trans hin
  have hout' := hends.2.trans hout
  constructor
  · rw [hengine, Engine.wired, ← hin', ← hout']
  · rw [hphase', Engine.holdsInput_phase]
    exact hin'
  · rw [hphase', Engine.holdsOutput_phase]
    exact hout'
  · rw [hphase']
    exact (Engine.phase_eq_running_iff e').symm
  · exact hreq

/-- The engine has taken a step that left it its ends and no request. -/
theorem of_ports (hwired : Wired size i e p) (hphase : p.phase = .running)
    (hports : e'.ports = (none, e.input, e.output))
    (hengine : p'.engine = e') (hphase' : p'.phase = e'.phase) : Wired size i e' p' := by
  refine hwired.of_step hphase ⟨congrArg (·.2.1) hports, congrArg (·.2.2) hports⟩ ?_ hengine hphase'
  intro r hr
  rw [show e'.request = none from congrArg Prod.fst hports] at hr
  cases hr

end Wired

/-! ### Networks -/

/-- A network goes with the processes of a ring. -/
structure Mirrors (size : Nat) (preload : Nat → List Int) (n : Network) (s : Nat → Process) :
    Prop where
  engines : n.engines.size = size
  workers : n.workers.size = size
  worker : ∀ i < size, n.workers[i]? = some { worker i with phase := (s i).phase }
  wired : ∀ i < size, Wired size i (n.engine i) (s i)
  linked : Linked size preload n.hub s

namespace Mirrors

variable {n : Network} {s : Nat → Process} {p : Process}

/-- One process and its amplifier have moved on. -/
theorem after (hm : Mirrors size preload n s) (hi : i < size) {result : Engine × Hub}
    (hwired : Wired size i result.1 p)
    (hlinked : Linked size preload result.2 (Function.update s i p)) :
    Mirrors size preload (n.after i i result p.phase) (Function.update s i p) := by
  have hlt : i < n.engines.size := by rw [hm.engines]; exact hi
  constructor
  · exact (Array.size_setIfInBounds ..).trans hm.engines
  · exact Array.size_modify.trans hm.workers
  · intro j hj
    rw [Network.worker_after, hm.worker j hj]
    split
    · rename_i hij
      subst hij
      rw [Function.update_self]
      rfl
    · rename_i hij
      rw [Function.update_of_ne (fun heq => hij heq.symm)]
  · intro j hj
    rw [Network.engine_after hlt]
    split
    · rename_i hji
      subst hji
      rw [Function.update_self]
      exact hwired
    · rename_i hji
      rw [Function.update_of_ne hji]
      exact hm.wired j hj
  · exact hlinked

end Mirrors

/-! ### Turns -/

/-- The processes have moved on by a number of steps, and a network goes with them.  The last
    arguments are the values each of them has taken and sent on the way. -/
structure Advances (size : Nat) (preload : Nat → List Int) (s : Nat → Process) (m : Nat)
    (s' : Nat → Process) (n : Network) (taken sent : Nat → List Int) : Prop where
  run : Reaches (act size preload) m s s'
  mirrors : Mirrors size preload n s'
  taken : ∀ k < size, (s' k).taken = (s k).taken ++ taken k
  sent : ∀ k < size, (s' k).sent = (s k).sent ++ sent k

/-- A network goes with processes again after the processes have changed in whatever way.  The last
    arguments are the values each of them has taken and sent on the way. -/
structure Keeps (size : Nat) (preload : Nat → List Int) (s s' : Nat → Process) (n : Network)
    (taken sent : Nat → List Int) : Prop where
  mirrors : Mirrors size preload n s'
  taken : ∀ k < size, (s' k).taken = (s k).taken ++ taken k
  sent : ∀ k < size, (s' k).sent = (s k).sent ++ sent k

/-- One change after another. -/
theorem Keeps.trans {s s' s'' : Nat → Process} {n n' : Network}
    {taken taken' sent sent' : Nat → List Int} (hfirst : Keeps size preload s s' n taken sent)
    (hthen : Keeps size preload s' s'' n' taken' sent') :
    Keeps size preload s s'' n' (fun k => taken k ++ taken' k) (fun k => sent k ++ sent' k) where
  mirrors := hthen.mirrors
  taken k hk := by rw [hthen.taken k hk, hfirst.taken k hk, List.append_assoc]
  sent k hk := by rw [hthen.sent k hk, hfirst.sent k hk, List.append_assoc]

/-- Processes that have moved on have changed. -/
theorem Advances.keeps {s s' : Nat → Process} {m : Nat} {n : Network}
    {taken sent : Nat → List Int} (h : Advances size preload s m s' n taken sent) :
    Keeps size preload s s' n taken sent := ⟨h.mirrors, h.taken, h.sent⟩

/-- One process after another has moved on. -/
theorem Advances.trans {s s' s'' : Nat → Process} {m m' : Nat} {n n' : Network}
    {taken taken' sent sent' : Nat → List Int}
    (hfirst : Advances size preload s m s' n taken sent)
    (hthen : Advances size preload s' m' s'' n' taken' sent') :
    Advances size preload s (m + m') s'' n' (fun k => taken k ++ taken' k)
      (fun k => sent k ++ sent' k) := by
  have hkeeps := hfirst.keeps.trans hthen.keeps
  exact ⟨hfirst.run.trans hthen.run, hkeeps.mirrors, hkeeps.taken, hkeeps.sent⟩

/-- An amplifier is hung up on, which is the cause of its fault: its process comes to a point where
    it is starved or spurned. -/
def HangsUp (size : Nat) (preload : Nat → List Int) (s : Nat → Process) (i : Nat) (cause : Fault) :
    Prop :=
  ∃ m s', Reaches (act size preload) m s s' ∧
    (cause = .inputClosed ∧ Starved size preload s' i ∨ cause = .outputClosed ∧ Spurned size s' i)

namespace Mirrors

variable {n : Network} {s : Nat → Process} {p : Process} {e' : Engine} {r : Request}

/-- The engine of an amplifier that runs is that of its process. -/
theorem engine_eq (hm : Mirrors size preload n s) (hi : i < size)
    (hphase : (s i).phase = .running) : (s i).engine = n.engine i :=
  (hm.wired i hi).engine_eq hphase

/-- The turn of an amplifier that runs is a step of its engine. -/
theorem step_running (hm : Mirrors size preload n s) (hi : i < size)
    (hphase : (s i).phase = .running) :
    n.step i = n.after i i ((n.engine i).step n.hub) ((n.engine i).step n.hub).1.phase :=
  Network.step_running (hm.worker i hi) hphase (by rw [hm.engines]; exact hi)

/-- An amplifier that runs can take its turn unless its engine waits for a value. -/
theorem canStep_running (hm : Mirrors size preload n s) (hi : i < size)
    (hphase : (s i).phase = .running) :
    n.canStep i = match (n.engine i).request with
      | some r => n.hub.isReady r.receiver
      | none => true :=
  Network.canStep_running (hm.worker i hi) hphase

/-- What the channel of an amplifier that runs holds is what its process has not taken yet. -/
theorem supply_eq (hm : Mirrors size preload n s) (hi : i < size)
    (hphase : (s i).phase = .running) :
    supply size preload s i = (s i).taken ++ n.hub.content i := by
  have hlink := hm.linked.link i hi
  rw [hphase] at hlink
  exact hlink.content rfl

/-- The turn of an amplifier that runs, when its process has changed with it. -/
theorem keeps (hm : Mirrors size preload n s) (hi : i < size) (hphase : (s i).phase = .running)
    {taken sent : Option Int} {result : Engine × Hub}
    (htaken : (n.engine i).taken? n.hub = taken) (hsent : (n.engine i).sent? n.hub = sent)
    (hstep : (n.engine i).step n.hub = result)
    (hwired : Wired size i result.1 p) (hphase' : p.phase = result.1.phase)
    (hlinked : Linked size preload result.2 (Function.update s i p))
    (htaken' : p.taken = (s i).taken ++ taken.toList)
    (hsent' : p.sent = (s i).sent ++ sent.toList) :
    Keeps size preload s (Function.update s i p) (n.step i)
      (n.passing Engine.taken? · i) (n.passing Engine.sent? · i) := by
  have hw := hm.worker i hi
  have hpassing (look : Engine → Hub → Option Int) (k : Nat) : n.passing look k i =
      if i = k then (look (n.engine k) n.hub).toList else [] :=
    Network.passing_running look hw hphase k
  refine ⟨?_, ?_, ?_⟩
  · rw [hm.step_running hi hphase, hstep, ← hphase']
    exact hm.after hi hwired hlinked
  · intro k _
    rw [hpassing]
    split
    · rename_i hik
      subst hik
      rw [Function.update_self, htaken', htaken]
    · rename_i hik
      rw [Function.update_of_ne (fun heq => hik heq.symm), List.append_nil]
  · intro k _
    rw [hpassing]
    split
    · rename_i hik
      subst hik
      rw [Function.update_self, hsent', hsent]
    · rename_i hik
      rw [Function.update_of_ne (fun heq => hik heq.symm), List.append_nil]

/-- The turn of an amplifier that runs, when its process has moved on with it. -/
theorem advances (hm : Mirrors size preload n s) (hi : i < size) (hphase : (s i).phase = .running)
    {taken sent : Option Int} {result : Engine × Hub} {m : Nat}
    (htaken : (n.engine i).taken? n.hub = taken) (hsent : (n.engine i).sent? n.hub = sent)
    (hstep : (n.engine i).step n.hub = result)
    (hrun : Reaches (act size preload) m s (Function.update s i p))
    (hwired : Wired size i result.1 p) (hphase' : p.phase = result.1.phase)
    (hlinked : Linked size preload result.2 (Function.update s i p))
    (htaken' : p.taken = (s i).taken ++ taken.toList)
    (hsent' : p.sent = (s i).sent ++ sent.toList) :
    Advances size preload s m (Function.update s i p) (n.step i)
      (n.passing Engine.taken? · i) (n.passing Engine.sent? · i) := by
  have hkeeps := hm.keeps hi hphase htaken hsent hstep hwired hphase' hlinked htaken' hsent'
  exact ⟨hrun, hkeeps.mirrors, hkeeps.taken, hkeeps.sent⟩

/-- The turn of an amplifier that is hung up on. -/
theorem keeps_of_ports (hm : Mirrors size preload n s) (hi : i < size)
    (hphase : (s i).phase = .running) (hports : e'.ports = (none, (n.engine i).input,
      (n.engine i).output)) (htaken : (n.engine i).taken? n.hub = none)
    (hsent : (n.engine i).sent? n.hub = none)
    (hstep : (n.engine i).step n.hub = (e', n.hub)) :
    Keeps size preload s (Function.update s i ((s i).become e')) (n.step i)
      (n.passing Engine.taken? · i) (n.passing Engine.sent? · i) :=
  hm.keeps (p := (s i).become e') hi hphase htaken hsent hstep
    ((hm.wired i hi).of_ports hphase hports rfl rfl) rfl (hm.linked.become hphase e')
    (List.append_nil _).symm (List.append_nil _).symm

/-- A process comes to the point where its engine is suspended. -/
theorem reaches_suspended (hm : Mirrors size preload n s) (hi : i < size)
    (hphase : (s i).phase = .running) (hask : Engine.Awaiting (n.engine i) r e') :
    ∃ m, Reaches (act size preload) m s (Function.update s i ((s i).become e')) := by
  rw [← hm.engine_eq hi hphase] at hask
  rcases Process.advance_suspend hphase hask with hstep | hsame
  · exact ⟨1, .single (act_of_advance hi hstep)⟩
  · -- it has come there before
    rw [hsame, Function.update_eq_self]
    exact ⟨0, .refl s⟩

/-- A process comes to the point where its engine has been answered. -/
theorem reaches_answered (hm : Mirrors size preload n s) (hi : i < size)
    (hphase : (s i).phase = .running) (hask : Engine.Awaiting (n.engine i) r e') {v : Int}
    {vs : List Int} (hcontent : n.hub.content i = v :: vs) :
    ∃ m, Reaches (act size preload) (m + 1) s (Function.update s i
      { (s i).become (e'.answer r v) with taken := (s i).taken ++ [v] }) := by
  obtain ⟨m, hrun⟩ := hm.reaches_suspended hi hphase hask
  refine ⟨m, hrun.trans (.single (act_eq_some_iff.2 ⟨hi, _, ?_, (Function.update_idem ..).symm⟩))⟩
  have hnext : (supply size preload s i)[(s i).taken.length]? = some v := by
    rw [hm.supply_eq hi hphase, hcontent, List.getElem?_append_right (Nat.le_refl _), Nat.sub_self]
    rfl
  rw [← hm.engine_eq hi hphase] at hask
  rw [Function.update_self, Linked.supply_become]
  exact Process.advance_answer hask hnext

/-- An amplifier that is told that no value will come is starved. -/
theorem hangsUp_of_closed (hm : Mirrors size preload n s) (hi : i < size)
    (hphase : (s i).phase = .running) (hask : Engine.Awaiting (n.engine i) r e')
    (hclosed : (n.hub.channel i).receiverOpen = false ∨
      n.hub.content i = [] ∧ (n.hub.channel i).senders = 0) :
    HangsUp size preload s i .inputClosed := by
  obtain ⟨m, hrun⟩ := hm.reaches_suspended hi hphase hask
  refine ⟨m, _, hrun, .inl ⟨rfl, ?_⟩⟩
  have hlink := hm.linked.link i hi
  rw [hphase, show Phase.running.holdsInput = true from rfl, Bool.true_or] at hlink
  -- the receiver is its own, so it is the sender that has gone
  have hopen : (n.hub.channel i).receiverOpen = true := congrArg (·.2.2) hlink.ends
  obtain ⟨hempty, hsenders⟩ := hclosed.resolve_left (by rw [hopen]; exact nofun)
  have hgone : (s (before size i)).phase.holdsOutput.toNat = 0 :=
    (show (n.hub.channel i).senders = _ from congrArg (·.2.1) hlink.ends).symm.trans hsenders
  have hbefore : (s (before size i)).phase ≠ .running := by
    intro hrunning
    rw [hrunning] at hgone
    cases hgone
  have hne : before size i ≠ i := by
    intro heq
    rw [heq] at hbefore
    exact hbefore hphase
  refine ⟨?_, ⟨r, ?_⟩, ?_, ?_⟩
  · rw [Function.update_self]
    exact (Engine.phase_eq_running_iff e').2 hask.isRunning_suspended
  · rw [Function.update_self]
    exact hask.move
  · rw [Linked.supply_become, hm.supply_eq hi hphase, hempty, List.append_nil,
      Function.update_self]
    exact Nat.le_refl _
  · rw [Function.update_of_ne hne]
    exact hbefore

/-- An amplifier whose value nobody listens to is spurned. -/
theorem hangsUp_of_deaf (hm : Mirrors size preload n s) (hi : i < size)
    (hphase : (s i).phase = .running) {tx : SenderRef} {origin v : Int} {told : Engine}
    (hmove : (n.engine i).move = .tell tx origin v told)
    (hdeaf : n.hub.listens ⟨(i + 1) % size, 0⟩ = false) :
    HangsUp size preload s i .outputClosed := by
  have hnext : (i + 1) % size < size := Nat.mod_lt _ (by omega)
  have hlink := hm.linked.link _ hnext
  rw [before_next hi, hphase] at hlink
  have hends := hlink.ends
  have hhandles : (n.hub.channel ((i + 1) % size)).handles = #[true] := congrArg (·.1) hends
  have hopen : (n.hub.channel ((i + 1) % size)).receiverOpen = _ := congrArg (·.2.2) hends
  unfold Hub.listens Channel.listens Channel.isOpen at hdeaf
  dsimp only at hdeaf
  rw [hhandles, hopen] at hdeaf
  obtain ⟨hended, hne⟩ := Bool.or_eq_false_iff.1 (show (_ || _) = false from hdeaf)
  refine ⟨0, s, .refl s, .inr ⟨rfl, hphase, ⟨tx, origin, v, told, ?_⟩, ?_, ne_of_beq_false hne⟩⟩
  · rw [hm.engine_eq hi hphase]
    exact hmove
  · cases hlast : (s ((i + 1) % size)).phase with
    | ended => rfl
    | running | releasingOutput | releasingInput =>
      rw [hlast] at hended
      cases hended

/-- A turn that has nothing to do with the channels. -/
theorem advances_silent {next : Engine} (hm : Mirrors size preload n s) (hi : i < size)
    (hphase : (s i).phase = .running) (hmove : (n.engine i).move = .act next)
    (hreq : next.request = none)
    (htaken : (n.engine i).taken? n.hub = none) (hsent : (n.engine i).sent? n.hub = none)
    (hstep : (n.engine i).step n.hub = (next, n.hub)) :
    Advances size preload s 1 (Function.update s i ((s i).become next)) (n.step i)
      (n.passing Engine.taken? · i) (n.passing Engine.sent? · i) := by
  refine hm.advances (p := (s i).become next) hi hphase htaken hsent hstep ?_ ?_ rfl
    (hm.linked.become hphase next) ?_ ?_
  · rw [← hm.engine_eq hi hphase] at hmove
    exact .single (act_of_advance hi (Process.advance_act hphase hmove))
  · exact (hm.wired i hi).of_ports hphase (Engine.ports_of_act hmove hreq) rfl rfl
  · exact (List.append_nil _).symm
  · exact (List.append_nil _).symm

/-- A turn in which the engine is suspended. -/
theorem advances_waits (hm : Mirrors size preload n s) (hi : i < size)
    (hphase : (s i).phase = .running) (hask : Engine.Awaiting (n.engine i) r e')
    (hcan : n.canStep i = true) (hwait : n.hub.isReady r.receiver = false)
    (htaken : (n.engine i).taken? n.hub = none) (hsent : (n.engine i).sent? n.hub = none)
    (hstep : (n.engine i).step n.hub = (e', n.hub)) :
    Advances size preload s 1 (Function.update s i ((s i).become e')) (n.step i)
      (n.passing Engine.taken? · i) (n.passing Engine.sent? · i) := by
  have hwired := hm.wired i hi
  have hrx := hwired.receiver hphase hask
  refine hm.advances (p := (s i).become e') hi hphase htaken hsent hstep ?_ ?_ rfl
    (hm.linked.become hphase e') ?_ ?_
  · cases hask with
    | now hmove _ =>
      rw [← hm.engine_eq hi hphase] at hmove
      exact .single (act_of_advance hi (Process.advance_act hphase hmove))
    | already hmove =>
      -- its turn would have been passed over
      have hready := hm.canStep_running hi hphase
      rw [hcan, (Engine.Awaiting.already hmove).request] at hready
      dsimp only at hready
      rw [hwait] at hready
      cases hready
  · refine hwired.of_step hphase hask.ends ?_ rfl rfl
    intro r' hreq'
    rw [hask.request] at hreq'
    cases hreq'
    exact hrx
  · exact (List.append_nil _).symm
  · exact (List.append_nil _).symm

/-- A turn in which a value is taken: two steps of the process if it was not suspended before. -/
theorem advances_takes {v : Int} {buffer : Fifo Int} (hm : Mirrors size preload n s) (hi : i < size)
    (hphase : (s i).phase = .running) (hask : Engine.Awaiting (n.engine i) r e')
    (hcontent : n.hub.content i = v :: buffer.toList)
    (htaken : (n.engine i).taken? n.hub = some v) (hsent : (n.engine i).sent? n.hub = none)
    (hstep : (n.engine i).step n.hub = (e'.answer r v, n.hub.refill i buffer)) :
    ∃ m s', 0 < m ∧ Advances size preload s m s' (n.step i)
      (n.passing Engine.taken? · i) (n.passing Engine.sent? · i) := by
  obtain ⟨m, hrun⟩ := hm.reaches_answered hi hphase hask hcontent
  refine ⟨m + 1, _, Nat.succ_pos m, hm.advances hi hphase htaken hsent hstep hrun ?_ rfl ?_ rfl ?_⟩
  · exact (hm.wired i hi).of_ports hphase (hask.ports_answer v) rfl rfl
  · exact hm.linked.take hi hcontent (by rw [hphase]; rfl) rfl rfl
      (Process.holdsOutput_become hphase _) (Process.holdsInput_become hphase _)
  · exact (List.append_nil _).symm

/-- A turn in which a value is sent. -/
theorem advances_sends {tx : SenderRef} {origin v : Int} {told : Engine}
    (hm : Mirrors size preload n s) (hi : i < size) (hphase : (s i).phase = .running)
    (hmove : (n.engine i).move = .tell tx origin v told)
    (htaken : (n.engine i).taken? n.hub = none) (hsent : (n.engine i).sent? n.hub = some v)
    (hstep : (n.engine i).step n.hub =
      (told.complete, n.hub.refill tx.channel ((n.hub.channel tx.channel).buffer.push v))) :
    Advances size preload s 1
      (Function.update s i { (s i).become told.complete with sent := (s i).sent ++ [v] })
      (n.step i) (n.passing Engine.taken? · i) (n.passing Engine.sent? · i) := by
  have hwired := hm.wired i hi
  obtain ⟨htx, htold⟩ := Engine.ports_of_tell hmove
  -- the value goes to the next amplifier
  cases htx.symm.trans (hwired.ends hphase).2
  refine hm.advances (p := { (s i).become told.complete with sent := (s i).sent ++ [v] })
    hi hphase htaken hsent hstep ?_ ?_ rfl ?_ ?_ rfl
  · rw [← hm.engine_eq hi hphase] at hmove
    exact .single (act_of_advance hi (Process.advance_tell hphase hmove))
  · exact hwired.of_ports hphase ((Engine.ports_complete told).trans htold) rfl rfl
  · exact hm.linked.send hi rfl rfl (Process.holdsOutput_become hphase _)
      (Process.holdsInput_become hphase _)
  · exact (List.append_nil _).symm

/-- The turn of an amplifier that runs. -/
theorem step_of_running (hm : Mirrors size preload n s) (hi : i < size)
    (hphase : (s i).phase = .running) (hcan : n.canStep i = true) :
    (∃ m s', 0 < m ∧ Advances size preload s m s' (n.step i)
      (n.passing Engine.taken? · i) (n.passing Engine.sent? · i)) ∨
    ∃ cause, HangsUp size preload s i cause ∧
      (∃ origin, ((n.step i).engine i).status = .faulted cause origin) ∧
      ∃ s', Keeps size preload s s' (n.step i)
        (n.passing Engine.taken? · i) (n.passing Engine.sent? · i) := by
  have hwired := hm.wired i hi
  have hstatus : ((n.step i).engine i).status = ((n.engine i).step n.hub).1.status := by
    rw [hm.step_running hi hphase, Network.engine_after (by rw [hm.engines]; exact hi), if_pos rfl]
  have hexchange := Engine.exchange_step (n.engine i) n.hub
  generalize htaken : (n.engine i).taken? n.hub = taken, hsent : (n.engine i).sent? n.hub = sent,
    hstep : (n.engine i).step n.hub = result at hexchange
  rw [hstep] at hstatus
  cases hexchange with
  | rest hmove =>
    -- an engine that runs does not rest
    have hended := (Engine.move_eq_rest_iff _).1 hmove
    rw [hwired.phase.2 hphase] at hended
    cases hended
  | silent hmove hreq =>
    exact .inl ⟨1, _, Nat.one_pos, hm.advances_silent hi hphase hmove hreq htaken hsent hstep⟩
  | waits hask hopen hempty hsenders =>
    have hwait := Hub.isReady_eq_false hopen hempty hsenders
    exact .inl ⟨1, _, Nat.one_pos,
      hm.advances_waits hi hphase hask hcan hwait htaken hsent hstep⟩
  | takes hask hopen hcontent =>
    rw [congrArg ReceiverRef.channel (hwired.receiver hphase hask)] at hcontent hstep
    exact .inl (hm.advances_takes hi hphase hask hcontent htaken hsent hstep)
  | givesUp hask hclosed =>
    rw [congrArg ReceiverRef.channel (hwired.receiver hphase hask)] at hclosed
    exact .inr ⟨_, hm.hangsUp_of_closed hi hphase hask hclosed, ⟨_, hstatus⟩, _,
      hm.keeps_of_ports hi hphase hask.ports_giveUp htaken hsent hstep⟩
  | sends hmove hlistens hlt =>
    exact .inl ⟨1, _, Nat.one_pos, hm.advances_sends hi hphase hmove htaken hsent hstep⟩
  | @refused tx origin v told hmove hlistens =>
    obtain ⟨htx, htold⟩ := Engine.ports_of_tell hmove
    cases htx.symm.trans (hwired.ends hphase).2
    have hports : (told.fail origin .outputClosed).ports =
        (none, (n.engine i).input, (n.engine i).output) := htold
    exact .inr ⟨_, hm.hangsUp_of_deaf hi hphase hmove hlistens, ⟨_, hstatus⟩, _,
      hm.keeps_of_ports hi hphase hports htaken hsent hstep⟩

/-- The turn of an amplifier that lets go of its ends, when its process has moved on with it. -/
theorem advances_releasing (hm : Mirrors size preload n s) (hi : i < size)
    (hphase : (s i).phase ≠ .running) {phase : Phase} {result : Engine × Hub}
    (hstep : n.step i = n.after i i result phase)
    (hadvance : (s i).advance (supply size preload s i) = some { s i with phase })
    (hwired : Wired size i result.1 { s i with phase })
    (hlinked : Linked size preload result.2 (Function.update s i { s i with phase })) :
    Advances size preload s 1 (Function.update s i { s i with phase }) (n.step i)
      (n.passing Engine.taken? · i) (n.passing Engine.sent? · i) := by
  refine ⟨.single (act_of_advance hi hadvance), ?_, ?_, ?_⟩
  · rw [hstep]
    exact hm.after hi hwired hlinked
  · intro k _
    rw [Network.passing_of_ne_running Engine.taken? (hm.worker i hi) hphase, List.append_nil]
    exact field_update (p := { s i with phase }) Process.taken rfl k
  · intro k _
    rw [Network.passing_of_ne_running Engine.sent? (hm.worker i hi) hphase, List.append_nil]
    exact field_update (p := { s i with phase }) Process.sent rfl k

/-- The turn of an amplifier that lets go of its output. -/
theorem step_of_releasingOutput (hm : Mirrors size preload n s) (hi : i < size)
    (hphase : (s i).phase = .releasingOutput) :
    Advances size preload s 1 (Function.update s i { s i with phase := .releasingInput })
      (n.step i) (n.passing Engine.taken? · i) (n.passing Engine.sent? · i) := by
  have hwired := hm.wired i hi
  have hin := hwired.input
  have hout := hwired.output
  rw [hphase] at hin hout
  have hstep : n.step i = n.after i i (Network.releaseOutput (n.engine i) n.hub) .releasingInput :=
    Network.step_releasingOutput (hm.worker i hi) hphase
  rw [Network.releaseOutput_eq, hout] at hstep
  refine hm.advances_releasing hi (by rw [hphase]; exact nofun) hstep
    (Process.advance_releasingOutput hphase) ?_ ?_
  · refine ⟨hwired.engine, hin, rfl, ?_, hwired.request⟩
    rw [show Engine.isRunning { n.engine i with output := none } = (n.engine i).isRunning from rfl,
      hwired.phase, hphase]
    exact ⟨nofun, nofun⟩
  · exact hm.linked.closeSender hi (by rw [hphase]; rfl) rfl rfl rfl (by rw [hphase]; rfl)

/-- The turn of an amplifier that lets go of its input.  The first one keeps it. -/
theorem step_of_releasingInput (hm : Mirrors size preload n s) (hi : i < size)
    (hphase : (s i).phase = .releasingInput) :
    Advances size preload s 1 (Function.update s i { s i with phase := .ended })
      (n.step i) (n.passing Engine.taken? · i) (n.passing Engine.sent? · i) := by
  have hwired := hm.wired i hi
  have hin := hwired.input
  have hout := hwired.output
  rw [hphase] at hin hout
  have hended : (n.engine i).isRunning = true ↔ Phase.ended = .running := by
    rw [hwired.phase, hphase]
    exact ⟨nofun, nofun⟩
  have hstep : n.step i = n.after i i (if i == 0 then (n.engine i, n.hub)
      else Network.releaseInput (n.engine i) n.hub) .ended :=
    Network.step_releasingInput (hm.worker i hi) hphase (by rw [hm.engines]; exact hi)
  have hne : (s i).phase ≠ .running := by rw [hphase]; exact nofun
  by_cases hi₀ : i = 0
  · -- the first amplifier ends without letting go of its input
    rw [if_pos (beq_iff_eq.2 hi₀)] at hstep
    refine hm.advances_releasing hi hne hstep (Process.advance_releasingInput hphase) ?_ ?_
    · refine ⟨hwired.engine, ?_, hout, hended, hwired.request⟩
      rw [hin, hi₀]
      rfl
    · refine hm.linked.quiet rfl rfl (by rw [hphase]; rfl) ?_
      rw [hi₀]
      exact (Bool.or_true _).symm
  · rw [if_neg (fun h => hi₀ (beq_iff_eq.1 h)), Network.releaseInput_eq, hin] at hstep
    refine hm.advances_releasing hi hne hstep (Process.advance_releasingInput hphase) ?_ ?_
    · refine ⟨hwired.engine, ?_, hout, hended, hwired.request⟩
      rw [beq_false_of_ne hi₀]
      rfl
    · exact hm.linked.closeReceiver hi hi₀ rfl rfl (by rw [hphase]; rfl) rfl

/-- Only the workers of the ring take turns. -/
theorem lt_of_canStep (hm : Mirrors size preload n s) (hcan : n.canStep i = true) : i < size := by
  rw [← hm.workers]
  apply Nat.lt_of_not_le
  intro hle
  unfold Network.canStep at hcan
  rw [Array.getElem?_eq_none hle] at hcan
  cases hcan

/-- **A turn** is one or two steps of a process, or an amplifier is hung up on and faults. -/
theorem step (hm : Mirrors size preload n s) (hcan : n.canStep i = true) :
    (∃ m s', 0 < m ∧ Advances size preload s m s' (n.step i)
      (n.passing Engine.taken? · i) (n.passing Engine.sent? · i)) ∨
    i < size ∧ ∃ cause, HangsUp size preload s i cause ∧
      (∃ origin, ((n.step i).engine i).status = .faulted cause origin) ∧
      ∃ s', Keeps size preload s s' (n.step i)
        (n.passing Engine.taken? · i) (n.passing Engine.sent? · i) := by
  have hi := hm.lt_of_canStep hcan
  -- one case for each phase of the worker
  cases hphase : (s i).phase with
  | running =>
    rcases hm.step_of_running hi hphase hcan with hgo | hhang
    · exact .inl hgo
    · exact .inr ⟨hi, hhang⟩
  | releasingOutput => exact .inl ⟨1, _, Nat.one_pos, hm.step_of_releasingOutput hi hphase⟩
  | releasingInput => exact .inl ⟨1, _, Nat.one_pos, hm.step_of_releasingInput hi hphase⟩
  | ended =>
    unfold Network.canStep at hcan
    rw [hm.worker i hi, hphase] at hcan
    cases hcan

/-- **A schedule** takes a process at least one step for every turn, or some amplifier is hung up on
    and ends by that fault. -/
theorem follow (hm : Mirrors size preload n s) (schedule : List Nat) :
    (∃ m s', n.turns schedule ≤ m ∧ Advances size preload s m s' (n.follow schedule)
      (n.takenBy · schedule) (n.sentBy · schedule)) ∨
    ∃ i, i < size ∧ ∃ cause, HangsUp size preload s i cause ∧
      ∃ origin, ((n.follow schedule).engine i).status = .faulted cause origin := by
  induction schedule generalizing n s with
  | nil =>
    exact .inl ⟨0, s, Nat.le_refl 0, .refl s, hm, fun _ _ => (List.append_nil _).symm,
      fun _ _ => (List.append_nil _).symm⟩
  | cons i schedule ih =>
    unfold Network.turns Network.follow Network.takenBy Network.sentBy Network.passed
    cases hcan : n.canStep i with
    | false => exact ih hm
    | true =>
      rcases hm.step hcan with ⟨m, s', hpos, hadvances⟩ | ⟨hi, cause, hhang, ⟨origin, hfault⟩, _⟩
      · rcases ih hadvances.mirrors with ⟨m', s'', hturns, hrest⟩ | ⟨j, hj, cause, hhang, hfault⟩
        · exact .inl ⟨m + m', s'', Nat.add_comm m m' ▸ Nat.add_le_add hturns hpos,
            hadvances.trans hrest⟩
        · -- who is hung up on later is hung up on
          obtain ⟨m', s'', hrun, hpoint⟩ := hhang
          exact .inr ⟨j, hj, cause, ⟨m + m', s'', hadvances.run.trans hrun, hpoint⟩, hfault⟩
      · right
        -- the fault is final, whatever the rest of the schedule
        have hended : ((n.step i).engine i).isRunning = false := by
          rw [Engine.isRunning_eq_false_iff, hfault]
          intro hrunning
          cases hrunning
        refine ⟨i, hi, cause, hhang, origin, ?_⟩
        rw [← hfault]
        exact Network.status_follow schedule _ hended

/-- Whatever a turn is, the ring goes with some processes after it. -/
theorem keeps_step (hm : Mirrors size preload n s) (hcan : n.canStep i = true) :
    ∃ s', Keeps size preload s s' (n.step i)
      (n.passing Engine.taken? · i) (n.passing Engine.sent? · i) := by
  rcases hm.step hcan with ⟨_, s', _, hadvances⟩ | ⟨_, _, _, _, s', hkeeps⟩
  · exact ⟨s', hadvances.keeps⟩
  · exact ⟨s', hkeeps⟩

/-- **Whatever happens, a ring goes with some processes**, and they have taken and sent what the
    amplifiers have. -/
theorem keeps_follow (hm : Mirrors size preload n s) (schedule : List Nat) :
    ∃ s', Keeps size preload s s' (n.follow schedule) (n.takenBy · schedule)
      (n.sentBy · schedule) := by
  induction schedule generalizing n s with
  | nil => exact ⟨s, hm, fun _ _ => (List.append_nil _).symm, fun _ _ => (List.append_nil _).symm⟩
  | cons i schedule ih =>
    unfold Network.follow Network.takenBy Network.sentBy Network.passed
    cases hcan : n.canStep i with
    | false => exact ih hm
    | true =>
      obtain ⟨s', hfirst⟩ := hm.keeps_step hcan
      obtain ⟨s'', hthen⟩ := ih hfirst.mirrors
      exact ⟨s'', hfirst.trans hthen⟩

/-! ### Settled rings -/

/-- In a settled ring no amplifier can take its turn. -/
theorem canStep_of_isSettled (hm : Mirrors size preload n s) (hsettled : n.isSettled = true)
    (hi : i < size) : n.canStep i = false := by
  unfold Network.isSettled at hsettled
  rw [hm.workers] at hsettled
  have hi' := List.all_eq_true.1 hsettled i (List.mem_range.2 hi)
  rw [Bool.not_eq_true'] at hi'
  exact hi'

/-- In a settled ring every amplifier has ended, or its engine runs. -/
theorem phase_of_isSettled (hm : Mirrors size preload n s) (hsettled : n.isSettled = true)
    (hi : i < size) : (s i).phase = .ended ∨ (s i).phase = .running := by
  have hcan := hm.canStep_of_isSettled hsettled hi
  unfold Network.canStep at hcan
  rw [hm.worker i hi] at hcan
  dsimp only at hcan
  cases hphase : (s i).phase with
  | ended => exact .inl rfl
  | running => exact .inr rfl
  | releasingOutput | releasingInput =>
    rw [hphase] at hcan
    cases hcan

/-- In a settled ring an amplifier that runs waits at its channel. -/
theorem waits_of_isSettled (hm : Mirrors size preload n s) (hsettled : n.isSettled = true)
    (hi : i < size) (hphase : (s i).phase = .running) :
    ∃ r, (n.engine i).request = some r ∧ r.receiver = ⟨i⟩ ∧ n.hub.isReady ⟨i⟩ = false := by
  have hcan := hm.canStep_of_isSettled hsettled hi
  rw [hm.canStep_running hi hphase] at hcan
  cases hreq : (n.engine i).request with
  | none =>
    rw [hreq] at hcan
    cases hcan
  | some r =>
    have hrx := (hm.wired i hi).request r hreq
    simp only [hreq, hrx] at hcan
    exact ⟨r, rfl, hrx, hcan⟩

/-- The processes of a settled ring are stuck. -/
theorem stuck_of_isSettled (hm : Mirrors size preload n s) (hsettled : n.isSettled = true) :
    Stuck (act size preload) s := by
  intro i
  unfold act
  split
  · rename_i hi
    apply Option.map_eq_none_iff.2
    rcases hm.phase_of_isSettled hsettled hi with hphase | hphase
    · exact Process.advance_ended hphase
    · obtain ⟨r, hreq, _, hwait⟩ := hm.waits_of_isSettled hsettled hi hphase
      have hempty : n.hub.content i = [] := Hub.content_of_isReady_eq_false hwait
      have hmove : (s i).engine.move = .await r := by
        rw [hm.engine_eq hi hphase]
        exact Engine.move_of_request
          ((Engine.isRunning_iff _).1 ((hm.wired i hi).phase.2 hphase)) hreq
      rw [Process.advance_await hphase hmove, hm.supply_eq hi hphase, hempty, List.append_nil,
        List.getElem?_eq_none (Nat.le_refl _)]
      rfl
  · rfl

end Mirrors

end Intcode.Amplifier.Ring
