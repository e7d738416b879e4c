import Intcode.Proofs.LongerInput

namespace Intcode.Engine

/-!
# Engines at other channels

An engine does not look at which channels it is wired to.  Put between two other channels it does
the same there: it asks at the one for what it would have asked for, and sends to the other what it
would have sent.

* `rewired`          — the engine between two other channels
* `move_rewired`     — what it does next
* `Echoes`           — a run between two channels and the same run between two others
* `Echoes.stepped`   — the two go on in the same way
-/

/-- The engine between two other channels.  What it waits for it waits for there. -/
def rewired (e : Engine) (rx : ReceiverRef) (tx : SenderRef) : Engine :=
  { e with
    input := some rx
    output := some tx
    request := e.request.map fun r => { r with receiver := rx } }

/-- What an engine does next, between two other channels. -/
def Move.rewired (rx : ReceiverRef) (tx : SenderRef) : Move → Move
  | .rest => .rest
  | .act next => .act (next.rewired rx tx)
  | .await r => .await { r with receiver := rx }
  | .tell _ origin v told => .tell tx origin v (told.rewired rx tx)

variable {e e' : Engine} {r : Request} (rx : ReceiverRef) (tx : SenderRef)

/-! ### Single actions -/

/-- An engine that waits for nothing only has its ends exchanged. -/
theorem rewired_eq_wired (hreq : e.request = none) : e.rewired rx tx = e.wired rx tx := by
  simp [rewired, wired, hreq]

theorem act_rewired {α : Type} (e : Engine) (action : Exec α) :
    (e.rewired rx tx).act action = ((e.act action).1, (e.act action).2.rewired rx tx) := by
  have hmachine : (e.rewired rx tx).machine = e.machine := rfl
  rw [act_eq, act_eq, hmachine]
  cases action e.machine <;> rfl

@[simp] theorem complete_rewired (e : Engine) :
    (e.rewired rx tx).complete = e.complete.rewired rx tx := by
  unfold complete
  rw [act_rewired]

@[simp] theorem record_rewired (e : Engine) (origin : Int) (i : Instruction) :
    (e.rewired rx tx).record origin i = (e.record origin i).rewired rx tx := by
  unfold record
  show (if e.tracing then _ else _) = _
  split <;> rfl

theorem accept_rewired (e : Engine) (origin mode v : Int) :
    (e.rewired rx tx).accept origin mode v = (e.accept origin mode v).rewired rx tx := by
  unfold accept
  rw [act_rewired]
  rcases e.act (Exec.store mode v) with ⟨f | x, next⟩
  · rfl
  · exact complete_rewired rx tx next

/-- An engine goes on in the same way with the value it has been waiting for. -/
theorem answer_rewired (e : Engine) (r : Request) (v : Int) :
    (e.rewired rx tx).answer { r with receiver := rx } v = (e.answer r v).rewired rx tx :=
  accept_rewired rx tx { e with request := none } r.origin r.mode v

/-! ### Moves -/

/-- What is left to do for an instruction is done at the other ends. -/
theorem pursue_rewired (hin : e.input ≠ none) (hout : e.output ≠ none) (origin : Int)
    (d : Demand) : (e.rewired rx tx).pursue origin d = (e.pursue origin d).rewired rx tx := by
  cases d with
  | nothing => exact congrArg Move.act (complete_rewired rx tx e)
  | halt => exact congrArg Move.act (complete_rewired rx tx { e with status := .halted })
  | input mode =>
    obtain ⟨rx₀, hrx⟩ := Option.ne_none_iff_exists'.1 hin
    show Move.act _ = (e.ask origin mode e.input).rewired rx tx
    rw [hrx]
    rfl
  | output v =>
    obtain ⟨tx₀, htx⟩ := Option.ne_none_iff_exists'.1 hout
    show Move.tell _ _ _ _ = (e.say origin v e.output).rewired rx tx
    rw [htx]
    rfl

theorem carryOn_rewired (hin : e.input ≠ none) (hout : e.output ≠ none) (origin : Int)
    (action : Exec Demand) :
    carryOn origin ((e.rewired rx tx).act action) =
      (carryOn origin (e.act action)).rewired rx tx := by
  have hports := ports_act e action
  rw [act_rewired]
  rcases hact : e.act action with ⟨f | d, next⟩
  · rfl
  · rw [hact] at hports
    refine pursue_rewired rx tx ?_ ?_ origin d
    · rwa [show next.input = e.input from congrArg (·.2.1) hports]
    · rwa [show next.output = e.output from congrArg (·.2.2) hports]

theorem launch_rewired (hin : e.input ≠ none) (hout : e.output ≠ none) (origin : Int)
    (action : Exec Instruction) :
    launch origin ((e.rewired rx tx).act action) =
      (launch origin (e.act action)).rewired rx tx := by
  have hports := ports_act e action
  rw [act_rewired]
  rcases hact : e.act action with ⟨f | i, next⟩
  · rfl
  · rw [hact] at hports
    have hports' := (ports_record next origin i).trans hports
    show carryOn origin (((next.rewired rx tx).record origin i).act (Exec.execute i)) = _
    rw [record_rewired]
    refine carryOn_rewired rx tx ?_ ?_ origin (Exec.execute i)
    · rwa [show (next.record origin i).input = e.input from congrArg (·.2.1) hports']
    · rwa [show (next.record origin i).output = e.output from congrArg (·.2.2) hports']

/-- **An engine does the same between any two channels.** -/
theorem move_rewired (hin : e.input ≠ none) (hout : e.output ≠ none) :
    (e.rewired rx tx).move = e.move.rewired rx tx := by
  by_cases hrun : e.status = .running
  · cases hreq : e.request with
    | some r =>
      have hreq' : (e.rewired rx tx).request = some { r with receiver := rx } := by
        simp [rewired, hreq]
      rw [move_of_request hrun hreq, move_of_request (e := e.rewired rx tx) hrun hreq']
      rfl
    | none =>
      have hreq' : (e.rewired rx tx).request = none := by simp [rewired, hreq]
      rw [move_of_running hrun hreq, move_of_running (e := e.rewired rx tx) hrun hreq']
      exact launch_rewired (e := { e with started := true }) rx tx hin hout e.machine.pc Exec.decode
  · have hended : e.isRunning = false := (isRunning_eq_false_iff e).2 hrun
    rw [(move_eq_rest_iff e).2 hended, (move_eq_rest_iff (e.rewired rx tx)).2 hended]
    rfl

/-- What an engine asks for it asks for at its input, wherever that is. -/
theorem Awaiting.rewired (hin : e.input ≠ none) (hout : e.output ≠ none)
    (hask : Awaiting e r e') :
    Awaiting (e.rewired rx tx) { r with receiver := rx } (e'.rewired rx tx) := by
  cases hask with
  | already hmove =>
    refine .already ?_
    rw [move_rewired rx tx hin hout, hmove]
    rfl
  | now hmove hreq =>
    have hmove' : (e.rewired rx tx).move = .act (e'.rewired rx tx) := by
      rw [move_rewired rx tx hin hout, hmove]
      rfl
    refine .now hmove' ?_
    simp [Engine.rewired, hreq]

namespace Plugged

variable {rx₀ : ReceiverRef} {tx₀ : SenderRef}

/-- What an engine between two channels does next it does between any others. -/
theorem move_rewired (hp : Plugged rx₀ tx₀ e) :
    (e.rewired rx tx).move = e.move.rewired rx tx := by
  apply Engine.move_rewired
  · rw [hp.input]
    exact nofun
  · rw [hp.output]
    exact nofun

/-- What it asks for at the one channel it asks for at the other. -/
theorem asks_rewired (hp : Plugged rx₀ tx₀ e) (hask : Awaiting e r e') :
    Awaiting (e.rewired rx tx) { r with receiver := rx } (e'.rewired rx tx) := by
  apply hask.rewired
  · rw [hp.input]
    exact nofun
  · rw [hp.output]
    exact nofun

end Plugged

/-! ### Runs -/

variable {rx tx} {rx' : ReceiverRef} {tx' : SenderRef} {before : List Int} {s t : Engine × Hub}

/-- The same run twice, between two channels and between two others.  Both inputs are sealed, both
    outputs are heard; the second one has held something before. -/
structure Echoes (rx : ReceiverRef) (tx : SenderRef) (rx' : ReceiverRef) (tx' : SenderRef)
    (before : List Int) (s t : Engine × Hub) : Prop where
  here : Sealed rx tx s
  there : Sealed rx' tx' t
  heard : s.2.listens tx = true
  heard' : t.2.listens tx' = true
  engine : t.1 = s.1.rewired rx' tx'
  input : t.2.content rx'.channel = s.2.content rx.channel
  output : t.2.content tx'.channel = before ++ s.2.content tx.channel

namespace Echoes

/-- What the second engine does next. -/
theorem move (hecho : Echoes rx tx rx' tx' before s t) : t.1.move = s.1.move.rewired rx' tx' := by
  rw [hecho.engine]
  exact hecho.here.plugged.move_rewired rx' tx'

/-- What the second engine asks for. -/
theorem asks (hecho : Echoes rx tx rx' tx' before s t) (hask : Awaiting s.1 r e') :
    Awaiting t.1 { r with receiver := rx' } (e'.rewired rx' tx') := by
  rw [hecho.engine]
  exact hecho.here.plugged.asks_rewired rx' tx' hask

/-- **One step of both.** -/
theorem step (hecho : Echoes rx tx rx' tx' before s t) (hne : tx.channel ≠ rx.channel)
    (hne' : tx'.channel ≠ rx'.channel) :
    Echoes rx tx rx' tx' before (s.1.step s.2) (t.1.step t.2) := by
  suffices hsame : (t.1.step t.2).1 = (s.1.step s.2).1.rewired rx' tx' ∧
      (t.1.step t.2).2.content rx'.channel = (s.1.step s.2).2.content rx.channel ∧
      (t.1.step t.2).2.content tx'.channel = before ++ (s.1.step s.2).2.content tx.channel by
    obtain ⟨hengine, hinput, houtput⟩ := hsame
    refine ⟨hecho.here.step, hecho.there.step, ?_, ?_, hengine, hinput, houtput⟩
    · rw [listens_step]
      exact hecho.heard
    · rw [listens_step]
      exact hecho.heard'
  obtain ⟨e, h⟩ := s
  obtain ⟨e₂, h₂⟩ := t
  have hhere : Sealed rx tx (e, h) := hecho.here
  have hthere : Sealed rx' tx' (e₂, h₂) := hecho.there
  have hinput : h₂.content rx'.channel = h.content rx.channel := hecho.input
  have houtput : h₂.content tx'.channel = before ++ h.content tx.channel := hecho.output
  have hmoved : e₂.move = e.move.rewired rx' tx' := hecho.move
  have hexchange := exchange_step e h
  dsimp only
  generalize e.taken? h = taken, e.sent? h = sent, e.step h = result at hexchange
  cases hexchange with
  | rest hmove =>
    rw [hmove] at hmoved
    rw [step_of_rest hmoved]
    exact ⟨hecho.engine, hinput, houtput⟩
  | @silent next hmove hreq =>
    rw [hmove] at hmoved
    rw [step_of_act hmoved (by simp [Engine.rewired, hreq])]
    exact ⟨rfl, hinput, houtput⟩
  | waits hask _ _ hsenders =>
    rw [hhere.plugged.receiver hask] at hsenders
    exact absurd hhere.senders hsenders
  | @takes r e' v buffer hask hopen hcontent =>
    rw [hhere.plugged.receiver hask] at hopen hcontent ⊢
    obtain ⟨buffer₂, hbuffer, hstep⟩ :=
      (hecho.asks hask).step_takes rfl hthere.receiverOpen (hinput.trans hcontent)
    have hlt := Hub.lt_size_of_receiverOpen hopen
    have hlt₂ := Hub.lt_size_of_receiverOpen hthere.receiverOpen
    dsimp only at hstep
    rw [hstep]
    refine ⟨answer_rewired rx' tx' e' r v, ?_, ?_⟩
    · simp [Hub.content_refill hlt, Hub.content_refill hlt₂, hbuffer]
    · simp [Hub.content_refill hlt, Hub.content_refill hlt₂, hne, hne', houtput]
  | @givesUp r e' hask hclosed =>
    rw [hhere.plugged.receiver hask] at hclosed
    -- the receiver is open, so it is the content that has come to its end
    have hempty : h.content rx.channel = [] := by
      rcases hclosed with hclosed | ⟨hempty, _⟩
      · rw [show (h.channel rx.channel).receiverOpen = true from hhere.receiverOpen] at hclosed
        cases hclosed
      · exact hempty
    have hstep := (hecho.asks hask).step_givesUp rfl (hinput.trans hempty) hthere.senders
    dsimp only at hstep
    rw [hstep]
    exact ⟨rfl, hinput, houtput⟩
  | @sends tx₀ origin v told hmove hlistens hlt =>
    obtain rfl := hhere.plugged.sender hmove
    rw [hmove] at hmoved
    have hlt₂ : tx'.channel < h₂.channels.size := by
      rcases h₂.send_cases tx' v with ⟨_, hlt₂, _⟩ | ⟨hdeaf, _⟩
      · exact hlt₂
      · exact absurd (hecho.heard'.symm.trans hdeaf) nofun
    rw [step_sends hmoved hecho.heard']
    refine ⟨complete_rewired rx' tx' told, ?_, ?_⟩
    · simp [Hub.content_refill hlt, Hub.content_refill hlt₂, hne.symm, hne'.symm, hinput]
    · simp only [Hub.content_refill hlt, Hub.content_refill hlt₂, if_true, Fifo.toList_push]
      rw [← List.append_assoc]
      exact congrArg (· ++ [v]) houtput
  | @refused tx₀ origin v told hmove hlistens =>
    obtain rfl := hhere.plugged.sender hmove
    exact absurd (hecho.heard.symm.trans hlistens) nofun

/-- **A run of both.** -/
theorem stepped (hecho : Echoes rx tx rx' tx' before s t) (hne : tx.channel ≠ rx.channel)
    (hne' : tx'.channel ≠ rx'.channel) (k : Nat) :
    Echoes rx tx rx' tx' before (stepped s k) (stepped t k) := by
  induction k with
  | zero => exact hecho
  | succ k ih => exact ih.step hne hne'

end Echoes

end Intcode.Engine
