import Mathlib.Data.Nat.Init
import Mathlib.Tactic.ByContra
import Intcode.Batch.Basic
import Intcode.Proofs.Exchange

namespace Intcode

/-!
# Feeding an engine while it runs

A feeder sends the input values of an engine one at a time and hangs up after the last, while the
engine takes its steps; the two take turns in any order.  The engine waits whenever it is ahead of
the feeder.  A batch run has all values queued and the feeder gone before the first step.

* `Feed.turn`, `Feed.run`   — a turn of one of the two, and the turns of an order
* `Feed.Fair`               — an order in which both come again and again
* `exists_forall_eq_zero`   — what is less by one again and again comes to nothing
* `Feed.Follows`            — a fed engine is where a batch run is, or suspended at its next step
* `Feed.run_eq_execute`     — the order of turns does not matter
-/

/-- What never grows and is less by one after every turn that is due comes to nothing, when turns
    are due again and again. -/
theorem exists_forall_eq_zero {f : Nat → Nat} {due : Nat → Prop} {n : Nat}
    (hfair : ∀ n, ∃ m, n ≤ m ∧ due m) (hle : ∀ m, n ≤ m → f (m + 1) ≤ f m)
    (hdue : ∀ m, n ≤ m → due m → f (m + 1) = f m - 1) : ∃ m, n ≤ m ∧ ∀ k, m ≤ k → f k = 0 := by
  have hanti {m k : Nat} (hnm : n ≤ m) (hmk : m ≤ k) : f k ≤ f m := by
    induction k, hmk using Nat.le_induction with
    | base => exact Nat.le_refl _
    | succ k hmk ih => exact Nat.le_trans (hle k (Nat.le_trans hnm hmk)) ih
  -- by induction on a bound of what is left
  suffices hbound : ∀ b m, n ≤ m → f m ≤ b → ∃ m', m ≤ m' ∧ f m' = 0 by
    obtain ⟨m, hnm, hzero⟩ := hbound (f n) n (Nat.le_refl n) (Nat.le_refl _)
    exact ⟨m, hnm, fun k hmk => Nat.le_zero.1 (hzero ▸ hanti hnm hmk)⟩
  intro b
  induction b with
  | zero => exact fun m _ hb => ⟨m, Nat.le_refl m, Nat.le_zero.1 hb⟩
  | succ b ih =>
    intro m hnm hb
    obtain ⟨k, hmk, hk⟩ := hfair m
    have hnk := Nat.le_trans hnm hmk
    have hfk := hanti hnm hmk
    have hstep := hdue k hnk hk
    obtain ⟨m', hm', hzero⟩ := ih (k + 1) (Nat.le_succ_of_le hnk) (by omega)
    exact ⟨m', by omega, hzero⟩

/-- Who takes a turn. -/
inductive Feed.Party where
  | engine
  | feeder
  deriving Repr, DecidableEq

/-- An engine and its feeder. -/
structure Feed where
  engine : Engine
  /-- The channels: the input is the first, the output the second. -/
  hub : Hub
  /-- What the feeder has not sent yet. -/
  unsent : List Int

namespace Feed

/-- Nothing has been sent, and the engine is ready to run. -/
def start (e : Engine) (inputs : List Int) : Feed :=
  { engine := e.wired ⟨0⟩ ⟨1, 0⟩, hub := ⟨#[{}, {}]⟩, unsent := inputs }

/-- The feeder sends its next value, or hangs up when it has none. -/
def feed (s : Feed) : Feed :=
  match s.unsent with
  | [] => { s with hub := s.hub.closeSender ⟨0, 0⟩ }
  | v :: unsent =>
    match s.hub.send ⟨0, 0⟩ v with
    | .ok hub => { s with hub, unsent }
    | .error _ => s

/-- One turn.  The turn of an engine that waits changes nothing. -/
def turn (s : Feed) : Party → Feed
  | .engine =>
    let (engine, hub) := s.engine.step s.hub
    { s with engine, hub }
  | .feeder => s.feed

/-- The first turns of an order. -/
def run (s : Feed) (order : Nat → Party) : Nat → Feed
  | 0 => s
  | n + 1 => (s.run order n).turn (order n)

/-- What the engine has emitted. -/
def outputs (s : Feed) : List Int := (s.hub.drain ⟨1⟩).1

/-- Both parties come again and again. -/
def Fair (order : Nat → Party) : Prop := ∀ p n, ∃ m, n ≤ m ∧ order m = p

/-! ### The channels of a fed engine -/

/-- The channels of a fed engine, beside those of a run whose inputs have all been sent. -/
structure Lags (fed : Hub) (unsent : List Int) (whole : Hub) : Prop where
  fedSize : fed.channels.size = 2
  wholeSize : whole.channels.size = 2
  feeder : fed.ends 0 = Channel.ends {} ∨ unsent = [] ∧ fed.ends 0 = Channel.ends (.sealed [])
  fedOutput : fed.ends 1 = Channel.ends {}
  wholeInput : whole.ends 0 = Channel.ends (.sealed [])
  wholeOutput : whole.ends 1 = Channel.ends {}
  inputs : whole.content 0 = fed.content 0 ++ unsent
  outputs : whole.content 1 = fed.content 1

namespace Lags

variable {fed whole : Hub} {unsent : List Int}

theorem start (inputs : List Int) : Lags ⟨#[{}, {}]⟩ inputs (Batch.channels inputs) where
  fedSize := rfl
  wholeSize := rfl
  feeder := .inl rfl
  fedOutput := rfl
  wholeInput := rfl
  wholeOutput := rfl
  inputs := Fifo.toList_ofList inputs
  outputs := rfl

theorem lt_fedSize (hlags : Lags fed unsent whole) {n : Nat} (hn : n < 2) :
    n < fed.channels.size := by
  rw [hlags.fedSize]
  exact hn

theorem lt_wholeSize (hlags : Lags fed unsent whole) {n : Nat} (hn : n < 2) :
    n < whole.channels.size := by
  rw [hlags.wholeSize]
  exact hn

/-- Both engines take a value. -/
theorem take (hlags : Lags fed unsent whole) {rest all : Fifo Int}
    (hrest : all.toList = rest.toList ++ unsent) :
    Lags (fed.refill 0 rest) unsent (whole.refill 0 all) := by
  have hfed := hlags.lt_fedSize (n := 0) (by decide)
  have hwhole := hlags.lt_wholeSize (n := 0) (by decide)
  constructor
  · rw [Hub.size_refill, hlags.fedSize]
  · rw [Hub.size_refill, hlags.wholeSize]
  · rw [Hub.ends_refill hfed]
    exact hlags.feeder
  · rw [Hub.ends_refill hfed, hlags.fedOutput]
  · rw [Hub.ends_refill hwhole, hlags.wholeInput]
  · rw [Hub.ends_refill hwhole, hlags.wholeOutput]
  · rw [Hub.content_refill hfed, Hub.content_refill hwhole]
    exact hrest
  · rw [Hub.content_refill hfed, Hub.content_refill hwhole]
    exact hlags.outputs

/-- Both engines emit a value. -/
theorem emit (hlags : Lags fed unsent whole) (v : Int) :
    Lags (fed.refill 1 ((fed.channel 1).buffer.push v)) unsent
      (whole.refill 1 ((whole.channel 1).buffer.push v)) := by
  have hfed := hlags.lt_fedSize (n := 1) (by decide)
  have hwhole := hlags.lt_wholeSize (n := 1) (by decide)
  constructor
  · rw [Hub.size_refill, hlags.fedSize]
  · rw [Hub.size_refill, hlags.wholeSize]
  · rw [Hub.ends_refill hfed]
    exact hlags.feeder
  · rw [Hub.ends_refill hfed, hlags.fedOutput]
  · rw [Hub.ends_refill hwhole, hlags.wholeInput]
  · rw [Hub.ends_refill hwhole, hlags.wholeOutput]
  · rw [Hub.content_refill hfed, Hub.content_refill hwhole]
    exact hlags.inputs
  · rw [Hub.content_refill hfed, Hub.content_refill hwhole, if_pos rfl, if_pos rfl,
      Fifo.toList_push, Fifo.toList_push]
    exact congrArg (· ++ [v]) hlags.outputs

/-- The feeder hangs up; it may do so again. -/
theorem hangUp (hlags : Lags fed [] whole) :
    Lags (fed.closeSender ⟨0, 0⟩) [] whole ∧
      (fed.closeSender ⟨0, 0⟩).ends 0 = Channel.ends (.sealed []) := by
  have hfed := hlags.lt_fedSize (n := 0) (by decide)
  have hends (k : Nat) : (fed.closeSender ⟨0, 0⟩).ends k =
      if k = 0 then ((fed.channel 0).closeSender 0).ends else fed.ends k :=
    Hub.ends_closeSender fed ⟨0, 0⟩ hfed k
  have hcontent (k : Nat) : (fed.closeSender ⟨0, 0⟩).content k = fed.content k :=
    Hub.content_closeSender hfed k
  have hsealed : (fed.closeSender ⟨0, 0⟩).ends 0 = Channel.ends (.sealed []) := by
    rw [hends, if_pos rfl]
    rcases hlags.feeder with hopen | ⟨_, hclosed⟩
    · exact Channel.ends_closeSender hopen
    · exact Channel.ends_closeSender_sealed hclosed
  refine ⟨?_, hsealed⟩
  constructor
  · exact (Hub.size_put _ _ _).trans hlags.fedSize
  · exact hlags.wholeSize
  · exact .inr ⟨rfl, hsealed⟩
  · rw [hends]
    exact hlags.fedOutput
  · exact hlags.wholeInput
  · exact hlags.wholeOutput
  · rw [hcontent]
    exact hlags.inputs
  · rw [hcontent]
    exact hlags.outputs

/-- The feeder sends its next value. -/
theorem send {v : Int} (hlags : Lags fed (v :: unsent) whole) :
    fed.send ⟨0, 0⟩ v = .ok (fed.refill 0 ((fed.channel 0).buffer.push v)) ∧
      Lags (fed.refill 0 ((fed.channel 0).buffer.push v)) unsent whole := by
  have hfed := hlags.lt_fedSize (n := 0) (by decide)
  have hopen : fed.ends 0 = Channel.ends {} := by
    rcases hlags.feeder with hopen | ⟨hnil, _⟩
    · exact hopen
    · cases hnil
  constructor
  · rcases fed.send_cases ⟨0, 0⟩ v with ⟨_, _, hsend⟩ | ⟨hdeaf, _⟩
    · exact hsend
    · rw [Hub.listens_of_ends hopen] at hdeaf
      cases hdeaf
  constructor
  · rw [Hub.size_refill, hlags.fedSize]
  · exact hlags.wholeSize
  · rw [Hub.ends_refill hfed]
    exact .inl hopen
  · rw [Hub.ends_refill hfed, hlags.fedOutput]
  · exact hlags.wholeInput
  · exact hlags.wholeOutput
  · rw [Hub.content_refill hfed, if_pos rfl, Fifo.toList_push, List.append_assoc]
    exact hlags.inputs
  · rw [Hub.content_refill hfed]
    exact hlags.outputs

/-- When the fed engine is told that nobody is coming, the other has nothing left to take. -/
theorem of_closed (hlags : Lags fed unsent whole)
    (hclosed : (fed.channel 0).receiverOpen = false ∨
      fed.content 0 = [] ∧ (fed.channel 0).senders = 0) :
    whole.content 0 = [] ∧ (whole.channel 0).senders = 0 := by
  rw [Hub.receiverOpen_eq, Hub.senders_eq] at hclosed
  have hwhole : (whole.channel 0).senders = 0 := by
    rw [Hub.senders_eq, hlags.wholeInput]
    rfl
  refine ⟨?_, hwhole⟩
  rcases hlags.feeder with hopen | ⟨hnil, hsealed⟩
  · rw [hopen] at hclosed
    rcases hclosed with hfalse | ⟨_, hnone⟩
    · cases hfalse
    · cases hnone
  · rw [hsealed] at hclosed
    rcases hclosed with hfalse | ⟨hempty, _⟩
    · cases hfalse
    · rw [hlags.inputs, hempty, hnil]
      rfl

end Lags

/-! ### Following a batch run -/

/-- A fed engine is where a batch run is, or it is suspended in what is the next step of that
    run. -/
structure Follows (s : Feed) (whole : Engine × Hub) : Prop where
  ports : whole.1.ports = (none, some ⟨0⟩, some ⟨1, 0⟩)
  engine : s.engine = whole.1 ∨ ∃ r, Engine.Awaiting whole.1 r s.engine
  channels : Lags s.hub s.unsent whole.2

/-- How many turns the feeder still needs. -/
def backlog (s : Feed) : Nat := s.unsent.length + (s.hub.channel 0).senders

namespace Follows

variable {s : Feed} {whole : Engine × Hub} {r : Request} {e' : Engine}

theorem at_start {e : Engine} (hreq : e.request = none) (inputs : List Int) :
    (Feed.start e inputs).Follows (e.wired ⟨0⟩ ⟨1, 0⟩, Batch.channels inputs) where
  ports := by
    show (e.request, _, _) = _
    rw [hreq]
    rfl
  engine := .inl rfl
  channels := Lags.start inputs

/-- Only an engine that asks for a value falls behind. -/
theorem engine_eq (hf : s.Follows whole) (hasks : ∀ r, s.engine.move ≠ .await r) :
    s.engine = whole.1 := by
  rcases hf.engine with heq | ⟨r, hask⟩
  · exact heq
  · exact absurd hask.move (hasks r)

/-- What the fed engine asks for, the other asks for too. -/
theorem asks (hf : s.Follows whole) (hask : Engine.Awaiting s.engine r e') :
    Engine.Awaiting whole.1 r e' ∧ r.receiver.channel = 0 := by
  have hboth : Engine.Awaiting whole.1 r e' := by
    rcases hf.engine with heq | ⟨r', hwhole⟩
    · rw [← heq]
      exact hask
    · -- a suspended engine asks for what it has been suspended with
      have hmove := hwhole.move
      cases hask with
      | already hmove' =>
        rw [hmove] at hmove'
        cases hmove'
        exact hwhole
      | now hmove' =>
        rw [hmove] at hmove'
        cases hmove'
  refine ⟨hboth, ?_⟩
  rcases hboth.receiver with hreq | hin
  · rw [show whole.1.request = none from congrArg Prod.fst hf.ports] at hreq
    cases hreq
  · rw [show whole.1.input = some ⟨0⟩ from congrArg (·.2.1) hf.ports] at hin
    exact congrArg ReceiverRef.channel (Option.some.inj hin).symm

/-- A turn of the feeder changes nothing about the batch run. -/
theorem feed (hf : s.Follows whole) : s.feed.Follows whole ∧ s.feed.backlog = s.backlog - 1 := by
  obtain ⟨engine, hub, unsent⟩ := s
  have hlags : Lags hub unsent whole.2 := hf.channels
  cases unsent with
  | nil =>
    obtain ⟨hlags', hsealed⟩ := hlags.hangUp
    have hzero : ((hub.closeSender ⟨0, 0⟩).channel 0).senders = 0 := by
      rw [Hub.senders_eq, hsealed]
      rfl
    refine ⟨⟨hf.ports, hf.engine, hlags'⟩, ?_⟩
    have hsenders : (hub.channel 0).senders ≤ 1 := by
      rw [Hub.senders_eq]
      rcases hlags.feeder with hopen | ⟨_, hclosed⟩
      · rw [hopen]
        decide
      · rw [hclosed]
        decide
    show 0 + ((hub.closeSender ⟨0, 0⟩).channel 0).senders = 0 + (hub.channel 0).senders - 1
    rw [hzero]
    omega
  | cons v unsent =>
    obtain ⟨hsend, hlags'⟩ := hlags.send
    have hlt := hlags.lt_fedSize (n := 0) (by decide)
    have hends := Hub.ends_refill hlt ((hub.channel 0).buffer.push v) 0
    have hsenders : ((hub.refill 0 ((hub.channel 0).buffer.push v)).channel 0).senders =
        (hub.channel 0).senders := by
      rw [Hub.senders_eq, hends]
      rfl
    unfold Feed.feed
    dsimp only
    rw [hsend]
    refine ⟨⟨hf.ports, hf.engine, hlags'⟩, ?_⟩
    unfold backlog
    dsimp only
    rw [hsenders, List.length_cons]
    omega

/-- What an exchange of the fed engine is worth: the batch run has taken its next step, or the
    engine waits for the feeder. -/
theorem exchange {taken sent : Option Int} {result : Engine × Hub} (hf : s.Follows whole)
    (hstep : Engine.Exchange s.engine s.hub taken sent result) :
    (⟨result.1, result.2, s.unsent⟩ : Feed).Follows whole ∧ s.backlog ≠ 0 ∨
      (⟨result.1, result.2, s.unsent⟩ : Feed).Follows (whole.1.step whole.2) := by
  obtain ⟨e, h⟩ := whole
  have hports : e.ports = (none, some ⟨0⟩, some ⟨1, 0⟩) := hf.ports
  have hkept : ((none : Option Request), e.input, e.output) = (none, some ⟨0⟩, some ⟨1, 0⟩) :=
    congrArg (none, ·.2) hports
  have hlags : Lags s.hub s.unsent h := hf.channels
  cases hstep with
  | rest hmove =>
    have heq := hf.engine_eq (by rw [hmove]; exact fun r h => nomatch h)
    rw [heq] at hmove
    rw [Engine.step_of_rest hmove]
    exact .inr ⟨hports, .inl heq, hlags⟩
  | silent hmove hreq =>
    have heq := hf.engine_eq (by rw [hmove]; exact fun r h => nomatch h)
    rw [heq] at hmove
    rw [Engine.step_of_act hmove hreq]
    exact .inr ⟨(Engine.ports_of_act hmove hreq).trans hkept, .inl rfl, hlags⟩
  | waits hask hopen hempty hsenders =>
    -- the fed engine has fallen behind, and the feeder has not hung up
    obtain ⟨hwhole, hrx⟩ := hf.asks hask
    rw [hrx] at hsenders
    exact .inl ⟨⟨hports, .inr ⟨_, hwhole⟩, hlags⟩, by unfold backlog; omega⟩
  | takes hask hopen hcontent =>
    obtain ⟨hwhole, hrx⟩ := hf.asks hask
    rw [hrx] at hcontent ⊢
    have hopen' : (h.channel 0).receiverOpen = true := by
      rw [Hub.receiverOpen_eq, hlags.wholeInput]
      rfl
    have hall := hlags.inputs
    rw [hcontent, List.cons_append] at hall
    -- what is at the front of the fed channel is at the front of the other
    obtain ⟨all, hrest, hnext⟩ := hwhole.step_takes hrx hopen' hall
    rw [hnext]
    exact .inr ⟨(hwhole.ports_answer _).trans hkept, .inl rfl, hlags.take hrest⟩
  | givesUp hask hclosed =>
    obtain ⟨hwhole, hrx⟩ := hf.asks hask
    rw [hrx] at hclosed
    obtain ⟨hempty, hnone⟩ := hlags.of_closed hclosed
    rw [hwhole.step_givesUp hrx hempty hnone]
    exact .inr ⟨hwhole.ports_giveUp.trans hkept, .inl rfl, hlags⟩
  | @sends tx origin v told hmove hlistens hlt =>
    have heq := hf.engine_eq (by rw [hmove]; exact fun r h => nomatch h)
    rw [heq] at hmove
    obtain ⟨hout, htold⟩ := Engine.ports_of_tell hmove
    cases hout.symm.trans (congrArg (·.2.2) hports)
    have hheard : h.listens ⟨1, 0⟩ = true := Hub.listens_of_ends hlags.wholeOutput
    rw [Engine.step_sends hmove hheard]
    exact .inr ⟨(Engine.ports_complete told).trans (htold.trans hkept), .inl rfl, hlags.emit v⟩
  | refused hmove hlistens =>
    have heq := hf.engine_eq (by rw [hmove]; exact fun r h => nomatch h)
    rw [heq] at hmove
    obtain ⟨hout, _⟩ := Engine.ports_of_tell hmove
    cases hout.symm.trans (congrArg (·.2.2) hports)
    -- somebody listens to the output for ever
    rw [Hub.listens_of_ends hlags.fedOutput] at hlistens
    cases hlistens

/-- A turn of the engine. -/
theorem engineTurn (hf : s.Follows whole) :
    (s.turn .engine).Follows whole ∧ s.backlog ≠ 0 ∨
      (s.turn .engine).Follows (whole.1.step whole.2) :=
  hf.exchange (Engine.exchange_step s.engine s.hub)

/-- An engine that follows one that has ended has ended in the same way. -/
theorem engine_eq_of_ended (hf : s.Follows whole) (hended : whole.1.isRunning = false) :
    s.engine = whole.1 := by
  rcases hf.engine with heq | ⟨r, hask⟩
  · exact heq
  · rw [hask.isRunning] at hended
    cases hended

/-- An engine that has ended is where the other has ended. -/
theorem eq_engine_of_ended (hf : s.Follows whole) (hended : s.engine.isRunning = false) :
    s.engine = whole.1 := by
  apply hf.engine_eq
  intro r hmove
  rw [(Engine.move_eq_rest_iff _).2 hended] at hmove
  cases hmove

end Follows

/-! ### Orders of turns -/

/-- The turn of the engine leaves the feeder alone. -/
theorem backlog_engineTurn (s : Feed) : (s.turn .engine).backlog = s.backlog := by
  show s.unsent.length + ((s.engine.step s.hub).2.channel 0).senders = s.backlog
  rw [Hub.senders_eq, Engine.ends_step]
  rfl

/-- The turn of the feeder brings it nearer to its end. -/
theorem Follows.backlog_turn {s : Feed} {whole : Engine × Hub} (hf : s.Follows whole) (p : Party) :
    (s.turn p).backlog ≤ s.backlog := by
  cases p with
  | engine => exact Nat.le_of_eq (backlog_engineTurn s)
  | feeder => exact Nat.le_trans (Nat.le_of_eq hf.feed.2) (Nat.sub_le _ _)

/-- The batch run, after a number of steps. -/
def whole (e : Engine) (inputs : List Int) (k : Nat) : Engine × Hub :=
  (e.wired ⟨0⟩ ⟨1, 0⟩).runFor k (Batch.channels inputs)

variable {e : Engine} {inputs : List Int} {order : Nat → Party} {s : Feed} {k : Nat}

/-- The batch run is never suspended, so it goes on step by step. -/
theorem Follows.whole_succ (hf : s.Follows (whole e inputs k)) :
    whole e inputs (k + 1) = (whole e inputs k).1.step (whole e inputs k).2 :=
  Engine.runFor_succ k _ _ (congrArg Prod.fst hf.ports)

/-- At any time the fed engine is where the batch run is at some time. -/
theorem exists_follows (hreq : e.request = none) (inputs : List Int) (order : Nat → Party)
    (n : Nat) : ∃ k, ((start e inputs).run order n).Follows (whole e inputs k) := by
  induction n with
  | zero => exact ⟨0, Follows.at_start hreq inputs⟩
  | succ n ih =>
    obtain ⟨k, hf⟩ := ih
    show ∃ k, (((start e inputs).run order n).turn (order n)).Follows _
    cases order n with
    | feeder => exact ⟨k, hf.feed.1⟩
    | engine =>
      rcases hf.engineTurn with ⟨hstay, _⟩ | hnext
      · exact ⟨k, hstay⟩
      · rw [← hf.whole_succ] at hnext
        exact ⟨k + 1, hnext⟩

/-- In a fair order the feeder comes to its end, and has nothing more to do. -/
theorem exists_backlog_eq_zero (hreq : e.request = none) (inputs : List Int) (hfair : Fair order)
    (n : Nat) : ∃ m, n ≤ m ∧ ∀ k, m ≤ k → ((start e inputs).run order k).backlog = 0 := by
  refine exists_forall_eq_zero (hfair .feeder) (fun m _ => ?_) (fun m _ hturn => ?_)
  · obtain ⟨k, hf⟩ := exists_follows hreq inputs order m
    exact hf.backlog_turn (order m)
  · obtain ⟨k, hf⟩ := exists_follows hreq inputs order m
    show (((start e inputs).run order m).turn (order m)).backlog = _
    rw [hturn]
    exact hf.feed.2

/-- In a fair order the fed engine keeps pace with the batch run. -/
theorem exists_follows_succ (hreq : e.request = none) (hfair : Fair order) {n : Nat}
    (hf : ((start e inputs).run order n).Follows (whole e inputs k)) :
    ∃ m, ((start e inputs).run order m).Follows (whole e inputs (k + 1)) := by
  by_contra hnever
  -- otherwise the engine is stuck at this step, also when the feeder has come to its end
  have hstuck (m : Nat) (hnm : n ≤ m) :
      ((start e inputs).run order m).Follows (whole e inputs k) := by
    induction m, hnm using Nat.le_induction with
    | base => exact hf
    | succ m _ ih =>
      have hnext : ¬(((start e inputs).run order m).turn (order m)).Follows
        (whole e inputs (k + 1)) := fun h => hnever ⟨m + 1, h⟩
      show (((start e inputs).run order m).turn (order m)).Follows _
      cases hturn : order m with
      | feeder => exact ih.feed.1
      | engine =>
        rw [hturn, ih.whole_succ] at hnext
        rcases ih.engineTurn with ⟨hstay, _⟩ | hgo
        · exact hstay
        · exact absurd hgo hnext
  obtain ⟨m₁, hm₁, hdone⟩ := exists_backlog_eq_zero hreq inputs hfair n
  -- then the next turn of the engine cannot be one of waiting
  obtain ⟨m₂, hm₂, hturn⟩ := hfair .engine m₁
  have hf₂ := hstuck m₂ (Nat.le_trans hm₁ hm₂)
  apply hnever
  refine ⟨m₂ + 1, ?_⟩
  show (((start e inputs).run order m₂).turn (order m₂)).Follows _
  rw [hturn, hf₂.whole_succ]
  rcases hf₂.engineTurn with ⟨_, hsome⟩ | hgo
  · exact absurd (hdone m₂ hm₂) hsome
  · exact hgo

/-- In a fair order the fed engine comes to every step of the batch run. -/
theorem exists_run_follows (hreq : e.request = none) (hfair : Fair order) (inputs : List Int)
    (k : Nat) : ∃ n, ((start e inputs).run order n).Follows (whole e inputs k) := by
  induction k with
  | zero => exact ⟨0, Follows.at_start hreq inputs⟩
  | succ k ih =>
    obtain ⟨n, hf⟩ := ih
    exact exists_follows_succ hreq hfair hf

/-- A batch run that has ended is followed for ever. -/
theorem Follows.run_of_ended {n : Nat}
    (hf : ((start e inputs).run order n).Follows (whole e inputs k))
    (hended : (whole e inputs k).1.isRunning = false) {m : Nat} (hnm : n ≤ m) :
    ((start e inputs).run order m).Follows (whole e inputs k) := by
  induction m, hnm using Nat.le_induction with
  | base => exact hf
  | succ m _ ih =>
    show (((start e inputs).run order m).turn (order m)).Follows _
    cases order m with
    | feeder => exact ih.feed.1
    | engine =>
      rcases ih.engineTurn with ⟨hstay, _⟩ | hgo
      · exact hstay
      · rw [Engine.step_of_ended hended] at hgo
        exact hgo

/-- **The order of turns does not matter.**  Whatever the order, a fed engine has emitted at any
    time what a batch run on the same inputs has emitted after some number of steps, and when it has
    ended the engines are the same.  In a fair order it comes to all that the batch run comes to:
    the outputs after every number of steps, and the end if there is one. -/
theorem run_eq_execute (e : Engine) (inputs : List Int) (order : Nat → Party)
    (hreq : e.request = none) :
    (∀ n, ∃ k,
      ((start e inputs).run order n).outputs = (Batch.execute k e (some inputs)).outputs ∧
      (((start e inputs).run order n).engine.isRunning = false →
        ((start e inputs).run order n).engine = (Batch.execute k e (some inputs)).engine)) ∧
    (Fair order → ∀ k, ∃ n,
      ((start e inputs).run order n).outputs = (Batch.execute k e (some inputs)).outputs ∧
      ((Batch.execute k e (some inputs)).engine.isRunning = false → ∀ m, n ≤ m →
        ((start e inputs).run order m).engine = (Batch.execute k e (some inputs)).engine ∧
        ((start e inputs).run order m).outputs =
          (Batch.execute k e (some inputs)).outputs)) := by
  constructor
  · intro n
    obtain ⟨k, hf⟩ := exists_follows hreq inputs order n
    refine ⟨k, hf.channels.outputs.symm, ?_⟩
    intro hended
    exact hf.eq_engine_of_ended hended
  · intro hfair k
    obtain ⟨n, hf⟩ := exists_run_follows hreq hfair inputs k
    refine ⟨n, hf.channels.outputs.symm, ?_⟩
    intro hended m hnm
    have hfm := hf.run_of_ended hended hnm
    exact ⟨hfm.engine_eq_of_ended hended, hfm.channels.outputs.symm⟩

/-- The engine has the first turn, and the two alternate. -/
def alternating (n : Nat) : Party := if n % 2 = 0 then .engine else .feeder

theorem fair_alternating : Fair alternating := by
  intro p n
  unfold alternating
  cases p with
  | engine => exact ⟨2 * n, by omega, if_pos (by omega)⟩
  | feeder => exact ⟨2 * n + 1, by omega, if_neg (by omega)⟩

/-- A program that echoes one value waits for it, and ends as if it had been there. -/
theorem run_eq_execute_of_echo :
    ((start (.ofCells [3, 0, 4, 0, 99] false {}) [7]).run alternating 1).engine.request ≠ none ∧
      ∃ n, ∀ m, n ≤ m →
        ((start (.ofCells [3, 0, 4, 0, 99] false {}) [7]).run alternating m).engine =
          (Batch.execute 3 (.ofCells [3, 0, 4, 0, 99] false {}) (some [7])).engine ∧
        ((start (.ofCells [3, 0, 4, 0, 99] false {}) [7]).run alternating m).outputs = [7] := by
  have hrun := run_eq_execute (.ofCells [3, 0, 4, 0, 99] false {}) [7] alternating rfl
  obtain ⟨n, _, hend⟩ := hrun.2 fair_alternating 3
  refine ⟨by decide, n, ?_⟩
  intro m hnm
  exact hend (by decide) m hnm

end Feed

end Intcode
