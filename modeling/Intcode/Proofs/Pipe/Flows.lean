import Intcode.Proofs.Between
import Intcode.Proofs.Channel.HangUp
import Intcode.Proofs.Turns

namespace Intcode

open Network (releaseOutput releaseInput)

/-!
# Reading what a worker's engine emits

A worker runs an engine, a reader iterates over what the engine emits, and whoever holds senders of
the engine's input supplies it; they take their turns in any order.  The engine's sender is the only
one of its channel, and the reader has the receiving end of that channel for itself.

* `Pipe`, `Pipe.turn`, `Pipe.run` — the parties, a turn of one of them, and the turns of an order
* `Pipe.work_running`, `Pipe.work_releasingOutput`, `Pipe.work_releasingInput` — the worker's turns
* `Pipe.Flows`                    — what is true at every time
* `Pipe.Flows.work`, `Pipe.Flows.read`, `Pipe.Flows.supply` — a turn of each party keeps it
-/

/-- What somebody who holds a sender of the input can do with it. -/
inductive Pipe.Supply where
  | send (handle : Nat) (v : Int)
  | clone (handle : Nat)
  | hangUp (handle : Nat)
  deriving Repr, DecidableEq

/-- Who takes a turn. -/
inductive Pipe.Party where
  | worker
  | reader
  | supplier (act : Supply)
  deriving Repr, DecidableEq

/-- A worker with its engine, and a reader of the engine's output. -/
structure Pipe where
  engine : Engine
  worker : Worker
  /-- The channels: the input is the first, the output the second. -/
  hub : Hub
  /-- The values the reader has received, in order. -/
  yielded : List Int := []
  /-- The reader has been told that nobody is coming. -/
  finished : Bool := false
  /-- The values the output instructions have emitted, in order. -/
  emitted : List Int := []
  /-- The values the input instructions have taken from the channel, in order. -/
  taken : List Int := []
  /-- The values accepted from the suppliers, in order. -/
  supplied : List Int := []

/-- The value the instruction of an engine emits, whatever becomes of it. -/
def Engine.told? (e : Engine) (_ : Hub) : Option Int :=
  match e.move with
  | .tell _ _ v _ => some v
  | _ => none

namespace Engine

variable {e : Engine} {h : Hub} {from? : Option ReceiverRef} {tx : SenderRef}

/-- What an engine emits where it is heard is sent. -/
theorem Outlet.sent?_eq_told? (ho : Outlet from? tx e) (hheard : h.listens tx = true) :
    e.sent? h = e.told? h := by
  unfold sent? told?
  rcases hmove : e.move with _ | next | r | ⟨tx', origin, v, told⟩
  · rfl
  · rfl
  · rfl
  · obtain rfl := ho.sender hmove
    exact if_pos hheard

end Engine

/-- The worker has not closed the input. -/
def Worker.keepsInput (w : Worker) : Bool := w.phase.holdsInput || w.keepInput

namespace Pipe

/-- The network of the one worker. -/
def network (s : Pipe) : Network :=
  { hub := s.hub, engines := #[s.engine], workers := #[s.worker] }

/-- The worker takes a step, if it can. -/
def work (s : Pipe) : Pipe :=
  if s.network.canStep 0 then
    { s with
      hub := (s.network.step 0).hub
      engine := (s.network.step 0).engine 0
      worker := (s.network.step 0).workers.getD 0 s.worker
      emitted := s.emitted ++ s.network.passing Engine.told? 0 0
      taken := s.taken ++ s.network.passing Engine.taken? 0 0 }
  else s

/-- The reader receives a value, or is told that nobody is coming, and then reads no more.  One that
    has to wait is passed over. -/
def read (s : Pipe) : Pipe :=
  if s.finished then s
  else
    match s.hub.recv ⟨1⟩ with
    | .value v hub => { s with hub, yielded := s.yielded ++ [v] }
    | .closed _ => { s with finished := true }
    | .wait => s

/-- A supplier uses a sender of the input; it may be refused. -/
def supply (s : Pipe) : Supply → Pipe
  | .send handle v =>
    match s.hub.send ⟨0, handle⟩ v with
    | .ok hub => { s with hub, supplied := s.supplied ++ [v] }
    | .error _ => s
  | .clone handle =>
    match s.hub.clone ⟨0, handle⟩ with
    | .ok (_, hub) => { s with hub }
    | .error _ => s
  | .hangUp handle => { s with hub := s.hub.closeSender ⟨0, handle⟩ }

/-- One turn. -/
def turn (s : Pipe) : Party → Pipe
  | .worker => s.work
  | .reader => s.read
  | .supplier act => s.supply act

/-- The first turns of an order. -/
def run (s : Pipe) (order : Nat → Party) : Nat → Pipe
  | 0 => s
  | n + 1 => (s.run order n).turn (order n)

/-- The worker and the reader come again and again. -/
def Fair (order : Nat → Party) : Prop :=
  (∀ n, ∃ m, n ≤ m ∧ order m = .worker) ∧ ∀ n, ∃ m, n ≤ m ∧ order m = .reader

/-- The end an engine reads from, if it does not read from its console. -/
def inlet (fed : Bool) : Option ReceiverRef := if fed then some ⟨0⟩ else none

/-- A worker begins with its engine between two channels, or between its console and a channel. -/
def start (e : Engine) (w : Worker) (fed : Bool) (handle : Nat) (source out : Channel) : Pipe :=
  { engine := { e with input := inlet fed, output := some ⟨1, handle⟩ }
    worker := { w with engine := 0, phase := .running }
    hub := ⟨#[source, out]⟩ }

variable {s : Pipe} {fed keep : Bool} {handle : Nat} {source out : Channel}

/-! ### Turns of the worker -/

theorem work_of_idle (hidle : s.network.canStep 0 = false) : s.work = s := by
  unfold work
  rw [if_neg (by rw [hidle]; decide)]

/-- A worker whose engine runs lets it take a step. -/
theorem work_running (hunit : s.worker.engine = 0) (hphase : s.worker.phase = .running)
    (hcan : s.network.canStep 0 = true) :
    s.work =
      { s with
        engine := (s.engine.step s.hub).1
        hub := (s.engine.step s.hub).2
        worker := { s.worker with phase := (s.engine.step s.hub).1.phase }
        emitted := s.emitted ++ (s.engine.told? s.hub).toList
        taken := s.taken ++ (s.engine.taken? s.hub).toList } := by
  have hw : s.network.workers[0]? = some s.worker := rfl
  have hk : s.worker.engine < s.network.engines.size := by
    rw [hunit]
    exact Nat.one_pos
  have hpassing (look : Engine → Hub → Option Int) :
      s.network.passing look 0 0 = (look s.engine s.hub).toList := by
    rw [Network.passing_running look hw hphase, if_pos hunit]
    rfl
  unfold work
  rw [if_pos hcan, hpassing, hpassing, Network.step_running hw hphase hk, hunit]
  rfl

theorem work_releasingOutput (hunit : s.worker.engine = 0)
    (hphase : s.worker.phase = .releasingOutput) :
    s.work =
      { s with
        engine := (releaseOutput s.engine s.hub).1
        hub := (releaseOutput s.engine s.hub).2
        worker := { s.worker with phase := .releasingInput } } := by
  have hw : s.network.workers[0]? = some s.worker := rfl
  have hcan : s.network.canStep 0 = true := by
    unfold Network.canStep
    rw [hw]
    dsimp only
    rw [hphase]
  have hne : s.worker.phase ≠ .running := by
    rw [hphase]
    decide
  unfold work
  rw [if_pos hcan, Network.passing_of_ne_running _ hw hne, Network.passing_of_ne_running _ hw hne,
    Network.step_releasingOutput hw hphase, hunit, List.append_nil, List.append_nil]
  rfl

theorem work_releasingInput (hunit : s.worker.engine = 0)
    (hphase : s.worker.phase = .releasingInput) :
    s.work =
      if s.worker.keepInput then { s with worker := { s.worker with phase := .ended } }
      else
        { s with
          engine := (releaseInput s.engine s.hub).1
          hub := (releaseInput s.engine s.hub).2
          worker := { s.worker with phase := .ended } } := by
  have hw : s.network.workers[0]? = some s.worker := rfl
  have hk : s.worker.engine < s.network.engines.size := by
    rw [hunit]
    exact Nat.one_pos
  have hcan : s.network.canStep 0 = true := by
    unfold Network.canStep
    rw [hw]
    dsimp only
    rw [hphase]
  have hne : s.worker.phase ≠ .running := by
    rw [hphase]
    decide
  unfold work
  rw [if_pos hcan, Network.passing_of_ne_running _ hw hne, Network.passing_of_ne_running _ hw hne,
    Network.step_releasingInput hw hphase hk, hunit, List.append_nil, List.append_nil]
  split <;> rfl

theorem work_ended (hphase : s.worker.phase = .ended) : s.work = s := by
  apply work_of_idle
  have hw : s.network.workers[0]? = some s.worker := rfl
  unfold Network.canStep
  rw [hw]
  dsimp only
  rw [hphase]

/-! ### What is true at every time -/

/-- An engine and its worker, who have begun with certain ends. -/
structure Attends (fed keep : Bool) (handle : Nat) (e : Engine) (w : Worker) : Prop where
  unit : w.engine = 0
  keep : w.keepInput = keep
  /-- The worker lets go of the ends only when the engine has ended. -/
  stopped : w.phase ≠ .running → e.isRunning = false
  waiting : ∀ r, e.request = some r → e.isRunning = true ∧ inlet fed = some r.receiver
  input : e.input = if w.keepsInput then inlet fed else none
  output : e.output = if w.phase.holdsOutput then some ⟨1, handle⟩ else none

/-- The channel between the engine and the reader.  The engine's sender is the only one that is
    open, as long as it is held. -/
structure Outgoing (out : Channel) (handle : Nat) (held : Bool) (h : Hub)
    (yielded emitted : List Int) (finished : Bool) : Prop where
  counted : (h.channel 1).Counted
  sole : ∀ k, (h.channel 1).isOpen k = true ↔ held = true ∧ k = handle
  received : (h.channel 1).receiverOpen = true
  passed : yielded ++ h.content 1 = out.content ++ emitted
  finished : finished = true → held = false ∧ h.content 1 = []

/-- The channel between the suppliers and the engine. -/
structure Incoming (source : Channel) (fed kept : Bool) (h : Hub) (taken supplied : List Int) :
    Prop where
  unread : kept = true → (h.channel 0).receiverOpen = source.receiverOpen ∧
    taken ++ h.content 0 = source.content ++ supplied
  released : kept = false → fed = true → (h.channel 0).receiverOpen = false

/-- The state of a pipe that has begun with certain channels. -/
structure Flows (fed keep : Bool) (handle : Nat) (source out : Channel) (s : Pipe) : Prop where
  size : s.hub.channels.size = 2
  attends : Attends fed keep handle s.engine s.worker
  outgoing : Outgoing out handle s.worker.phase.holdsOutput s.hub s.yielded s.emitted s.finished
  incoming : Incoming source fed s.worker.keepsInput s.hub s.taken s.supplied

/-- Nothing has happened at the start. -/
theorem flows_start {e : Engine} (hreq : e.request = none) (w : Worker) (fed : Bool)
    (hcounted : out.Counted) (hsole : ∀ k, out.isOpen k = true ↔ k = handle)
    (hreceived : out.receiverOpen = true) (source : Channel) :
    Flows fed w.keepInput handle source out (start e w fed handle source out) where
  size := rfl
  attends := ⟨rfl, rfl, fun hne => absurd rfl hne,
    fun _ hr => absurd (hreq.symm.trans hr) nofun, rfl, rfl⟩
  outgoing := ⟨hcounted, fun k => (hsole k).trans ⟨fun hk => ⟨rfl, hk⟩, And.right⟩, hreceived,
    (List.append_nil out.content).symm, nofun⟩
  incoming := ⟨fun _ => ⟨rfl, (List.append_nil source.content).symm⟩, nofun⟩

variable {held kept finished : Bool} {h h' : Hub} {yielded emitted taken supplied : List Int}

/-- The reader's channel is as it has been. -/
theorem Outgoing.congr (ho : Outgoing out handle held h yielded emitted finished)
    (hends : h'.ends 1 = h.ends 1) (hcontent : h'.content 1 = h.content 1) :
    Outgoing out handle held h' yielded emitted finished where
  counted := ho.counted.of_ends hends
  sole := by
    intro k
    rw [Channel.isOpen_eq_of_ends hends]
    exact ho.sole k
  received := (congrArg (·.2.2) hends).trans ho.received
  passed := by
    rw [hcontent]
    exact ho.passed
  finished := by
    rw [hcontent]
    exact ho.finished

/-- The reader receives the first value that is queued. -/
theorem Outgoing.take (ho : Outgoing out handle held h yielded emitted false)
    (hlt : 1 < h.channels.size) {v : Int} {buffer : Fifo Int}
    (hcontent : h.content 1 = v :: buffer.toList) :
    Outgoing out handle held (h.refill 1 buffer) (yielded ++ [v]) emitted false where
  counted := ho.counted.of_ends (Hub.ends_refill hlt buffer 1)
  sole := by
    intro k
    rw [Channel.isOpen_eq_of_ends (Hub.ends_refill hlt buffer 1)]
    exact ho.sole k
  received := (congrArg (·.2.2) (Hub.ends_refill hlt buffer 1)).trans ho.received
  passed := by
    rw [Hub.content_refill hlt, if_pos rfl, List.append_assoc, ← ho.passed, hcontent]
    rfl
  finished := nofun

/-- The reader is told that nobody is coming when that is so: the engine's sender is no longer
    held. -/
theorem Outgoing.finish (ho : Outgoing out handle held h yielded emitted false)
    (hclosed : (h.channel 1).receiverOpen = false ∨
      h.content 1 = [] ∧ (h.channel 1).senders = 0) :
    Outgoing out handle held h yielded emitted true := by
  rcases hclosed with hclosed | ⟨hempty, hnone⟩
  · exact absurd (ho.received.symm.trans hclosed) nofun
  refine ⟨ho.counted, ho.sole, ho.received, ho.passed, fun _ => ⟨?_, hempty⟩⟩
  -- as long as it is held, its handle is open
  apply eq_false_of_ne_true
  intro hheld
  have hopen := (ho.sole handle).2 ⟨hheld, rfl⟩
  rw [ho.counted.senders_eq_zero_iff.1 hnone handle] at hopen
  cases hopen

/-- The engine emits a value, or none. -/
theorem Outgoing.push (ho : Outgoing out handle true h yielded emitted finished)
    (hends : h'.ends 1 = h.ends 1) {vs : List Int} (hcontent : h'.content 1 = h.content 1 ++ vs) :
    Outgoing out handle true h' yielded (emitted ++ vs) finished where
  counted := ho.counted.of_ends hends
  sole := by
    intro k
    rw [Channel.isOpen_eq_of_ends hends]
    exact ho.sole k
  received := (congrArg (·.2.2) hends).trans ho.received
  passed := by
    rw [hcontent, ← List.append_assoc, ho.passed, List.append_assoc]
  finished := fun hfinished => absurd (ho.finished hfinished).1 nofun

/-- The worker hangs up the engine's sender. -/
theorem Outgoing.hangUp (ho : Outgoing out handle true h yielded emitted finished)
    (hlt : 1 < h.channels.size) :
    Outgoing out handle false (h.closeSender ⟨1, handle⟩) yielded emitted finished := by
  have hchannel : (h.closeSender ⟨1, handle⟩).channel 1 = (h.channel 1).closeSender handle :=
    Hub.channel_put hlt _ 1
  constructor
  · rw [hchannel]
    exact ho.counted.closeSender handle
  · intro k
    rw [hchannel, Channel.isOpen_closeSender_iff, ho.sole k]
    exact ⟨fun hopen => absurd hopen.1.2 hopen.2, nofun⟩
  · rw [hchannel]
    unfold Channel.closeSender
    split <;> exact ho.received
  · rw [Hub.content_closeSender hlt]
    exact ho.passed
  · exact fun hfinished => absurd (ho.finished hfinished).1 nofun

/-- The suppliers' channel is as it has been. -/
theorem Incoming.congr (hi : Incoming source fed kept h taken supplied)
    (hends : h'.ends 0 = h.ends 0) (hcontent : h'.content 0 = h.content 0) :
    Incoming source fed kept h' taken supplied := by
  have hopen : (h'.channel 0).receiverOpen = (h.channel 0).receiverOpen := congrArg (·.2.2) hends
  constructor
  · rw [hopen, hcontent]
    exact hi.unread
  · rw [hopen]
    exact hi.released

/-- The engine takes a value, or none. -/
theorem Incoming.take (hi : Incoming source fed true h taken supplied)
    (hends : h'.ends 0 = h.ends 0) {vs : List Int} (hcontent : vs ++ h'.content 0 = h.content 0) :
    Incoming source fed true h' (taken ++ vs) supplied where
  unread := by
    intro _
    obtain ⟨hopen, hunread⟩ := hi.unread rfl
    refine ⟨(congrArg (·.2.2) hends).trans hopen, ?_⟩
    rw [List.append_assoc, hcontent, hunread]
  released := nofun

namespace Flows

theorem lt_size (hf : Flows fed keep handle source out s) {n : Nat} (hn : n < 2) :
    n < s.hub.channels.size := by
  rw [hf.size]
  exact hn

/-! ### Turns of the suppliers -/

/-- What a supplier does concerns the input only. -/
theorem put (hf : Flows fed keep handle source out s) {c : Channel} {vs : List Int}
    (hopen : c.receiverOpen = (s.hub.channel 0).receiverOpen)
    (hcontent : c.content = s.hub.content 0 ++ vs) :
    Flows fed keep handle source out
      { s with hub := s.hub.put 0 c, supplied := s.supplied ++ vs } := by
  have hlt : 0 < s.hub.channels.size := hf.lt_size (by decide)
  have hchannel : (s.hub.put 0 c).channel 0 = c := Hub.channel_put hlt c 0
  refine ⟨(Hub.size_put _ _ _).trans hf.size, hf.attends,
    hf.outgoing.congr (Hub.ends_put hlt c 1) (Hub.content_put hlt c 1), ?_, ?_⟩
  · intro hkeeps
    obtain ⟨hreceiver, hunread⟩ := hf.incoming.unread hkeeps
    rw [Hub.content, hchannel]
    refine ⟨hopen.trans hreceiver, ?_⟩
    rw [hcontent, ← List.append_assoc, hunread, List.append_assoc]
  · intro hkeeps hfed
    rw [hchannel, hopen]
    exact hf.incoming.released hkeeps hfed

/-- A supplier that sends nothing changes nothing. -/
theorem put_quiet (hf : Flows fed keep handle source out s) {c : Channel}
    (hopen : c.receiverOpen = (s.hub.channel 0).receiverOpen)
    (hcontent : c.content = s.hub.content 0) :
    Flows fed keep handle source out { s with hub := s.hub.put 0 c } := by
  have hput := hf.put hopen (hcontent.trans (List.append_nil _).symm)
  rw [List.append_nil] at hput
  exact hput

/-- **A turn of a supplier.** -/
theorem supply (hf : Flows fed keep handle source out s) (act : Supply) :
    Flows fed keep handle source out (s.supply act) := by
  cases act with
  | send k v =>
    unfold Pipe.supply
    dsimp only
    rcases s.hub.send_cases ⟨0, k⟩ v with ⟨_, _, hsend⟩ | ⟨_, err, hsend⟩
    · rw [hsend]
      exact hf.put rfl (Fifo.toList_push _ _)
    · rw [hsend]
      exact hf
  | clone k =>
    unfold Pipe.supply Hub.clone
    dsimp only
    cases hclone : (s.hub.channel 0).clone k with
    | error err => exact hf
    | ok copy =>
      obtain ⟨k', c⟩ := copy
      unfold Channel.clone at hclone
      split at hclone
      · cases hclone
        exact hf.put_quiet rfl rfl
      · cases hclone
  | hangUp k =>
    refine hf.put_quiet ?_ (Channel.content_closeSender _ k)
    unfold Channel.closeSender
    split <;> rfl

/-! ### Turns of the reader -/

/-- **A turn of the reader.** -/
theorem read (hf : Flows fed keep handle source out s) :
    Flows fed keep handle source out s.read := by
  unfold Pipe.read
  cases hfinished : s.finished with
  | true => exact hf
  | false =>
    have ho := hf.outgoing
    rw [hfinished] at ho
    have hlt : 1 < s.hub.channels.size := hf.lt_size (by decide)
    simp only [Bool.false_eq_true, if_false]
    rcases s.hub.recv_cases ⟨1⟩ with
      ⟨v, buffer, _, hcontent, hrecv⟩ | ⟨err, hclosed, hrecv⟩ | ⟨_, _, _, hrecv⟩
    · rw [hrecv]
      exact ⟨(Hub.size_refill _ _ _).trans hf.size, hf.attends, ho.take hlt hcontent,
        hf.incoming.congr (Hub.ends_refill hlt buffer 0) (Hub.content_refill hlt buffer 0)⟩
    · rw [hrecv]
      exact ⟨hf.size, hf.attends, ho.finish hclosed, hf.incoming⟩
    · rw [hrecv]
      exact hf

/-! ### Turns of the worker -/

/-- While the worker runs the engine, it holds both ends. -/
theorem outlet (hf : Flows fed keep handle source out s) (hphase : s.worker.phase = .running) :
    Engine.Outlet (inlet fed) ⟨1, handle⟩ s.engine := by
  have ha := hf.attends
  refine ⟨?_, ?_, fun r hr => (ha.waiting r hr).2⟩
  · rw [ha.input, Worker.keepsInput, hphase]
    rfl
  · rw [ha.output, hphase]
    rfl

/-- The engine is heard as long as the worker holds its output. -/
theorem heard (hf : Flows fed keep handle source out s)
    (hheld : s.worker.phase.holdsOutput = true) : s.hub.listens ⟨1, handle⟩ = true :=
  Bool.and_eq_true_iff.2 ⟨(hf.outgoing.sole handle).2 ⟨hheld, rfl⟩, hf.outgoing.received⟩

/-- The worker lets the engine take a step. -/
theorem work_running (hf : Flows fed keep handle source out s)
    (hphase : s.worker.phase = .running) (hcan : s.network.canStep 0 = true) :
    Flows fed keep handle source out s.work := by
  have ha := hf.attends
  have houtlet := hf.outlet hphase
  have houtlet' := houtlet.step s.hub
  have hends := Engine.ends_step s.engine s.hub
  have hheld : s.worker.phase.holdsOutput = true := by rw [hphase]; rfl
  have hkept : s.worker.keepsInput = true := by rw [Worker.keepsInput, hphase]; rfl
  have hheld' := Engine.holdsOutput_phase (s.engine.step s.hub).1
  have hkept' : Worker.keepsInput { s.worker with phase := (s.engine.step s.hub).1.phase } = true :=
    Bool.or_eq_true_iff.2 (.inl (Engine.holdsInput_phase _))
  rw [Pipe.work_running ha.unit hphase hcan]
  refine ⟨(Engine.size_step _ _).trans hf.size, ⟨ha.unit, ha.keep, ?_, ?_, ?_, ?_⟩, ?_, ?_⟩
  · intro hne
    rw [Ne, Engine.phase_eq_running_iff, Bool.not_eq_true] at hne
    exact hne
  · intro r hr
    refine ⟨Engine.isRunning_of_request_step (fun hreq => ?_) (fun hnone => ?_), 
      houtlet'.request r hr⟩
    · obtain ⟨r₀, hr₀⟩ := Option.ne_none_iff_exists'.1 hreq
      exact (ha.waiting r₀ hr₀).1
    · exact absurd (hnone.symm.trans hr) nofun
  · rw [hkept']
    exact houtlet'.input
  · dsimp only
    rw [hheld']
    exact houtlet'.output
  · have ho := hf.outgoing
    dsimp only
    rw [hheld] at ho
    rw [hheld']
    refine ho.push (hends 1) ?_
    rw [← houtlet.sent?_eq_told? (hf.heard hheld)]
    exact houtlet.content_step (by cases fed <;> exact nofun) s.hub
  · have hi := hf.incoming
    rw [hkept] at hi
    rw [hkept']
    refine hi.take (hends 0) (houtlet.content_source_step (n := 0) Nat.zero_ne_one ?_ s.hub)
    intro rx hrx
    cases fed <;> cases hrx
    rfl

/-- The worker hangs up the output. -/
theorem work_releasingOutput (hf : Flows fed keep handle source out s)
    (hphase : s.worker.phase = .releasingOutput) : Flows fed keep handle source out s.work := by
  have ha := hf.attends
  have hlt : 1 < s.hub.channels.size := hf.lt_size (by decide)
  have hout : s.engine.output = some ⟨1, handle⟩ := by
    rw [ha.output, hphase]
    rfl
  have hkept : s.worker.keepsInput = true := by
    rw [Worker.keepsInput, hphase]
    rfl
  have ho := hf.outgoing
  have hi := hf.incoming
  rw [hphase] at ho
  rw [hkept] at hi
  rw [Pipe.work_releasingOutput ha.unit hphase, Network.releaseOutput_eq, hout]
  refine ⟨(Hub.size_put _ _ _).trans hf.size, ⟨ha.unit, ha.keep, ?_, ha.waiting, ?_, rfl⟩,
    ho.hangUp hlt, hi.congr (Hub.ends_closeSender s.hub ⟨1, handle⟩ hlt 0)
      (Hub.content_closeSender hlt 0)⟩
  · intro _
    exact ha.stopped (by rw [hphase]; decide)
  · exact ha.input.trans (by rw [hkept]; rfl)

/-- The worker closes the input, unless it is to be kept. -/
theorem work_releasingInput (hf : Flows fed keep handle source out s)
    (hphase : s.worker.phase = .releasingInput) : Flows fed keep handle source out s.work := by
  have ha := hf.attends
  have ho := hf.outgoing
  have hi := hf.incoming
  have hended := ha.stopped (by rw [hphase]; decide)
  have hkept : s.worker.keepsInput = true := by
    rw [Worker.keepsInput, hphase]
    rfl
  have hin : s.engine.input = inlet fed := by
    rw [ha.input, hkept]
    rfl
  have hout : s.engine.output = none := by
    rw [ha.output, hphase]
    rfl
  rw [hphase] at ho
  rw [hkept] at hi
  rw [Pipe.work_releasingInput ha.unit hphase]
  split
  · rename_i hkeep
    have hkept' : Worker.keepsInput { s.worker with phase := .ended } = true := hkeep
    refine ⟨hf.size, ⟨ha.unit, ha.keep, fun _ => hended, ha.waiting, ?_, hout⟩, ho, ?_⟩
    · rw [hkept']
      exact hin
    · rw [hkept']
      exact hi
  · rename_i hkeep
    have hkept' : Worker.keepsInput { s.worker with phase := .ended } = false :=
      eq_false_of_ne_true hkeep
    have hlt : 0 < s.hub.channels.size := hf.lt_size (by decide)
    rw [Network.releaseInput_eq, hin]
    cases fed with
    | false =>
      refine ⟨hf.size, ⟨ha.unit, ha.keep, fun _ => hended, ha.waiting, ?_, hout⟩, ho, ?_⟩
      · rw [hkept']
        rfl
      · rw [hkept']
        exact ⟨nofun, nofun⟩
    | true =>
      refine ⟨(Hub.size_put _ _ _).trans hf.size,
        ⟨ha.unit, ha.keep, fun _ => hended, ha.waiting, ?_, hout⟩,
        ho.congr (Hub.ends_closeReceiver s.hub ⟨0⟩ hlt 1)
          (Hub.content_closeReceiver s.hub ⟨0⟩ hlt 1), ?_⟩
      · rw [hkept']
        rfl
      · rw [hkept']
        refine ⟨nofun, fun _ _ => ?_⟩
        rw [Hub.receiverOpen_eq]
        exact congrArg (·.2.2) (Hub.ends_closeReceiver s.hub ⟨0⟩ hlt 0)

/-- **A turn of the worker.** -/
theorem work (hf : Flows fed keep handle source out s) :
    Flows fed keep handle source out s.work := by
  cases hcan : s.network.canStep 0 with
  | false =>
    rw [work_of_idle hcan]
    exact hf
  | true =>
    cases hphase : s.worker.phase with
    | running => exact hf.work_running hphase hcan
    | releasingOutput => exact hf.work_releasingOutput hphase
    | releasingInput => exact hf.work_releasingInput hphase
    | ended =>
      rw [work_ended hphase]
      exact hf

/-- **A turn of any party.** -/
theorem turn (hf : Flows fed keep handle source out s) (p : Party) :
    Flows fed keep handle source out (s.turn p) := by
  cases p with
  | worker => exact hf.work
  | reader => exact hf.read
  | supplier act => exact hf.supply act

/-- **Any number of turns.** -/
theorem run (hf : Flows fed keep handle source out s) (order : Nat → Party) (n : Nat) :
    Flows fed keep handle source out (s.run order n) := by
  induction n with
  | zero => exact hf
  | succ n ih => exact ih.turn (order n)

end Flows

end Pipe

end Intcode
