import Intcode.Workbench.Basic

namespace Intcode.Workbench

/-!
# Working at the workbench

`Workbench.perform` carries out one command.  Afterwards all workers go on as far as they can, so
the next command finds a settled network.

A command that fails half-way keeps what it has done so far.
-/

variable (fuel : Nat)

/-- Replaces the channels. -/
def withHub (b : Workbench) (hub : Hub) : Workbench :=
  { b with network := { b.network with hub } }

/-- Replaces an engine. -/
def withEngine (b : Workbench) (k : Nat) (e : Engine) : Workbench :=
  { b with network := { b.network with engines := b.network.engines.setIfInBounds k e } }

/-- Lets an engine act at an address, if the place offered is one. -/
def act {α : Type} (b : Workbench) (k : Nat) (place : Offer) (action : Int → Exec α) :
    Except Fault α × Workbench :=
  match place.resolve with
  | .error f => (.error f, b)
  | .ok a =>
    let ⟨⟨hub, engines, workers⟩, senders, receivers, names, hired⟩ := b
    let e := engines.getD k {}
    -- the slot is vacant while the engine acts, so that its memory changes in place
    let engines := engines.setIfInBounds k {}
    let (r, e) := e.act (action a.toInt)
    (r, ⟨⟨hub, engines.setIfInBounds k e, workers⟩, senders, receivers, names, hired⟩)

/-- A refusal by a channel, or a reply. -/
def channelAnswer (e : Option ChannelError) (r : Reply) : Answer :=
  match e with
  | some e => .refused (.channel e)
  | none => .reply r

/-- The answer to a fault of an action, or a reply. -/
def faultAnswer {α : Type} (r : Except Fault α) (reply : α → Reply) : Answer :=
  match r with
  | .ok x => .reply (reply x)
  | .error f => .refused (.fault f)

/-! ### Channels -/

/-- Does something with a sending end. -/
def withSender (b : Workbench) (tx : String) (act : SenderRef → Answer × Workbench) :
    Answer × Workbench :=
  match b.senders.lookup tx with
  | some ref => act ref
  | none => (.refused (.unknownName tx), b)

/-- Does something with a receiving end. -/
def withReceiver (b : Workbench) (rx : String) (act : ReceiverRef → Answer × Workbench) :
    Answer × Workbench :=
  match b.receivers.lookup rx with
  | some ref => act ref
  | none => (.refused (.unknownName rx), b)

/-- Makes a channel and names its ends. -/
def addChannel (b : Workbench) (tx rx : String) : Answer × Workbench :=
  let (sender, receiver, hub) := b.network.hub.add
  (.reply .nothing,
    { b.withHub hub with
      senders := (tx, sender) :: b.senders, receivers := (rx, receiver) :: b.receivers })

/-- Sends values one by one. -/
def send (b : Workbench) (tx : SenderRef) (values : List Int) : Answer × Workbench :=
  let (e, hub) := b.network.hub.sendAll tx values
  (channelAnswer e .nothing, b.withHub hub)

/-- Makes another sending end. -/
def clone (b : Workbench) (tx : SenderRef) (copy : String) : Answer × Workbench :=
  match b.network.hub.clone tx with
  | .ok (ref, hub) => (.reply .nothing, { b.withHub hub with senders := (copy, ref) :: b.senders })
  | .error e => (.refused (.channel e), b)

/-- Receives a value. -/
def recv (b : Workbench) (rx : ReceiverRef) (seconds : Option String) : Answer × Workbench :=
  match b.network.hub.recv rx, seconds with
  | .value v hub, _ => (.reply (.value v), b.withHub hub)
  | .closed e, _ => (.refused (.channel e), b)
  | .wait, some seconds => (.refused (.noValueWithin seconds), b)
  | .wait, none => (.blocked, b)

/-- Receives a value without waiting. -/
def tryRecv (b : Workbench) (rx : ReceiverRef) : Answer × Workbench :=
  match b.network.hub.tryRecv rx with
  | .ok (v, hub) => (.reply (.value v), b.withHub hub)
  | .error e => (.refused (.channel e), b)

/-- Takes everything buffered. -/
def drain (b : Workbench) (rx : ReceiverRef) : Answer × Workbench :=
  let (vs, hub) := b.network.hub.drain rx
  (.reply (.values vs), b.withHub hub)

/-- Receives values until nobody is coming. -/
def iterate (b : Workbench) (rx : ReceiverRef) : Answer × Workbench :=
  let (vs, hub, waiting) := b.network.hub.iterate rx
  (if waiting then .blocked else .reply (.values vs), b.withHub hub)

/-- Closes a sending end after something has been done. -/
def thenCloseSender (tx : SenderRef) : Answer × Workbench → Answer × Workbench
  | (answer, b) => (answer, b.withHub (b.network.hub.closeSender tx))

/-- Closes a receiving end after something has been done. -/
def thenCloseReceiver (rx : ReceiverRef) : Answer × Workbench → Answer × Workbench
  | (answer, b) => (answer, b.withHub (b.network.hub.closeReceiver rx))

/-- How an end is shown. -/
def describeEnd (kind : String) (isOpen : Bool) : Reply :=
  .text (kind ++ "(" ++ (if isOpen then "open" else "closed") ++ ")")

/-! ### Engines -/

/-- Does something with an engine. -/
def withNamed (b : Workbench) (e : String) (act : Nat → Answer × Workbench) :
    Answer × Workbench :=
  match b.engines.lookup e with
  | some k => act k
  | none => (.refused (.unknownName e), b)

/-- Does something with the worker of an engine. -/
def withWorker (b : Workbench) (e : String) (act : Worker → Answer) : Answer × Workbench :=
  match (b.workers.lookup e).bind fun i => b.network.workers[i]? with
  | some w => (act w, b)
  | none => (.refused (.unknownName e), b)

/-- Makes an engine and names it. -/
def addEngine (b : Workbench) (name : String) (program : Program.Source) (stdin : String)
    (tracing : Bool) (base : Int) : Answer × Workbench :=
  match program.image with
  | .error e => (.refused (.parse e), b)
  | .ok cells =>
    let e := Engine.ofCells cells tracing (Console.ofText stdin)
    let e := { e with machine := { e.machine with base } }
    let k := b.network.engines.size
    (.reply .nothing,
      { b with
        network := { b.network with engines := b.network.engines.push e }
        engines := (name, k) :: b.engines })

/-- Binds an end of an engine. -/
def bind (b : Workbench) (k : Nat) (result : Except BindingError Engine) : Answer × Workbench :=
  match result with
  | .ok e => (.reply .nothing, b.withEngine k e)
  | .error e => (.refused (.binding e), b)

/-- Takes the input of an engine away. -/
def takeInput (b : Workbench) (k : Nat) : Answer × Workbench :=
  let (rx, e) := (b.network.engine k).takeInput
  (.reply (.name (rx.bind (nameOf? b.receivers))), b.withEngine k e)

/-- Takes the output of an engine away. -/
def takeOutput (b : Workbench) (k : Nat) : Answer × Workbench :=
  let (tx, e) := (b.network.engine k).takeOutput
  (.reply (.name (tx.bind (nameOf? b.senders))), b.withEngine k e)

/-- Makes another sending end for the output of an engine. -/
def cloneOutput (b : Workbench) (k : Nat) (copy : String) : Answer × Workbench :=
  match (b.network.engine k).cloneOutput b.network.hub with
  | .error e => (.refused (.channel e), b)
  | .ok none => (.reply (.name none), b)
  | .ok (some (ref, hub)) =>
    (.reply (.name (some copy)), { b.withHub hub with senders := (copy, ref) :: b.senders })

/-- Closes the ends an engine holds. -/
def close (b : Workbench) (k : Nat) : Workbench :=
  b.withHub ((b.network.engine k).close b.network.hub)

/-- The answer to running an engine, which is the fault that stopped it or its status. -/
def runAnswer (n : Network) (k : Nat) : Answer :=
  let e := n.engine k
  if e.request.isSome then .blocked
  else
    match e.verdict with
    | .error f => .refused (.fault f)
    | .ok s => .reply (.status s)

/-- Runs up to a number of instructions of an engine. -/
def runFor (b : Workbench) (k count : Nat) : Answer × Workbench :=
  let ⟨network, senders, receivers, engines, workers⟩ := b
  let network := network.runFor fuel count k
  (runAnswer network k, ⟨network, senders, receivers, engines, workers⟩)

/-- Gives an engine to a worker. -/
def spawn (b : Workbench) (e : String) (k : Nat) (hire : Hire) : Workbench :=
  let i := b.network.workers.size
  let w : Worker :=
    { engine := k, name := hire.name, expectInput := hire.expectInput,
      expectOutput := hire.expectOutput, keepInput := hire.keepInput }
  { b with
    network := { b.network with workers := b.network.workers.push w }
    workers := (e, i) :: b.workers }

/-- The ends of the workers of several engines. -/
def joinAll (b : Workbench) (es : List String) (seconds : Option String) : Answer :=
  let ws := es.filterMap fun e => (b.workers.lookup e).bind fun i => b.network.workers[i]?
  match b.network.joinAll ws seconds with
  | .ok ss => .reply (.statuses ss)
  | .error e => .refused e

/-! ### Commands -/

/-- Carries out a command. -/
def execute (b : Workbench) : Command → Answer × Workbench
  | .channel tx rx => b.addChannel tx rx
  | .send tx values => b.withSender tx fun ref => b.send ref values
  | .clone tx copy => b.withSender tx fun ref => b.clone ref copy
  | .closeSender tx => b.withSender tx fun ref => thenCloseSender ref (.reply .nothing, b)
  | .closeReceiver rx => b.withReceiver rx fun ref => thenCloseReceiver ref (.reply .nothing, b)
  | .recv rx seconds => b.withReceiver rx fun ref => b.recv ref seconds
  | .tryRecv rx => b.withReceiver rx fun ref => b.tryRecv ref
  | .drain rx => b.withReceiver rx fun ref => b.drain ref
  | .iterate rx => b.withReceiver rx fun ref => b.iterate ref
  | .sendAndClose tx values =>
    b.withSender tx fun ref => thenCloseSender ref (b.send ref values)
  | .drainAndClose rx => b.withReceiver rx fun ref => thenCloseReceiver ref (b.drain ref)
  | .describeSender tx =>
    b.withSender tx fun ref =>
      (.reply (describeEnd "Sender" ((b.network.hub.channel ref.channel).isOpen ref.handle)), b)
  | .describeReceiver rx =>
    b.withReceiver rx fun ref =>
      (.reply (describeEnd "Receiver" (b.network.hub.channel ref.channel).receiverOpen), b)
  | .engine name program stdin tracing base => b.addEngine name program stdin tracing base
  | .bindInput e rx =>
    b.withNamed e fun k =>
      b.withReceiver rx fun ref => b.bind k ((b.network.engine k).bindInput ref)
  | .bindOutput e tx =>
    b.withNamed e fun k =>
      b.withSender tx fun ref => b.bind k ((b.network.engine k).bindOutput ref)
  | .takeInput e => b.withNamed e b.takeInput
  | .takeOutput e => b.withNamed e b.takeOutput
  | .cloneOutput e copy => b.withNamed e fun k => b.cloneOutput k copy
  | .close e => b.withNamed e fun k => (.reply .nothing, b.close k)
  | .runAndClose e =>
    b.withNamed e fun k =>
      let (answer, b) := b.runFor fuel k fuel
      (answer, b.close k)
  | .step e count => b.withNamed e fun k => b.runFor fuel k count
  | .run e => b.withNamed e fun k => b.runFor fuel k fuel
  | .get e place =>
    b.withNamed e fun k =>
      let (r, b) := b.act k place Exec.load
      (faultAnswer r .value, b)
  | .set e place v =>
    b.withNamed e fun k =>
      let (r, b) := b.act k place fun address => Exec.save address v
      (faultAnswer r fun _ => .nothing, b)
  | .describe e => b.withNamed e fun k => (.reply (.text (b.network.engine k).render), b)
  | .registers e =>
    b.withNamed e fun k =>
      let registers := (b.network.engine k).machine.renderRegisters
      (.reply (.text s!"Registers({registers})"), b)
  | .view e => b.withNamed e fun k => (.reply (.memory (b.network.engine k).machine.memory), b)
  | .trace e => b.withNamed e fun k => (.reply (.lines (b.network.engine k).trace.toList), b)
  | .printed e => b.withNamed e fun k => (.reply (.text (b.network.engine k).console.printed), b)
  | .fault e => b.withNamed e fun k => (.reply (.fault (b.network.engine k).fault?), b)
  | .spawn e hire => b.withNamed e fun k => (.reply .nothing, b.spawn e k hire)
  | .isAlive e => b.withWorker e fun w => .reply (.flag w.isAlive)
  | .isExpected e => b.withWorker e fun w => .reply (.flag (b.network.isExpected w))
  | .join e seconds =>
    b.withWorker e fun w =>
      match b.network.joinResult w seconds with
      | .ok s => .reply (.status s)
      | .error e => .refused e
  | .joinAll es seconds => (b.joinAll es seconds, b)

/-- Carries out a command, and then lets the workers go on as far as they can. -/
def perform (b : Workbench) (c : Command) : Answer × Workbench :=
  let (answer, b) := b.execute fuel c
  let ⟨network, senders, receivers, engines, workers⟩ := b
  (answer, ⟨network.settle fuel, senders, receivers, engines, workers⟩)

end Intcode.Workbench
