import Intcode.Channel.Basic

namespace Intcode

/-!
# Hubs

A hub is a collection of channels, named by their numbers.  The receiving end of a channel is named
by the channel, a sending end by the channel and a handle.

* `Hub.channel` — a channel by its number
* `Hub.add`     — a new channel
* the operations of `Channel`, on a channel of the hub
-/

/-- The receiving end of a channel. -/
structure ReceiverRef where
  channel : Nat
  deriving Repr, DecidableEq

/-- A sending end of a channel. -/
structure SenderRef where
  channel : Nat
  handle : Nat
  deriving Repr, DecidableEq

/-- Channels by number. -/
structure Hub where
  channels : Array Channel := #[]

namespace Hub

/-- A channel by its number.  One that was never added counts as one that nobody holds an end of. -/
def channel (h : Hub) (n : Nat) : Channel :=
  h.channels.getD n { handles := #[], senders := 0, receiverOpen := false }

/-- Replaces a channel. -/
def put (h : Hub) (n : Nat) (c : Channel) : Hub := ⟨h.channels.setIfInBounds n c⟩

/-- Replacing a channel of the hub leaves the others alone. -/
theorem channel_put {h : Hub} {n : Nat} (hn : n < h.channels.size) (c : Channel) (k : Nat) :
    (h.put n c).channel k = if k = n then c else h.channel k := by
  simp only [channel, put, Array.getD_eq_getD_getElem?, Array.getElem?_setIfInBounds]
  by_cases hk : k = n
  · simp [hk, hn]
  · have hne : ¬ n = k := fun heq => hk heq.symm
    simp [hk, hne]

@[simp] theorem size_put (h : Hub) (n : Nat) (c : Channel) :
    (h.put n c).channels.size = h.channels.size := by
  simp [put]

/-- Adds a new channel, and names its two ends. -/
def add (h : Hub) : SenderRef × ReceiverRef × Hub :=
  let n := h.channels.size
  (⟨n, 0⟩, ⟨n⟩, ⟨h.channels.push {}⟩)

/-! ### The writing end -/

/-- Queues a value. -/
def send (h : Hub) (tx : SenderRef) (v : Int) : Except ChannelError Hub :=
  ((h.channel tx.channel).send tx.handle v).map (h.put tx.channel)

/-- Queues values one by one up to the first refusal. -/
def sendAll (h : Hub) (tx : SenderRef) : List Int → Option ChannelError × Hub
  | [] => (none, h)
  | v :: vs =>
    match h.send tx v with
    | .ok h => h.sendAll tx vs
    | .error e => (some e, h)

/-- Makes another sending end. -/
def clone (h : Hub) (tx : SenderRef) : Except ChannelError (SenderRef × Hub) :=
  ((h.channel tx.channel).clone tx.handle).map fun (handle, c) =>
    (⟨tx.channel, handle⟩, h.put tx.channel c)

/-- Hangs up a sending end. -/
def closeSender (h : Hub) (tx : SenderRef) : Hub :=
  h.put tx.channel ((h.channel tx.channel).closeSender tx.handle)

/-! ### The reading end -/

/-- What a reader finds, with the hub after it. -/
inductive Receipt where
  | value (v : Int) (rest : Hub)
  | closed (e : ChannelError)
  | wait

/-- Receives a value if there is one. -/
def recv (h : Hub) (rx : ReceiverRef) : Receipt :=
  match (h.channel rx.channel).recv with
  | .value v rest => .value v (h.put rx.channel rest)
  | .closed e => .closed e
  | .wait => .wait

/-- A reader of a channel would not have to wait. -/
def isReady (h : Hub) (rx : ReceiverRef) : Bool :=
  match (h.channel rx.channel).recv with
  | .wait => false
  | _ => true

/-- Receives a value without waiting. -/
def tryRecv (h : Hub) (rx : ReceiverRef) : Except ChannelError (Int × Hub) :=
  (h.channel rx.channel).tryRecv.map fun (v, c) => (v, h.put rx.channel c)

/-- Takes everything buffered. -/
def drain (h : Hub) (rx : ReceiverRef) : List Int × Hub :=
  let (vs, c) := (h.channel rx.channel).drain
  (vs, h.put rx.channel c)

/-- The values an iteration yields, and whether it is left waiting for more. -/
def iterate (h : Hub) (rx : ReceiverRef) : List Int × Hub × Bool :=
  let (vs, c, waiting) := (h.channel rx.channel).iterate
  (vs, h.put rx.channel c, waiting)

/-- Stops receiving. -/
def closeReceiver (h : Hub) (rx : ReceiverRef) : Hub :=
  h.put rx.channel (h.channel rx.channel).closeReceiver

end Hub

end Intcode
