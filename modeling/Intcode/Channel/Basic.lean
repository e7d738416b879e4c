import Intcode.Channel.Fifo

namespace Intcode

/-!
# Channels

A channel carries integers one way, in order.  It is written through sender handles, of which more
can be made by cloning, and read through one receiver.  It stays open while some handle is open:
once every handle has been closed and the buffer is empty, a reader is told that nobody is coming.
Closing the receiver discards the buffer, and every later send is refused.

* `Channel.send`, `Channel.clone`, `Channel.closeSender`   — the writing end
* `Channel.recv`, `Channel.tryRecv`, `Channel.drain`, `Channel.iterate`, `Channel.closeReceiver`
  — the reading end

The channel counts its open handles in `senders`; each handle has its own flag in `handles`.
-/

/-- Why a channel operation was refused. -/
inductive ChannelError where
  /-- The receiver, or the handle itself, is closed. -/
  | receiverClosed
  /-- Nothing is buffered, and nobody is coming. -/
  | sendersClosed
  /-- A closed handle has no copies. -/
  | cloneOfClosed
  /-- Nothing is buffered yet. -/
  | empty
  deriving Repr, DecidableEq

/-- The wording of a refusal. -/
def ChannelError.message : ChannelError → String
  | .receiverClosed => "receiver closed"
  | .sendersClosed => "all senders closed"
  | .cloneOfClosed => "cannot clone a closed sender"
  | .empty => ""

/-- A channel. -/
structure Channel where
  buffer : Fifo Int := {}
  /-- Whether each sender handle is open, by its number. -/
  handles : Array Bool := #[true]
  /-- The number of open sender handles. -/
  senders : Nat := 1
  receiverOpen : Bool := true
  deriving Repr

namespace Channel

/-- A channel that holds values, with its one sender handle open. -/
def holding (vs : List Int) : Channel := { buffer := .ofList vs }

/-- A channel that holds values and to which nobody will add. -/
def sealed (vs : List Int) : Channel :=
  { buffer := .ofList vs, handles := #[false], senders := 0 }

/-! ### The writing end -/

/-- Whether a handle is open. -/
def isOpen (c : Channel) (handle : Nat) : Bool := c.handles.getD handle false

/-- Queues a value. -/
def send (c : Channel) (handle : Nat) (v : Int) : Except ChannelError Channel :=
  if c.isOpen handle && c.receiverOpen then
    let ⟨buffer, handles, senders, receiverOpen⟩ := c
    .ok ⟨buffer.push v, handles, senders, receiverOpen⟩
  else .error .receiverClosed

/-- Makes another handle; its number is that of the next free one. -/
def clone (c : Channel) (handle : Nat) : Except ChannelError (Nat × Channel) :=
  if c.isOpen handle then
    .ok (c.handles.size, { c with handles := c.handles.push true, senders := c.senders + 1 })
  else .error .cloneOfClosed

/-- Hangs up one handle.  A handle that is closed stays so. -/
def closeSender (c : Channel) (handle : Nat) : Channel :=
  if c.isOpen handle then
    { c with handles := c.handles.setIfInBounds handle false, senders := c.senders - 1 }
  else c

/-! ### The reading end -/

/-- What a reader finds. -/
inductive Receipt where
  /-- A value, and the channel without it. -/
  | value (v : Int) (rest : Channel)
  | closed (e : ChannelError)
  /-- Nothing yet: the reader has to wait. -/
  | wait

/-- Receives a value if there is one. -/
def recv (c : Channel) : Receipt :=
  if !c.receiverOpen then .closed .receiverClosed
  else
    let ⟨buffer, handles, senders, receiverOpen⟩ := c
    match buffer.pop? with
    | some (v, buffer) => .value v ⟨buffer, handles, senders, receiverOpen⟩
    | none => if senders = 0 then .closed .sendersClosed else .wait

/-- Receives a value without waiting. -/
def tryRecv (c : Channel) : Except ChannelError (Int × Channel) :=
  match c.buffer.pop?, c.receiverOpen with
  | some (v, buffer), true => .ok (v, { c with buffer })
  | _, receiverOpen =>
    if c.senders = 0 || !receiverOpen then .error .sendersClosed else .error .empty

/-- Takes everything buffered. -/
def drain (c : Channel) : List Int × Channel := (c.buffer.toList, { c with buffer := {} })

/-- Stops receiving: what is buffered is discarded. -/
def closeReceiver (c : Channel) : Channel := { c with buffer := {}, receiverOpen := false }

/-- Receiving a value makes the buffer shorter. -/
theorem length_lt_of_recv {c rest : Channel} {v : Int} (h : c.recv = .value v rest) :
    rest.buffer.length < c.buffer.length := by
  obtain ⟨buffer, handles, senders, receiverOpen⟩ := c
  cases receiverOpen with
  | false => simp [recv] at h
  | true =>
    cases hpop : buffer.pop? with
    | none =>
      by_cases hs : senders = 0 <;> simp [recv, hpop, hs] at h
    | some p =>
      obtain ⟨w, buffer'⟩ := p
      simp only [recv, hpop, Bool.not_true, Bool.false_eq_true, if_false, Receipt.value.injEq] at h
      obtain ⟨rfl, rfl⟩ := h
      exact Fifo.length_lt_of_pop? hpop

/-- Receives values until the channel is closed or the reader would have to wait.  `done` holds the
    values received so far, last first; the answer tells whether the reader is left waiting. -/
def iterateFrom (done : List Int) (c : Channel) : List Int × Channel × Bool :=
  match _received : c.recv with
  | .value v rest => iterateFrom (v :: done) rest
  | .closed _ => (done.reverse, c, false)
  | .wait => (done.reverse, c, true)
termination_by c.buffer.length
decreasing_by exact length_lt_of_recv _received

/-- The values an iteration over the receiver yields, the channel after it, and whether the
    iteration is left waiting for more. -/
def iterate (c : Channel) : List Int × Channel × Bool := iterateFrom [] c

end Channel

end Intcode
