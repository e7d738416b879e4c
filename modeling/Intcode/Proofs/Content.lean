import Intcode.Channel.Hub

namespace Intcode

/-!
# The content of channels

What a channel holds is a list, and every operation is said by what it does to that list.  The rest
of a channel is its ends: which handles are open, how many, and whether somebody receives.

* `Channel.content`, `Channel.ends`     — the two parts
* `Channel.recv_cases`, `Channel.send_cases` — what a reader and a writer find
* `Hub.recv_cases`, `Hub.send_cases`    — the same for a channel of a hub, with the hub after it
-/

/-- What a channel holds, the next value first. -/
def Channel.content (c : Channel) : List Int := c.buffer.toList

/-- The ends of a channel. -/
def Channel.ends (c : Channel) : Array Bool × Nat × Bool := (c.handles, c.senders, c.receiverOpen)

/-- The writer with this handle is heard. -/
def Channel.listens (c : Channel) (handle : Nat) : Bool := c.isOpen handle && c.receiverOpen

namespace Channel

/-- A reader finds a value, or the end of the stream, or has to wait. -/
theorem recv_cases (c : Channel) :
    (∃ v buffer, c.receiverOpen = true ∧ c.content = v :: buffer.toList ∧
      c.recv = .value v { c with buffer }) ∨
    (∃ e, (c.receiverOpen = false ∨ c.content = [] ∧ c.senders = 0) ∧ c.recv = .closed e) ∨
    (c.receiverOpen = true ∧ c.content = [] ∧ c.senders ≠ 0 ∧ c.recv = .wait) := by
  obtain ⟨buffer, handles, senders, receiverOpen⟩ := c
  cases receiverOpen with
  | false => exact .inr (.inl ⟨_, .inl rfl, rfl⟩)
  | true =>
    cases hpop : buffer.pop? with
    | some p =>
      obtain ⟨v, rest⟩ := p
      refine .inl ⟨v, rest, rfl, Fifo.toList_eq_cons_of_pop? hpop, ?_⟩
      simp [recv, hpop]
    | none =>
      have hempty : buffer.toList = [] := Fifo.pop?_eq_none_iff.1 hpop
      by_cases hs : senders = 0
      · refine .inr (.inl ⟨.sendersClosed, .inr ⟨hempty, hs⟩, ?_⟩)
        simp [recv, hpop, hs]
      · refine .inr (.inr ⟨rfl, hempty, hs, ?_⟩)
        simp [recv, hpop, hs]

/-- A writer that is heard adds its value, any other is refused. -/
theorem send_eq (c : Channel) (handle : Nat) (v : Int) :
    c.send handle v =
      if c.listens handle then .ok { c with buffer := c.buffer.push v }
      else .error .receiverClosed := rfl

/-- Which handles are open is a matter of the ends. -/
theorem isOpen_eq_of_ends {c c' : Channel} (hends : c'.ends = c.ends) (handle : Nat) :
    c'.isOpen handle = c.isOpen handle := by
  have hhandles : c'.handles = c.handles := congrArg (·.1) hends
  rw [isOpen, isOpen, hhandles]

/-- Who is heard is a matter of the ends. -/
theorem listens_eq_of_ends {c c' : Channel} (hends : c'.ends = c.ends) (handle : Nat) :
    c'.listens handle = c.listens handle := by
  have hopen : c'.receiverOpen = c.receiverOpen := congrArg (·.2.2) hends
  rw [listens, listens, isOpen_eq_of_ends hends, hopen]

/-- Hanging up a handle keeps what is queued. -/
@[simp] theorem content_closeSender (c : Channel) (handle : Nat) :
    (c.closeSender handle).content = c.content := by
  unfold closeSender
  split <;> rfl

/-- The one handle of a channel is hung up. -/
theorem ends_hangUp {c : Channel} {received : Bool} (hends : c.ends = (#[true], 1, received)) :
    (c.closeSender 0).ends = (#[false], 0, received) := by
  obtain ⟨buffer, handles, senders, receiverOpen⟩ := c
  cases hends
  rfl

/-- When its one handle is hung up, a channel is sealed. -/
theorem ends_closeSender {c : Channel} (hends : c.ends = ends {}) :
    (c.closeSender 0).ends = ends (.sealed []) := ends_hangUp hends

/-- A channel is received from no more. -/
theorem ends_closeReceiver {c : Channel} {handles : Array Bool} {senders : Nat} {received : Bool}
    (hends : c.ends = (handles, senders, received)) :
    c.closeReceiver.ends = (handles, senders, false) := by
  obtain ⟨buffer, handles', senders', receiverOpen⟩ := c
  cases hends
  rfl

/-- A sealed channel stays as it is. -/
theorem ends_closeSender_sealed {c : Channel} (hends : c.ends = ends (.sealed [])) :
    (c.closeSender 0).ends = ends (.sealed []) := by
  obtain ⟨buffer, handles, senders, receiverOpen⟩ := c
  cases hends
  rfl

end Channel

namespace Hub

/-- What a channel of the hub holds. -/
def content (h : Hub) (n : Nat) : List Int := (h.channel n).content

/-- The ends of a channel of the hub. -/
def ends (h : Hub) (n : Nat) : Array Bool × Nat × Bool := (h.channel n).ends

/-- The writer at this end is heard. -/
def listens (h : Hub) (tx : SenderRef) : Bool := (h.channel tx.channel).listens tx.handle

theorem senders_eq (h : Hub) (n : Nat) : (h.channel n).senders = (h.ends n).2.1 := rfl

theorem receiverOpen_eq (h : Hub) (n : Nat) : (h.channel n).receiverOpen = (h.ends n).2.2 := rfl

/-- The value a reader of a channel takes next, if the channel is not closed for the reader. -/
def incoming? (h : Hub) (rx : ReceiverRef) : Option Int :=
  if (h.channel rx.channel).receiverOpen then (h.content rx.channel).head? else none

/-- A channel somebody receives from is one of the hub. -/
theorem lt_size_of_receiverOpen {h : Hub} {n : Nat} (hopen : (h.channel n).receiverOpen = true) :
    n < h.channels.size := by
  rcases Nat.lt_or_ge n h.channels.size with hlt | hge
  · exact hlt
  · have hnone : h.channels[n]? = none := Array.getElem?_eq_none hge
    simp [channel, hnone] at hopen

theorem content_put {h : Hub} {n : Nat} (hn : n < h.channels.size) (c : Channel) (k : Nat) :
    (h.put n c).content k = if k = n then c.content else h.content k := by
  unfold content
  rw [channel_put hn]
  split <;> rfl

theorem ends_put {h : Hub} {n : Nat} (hn : n < h.channels.size) (c : Channel) (k : Nat) :
    (h.put n c).ends k = if k = n then c.ends else h.ends k := by
  unfold ends
  rw [channel_put hn]
  split <;> rfl

/-- The one handle of an open channel is heard. -/
theorem listens_of_ends {h : Hub} {n : Nat} (hends : h.ends n = Channel.ends {}) :
    h.listens ⟨n, 0⟩ = true := by
  unfold ends Channel.ends at hends
  obtain ⟨hhandles, hrest⟩ := Prod.mk.inj hends
  unfold listens Channel.listens Channel.isOpen
  dsimp only
  rw [hhandles, (Prod.mk.inj hrest).2]
  rfl

/-- The hub with other content in one channel. -/
def refill (h : Hub) (n : Nat) (buffer : Fifo Int) : Hub :=
  h.put n { h.channel n with buffer }

theorem content_refill {h : Hub} {n : Nat} (hn : n < h.channels.size) (buffer : Fifo Int)
    (k : Nat) : (h.refill n buffer).content k = if k = n then buffer.toList else h.content k :=
  content_put hn _ k

theorem ends_refill {h : Hub} {n : Nat} (hn : n < h.channels.size) (buffer : Fifo Int) (k : Nat) :
    (h.refill n buffer).ends k = h.ends k := by
  unfold refill
  rw [ends_put hn]
  split
  · rename_i hk
    rw [hk]
    rfl
  · rfl

@[simp] theorem size_refill (h : Hub) (n : Nat) (buffer : Fifo Int) :
    (h.refill n buffer).channels.size = h.channels.size := size_put h n _

/-- Hanging up a sending end keeps what is queued. -/
theorem content_closeSender {h : Hub} {tx : SenderRef} (hn : tx.channel < h.channels.size)
    (k : Nat) : (h.closeSender tx).content k = h.content k := by
  unfold closeSender
  rw [content_put hn, Channel.content_closeSender]
  split
  · rename_i hk
    rw [hk]
    rfl
  · rfl

/-- Hanging up a sending end concerns no other channel. -/
theorem ends_closeSender (h : Hub) (tx : SenderRef) (hn : tx.channel < h.channels.size) (k : Nat) :
    (h.closeSender tx).ends k =
      if k = tx.channel then ((h.channel tx.channel).closeSender tx.handle).ends else h.ends k :=
  ends_put hn _ k

/-- Closing a receiving end concerns no other channel. -/
theorem ends_closeReceiver (h : Hub) (rx : ReceiverRef) (hn : rx.channel < h.channels.size)
    (k : Nat) :
    (h.closeReceiver rx).ends k =
      if k = rx.channel then (h.channel rx.channel).closeReceiver.ends else h.ends k :=
  ends_put hn _ k

/-- Closing a receiving end discards what is queued there. -/
theorem content_closeReceiver (h : Hub) (rx : ReceiverRef) (hn : rx.channel < h.channels.size)
    (k : Nat) : (h.closeReceiver rx).content k = if k = rx.channel then [] else h.content k :=
  content_put hn _ k

/-- What a reader finds at a channel of the hub. -/
theorem recv_cases (h : Hub) (rx : ReceiverRef) :
    (∃ v buffer, (h.channel rx.channel).receiverOpen = true ∧
      h.content rx.channel = v :: buffer.toList ∧
      h.recv rx = .value v (h.refill rx.channel buffer)) ∨
    (∃ e, ((h.channel rx.channel).receiverOpen = false ∨
        h.content rx.channel = [] ∧ (h.channel rx.channel).senders = 0) ∧
      h.recv rx = .closed e) ∨
    ((h.channel rx.channel).receiverOpen = true ∧ h.content rx.channel = [] ∧
      (h.channel rx.channel).senders ≠ 0 ∧ h.recv rx = .wait) := by
  unfold recv content
  rcases (h.channel rx.channel).recv_cases with
    ⟨v, buffer, hopen, hcontent, hrecv⟩ | ⟨e, hclosed, hrecv⟩ | ⟨hopen, hempty, hsenders, hrecv⟩
  · exact .inl ⟨v, buffer, hopen, hcontent, by rw [hrecv]; rfl⟩
  · exact .inr (.inl ⟨e, hclosed, by rw [hrecv]⟩)
  · exact .inr (.inr ⟨hopen, hempty, hsenders, by rw [hrecv]⟩)

/-- A reader is ready unless it would have to wait. -/
theorem isReady_iff (h : Hub) (rx : ReceiverRef) : h.isReady rx = true ↔ h.recv rx ≠ .wait := by
  unfold isReady recv
  cases (h.channel rx.channel).recv <;> simp

/-- A reader of an empty channel that may still be written to is not ready. -/
theorem isReady_eq_false {h : Hub} {rx : ReceiverRef}
    (hopen : (h.channel rx.channel).receiverOpen = true) (hempty : h.content rx.channel = [])
    (hsenders : (h.channel rx.channel).senders ≠ 0) : h.isReady rx = false := by
  unfold isReady
  rcases (h.channel rx.channel).recv_cases with
    ⟨v, buffer, _, hcontent, _⟩ | ⟨e, hclosed, _⟩ | ⟨_, _, _, hrecv⟩
  · rw [show (h.channel rx.channel).content = [] from hempty] at hcontent
    cases hcontent
  · rcases hclosed with hfalse | ⟨_, hnone⟩
    · rw [hopen] at hfalse
      cases hfalse
    · exact absurd hnone hsenders
  · rw [hrecv]

/-- A reader that is not ready finds its channel empty. -/
theorem content_of_isReady_eq_false {h : Hub} {rx : ReceiverRef} (hwait : h.isReady rx = false) :
    h.content rx.channel = [] := by
  unfold isReady at hwait
  rcases (h.channel rx.channel).recv_cases with
    ⟨v, buffer, _, _, hrecv⟩ | ⟨e, _, hrecv⟩ | ⟨_, hempty, _, _⟩
  · rw [hrecv] at hwait
    cases hwait
  · rw [hrecv] at hwait
    cases hwait
  · exact hempty

/-- A reader that is not ready has a channel that may still be written to. -/
theorem open_of_isReady_eq_false {h : Hub} {rx : ReceiverRef} (hwait : h.isReady rx = false) :
    (h.channel rx.channel).receiverOpen = true ∧ (h.channel rx.channel).senders ≠ 0 := by
  unfold isReady at hwait
  rcases (h.channel rx.channel).recv_cases with
    ⟨v, buffer, _, _, hrecv⟩ | ⟨e, _, hrecv⟩ | ⟨hopen, _, hsenders, _⟩
  · simp [hrecv] at hwait
  · simp [hrecv] at hwait
  · exact ⟨hopen, hsenders⟩

/-- What becomes of a value sent to a channel of the hub. -/
theorem send_cases (h : Hub) (tx : SenderRef) (v : Int) :
    (h.listens tx = true ∧ tx.channel < h.channels.size ∧
      h.send tx v = .ok (h.refill tx.channel ((h.channel tx.channel).buffer.push v))) ∨
    (h.listens tx = false ∧ ∃ e, h.send tx v = .error e) := by
  unfold send
  rw [Channel.send_eq]
  by_cases hlistens : (h.channel tx.channel).listens tx.handle = true
  · have hopen : (h.channel tx.channel).receiverOpen = true := (Bool.and_eq_true_iff.1 hlistens).2
    refine .inl ⟨hlistens, lt_size_of_receiverOpen hopen, ?_⟩
    rw [if_pos hlistens]
    rfl
  · refine .inr ⟨eq_false_of_ne_true hlistens, .receiverClosed, ?_⟩
    rw [if_neg hlistens]
    rfl

/-- A new channel leaves the others alone. -/
theorem channel_add (h : Hub) (k : Nat) :
    h.add.2.2.channel k = if k = h.channels.size then {} else h.channel k := by
  simp only [channel, add, Array.getD_eq_getD_getElem?, Array.getElem?_push]
  split <;> rfl

/-- Whoever is heard can send any number of values, and nothing else changes. -/
theorem sendAll_of_listens {h : Hub} {tx : SenderRef} (hheard : h.listens tx = true)
    (vs : List Int) :
    ∃ h', h.sendAll tx vs = (none, h') ∧ h'.channels.size = h.channels.size ∧
      (∀ k, h'.ends k = h.ends k) ∧
      ∀ k, h'.content k = if k = tx.channel then h.content k ++ vs else h.content k := by
  induction vs generalizing h with
  | nil => exact ⟨h, rfl, rfl, fun _ => rfl, fun k => by simp⟩
  | cons v vs ih =>
    rcases h.send_cases tx v with ⟨_, hlt, hsend⟩ | ⟨hdeaf, _⟩
    · have hends := ends_refill hlt ((h.channel tx.channel).buffer.push v)
      have hheard' : (h.refill tx.channel ((h.channel tx.channel).buffer.push v)).listens tx =
          true := (Channel.listens_eq_of_ends (hends tx.channel) tx.handle).trans hheard
      obtain ⟨h', hall, hsize, hends', hcontent⟩ := ih hheard'
      refine ⟨h', ?_, ?_, fun k => (hends' k).trans (hends k), fun k => ?_⟩
      · rw [sendAll, hsend]
        exact hall
      · rw [hsize, size_refill]
      · rw [hcontent, content_refill hlt]
        split
        · rename_i hk
          rw [hk, Fifo.toList_push, List.append_assoc]
          rfl
        · rfl
    · rw [hheard] at hdeaf
      cases hdeaf

end Hub

end Intcode
