import Intcode.Proofs.Content

namespace Intcode.Channel

/-!
# The history of a channel

Whoever holds an end of a channel may use it at any time, so the operations on a channel come in any
order.  Its history remembers what has been accepted from all handles together, and what has been
handed out in whatever way.

* `Operation`              — what can be done at the ends
* `History.perform`, `History.run` — operations one after another
* `History.Passes`         — the ways an operation can go
* `History.Balanced`       — nothing is lost, doubled or reordered, and what is closed stays closed
* `History.run_conserves`  — the same for every order of operations
-/

/-- What can be done at the ends of a channel. -/
inductive Operation where
  | send (handle : Nat) (v : Int)
  | clone (handle : Nat)
  | closeSender (handle : Nat)
  /-- A value is asked for, be it in a step of an iteration. -/
  | recv
  | tryRecv
  | drain
  /-- All the steps of an iteration, as far as it goes without waiting. -/
  | iterate
  | closeReceiver
  deriving Repr, DecidableEq

/-- A channel, and what has passed through it. -/
structure History where
  channel : Channel := {}
  /-- The values accepted from all handles, in order. -/
  accepted : List Int := []
  /-- The values handed out to the reader, in order. -/
  handedOut : List Int := []

namespace History

/-- One operation.  Who would have to wait leaves the channel as it is, and so does a refusal. -/
def perform (s : History) : Operation → History
  | .send handle v =>
    match s.channel.send handle v with
    | .ok channel => { s with channel, accepted := s.accepted ++ [v] }
    | .error _ => s
  | .clone handle =>
    match s.channel.clone handle with
    | .ok (_, channel) => { s with channel }
    | .error _ => s
  | .closeSender handle => { s with channel := s.channel.closeSender handle }
  | .recv =>
    match s.channel.recv with
    | .value v channel => { s with channel, handedOut := s.handedOut ++ [v] }
    | _ => s
  | .tryRecv =>
    match s.channel.tryRecv with
    | .ok (v, channel) => { s with channel, handedOut := s.handedOut ++ [v] }
    | .error _ => s
  | .drain =>
    let (vs, channel) := s.channel.drain
    { s with channel, handedOut := s.handedOut ++ vs }
  | .iterate =>
    let (vs, channel, _) := s.channel.iterate
    { s with channel, handedOut := s.handedOut ++ vs }
  | .closeReceiver => { s with channel := s.channel.closeReceiver }

/-- Operations one after another. -/
def run (s : History) (ops : List Operation) : History := ops.foldl perform s

end History

/-! ### What single operations do -/

variable {c rest : Channel} {v : Int}

/-- What is received is the first value of the content. -/
theorem content_of_recv (hrecv : c.recv = .value v rest) :
    c.content = v :: rest.content ∧ rest.ends = c.ends := by
  rcases c.recv_cases with ⟨w, buffer, _, hcontent, hvalue⟩ | ⟨e, _, hclosed⟩ | ⟨_, _, _, hwait⟩
  · rw [hrecv] at hvalue
    cases hvalue
    exact ⟨hcontent, rfl⟩
  · rw [hrecv] at hclosed
    cases hclosed
  · rw [hrecv] at hwait
    cases hwait

/-- Receiving without waiting finds the value that receiving finds. -/
theorem tryRecv_eq (c : Channel) :
    c.tryRecv = match c.recv with
      | .value v rest => .ok (v, rest)
      | .closed _ => .error .sendersClosed
      | .wait => .error .empty := by
  obtain ⟨buffer, handles, senders, receiverOpen⟩ := c
  cases receiverOpen with
  | false => cases hpop : buffer.pop? <;> simp [tryRecv, recv, hpop]
  | true =>
    cases hpop : buffer.pop? with
    | some p => simp [tryRecv, recv, hpop]
    | none => by_cases hs : senders = 0 <;> simp [tryRecv, recv, hpop, hs]

/-- An iteration yields the value received and goes on behind it. -/
theorem iterateFrom_of_value (done : List Int) (hrecv : c.recv = .value v rest) :
    iterateFrom done c = iterateFrom (v :: done) rest := by
  rw [iterateFrom]
  split <;> simp_all

/-- It ends when the reader is told that nobody is coming. -/
theorem iterateFrom_of_closed (done : List Int) {e : ChannelError} (hrecv : c.recv = .closed e) :
    iterateFrom done c = (done.reverse, c, false) := by
  rw [iterateFrom]
  split <;> simp_all

/-- It goes no further when the reader would have to wait. -/
theorem iterateFrom_of_wait (done : List Int) (hrecv : c.recv = .wait) :
    iterateFrom done c = (done.reverse, c, true) := by
  rw [iterateFrom]
  split <;> simp_all

/-- An iteration hands out values from the front of the content. -/
theorem content_iterateFrom (done : List Int) (c : Channel) :
    done.reverse ++ c.content = (iterateFrom done c).1 ++ (iterateFrom done c).2.1.content ∧
      (iterateFrom done c).2.1.ends = c.ends := by
  induction done, c using iterateFrom.induct with
  | case1 done c v rest hrecv ih =>
    obtain ⟨hcontent, hends⟩ := content_of_recv hrecv
    rw [iterateFrom_of_value done hrecv]
    rw [hends] at ih
    refine ⟨?_, ih.2⟩
    rw [← ih.1, hcontent]
    simp
  | case2 done c e hrecv =>
    rw [iterateFrom_of_closed done hrecv]
    exact ⟨rfl, rfl⟩
  | case3 done c hrecv =>
    rw [iterateFrom_of_wait done hrecv]
    exact ⟨rfl, rfl⟩

/-- Only a writer that is heard gets a value into the channel. -/
theorem send_eq_ok_iff {c' : Channel} {handle : Nat} :
    c.send handle v = .ok c' ↔
      c.listens handle = true ∧ c' = { c with buffer := c.buffer.push v } := by
  rw [send_eq]
  by_cases hlistens : c.listens handle = true
  · simp [hlistens, eq_comm]
  · simp [hlistens]

/-! ### The ways an operation can go -/

namespace History

variable {s t : History}

/-- The ways an operation can go, with the history after it. -/
inductive Passes (s : History) (op : Operation) : History → Prop where
  /-- Nothing passes: a refusal, nothing to hand out, or a change of the sending ends. -/
  | nothing {channel : Channel} (hop : op ≠ .closeReceiver)
      (hcontent : channel.content = s.channel.content)
      (hopen : channel.receiverOpen = s.channel.receiverOpen) : Passes s op { s with channel }
  /-- A value joins the content. -/
  | accepts {channel : Channel} {v : Int} (hop : op ≠ .closeReceiver)
      (hheard : s.channel.receiverOpen = true)
      (hcontent : channel.content = s.channel.content ++ [v])
      (hopen : channel.receiverOpen = s.channel.receiverOpen) :
    Passes s op { s with channel, accepted := s.accepted ++ [v] }
  /-- Values from the front of the content are handed out. -/
  | handsOut {channel : Channel} {vs : List Int} (hop : op ≠ .closeReceiver)
      (hcontent : s.channel.content = vs ++ channel.content)
      (hopen : channel.receiverOpen = s.channel.receiverOpen) :
    Passes s op { s with channel, handedOut := s.handedOut ++ vs }
  /-- The receiver is closed, and what is queued is discarded. -/
  | closes (hop : op = .closeReceiver) : Passes s op { s with channel := s.channel.closeReceiver }

theorem passes_send (s : History) (handle : Nat) (v : Int) :
    Passes s (.send handle v) (s.perform (.send handle v)) := by
  cases hsend : s.channel.send handle v with
  | error e =>
    simp only [perform, hsend]
    exact .nothing nofun rfl rfl
  | ok channel =>
    obtain ⟨hlistens, rfl⟩ := send_eq_ok_iff.1 hsend
    obtain ⟨_, hheard⟩ := Bool.and_eq_true_iff.1 hlistens
    simp only [perform, hsend]
    exact .accepts nofun hheard (Fifo.toList_push s.channel.buffer v) rfl

theorem passes_clone (s : History) (handle : Nat) :
    Passes s (.clone handle) (s.perform (.clone handle)) := by
  by_cases hopen : s.channel.isOpen handle = true
  · simp only [perform, Channel.clone, hopen, if_true]
    exact .nothing nofun rfl rfl
  · simp only [perform, Channel.clone, hopen]
    exact .nothing nofun rfl rfl

/-- A value that is received is handed out. -/
theorem passes_of_recv {op : Operation} {channel : Channel} {v : Int} (hop : op ≠ .closeReceiver)
    (hrecv : s.channel.recv = .value v channel) :
    Passes s op { s with channel, handedOut := s.handedOut ++ [v] } := by
  obtain ⟨hcontent, hends⟩ := content_of_recv hrecv
  exact .handsOut hop hcontent (congrArg (·.2.2) hends)

/-- **Every operation goes one of these ways.** -/
theorem passes_perform (s : History) (op : Operation) : Passes s op (s.perform op) := by
  cases op with
  | send handle v => exact passes_send s handle v
  | clone handle => exact passes_clone s handle
  | closeSender handle =>
    refine .nothing nofun (content_closeSender _ handle) ?_
    unfold closeSender
    split <;> rfl
  | recv =>
    cases hrecv : s.channel.recv with
    | value v channel =>
      simp only [perform, hrecv]
      exact passes_of_recv nofun hrecv
    | closed | wait =>
      simp only [perform, hrecv]
      exact .nothing nofun rfl rfl
  | tryRecv =>
    cases hrecv : s.channel.recv with
    | value v channel =>
      simp only [perform, tryRecv_eq, hrecv]
      exact passes_of_recv nofun hrecv
    | closed | wait =>
      simp only [perform, tryRecv_eq, hrecv]
      exact .nothing nofun rfl rfl
  | drain => exact .handsOut nofun (List.append_nil _).symm rfl
  | iterate =>
    obtain ⟨hcontent, hends⟩ := content_iterateFrom [] s.channel
    exact .handsOut nofun hcontent (congrArg (·.2.2) hends)
  | closeReceiver => exact .closes rfl

/-- The receiver stays open until somebody closes it. -/
theorem Passes.receiverOpen {op : Operation} (hpass : Passes s op t) :
    t.channel.receiverOpen = true ↔
      s.channel.receiverOpen = true ∧ op ≠ .closeReceiver := by
  cases hpass with
  | nothing hop _ hopen | accepts hop _ _ hopen | handsOut hop _ hopen =>
    rw [hopen]
    exact ⟨fun h => ⟨h, hop⟩, And.left⟩
  | closes hop => exact ⟨nofun, fun h => absurd hop h.2⟩

/-- The receiver is open as long as nobody has closed it. -/
theorem receiverOpen_run (s : History) (ops : List Operation) :
    (s.run ops).channel.receiverOpen = true ↔
      s.channel.receiverOpen = true ∧ .closeReceiver ∉ ops := by
  induction ops generalizing s with
  | nil => exact ⟨fun h => ⟨h, nofun⟩, And.left⟩
  | cons op ops ih =>
    rw [show s.run (op :: ops) = (s.perform op).run ops from rfl, ih,
      (passes_perform s op).receiverOpen, List.mem_cons, not_or, and_assoc]
    exact and_congr_right' (and_congr_left' ne_comm)

/-! ### Conservation -/

/-- What has been accepted is what has been handed out and then what is still queued, as long as
    the receiver is open; after that nothing is queued. -/
structure Balanced (s : History) : Prop where
  conserved : s.channel.receiverOpen = true → s.accepted = s.handedOut ++ s.channel.content
  discarded : s.channel.receiverOpen = false → s.channel.content = []
  ordered : s.handedOut <+: s.accepted

theorem balanced_empty : Balanced {} := ⟨fun _ => rfl, nofun, List.prefix_rfl⟩

/-- **An operation keeps the balance.** -/
theorem Balanced.pass {op : Operation} (hs : Balanced s) (hpass : Passes s op t) : Balanced t := by
  cases hpass with
  | nothing _ hcontent hopen =>
    refine ⟨fun hreceived => ?_, fun hclosed => ?_, hs.ordered⟩
    · rw [hcontent]
      exact hs.conserved (hopen.symm.trans hreceived)
    · rw [hcontent]
      exact hs.discarded (hopen.symm.trans hclosed)
  | accepts _ hheard hcontent hopen =>
    refine ⟨fun _ => ?_, fun hclosed => ?_, hs.ordered.trans (List.prefix_append _ _)⟩
    · rw [hcontent, hs.conserved hheard, List.append_assoc]
    · rw [hopen, hheard] at hclosed
      cases hclosed
  | @handsOut channel vs _ hcontent hopen =>
    cases hreceived : s.channel.receiverOpen with
    | true =>
      have hbalance := hs.conserved hreceived
      rw [hcontent, ← List.append_assoc] at hbalance
      refine ⟨fun _ => hbalance, fun hclosed => ?_, ?_⟩
      · rw [hopen, hreceived] at hclosed
        cases hclosed
      · rw [hbalance]
        exact List.prefix_append _ _
    | false =>
      -- nothing is queued, so nothing is handed out
      have hempty := hs.discarded hreceived
      rw [hcontent] at hempty
      obtain ⟨rfl, hrest⟩ := List.append_eq_nil_iff.1 hempty
      refine ⟨fun hopen' => ?_, fun _ => hrest, ?_⟩
      · rw [hopen, hreceived] at hopen'
        cases hopen'
      · rw [List.append_nil]
        exact hs.ordered
  | closes => exact ⟨nofun, fun _ => rfl, hs.ordered⟩

/-- Operations keep the balance. -/
theorem Balanced.run (hs : Balanced s) (ops : List Operation) : Balanced (s.run ops) := by
  induction ops generalizing s with
  | nil => exact hs
  | cons op ops ih => exact ih (hs.pass (passes_perform s op))

/-! ### After the receiver has been closed -/

/-- **Nothing passes through a channel nobody receives from.** -/
theorem Balanced.pass_of_closed {op : Operation} (hs : Balanced s)
    (hclosed : s.channel.receiverOpen = false) (hpass : Passes s op t) :
    t.channel.receiverOpen = false ∧ t.accepted = s.accepted ∧ t.handedOut = s.handedOut := by
  cases hpass with
  | nothing _ _ hopen => exact ⟨hopen.trans hclosed, rfl, rfl⟩
  | accepts _ hheard =>
    rw [hclosed] at hheard
    cases hheard
  | handsOut _ hcontent hopen =>
    rw [hs.discarded hclosed] at hcontent
    obtain ⟨rfl, _⟩ := List.append_eq_nil_iff.1 hcontent.symm
    exact ⟨hopen.trans hclosed, rfl, List.append_nil _⟩
  | closes => exact ⟨rfl, rfl, rfl⟩

theorem Balanced.run_of_closed (hs : Balanced s) (hclosed : s.channel.receiverOpen = false)
    (ops : List Operation) :
    (s.run ops).channel.receiverOpen = false ∧ (s.run ops).accepted = s.accepted ∧
      (s.run ops).handedOut = s.handedOut := by
  induction ops generalizing s with
  | nil => exact ⟨hclosed, rfl, rfl⟩
  | cons op ops ih =>
    have hpass := passes_perform s op
    obtain ⟨hclosed', haccepted, hhandedOut⟩ := hs.pass_of_closed hclosed hpass
    rw [← haccepted, ← hhandedOut]
    exact ih (hs.pass hpass) hclosed'

/-- **Channels neither lose nor double nor reorder.**  After operations in any order: the receiver
    is open if nobody has closed it, and then what has been accepted is what has been handed out and
    then the content; what has been handed out is always the beginning of what has been accepted;
    a refused value changes nothing; hanging up removes nothing; and once the receiver is closed,
    nothing is queued and nothing passes any more, whatever is done. -/
theorem run_conserves (ops : List Operation) :
    let s := run {} ops
    (s.channel.receiverOpen = true ↔ .closeReceiver ∉ ops) ∧
    (s.channel.receiverOpen = true → s.accepted = s.handedOut ++ s.channel.content) ∧
    s.handedOut <+: s.accepted ∧
    (∀ handle v e, s.channel.send handle v = .error e → s.perform (.send handle v) = s) ∧
    (∀ handle, (s.channel.closeSender handle).content = s.channel.content) ∧
    (s.channel.receiverOpen = false → ∀ later,
      (s.run later).channel.receiverOpen = false ∧ (s.run later).channel.content = [] ∧
        (s.run later).accepted = s.accepted ∧ (s.run later).handedOut = s.handedOut) := by
  intro s
  have hs : Balanced s := balanced_empty.run ops
  refine ⟨?_, hs.conserved, hs.ordered, ?_, fun handle => content_closeSender _ handle, ?_⟩
  · exact (receiverOpen_run {} ops).trans (and_iff_right rfl)
  · intro handle v e hsend
    simp [perform, hsend]
  · intro hclosed later
    obtain ⟨hclosed', hpassed⟩ := hs.run_of_closed hclosed later
    exact ⟨hclosed', (hs.run later).discarded hclosed', hpassed⟩

/-- Two values pass through two handles.  The second one is queued as long as the receiver is open,
    and is never handed out once it is closed. -/
theorem run_conserves_of_copies :
    let ops : List Operation := [.send 0 1, .clone 0, .send 1 2, .tryRecv, .closeSender 0]
    (run {} ops).channel.receiverOpen = true ∧ [1, 2] = [1] ++ (run {} ops).channel.content ∧
    (run {} (ops ++ [.closeReceiver])).channel.receiverOpen = false ∧
    ∀ later, ((run {} (ops ++ [.closeReceiver])).run later).handedOut = [1] := by
  intro ops
  have hopen : (run {} ops).channel.receiverOpen = true := by decide
  have hclosed : (run {} (ops ++ [.closeReceiver])).channel.receiverOpen = false := by decide
  refine ⟨hopen, (run_conserves ops).2.1 hopen, hclosed, fun later => ?_⟩
  exact ((run_conserves (ops ++ [.closeReceiver])).2.2.2.2.2 hclosed later).2.2.2

end History

end Intcode.Channel
