import Intcode.Proofs.Channel.HangUp

namespace Intcode.Channel

/-!
# Reading one by one and all at once

What is queued can be taken out value by value, until the reader is refused, or all at once; or it
can be iterated over.  In every state a channel can come to, all of these hand out the same values
and leave the same channel behind.

* `Takes`              — values taken one by one up to the first refusal
* `Tidy`               — nothing is queued for a receiver that is closed
* `Deserted`           — nobody reads, or nobody writes
* `Takes.drain_eq`, `exists_takes_drain` — one by one and all at once
* `iterateFrom_eq`     — an iteration, and whether it is left waiting
* `History.reads_agree` — the same for every order of operations
-/

/-- Values are taken one by one without waiting, up to the first refusal; with the channel after
    it. -/
inductive Takes : Channel → List Int → Channel → ChannelError → Prop where
  | refused {c : Channel} {e : ChannelError} (htry : c.tryRecv = .error e) : Takes c [] c e
  | value {c rest last : Channel} {v : Int} {vs : List Int} {e : ChannelError}
      (htry : c.tryRecv = .ok (v, rest)) (hrest : Takes rest vs last e) : Takes c (v :: vs) last e

/-- Nothing is queued for a receiver that is closed. -/
def Tidy (c : Channel) : Prop := c.receiverOpen = false → c.content = []

/-- Nobody reads, or nobody writes. -/
def Deserted (c : Channel) : Prop :=
  c.receiverOpen = false ∨ ∀ handle, c.isOpen handle = false

variable {c rest last : Channel} {v : Int} {vs : List Int} {e : ChannelError}

/-! ### Taking everything at once -/

/-- A queue without content is the empty one. -/
theorem eq_empty_of_toList {q : Fifo Int} (hempty : q.toList = []) : q = {} := by
  obtain ⟨front, back⟩ := q
  obtain ⟨rfl, hback⟩ := List.append_eq_nil_iff.1 hempty
  obtain rfl := List.reverse_eq_nil_iff.1 hback
  rfl

/-- Where nothing is queued, nothing is taken. -/
theorem drain_of_content_eq_nil (hempty : c.content = []) : c.drain = ([], c) := by
  obtain ⟨buffer, handles, senders, receiverOpen⟩ := c
  obtain rfl := eq_empty_of_toList hempty
  rfl

/-- A value received first is the first of those taken. -/
theorem drain_of_recv (hrecv : c.recv = .value v rest) :
    c.drain = (v :: rest.drain.1, rest.drain.2) := by
  obtain ⟨hcontent, hends⟩ := content_of_recv hrecv
  refine Prod.ext hcontent ?_
  obtain ⟨buffer, handles, senders, receiverOpen⟩ := c
  obtain ⟨buffer', handles', senders', receiverOpen'⟩ := rest
  cases hends
  rfl

/-! ### What a reader is refused for -/

/-- A channel with an open receiver is tidy. -/
theorem tidy_of_recv (hrecv : c.recv = .value v rest) : rest.Tidy := by
  intro hclosed
  have hopen := ((recv_eq_value_iff c).1 ⟨v, rest, hrecv⟩).1
  have hsame : rest.receiverOpen = c.receiverOpen := congrArg (·.2.2) (content_of_recv hrecv).2
  exact absurd (hopen.symm.trans (hsame.symm.trans hclosed)) nofun

/-- Whether a channel is deserted is a matter of its ends. -/
theorem deserted_of_recv (hrecv : c.recv = .value v rest) : rest.Deserted ↔ c.Deserted := by
  have hends := (content_of_recv hrecv).2
  have hopen : rest.receiverOpen = c.receiverOpen := congrArg (·.2.2) hends
  unfold Deserted
  simp only [hopen, isOpen_eq_of_ends hends]

theorem counted_of_recv (hc : c.Counted) (hrecv : c.recv = .value v rest) : rest.Counted :=
  hc.of_ends (content_of_recv hrecv).2

/-- A reader who is told that nobody is coming finds nothing queued. -/
theorem of_recv_closed (htidy : c.Tidy) (hc : c.Counted) (hrecv : c.recv = .closed e) :
    c.content = [] ∧ c.Deserted := by
  rcases (recv_eq_closed_iff hc).1 ⟨e, hrecv⟩ with hclosed | ⟨hempty, halone⟩
  · exact ⟨htidy hclosed, .inl hclosed⟩
  · exact ⟨hempty, .inr halone⟩

/-- So does one who has to wait, but not because of anybody being gone. -/
theorem of_recv_wait (hc : c.Counted) (hrecv : c.recv = .wait) :
    c.content = [] ∧ ¬ c.Deserted := by
  obtain ⟨hopen, hempty, handle, hhandle⟩ := (recv_eq_wait_iff hc).1 hrecv
  refine ⟨hempty, ?_⟩
  rintro (hclosed | halone)
  · exact absurd (hopen.symm.trans hclosed) nofun
  · exact absurd (hhandle.symm.trans (halone handle)) nofun

/-! ### One by one -/

/-- **Values taken one by one are those taken at once**, and the last refusal tells whether the
    channel is deserted. -/
theorem Takes.drain_eq (htakes : Takes c vs last e) (htidy : c.Tidy) (hc : c.Counted) :
    c.drain = (vs, last) ∧ (e = .sendersClosed ↔ c.Deserted) := by
  induction htakes with
  | @refused c e htry =>
    rw [tryRecv_eq] at htry
    cases hrecv : c.recv with
    | value v rest =>
      rw [hrecv] at htry
      cases htry
    | closed cause =>
      rw [hrecv] at htry
      cases htry
      obtain ⟨hempty, hdeserted⟩ := of_recv_closed htidy hc hrecv
      exact ⟨drain_of_content_eq_nil hempty, iff_of_true rfl hdeserted⟩
    | wait =>
      rw [hrecv] at htry
      cases htry
      obtain ⟨hempty, hattended⟩ := of_recv_wait hc hrecv
      exact ⟨drain_of_content_eq_nil hempty, iff_of_false nofun hattended⟩
  | value htry _ ih =>
    have hrecv := tryRecv_eq_ok_iff.1 htry
    obtain ⟨hdrain, hrefusal⟩ := ih (tidy_of_recv hrecv) (counted_of_recv hc hrecv)
    rw [drain_of_recv hrecv, hdrain]
    exact ⟨rfl, hrefusal.trans (deserted_of_recv hrecv)⟩

/-- **Whoever takes value by value is refused in the end**, with everything taken. -/
theorem exists_takes_drain (htidy : c.Tidy) (hc : c.Counted) :
    ∃ e, Takes c c.drain.1 c.drain.2 e := by
  -- by induction on what is queued, which gets shorter with every value
  induction hlength : c.buffer.length using Nat.strongRecOn generalizing c with
  | _ n ih =>
    cases hrecv : c.recv with
    | value v rest =>
      have hshorter := length_lt_of_recv hrecv
      rw [hlength] at hshorter
      obtain ⟨e, hrest⟩ :=
        ih _ hshorter (tidy_of_recv hrecv) (counted_of_recv hc hrecv) rfl
      rw [drain_of_recv hrecv]
      exact ⟨e, .value (tryRecv_eq_ok_iff.2 hrecv) hrest⟩
    | closed e =>
      rw [drain_of_content_eq_nil (of_recv_closed htidy hc hrecv).1]
      exact ⟨_, .refused (tryRecv_eq_closed_iff.2 ⟨e, hrecv⟩)⟩
    | wait =>
      rw [drain_of_content_eq_nil (of_recv_wait hc hrecv).1]
      exact ⟨_, .refused (tryRecv_eq_empty_iff.2 hrecv)⟩

/-! ### Iterations -/

/-- **An iteration yields what is taken at once**, and is left waiting unless the channel is
    deserted. -/
theorem iterateFrom_eq (done : List Int) (htidy : c.Tidy) (hc : c.Counted) :
    ∃ waiting, iterateFrom done c = (done.reverse ++ c.drain.1, c.drain.2, waiting) ∧
      (waiting = false ↔ c.Deserted) := by
  induction done, c using iterateFrom.induct with
  | case1 done c v rest hrecv ih =>
    obtain ⟨waiting, hrest, hwaiting⟩ := ih (tidy_of_recv hrecv) (counted_of_recv hc hrecv)
    refine ⟨waiting, ?_, hwaiting.trans (deserted_of_recv hrecv)⟩
    rw [iterateFrom_of_value done hrecv, drain_of_recv hrecv, hrest]
    simp
  | case2 done c e hrecv =>
    obtain ⟨hempty, hdeserted⟩ := of_recv_closed htidy hc hrecv
    refine ⟨false, ?_, iff_of_true rfl hdeserted⟩
    rw [iterateFrom_of_closed done hrecv, drain_of_content_eq_nil hempty, List.append_nil]
  | case3 done c hrecv =>
    obtain ⟨hempty, hattended⟩ := of_recv_wait hc hrecv
    refine ⟨true, ?_, iff_of_false (by decide) hattended⟩
    rw [iterateFrom_of_wait done hrecv, drain_of_content_eq_nil hempty, List.append_nil]

namespace History

/-- **All ways of reading agree.**  After operations in any order: whoever takes value by value is
    refused in the end, and has then taken just what is taken at once, with the same channel left
    behind; the refusal is for good exactly if the receiver is closed or no handle is open.  In that
    case an iteration yields the same values, leaves the same channel behind and ends; in any other
    it yields the same values and waits. -/
theorem reads_agree (ops : List Operation) :
    let c := (run {} ops).channel
    (∃ e, Takes c c.drain.1 c.drain.2 e) ∧
    (∀ vs last e, Takes c vs last e → c.drain = (vs, last) ∧
      (e = .sendersClosed ↔ c.receiverOpen = false ∨ ∀ handle, c.isOpen handle = false)) ∧
    ((c.receiverOpen = false ∨ ∀ handle, c.isOpen handle = false) →
      c.iterate = (c.drain.1, c.drain.2, false)) ∧
    (¬ (c.receiverOpen = false ∨ ∀ handle, c.isOpen handle = false) →
      c.iterate = (c.drain.1, c.drain.2, true)) := by
  intro c
  have hc : c.Counted := counted_of_new ops
  have htidy : c.Tidy := (balanced_empty.run ops).discarded
  obtain ⟨waiting, hiterate, hwaiting⟩ := iterateFrom_eq [] htidy hc
  refine ⟨exists_takes_drain htidy hc, fun vs last e htakes => htakes.drain_eq htidy hc,
    fun hdeserted => ?_, fun hattended => ?_⟩
  · rw [← hwaiting.2 hdeserted]
    exact hiterate
  · rw [← eq_true_of_ne_false fun hends => hattended (hwaiting.1 hends)]
    exact hiterate

/-- Two values sent through a handle that is then closed are taken in order; and when they have been
    discarded with the receiver, there is nothing to iterate over, though a copy of the handle is
    open. -/
theorem reads_agree_of_closed :
    let ops : List Operation := [.send 0 1, .clone 0, .send 1 2, .closeSender 0]
    (∀ handle, (run {} (ops ++ [.closeSender 1])).channel.isOpen handle = false) ∧
    (run {} (ops ++ [.closeSender 1])).channel.iterate.1 = [1, 2] ∧
    (run {} (ops ++ [.closeReceiver])).channel.isOpen 1 = true ∧
    (run {} (ops ++ [.closeReceiver])).channel.iterate =
      ([], (run {} (ops ++ [.closeReceiver])).channel, false) := by
  intro ops
  have hsenders : (run {} (ops ++ [.closeSender 1])).channel.senders = 0 := by decide
  have hclosed : (run {} (ops ++ [.closeReceiver])).channel.receiverOpen = false := by decide
  have hcopy : (run {} (ops ++ [.closeReceiver])).channel.isOpen 1 = true := by decide
  have hnone := (counted_of_new (ops ++ [Operation.closeSender 1])).senders_eq_zero_iff.1 hsenders
  obtain ⟨-, -, hends, -⟩ := reads_agree (ops ++ [.closeSender 1])
  obtain ⟨-, -, hends', -⟩ := reads_agree (ops ++ [.closeReceiver])
  refine ⟨hnone, ?_, hcopy, ?_⟩
  · rw [hends (Or.inr hnone)]
    decide
  · rw [hends' (Or.inl hclosed)]
    rfl

end History

end Intcode.Channel
