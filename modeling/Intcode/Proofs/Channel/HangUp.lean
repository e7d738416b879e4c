import Intcode.Proofs.Channel.History

namespace Intcode.Channel

/-!
# Hang-ups

A reader is told that nobody is coming by a count of senders, which is kept beside the handles
themselves.  The count is right in every state a channel can come to, so a reader is told so exactly
when it is true; and then it stays true.

* `Counted`              — the count is the number of open handles
* `HungUp`               — nobody is coming
* `recv_eq_value_iff`, `recv_eq_closed_iff`, `recv_eq_wait_iff` — what a reader finds
* `History.HungUp.run`   — who has hung up stays away
* `History.run_detects`  — the same for every order of operations
-/

/-- The count of senders is the number of handles that are open. -/
def Counted (c : Channel) : Prop := c.senders = c.handles.count true

/-- Nobody is coming: the receiver is closed, or nothing is queued and no handle is open. -/
def HungUp (c : Channel) : Prop :=
  c.receiverOpen = false ∨ c.content = [] ∧ ∀ handle, c.isOpen handle = false

variable {c : Channel} {handle : Nat}

/-! ### Handles and their number -/

theorem isOpen_iff : c.isOpen handle = true ↔ c.handles[handle]? = some true := by
  unfold isOpen
  rw [Array.getD_eq_getD_getElem?]
  cases c.handles[handle]? <;> simp

/-- A handle that is hung up is closed, and the others are as they have been. -/
theorem isOpen_closeSender_iff {k : Nat} :
    (c.closeSender handle).isOpen k = true ↔ c.isOpen k = true ∧ k ≠ handle := by
  unfold closeSender
  split
  · rw [isOpen_iff, isOpen_iff]
    dsimp only
    rw [Array.getElem?_setIfInBounds]
    by_cases hk : handle = k
    · rw [if_pos hk]
      split <;> simp [hk]
    · rw [if_neg hk]
      exact ⟨fun hopen => ⟨hopen, Ne.symm hk⟩, And.left⟩
  · rename_i hclosed
    constructor
    · intro hopen
      refine ⟨hopen, ?_⟩
      rintro rfl
      exact hclosed hopen
    · exact And.left

/-- There are no senders when no handle is open. -/
theorem Counted.senders_eq_zero_iff (hc : Counted c) :
    c.senders = 0 ↔ ∀ handle, c.isOpen handle = false := by
  rw [hc, Array.count_eq_zero, Array.mem_iff_getElem?, not_exists]
  refine forall_congr' fun handle => ?_
  rw [← isOpen_iff, Bool.not_eq_true]

/-- The count is right for a channel with the same ends. -/
theorem Counted.of_ends {c' : Channel} (hc : Counted c) (hends : c'.ends = c.ends) :
    Counted c' := by
  have hhandles : c'.handles = c.handles := congrArg (·.1) hends
  have hsenders : c'.senders = c.senders := congrArg (·.2.1) hends
  rw [Counted, hhandles, hsenders]
  exact hc

/-- A copy of a handle is one sender more. -/
theorem Counted.clone {k : Nat} {c' : Channel} (hc : Counted c)
    (hclone : c.clone handle = .ok (k, c')) : Counted c' := by
  unfold Channel.clone at hclone
  split at hclone
  · cases hclone
    show c.senders + 1 = (c.handles.push true).count true
    rw [Array.count_push, hc]
    simp
  · cases hclone

/-- A handle that is hung up is one sender less, and only the first time. -/
theorem Counted.closeSender (hc : Counted c) (handle : Nat) : Counted (c.closeSender handle) := by
  unfold Channel.closeSender
  split
  · rename_i hopen
    obtain ⟨hlt, hget⟩ := Array.getElem?_eq_some_iff.1 (isOpen_iff.1 hopen)
    show c.senders - 1 = (c.handles.setIfInBounds handle false).count true
    rw [Array.setIfInBounds, dif_pos hlt, Array.count_set, hget, hc]
    simp
  · exact hc

/-! ### What a reader finds -/

/-- A value is received when one is queued and the receiver is open. -/
theorem recv_eq_value_iff (c : Channel) :
    (∃ v rest, c.recv = .value v rest) ↔ c.receiverOpen = true ∧ c.content ≠ [] := by
  rcases c.recv_cases with
    ⟨v, buffer, hopen, hcontent, hrecv⟩ | ⟨e, hclosed, hrecv⟩ | ⟨hopen, hempty, _, hrecv⟩
  · simp [hrecv, hopen, hcontent]
  · rcases hclosed with hclosed | ⟨hempty, _⟩
    · simp [hrecv, hclosed]
    · simp [hrecv, hempty]
  · simp [hrecv, hempty]

/-- A reader is told that nobody is coming when that is so. -/
theorem recv_eq_closed_iff (hc : Counted c) : (∃ e, c.recv = .closed e) ↔ c.HungUp := by
  unfold HungUp
  rw [← hc.senders_eq_zero_iff]
  rcases c.recv_cases with
    ⟨v, buffer, hopen, hcontent, hrecv⟩ | ⟨e, hclosed, hrecv⟩ | ⟨hopen, _, hsenders, hrecv⟩
  · simp [hrecv, hopen, hcontent]
  · simp [hrecv, hclosed]
  · simp [hrecv, hopen, hsenders]

/-- A reader waits when nothing is queued and somebody may still send. -/
theorem recv_eq_wait_iff (hc : Counted c) :
    c.recv = .wait ↔
      c.receiverOpen = true ∧ c.content = [] ∧ ∃ handle, c.isOpen handle = true := by
  have hsome : (∃ handle, c.isOpen handle = true) ↔ c.senders ≠ 0 := by
    rw [Ne, hc.senders_eq_zero_iff]
    simp
  rw [hsome]
  rcases c.recv_cases with
    ⟨v, buffer, _, hcontent, hrecv⟩ | ⟨e, hclosed, hrecv⟩ | ⟨hopen, hempty, hsenders, hrecv⟩
  · simp [hrecv, hcontent]
  · rcases hclosed with hclosed | ⟨_, hnone⟩
    · simp [hrecv, hclosed]
    · simp [hrecv, hnone]
  · simp [hrecv, hopen, hempty, hsenders]

/-- Receiving without waiting gives the value that receiving gives. -/
theorem tryRecv_eq_ok_iff {v : Int} {rest : Channel} :
    c.tryRecv = .ok (v, rest) ↔ c.recv = .value v rest := by
  rw [tryRecv_eq]
  cases c.recv <;> simp

/-- Receiving without waiting is refused for good when receiving is. -/
theorem tryRecv_eq_closed_iff :
    c.tryRecv = .error .sendersClosed ↔ ∃ e, c.recv = .closed e := by
  rw [tryRecv_eq]
  cases c.recv <;> simp

/-- Receiving without waiting finds nothing yet when receiving would wait. -/
theorem tryRecv_eq_empty_iff : c.tryRecv = .error .empty ↔ c.recv = .wait := by
  rw [tryRecv_eq]
  cases c.recv <;> simp

namespace History

variable {s : History}

/-! ### Operations one after another -/

/-- **An operation keeps the count.** -/
theorem counted_perform (hc : s.channel.Counted) (op : Operation) :
    (s.perform op).channel.Counted := by
  cases op with
  | send handle v =>
    cases hsend : s.channel.send handle v with
    | error e => simpa only [perform, hsend] using hc
    | ok channel =>
      obtain ⟨_, rfl⟩ := send_eq_ok_iff.1 hsend
      simp only [perform, hsend]
      exact hc.of_ends rfl
  | clone handle =>
    cases hclone : s.channel.clone handle with
    | error e => simpa only [perform, hclone] using hc
    | ok copy => simpa only [perform, hclone] using hc.clone hclone
  | closeSender handle => exact hc.closeSender handle
  | recv =>
    cases hrecv : s.channel.recv with
    | value v channel =>
      simp only [perform, hrecv]
      exact hc.of_ends (content_of_recv hrecv).2
    | closed | wait => simpa only [perform, hrecv] using hc
  | tryRecv =>
    cases hrecv : s.channel.recv with
    | value v channel =>
      simp only [perform, tryRecv_eq, hrecv]
      exact hc.of_ends (content_of_recv hrecv).2
    | closed | wait => simpa only [perform, tryRecv_eq, hrecv] using hc
  | drain => exact hc.of_ends rfl
  | iterate => exact hc.of_ends (content_iterateFrom [] s.channel).2
  | closeReceiver => exact hc

theorem counted_run (hc : s.channel.Counted) (ops : List Operation) :
    (s.run ops).channel.Counted := by
  induction ops generalizing s with
  | nil => exact hc
  | cons op ops ih => exact ih (counted_perform hc op)

/-- The count is right in every state that a new channel can come to. -/
theorem counted_of_new (ops : List Operation) : (run {} ops).channel.Counted :=
  counted_run (s := {}) rfl ops

/-- **Who has hung up stays away.**  A handle that is closed sends nothing and has no copies, and a
    receiver that is closed is not opened again. -/
theorem hungUp_perform (hgone : s.channel.HungUp) (op : Operation) :
    (s.perform op).channel.HungUp := by
  rcases hgone with hclosed | ⟨hempty, halone⟩
  · left
    rw [← Bool.not_eq_true, (passes_perform s op).receiverOpen, hclosed]
    simp
  cases op with
  | send handle v => exact .inr (by simp [perform, send_eq, listens, hempty, halone])
  | clone handle => exact .inr (by simp [perform, Channel.clone, hempty, halone])
  | closeSender handle => exact .inr (by simp [perform, closeSender, hempty, halone])
  | recv | tryRecv =>
    cases hrecv : s.channel.recv with
    | value v channel =>
      -- there is nothing to receive
      rw [(content_of_recv hrecv).1] at hempty
      cases hempty
    | closed | wait => exact .inr (by simp [perform, tryRecv_eq, hrecv, hempty, halone])
  | drain => exact .inr ⟨rfl, halone⟩
  | iterate =>
    obtain ⟨hcontent, hends⟩ := content_iterateFrom [] s.channel
    rw [hempty] at hcontent
    refine .inr ⟨(List.append_eq_nil_iff.1 hcontent.symm).2, fun handle => ?_⟩
    exact (isOpen_eq_of_ends hends handle).trans (halone handle)
  | closeReceiver => exact .inl rfl

theorem hungUp_run (hgone : s.channel.HungUp) (ops : List Operation) :
    (s.run ops).channel.HungUp := by
  induction ops generalizing s with
  | nil => exact hgone
  | cons op ops ih => exact ih (hungUp_perform hgone op)

/-- **Hang-ups are detected exactly.**  After operations in any order the count of senders is the
    number of open handles.  So a reader gets a value if there is one and the receiver is open, is
    told that nobody is coming if the receiver is closed or nothing is queued and no handle is open,
    and waits otherwise; a reader that does not wait gets the same value, is refused for good in the
    same states, and finds nothing yet where the other would wait.  And once a reader has been told
    that nobody is coming, so is everybody after it, whatever is done in between. -/
theorem run_detects (ops : List Operation) :
    let c := (run {} ops).channel
    c.senders = c.handles.count true ∧
    ((∃ v rest, c.recv = .value v rest) ↔ c.receiverOpen = true ∧ c.content ≠ []) ∧
    ((∃ e, c.recv = .closed e) ↔
      c.receiverOpen = false ∨ c.content = [] ∧ ∀ handle, c.isOpen handle = false) ∧
    (c.recv = .wait ↔
      c.receiverOpen = true ∧ c.content = [] ∧ ∃ handle, c.isOpen handle = true) ∧
    (∀ v rest, c.tryRecv = .ok (v, rest) ↔ c.recv = .value v rest) ∧
    (c.tryRecv = .error .sendersClosed ↔ ∃ e, c.recv = .closed e) ∧
    (c.tryRecv = .error .empty ↔ c.recv = .wait) ∧
    ((∃ e, c.recv = .closed e) → ∀ later,
      (∃ e, ((run {} ops).run later).channel.recv = .closed e) ∧
        ((run {} ops).run later).channel.tryRecv = .error .sendersClosed) := by
  intro c
  have hc : c.Counted := counted_of_new ops
  refine ⟨hc, recv_eq_value_iff c, recv_eq_closed_iff hc, recv_eq_wait_iff hc,
    fun _ _ => tryRecv_eq_ok_iff, tryRecv_eq_closed_iff, tryRecv_eq_empty_iff, ?_⟩
  intro htold later
  have hgone : c.HungUp := (recv_eq_closed_iff hc).1 htold
  have hc' := counted_run hc later
  have htold' := (recv_eq_closed_iff hc').2 (hungUp_run hgone later)
  exact ⟨htold', tryRecv_eq_closed_iff.2 htold'⟩

/-- A handle closed twice counts once, so its copy is still waited for; when that is closed too,
    every reader is told, at once and ever after. -/
theorem run_detects_of_copies :
    let ops : List Operation := [.clone 0, .closeSender 0, .closeSender 0]
    (run {} ops).channel.recv = .wait ∧
    ∀ later, ((run {} (ops ++ [.closeSender 1])).run later).channel.tryRecv =
      .error .sendersClosed := by
  intro ops
  have hopen : (run {} ops).channel.receiverOpen = true := by decide
  have hempty : (run {} ops).channel.content = [] := by decide
  have hcopy : (run {} ops).channel.isOpen 1 = true := by decide
  have htold : ∃ e, (run {} (ops ++ [.closeSender 1])).channel.recv = .closed e := ⟨_, rfl⟩
  have hafter := (run_detects (ops ++ [.closeSender 1])).2.2.2.2.2.2.2
  exact ⟨(run_detects ops).2.2.2.1.2 ⟨hopen, hempty, 1, hcopy⟩, fun later =>
    (hafter htold later).2⟩

end History

end Intcode.Channel
