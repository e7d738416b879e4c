import Intcode.Batch.Basic
import Intcode.Proofs.Between

namespace Intcode

/-!
# Longer inputs

An engine is run twice, on some inputs and on these inputs with more behind them, and nobody sends
anything later.  The two runs go the same way until the shorter inputs run out: no instruction
looks at a value that it does not take.

* `Engine.stepped`      — an engine and its channels after a number of steps
* `Engine.Sealed`       — nobody sends to the input any more, so the engine is never suspended
* `Hub.Surplus`         — one channel holds more, and all else is the same
* `Engine.Beside`       — the two runs; `Beside.step` is a step of both, `beside_stepped` the run
* `Batch.Progress`      — what a batch run has come to
* `Batch.progress_append_inputs` — the run on the longer inputs, told from the run on the shorter ones
-/

/-! ### Steps one after another -/

/-- An engine and its channels after a number of steps. -/
def Engine.stepped (s : Engine × Hub) : Nat → Engine × Hub
  | 0 => s
  | k + 1 => (stepped s k).1.step (stepped s k).2

namespace Engine

variable {s t : Engine × Hub} {rx : ReceiverRef} {tx : SenderRef} {extra : List Int}

/-- An engine that has ended stays as it is. -/
theorem stepped_of_ended {k m : Nat} (hended : (stepped s k).1.isRunning = false) (hkm : k ≤ m) :
    stepped s m = stepped s k := by
  induction hkm with
  | refl => rfl
  | step _ ih =>
    rw [stepped, ih]
    exact step_of_ended hended

/-- Steps hang nobody up. -/
theorem ends_stepped (s : Engine × Hub) (k n : Nat) : (stepped s k).2.ends n = s.2.ends n := by
  induction k with
  | zero => rfl
  | succ k ih =>
    rw [stepped, ends_step]
    exact ih

/-- Steps neither add channels nor remove any. -/
theorem size_stepped (s : Engine × Hub) (k : Nat) :
    (stepped s k).2.channels.size = s.2.channels.size := by
  induction k with
  | zero => rfl
  | succ k ih =>
    rw [stepped, size_step]
    exact ih

/-! ### Engines on sealed inputs -/

/-- The engine reads at one end, where nobody sends any more, and writes at the other; it is not
    suspended. -/
structure Sealed (rx : ReceiverRef) (tx : SenderRef) (s : Engine × Hub) : Prop where
  plugged : Plugged rx tx s.1
  request : s.1.request = none
  receiverOpen : (s.2.channel rx.channel).receiverOpen = true
  senders : (s.2.channel rx.channel).senders = 0

namespace Sealed

/-- A step leaves the engine on its sealed input. -/
theorem step (hs : Sealed rx tx s) : Sealed rx tx (s.1.step s.2) where
  plugged := hs.plugged.step s.2
  request := hs.plugged.request_step hs.request hs.senders
  receiverOpen := by
    rw [Hub.receiverOpen_eq, ends_step]
    exact hs.receiverOpen
  senders := by
    rw [Hub.senders_eq, ends_step]
    exact hs.senders

theorem stepped (hs : Sealed rx tx s) (k : Nat) : Sealed rx tx (stepped s k) := by
  induction k with
  | zero => exact hs
  | succ k ih => exact ih.step

/-- A run takes its steps one after another, since it is never suspended. -/
theorem runFor_eq (hs : Sealed rx tx s) (k : Nat) : s.1.runFor k s.2 = Engine.stepped s k := by
  induction k with
  | zero => rfl
  | succ k ih =>
    have hreq : (s.1.runFor k s.2).1.request = none := by
      rw [ih]
      exact (hs.stepped k).request
    rw [runFor_succ k s.1 s.2 hreq, ih]
    rfl

/-- What has been emitted stays where it is. -/
theorem outputs_step (hs : Sealed rx tx s) (hne : tx.channel ≠ rx.channel) :
    s.2.content tx.channel <+: (s.1.step s.2).2.content tx.channel := by
  rw [hs.plugged.content_step hne]
  exact List.prefix_append _ _

theorem outputs_stepped (hs : Sealed rx tx s) (hne : tx.channel ≠ rx.channel) {k m : Nat}
    (hkm : k ≤ m) : (Engine.stepped s k).2.content tx.channel <+:
      (Engine.stepped s m).2.content tx.channel := by
  induction hkm with
  | refl => exact List.prefix_rfl
  | step _ ih => exact ih.trans ((hs.stepped _).outputs_step hne)

end Sealed

end Engine

/-! ### More to read -/

/-- The second hub holds more in channel `n`, behind what the first one holds there; all else is
    the same. -/
structure Hub.Surplus (n : Nat) (extra : List Int) (h more : Hub) : Prop where
  size : more.channels.size = h.channels.size
  ends : ∀ k, more.ends k = h.ends k
  here : more.content n = h.content n ++ extra
  elsewhere : ∀ k, k ≠ n → more.content k = h.content k

namespace Hub.Surplus

variable {n : Nat} {extra : List Int} {h more : Hub}

/-- Who is heard in the one hub is heard in the other. -/
theorem listens (hs : Surplus n extra h more) (tx : SenderRef) :
    more.listens tx = h.listens tx :=
  Channel.listens_eq_of_ends (hs.ends tx.channel) tx.handle

/-- The same value is taken from both. -/
theorem take (hs : Surplus n extra h more) (hn : n < h.channels.size) {rest all : Fifo Int}
    (hall : all.toList = rest.toList ++ extra) :
    Surplus n extra (h.refill n rest) (more.refill n all) := by
  have hn' : n < more.channels.size := by rw [hs.size]; exact hn
  constructor
  · simp only [size_refill, hs.size]
  · intro k
    rw [ends_refill hn, ends_refill hn', hs.ends k]
  · simp only [content_refill hn, content_refill hn', if_true, hall]
  · intro k hk
    simp only [content_refill hn, content_refill hn', if_neg hk, hs.elsewhere k hk]

/-- The same value is put into both, in another channel. -/
theorem push (hs : Surplus n extra h more) {k : Nat} (hk : k < h.channels.size) (hne : k ≠ n)
    (v : Int) : Surplus n extra (h.refill k ((h.channel k).buffer.push v))
      (more.refill k ((more.channel k).buffer.push v)) := by
  have hk' : k < more.channels.size := by rw [hs.size]; exact hk
  have hbuffer : (more.channel k).buffer.toList = (h.channel k).buffer.toList :=
    hs.elsewhere k hne
  constructor
  · simp only [size_refill, hs.size]
  · intro j
    rw [ends_refill hk, ends_refill hk', hs.ends j]
  · simp only [content_refill hk, content_refill hk', if_neg hne.symm, hs.here]
  · intro j hj
    rw [content_refill hk, content_refill hk']
    split
    · simp only [Fifo.toList_push, hbuffer]
    · exact hs.elsewhere j hj

end Hub.Surplus

namespace Engine

variable {s t : Engine × Hub} {rx : ReceiverRef} {tx : SenderRef} {extra : List Int}

/-- Two runs of one engine, the second with more to read. -/
structure Beside (rx : ReceiverRef) (tx : SenderRef) (extra : List Int) (s t : Engine × Hub) :
    Prop where
  sealed : Sealed rx tx s
  engine : t.1 = s.1
  surplus : Hub.Surplus rx.channel extra s.2 t.2

/-- **One step of both**: they do the same, unless the first one finds its input at the end. -/
theorem Beside.step (hb : Beside rx tx extra s t) (hne : tx.channel ≠ rx.channel) :
    Beside rx tx extra (s.1.step s.2) (t.1.step t.2) ∨
      (s.1.step s.2).1.fault? = some .inputClosed ∧ (s.1.step s.2).2 = s.2 := by
  obtain ⟨e, h⟩ := s
  obtain ⟨e', more⟩ := t
  obtain ⟨hs, rfl, hsurplus⟩ := hb
  have hs' := hs.step
  have hexchange := exchange_step e' h
  generalize e'.taken? h = taken, e'.sent? h = sent, hstep : e'.step h = result
    at hexchange
  rw [show Engine.step (e', h).1 (e', h).2 = result from hstep] at hs'
  dsimp only at hs' hsurplus ⊢
  cases hexchange with
  | rest hmove =>
    rw [step_of_rest hmove]
    exact .inl ⟨hs', rfl, hsurplus⟩
  | silent hmove hreq =>
    rw [step_of_act hmove hreq]
    exact .inl ⟨hs', rfl, hsurplus⟩
  | waits hask _ _ hsenders =>
    rw [hs.plugged.receiver hask] at hsenders
    exact absurd hs.senders hsenders
  | @takes r e₁ v buffer hask hopen hcontent =>
    have hrx := hs.plugged.receiver hask
    rw [hrx] at hopen hcontent hs' ⊢
    -- the value at the front of the shorter input is at the front of the longer one
    have hall : more.content rx.channel = v :: (buffer.toList ++ extra) := by
      rw [hsurplus.here, hcontent, List.cons_append]
    have hopen' : (more.channel rx.channel).receiverOpen = true := by
      rw [Hub.receiverOpen_eq, hsurplus.ends]
      exact hopen
    obtain ⟨all, hrest, hnext⟩ :=
      hask.step_takes (congrArg ReceiverRef.channel hrx) hopen' hall
    rw [hnext]
    exact .inl ⟨hs', rfl, hsurplus.take (Hub.lt_size_of_receiverOpen hopen) hrest⟩
  | givesUp hask hclosed => exact .inr ⟨rfl, rfl⟩
  | @sends tx' origin v told hmove hlistens hlt =>
    obtain rfl := hs.plugged.sender hmove
    rw [step_sends hmove (by rw [hsurplus.listens, hlistens])]
    exact .inl ⟨hs', rfl, hsurplus.push hlt hne v⟩
  | refused hmove hlistens =>
    rw [step_refused hmove (by rw [hsurplus.listens, hlistens])]
    exact .inl ⟨hs', rfl, hsurplus⟩

/-- The second run is on a sealed input too. -/
theorem Beside.sealed_more (hb : Beside rx tx extra s t) : Sealed rx tx t := by
  obtain ⟨hs, hengine, hsurplus⟩ := hb
  refine ⟨?_, ?_, ?_, ?_⟩
  · rw [hengine]
    exact hs.plugged
  · rw [hengine]
    exact hs.request
  · rw [Hub.receiverOpen_eq, hsurplus.ends]
    exact hs.receiverOpen
  · rw [Hub.senders_eq, hsurplus.ends]
    exact hs.senders

/-- **A run of both**: they are beside each other, unless the first one has found its input at the
    end; and then it has emitted no more than the other. -/
theorem beside_stepped (hb : Beside rx tx extra s t) (hne : tx.channel ≠ rx.channel) (k : Nat) :
    Beside rx tx extra (stepped s k) (stepped t k) ∨
      (stepped s k).1.fault? = some .inputClosed ∧
        (stepped s k).2.content tx.channel <+: (stepped t k).2.content tx.channel := by
  induction k with
  | zero => exact .inl hb
  | succ k ih =>
    have hmore := (hb.sealed_more.stepped k).outputs_step hne
    rcases ih with hbeside | ⟨hfault, hprefix⟩
    · rcases hbeside.step hne with hnext | ⟨hfault, hsame⟩
      · exact .inl hnext
      · -- the last step of the first run emits nothing
        refine .inr ⟨hfault, ?_⟩
        show (Engine.step _ _).2.content _ <+: _
        rw [hsame, ← hbeside.surplus.elsewhere _ hne]
        exact hmore
    · have hended : (stepped s k).1.isRunning = false := isRunning_eq_false_of_fault? hfault
      refine .inr ?_
      rw [stepped, step_of_ended hended]
      exact ⟨hfault, hprefix.trans hmore⟩

end Engine

/-! ### Batch runs -/

namespace Batch

/-- What a batch run has come to. -/
structure Progress where
  engine : Engine
  outputs : List Int
  /-- The inputs that have not been read. -/
  unread : List Int

/-- What a batch run on given inputs has come to after a number of steps. -/
def progress (e : Engine) (inputs : List Int) (k : Nat) : Progress :=
  let s := Engine.stepped (e.wired ⟨0⟩ ⟨1, 0⟩, channels inputs) k
  { engine := s.1, outputs := s.2.content 1, unread := s.2.content 0 }

variable {e : Engine}

/-- The inputs of a batch run are sealed. -/
theorem sealed_start (hreq : e.request = none) (inputs : List Int) :
    Engine.Sealed ⟨0⟩ ⟨1, 0⟩ (e.wired ⟨0⟩ ⟨1, 0⟩, channels inputs) where
  plugged := ⟨rfl, rfl, fun r hr => by simp [Engine.wired, hreq] at hr⟩
  request := hreq
  receiverOpen := rfl
  senders := rfl

/-- A batch run comes to what its steps come to. -/
theorem execute_eq_progress (hreq : e.request = none) (inputs : List Int) (k : Nat) :
    execute k e (some inputs) =
      { outputs := (progress e inputs k).outputs, engine := (progress e inputs k).engine } := by
  have hrun := (sealed_start hreq inputs).runFor_eq k
  dsimp only at hrun
  simp only [execute, progress, hrun]
  rfl

/-- A run that has ended comes to nothing more. -/
theorem progress_of_ended {inputs : List Int} {k m : Nat}
    (hended : (progress e inputs k).engine.isRunning = false) (hkm : k ≤ m) :
    progress e inputs m = progress e inputs k := by
  unfold progress
  rw [Engine.stepped_of_ended hended hkm]

/-- The runs on the shorter and on the longer inputs start beside each other. -/
theorem beside_start (hreq : e.request = none) (xs ys : List Int) :
    Engine.Beside ⟨0⟩ ⟨1, 0⟩ ys (e.wired ⟨0⟩ ⟨1, 0⟩, channels xs)
      (e.wired ⟨0⟩ ⟨1, 0⟩, channels (xs ++ ys)) := by
  refine ⟨sealed_start hreq xs, rfl, ⟨rfl, ?_, ?_, ?_⟩⟩
  · intro k
    rcases k with _ | _ | k <;> rfl
  · simp [channels, Hub.content, Hub.channel, Channel.content, Channel.sealed]
  · intro k hk
    rcases k with _ | _ | k
    · exact absurd rfl hk
    · rfl
    · rfl

/-- **Inputs that are not read do not matter.**  As long as a run has not stopped for want of an
    input, the run on more inputs has come to the same after as many steps, and the additional
    inputs are unread.  So where the first run ends in any other way the second one ends in the
    same way; and where it stops for want of an input, it has emitted no more than the second. -/
theorem progress_append_inputs (e : Engine) (hreq : e.request = none) (xs ys : List Int) :
    (∀ k, (progress e xs k).engine.fault? ≠ some .inputClosed →
      progress e (xs ++ ys) k =
        { progress e xs k with unread := (progress e xs k).unread ++ ys }) ∧
    (∀ k m, k ≤ m → (execute k e (some xs)).engine.isRunning = false →
      (execute k e (some xs)).engine.fault? ≠ some .inputClosed →
      execute m e (some (xs ++ ys)) = execute k e (some xs) ∧
        (progress e (xs ++ ys) m).unread = (progress e xs k).unread ++ ys) ∧
    (∀ k m, k ≤ m → (execute k e (some xs)).engine.fault? = some .inputClosed →
      (execute k e (some xs)).outputs <+: (execute m e (some (xs ++ ys))).outputs) := by
  have hne : (1 : Nat) ≠ 0 := by decide
  have hstart := beside_start hreq xs ys
  have hsame (k : Nat) (hfed : (progress e xs k).engine.fault? ≠ some .inputClosed) :
      progress e (xs ++ ys) k =
        { progress e xs k with unread := (progress e xs k).unread ++ ys } := by
    rcases Engine.beside_stepped hstart hne k with hb | ⟨hfault, _⟩
    · have hout := hb.surplus.elsewhere 1 hne
      have hin := hb.surplus.here
      simp only [progress, hb.engine, hout, hin]
    · exact absurd hfault hfed
  refine ⟨hsame, ?_, ?_⟩
  · intro k m hkm hended hfed
    simp only [execute_eq_progress hreq] at hended hfed ⊢
    have hk := hsame k hfed
    have hm : progress e (xs ++ ys) m = progress e (xs ++ ys) k := by
      apply progress_of_ended _ hkm
      rw [hk]
      exact hended
    rw [hm, hk]
    exact ⟨rfl, rfl⟩
  · intro k m hkm hfault
    simp only [execute_eq_progress hreq] at hfault ⊢
    have hgrow := hstart.sealed_more.outputs_stepped hne hkm
    rcases Engine.beside_stepped hstart hne k with hb | ⟨_, hprefix⟩
    · have hout : (progress e (xs ++ ys) k).outputs = (progress e xs k).outputs :=
        hb.surplus.elsewhere 1 hne
      rw [← hout]
      exact hgrow
    · exact hprefix.trans hgrow

/-- A program that echoes two values. -/
def echoTwice : List Int := [3, 0, 4, 0, 3, 0, 4, 0, 99]

/-- With a third value the echo ends as it does with two, and leaves the third; with one it stops
    after the first, which is where it begins with two. -/
theorem progress_append_inputs_of_echo :
    (Engine.ofCells echoTwice false {}).request = none ∧
      execute 5 (.ofCells echoTwice false {}) (some [7, 8, 9]) =
        execute 5 (.ofCells echoTwice false {}) (some [7, 8]) ∧
      (progress (.ofCells echoTwice false {}) [7, 8, 9] 5).unread = [9] ∧
      (execute 3 (.ofCells echoTwice false {}) (some [7])).engine.fault? = some .inputClosed ∧
      [7] <+: (execute 5 (.ofCells echoTwice false {}) (some [7, 8])).outputs := by
  have hlonger := progress_append_inputs (.ofCells echoTwice false {}) rfl [7, 8] [9]
  have hshorter := progress_append_inputs (.ofCells echoTwice false {}) rfl [7] [8]
  obtain ⟨hsame, hunread⟩ := hlonger.2.1 5 5 (by decide) (by decide) (by decide)
  refine ⟨rfl, hsame, hunread, by decide, ?_⟩
  exact hshorter.2.2 3 5 (by decide) (by decide)

end Batch

end Intcode
