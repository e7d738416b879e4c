import Intcode.Proofs.Feeding
import Intcode.Proofs.Pipe.Flows

namespace Intcode.Pipe

open Network (releaseOutput releaseInput)

/-!
# The end of a stream

When an engine has ended, its worker hangs up the output, and with it the only sender there is.  The
reader, who has been given the values in order, is told so only after the last of them.

* `chores`, `backlog`       — what the worker and the reader have left to do
* `Flows.work_of_ended`, `Flows.read_of_released` — a turn of either is one less of it
* `end_of_stream`           — the reader gets everything, and then learns of the end
-/

variable {s : Pipe} {fed keep : Bool} {handle : Nat} {source out : Channel} {order : Nat → Party}

/-! ### When the engine has ended -/

/-- What the worker has left to do when its engine has ended. -/
def chores : Phase → Nat
  | .running => 3
  | .releasingOutput => 2
  | .releasingInput => 1
  | .ended => 0

/-- An engine that has ended emits nothing. -/
theorem told?_of_ended {e : Engine} (hended : e.isRunning = false) (h : Hub) :
    e.told? h = none := by
  unfold Engine.told?
  rw [(Engine.move_eq_rest_iff e).2 hended]

/-- What a turn of the reader can change. -/
theorem read_eq (s : Pipe) : ∃ hub yielded finished, s.read = { s with hub, yielded, finished } := by
  unfold read
  split
  · exact ⟨_, _, _, rfl⟩
  · split <;> exact ⟨_, _, _, rfl⟩

/-- What a turn of a supplier can change. -/
theorem supply_eq (s : Pipe) (act : Supply) :
    ∃ hub supplied, s.supply act = { s with hub, supplied } := by
  unfold supply
  cases act with
  | send k v =>
    dsimp only
    split <;> exact ⟨_, _, rfl⟩
  | clone k =>
    dsimp only
    split <;> exact ⟨_, _, rfl⟩
  | hangUp k => exact ⟨_, _, rfl⟩

namespace Flows

/-- When the engine has ended, a turn of the worker brings it one phase further. -/
theorem work_of_ended (hf : Flows fed keep handle source out s)
    (hended : s.engine.isRunning = false) :
    s.work.engine.isRunning = false ∧ s.work.emitted = s.emitted ∧
      chores s.work.worker.phase = chores s.worker.phase - 1 := by
  have ha := hf.attends
  cases hphase : s.worker.phase with
  | running =>
    have hreq : (s.network.engine s.worker.engine).request = none := by
      -- an engine that has ended waits for nothing
      rw [ha.unit]
      refine Option.eq_none_iff_forall_ne_some.2 fun r hr => ?_
      rw [(ha.waiting r hr).1] at hended
      cases hended
    have hcan : s.network.canStep 0 = true := by
      rw [Network.canStep_running (w := s.worker) rfl hphase, hreq]
    have hnext : s.engine.phase = .releasingOutput := by
      rw [Engine.phase, hended]
      rfl
    rw [Pipe.work_running ha.unit hphase hcan, Engine.step_of_ended hended, told?_of_ended hended,
      hnext]
    exact ⟨hended, List.append_nil _, rfl⟩
  | releasingOutput =>
    rw [Pipe.work_releasingOutput ha.unit hphase, Network.releaseOutput_eq]
    exact ⟨hended, rfl, rfl⟩
  | releasingInput =>
    rw [Pipe.work_releasingInput ha.unit hphase, Network.releaseInput_eq]
    split <;> exact ⟨hended, rfl, rfl⟩
  | ended =>
    rw [work_ended hphase, hphase]
    exact ⟨hended, rfl, rfl⟩

/-- When the engine has ended, no turn brings it back or makes it emit anything, and the worker has
    less and less to do. -/
theorem turn_of_ended (hf : Flows fed keep handle source out s)
    (hended : s.engine.isRunning = false) (p : Party) :
    (s.turn p).engine.isRunning = false ∧ (s.turn p).emitted = s.emitted ∧
      chores (s.turn p).worker.phase ≤ chores s.worker.phase := by
  cases p with
  | worker =>
    obtain ⟨hengine, hemitted, hchores⟩ := hf.work_of_ended hended
    exact ⟨hengine, hemitted, Nat.le_trans (Nat.le_of_eq hchores) (Nat.sub_le _ _)⟩
  | reader =>
    obtain ⟨hub, yielded, finished, hread⟩ := s.read_eq
    rw [show s.turn .reader = _ from hread]
    exact ⟨hended, rfl, Nat.le_refl _⟩
  | supplier act =>
    obtain ⟨hub, supplied, hsupply⟩ := s.supply_eq act
    rw [show s.turn (.supplier act) = _ from hsupply]
    exact ⟨hended, rfl, Nat.le_refl _⟩

end Flows

/-! ### When the output has been hung up -/

/-- What the reader has left to do when nobody is coming. -/
def backlog (s : Pipe) : Nat := (s.hub.content 1).length + if s.finished then 0 else 1

/-- Turns of the worker leave the reader alone. -/
theorem work_keeps (s : Pipe) : s.work.yielded = s.yielded ∧ s.work.finished = s.finished := by
  unfold work
  split <;> exact ⟨rfl, rfl⟩

/-- A reader that has been told that nobody is coming reads no more. -/
theorem finished_turn (hfinished : s.finished = true) (p : Party) : (s.turn p).finished = true := by
  cases p with
  | worker => exact (work_keeps s).2.trans hfinished
  | supplier act =>
    obtain ⟨hub, supplied, hsupply⟩ := s.supply_eq act
    rw [show s.turn (.supplier act) = _ from hsupply]
    exact hfinished
  | reader =>
    show s.read.finished = true
    unfold read
    rw [if_pos hfinished]
    exact hfinished

namespace Flows

/-- As long as nobody receives, what is queued is what has been queued and what has been emitted. -/
theorem backlog_eq {s' : Pipe} (hf : Flows fed keep handle source out s)
    (hf' : Flows fed keep handle source out s') (hemitted : s'.emitted = s.emitted)
    (hyielded : s'.yielded = s.yielded) (hfinished : s'.finished = s.finished) :
    s'.backlog = s.backlog := by
  have hpassed := hf'.outgoing.passed
  rw [hemitted, hyielded, ← hf.outgoing.passed] at hpassed
  rw [backlog, backlog, List.append_cancel_left hpassed, hfinished]

/-- When the output has been hung up, a turn of the reader gives it a value or the end. -/
theorem read_of_released (hf : Flows fed keep handle source out s)
    (hheld : s.worker.phase.holdsOutput = false) : s.read.backlog = s.backlog - 1 := by
  have ho := hf.outgoing
  unfold Pipe.read
  cases hfinished : s.finished with
  | true =>
    rw [if_pos rfl, backlog, (ho.finished hfinished).2, hfinished]
    rfl
  | false =>
    simp only [Bool.false_eq_true, if_false]
    rcases s.hub.recv_cases ⟨1⟩ with
      ⟨v, buffer, _, hcontent, hrecv⟩ | ⟨err, hclosed, hrecv⟩ | ⟨_, _, hsenders, _⟩
    · have hlt : 1 < s.hub.channels.size := hf.lt_size (by decide)
      rw [hrecv, backlog, backlog, hfinished]
      dsimp only
      rw [Hub.content_refill hlt, if_pos rfl, hcontent]
      rfl
    · rw [hfinished] at ho
      have hempty : s.hub.content 1 = [] := ((ho.finish hclosed).finished rfl).2
      rw [hrecv, backlog, backlog, hfinished]
      dsimp only
      rw [hempty]
      rfl
    · -- somebody would have to hold a sender
      refine absurd (ho.counted.senders_eq_zero_iff.2 fun k => ?_) hsenders
      rw [← Bool.not_eq_true, ho.sole k, hheld]
      exact nofun

/-- When the output has been hung up, it stays so, and the reader has less and less to do. -/
theorem turn_of_released (hf : Flows fed keep handle source out s)
    (hended : s.engine.isRunning = false) (hheld : s.worker.phase.holdsOutput = false)
    (p : Party) : (s.turn p).backlog ≤ s.backlog := by
  have hf' := hf.turn p
  obtain ⟨_, hemitted, _⟩ := hf.turn_of_ended hended p
  cases p with
  | worker =>
    obtain ⟨hyielded, hfinished⟩ := work_keeps s
    exact Nat.le_of_eq (hf.backlog_eq hf' hemitted hyielded hfinished)
  | reader => exact Nat.le_trans (Nat.le_of_eq (hf.read_of_released hheld)) (Nat.sub_le _ _)
  | supplier act =>
    obtain ⟨hub, supplied, hsupply⟩ := s.supply_eq act
    rw [show s.turn (.supplier act) = _ from hsupply] at hf' ⊢
    exact Nat.le_of_eq (hf.backlog_eq hf' rfl rfl rfl)

/-! ### Runs -/

/-- An engine that has ended stays so whatever turns are taken, and emits nothing more. -/
theorem run_of_ended (hf : Flows fed keep handle source out s) {n : Nat}
    (hended : (s.run order n).engine.isRunning = false) {m : Nat} (hnm : n ≤ m) :
    (s.run order m).engine.isRunning = false ∧
      (s.run order m).emitted = (s.run order n).emitted := by
  induction m, hnm using Nat.le_induction with
  | base => exact ⟨hended, rfl⟩
  | succ m _ ih =>
    obtain ⟨hengine, hemitted, _⟩ := (hf.run order m).turn_of_ended ih.1 (order m)
    exact ⟨hengine, hemitted.trans ih.2⟩

/-- In a fair order the worker comes to its end when the engine has ended. -/
theorem exists_worker_ended (hf : Flows fed keep handle source out s) (hfair : Fair order) {n : Nat}
    (hended : (s.run order n).engine.isRunning = false) :
    ∃ m, n ≤ m ∧ ∀ k, m ≤ k → (s.run order k).worker.phase = .ended := by
  obtain ⟨m, hnm, hzero⟩ : ∃ m, n ≤ m ∧ ∀ k, m ≤ k → chores (s.run order k).worker.phase = 0 := by
    refine exists_forall_eq_zero hfair.1 (fun m hnm => ?_) (fun m hnm hturn => ?_)
    · obtain ⟨hengine, _⟩ := hf.run_of_ended hended hnm
      exact ((hf.run order m).turn_of_ended hengine (order m)).2.2
    · obtain ⟨hengine, _⟩ := hf.run_of_ended hended hnm
      show chores ((s.run order m).turn (order m)).worker.phase = _
      rw [hturn]
      exact ((hf.run order m).work_of_ended hengine).2.2
  refine ⟨m, hnm, fun k hmk => ?_⟩
  have hchores := hzero k hmk
  cases hphase : (s.run order k).worker.phase with
  | ended => rfl
  | running | releasingOutput | releasingInput =>
    rw [hphase] at hchores
    cases hchores

/-- In a fair order the reader is told so, when it has been given everything. -/
theorem exists_finished (hf : Flows fed keep handle source out s) (hfair : Fair order) {n : Nat}
    (hended : (s.run order n).engine.isRunning = false) :
    ∃ m, n ≤ m ∧ (s.run order m).finished = true ∧ (s.run order m).worker.phase = .ended := by
  obtain ⟨m, hnm, hphase⟩ := hf.exists_worker_ended hfair hended
  have hheld (k : Nat) (hmk : m ≤ k) : (s.run order k).worker.phase.holdsOutput = false := by
    rw [hphase k hmk]
    rfl
  obtain ⟨m', hmm', hzero⟩ : ∃ m', m ≤ m' ∧ ∀ k, m' ≤ k → (s.run order k).backlog = 0 := by
    refine exists_forall_eq_zero hfair.2 (fun k hmk => ?_) (fun k hmk hturn => ?_)
    · obtain ⟨hengine, _⟩ := hf.run_of_ended hended (Nat.le_trans hnm hmk)
      exact (hf.run order k).turn_of_released hengine (hheld k hmk) (order k)
    · show ((s.run order k).turn (order k)).backlog = _
      rw [hturn]
      exact (hf.run order k).read_of_released (hheld k hmk)
  refine ⟨m', Nat.le_trans hnm hmm', ?_, hphase m' hmm'⟩
  have hnothing := hzero m' (Nat.le_refl m')
  unfold backlog at hnothing
  cases hfinished : (s.run order m').finished with
  | true => rfl
  | false =>
    rw [hfinished] at hnothing
    simp at hnothing

/-- A reader that has been told stays so. -/
theorem finished_run {n m : Nat} (hnm : n ≤ m) (hfinished : (s.run order n).finished = true) :
    (s.run order m).finished = true := by
  induction m, hnm using Nat.le_induction with
  | base => exact hfinished
  | succ m _ ih => exact finished_turn ih (order m)

/-- What a reader that has been told has been given. -/
theorem yielded_of_finished (hf : Flows fed keep handle source out s)
    (hfinished : s.finished = true) :
    s.engine.isRunning = false ∧ s.yielded = out.content ++ s.emitted := by
  obtain ⟨hheld, hempty⟩ := hf.outgoing.finished hfinished
  have hpassed := hf.outgoing.passed
  rw [hempty, List.append_nil] at hpassed
  refine ⟨hf.attends.stopped fun hphase => ?_, hpassed⟩
  rw [hphase] at hheld
  cases hheld

end Flows

/-- **The end of a stream.**  A worker runs an engine whose output is the only open sender of its
    channel, a reader iterates over the channel, and suppliers use the senders of the input, in any
    order of turns.  At any time the reader has been given, in order, what was queued at the start
    and what has been emitted, up to what is queued still.  It is told of the end only when the
    engine has ended, by halting or by a fault, and it has been given everything; and so it stays.
    If the engine has ended and the worker and the reader come again and again, that is what
    happens.  A worker that has ended has taken the output away from the engine and hung it up; the
    input it has closed, unless it is to be kept, and then all that has not been taken from it is
    still queued there. -/
theorem end_of_stream (e : Engine) (w : Worker) (fed : Bool) (handle : Nat) (source out : Channel)
    (order : Nat → Party) (hreq : e.request = none) (hcounted : out.Counted)
    (hsole : ∀ k, out.isOpen k = true ↔ k = handle) (hreceived : out.receiverOpen = true) :
    let s := (start e w fed handle source out).run order
    (∀ n, (s n).yielded ++ (s n).hub.content 1 = out.content ++ (s n).emitted) ∧
    (∀ n, (s n).finished = true → (s n).engine.isRunning = false ∧
      ∀ m, n ≤ m → (s m).finished = true ∧ (s m).emitted = (s n).emitted ∧
        (s m).yielded = out.content ++ (s n).emitted) ∧
    (Fair order → ∀ n, (s n).engine.isRunning = false →
      ∃ m, n ≤ m ∧ (s m).finished = true ∧ (s m).worker.phase = .ended ∧
        (s m).yielded = out.content ++ (s n).emitted) ∧
    (∀ n, (s n).worker.phase = .ended →
      (s n).engine.output = none ∧ ((s n).hub.channel 1).isOpen handle = false ∧
      (w.keepInput = false → (s n).engine.input = none ∧
        (fed = true → ((s n).hub.channel 0).receiverOpen = false)) ∧
      (w.keepInput = true → (s n).engine.input = inlet fed ∧
        ((s n).hub.channel 0).receiverOpen = source.receiverOpen ∧
        (s n).taken ++ (s n).hub.content 0 = source.content ++ (s n).supplied)) := by
  intro s
  have hstart := flows_start hreq w fed hcounted hsole hreceived source
  have hf (n : Nat) := hstart.run order n
  refine ⟨fun n => (hf n).outgoing.passed, ?_, ?_, ?_⟩
  · intro n hfinished
    obtain ⟨hended, _⟩ := (hf n).yielded_of_finished hfinished
    refine ⟨hended, fun m hnm => ?_⟩
    have hfinished' := Flows.finished_run hnm hfinished
    have hemitted := (hstart.run_of_ended hended hnm).2
    refine ⟨hfinished', hemitted, ?_⟩
    exact ((hf m).yielded_of_finished hfinished').2.trans (congrArg (out.content ++ ·) hemitted)
  · intro hfair n hended
    obtain ⟨m, hnm, hfinished, hphase⟩ := hstart.exists_finished hfair hended
    have hemitted := (hstart.run_of_ended hended hnm).2
    refine ⟨m, hnm, hfinished, hphase, ?_⟩
    exact ((hf m).yielded_of_finished hfinished).2.trans (congrArg (out.content ++ ·) hemitted)
  · intro n hphase
    have ha := (hf n).attends
    have hi := (hf n).incoming
    have hkept : (s n).worker.keepsInput = w.keepInput := by
      rw [Worker.keepsInput, hphase]
      exact ha.keep
    refine ⟨?_, ?_, fun hkeep => ?_, fun hkeep => ?_⟩
    · rw [ha.output, hphase]
      rfl
    · rw [← Bool.not_eq_true, (hf n).outgoing.sole handle, hphase]
      exact fun hopen => Bool.false_ne_true hopen.1
    · rw [hkeep] at hkept
      refine ⟨?_, hi.released hkept⟩
      rw [ha.input, hkept]
      rfl
    · rw [hkeep] at hkept
      refine ⟨?_, hi.unread hkept⟩
      rw [ha.input, hkept]
      rfl

/-- A supplier has the first turn, and then the worker and the reader alternate. -/
def suppliedFirst (n : Nat) : Party :=
  if n = 0 then .supplier (.send 0 8) else if n % 2 = 1 then .worker else .reader

theorem fair_suppliedFirst : Fair suppliedFirst := by
  constructor
  · intro n
    refine ⟨2 * n + 1, by omega, ?_⟩
    rw [suppliedFirst, if_neg (by omega), if_pos (by omega)]
  · intro n
    refine ⟨2 * n + 2, by omega, ?_⟩
    rw [suppliedFirst, if_neg (by omega), if_neg (by omega)]

/-- A program that emits a number, echoes a value, and stops at a word that does not decode. -/
def falters : List Int := [104, 3, 3, 0, 4, 0, 42]

/-- The reader is given the number and the echo, and then told of the end, although the engine stops
    by a fault; a value that has been supplied and not been taken is still in the input, which is
    kept. -/
theorem end_of_stream_of_falters :
    let s := (start (.ofCells falters false {}) { engine := 0, keepInput := true } true 1
      (.holding [7]) { handles := #[false, true] }).run suppliedFirst
    (s 12).engine.status = .faulted (.unrecognizedOpcode ⟨42, 0, 0, 0⟩) 6 ∧
      (∃ m, 12 ≤ m ∧ (s m).finished = true ∧ (s m).yielded = [3, 7]) ∧
      (s 12).worker.phase = .ended ∧ ((s 12).hub.channel 1).isOpen 1 = false ∧
      (s 12).hub.content 0 = [8] := by
  intro s
  have hsole (k : Nat) : Channel.isOpen { handles := #[false, true] } k = true ↔ k = 1 := by
    rcases k with _ | _ | k <;> simp [Channel.isOpen]
  obtain ⟨_, _, htold, hreleased⟩ := end_of_stream (.ofCells falters false {})
    { engine := 0, keepInput := true } true 1 (.holding [7]) { handles := #[false, true] }
    suppliedFirst rfl rfl hsole rfl
  have hphase : (s 12).worker.phase = .ended := by decide +kernel
  obtain ⟨m, hm, hfinished, _, hyielded⟩ := htold fair_suppliedFirst 12 (by decide +kernel)
  obtain ⟨_, hclosed, _, hkept⟩ := hreleased 12 hphase
  refine ⟨by decide +kernel, ⟨m, hm, hfinished, hyielded.trans (by decide +kernel)⟩, hphase,
    hclosed, ?_⟩
  have htaken : (s 12).taken = [7] := by decide +kernel
  have hunread : (s 12).taken ++ (s 12).hub.content 0 = [7] ++ [8] :=
    (hkept rfl).2.2.trans (by decide +kernel)
  rw [htaken] at hunread
  exact List.append_cancel_left hunread

end Intcode.Pipe
