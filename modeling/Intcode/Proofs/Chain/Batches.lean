import Intcode.Amplifier.Chain
import Intcode.Proofs.OwnFault
import Intcode.Proofs.Rewiring

namespace Intcode

/-!
# Chains as batch runs

The amplifiers of an open chain run one after another, so each does what a batch run does on its
phase and the outputs of the amplifier before it.  The channels between them only pass these on.

* `Batch.execute_unsuspended`  — a batch run neither waits nor is told of a closed output
* `Chain.batches`          — the batch runs of the amplifiers, up to the first that does not halt
* `Chain.Ready`            — the channel the next amplifier reads, filled and sealed
* `Chain.amplify_link`     — one amplifier
* `Chain.runFrom_eq`       — those that follow
* `Chain.signal_eq_batches` — a chain is the composition of batch runs
-/

/-! ### Batch runs -/

namespace Batch

variable {e : Engine}

/-- A batch run neither waits nor is told of a closed output. -/
theorem execute_unsuspended (hreq : e.request = none) (hrun : e.status = .running) (fuel : Nat)
    (inputs : List Int) :
    (execute fuel e (some inputs)).engine.request = none ∧
      (execute fuel e (some inputs)).engine.fault? ≠ some .outputClosed := by
  have hs := sealed_start hreq inputs
  have hnone : (e.wired ⟨0⟩ ⟨1, 0⟩).fault? = none := Engine.fault?_of_running hrun
  rw [execute_eq_progress hreq]
  refine ⟨(hs.stepped fuel).request, hs.outputClosed_stepped rfl ?_ fuel⟩
  rw [hnone]
  exact nofun

/-- A run without patches is a run of the program as it is. -/
theorem run_of_image {program : Program.Source} {image : List Int}
    (himage : program.image = .ok image) (fuel : Nat) (inputs : Option (List Int)) :
    run fuel program inputs [] false {} =
      (execute fuel (.ofCells image false {}) inputs).result := by
  simp only [run, prepare, himage]
  rfl

end Batch

/-! ### Chains -/

namespace Amplifier.Chain

/-- The outputs of a batch run of the program on a phase and signals. -/
def amplified (fuel : Nat) (program : Program.Source) (signals : List Int) (phase : Int) :
    Except Error (List Int) :=
  (Batch.run fuel program (some (phase :: signals)) [] false {}).map Batch.outputs

/-- The batch run on a phase and signals, for a program already read. -/
def batch (fuel : Nat) (image : List Int) (signals : List Int) (phase : Int) : Batch :=
  Batch.execute fuel (.ofCells image false {}) (some (phase :: signals))

/-- The outputs of this run, if it halts. -/
def emitted (fuel : Nat) (image : List Int) (signals : List Int) (phase : Int) :
    Except Error (List Int) :=
  (batch fuel image signals phase).result.map Batch.outputs

/-- The batch runs of the amplifiers, each on its phase and the outputs of the one before it, up to
    the first that does not halt. -/
def batches (fuel : Nat) (image : List Int) (signals : List Int) : List Int → List Batch
  | [] => []
  | phase :: phases =>
    let b := batch fuel image signals phase
    match b.engine.outcome with
    | .ok _ => b :: batches fuel image b.outputs phases
    | .error _ => [b]

variable {fuel : Nat} {image : List Int} {h : Hub} {k : Nat} {inputs signals phases : List Int}
  {phase : Int}

/-- How an engine has ended has nothing to do with its ends. -/
@[simp] theorem outcome_wired (e : Engine) (rx : ReceiverRef) (tx : SenderRef) :
    (e.wired rx tx).outcome = e.outcome := rfl

theorem amplified_eq_emitted {program : Program.Source} (himage : program.image = .ok image) :
    amplified fuel program = emitted fuel image := by
  funext signals phase
  rw [amplified, Batch.run_of_image himage]
  rfl

/-- A run that halts hands its outputs to the next one. -/
theorem batches_of_ok (phases : List Int)
    (hok : (batch fuel image signals phase).engine.outcome = .ok ()) :
    batches fuel image signals (phase :: phases) = batch fuel image signals phase ::
        batches fuel image (batch fuel image signals phase).outputs phases ∧
      emitted fuel image signals phase = .ok (batch fuel image signals phase).outputs := by
  simp [batches, emitted, Batch.result, hok, Except.map]

/-- A run that does not halt is the last one. -/
theorem batches_of_error (phases : List Int) {cause : Error}
    (herror : (batch fuel image signals phase).engine.outcome = .error cause) :
    batches fuel image signals (phase :: phases) = [batch fuel image signals phase] ∧
      emitted fuel image signals phase = .error cause := by
  simp [batches, emitted, Batch.result, herror, Except.map]

/-- Only a run that halts has outputs to hand on. -/
theorem emitted_eq_ok_iff {outputs : List Int} :
    emitted fuel image signals phase = .ok outputs ↔
      (batch fuel image signals phase).engine.status = .halted ∧
        (batch fuel image signals phase).outputs = outputs := by
  unfold emitted Batch.result Engine.outcome
  cases (batch fuel image signals phase).engine.status <;> simp [Except.map]

/-- Every one of the batch runs is the run of some amplifier. -/
theorem eq_batch_of_mem {b : Batch} (hb : b ∈ batches fuel image signals phases) :
    ∃ signals phase, b = batch fuel image signals phase := by
  induction phases generalizing signals with
  | nil => cases hb
  | cons phase phases ih =>
    cases houtcome : (batch fuel image signals phase).engine.outcome with
    | ok =>
      rw [(batches_of_ok phases houtcome).1] at hb
      rcases List.mem_cons.1 hb with rfl | hb
      · exact ⟨signals, phase, rfl⟩
      · exact ih hb
    | error =>
      rw [(batches_of_error phases houtcome).1] at hb
      exact ⟨signals, phase, List.mem_singleton.1 hb⟩

/-! ### The channels -/

/-- The last channel of the hub holds these inputs, and nobody will add to them. -/
structure Ready (h : Hub) (k : Nat) (inputs : List Int) : Prop where
  size : h.channels.size = k + 1
  ends : h.ends k = Channel.ends (.sealed [])
  content : h.content k = inputs

/-- A new channel comes behind the others and holds the phase of its reader. -/
theorem link_spec (h : Hub) {n : Nat} (hn : h.channels.size = n) (phase : Option Int) :
    ∃ h', link h phase = (⟨n, 0⟩, ⟨n⟩, h') ∧ h'.channels.size = n + 1 ∧
      (∀ j, j ≠ n → h'.ends j = h.ends j ∧ h'.content j = h.content j) ∧
      h'.ends n = Channel.ends {} ∧ h'.content n = phase.toList := by
  subst hn
  have hnew : h.add.2.2.channel h.channels.size = {} := by rw [Hub.channel_add, if_pos rfl]
  have hheard : h.add.2.2.listens ⟨h.channels.size, 0⟩ = true :=
    Hub.listens_of_ends (congrArg Channel.ends hnew)
  obtain ⟨h', hall, hsize, hends, hcontent⟩ := Hub.sendAll_of_listens hheard phase.toList
  refine ⟨h', ?_, ?_, fun j hj => ⟨?_, ?_⟩, ?_, ?_⟩
  · show (_, _, (h.add.2.2.sendAll _ _).2) = _
    rw [hall]
  · rw [hsize]
    exact Array.size_push _
  · rw [hends, Hub.ends, Hub.channel_add, if_neg hj, Hub.ends]
  · rw [hcontent, if_neg hj, Hub.content, Hub.channel_add, if_neg hj, Hub.content]
  · rw [hends]
    exact congrArg Channel.ends hnew
  · rw [hcontent, if_pos rfl, Hub.content, hnew]
    rfl

/-- When an amplifier closes its channels, its output is ready for the next one. -/
theorem ready_close {e : Engine} {outputs : List Int} (hin : e.input = some ⟨k⟩)
    (hout : e.output = some ⟨k + 1, 0⟩) (hsize : h.channels.size = k + 2)
    (hends : h.ends (k + 1) = Channel.ends {}) (hcontent : h.content (k + 1) = outputs) :
    Ready (e.close h) (k + 1) outputs := by
  have hk : k < h.channels.size := by omega
  have hne : k + 1 ≠ k := by omega
  have hclose : e.close h = (h.closeReceiver ⟨k⟩).closeSender ⟨k + 1, 0⟩ := by
    simp [Engine.close, hin, hout]
  -- the input is closed first, and what it still holds is lost
  have hclosed : (h.closeReceiver ⟨k⟩).channels.size = k + 2 := by
    rw [← hsize]
    exact Hub.size_put _ _ _
  have hlt : k + 1 < (h.closeReceiver ⟨k⟩).channels.size := by omega
  rw [hclose]
  constructor
  · rw [← hclosed]
    exact Hub.size_put _ _ _
  · rw [Hub.ends_closeSender _ _ hlt, if_pos rfl]
    apply Channel.ends_closeSender
    show (h.closeReceiver ⟨k⟩).ends (k + 1) = _
    rw [Hub.ends_closeReceiver _ _ hk, if_neg hne, hends]
  · rw [Hub.content_closeSender hlt, Hub.content_closeReceiver _ _ hk, if_neg hne, hcontent]

/-! ### One amplifier -/

/-- An amplifier between its channels starts as its batch run does.  Only the phase of the next one
    is there before what it sends. -/
theorem echoes_start (image : List Int) {before : List Int}
    (hends : h.ends k = Channel.ends (.sealed []))
    (hcontent : h.content k = inputs) (hout : h.ends (k + 1) = Channel.ends {})
    (hbefore : h.content (k + 1) = before) :
    Engine.Echoes ⟨0⟩ ⟨1, 0⟩ ⟨k⟩ ⟨k + 1, 0⟩ before
      ((Engine.ofCells image false {}).wired ⟨0⟩ ⟨1, 0⟩, Batch.channels inputs)
      ((Engine.ofCells image false {}).wired ⟨k⟩ ⟨k + 1, 0⟩, h) where
  here := Batch.sealed_start rfl inputs
  there := by
    refine ⟨⟨rfl, rfl, nofun⟩, rfl, ?_, ?_⟩
    · rw [Hub.receiverOpen_eq, hends]
      rfl
    · rw [Hub.senders_eq, hends]
      rfl
  heard := rfl
  heard' := Hub.listens_of_ends hout
  engine := (Engine.rewired_eq_wired _ _ rfl).symm
  input := by
    rw [hcontent]
    exact (Fifo.toList_ofList inputs).symm
  output := by
    rw [hbefore]
    exact (List.append_nil _).symm

/-- **An amplifier does what its batch run does**, and makes its output ready for the next one. -/
theorem amplify_link (hready : Ready h k (phase :: signals)) (fuel : Nat) (image : List Int)
    (next : Option Int) :
    ∃ h₁ h₂, link h next = (⟨k + 1, 0⟩, ⟨k + 1⟩, h₁) ∧
      amplify fuel image ⟨k⟩ ⟨k + 1, 0⟩ h₁ =
        ((batch fuel image signals phase).engine.wired ⟨k⟩ ⟨k + 1, 0⟩, h₂) ∧
      Ready h₂ (k + 1) (next.toList ++ (batch fuel image signals phase).outputs) := by
  obtain ⟨h₁, hlink, hsize, hothers, hout, hbefore⟩ := link_spec h hready.size next
  obtain ⟨hends, hcontent⟩ := hothers k (by omega)
  have hstart := echoes_start image (hends.trans hready.ends)
    (hcontent.trans hready.content) hout hbefore
  have hecho := hstart.stepped (by decide) (Nat.succ_ne_self k) fuel
  have hrun := hstart.there.runFor_eq fuel
  unfold batch
  rw [Batch.execute_eq_progress rfl]
  refine ⟨h₁, _, hlink, Prod.ext ?_ rfl, ?_⟩
  · show (Engine.runFor _ _ _).1 = _
    rw [hrun, hecho.engine]
    exact Engine.rewired_eq_wired _ _ hecho.here.request
  · show Ready ((Engine.runFor _ _ _).1.close (Engine.runFor _ _ _).2) _ _
    rw [hrun]
    refine ready_close hecho.there.plugged.input hecho.there.plugged.output ?_ ?_ hecho.output
    · rw [Engine.size_stepped]
      exact hsize
    · rw [Engine.ends_stepped]
      exact hout

/-! ### All amplifiers -/

/-- The engines of amplifiers from the `k`-th on, each between the channels before and behind it. -/
def placed (k : Nat) (bs : List Batch) : List Engine :=
  bs.mapIdx fun i b => b.engine.wired ⟨k + i⟩ ⟨k + i + 1, 0⟩

theorem placed_cons (k : Nat) (b : Batch) (bs : List Batch) :
    placed k (b :: bs) = b.engine.wired ⟨k⟩ ⟨k + 1, 0⟩ :: placed (k + 1) bs := by
  simp only [placed, List.mapIdx_cons, Nat.add_zero, List.cons.injEq, true_and]
  congr 1
  funext i b
  rw [show k + (i + 1) = k + 1 + i by omega]

/-- **The amplifiers that follow** do what their batch runs do. -/
theorem runFrom_eq (fuel : Nat) (image : List Int) (hready : Ready h k (phase :: signals))
    (done : List Engine) (phases : List Int) :
    runFrom fuel image ⟨k⟩ h done phases =
      { engines := done.reverse ++ placed k (batches fuel image signals (phase :: phases))
        result := (phase :: phases).foldlM (emitted fuel image) signals >>= lastSignal } := by
  -- by induction on the phases: the channel of the next amplifier is ready when it starts
  induction phases generalizing h k signals phase done with
  | nil =>
    obtain ⟨h₁, h₂, hlink, hamplify, hready'⟩ := amplify_link hready fuel image none
    have hdrain : (h₂.drain ⟨k + 1⟩).1 = (batch fuel image signals phase).outputs :=
      hready'.content
    simp only [runFrom, hlink, hamplify, hdrain, outcome_wired, List.foldlM_cons, List.foldlM_nil]
    cases houtcome : (batch fuel image signals phase).engine.outcome with
    | ok =>
      obtain ⟨hbatches, hemitted⟩ := batches_of_ok [] houtcome
      rw [hbatches, hemitted, placed_cons, List.reverse_cons]
      rfl
    | error cause =>
      obtain ⟨hbatches, hemitted⟩ := batches_of_error [] houtcome
      rw [hbatches, hemitted, placed_cons, List.reverse_cons]
      rfl
  | cons next phases ih =>
    obtain ⟨h₁, h₂, hlink, hamplify, hready'⟩ := amplify_link hready fuel image (some next)
    simp only [runFrom, hlink, hamplify, outcome_wired]
    rw [List.foldlM_cons]
    cases houtcome : (batch fuel image signals phase).engine.outcome with
    | ok =>
      obtain ⟨hbatches, hemitted⟩ := batches_of_ok (next :: phases) houtcome
      rw [hbatches, hemitted, placed_cons]
      dsimp only
      rw [ih hready', List.reverse_cons, List.append_assoc]
      rfl
    | error cause =>
      -- the amplifiers that would have followed do not run
      obtain ⟨hbatches, hemitted⟩ := batches_of_error (next :: phases) houtcome
      rw [hbatches, hemitted, placed_cons, List.reverse_cons]
      rfl

/-- **A chain on a program already read** is its batch runs, from the seed on. -/
theorem run_eq (fuel : Nat) (image : List Int) (phase : Int) (phases : List Int) (seed : Int) :
    run fuel image (phase :: phases) seed =
      { engines := placed 0 (batches fuel image [seed] (phase :: phases))
        result := (phase :: phases).foldlM (emitted fuel image) [seed] >>= lastSignal } := by
  obtain ⟨h₁, hlink, hsize, -, hends, hcontent⟩ := link_spec (n := 0) {} rfl (some phase)
  obtain ⟨h₂, hall, hsize', hends', hcontent'⟩ :=
    Hub.sendAll_of_listens (Hub.listens_of_ends hends) [seed]
  have hlt : 0 < h₂.channels.size := by omega
  -- the first channel holds the seed behind the phase, and its sender has hung up
  have hready : Ready (h₂.closeSender ⟨0, 0⟩) 0 [phase, seed] := by
    constructor
    · rw [← hsize, ← hsize']
      exact Hub.size_put _ _ _
    · rw [Hub.ends_closeSender _ _ hlt, if_pos rfl]
      exact Channel.ends_closeSender ((hends' 0).trans hends)
    · rw [Hub.content_closeSender hlt, hcontent', if_pos rfl]
      exact congrArg (· ++ [seed]) hcontent
  have hrun := runFrom_eq fuel image hready [] phases
  simp only [run, hlink, hall]
  exact hrun

/-- What one result after another comes to. -/
theorem exists_of_bind_eq_ok {α β : Type} {x : Except Error α} {f : α → Except Error β} {y : β}
    (hbind : x >>= f = .ok y) : ∃ a, x = .ok a ∧ f a = .ok y := by
  cases x with
  | error cause => cases hbind
  | ok a => exact ⟨a, rfl, hbind⟩

theorem lastSignal_eq_ok_iff {v : Int} :
    lastSignal signals = .ok v ↔ signals.getLast? = some v := by
  unfold lastSignal
  cases signals.getLast? <;> simp

/-- A chain returns a signal only if all batch runs halt and the last one has outputs. -/
theorem of_signal_eq_ok {program : Program.Source} {seed v : Int}
    (hsignal : signal fuel program phases seed = .ok v) :
    phases ≠ [] ∧ ∃ image outputs, program.image = .ok image ∧
      phases.foldlM (emitted fuel image) [seed] = .ok outputs ∧ outputs.getLast? = some v := by
  obtain ⟨_, hphases, hread⟩ := exists_of_bind_eq_ok hsignal
  obtain ⟨image, himage, hrun⟩ := exists_of_bind_eq_ok hread
  cases phases with
  | nil => cases hphases
  | cons phase phases =>
    rw [run_eq] at hrun
    obtain ⟨outputs, houtputs, hlast⟩ := exists_of_bind_eq_ok hrun
    refine ⟨List.cons_ne_nil _ _, image, outputs, ?_, houtputs, lastSignal_eq_ok_iff.1 hlast⟩
    cases hsource : program.image with
    | error cause =>
      rw [hsource] at himage
      cases himage
    | ok cells =>
      rw [hsource] at himage
      cases himage
      rfl

/-- **A chain is the composition of batch runs.**  Its result is that of running the program once
    for each phase, on the phase and the outputs of the run before it, from the seed on, and of taking
    the last of the outputs in the end; the first run that does not halt gives its error instead.
    The amplifiers that have run are those of these batch runs, each between the channels before and
    behind it.  None of them has had to wait for a value, for a run stops where the engine is
    suspended and leaves the request, and none of them has been told that its output is closed. -/
theorem signal_eq_batches (fuel : Nat) (program : Program.Source) (phase : Int)
    (phases : List Int) (seed : Int) :
    signal fuel program (phase :: phases) seed =
      ((phase :: phases).foldlM (amplified fuel program) [seed] >>= lastSignal) ∧
    ∀ image, (run fuel image (phase :: phases) seed).engines =
        placed 0 (batches fuel image [seed] (phase :: phases)) ∧
      ∀ e ∈ (run fuel image (phase :: phases) seed).engines,
        e.request = none ∧ e.fault? ≠ some .outputClosed := by
  refine ⟨?_, fun image => ?_⟩
  · show (program.image.mapError .parse >>= fun image =>
      (run fuel image (phase :: phases) seed).result) = _
    cases himage : program.image with
    | error cause =>
      -- the first batch run does not get over the program either
      have hfirst : amplified fuel program [seed] phase = .error (.parse cause) := by
        simp [amplified, Batch.run, Batch.prepare, himage, Except.map]
      rw [List.foldlM_cons, hfirst]
      rfl
    | ok image =>
      rw [amplified_eq_emitted himage]
      exact congrArg Chain.result (run_eq fuel image phase phases seed)
  · rw [run_eq]
    refine ⟨rfl, fun e he => ?_⟩
    obtain ⟨i, hi, rfl⟩ := List.mem_mapIdx.1 he
    obtain ⟨signals, phase', hbatch⟩ := eq_batch_of_mem (List.getElem_mem hi)
    rw [hbatch]
    exact Batch.execute_unsuspended rfl rfl fuel (phase' :: signals)

/-- A program that takes its phase and one signal, and sends twice the signal. -/
def doubler : List Int := [3, 11, 3, 11, 102, 2, 11, 11, 4, 11, 99, 0]

/-- Two doublers make 28 of 7, and neither waits; with steps for half a run only the first one is
    there. -/
theorem signal_eq_batches_doubler :
    signal 5 (.cells doubler) [5, 6] 7 = .ok 28 ∧
      (∀ e ∈ (run 5 doubler [5, 6] 7).engines, e.request = none) ∧
      (run 2 doubler [5, 6] 7).engines.length = 1 := by
  obtain ⟨hsignal, hengines⟩ := signal_eq_batches 5 (.cells doubler) 5 [6] 7
  refine ⟨hsignal.trans rfl, fun e he => ((hengines doubler).2 e he).1, ?_⟩
  rw [((signal_eq_batches 2 (.cells doubler) 5 [6] 7).2 doubler).1]
  decide +kernel

end Amplifier.Chain

end Intcode
