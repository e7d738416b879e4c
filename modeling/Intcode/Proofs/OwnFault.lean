import Intcode.Proofs.LongerInput

namespace Intcode

/-!
# Faults of the machine

What an engine does on its own stops it only for reasons of the program's: a word that does not
decode, a place out of bounds, a mode there is not, a line that is no integer, an integer with too
many digits.  That the other side of a channel has hung up is learnt only from the channel.

* `Exec.Internal`        — an action all of whose faults are the program's
* `Exec.internal_decode`, `Exec.internal_execute`, `Exec.internal_store` — those of the machine
* `Engine.meets_move`    — the faults an engine may meet on its own
* `Engine.own_move`      — what an engine does on its own is no hang-up
* `Engine.program_move`  — and is the program's fault, if the input is a channel
* `Engine.Plugged.outputClosed_step` — an engine that is heard is not told of a closed output
* `Engine.Plugged.known_step` — an engine between two channels stops at its own faults or hang-ups
* `Engine.Sealed.outputClosed_stepped`, `Engine.Sealed.known_stepped` — the same for a run
-/

/-- A fault of the program itself: a place out of bounds, be it named or not, a word that does not
    decode, a mode there is not. -/
def Fault.isProgram : Fault → Bool
  | .outOfBounds _ | .unrecognizedOpcode _ | .unrecognizedMode _ | .overlong .written => true
  | _ => false

/-- The fault of a program is no hang-up. -/
theorem Fault.isHangUp_of_isProgram {f : Fault} (hf : f.isProgram = true) : f.isHangUp = false := by
  cases f with
  | outOfBounds | unrecognizedOpcode | unrecognizedMode | overlong => rfl
  | console | inputClosed | outputClosed => cases hf

/-- Refusing an address is the program's fault. -/
theorem Offer.isProgram_refusal (place : Offer) : place.refusal.isProgram = true := by
  unfold refusal
  split
  · split <;> rfl
  · rfl

/-- All faults of an action are faults of the program. -/
def Exec.Internal {α : Type} (action : Exec α) : Prop :=
  ∀ m f m', action m = .error f m' → f.isProgram = true

namespace Exec

variable {α β : Type}

/-! ### Actions -/

theorem internal_pure (x : α) : Internal (pure x) := fun _ _ _ h => nomatch h

theorem internal_modify (f : Machine → Machine) : Internal (modify f) := fun _ _ _ h => nomatch h

theorem internal_throw {f : Fault} (hf : f.isProgram = true) : Internal (throw f : Exec α) := by
  intro m f' m' h
  cases h
  exact hf

/-- One action after another. -/
theorem Internal.bind {a : Exec α} {f : α → Exec β} (ha : Internal a) (hf : ∀ x, Internal (f x)) :
    Internal (a >>= f) := by
  intro m cause m' h
  change EStateM.bind a f m = _ at h
  unfold EStateM.bind at h
  cases hrun : a m with
  | ok x m₁ =>
    rw [hrun] at h
    exact hf x m₁ cause m' h
  | error cause' m₁ =>
    rw [hrun] at h
    cases h
    exact ha m _ _ hrun

/-- An action that looks at the machine first. -/
theorem internal_get {f : Machine → Exec α} (hf : ∀ m, Internal (f m)) : Internal (get >>= f) :=
  Internal.bind (fun _ _ _ h => nomatch h) hf

theorem internal_address (v : Int) : Internal (address v) := by
  unfold address
  cases Address.ofInt? v with
  | some a => exact internal_pure a
  | none => exact internal_throw (Offer.isProgram_refusal _)

theorem internal_load (v : Int) : Internal (load v) :=
  (internal_address v).bind fun _ _ _ _ h => nomatch h

theorem internal_save (v x : Int) : Internal (save v x) :=
  (internal_address v).bind fun _ => internal_modify _

theorem internal_fetch : Internal fetch :=
  internal_get fun m => (internal_load m.pc).bind fun word =>
    (internal_modify _).bind fun _ => internal_pure word

theorem internal_operand (digit : Int) : Internal (operand digit) := by
  unfold operand
  split
  · exact internal_fetch.bind internal_load
  · exact internal_fetch
  · exact internal_fetch.bind fun _ => internal_get fun _ => internal_load _
  · exact internal_throw rfl

theorem internal_store (digit x : Int) : Internal (store digit x) := by
  unfold store
  split
  · exact internal_fetch.bind fun place => internal_save place x
  · exact internal_fetch.bind fun _ => internal_get fun _ => internal_save _ x
  · exact internal_throw rfl

/-- A word that does not decode is the fault of the program. -/
theorem isProgram_of_decodeWord {word : Int} {f : Fault} (h : decodeWord word = .error f) :
    f.isProgram = true := by
  unfold decodeWord at h
  split at h
  · cases h
  · cases h
    rfl

theorem internal_decode : Internal decode := by
  refine internal_get fun m => (internal_load m.pc).bind fun word => ?_
  split
  · exact (internal_modify _).bind fun _ => internal_pure _
  · rename_i hword
    exact internal_throw (isProgram_of_decodeWord hword)

theorem internal_combine (i : Instruction) (f : Int → Int → Int) : Internal (combine i f) :=
  (internal_operand i.mode1).bind fun _ => (internal_operand i.mode2).bind fun _ =>
    (internal_store i.mode3 _).bind fun _ => internal_pure _

theorem internal_branch (i : Instruction) (taken : Int → Bool) : Internal (branch i taken) := by
  refine (internal_operand i.mode1).bind fun x => (internal_operand i.mode2).bind fun target => ?_
  cases taken x with
  | true =>
    exact (internal_address target).bind fun _ => (internal_modify _).bind fun _ => internal_pure _
  | false => exact internal_pure _

theorem internal_execute (i : Instruction) : Internal (execute i) := by
  unfold execute
  cases i.opcode with
  | add | multiply | lessThan | equal => exact internal_combine i _
  | jumpIfTrue | jumpIfFalse => exact internal_branch i _
  | input | halt => exact internal_pure _
  | output => exact (internal_operand i.mode1).bind fun _ => internal_pure _
  | adjustBase =>
    exact (internal_operand i.mode1).bind fun _ => internal_get fun _ =>
      (internal_address _).bind fun _ => (internal_modify _).bind fun _ => internal_pure _

end Exec

namespace Engine

variable {e e' : Engine} {f : Fault}

/-! ### Engines -/

/-- A fault of an action that is the machine's own. -/
theorem isProgram_act {α : Type} {action : Exec α} (hinternal : Exec.Internal action)
    (hact : e.act action = (.error f, e')) : f.isProgram = true := by
  rw [act_eq] at hact
  cases hrun : action e.machine with
  | ok x m => simp [hrun] at hact
  | error cause m =>
    simp only [hrun, Prod.mk.injEq, Except.error.injEq] at hact
    rw [← hact.1]
    exact hinternal _ _ _ hrun

/-- An engine that has been given its value meets none but its own faults. -/
theorem isProgram_accept (hrun : e.status = .running) {origin mode v : Int}
    (hfault : (e.accept origin mode v).fault? = some f) : f.isProgram = true := by
  have hstatus := status_act e (Exec.store mode v)
  unfold accept at hfault
  rcases hact : e.act (Exec.store mode v) with ⟨cause | x, next⟩
  · rw [hact] at hfault
    cases hfault
    exact isProgram_act (Exec.internal_store mode v) hact
  · rw [hact] at hfault hstatus
    have hnone : next.complete.fault? = none :=
      fault?_of_running ((status_act next Exec.complete).trans (hstatus.trans hrun))
    exact absurd (hnone.symm.trans hfault) nofun

/-- If the engine meets a fault in this move, it is one of these. -/
def Move.Meets (P : Fault → Prop) : Move → Prop
  | .act next => ∀ f, next.fault? = some f → P f
  | _ => True

/-- Among these are the faults of programs, and those of consoles if the input is one. -/
structure Admits (P : Fault → Prop) (source : Option ReceiverRef) : Prop where
  program : ∀ f, f.isProgram = true → P f
  console : source = none → ∀ (c : Console) f, c.read.1 = .error f → P f

section Meets

variable {P : Fault → Prop}

/-- A move without a fault. -/
theorem Move.meets_of_fault?_eq_none (hnone : e.fault? = none) : (Move.act e).Meets P := by
  intro f hfault
  rw [hnone] at hfault
  cases hfault

theorem meets_typed (hP : Admits P none) (hrun : e.status = .running) (origin mode : Int)
    (c : Console) : (Move.act (e.typed origin mode c.read)).Meets P := by
  rcases hread : c.read with ⟨cause | v, console⟩
  · rintro f ⟨⟩
    exact hP.console rfl c _ (congrArg Prod.fst hread)
  · intro f hfault
    exact hP.program f (isProgram_accept (e := { e with console }) hrun hfault)

theorem meets_printed (hP : ∀ f, f.isProgram = true → P f) (hrun : e.status = .running)
    (origin v : Int) (c : Console) : (Move.act (e.printed origin (c.print v))).Meets P := by
  unfold Console.print
  split
  · exact Move.meets_of_fault?_eq_none (fault?_of_running ((status_act _ _).trans hrun))
  · rintro f ⟨⟩
    exact hP _ rfl

theorem meets_pursue (hP : Admits P e.input) (hrun : e.status = .running) (origin : Int)
    (d : Demand) : (e.pursue origin d).Meets P := by
  cases d with
  | nothing =>
    exact Move.meets_of_fault?_eq_none (fault?_of_running ((status_act e _).trans hrun))
  | halt =>
    refine Move.meets_of_fault?_eq_none ?_
    have hstatus : (complete { e with status := .halted }).status = .halted := status_act _ _
    simp [fault?, hstatus]
  | input mode =>
    show (e.ask origin mode e.input).Meets P
    cases hin : e.input with
    | some receiver => exact Move.meets_of_fault?_eq_none (fault?_of_running hrun)
    | none =>
      rw [hin] at hP
      exact meets_typed hP hrun origin mode _
  | output v =>
    show (e.say origin v e.output).Meets P
    cases e.output with
    | some tx => trivial
    | none => exact meets_printed hP.program hrun origin v _

theorem meets_carryOn (hP : Admits P e.input) (hrun : e.status = .running) (origin : Int)
    {action : Exec Demand} (hinternal : Exec.Internal action) :
    (carryOn origin (e.act action)).Meets P := by
  have hstatus := status_act e action
  have hinput := input_act e action
  rcases hact : e.act action with ⟨cause | d, next⟩
  · intro f hfault
    cases hfault
    exact hP.program _ (isProgram_act hinternal hact)
  · rw [hact] at hstatus hinput
    exact meets_pursue (hinput ▸ hP) (hstatus.trans hrun) origin d

theorem meets_launch (hP : Admits P e.input) (hrun : e.status = .running) (origin : Int)
    {action : Exec Instruction} (hinternal : Exec.Internal action) :
    (launch origin (e.act action)).Meets P := by
  have hstatus := status_act e action
  have hinput := input_act e action
  rcases hact : e.act action with ⟨cause | i, next⟩
  · intro f hfault
    cases hfault
    exact hP.program _ (isProgram_act hinternal hact)
  · rw [hact] at hstatus hinput
    have hrun' := (status_record next origin i).trans (hstatus.trans hrun)
    have hinput' := (input_record next origin i).trans hinput
    exact meets_carryOn (hinput' ▸ hP) hrun' origin (Exec.internal_execute i)

/-- **What an engine does on its own** leads to faults of the program or its console only. -/
theorem meets_move (hP : Admits P e.input) : e.move.Meets P := by
  by_cases hrun : e.status = .running
  · cases hreq : e.request with
    | some r =>
      have hmove : e.move = .await r := by
        unfold move
        rw [hrun, hreq]
      rw [hmove]
      trivial
    | none =>
      rw [move_of_running hrun hreq]
      exact meets_launch (e := { e with started := true }) hP hrun _ Exec.internal_decode
  · rw [(move_eq_rest_iff e).2 ((isRunning_eq_false_iff e).2 hrun)]
    trivial

end Meets

/-- What is read at a console is no hang-up. -/
theorem isHangUp_read {c : Console} (hread : c.read.1 = .error f) : f.isHangUp = false := by
  have hline (line : List Char) (hvalue : lineValue line = .error f) : f.isHangUp = false := by
    unfold lineValue at hvalue
    dsimp only at hvalue
    split at hvalue
    · split at hvalue
      · cases hvalue
        rfl
      · cases hvalue
    · cases hvalue
      rfl
  unfold Console.read at hread
  dsimp only at hread
  split at hread
  · cases hread
    rfl
  · split at hread
    · cases hread
      rfl
    · exact hline _ hread

/-- **What an engine does on its own is no hang-up.** -/
theorem own_move (e : Engine) : e.move.Meets fun f => f.isHangUp = false :=
  meets_move ⟨fun _ => Fault.isHangUp_of_isProgram, fun _ _ _ => isHangUp_read⟩

/-- **An engine whose input is a channel** meets none but the faults of its program on its own. -/
theorem program_move {rx : ReceiverRef} (hin : e.input = some rx) :
    e.move.Meets fun f => f.isProgram = true :=
  meets_move ⟨fun _ hf => hf, fun hnone => absurd (hin.symm.trans hnone) nofun⟩

/-- **An engine that is heard is not told of a closed output.** -/
theorem Plugged.outputClosed_step {rx : ReceiverRef} {tx : SenderRef} {h : Hub}
    (hp : Plugged rx tx e) (hheard : h.listens tx = true)
    (hfault : e.fault? ≠ some .outputClosed) : (e.step h).1.fault? ≠ some .outputClosed := by
  have hexchange := exchange_step e h
  generalize e.taken? h = taken, e.sent? h = sent, e.step h = result at hexchange ⊢
  cases hexchange with
  | rest => exact hfault
  | silent hmove =>
    have hown := own_move e
    rw [hmove] at hown
    intro houtput
    exact absurd (hown _ houtput) nofun
  | waits hask =>
    rw [fault?_of_running ((isRunning_iff _).1 hask.isRunning_suspended)]
    exact nofun
  | @takes r woken v buffer hask =>
    intro houtput
    have hrun := (isRunning_iff _).1 hask.isRunning_suspended
    exact absurd (isProgram_accept (e := { woken with request := none }) hrun houtput) nofun
  | givesUp => exact nofun
  | @sends tx' origin v told hmove =>
    obtain ⟨_, _, hrun⟩ := respects_of_move hmove
    have hnone : told.complete.fault? = none :=
      fault?_of_running ((status_act told Exec.complete).trans hrun)
    show told.complete.fault? ≠ some .outputClosed
    rw [hnone]
    exact nofun
  | refused hmove hlistens =>
    obtain rfl := hp.sender hmove
    exact absurd (hheard.symm.trans hlistens) nofun

/-- **An engine between two channels** is stopped by a fault of its program or a hang-up. -/
theorem Plugged.known_step {rx : ReceiverRef} {tx : SenderRef} (hp : Plugged rx tx e) (h : Hub)
    (hknown : ∀ f, e.fault? = some f → f.isProgram = true ∨ f.isHangUp = true) :
    ∀ f, (e.step h).1.fault? = some f → f.isProgram = true ∨ f.isHangUp = true := by
  have hexchange := exchange_step e h
  generalize e.taken? h = taken, e.sent? h = sent, e.step h = result at hexchange ⊢
  cases hexchange with
  | rest => exact hknown
  | silent hmove =>
    have hprogram := program_move hp.input
    rw [hmove] at hprogram
    exact fun f hfault => .inl (hprogram f hfault)
  | waits hask =>
    rw [fault?_of_running ((isRunning_iff _).1 hask.isRunning_suspended)]
    exact nofun
  | @takes r woken v buffer hask =>
    have hrun := (isRunning_iff _).1 hask.isRunning_suspended
    exact fun f hfault =>
      .inl (isProgram_accept (e := { woken with request := none }) hrun hfault)
  | givesUp =>
    rintro f ⟨⟩
    exact .inr rfl
  | @sends tx' origin v told hmove =>
    obtain ⟨_, _, hrun⟩ := respects_of_move hmove
    have hnone : told.complete.fault? = none :=
      fault?_of_running ((status_act told Exec.complete).trans hrun)
    show ∀ f, told.complete.fault? = some f → _
    rw [hnone]
    exact nofun
  | refused =>
    rintro f ⟨⟩
    exact .inr rfl

/-- A run whose output is heard is never told of a closed one. -/
theorem Sealed.outputClosed_stepped {rx : ReceiverRef} {tx : SenderRef} {s : Engine × Hub}
    (hs : Sealed rx tx s) (hheard : s.2.listens tx = true)
    (hfault : s.1.fault? ≠ some .outputClosed) (k : Nat) :
    (Engine.stepped s k).1.fault? ≠ some .outputClosed := by
  induction k with
  | zero => exact hfault
  | succ k ih =>
    have hheard' : (Engine.stepped s k).2.listens tx = true := by
      rw [← hheard]
      exact Channel.listens_eq_of_ends (ends_stepped s k tx.channel) tx.handle
    exact (hs.stepped k).plugged.outputClosed_step hheard' ih

/-- And a run on sealed inputs has no other faults than those of its program and hang-ups. -/
theorem Sealed.known_stepped {rx : ReceiverRef} {tx : SenderRef} {s : Engine × Hub}
    (hs : Sealed rx tx s)
    (hknown : ∀ f, s.1.fault? = some f → f.isProgram = true ∨ f.isHangUp = true) (k : Nat) :
    ∀ f, (Engine.stepped s k).1.fault? = some f → f.isProgram = true ∨ f.isHangUp = true := by
  induction k with
  | zero => exact hknown
  | succ k ih => exact (hs.stepped k).plugged.known_step _ ih

end Engine

end Intcode
