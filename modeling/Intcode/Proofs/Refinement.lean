import Intcode.Proofs.Content
import Intcode.Proofs.Memory.Accesses
import Intcode.Proofs.Move
import Intcode.Proofs.Reference

namespace Intcode

open Reference

/-!
# Engines refine the reference machine

The memory of an engine may grow when it is read, so its actions are compared with the reference
machine on what they make of the configuration.

* `Exec.Yields`   — an action does what the reference machine says, words consumed included
* `Exec.operand_yields`, `Exec.store_yields`, `Exec.execute_yields` — one lemma for each action
* `Outcome.Describes` — a step of an engine with channels has a given outcome
* `step_describes_outcome` — every step has the outcome of the reference machine
-/

/-! ### Configurations of machines -/

/-- The cells are those of the addresses. -/
theorem Reference.cell_eq (words : Nat) (v : Int) :
    cell words v = match Address.ofInt? v with
      | some a => .ok a.index
      | none => .error ⟨words, (Offer.int v).refusal⟩ := by
  unfold cell
  cases h : Address.ofInt? v with
  | some a =>
    have hv : v = a.index := Address.ofInt?_eq_some_iff.1 h
    have hle := a.index_le
    rw [if_pos (by omega), hv]
    rfl
  | none =>
    have hv := Address.ofInt?_eq_none_iff.1 h
    have hout : ¬(0 ≤ v ∧ v ≤ maxAddress) := by omega
    rw [if_neg hout]
    split
    · rename_i hshort
      rw [Memory.refusal_of_writable (by rintro n ⟨⟩; exact hshort)]
    · rename_i hlong
      rw [Memory.refusal_of_overlong (Nat.not_le.1 hlong)]

/-- What has too many digits is refused without a name. -/
theorem Reference.cell_of_overlong (words : Nat) {v : Int}
    (hlong : digitLimit < Decimal.digitCount v) :
    cell words v = .error ⟨words, .overlong .written⟩ := by
  have hout : ¬(0 ≤ v ∧ v ≤ maxAddress) := by
    have hbeyond := Memory.out_of_overlong hlong
    omega
  rw [cell, if_neg hout, if_neg (Nat.not_le.2 hlong)]

namespace Machine

variable {m : Machine} {c : Config} {k : Nat}

/-- Reading leaves the configuration as it is. -/
theorem config_read (m : Machine) (a : Address) :
    config { m with memory := (m.memory.read a).2 } = m.config := by
  ext n
  · exact Memory.lookup_read m.memory a n
  · rfl
  · rfl

/-- Writing gives one cell a value. -/
theorem config_write (m : Machine) (a : Address) (x : Int) :
    config { m with memory := m.memory.write a x } =
      { m.config with cells := Function.update m.config.cells a.index x } := by
  ext n
  · show (m.memory.write a x).lookup n = Function.update m.memory.lookup a.index x n
    rw [Memory.lookup_write, Function.update_apply]
  · rfl
  · rfl

/-- Every machine may be in the middle of an instruction. -/
theorem exists_config_eq_after (m : Machine) (k : Nat) : ∃ c : Config, m.config = c.after k := by
  refine ⟨{ m.config with pc := m.pc - k }, ?_⟩
  show Config.mk _ m.pc _ = Config.mk _ (m.pc - k + k) _
  rw [Int.sub_add_cancel]
  rfl

/-- Moving the program counter, seen from the start of the instruction. -/
theorem config_jump (hm : m.config = c.after k) (pc : Int) :
    config { m with pc } = { c with pc } := by
  have hcells : m.memory.lookup = c.cells := congrArg Config.cells hm
  have hbase : m.base = c.base := congrArg Config.base hm
  show Config.mk m.memory.lookup pc m.base = _
  rw [hcells, hbase]

/-- Moving the relative base, seen from the start of the instruction. -/
theorem config_rebase (hm : m.config = c.after k) (base : Int) :
    config { m with base } = { c.after k with base } := by
  rw [← hm]
  rfl

end Machine

/-! ### Actions with a specification -/

/-- An action that begins when `k` words of the instruction at `c` have been consumed either stops
    where `spec` does, or it leaves the result and the configuration that `post` tells. -/
def Exec.Yields {α β : Type} (action : Exec α) (c : Config) (k : Nat) (spec : Except Stop β)
    (post : β → α × Config) : Prop :=
  ∀ m : Machine, m.config = c.after k →
    match spec with
    | .ok b => ∃ m', action m = .ok (post b).1 m' ∧ m'.config = (post b).2 ∧ m'.steps = m.steps
    | .error s =>
      ∃ m', action m = .error s.cause m' ∧ m'.config = c.after s.words ∧ m'.steps = m.steps

namespace Exec

variable {α β γ δ : Type} {c : Config} {k k' : Nat}

theorem pure_yields (x : α) : (pure x : Exec α).Yields c k (.ok ()) fun _ => (x, c.after k) :=
  fun m hm => ⟨m, rfl, hm, rfl⟩

/-- An action that gives a value, followed by one that uses it. -/
theorem Yields.bind {a : Exec α} {f : α → Exec γ} {A : Except Stop α} {F : α → Except Stop δ}
    {post : δ → γ × Config} (ha : a.Yields c k A fun x => (x, c.after k'))
    (hf : ∀ x, (f x).Yields c k' (F x) post) : Exec.Yields (a >>= f) c k (A >>= F) post := by
  intro m hm
  have hfirst := ha m hm
  cases A with
  | error s =>
    -- the second action is not reached
    obtain ⟨m', hrun, hm'⟩ := hfirst
    refine ⟨m', ?_, hm'⟩
    show EStateM.bind a f m = _
    simp only [EStateM.bind, hrun]
  | ok x =>
    obtain ⟨m₁, hrun, hconfig, hsteps⟩ := hfirst
    -- the second begins in the configuration the first has left
    have hsecond := hf x m₁ hconfig
    have hbind : (a >>= f) m = f x m₁ := by
      show EStateM.bind a f m = _
      simp only [EStateM.bind, hrun]
    rw [hsteps] at hsecond
    rw [hbind]
    exact hsecond

/-- An action whose result is replaced. -/
theorem Yields.result {a : Exec α} {A : Except Stop β} {post : β → α × Config}
    (ha : a.Yields c k A post) (x : γ) {f : β → δ} {post' : δ → γ × Config}
    (hpost : ∀ b, post' (f b) = (x, (post b).2)) :
    Exec.Yields (a >>= fun _ => pure x) c k (A >>= fun b => pure (f b)) post' := by
  intro m hm
  have hrun := ha m hm
  cases A with
  | error s =>
    obtain ⟨m', hrun, hm'⟩ := hrun
    refine ⟨m', ?_, hm'⟩
    show EStateM.bind a _ m = _
    simp only [EStateM.bind, hrun]
  | ok b =>
    obtain ⟨m', hrun, hconfig, hsteps⟩ := hrun
    refine ⟨m', ?_, ?_, hsteps⟩
    · show EStateM.bind a _ m = .ok (post' (f b)).1 m'
      rw [hpost]
      simp only [EStateM.bind, hrun]
      rfl
    · rw [hconfig, hpost]

/-- An action that looks at the machine first. -/
theorem Yields.get {f : Machine → Exec α} {spec : Except Stop β} {post : β → α × Config}
    (hf : ∀ m, m.config = c.after k → (f m).Yields c k spec post) :
    Exec.Yields (MonadState.get >>= f) c k spec post :=
  fun m hm => hf m hm m hm

/-- An action that stops at once. -/
theorem Yields.throw {s : Stop} {post : β → α × Config} (hk : s.words = k) :
    Exec.Yields (throw s.cause) c k (.error s) post := by
  intro m hm
  exact ⟨m, rfl, by rw [hm, hk], rfl⟩

/-- An action that needs an address first. -/
theorem Yields.address {f : Address → Exec α} {g : Nat → β} {post : β → α × Config} (v : Int)
    (hf : ∀ a : Address, (f a).Yields c k (.ok (g a.index)) post) :
    Exec.Yields (Exec.address v >>= f) c k ((cell k v).map g) post := by
  intro m hm
  have hbind : (Exec.address v >>= f) m = match Address.ofInt? v with
      | some a => f a m
      | none => .error (Offer.int v).refusal m := by
    show EStateM.bind (Exec.address v) f m = _
    unfold Exec.address EStateM.bind
    cases Address.ofInt? v <;> rfl
  rw [hbind, cell_eq]
  cases Address.ofInt? v with
  | none => exact ⟨m, rfl, hm, rfl⟩
  | some a => exact hf a m hm

/-! ### Parameters -/

theorem load_yields (v : Int) :
    (load v).Yields c k ((cell k v).map c.cells) fun x => (x, c.after k) := by
  refine Yields.address v fun a m hm => ?_
  have hcell : (m.memory.read a).1 = c.cells a.index := by
    rw [Memory.read_fst]
    exact congrFun (congrArg Config.cells hm) a.index
  refine ⟨{ m with memory := (m.memory.read a).2 }, ?_, ?_, rfl⟩
  · exact congrArg (EStateM.Result.ok · _) hcell
  · rw [Machine.config_read]
    exact hm

theorem save_yields (v x : Int) :
    (save v x).Yields c k (cell k v) fun d =>
      ((), { c.after k with cells := Function.update c.cells d x }) := by
  -- the cell itself is the result, so nothing is mapped
  rw [show cell k v = (cell k v).map id by cases cell k v <;> rfl]
  refine Yields.address v fun a m hm => ?_
  refine ⟨{ m with memory := m.memory.write a x }, rfl, ?_, rfl⟩
  rw [Machine.config_write, hm]
  rfl

theorem fetch_yields : fetch.Yields c k (word c k) fun w => (w, c.after (k + 1)) := by
  refine Yields.get fun m hm => ?_
  have hpc : m.pc = c.pc + k := congrArg Config.pc hm
  rw [← bind_pure (word c k), hpc]
  refine (load_yields (c.pc + k)).bind fun w m₁ hm₁ => ?_
  refine ⟨{ m₁ with pc := c.pc + k + 1 }, rfl, ?_, rfl⟩
  rw [Machine.config_jump hm₁]
  show Config.mk c.cells (c.pc + k + 1) c.base = Config.mk c.cells (c.pc + (k + 1 : Nat)) c.base
  rw [Int.natCast_add, ← Int.add_assoc]
  rfl

/-- The cell a parameter points to is found in two steps. -/
theorem map_target (c : Config) (k : Nat) (origin : Int) (f : Nat → β) :
    (target c k origin).map f = word c k >>= fun w => (cell (k + 1) (origin + w)).map f := by
  unfold target
  cases word c k <;> rfl

theorem operand_yields (digit : Int) :
    (operand digit).Yields c k (Reference.operand c k digit) fun x => (x, c.after (k + 1)) := by
  unfold operand Reference.operand
  cases h : Mode.ofDigit? digit with
  | none => exact Yields.throw (s := ⟨k, .unrecognizedMode digit⟩) rfl
  | some mode =>
    cases mode with
    | position =>
      rw [map_target c k 0]
      refine fetch_yields.bind fun w => ?_
      rw [Int.zero_add]
      exact load_yields w
    | immediate => exact fetch_yields
    | relative =>
      rw [map_target c k c.base]
      refine fetch_yields.bind fun w => Yields.get fun m hm => ?_
      rw [show m.base = c.base from congrArg Config.base hm]
      exact load_yields (c.base + w)

theorem store_yields (digit x : Int) :
    (store digit x).Yields c k (destination c k digit) fun d =>
      ((), { c.after (k + 1) with cells := Function.update c.cells d x }) := by
  unfold store destination
  cases h : Mode.ofDigit? digit with
  | none => exact Yields.throw (s := ⟨k, .unrecognizedMode digit⟩) rfl
  | some mode =>
    cases mode with
    | position =>
      refine fetch_yields.bind fun w => ?_
      rw [Int.zero_add]
      exact save_yields w x
    | immediate => exact Yields.throw (s := ⟨k, .unrecognizedMode digit⟩) rfl
    | relative =>
      refine fetch_yields.bind fun w => Yields.get fun m hm => ?_
      rw [show m.base = c.base from congrArg Config.base hm]
      exact save_yields (c.base + w) x

/-! ### Instructions -/

theorem decode_yields : decode.Yields c 0 (Reference.fetch c) fun i => (i, c.after 1) := by
  refine Yields.get fun m hm => ?_
  have hpc : m.pc = c.pc + (0 : Nat) := congrArg Config.pc hm
  rw [hpc]
  refine (load_yields (c.pc + (0 : Nat))).bind fun w => ?_
  cases hword : decodeWord w with
  | error f => exact Yields.throw (s := ⟨0, f⟩) rfl
  | ok i =>
    intro m₁ hm₁
    refine ⟨{ m₁ with pc := c.pc + (0 : Nat) + 1 }, rfl, ?_, rfl⟩
    rw [Machine.config_jump hm₁]
    show Config.mk c.cells (c.pc + 0 + 1) c.base = Config.mk c.cells (c.pc + 1) c.base
    rw [Int.add_zero]

theorem combine_yields (i : Instruction) (f : Int → Int → Int) :
    (combine i f).Yields c 1 (Reference.combine c i f) fun ch => (.nothing, ch.apply c 4) := by
  refine (operand_yields i.mode1).bind fun x => ?_
  refine (operand_yields i.mode2).bind fun y => ?_
  exact (store_yields i.mode3 (f x y)).result Demand.nothing fun d => rfl

theorem branch_yields (i : Instruction) (taken : Int → Bool) :
    (branch i taken).Yields c 1 (Reference.branch c i taken) fun ch =>
      (.nothing, ch.apply c 3) := by
  refine (operand_yields i.mode1).bind fun x => ?_
  refine (operand_yields i.mode2).bind fun v => ?_
  cases taken x with
  | true =>
    refine Yields.address (g := fun n : Nat => Change.goto n) v fun a m hm => ?_
    exact ⟨{ m with pc := a.toInt }, rfl, Machine.config_jump hm a.toInt, rfl⟩
  | false =>
    intro m hm
    exact ⟨m, rfl, hm, rfl⟩

/-- An input instruction resolves nothing before it has its value. -/
theorem execute_input {i : Instruction} (hop : i.opcode = .input) :
    execute i = pure (.input i.mode1) := by
  unfold execute
  rw [hop]

theorem execute_halt {i : Instruction} (hop : i.opcode = .halt) : execute i = pure .halt := by
  unfold execute
  rw [hop]

/-- What an instruction does that needs no exchange. -/
theorem execute_yields (i : Instruction) (hin : i.opcode ≠ .input) (hout : i.opcode ≠ .output)
    (hhalt : i.opcode ≠ .halt) :
    (execute i).Yields c 1 (change c i) fun ch =>
      (.nothing, ch.apply c (1 + i.opcode.arity)) := by
  unfold execute change
  cases h : i.opcode with
  | input => exact absurd h hin
  | output => exact absurd h hout
  | halt => exact absurd h hhalt
  | add => exact combine_yields i _
  | multiply => exact combine_yields i _
  | lessThan => exact combine_yields i _
  | equal => exact combine_yields i _
  | jumpIfTrue => exact branch_yields i _
  | jumpIfFalse => exact branch_yields i _
  | adjustBase =>
    refine (operand_yields i.mode1).bind fun offset => Yields.get fun m hm => ?_
    rw [show m.base = c.base from congrArg Config.base hm]
    refine Yields.address (g := fun n : Nat => Change.rebase n) (c.base + offset) fun a m₁ hm₁ => ?_
    exact ⟨{ m₁ with base := a.toInt }, rfl, Machine.config_rebase hm₁ a.toInt, rfl⟩

/-- An output instruction resolves its operand. -/
theorem output_yields {i : Instruction} (hop : i.opcode = .output) :
    (execute i).Yields c 1 (Reference.operand c 1 i.mode1) fun v => (.output v, c.after 2) := by
  unfold execute
  rw [hop, ← bind_pure (Reference.operand c 1 i.mode1)]
  exact (operand_yields i.mode1).bind fun v m hm => ⟨m, rfl, hm, rfl⟩

/-- Every instruction does what the configuration tells. -/
theorem exists_execute_yields (i : Instruction) :
    ∃ (β : Type) (spec : Config → Except Stop β) (post : Config → β → Demand × Config),
      ∀ c, (execute i).Yields c 1 (spec c) (post c) := by
  by_cases hin : i.opcode = .input
  · rw [execute_input hin]
    exact ⟨_, _, _, fun c => pure_yields _⟩
  by_cases hout : i.opcode = .output
  · exact ⟨_, _, _, fun c => output_yields hout⟩
  by_cases hhalt : i.opcode = .halt
  · rw [execute_halt hhalt]
    exact ⟨_, _, _, fun c => pure_yields _⟩
  · exact ⟨_, _, _, fun c => execute_yields i hin hout hhalt⟩

end Exec

/-! ### Engines -/

/-- An engine is left as an outcome says. -/
structure Outcome.Leaves (o : Outcome) (e after : Engine) : Prop where
  config : after.machine.config = o.config
  status : after.status = o.status
  steps : after.machine.steps = e.machine.steps + o.steps
  ports : after.ports = e.ports

/-- A step of an engine between two channels has an outcome: the engine is left as the outcome says,
    one value has left the one channel or one has joined the other, and nothing else has changed. -/
structure Outcome.Describes (o : Outcome) (rx : ReceiverRef) (tx : SenderRef) (e : Engine) (h : Hub)
    (after : Engine × Hub) : Prop where
  engine : o.Leaves e after.1
  content : ∀ n, after.2.content n =
    (if o.taken = true ∧ n = rx.channel then (h.content n).tail else h.content n) ++
      (if n = tx.channel then o.emitted.toList else [])
  ends : ∀ n, after.2.ends n = h.ends n

namespace Outcome

variable {o : Outcome} {e e' : Engine} {h : Hub} {rx : ReceiverRef} {tx : SenderRef}

/-- A step without an exchange. -/
theorem Leaves.quiet (hleaves : o.Leaves e e') (htaken : o.taken = false)
    (hemitted : o.emitted = none) : o.Describes rx tx e h (e', h) where
  engine := hleaves
  content n := by simp [htaken, hemitted]
  ends _ := rfl

/-- A move without an exchange. -/
theorem Leaves.settled (hleaves : o.Leaves e e') (hreq : e.request = none) (e₀ : Engine)
    (htaken : o.taken = false) (hemitted : o.emitted = none) :
    o.Describes rx tx e h ((Engine.Move.act e').settle h e₀) := by
  rw [Engine.Move.settle_act_of_ports hreq hleaves.ports]
  exact hleaves.quiet htaken hemitted

/-- The value at the front of the input is taken. -/
theorem Leaves.taking {v : Int} {buffer : Fifo Int} (hleaves : o.Leaves e e')
    (hcontent : h.content rx.channel = v :: buffer.toList) (hlt : rx.channel < h.channels.size)
    (htaken : o.taken = true) (hemitted : o.emitted = none) :
    o.Describes rx tx e h (e', h.refill rx.channel buffer) where
  engine := hleaves
  content n := by
    rw [Hub.content_refill hlt, htaken, hemitted]
    by_cases hn : n = rx.channel
    · simp [hn, hcontent]
    · simp [hn]
  ends n := Hub.ends_refill hlt buffer n

/-- A value joins the output. -/
theorem Leaves.emitting {v : Int} (hleaves : o.Leaves e e') (hlt : tx.channel < h.channels.size)
    (htaken : o.taken = false) (hemitted : o.emitted = some v) :
    o.Describes rx tx e h
      (e', h.refill tx.channel ((h.channel tx.channel).buffer.push v)) where
  engine := hleaves
  content n := by
    rw [Hub.content_refill hlt, htaken, hemitted, Fifo.toList_push]
    by_cases hn : n = tx.channel
    · simp [hn, Hub.content, Channel.content]
    · simp [hn]
  ends n := Hub.ends_refill hlt _ n

end Outcome

namespace Engine

variable {e e' : Engine} {h : Hub} {c : Config} {rx : ReceiverRef} {tx : SenderRef}

/-- `e'` is `e` in the middle of the instruction at `c`, some words of it consumed. -/
structure Midway (e e' : Engine) (c : Config) (words : Nat) : Prop where
  config : e'.machine.config = c.after words
  steps : e'.machine.steps = e.machine.steps
  ports : e'.ports = e.ports
  running : e'.status = .running

namespace Midway

/-- The instruction stops at a fault. -/
theorem leaves_fail {words : Nat} {s : Stop} {m : Machine} (hmid : Midway e e' c words)
    (hm : m.config = c.after s.words ∧ m.steps = e'.machine.steps) (taken : Bool) :
    (stopped c taken s).Leaves e ({ e' with machine := m }.fail c.pc s.cause) where
  config := hm.1
  status := rfl
  steps := hm.2.trans hmid.steps
  ports := hmid.ports

/-- The instruction is completed. -/
theorem leaves_complete {words : Nat} {i : Instruction} {eff : Effect} {m : Machine}
    (hmid : Midway e e' c words) (hrun : eff.status = .running)
    (hm : m.config = eff.toChange.apply c (1 + i.opcode.arity) ∧ m.steps = e'.machine.steps)
    (taken : Bool) : (completed c taken i eff).Leaves e { e' with machine := m }.complete where
  config := hm.1
  status := hmid.running.trans hrun.symm
  steps := congrArg (· + 1) (hm.2.trans hmid.steps)
  ports := hmid.ports

/-- An input instruction with its value. -/
theorem leaves_accept {i : Instruction} (hmid : Midway e e' c 1) (hop : i.opcode = .input)
    (v : Int) :
    match destination c 1 i.mode1 with
    | .error s => (stopped c true s).Leaves e (e'.accept c.pc i.mode1 v)
    | .ok d =>
      (completed c true i (.change (.assign d v))).Leaves e (e'.accept c.pc i.mode1 v) := by
  -- the destination is resolved when the value has been taken already
  have hstore := Exec.store_yields (c := c) (k := 1) i.mode1 v e'.machine hmid.config
  unfold accept
  rw [act_eq]
  cases hd : destination c 1 i.mode1 with
  | error s =>
    rw [hd] at hstore
    obtain ⟨m, hrun, hm⟩ := hstore
    rw [hrun]
    exact hmid.leaves_fail hm true
  | ok d =>
    rw [hd] at hstore
    obtain ⟨m, hrun, hm⟩ := hstore
    rw [hrun]
    refine hmid.leaves_complete rfl ?_ true
    rw [hop]
    exact hm

end Midway

/-! ### Instructions that exchange something -/

theorem concluded_input {i : Instruction} (hop : i.opcode = .input) (v : Int) (listening : Bool) :
    concluded c (some v) listening i = match destination c 1 i.mode1 with
      | .error s => stopped c true s
      | .ok d => completed c true i (.change (.assign d v)) := by
  have htakes : takes i (some v) = true := by
    unfold takes
    rw [hop]
    rfl
  unfold concluded effect
  rw [hop, htakes]
  cases destination c 1 i.mode1 <;> rfl

theorem concluded_input_none {i : Instruction} (hop : i.opcode = .input) (listening : Bool) :
    concluded c none listening i = stopped c false ⟨1, .inputClosed⟩ := by
  have htakes : takes i none = false := Bool.and_false _
  unfold concluded effect
  rw [hop, htakes]

theorem concluded_output {i : Instruction} (hop : i.opcode = .output) (next : Option Int)
    (listening : Bool) :
    concluded c next listening i = match operand c 1 i.mode1 with
      | .error s => stopped c false s
      | .ok v =>
        if listening then completed c false i (.emit v)
        else stopped c false ⟨2, .outputClosed⟩ := by
  have htakes : takes i next = false := by
    unfold takes
    rw [hop]
    rfl
  unfold concluded effect
  rw [hop, htakes]
  cases operand c 1 i.mode1 with
  | error s => rfl
  | ok v => cases listening <;> rfl

/-- An input instruction between channels. -/
theorem describes_input {i : Instruction} (hmid : Midway e e' c 1) (hreq : e.request = none)
    (hready : h.isReady rx = true) (hop : i.opcode = .input) (listening : Bool) :
    (concluded c (h.incoming? rx) listening i).Describes rx tx e h
      (e'.receive h ⟨i.mode1, rx, c.pc⟩) := by
  -- the engine was not suspended, so taking the request away changes nothing
  have hresumed : Midway e { e' with request := none } c 1 := by
    refine ⟨hmid.config, hmid.steps, ?_, hmid.running⟩
    rw [← hmid.ports]
    have hreq' : e'.request = none := (congrArg Prod.fst hmid.ports).trans hreq
    unfold Engine.ports
    rw [hreq']
  unfold receive
  rcases h.recv_cases rx with
    ⟨v, buffer, hopen, hcontent, hrecv⟩ | ⟨_, hclosed, hrecv⟩ | ⟨_, _, _, hrecv⟩
  · have hnext : h.incoming? rx = some v := by
      unfold Hub.incoming?
      rw [if_pos hopen, hcontent]
      rfl
    have hlt := Hub.lt_size_of_receiverOpen hopen
    have haccept := hresumed.leaves_accept hop v
    rw [hrecv, hnext, concluded_input hop]
    cases hd : destination c 1 i.mode1 with
    | error s =>
      rw [hd] at haccept
      exact haccept.taking hcontent hlt rfl rfl
    | ok d =>
      rw [hd] at haccept
      exact haccept.taking hcontent hlt rfl rfl
  · have hnext : h.incoming? rx = none := by
      unfold Hub.incoming?
      rcases hclosed with hclosed | ⟨hempty, _⟩
      · rw [hclosed]
        rfl
      · rw [hempty]
        exact ite_self _
    rw [hrecv, hnext, concluded_input_none hop]
    exact (hresumed.leaves_fail (m := e'.machine) ⟨hmid.config, rfl⟩ false).quiet rfl rfl
  · -- it would have to wait, but it is ready
    exact absurd hrecv ((h.isReady_iff rx).1 hready)

/-- An output instruction, once its operand is resolved. -/
theorem describes_output {i : Instruction} (hmid : Midway e e' c 2) (hop : i.opcode = .output)
    (v : Int) (hout : e'.output = some tx) (e₀ : Engine) :
    (if h.listens tx then completed c false i (.emit v)
      else stopped c false ⟨2, .outputClosed⟩).Describes rx tx e h
        ((e'.say c.pc v e'.output).settle h e₀) := by
  rw [hout]
  show Outcome.Describes _ rx tx e h (e'.emit h c.pc v)
  unfold emit
  rw [hout]
  rcases h.send_cases tx v with ⟨hlistens, hlt, hsend⟩ | ⟨hlistens, error, hsend⟩
  · rw [if_pos hlistens]
    dsimp only
    rw [hsend]
    refine (hmid.leaves_complete (m := e'.machine) rfl ?_ false).emitting hlt rfl rfl
    rw [hop]
    exact ⟨hmid.config, rfl⟩
  · rw [if_neg (ne_true_of_eq_false hlistens)]
    dsimp only
    rw [hsend]
    exact (hmid.leaves_fail (m := e'.machine) ⟨hmid.config, rfl⟩ false).quiet rfl rfl

/-- The effect of an instruction that exchanges nothing and does not halt. -/
theorem effect_change {i : Instruction} (hin : i.opcode ≠ .input) (hout : i.opcode ≠ .output)
    (hhalt : i.opcode ≠ .halt) (next : Option Int) (listening : Bool) :
    effect c next listening i = (change c i).map .change := by
  unfold effect
  cases hop : i.opcode with
  | input => exact absurd hop hin
  | output => exact absurd hop hout
  | halt => exact absurd hop hhalt
  | _ => rfl

/-- An instruction that exchanges nothing and does not halt. -/
theorem concluded_change {i : Instruction} (hin : i.opcode ≠ .input) (hout : i.opcode ≠ .output)
    (hhalt : i.opcode ≠ .halt) (next : Option Int) (listening : Bool) :
    concluded c next listening i = match change c i with
      | .error s => stopped c false s
      | .ok ch => completed c false i (.change ch) := by
  have htakes : takes i next = false := by
    unfold takes
    rw [beq_eq_false_iff_ne.2 hin]
    rfl
  unfold concluded
  rw [effect_change hin hout hhalt, htakes]
  cases change c i <;> rfl

theorem concluded_halt {i : Instruction} (hop : i.opcode = .halt) (next : Option Int)
    (listening : Bool) : concluded c next listening i = completed c false i .halt := by
  have htakes : takes i next = false := by
    unfold takes
    rw [hop]
    rfl
  unfold concluded effect
  rw [hop, htakes]
  rfl

/-- A decoded instruction is carried out as the reference machine does it. -/
theorem describes_carryOn (hmid : Midway e e' c 1) (hports : e.ports = (none, some rx, some tx))
    (hready : h.isReady rx = true) (i : Instruction) (e₀ : Engine) :
    (concluded c (h.incoming? rx) (h.listens tx) i).Describes rx tx e h
      ((carryOn c.pc (e'.act (Exec.execute i))).settle h e₀) := by
  have hreq : e.request = none := congrArg Prod.fst hports
  have hin' : e'.input = some rx := congrArg (·.2.1) (hmid.ports.trans hports)
  have hout' : e'.output = some tx := congrArg (·.2.2) (hmid.ports.trans hports)
  rw [act_eq]
  by_cases hinput : i.opcode = .input
  · -- nothing is resolved before the value is there
    rw [Exec.execute_input hinput]
    show (concluded c _ _ i).Describes rx tx e h ((e'.ask c.pc i.mode1 e'.input).settle h e₀)
    rw [hin']
    exact describes_input hmid hreq hready hinput _
  by_cases houtput : i.opcode = .output
  · -- the operand comes first, then the question whether somebody listens
    have hrun := Exec.output_yields houtput e'.machine hmid.config
    rw [concluded_output houtput]
    cases hoperand : operand c 1 i.mode1 with
    | error s =>
      rw [hoperand] at hrun
      obtain ⟨m, hrun, hm⟩ := hrun
      rw [hrun]
      exact (hmid.leaves_fail hm false).settled hreq e₀ rfl rfl
    | ok v =>
      rw [hoperand] at hrun
      obtain ⟨m, hrun, hconfig, hsteps⟩ := hrun
      rw [hrun]
      have hmid₂ : Midway e { e' with machine := m } c 2 :=
        ⟨hconfig, hsteps.trans hmid.steps, hmid.ports, hmid.running⟩
      exact describes_output hmid₂ houtput v hout' e₀
  by_cases hhalt : i.opcode = .halt
  · rw [Exec.execute_halt hhalt, concluded_halt hhalt]
    refine Outcome.Leaves.settled ⟨?_, rfl, ?_, ?_⟩ hreq e₀ rfl rfl
    · show e'.machine.config = Change.nothing.apply c (1 + i.opcode.arity)
      rw [hhalt]
      exact hmid.config
    · exact congrArg (· + 1) hmid.steps
    · exact hmid.ports
  · -- all other instructions are the machine's own
    have hrun := Exec.execute_yields i hinput houtput hhalt e'.machine hmid.config
    rw [concluded_change hinput houtput hhalt]
    cases hchange : change c i with
    | error s =>
      rw [hchange] at hrun
      obtain ⟨m, hrun, hm⟩ := hrun
      rw [hrun]
      exact (hmid.leaves_fail hm false).settled hreq e₀ rfl rfl
    | ok ch =>
      rw [hchange] at hrun
      obtain ⟨m, hrun, hm⟩ := hrun
      rw [hrun]
      exact (hmid.leaves_complete rfl hm false).settled hreq e₀ rfl rfl

/-! ### The refinement -/

/-- An attempted instruction has the outcome of the reference machine. -/
theorem describes_launch (hports : e.ports = (none, some rx, some tx)) (hrun : e.status = .running)
    (hready : h.isReady rx = true) :
    (Reference.step e.machine.config (h.incoming? rx) (h.listens tx)).Describes rx tx e h
      ((launch e.machine.pc ({ e with started := true }.act Exec.decode)).settle h e) := by
  have hreq : e.request = none := congrArg Prod.fst hports
  -- no word of the instruction has been consumed yet
  have hdecode := Exec.decode_yields e.machine (Config.after_zero _).symm
  rw [act_eq]
  unfold Reference.step
  cases hfetch : Reference.fetch e.machine.config with
  | error s =>
    rw [hfetch] at hdecode
    obtain ⟨m, hdecode, hconfig, hsteps⟩ := hdecode
    dsimp only
    rw [hdecode]
    refine Outcome.Leaves.settled ?_ hreq e rfl rfl
    exact ⟨hconfig, rfl, hsteps, rfl⟩
  | ok i =>
    rw [hfetch] at hdecode
    obtain ⟨m, hdecode, hconfig, hsteps⟩ := hdecode
    dsimp only
    rw [hdecode]
    -- recording the instruction changes neither the machine nor the ends
    refine describes_carryOn ⟨?_, ?_, ?_, ?_⟩ hports hready i e
    · rw [machine_record]
      exact hconfig
    · rw [machine_record]
      exact hsteps
    · rw [ports_record]
      rfl
    · rw [status_record]
      exact hrun

/-- An output instruction is stopped by the refusal of its address. -/
theorem status_step_of_refused {v : Int} {stop : Stop}
    (hports : e.ports = (none, some rx, some tx)) (hrun : e.status = .running)
    (hready : h.isReady rx = true)
    (hfetch : Reference.fetch e.machine.config = .ok ⟨.output, 0, 0, 0⟩)
    (hword : word e.machine.config 1 = .ok v) (hcell : cell 2 v = .error stop) :
    (e.step h).1.status = .faulted stop.cause e.machine.pc := by
  have hoperand : operand e.machine.config 1 0 = .error stop := by
    show (target e.machine.config 1 0).map e.machine.config.cells = _
    rw [Exec.map_target, hword]
    show (cell 2 (0 + v)).map e.machine.config.cells = _
    rw [Int.zero_add, hcell]
    rfl
  rw [step_eq, move_of_running hrun (congrArg Prod.fst hports),
    (describes_launch hports hrun hready).engine.status, Reference.step, hfetch]
  dsimp only
  rw [concluded_output rfl, hoperand]
  rfl

/-- Emits the value at an address. -/
def reader (v : Int) : Engine := (ofCells [4, v, 99] false {}).wired ⟨0⟩ ⟨1, 0⟩

end Engine

end Intcode
