import Intcode.Proofs.Aftermath
import Intcode.Proofs.Calls

namespace Intcode

open Reference

/-!
# Registers in range

The program counter moves word by word without being looked at, and what a program jumps to or adds
to the relative base may be any integer.  All the same the relative base is always an address, and
the program counter is one or stands right behind the last one: a word that has been fetched was at
an address, and a target that is taken has to be one.

* `Config.Holds`             — the words of an instruction that are at addresses
* `Reference.Covers`         — what has been fetched when the reference machine stops or goes on
* `Engine.Resumed`, `Engine.Attempted` — the ways a step can go, with the words it fetches
* `Engine.resumed_step`, `Engine.attempted_step` — every step is one of them
* `Engine.registers_in_range` — the registers of every engine, and the words of every step
-/

/-- This integer is an address. -/
def Addressable (v : Int) : Prop := 0 ≤ v ∧ v ≤ maxAddress

theorem ofInt?_of_not_addressable {v : Int} (hv : ¬ Addressable v) : Address.ofInt? v = none := by
  rw [Address.ofInt?_eq_none_iff]
  unfold Addressable at hv
  omega

/-- The first so many words of the instruction at `c` are at addresses. -/
def Config.Holds (c : Config) (words : Nat) : Prop := ∀ k < words, Addressable (c.pc + k)

/-- The relative base is an address, and the program counter is one or right behind the last. -/
structure Machine.InRange (m : Machine) : Prop where
  base : Addressable m.base
  pc : 0 ≤ m.pc ∧ m.pc ≤ maxAddress + 1

/-- The register that a change sets gets an address. -/
def Change.InRange : Change → Prop
  | .goto pc => Addressable pc
  | .rebase base => Addressable base
  | _ => True

namespace Config

variable {c : Config} {k : Nat}

theorem holds_zero (c : Config) : c.Holds 0 := nofun

theorem Holds.succ (hholds : c.Holds k) (hnext : Addressable (c.pc + k)) : c.Holds (k + 1) := by
  intro j hj
  rcases Nat.lt_succ_iff_lt_or_eq.1 hj with hlt | rfl
  · exact hholds j hlt
  · exact hnext

/-- The words of an instruction, seen from behind its opcode word. -/
theorem Holds.one_add {m : Machine} (hholds : c.Holds 1) (hm : m.config = c.after 1)
    (hrest : m.config.Holds k) : c.Holds (1 + k) := by
  intro j hj
  rcases Nat.eq_zero_or_pos j with rfl | hpos
  · exact hholds 0 Nat.one_pos
  · -- word `j` of the instruction is word `j - 1` behind its opcode word
    have hplace := hrest (j - 1) (by omega)
    rw [hm, show (c.after 1).pc + ((j - 1 : Nat) : Int) = c.pc + j by
      show c.pc + (1 : Nat) + ((j - 1 : Nat) : Int) = c.pc + j
      omega] at hplace
    exact hplace

/-- What has been fetched leaves the program counter in range. -/
theorem Holds.pc_add_le (hholds : c.Holds k) (hpc : 0 ≤ c.pc ∧ c.pc ≤ maxAddress + 1) :
    0 ≤ c.pc + k ∧ c.pc + k ≤ maxAddress + 1 := by
  cases k with
  | zero => simpa using hpc
  | succ k =>
    obtain ⟨hlow, hhigh⟩ := hholds k k.lt_succ_self
    omega

end Config

/-! ### The reference machine -/

namespace Reference

variable {β γ : Type} {c : Config} {k k' k'' : Nat} {P : β → Prop} {Q : γ → Prop}

/-- Begun when the first `k` words of the instruction have been fetched, this stops after words that
    were all at addresses, or it succeeds when the first `k'` have been, all of them at addresses
    too, with a result of which `P` holds. -/
def Covers (c : Config) (k k' : Nat) (spec : Except Stop β) (P : β → Prop) : Prop :=
  c.Holds k → match spec with
    | .ok x => c.Holds k' ∧ P x
    | .error s => c.Holds s.words

theorem covers_ok {x : β} (hx : P x) : Covers c k k (.ok x) P := fun hholds => ⟨hholds, hx⟩

theorem covers_error {s : Stop} (hs : s.words = k) : Covers c k k' (.error s) P := by
  subst hs
  exact fun hholds => hholds

/-- One after the other. -/
theorem Covers.bind {spec : Except Stop β} {f : β → Except Stop γ} (hspec : Covers c k k' spec P)
    (hf : ∀ x, P x → Covers c k' k'' (f x) Q) : Covers c k k'' (spec >>= f) Q := by
  intro hholds
  have hspec := hspec hholds
  cases spec with
  | error s => exact hspec
  | ok x => exact hf x hspec.2 hspec.1

theorem Covers.map {spec : Except Stop β} {f : β → γ} (hspec : Covers c k k' spec P)
    (hf : ∀ x, P x → Q (f x)) : Covers c k k' (spec.map f) Q := by
  intro hholds
  have hspec := hspec hholds
  cases spec with
  | error s => exact hspec
  | ok x => exact ⟨hspec.1, hf x hspec.2⟩

/-- Nothing more need be known of a result. -/
theorem Covers.forget {spec : Except Stop β} (hspec : Covers c k k' spec P) :
    Covers c k k' spec fun _ => True := by
  intro hholds
  have hspec := hspec hholds
  cases spec with
  | error s => exact hspec
  | ok x => exact ⟨hspec.1, trivial⟩

theorem cell_of_addressable (k : Nat) {v : Int} (hv : Addressable v) : cell k v = .ok v.toNat :=
  if_pos hv

theorem cell_of_not_addressable (k : Nat) {v : Int} (hv : ¬ Addressable v) :
    cell k v = .error ⟨k, (Offer.int v).refusal⟩ := by
  rw [cell_eq, ofInt?_of_not_addressable hv]

theorem covers_cell (c : Config) (k : Nat) (v : Int) :
    Covers c k k (cell k v) fun n => Addressable n := by
  by_cases hv : Addressable v
  · rw [cell_of_addressable k hv]
    refine covers_ok ?_
    rwa [Int.toNat_of_nonneg hv.1]
  · rw [cell_of_not_addressable k hv]
    exact covers_error rfl

/-- A word that is fetched is at an address. -/
theorem covers_word (c : Config) (k : Nat) : Covers c k (k + 1) (word c k) fun _ => True := by
  intro hholds
  unfold word
  by_cases hplace : Addressable (c.pc + k)
  · rw [cell_of_addressable k hplace]
    exact ⟨hholds.succ hplace, trivial⟩
  · rw [cell_of_not_addressable k hplace]
    exact hholds

theorem covers_target (c : Config) (k : Nat) (origin : Int) :
    Covers c k (k + 1) (target c k origin) fun _ => True :=
  (covers_word c k).bind fun w _ => (covers_cell c (k + 1) (origin + w)).forget

theorem covers_operand (c : Config) (k : Nat) (digit : Int) :
    Covers c k (k + 1) (operand c k digit) fun _ => True := by
  unfold operand
  split
  · exact (covers_target c k 0).map fun _ _ => trivial
  · exact covers_word c k
  · exact (covers_target c k c.base).map fun _ _ => trivial
  · exact covers_error rfl

theorem covers_destination (c : Config) (k : Nat) (digit : Int) :
    Covers c k (k + 1) (destination c k digit) fun _ => True := by
  unfold destination
  split
  · exact covers_target c k 0
  · exact covers_target c k c.base
  · exact covers_error rfl

theorem covers_combine (c : Config) (i : Instruction) (f : Int → Int → Int) :
    Covers c 1 4 (combine c i f) Change.InRange :=
  (covers_operand c 1 i.mode1).bind fun _ _ => (covers_operand c 2 i.mode2).bind fun _ _ =>
    (covers_destination c 3 i.mode3).bind fun _ _ => covers_ok trivial

/-- Only a target that is taken has to be an address, and then it is. -/
theorem covers_branch (c : Config) (i : Instruction) (taken : Int → Bool) :
    Covers c 1 3 (branch c i taken) Change.InRange := by
  refine (covers_operand c 1 i.mode1).bind fun x _ => ?_
  refine (covers_operand c 2 i.mode2).bind fun pc _ => ?_
  split
  · exact (covers_cell c 3 pc).bind fun n hn => covers_ok hn
  · exact covers_ok trivial

/-- An instruction that exchanges nothing and does not halt. -/
theorem covers_change (c : Config) {i : Instruction} (hin : i.opcode ≠ .input)
    (hout : i.opcode ≠ .output) (hhalt : i.opcode ≠ .halt) :
    Covers c 1 (1 + i.opcode.arity) (change c i) Change.InRange := by
  unfold change
  cases hop : i.opcode with
  | input => exact absurd hop hin
  | output => exact absurd hop hout
  | halt => exact absurd hop hhalt
  | add | multiply | lessThan | equal => exact covers_combine c i _
  | jumpIfTrue | jumpIfFalse => exact covers_branch c i _
  | adjustBase =>
    exact (covers_operand c 1 i.mode1).bind fun offset _ =>
      (covers_cell c 2 (c.base + offset)).bind fun n hn => covers_ok hn

theorem covers_fetch (c : Config) : Covers c 0 1 (fetch c) fun _ => True := by
  refine (covers_word c 0).bind fun w _ => ?_
  intro hholds
  cases decodeWord w with
  | ok i => exact ⟨hholds, trivial⟩
  | error f => exact c.holds_zero

end Reference

/-! ### Machines -/

/-- An action with a specification, begun after `k` words that are at addresses: what it leaves,
    and what it has fetched by then. -/
theorem Exec.Yields.covered {α β : Type} {action : Exec α} {c : Config} {k k' : Nat}
    {spec : Except Stop β} {post : β → α × Config} {P : β → Prop} {m : Machine}
    (hyields : action.Yields c k spec post) (hcovers : Covers c k k' spec P)
    (hm : m.config = c.after k) (hholds : c.Holds k) :
    (∃ s m', spec = .error s ∧ action m = .error s.cause m' ∧ m'.config = c.after s.words ∧
      m'.steps = m.steps ∧ c.Holds s.words) ∨
    ∃ b m', spec = .ok b ∧ action m = .ok (post b).1 m' ∧ m'.config = (post b).2 ∧
      m'.steps = m.steps ∧ c.Holds k' ∧ P b := by
  have hyields := hyields m hm
  have hcovers := hcovers hholds
  cases spec with
  | error s =>
    obtain ⟨m', hrun, hconfig, hsteps⟩ := hyields
    exact .inl ⟨s, m', rfl, hrun, hconfig, hsteps, hcovers⟩
  | ok b =>
    obtain ⟨m', hrun, hconfig, hsteps⟩ := hyields
    exact .inr ⟨b, m', rfl, hrun, hconfig, hsteps, hcovers⟩

/-- The program counter has passed so many words, and the relative base is what it was. -/
structure Machine.Passed (m m' : Machine) (words : Nat) : Prop where
  pc : m'.pc = m.pc + words
  base : m'.base = m.base

namespace Machine

variable {m m' : Machine} {words : Nat}

theorem Passed.of_config (hm' : m'.config = m.config.after words) : m.Passed m' words :=
  ⟨congrArg Config.pc hm', congrArg Config.base hm'⟩

theorem Passed.refl (m : Machine) : m.Passed m 0 := ⟨(Int.add_zero _).symm, rfl⟩

/-- Words at addresses do not lead out of the range. -/
theorem Passed.inRange (hpassed : m.Passed m' words) (hholds : m.config.Holds words)
    (hm : m.InRange) : m'.InRange where
  base := hpassed.base ▸ hm.base
  pc := hpassed.pc ▸ hholds.pc_add_le hm.pc

end Machine

/-! ### Steps -/

namespace Engine

variable {e e' mid : Engine} {i : Instruction} {origin : Int}

/-- The ways a step of a suspended engine can go, with the number of words it fetches.  The input
    instruction is at `origin`. -/
inductive Resumed (e : Engine) (origin : Int) : Engine → Nat → Prop where
  /-- There is no value yet. -/
  | waits {e' : Engine} {r : Request} (hreq : e'.request = some r) (hstatus : e'.status = e.status)
      (hmachine : e'.machine = e.machine) : Resumed e origin e' 0
  /-- No value will come, or its destination is refused. -/
  | stopped {e' : Engine} {f : Fault} {words : Nat} (hle : words ≤ 1)
      (hstatus : e'.status = .faulted f origin) (hpassed : e.machine.Passed e'.machine words) :
    Resumed e origin e' words
  /-- The value is stored. -/
  | stored {e' : Engine} (hstatus : e'.status = e.status)
      (hsteps : e'.machine.steps = e.machine.steps + 1)
      (hpassed : e.machine.Passed e'.machine 1) : Resumed e origin e' 1

/-- The ways a step of a running engine can go that is not suspended, with the number of words it
    fetches, from the program counter on. -/
inductive Attempted (e : Engine) : Engine → Nat → Prop where
  /-- The program counter is at no address. -/
  | outside (hplace : ¬ Addressable e.machine.pc) :
    Attempted e
      ({ e with started := true }.fail e.machine.pc (Offer.int e.machine.pc).refusal) 0
  /-- The word at the program counter does not decode. -/
  | undecoded {e' : Engine} {f : Fault} (hfetch : fetch e.machine.config = .error ⟨0, f⟩)
      (hstatus : e'.status = .faulted f e.machine.pc)
      (hpassed : e.machine.Passed e'.machine 0) : Attempted e e' 1
  /-- An instruction stops at a fault. -/
  | stopped {e' : Engine} {i : Instruction} {f : Fault} {words : Nat}
      (hfetch : fetch e.machine.config = .ok i) (hlow : 1 ≤ words)
      (hhigh : words ≤ 1 + i.opcode.arity) (hstatus : e'.status = .faulted f e.machine.pc)
      (hpassed : e.machine.Passed e'.machine words) : Attempted e e' words
  /-- An input instruction has to wait for its value. -/
  | suspended {e' : Engine} {i : Instruction} {r : Request}
      (hfetch : fetch e.machine.config = .ok i) (hop : i.opcode = .input)
      (hreq : e'.request = some r) (hstatus : e'.status = .running)
      (hpassed : e.machine.Passed e'.machine 1) : Attempted e e' 1
  /-- An instruction is completed.  It may have jumped or moved the relative base. -/
  | completed {e' : Engine} {i : Instruction} (hfetch : fetch e.machine.config = .ok i)
      (hstatus : e'.status = if i.opcode = .halt then .halted else .running)
      (hsteps : e'.machine.steps = e.machine.steps + 1)
      (hpc : e'.machine.pc = e.machine.pc + (1 + i.opcode.arity : Nat) ∨ Addressable e'.machine.pc)
      (hbase : e'.machine.base = e.machine.base ∨ Addressable e'.machine.base) :
    Attempted e e' (1 + i.opcode.arity)

/-! ### Suspended engines -/

/-- An input instruction with its value. -/
theorem resumed_accept (e : Engine) (origin mode v : Int) :
    ∃ words, Resumed e origin (e.accept origin mode v) words ∧ e.machine.config.Holds words := by
  -- the destination is the next word, whatever instruction it belongs to
  have hstart : e.machine.config = e.machine.config.after 0 := (Config.after_zero _).symm
  unfold accept
  rw [act_eq]
  rcases (Exec.store_yields mode v).covered (covers_destination e.machine.config 0 mode) hstart
      (Config.holds_zero _) with
    ⟨s, m, hspec, hrun, hconfig, -, hholds⟩ | ⟨d, m, -, hrun, hconfig, hsteps, hholds, -⟩
  · rw [hrun]
    have hwords := (within_destination e.machine.config 0 mode s hspec).2
    exact ⟨s.words, .stopped hwords rfl (.of_config hconfig), hholds⟩
  · rw [hrun]
    have hpassed : e.machine.Passed m 1 := ⟨congrArg Config.pc hconfig, congrArg Config.base hconfig⟩
    exact ⟨1, .stored rfl (congrArg (· + 1) hsteps) ⟨hpassed.pc, hpassed.base⟩, hholds⟩

/-- How a step goes on is a matter of the machine and the status alone. -/
theorem Resumed.congr {e₁ : Engine} {words : Nat} (hresumed : Resumed e₁ origin e' words)
    (hmachine : e₁.machine = e.machine) (hstatus : e₁.status = e.status) :
    Resumed e origin e' words := by
  cases hresumed with
  | waits hreq hstatus' hmachine' =>
    exact .waits hreq (hstatus'.trans hstatus) (hmachine'.trans hmachine)
  | stopped hle hstatus' hpassed => exact .stopped hle hstatus' (hmachine ▸ hpassed)
  | stored hstatus' hsteps hpassed =>
    rw [hmachine] at hsteps hpassed
    exact .stored (hstatus'.trans hstatus) hsteps hpassed

/-- Looking for a value at the end of a channel. -/
theorem resumed_receive (e : Engine) (h : Hub) (r : Request) :
    ∃ words, Resumed e r.origin (e.receive h r).1 words ∧ e.machine.config.Holds words := by
  unfold receive
  cases h.recv r.receiver with
  | value v h' =>
    obtain ⟨words, hresumed, hholds⟩ :=
      resumed_accept { e with request := none } r.origin r.mode v
    exact ⟨words, hresumed.congr rfl rfl, hholds⟩
  | closed error => exact ⟨0, .stopped (Nat.zero_le 1) rfl (.refl _), Config.holds_zero _⟩
  | wait => exact ⟨0, .waits rfl rfl rfl, Config.holds_zero _⟩

/-- **Every step of a suspended engine** goes one of these ways, and the words it fetches are at
    addresses. -/
theorem resumed_step {r : Request} (hrun : e.status = .running) (hreq : e.request = some r)
    (h : Hub) :
    ∃ words, Resumed e r.origin (e.step h).1 words ∧ e.machine.config.Holds words := by
  rw [step_eq_receive hrun hreq]
  exact resumed_receive e h r

/-- Looking for a value at the input, whichever it is. -/
theorem resumed_obtain (e : Engine) (h : Hub) (origin mode : Int) :
    ∃ words, Resumed e origin (e.obtain h origin mode).1 words ∧ e.machine.config.Holds words := by
  cases hin : e.input with
  | some receiver =>
    rw [obtain_of_input hin]
    exact resumed_receive e h ⟨mode, receiver, origin⟩
  | none =>
    rw [obtain_of_input_none hin]
    rcases e.console.read with ⟨cause | v, console⟩
    · exact ⟨0, .stopped (Nat.zero_le 1) rfl (.refl _), Config.holds_zero _⟩
    · obtain ⟨words, hresumed, hholds⟩ := resumed_accept { e with console } origin mode v
      exact ⟨words, hresumed.congr rfl rfl, hholds⟩

/-! ### Engines that attempt an instruction -/

/-- Nothing is fetched where there is no address. -/
theorem attempt_of_outside (h : Hub) (hplace : ¬ Addressable e.machine.pc) :
    e.attempt h =
      ({ e with started := true }.fail e.machine.pc (Offer.int e.machine.pc).refusal, h) := by
  have hnone := ofInt?_of_not_addressable hplace
  have hdecode : Exec.decode e.machine = .error (Offer.int e.machine.pc).refusal e.machine := by
    show EStateM.bind (EStateM.bind (Exec.address e.machine.pc) _) _ e.machine = _
    unfold Exec.address
    rw [hnone]
    rfl
  unfold attempt
  dsimp only
  rw [act_eq]
  dsimp only
  rw [hdecode]

/-- `mid` is `e` after the instruction word has been fetched, which was at an address. -/
structure Fetched (e mid : Engine) (i : Instruction) : Prop where
  fetch : Reference.fetch e.machine.config = .ok i
  holds : e.machine.config.Holds 1
  config : mid.machine.config = e.machine.config.after 1
  steps : mid.machine.steps = e.machine.steps
  status : mid.status = .running

namespace Fetched

/-- An input instruction goes on as one that has been suspended. -/
theorem attempted_of_resumed {words : Nat} (hfetched : Fetched e mid i) (hop : i.opcode = .input)
    (hresumed : Resumed mid e.machine.pc e' words) : Attempted e e' (1 + words) := by
  have hpc : mid.machine.pc = e.machine.pc + (1 : Nat) := congrArg Config.pc hfetched.config
  have hbase : mid.machine.base = e.machine.base := congrArg Config.base hfetched.config
  -- what is counted from behind the opcode word is one word less
  have hpassed {k : Nat} (hrest : mid.machine.Passed e'.machine k) :
      e.machine.Passed e'.machine (1 + k) := by
    refine ⟨?_, hrest.base.trans hbase⟩
    rw [hrest.pc, hpc]
    omega
  cases hresumed with
  | waits hreq hstatus hmachine =>
    have hstay : mid.machine.Passed e'.machine 0 := by
      rw [hmachine]
      exact .refl _
    exact .suspended hfetched.fetch hop hreq (hstatus.trans hfetched.status) (hpassed hstay)
  | stopped hle hstatus hrest =>
    refine .stopped hfetched.fetch (by omega) ?_ hstatus (hpassed hrest)
    rw [hop]
    exact Nat.add_le_add_left hle 1
  | stored hstatus hsteps hrest =>
    have hdone : Attempted e e' (1 + i.opcode.arity) := by
      refine .completed hfetched.fetch ?_ ?_ ?_ (.inl (hpassed hrest).base)
      · rw [hop]
        exact hstatus.trans hfetched.status
      · rw [hsteps, hfetched.steps]
      · rw [hop]
        exact .inl (hpassed hrest).pc
    rwa [hop] at hdone

/-- An instruction stops after some of its words. -/
theorem attempted_stopped {s : Stop} {m : Machine} (hfetched : Fetched e mid i)
    (hwithin : 1 ≤ s.words ∧ s.words ≤ 1 + i.opcode.arity)
    (hm : m.config = e.machine.config.after s.words) :
    Attempted e ({ mid with machine := m }.fail e.machine.pc s.cause) s.words :=
  .stopped hfetched.fetch hwithin.1 hwithin.2 rfl (.of_config hm)

/-- An instruction that exchanges nothing and does not halt makes its change. -/
theorem attempted_changed {ch : Change} {m : Machine} (hfetched : Fetched e mid i)
    (hhalt : i.opcode ≠ .halt) (hch : ch.InRange)
    (hm : m.config = ch.apply e.machine.config (1 + i.opcode.arity))
    (hsteps : m.steps = mid.machine.steps) :
    Attempted e { mid with machine := m }.complete (1 + i.opcode.arity) := by
  have hpc : m.pc = (ch.apply e.machine.config (1 + i.opcode.arity)).pc := congrArg Config.pc hm
  have hbase : m.base = (ch.apply e.machine.config (1 + i.opcode.arity)).base :=
    congrArg Config.base hm
  refine .completed hfetched.fetch ?_ (congrArg (· + 1) (hsteps.trans hfetched.steps)) ?_ ?_
  · rw [if_neg hhalt]
    exact hfetched.status
  · show m.pc = _ ∨ Addressable m.pc
    rw [hpc]
    cases ch with
    | goto pc => exact .inr hch
    | nothing | assign | rebase => exact .inl rfl
  · show m.base = _ ∨ Addressable m.base
    rw [hbase]
    cases ch with
    | rebase base => exact .inr hch
    | nothing | assign | goto => exact .inl rfl

/-- An output instruction, once its operand has been fetched. -/
theorem attempted_emit {m : Machine} (hfetched : Fetched e mid i) (hop : i.opcode = .output)
    (hm : m.config = e.machine.config.after 2) (hsteps : m.steps = mid.machine.steps) (h : Hub)
    (v : Int) :
    Attempted e ({ mid with machine := m }.emit h e.machine.pc v).1 2 := by
  have hpassed : e.machine.Passed m 2 := .of_config hm
  have hdone (console : Console) :
      Attempted e { mid with machine := m, console }.complete (1 + i.opcode.arity) := by
    refine .completed hfetched.fetch ?_ (congrArg (· + 1) (hsteps.trans hfetched.steps)) ?_ ?_
    · rw [hop]
      exact hfetched.status
    · rw [hop]
      exact .inl hpassed.pc
    · exact .inl hpassed.base
  have hwithin : 1 ≤ 2 ∧ 2 ≤ 1 + i.opcode.arity := by
    rw [hop]
    decide
  have hstopped (f : Fault) : Attempted e ({ mid with machine := m }.fail e.machine.pc f) 2 :=
    hfetched.attempted_stopped (s := ⟨2, f⟩) hwithin hm
  rw [hop] at hdone
  unfold emit
  split
  · split
    · exact hdone mid.console
    · exact hstopped .outputClosed
  · dsimp only
    split
    · exact hdone _
    · exact hstopped _

/-- Whatever the instruction is, the words it fetches are at addresses. -/
theorem attempted_execute (hfetched : Fetched e mid i) (h : Hub) :
    ∃ words, Attempted e
      (match mid.act (Exec.execute i) with
        | (.error f, next) => (next.fail e.machine.pc f, h)
        | (.ok demand, next) => next.meet h e.machine.pc demand).1 words ∧
      e.machine.config.Holds words := by
  rw [act_eq]
  by_cases hin : i.opcode = .input
  · -- nothing but the opcode word has been fetched when the value is asked for
    rw [Exec.execute_input hin]
    obtain ⟨words, hresumed, hholds⟩ := resumed_obtain mid h e.machine.pc i.mode1
    exact ⟨1 + words, hfetched.attempted_of_resumed hin hresumed,
      hfetched.holds.one_add hfetched.config hholds⟩
  by_cases hout : i.opcode = .output
  · rcases (Exec.output_yields hout).covered (covers_operand e.machine.config 1 i.mode1)
        hfetched.config hfetched.holds with
      ⟨s, m, hspec, hrun, hm, -, hholds⟩ | ⟨v, m, -, hrun, hm, hsteps, hholds, -⟩
    · rw [hrun]
      refine ⟨s.words, hfetched.attempted_stopped ?_ hm, hholds⟩
      rw [hout]
      exact within_operand e.machine.config 1 i.mode1 s hspec
    · rw [hrun]
      exact ⟨2, hfetched.attempted_emit hout hm hsteps h v, hholds⟩
  by_cases hhalt : i.opcode = .halt
  · have hpassed : e.machine.Passed mid.machine 1 := .of_config hfetched.config
    have hdone : Attempted e { mid with status := .halted }.complete (1 + i.opcode.arity) := by
      refine .completed hfetched.fetch ?_ (congrArg (· + 1) hfetched.steps) ?_ (.inl hpassed.base)
      · rw [if_pos hhalt]
        rfl
      · rw [hhalt]
        exact .inl hpassed.pc
    rw [Exec.execute_halt hhalt]
    rw [hhalt] at hdone
    exact ⟨1, hdone, hfetched.holds⟩
  · -- all other instructions are the machine's own
    rcases (Exec.execute_yields i hin hout hhalt).covered
        (covers_change e.machine.config hin hout hhalt) hfetched.config hfetched.holds with
      ⟨s, m, hspec, hrun, hm, -, hholds⟩ | ⟨ch, m, -, hrun, hm, hsteps, hholds, hch⟩
    · rw [hrun]
      refine ⟨s.words, hfetched.attempted_stopped ?_ hm, hholds⟩
      refine within_effect e.machine.config none true i s ?_
      rw [effect_change hin hout hhalt, hspec]
      rfl
    · rw [hrun]
      exact ⟨_, hfetched.attempted_changed hhalt hch hm hsteps, hholds⟩

end Fetched

/-- **Every step of a running engine that is not suspended** goes one of these ways, and the words
    it fetches are at addresses. -/
theorem attempted_step (hrun : e.status = .running) (hreq : e.request = none) (h : Hub) :
    ∃ words, Attempted e (e.step h).1 words ∧ e.machine.config.Holds words := by
  rw [step_eq_attempt hrun hreq]
  by_cases hplace : Addressable e.machine.pc
  · -- if the instruction word does not decode, it has been fetched but does not count as consumed
    have hstart : e.machine.config = e.machine.config.after 0 := (Config.after_zero _).symm
    have hone : e.machine.config.Holds 1 := by
      refine (Config.holds_zero _).succ ?_
      rwa [show e.machine.config.pc + ((0 : Nat) : Int) = e.machine.pc from Int.add_zero _]
    unfold attempt
    dsimp only
    rw [act_eq]
    rcases Exec.decode_yields.covered (covers_fetch e.machine.config) hstart
        (Config.holds_zero _) with
      ⟨⟨words, f⟩, m, hspec, hdecode, hm, -, -⟩ | ⟨i, m, hspec, hdecode, hm, hsteps, -, -⟩
    · have hwords : words = 0 := Nat.le_zero.1 (within_fetch e.machine.config _ hspec).2
      subst hwords
      dsimp only
      rw [hdecode]
      exact ⟨1, .undecoded hspec rfl (.of_config hm), hone⟩
    · dsimp only
      rw [hdecode]
      refine Fetched.attempted_execute ⟨hspec, hone, ?_, ?_, ?_⟩ h
      · rw [machine_record]
        exact hm
      · rw [machine_record]
        exact hsteps
      · rw [status_record]
        exact hrun
  · rw [attempt_of_outside h hplace]
    exact ⟨0, .outside hplace, Config.holds_zero _⟩

/-! ### The registers -/

theorem Resumed.inRange {words : Nat} (hresumed : Resumed e origin e' words)
    (hholds : e.machine.config.Holds words) (he : e.machine.InRange) : e'.machine.InRange := by
  cases hresumed with
  | waits _ _ hmachine =>
    rw [hmachine]
    exact he
  | stopped _ _ hpassed => exact hpassed.inRange hholds he
  | stored _ _ hpassed => exact hpassed.inRange hholds he

theorem Attempted.inRange {words : Nat} (hattempted : Attempted e e' words)
    (hholds : e.machine.config.Holds words) (he : e.machine.InRange) : e'.machine.InRange := by
  cases hattempted with
  | outside => exact he
  | undecoded _ _ hpassed => exact hpassed.inRange (Config.holds_zero _) he
  | stopped _ _ _ _ hpassed => exact hpassed.inRange hholds he
  | suspended _ _ _ _ hpassed => exact hpassed.inRange hholds he
  | completed _ _ _ hpc hbase =>
    constructor
    · rcases hbase with hsame | hplace
      · rw [hsame]
        exact he.base
      · exact hplace
    · rcases hpc with hnext | hplace
      · rw [hnext]
        exact hholds.pc_add_le he.pc
      · exact ⟨hplace.1, Int.le_add_one hplace.2⟩

/-- No step leads a register out of its range. -/
theorem inRange_step (h : Hub) (he : e.machine.InRange) : (e.step h).1.machine.InRange := by
  by_cases hrun : e.status = .running
  · cases hreq : e.request with
    | none =>
      obtain ⟨words, hattempted, hholds⟩ := attempted_step hrun hreq h
      exact hattempted.inRange hholds he
    | some r =>
      obtain ⟨words, hresumed, hholds⟩ := resumed_step hrun hreq h
      exact hresumed.inRange hholds he
  · rw [step_of_ended ((isRunning_eq_false_iff e).2 hrun)]
    exact he

/-- No call leads a register out of its range. -/
theorem kept_inRange : Kept fun e => e.machine.InRange where
  step _ h he := inRange_step h he
  memory _ _ he := ⟨he.base, he.pc⟩
  ends _ _ _ he := he

/-- **The registers stay in range**, whatever the program is, whatever its inputs are and whatever
    has been asked of the engine.  The words that a step fetches are at addresses, and an engine
    whose program counter stands behind the last address is stopped by its next step. -/
theorem registers_in_range (cells : List Int) (tracing : Bool) (console : Console) (h : Hub)
    (events : List Event) :
    let e := (live (ofCells cells tracing console, h) events).1
    e.machine.InRange ∧
      (∀ h', e.status = .running → e.request = none →
        ∃ words, Attempted e (e.step h').1 words ∧
          ∀ k < words, Addressable (e.machine.pc + k)) ∧
      (∀ h' r, e.status = .running → e.request = some r →
        ∃ words, Resumed e r.origin (e.step h').1 words ∧
          ∀ k < words, Addressable (e.machine.pc + k)) ∧
      ∀ h', e.status = .running → e.request = none → e.machine.pc = maxAddress + 1 →
        e.step h' = ({ e with started := true }.fail (maxAddress + 1)
          (.outOfBounds (.int (maxAddress + 1))), h') := by
  intro e
  have hstart : (ofCells cells tracing console).machine.InRange :=
    ⟨⟨Int.le_refl 0, Int.natCast_nonneg _⟩, Int.le_refl 0, Int.natCast_nonneg (maxAddress + 1)⟩
  refine ⟨kept_inRange.live hstart events, ?_, ?_, ?_⟩
  · exact fun h' hrun hreq => attempted_step hrun hreq h'
  · exact fun h' r hrun hreq => resumed_step hrun hreq h'
  · intro h' hrun hreq hpc
    have hplace : ¬ Addressable e.machine.pc := by
      intro hplace
      rw [hpc] at hplace
      exact absurd hplace.2 (by decide)
    have hrefusal : (Offer.int (maxAddress + 1)).refusal = .outOfBounds (.int (maxAddress + 1)) :=
      Memory.refusal_of_writable (by rintro n ⟨⟩; decide)
    have hattempt := attempt_of_outside h' hplace
    rw [hpc, hrefusal] at hattempt
    rw [step_eq_attempt hrun hreq]
    exact hattempt

/-- A program that writes an output instruction in front of the last address and jumps there.  Its
    operand is at the last address, so the next instruction is at none. -/
theorem registers_in_range_of_last_address :
    let e := (live (ofCells [1101, 104, 0, 9223372036854775806, 1105, 1, 9223372036854775806]
      false {}, {}) [.call .step, .call .step, .call .step]).1
    e.status = .running ∧ e.console.outputs = [0] ∧ e.machine.pc = maxAddress + 1 ∧
      (e.step {}).1.status =
        .faulted (.outOfBounds (.int (maxAddress + 1))) (maxAddress + 1) := by
  refine ⟨rfl, rfl, rfl, ?_⟩
  have hrange := registers_in_range
    [1101, 104, 0, 9223372036854775806, 1105, 1, 9223372036854775806] false {} {}
    [.call .step, .call .step, .call .step]
  obtain ⟨-, -, -, hlast⟩ := hrange
  rw [hlast {} rfl rfl rfl]
  rfl

end Engine

end Intcode
