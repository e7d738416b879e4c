import Intcode.Proofs.OwnFault
import Intcode.Proofs.Text.Lines

namespace Intcode

/-!
# Engines at a console

An engine does not look at where its values come from.  At a console where the inputs have been
typed in, line by line, it does what it does between a channel that holds them and another: it takes
the same values, prints what it would have sent, and where it would have been told that the input is
closed it finds that the text has come to its end.  Only values with too many digits do not pass the
console: where a channel would have conveyed one, the engine at the console stops.

* `Engine.atConsole`   — the engine without its channels
* `Engine.Mirrors`     — a move between channels and the same move at the console
* `Engine.Typing`      — a run on queued inputs and a run on typed ones
* `Engine.Blocked`     — the engine at the console has stopped at a value with too many digits
* `Engine.Typing.step`, `Engine.Typing.stepped` — the two runs go on in the same way until then
-/

/-- A fault that tells that there was no value to be had. -/
def Fault.isInput : Fault → Bool
  | .console _ | .inputClosed => true
  | _ => false

/-- The fault of a program is none of its input. -/
theorem Fault.isInput_of_isProgram {f : Fault} (hf : f.isProgram = true) : f.isInput = false := by
  cases f with
  | outOfBounds | unrecognizedOpcode | unrecognizedMode | overlong => rfl
  | console | inputClosed | outputClosed => cases hf

/-- A fault as it is met at a console, where an input does not close but comes to its end. -/
def Fault.atConsole : Fault → Fault
  | .inputClosed => .console .endOfInput
  | f => f

/-- The status of an engine at a console. -/
def Status.atConsole : Status → Status
  | .faulted cause origin => .faulted cause.atConsole origin
  | s => s

theorem Fault.atConsole_of_isInput {f : Fault} (hf : f.isInput = false) : f.atConsole = f := by
  cases f with
  | inputClosed => cases hf
  | outOfBounds | unrecognizedOpcode | unrecognizedMode | console | outputClosed | overlong => rfl

/-- Who has halted has halted at a console too. -/
theorem Status.atConsole_eq_halted_iff {st : Status} : st.atConsole = .halted ↔ st = .halted := by
  cases st with
  | running | halted => rfl
  | faulted f origin => exact ⟨nofun, nofun⟩

/-- A fault that has nothing to do with the input is the same at a console. -/
theorem Status.atConsole_eq_faulted_iff {st : Status} {f : Fault} {origin : Int}
    (hf : f.isInput = false) : st.atConsole = .faulted f origin ↔ st = .faulted f origin := by
  cases st with
  | running | halted => exact ⟨nofun, nofun⟩
  | faulted g o =>
    constructor
    · rintro ⟨⟩
      -- the fault is none of the input, and so it has not been another one
      cases g with
      | inputClosed | console => cases hf
      | outOfBounds | unrecognizedOpcode | unrecognizedMode | outputClosed | overlong => rfl
    · rintro ⟨⟩
      exact congrArg (faulted · origin) (Fault.atConsole_of_isInput hf)

/-- What ends the input at a console has closed it elsewhere. -/
theorem Status.atConsole_eq_console_iff {st : Status} {cause : ConsoleFault} {origin : Int}
    (hst : ∀ cause origin, st ≠ .faulted (.console cause) origin) :
    st.atConsole = .faulted (.console cause) origin ↔
      cause = .endOfInput ∧ st = .faulted .inputClosed origin := by
  cases st with
  | running | halted => exact ⟨nofun, nofun⟩
  | faulted g o =>
    constructor
    · intro h
      cases g with
      | inputClosed =>
        cases h
        exact ⟨rfl, rfl⟩
      | console cause' => exact absurd rfl (hst cause' o)
      | outOfBounds | unrecognizedOpcode | unrecognizedMode | outputClosed | overlong => cases h
    · rintro ⟨rfl, ⟨⟩⟩
      rfl

namespace Engine

/-- The engine without its channels, at a console. -/
def atConsole (e : Engine) (console : Console) : Engine :=
  { e with
    status := e.status.atConsole
    request := none
    input := none
    output := none
    console }

variable {e e' next : Engine} {c : Console} {rx : ReceiverRef} {tx : SenderRef}

/-! ### Single actions -/

theorem isRunning_atConsole (e : Engine) (c : Console) :
    (e.atConsole c).isRunning = e.isRunning := by
  unfold isRunning
  show (e.status.atConsole == _) = _
  cases e.status <;> rfl

theorem act_atConsole {α : Type} (e : Engine) (c : Console) (action : Exec α) :
    (e.atConsole c).act action = ((e.act action).1, (e.act action).2.atConsole c) := by
  have hmachine : (e.atConsole c).machine = e.machine := rfl
  rw [act_eq, act_eq, hmachine]
  cases action e.machine <;> rfl

theorem complete_atConsole (e : Engine) (c : Console) :
    (e.atConsole c).complete = e.complete.atConsole c := by
  unfold complete
  rw [act_atConsole]

theorem record_atConsole (e : Engine) (c : Console) (origin : Int) (i : Instruction) :
    (e.atConsole c).record origin i = (e.record origin i).atConsole c := by
  unfold record
  show (if e.tracing then _ else _) = _
  split <;> rfl

/-- A fault that has nothing to do with the input is met at the console as well. -/
theorem fail_atConsole (e : Engine) (c : Console) (origin : Int) {f : Fault}
    (hf : f.isInput = false) : (e.fail origin f).atConsole c = (e.atConsole c).fail origin f := by
  show { (e.atConsole c) with status := .faulted f.atConsole origin } = _
  rw [Fault.atConsole_of_isInput hf]
  rfl

/-- A fault of an action has nothing to do with the input. -/
theorem isInput_act {α : Type} {action : Exec α} (hinternal : Exec.Internal action) {f : Fault}
    (hact : e.act action = (.error f, e')) : f.isInput = false := by
  rw [act_eq] at hact
  cases hrun : action e.machine with
  | ok x m => simp [hrun] at hact
  | error cause m =>
    simp only [hrun, Prod.mk.injEq, Except.error.injEq] at hact
    rw [← hact.1]
    exact Fault.isInput_of_isProgram (hinternal _ _ _ hrun)

theorem accept_atConsole (e : Engine) (c : Console) (origin mode v : Int) :
    (e.atConsole c).accept origin mode v = (e.accept origin mode v).atConsole c := by
  unfold accept
  rw [act_atConsole]
  rcases hact : e.act (Exec.store mode v) with ⟨f | x, next⟩
  · exact (fail_atConsole next c origin (isInput_act (Exec.internal_store mode v) hact)).symm
  · exact complete_atConsole next c

/-! ### Moves -/

/-- The engine has met no fault of its input. -/
def Supplied (e : Engine) : Prop := ∀ f, e.fault? = some f → f.isInput = false

theorem supplied_of_fault?_eq_none (hnone : e.fault? = none) : Supplied e := by
  intro f hfault
  rw [hnone] at hfault
  cases hfault

theorem supplied_of_running (hrun : e.status = .running) : Supplied e :=
  supplied_of_fault?_eq_none (fault?_of_running hrun)

/-- An engine that has been given its value meets no fault of its input. -/
theorem supplied_accept (hrun : e.status = .running) (origin mode v : Int) :
    Supplied (e.accept origin mode v) := by
  have hstatus := status_act e (Exec.store mode v)
  unfold accept
  rcases hact : e.act (Exec.store mode v) with ⟨cause | x, next⟩
  · rintro f ⟨⟩
    exact isInput_act (Exec.internal_store mode v) hact
  · rw [hact] at hstatus
    exact supplied_of_running ((status_act next Exec.complete).trans (hstatus.trans hrun))

/-- A move of an engine between channels, and the move of the same engine at a console. -/
inductive Mirrors (c : Console) : Move → Move → Prop where
  | rest : Mirrors c .rest .rest
  | act {next : Engine} (hreq : next.request = none) (hsupplied : Supplied next) :
    Mirrors c (.act next) (.act (next.atConsole c))
  /-- A value that would have been asked for at a channel is read from the console. -/
  | ask {next : Engine} {r : Request} (hreq : next.request = some r) :
    Mirrors c (.act next) (.act ((next.atConsole c).typed r.origin r.mode c.read))
  /-- A value that would have been sent is printed. -/
  | tell {tx : SenderRef} {origin v : Int} {told : Engine} :
    Mirrors c (.tell tx origin v told) (.act ((told.atConsole c).printed origin (c.print v)))

theorem mirrors_pursue (hports : e.ports = (none, some rx, some tx)) (hrun : e.status = .running)
    (c : Console) (origin : Int) (d : Demand) :
    Mirrors c (e.pursue origin d) ((e.atConsole c).pursue origin d) := by
  have hreq : e.request = none := congrArg Prod.fst hports
  cases d with
  | nothing =>
    show Mirrors c (.act e.complete) (.act (e.atConsole c).complete)
    rw [complete_atConsole]
    refine .act (congrArg Prod.fst ((ports_complete e).trans hports)) ?_
    exact supplied_of_running ((status_act e _).trans hrun)
  | halt =>
    show Mirrors c (.act (complete { e with status := .halted }))
      (.act (complete (atConsole { e with status := .halted } c)))
    rw [complete_atConsole]
    have hhalted : (complete { e with status := .halted }).status = .halted := status_act _ _
    refine .act (congrArg Prod.fst ((ports_complete _).trans hports)) ?_
    exact supplied_of_fault?_eq_none (by simp [fault?, hhalted])
  | input mode =>
    show Mirrors c (e.ask origin mode e.input) _
    rw [show e.input = some rx from congrArg (·.2.1) hports]
    let asking : Engine := { e with request := some ⟨mode, rx, origin⟩ }
    have hasking : asking.request = some ⟨mode, rx, origin⟩ := rfl
    exact .ask hasking
  | output v =>
    show Mirrors c (e.say origin v e.output) (.act ((e.atConsole c).printed origin (c.print v)))
    rw [show e.output = some tx from congrArg (·.2.2) hports]
    exact .tell

theorem mirrors_carryOn (hports : e.ports = (none, some rx, some tx)) (hrun : e.status = .running)
    (c : Console) (origin : Int) {action : Exec Demand} (hinternal : Exec.Internal action) :
    Mirrors c (carryOn origin (e.act action)) (carryOn origin ((e.atConsole c).act action)) := by
  have hports' := (ports_act e action).trans hports
  have hstatus := (status_act e action).trans hrun
  rw [act_atConsole]
  rcases hact : e.act action with ⟨f | d, next⟩
  · rw [hact] at hports'
    have hf := isInput_act hinternal hact
    show Mirrors c (.act (next.fail origin f)) (.act ((next.atConsole c).fail origin f))
    rw [← fail_atConsole next c origin hf]
    refine .act (congrArg Prod.fst hports') ?_
    rintro _ ⟨⟩
    exact hf
  · rw [hact] at hports' hstatus
    exact mirrors_pursue hports' hstatus c origin d

theorem mirrors_launch (hports : e.ports = (none, some rx, some tx)) (hrun : e.status = .running)
    (c : Console) (origin : Int) {action : Exec Instruction} (hinternal : Exec.Internal action) :
    Mirrors c (launch origin (e.act action)) (launch origin ((e.atConsole c).act action)) := by
  have hports' := (ports_act e action).trans hports
  have hstatus := (status_act e action).trans hrun
  rw [act_atConsole]
  rcases hact : e.act action with ⟨f | i, next⟩
  · rw [hact] at hports'
    have hf := isInput_act hinternal hact
    show Mirrors c (.act (next.fail origin f)) (.act ((next.atConsole c).fail origin f))
    rw [← fail_atConsole next c origin hf]
    refine .act (congrArg Prod.fst hports') ?_
    rintro _ ⟨⟩
    exact hf
  · rw [hact] at hports' hstatus
    show Mirrors c (carryOn origin ((next.record origin i).act (Exec.execute i)))
      (carryOn origin (((next.atConsole c).record origin i).act (Exec.execute i)))
    rw [record_atConsole]
    exact mirrors_carryOn ((ports_record next origin i).trans hports')
      ((status_record next origin i).trans hstatus) c origin (Exec.internal_execute i)

/-- **An engine does at a console what it does between channels.** -/
theorem mirrors_move (hports : e.ports = (none, some rx, some tx)) (c : Console) :
    Mirrors c e.move (e.atConsole c).move := by
  have hreq : e.request = none := congrArg Prod.fst hports
  by_cases hrun : e.status = .running
  · have hrun' : (e.atConsole c).status = .running := congrArg Status.atConsole hrun
    rw [move_of_running hrun hreq, move_of_running hrun' rfl]
    exact mirrors_launch (e := { e with started := true }) hports hrun c e.machine.pc
      Exec.internal_decode
  · have hended : e.isRunning = false := (isRunning_eq_false_iff e).2 hrun
    rw [(move_eq_rest_iff e).2 hended,
      (move_eq_rest_iff _).2 ((isRunning_atConsole e c).trans hended)]
    exact .rest

/-- A move that suspends nobody is the same at the console. -/
theorem Mirrors.of_act {m : Move} (hmirrors : Mirrors c (.act next) m)
    (hreq : next.request = none) : m = .act (next.atConsole c) ∧ Supplied next := by
  cases hmirrors with
  | act _ hsupplied => exact ⟨rfl, hsupplied⟩
  | ask hsome =>
    rw [hreq] at hsome
    cases hsome

/-- An engine that asks between channels reads at the console. -/
theorem move_of_asks {r : Request} (hports : e.ports = (none, some rx, some tx)) (c : Console)
    (hask : Awaiting e r e') :
    (e.atConsole c).move = .act ((e'.atConsole c).typed r.origin r.mode c.read) := by
  have hmirrors := mirrors_move hports c
  cases hask with
  | already hmove =>
    -- who waits for nothing has not asked before
    have hreq : e.request = none := congrArg Prod.fst hports
    exact absurd (hreq.symm.trans (Awaiting.already hmove).request) nofun
  | now hmove hreq =>
    rw [hmove] at hmirrors
    generalize (e.atConsole c).move = m at hmirrors ⊢
    cases hmirrors with
    | act hnone =>
      rw [hreq] at hnone
      cases hnone
    | ask hsome =>
      rw [hreq] at hsome
      cases hsome
      rfl

/-- A value that is sent between channels is printed at the console. -/
theorem move_of_tell {origin v : Int} {told : Engine}
    (hports : e.ports = (none, some rx, some tx)) (c : Console)
    (hmove : e.move = .tell tx origin v told) :
    (e.atConsole c).move = .act ((told.atConsole c).printed origin (c.print v)) := by
  have hmirrors := mirrors_move hports c
  rw [hmove] at hmirrors
  generalize (e.atConsole c).move = m at hmirrors ⊢
  cases hmirrors
  rfl

/-- A value read at the console answers what has been asked at a channel. -/
theorem typed_answer (e : Engine) (r : Request) (v : Int) (c c' : Console) :
    (e.atConsole c).typed r.origin r.mode (.ok v, c') = (e.answer r v).atConsole c' :=
  accept_atConsole { e with request := none } c' r.origin r.mode v

/-- A value that is printed completes the instruction that would have sent it. -/
theorem printed_tell (told : Engine) (origin : Int) (c c' : Console) :
    (told.atConsole c).printed origin (.ok c') = told.complete.atConsole c' :=
  complete_atConsole told c'

/-! ### Runs -/

/-- The same run twice, on inputs that wait in a sealed channel and on inputs that have been typed
    in.  What is left to read is the same, and what has been printed is what has been sent.  All of
    it could be conveyed as text. -/
structure Typing (xs : List Int) (s : Engine × Hub) (typed : Engine) : Prop where
  sealed : Sealed ⟨0⟩ ⟨1, 0⟩ s
  heard : s.2.listens ⟨1, 0⟩ = true
  engine : typed = s.1.atConsole typed.console
  unclosed : typed.console.closed = false
  unread : OnLines typed.console.unread (s.2.content 0)
  printed : typed.console.outputs.reverse = s.2.content 1
  /-- The channel has no console. -/
  supplied : ∀ cause, s.1.fault? ≠ some (.console cause)
  conveyed : ∃ read, xs = read ++ s.2.content 0 ∧
    ∀ v ∈ read ++ s.2.content 1, Decimal.isWritable v = true

/-- A step has taken or sent a value with too many digits, and the engine at the console, which it
    has not passed, has stopped. -/
inductive Blocked (s : Engine × Hub) (typed : Engine) : Fault → Prop where
  | reading {v : Int} (hlong : Decimal.isWritable v = false)
      (htaken : s.2.content 0 = v :: (s.1.step s.2).2.content 0)
      (hraised : typed.verdict = .error (.overlong (.read (Decimal.digitCount v)))) :
    Blocked s typed (.overlong (.read (Decimal.digitCount v)))
  | printing {v : Int} (hlong : Decimal.isWritable v = false)
      (hsent : (s.1.step s.2).2.content 1 = s.2.content 1 ++ [v])
      (hraised : typed.verdict = .error (.overlong .written)) : Blocked s typed (.overlong .written)

/-- An engine that has been blocked has ended. -/
theorem Blocked.isRunning_eq_false {s : Engine × Hub} {typed : Engine} {f : Fault}
    (hblocked : Blocked s typed f) : typed.isRunning = false := by
  have hended (f : Fault) (hraised : typed.verdict = .error f) : typed.isRunning = false := by
    rw [isRunning_eq_false_iff]
    intro hrun
    rw [verdict, hrun] at hraised
    cases hraised
  cases hblocked with
  | reading _ _ hraised | printing _ _ hraised => exact hended _ hraised

namespace Typing

variable {xs : List Int} {s : Engine × Hub} {typed : Engine} {hub : Hub}

theorem ports (ht : Typing xs s typed) : s.1.ports = (none, some ⟨0⟩, some ⟨1, 0⟩) := by
  unfold Engine.ports
  rw [ht.sealed.request, ht.sealed.plugged.input, ht.sealed.plugged.output]

/-- Where a value is taken, it is read at the console, unless it has too many digits. -/
theorem step_takes {r : Request} {v : Int} {buffer : Fifo Int}
    (ht : Typing xs (e, hub) (e.atConsole c)) (hask : Awaiting e r e')
    (hopen : (hub.channel 0).receiverOpen = true) (hcontent : hub.content 0 = v :: buffer.toList)
    (hstep : e.step hub = (e'.answer r v, hub.refill 0 buffer)) (h : Hub) :
    ∃ typed', (e.atConsole c).step h = (typed', h) ∧
      (Typing xs (e.step hub) typed' ∨ ∃ f, Blocked (e, hub) typed' f) := by
  obtain ⟨read, hsplit, hconveyed⟩ := ht.conveyed
  have hunread : OnLines c.unread (hub.content 0) := ht.unread
  have hunclosed : c.closed = false := ht.unclosed
  have hlt := Hub.lt_size_of_receiverOpen hopen
  have hrest : (hub.refill 0 buffer).content 0 = buffer.toList := by
    rw [Hub.content_refill hlt, if_pos rfl]
  have hkept : (hub.refill 0 buffer).content 1 = hub.content 1 := by
    rw [Hub.content_refill hlt, if_neg (by decide)]
  dsimp only at hsplit hconveyed
  rw [hcontent] at hunread hsplit
  obtain ⟨rest, hread, hmore⟩ := Console.read_of_onLines_cons hunclosed hunread
  have hmove := move_of_asks ht.ports c hask
  -- what is typed in is the same value, and it is a value if it is not too long
  rw [hread, typedValue] at hmove
  have hsealed := ht.sealed.step
  have hheard := (listens_step e hub ⟨1, 0⟩).trans ht.heard
  dsimp only at hsealed
  rw [hstep] at hsealed hheard
  cases hwritable : Decimal.isWritable v with
  | true =>
    rw [hwritable, if_pos rfl, typed_answer] at hmove
    rw [hstep]
    refine ⟨_, step_of_act hmove rfl, .inl ⟨hsealed, hheard, rfl, ht.unclosed, hrest.symm ▸ hmore,
      ht.printed.trans hkept.symm, ?_, read ++ [v], ?_, ?_⟩⟩
    · intro cause hfault
      have hrun := (isRunning_iff e').1 hask.isRunning_suspended
      exact absurd (supplied_accept (e := { e' with request := none }) hrun _ _ _ _ hfault) nofun
    · show xs = read ++ [v] ++ (hub.refill 0 buffer).content 0
      rw [hrest, List.append_assoc]
      exact hsplit
    · show ∀ w ∈ read ++ [v] ++ (hub.refill 0 buffer).content 1, Decimal.isWritable w = true
      rw [hkept]
      simp only [List.forall_mem_append, List.forall_mem_singleton] at hconveyed ⊢
      exact ⟨⟨hconveyed.1, hwritable⟩, hconveyed.2⟩
  | false =>
    rw [hwritable, if_neg Bool.false_ne_true] at hmove
    refine ⟨_, step_of_act hmove rfl, .inr ⟨_, .reading hwritable ?_ rfl⟩⟩
    show hub.content 0 = v :: (e.step hub).2.content 0
    rw [hstep]
    exact hcontent.trans (congrArg (v :: ·) hrest.symm)

/-- Where a value is sent, it is printed at the console, unless it has too many digits. -/
theorem step_sends {origin v : Int} {told : Engine}
    (ht : Typing xs (e, hub) (e.atConsole c)) (hmove : e.move = .tell ⟨1, 0⟩ origin v told)
    (hlt : 1 < hub.channels.size)
    (hstep : e.step hub = (told.complete, hub.refill 1 ((hub.channel 1).buffer.push v))) (h : Hub) :
    ∃ typed', (e.atConsole c).step h = (typed', h) ∧
      (Typing xs (e.step hub) typed' ∨ ∃ f, Blocked (e, hub) typed' f) := by
  obtain ⟨read, hsplit, hconveyed⟩ := ht.conveyed
  obtain ⟨_, _, hrun⟩ := respects_of_move hmove
  have hmove' := move_of_tell ht.ports c hmove
  have hkept : (hub.refill 1 ((hub.channel 1).buffer.push v)).content 0 = hub.content 0 := by
    rw [Hub.content_refill hlt, if_neg (by decide)]
  have hsent : (hub.refill 1 ((hub.channel 1).buffer.push v)).content 1 = hub.content 1 ++ [v] := by
    rw [Hub.content_refill hlt, if_pos rfl, Fifo.toList_push]
    rfl
  have hprinted : c.outputs.reverse = hub.content 1 := ht.printed
  have hsealed := ht.sealed.step
  have hheard := (listens_step e hub ⟨1, 0⟩).trans ht.heard
  dsimp only at hsplit hconveyed hsealed
  rw [hstep] at hsealed hheard
  cases hwritable : Decimal.isWritable v with
  | true =>
    rw [Console.print, hwritable, if_pos rfl, printed_tell] at hmove'
    rw [hstep]
    refine ⟨_, step_of_act hmove' rfl, .inl ⟨hsealed, hheard, rfl, ht.unclosed,
      hkept.symm ▸ ht.unread, ?_, ?_, read, hsplit.trans (congrArg (read ++ ·) hkept.symm), ?_⟩⟩
    · show (v :: c.outputs).reverse = _
      rw [List.reverse_cons, hprinted]
      exact hsent.symm
    · intro cause hfault
      exact absurd (supplied_of_running ((status_act told Exec.complete).trans hrun) _ hfault) nofun
    · show ∀ w ∈ read ++ (hub.refill 1 ((hub.channel 1).buffer.push v)).content 1,
        Decimal.isWritable w = true
      rw [hsent]
      simp only [List.forall_mem_append, List.forall_mem_singleton] at hconveyed ⊢
      exact ⟨hconveyed.1, hconveyed.2, hwritable⟩
  | false =>
    rw [Console.print, hwritable, if_neg Bool.false_ne_true] at hmove'
    refine ⟨_, step_of_act hmove' rfl, .inr ⟨_, .printing hwritable ?_ rfl⟩⟩
    show (e.step hub).2.content 1 = hub.content 1 ++ [v]
    rw [hstep]
    exact hsent

/-- **One step of both.**  They go on in the same way, unless a value does not pass the console.  At
    the console no channel changes. -/
theorem step (ht : Typing xs s typed) (h : Hub) :
    ∃ typed', typed.step h = (typed', h) ∧
      (Typing xs (s.1.step s.2) typed' ∨ ∃ f, Blocked s typed' f) := by
  have hsealed := ht.sealed.step
  have hheard := (listens_step s.1 s.2 ⟨1, 0⟩).trans ht.heard
  have hports := ht.ports
  obtain ⟨e, hub⟩ := s
  obtain ⟨c, rfl⟩ : ∃ c, typed = e.atConsole c := ⟨_, ht.engine⟩
  have hplugged := ht.sealed.plugged
  have hexchange := exchange_step e hub
  dsimp only at hsealed hheard hports hplugged ⊢
  generalize e.taken? hub = taken, e.sent? hub = sent, hresult : e.step hub = result
    at hexchange hsealed hheard ⊢
  cases hexchange with
  | rest hmove =>
    have hended := (isRunning_atConsole e c).trans ((move_eq_rest_iff e).1 hmove)
    exact ⟨_, step_of_ended hended, .inl ht⟩
  | @silent next hmove hreq =>
    have hmirrors := mirrors_move hports c
    rw [hmove] at hmirrors
    obtain ⟨hmove', hsupplied⟩ := hmirrors.of_act hreq
    refine ⟨_, step_of_act hmove' rfl, .inl ⟨hsealed, hheard, rfl, ht.unclosed, ht.unread,
      ht.printed, ?_, ht.conveyed⟩⟩
    intro cause hfault
    exact absurd (hsupplied _ hfault) nofun
  | waits hask _ _ hsenders =>
    -- nobody is left to wait for
    rw [hplugged.receiver hask] at hsenders
    exact absurd ht.sealed.senders hsenders
  | takes hask hopen hcontent =>
    rw [hplugged.receiver hask] at hopen hcontent hresult
    rw [hplugged.receiver hask, ← hresult]
    exact ht.step_takes hask hopen hcontent hresult h
  | @givesUp r e' hask hclosed =>
    rw [hplugged.receiver hask] at hclosed
    -- the receiver is open, so it is the content that has come to its end
    have hempty : hub.content 0 = [] := by
      rcases hclosed with hclosed | ⟨hempty, _⟩
      · exact absurd (ht.sealed.receiverOpen.symm.trans hclosed) nofun
      · exact hempty
    have hunread : OnLines c.unread (hub.content 0) := ht.unread
    have hunclosed : c.closed = false := ht.unclosed
    have hread := Console.read_of_onLines_nil hunclosed (hempty ▸ hunread)
    have hmove := move_of_asks hports c hask
    rw [hread] at hmove
    exact ⟨(e'.giveUp r).atConsole { c with prompts := c.prompts + 1 }, step_of_act hmove rfl,
      .inl ⟨hsealed, hheard, rfl, ht.unclosed, ht.unread, ht.printed, nofun, ht.conveyed⟩⟩
  | sends hmove _ hlt =>
    obtain rfl := hplugged.sender hmove
    rw [← hresult]
    exact ht.step_sends hmove hlt hresult h
  | refused hmove hlistens =>
    obtain rfl := hplugged.sender hmove
    exact absurd (ht.heard.symm.trans hlistens) nofun

/-- **A run of both.**  They go on in the same way all along, or up to a step that is not made at the
    console, where the run stops. -/
theorem stepped (ht : Typing xs s typed) (h : Hub) (k : Nat) :
    (∃ typed', Engine.stepped (typed, h) k = (typed', h) ∧ Typing xs (Engine.stepped s k) typed') ∨
      ∃ j < k, ∃ before after f, Engine.stepped (typed, h) j = (before, h) ∧
        Typing xs (Engine.stepped s j) before ∧ before.step h = (after, h) ∧
        Engine.stepped (typed, h) k = (after, h) ∧ Blocked (Engine.stepped s j) after f := by
  induction k with
  | zero => exact .inl ⟨typed, rfl, ht⟩
  | succ k ih =>
    rcases ih with ⟨typed', hstepped, ht'⟩ | ⟨j, hj, before, after, f, hbefore, ht', hstep, hafter,
      hblocked⟩
    · have hnext : Engine.stepped (typed, h) (k + 1) = typed'.step h := by
        rw [Engine.stepped, hstepped]
      obtain ⟨typed'', hstep, ht'' | ⟨f, hblocked⟩⟩ := ht'.step h
      · exact .inl ⟨typed'', hnext.trans hstep, ht''⟩
      · exact .inr ⟨k, Nat.lt_succ_self k, typed', typed'', f, hstepped, ht', hstep,
          hnext.trans hstep, hblocked⟩
    · -- who has stopped stays as he is
      refine .inr ⟨j, Nat.lt_succ_of_lt hj, before, after, f, hbefore, ht', hstep, ?_, hblocked⟩
      rw [Engine.stepped, hafter]
      exact step_of_ended hblocked.isRunning_eq_false

end Typing

end Engine

end Intcode
