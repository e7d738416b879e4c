import Intcode.Proofs.Ended
import Intcode.Proofs.Uses

namespace Intcode.Engine

/-!
# The books about the ends of an engine

Two things are to be known on each side of an engine: where its next value is read or written, and
which end it holds, to be handed over or closed.  They are kept here in books of their own, and
every call is an entry.  Whatever the order of the entries is, the two agree, and the engine does as
the books say.

* `Bindings`, `Bindings.enter` — the books, and the entry of a call
* `Follows`                    — an engine that does as the books say
* `Holds`                      — an engine may still use an end
* `unused_live`                — an end that is not held is not used before it is bound again
* `InStep`, `bindings_in_step` — what the books say about an engine, whatever is asked of it
-/

/-- Where input values are read. -/
inductive Source where
  | console
  | channel (rx : ReceiverRef)
  deriving DecidableEq

/-- Where output values are written. -/
inductive Sink where
  | console
  | channel (tx : SenderRef)
  deriving DecidableEq

/-- The source that goes with an end that is held, or with none. -/
def Source.of : Option ReceiverRef → Source
  | some rx => .channel rx
  | none => .console

/-- The sink that goes with an end that is held, or with none. -/
def Sink.of : Option SenderRef → Sink
  | some tx => .channel tx
  | none => .console

/-- Reading a value. -/
def Source.use : Source → Use
  | .console => .ask
  | .channel rx => .receive rx

/-- Writing a value. -/
def Sink.use (v : Int) : Sink → Use
  | .console => .print v
  | .channel tx => .send tx v

/-- What is to be known about the ends of an engine. -/
structure Bindings where
  /-- A step has been attempted. -/
  started : Bool := false
  source : Source := .console
  /-- The input end that is held. -/
  receiver : Option ReceiverRef := none
  sink : Sink := .console
  /-- The output end that is held. -/
  sender : Option SenderRef := none

namespace Bindings

/-- The end is held. -/
def Has (b : Bindings) : End → Prop
  | .reading rx => b.receiver = some rx
  | .writing tx => b.sender = some tx

instance (b : Bindings) (p : End) : Decidable (b.Has p) :=
  match p with
  | .reading rx => inferInstanceAs (Decidable (b.receiver = some rx))
  | .writing tx => inferInstanceAs (Decidable (b.sender = some tx))

/-- The entry of a single call. -/
def enter (b : Bindings) : Call → Bindings
  | .step => { b with started := true }
  | .bindInput rx =>
    if b.started then b else { b with receiver := some rx, source := .channel rx }
  | .bindOutput tx =>
    if b.started then b else { b with sender := some tx, sink := .channel tx }
  | .takeInput => { b with receiver := none, source := .console }
  | .takeOutput => { b with sender := none, sink := .console }
  | _ => b

end Bindings

/-- The books after single calls. -/
def books (past : List Moment) : Bindings := past.foldl (fun b m => b.enter m.call) {}

theorem books_append (past : List Moment) (m : Moment) :
    books (past ++ [m]) = (books past).enter m.call := List.foldl_append ..

variable {e : Engine} {b : Bindings} {past : List Moment}

/-! ### Engines and their books -/

/-- The two notes on each side agree, and the engine has the ends they tell of. -/
structure Follows (b : Bindings) (e : Engine) : Prop where
  started : e.started = b.started
  input : e.input = b.receiver
  output : e.output = b.sender
  source : b.source = .of b.receiver
  sink : b.sink = .of b.sender

/-- **Every entry** is what the call does. -/
theorem Follows.enter (hfollows : Follows b e) (he : e.Orderly) (h : Hub) {c : Call}
    (hsingle : ∀ fuel, c ≠ .run fuel) : Follows (b.enter c) (e.perform h c).2.1 := by
  obtain ⟨hstarted, hinput, houtput, hsource, hsink⟩ := hfollows
  cases c with
  | run fuel => exact absurd rfl (hsingle fuel)
  | step =>
    exact ⟨he.started_step h, (input_step e h).trans hinput, (output_step e h).trans houtput,
      hsource, hsink⟩
  | get place =>
    obtain ⟨memory, hnext⟩ := actAt_load e place
    show Follows b (e.actAt place Exec.load).2
    rw [hnext]
    exact ⟨hstarted, hinput, houtput, hsource, hsink⟩
  | set place v =>
    obtain ⟨memory, hnext⟩ := actAt_save e place v
    show Follows b (e.actAt place (Exec.save · v)).2
    rw [hnext]
    exact ⟨hstarted, hinput, houtput, hsource, hsink⟩
  | bindInput rx =>
    -- the books tell as the engine does whether it is too late
    unfold Bindings.enter
    dsimp only
    cases hlate : e.started with
    | true =>
      rw [perform_bindInput_of_started hlate, if_pos (hstarted.symm.trans hlate)]
      exact ⟨hstarted, hinput, houtput, hsource, hsink⟩
    | false =>
      rw [perform_bindInput_of_unstarted hlate,
        if_neg (ne_true_of_eq_false (hstarted.symm.trans hlate))]
      exact ⟨hstarted, rfl, houtput, rfl, hsink⟩
  | bindOutput tx =>
    unfold Bindings.enter
    dsimp only
    cases hlate : e.started with
    | true =>
      rw [perform_bindOutput_of_started hlate, if_pos (hstarted.symm.trans hlate)]
      exact ⟨hstarted, hinput, houtput, hsource, hsink⟩
    | false =>
      rw [perform_bindOutput_of_unstarted hlate,
        if_neg (ne_true_of_eq_false (hstarted.symm.trans hlate))]
      exact ⟨hstarted, hinput, rfl, hsource, rfl⟩
  | takeInput => exact ⟨hstarted, rfl, houtput, rfl, hsink⟩
  | takeOutput => exact ⟨hstarted, hinput, rfl, hsource, rfl⟩
  | cloneOutput | close => exact ⟨hstarted, hinput, houtput, hsource, hsink⟩

/-- **Every engine follows its books.** -/
theorem follows_live (cells : List Int) (tracing : Bool) (console : Console) (h : Hub)
    (events : List Event) :
    let s := (ofCells cells tracing console, h)
    Follows (books (moments s events)) (live s events).1 := by
  intro s
  have hstart : s.1.Orderly ∧ Follows (books []) s.1 :=
    ⟨orderly_live cells tracing console h [], rfl, rfl, rfl, rfl, rfl⟩
  have hboth := live_induction (P := fun past e => e.Orderly ∧ Follows (books past) e)
    (fun past e h c hsingle hboth => by
      rw [books_append]
      exact ⟨kept_orderly.perform h c hboth.1, hboth.2.enter hboth.1 h hsingle⟩)
    hstart events
  exact hboth.2

/-! ### What the books say about a call -/

namespace Follows

/-- The next input value is read where the books say. -/
theorem uses_input (hfollows : Follows b e) (hrun : e.isRunning = true) (hreq : e.request = none)
    {i : Instruction} (hfetch : Reference.fetch e.machine.config = .ok i)
    (hop : i.opcode = .input) : e.uses .step = [b.source.use] := by
  have huse : Use.ofInput e.input = b.source.use := by
    rw [hfollows.source, ← hfollows.input]
    cases e.input <;> rfl
  rw [uses_step_of_running hrun hreq, attemptUses, alone_of_input hfetch hop]
  exact congrArg ([·]) huse

/-- The next output value is written where the books say. -/
theorem uses_output (hfollows : Follows b e) (hrun : e.isRunning = true) (hreq : e.request = none)
    {i : Instruction} (hfetch : Reference.fetch e.machine.config = .ok i)
    (hop : i.opcode = .output) {v : Int}
    (hoperand : Reference.operand e.machine.config 1 i.mode1 = .ok v) :
    e.uses .step = [b.sink.use v] := by
  have huse : Use.ofOutput v e.output = b.sink.use v := by
    rw [hfollows.sink, ← hfollows.output]
    cases e.output <;> rfl
  rw [uses_step_of_running hrun hreq, attemptUses, alone_of_output hfetch hop hoperand]
  exact congrArg ([·]) huse

/-- What can be closed is what is held. -/
theorem uses_close (hfollows : Follows b e) :
    e.uses .close =
      (b.receiver.map .closeReceiver).toList ++ (b.sender.map .closeSender).toList := by
  rw [← hfollows.input, ← hfollows.output]
  rfl

end Follows

/-- Once it is noted that the engine has started, an end is only entered when it is taken. -/
theorem Bindings.enter_of_started (hstarted : b.started = true) (c : Call) :
    (b.enter c).receiver = (if c = .takeInput then none else b.receiver) ∧
      (b.enter c).sender = if c = .takeOutput then none else b.sender := by
  cases c with
  | bindInput rx | bindOutput tx =>
    unfold enter
    dsimp only
    rw [if_pos hstarted]
    exact ⟨rfl, rfl⟩
  | _ => exact ⟨rfl, rfl⟩

/-- Once the engine has started, an end can only be taken, which leaves the console. -/
theorem Follows.ends_of_started (hfollows : Follows b e) (he : e.Orderly)
    (hstarted : b.started = true) (h : Hub) (c : Call) :
    (e.perform h c).2.1.input = (if c = .takeInput then none else e.input) ∧
      (e.perform h c).2.1.output = if c = .takeOutput then none else e.output := by
  by_cases hsingle : ∀ fuel, c ≠ .run fuel
  · have hnext := hfollows.enter he h hsingle
    rw [hnext.input, hnext.output, hfollows.input, hfollows.output]
    exact Bindings.enter_of_started hstarted c
  · simp only [not_forall, not_not] at hsingle
    obtain ⟨fuel, rfl⟩ := hsingle
    exact runFor_keeps (I := fun e' => e'.input = e.input ∧ e'.output = e.output)
      (fun e' h' he' => ⟨(input_step e' h').trans he'.1, (output_step e' h').trans he'.2⟩)
      ⟨rfl, rfl⟩ fuel h

/-- The engine counts as started once a step has been attempted. -/
theorem started_books (past : List Moment) :
    (books past).started = true ↔ ∃ m ∈ past, m.call = .step := by
  have hentry (b : Bindings) (c : Call) :
      (b.enter c).started = true ↔ b.started = true ∨ c = .step := by
    unfold Bindings.enter
    cases c with
    | bindInput rx | bindOutput tx =>
      dsimp only
      split <;> simp
    | _ => simp
  suffices hall : ∀ b : Bindings, (past.foldl (fun b m => b.enter m.call) b).started = true ↔
      b.started = true ∨ ∃ m ∈ past, m.call = .step by
    rw [books, hall]
    simp
  intro b
  induction past generalizing b with
  | nil => simp
  | cons m past ih =>
    simp only [List.foldl_cons, ih, hentry, List.mem_cons, exists_eq_or_imp, or_assoc]

/-! ### Ends that are not held -/

/-- The engine may use this end: it holds it, or waits for a value there. -/
def Holds (e : Engine) : End → Prop
  | .reading rx => e.input = some rx ∨ ∃ r, e.request = some r ∧ r.receiver = rx
  | .writing tx => e.output = some tx

/-- The call that binds an end. -/
def End.bind : End → Call
  | .reading rx => .bindInput rx
  | .writing tx => .bindOutput tx

variable {p : End} {u : Use}

/-- What is used at an input is the end that is held. -/
theorem holds_of_ofInput (hp : (Use.ofInput e.input).end? = some p) : e.Holds p := by
  cases hin : e.input with
  | none =>
    rw [hin] at hp
    cases hp
  | some rx =>
    rw [hin] at hp
    cases hp
    exact .inl hin

theorem holds_of_ofOutput {v : Int} (hp : (Use.ofOutput v e.output).end? = some p) :
    e.Holds p := by
  cases hout : e.output with
  | none =>
    rw [hout] at hp
    cases hp
  | some tx =>
    rw [hout] at hp
    cases hp
    exact hout

theorem holds_of_stepUses (hu : u ∈ e.stepUses) (hp : u.end? = some p) : e.Holds p := by
  unfold stepUses at hu
  split at hu
  · split at hu
    · rename_i r hreq
      obtain rfl := List.mem_singleton.1 hu
      cases hp
      exact .inr ⟨r, hreq, rfl⟩
    · unfold attemptUses at hu
      split at hu
      · rename_i d _
        cases d with
        | nothing | halt => cases hu
        | input mode =>
          obtain rfl := List.mem_singleton.1 hu
          exact holds_of_ofInput hp
        | output v =>
          obtain rfl := List.mem_singleton.1 hu
          exact holds_of_ofOutput hp
      · cases hu
  · cases hu

/-- **An engine only uses what it holds.** -/
theorem holds_of_uses {c : Call} (hu : u ∈ e.uses c) (hp : u.end? = some p) : e.Holds p := by
  cases c with
  | step => exact holds_of_stepUses hu hp
  | cloneOutput =>
    obtain ⟨tx, hout, rfl⟩ := Option.map_eq_some_iff.1 (Option.mem_toList.1 hu)
    cases hp
    exact hout
  | close =>
    rcases List.mem_append.1 hu with hu | hu
    · obtain ⟨rx, hin, rfl⟩ := Option.map_eq_some_iff.1 (Option.mem_toList.1 hu)
      cases hp
      exact .inl hin
    · obtain ⟨tx, hout, rfl⟩ := Option.map_eq_some_iff.1 (Option.mem_toList.1 hu)
      cases hp
      exact hout
  | _ => cases hu

/-- The ends of an engine are all that it holds, but for one it waits at. -/
theorem Holds.congr {e' : Engine} (hin : e'.input = e.input) (hout : e'.output = e.output)
    (hreq : ∀ r, e'.request = some r → e.request = some r ∨ e.input = some r.receiver)
    (hholds : e'.Holds p) : e.Holds p := by
  cases p with
  | writing tx => exact hout.symm.trans hholds
  | reading rx =>
    rcases hholds with hheld | ⟨r, hwaits, rfl⟩
    · exact .inl (hin.symm.trans hheld)
    · rcases hreq r hwaits with hbefore | hasks
      · exact .inr ⟨r, hbefore, rfl⟩
      · exact .inl hasks

/-- **An end that is held has been held before, or has just been bound.** -/
theorem holds_of_perform {h : Hub} {c : Call} (hsingle : ∀ fuel, c ≠ .run fuel)
    (hholds : (e.perform h c).2.1.Holds p) :
    e.Holds p ∨ c = p.bind ∧ e.started = false := by
  cases c with
  | run fuel => exact absurd rfl (hsingle fuel)
  | step =>
    refine .inl (hholds.congr (input_step e h) (output_step e h) fun r hreq => ?_)
    exact receiver_of_request_step hreq
  | get place =>
    obtain ⟨memory, hnext⟩ := actAt_load e place
    rw [show (e.perform h (.get place)).2.1 = _ from hnext] at hholds
    exact .inl (hholds.congr rfl rfl fun _ => .inl)
  | set place v =>
    obtain ⟨memory, hnext⟩ := actAt_save e place v
    rw [show (e.perform h (.set place v)).2.1 = _ from hnext] at hholds
    exact .inl (hholds.congr rfl rfl fun _ => .inl)
  | bindInput rx =>
    cases hstarted : e.started with
    | true =>
      rw [perform_bindInput_of_started hstarted] at hholds
      exact .inl hholds
    | false =>
      rw [perform_bindInput_of_unstarted hstarted] at hholds
      cases p with
      | writing tx => exact .inl hholds
      | reading rx' =>
        rcases hholds with hbound | hwaits
        · cases hbound
          exact .inr ⟨rfl, rfl⟩
        · exact .inl (.inr hwaits)
  | bindOutput tx =>
    cases hstarted : e.started with
    | true =>
      rw [perform_bindOutput_of_started hstarted] at hholds
      exact .inl hholds
    | false =>
      rw [perform_bindOutput_of_unstarted hstarted] at hholds
      cases p with
      | reading rx => exact .inl hholds
      | writing tx' =>
        cases hholds
        exact .inr ⟨rfl, rfl⟩
  | takeInput =>
    cases p with
    | writing tx => exact .inl hholds
    | reading rx =>
      rcases hholds with htaken | hwaits
      · cases htaken
      · exact .inl (.inr hwaits)
  | takeOutput =>
    cases p with
    | reading rx => exact .inl hholds
    | writing tx => cases hholds
  | cloneOutput | close => exact .inl hholds

/-- Unless it has been bound, the end is not held, and has not been used. -/
def Spares (p : End) (past : List Moment) (e : Engine) : Prop :=
  (∀ m ∈ past, m.call = p.bind → m.engine.started = true) →
    ¬ e.Holds p ∧ ∀ m ∈ past, ∀ u ∈ m.engine.uses m.call, u.end? ≠ some p

theorem Spares.perform (hspares : Spares p past e) (h : Hub) {c : Call}
    (hsingle : ∀ fuel, c ≠ .run fuel) : Spares p (past ++ [⟨e, c⟩]) (e.perform h c).2.1 := by
  intro hbinds
  obtain ⟨hfree, hunused⟩ := hspares fun m hm => hbinds m (List.mem_append_left _ hm)
  have hlast := hbinds ⟨e, c⟩ (List.mem_append_right _ (List.mem_singleton_self _))
  refine ⟨fun hholds => ?_, fun m hm => ?_⟩
  · rcases holds_of_perform hsingle hholds with hbefore | ⟨hbind, hunstarted⟩
    · exact hfree hbefore
    · exact absurd ((hlast hbind).symm.trans hunstarted) nofun
  · rcases List.mem_append.1 hm with hm | hm
    · exact hunused m hm
    · obtain rfl := List.mem_singleton.1 hm
      exact fun u hu hp => hfree (holds_of_uses hu hp)

/-- **An end that is not held is not used** before it is bound again. -/
theorem unused_live {s : Engine × Hub} (hfree : ¬ s.1.Holds p) (later : List Event)
    (hbinds : ∀ m ∈ moments s later, m.call = p.bind → m.engine.started = true) :
    ∀ m ∈ moments s later, ∀ u ∈ m.engine.uses m.call, u.end? ≠ some p := by
  have hstart : Spares p [] s.1 := fun _ => ⟨hfree, fun _ hm => absurd hm List.not_mem_nil⟩
  have hspares := live_induction (P := Spares p)
    (fun past e h c hsingle hspares => hspares.perform h hsingle) hstart later
  exact (hspares hbinds).2

/-- An engine that does not wait there holds what its books say. -/
theorem Follows.has_of_holds (hfollows : Follows b e)
    (hwaits : ∀ r, e.request = some r → p ≠ .reading r.receiver) (hholds : e.Holds p) :
    b.Has p := by
  cases p with
  | writing tx => exact hfollows.output.symm.trans hholds
  | reading rx =>
    rcases hholds with hheld | ⟨r, hreq, rfl⟩
    · exact hfollows.input.symm.trans hheld
    · exact absurd rfl (hwaits r hreq)

/-! ### Every order of calls -/

/-- An engine and its books are in step, after these calls. -/
structure InStep (past : List Moment) (s : Engine × Hub) : Prop where
  /-- On each side the two notes agree. -/
  agree : (books past).source = .of (books past).receiver ∧
    (books past).sink = .of (books past).sender
  /-- What would be handed over is what is held. -/
  taken : (s.1.perform s.2 .takeInput).1 = .receiver (books past).receiver ∧
    (s.1.perform s.2 .takeOutput).1 = .sender (.ok (books past).sender)
  /-- The next input instruction reads at the source. -/
  input : s.1.isRunning = true → s.1.request = none →
    ∀ i, Reference.fetch s.1.machine.config = .ok i → i.opcode = .input →
      s.1.uses .step = [(books past).source.use]
  /-- The next output instruction writes to the sink, once it has its operand. -/
  output : s.1.isRunning = true → s.1.request = none →
    ∀ i v, Reference.fetch s.1.machine.config = .ok i → i.opcode = .output →
      Reference.operand s.1.machine.config 1 i.mode1 = .ok v →
        s.1.uses .step = [(books past).sink.use v]
  /-- Once a step has been attempted, no end can be bound, and trying to changes nothing. -/
  refused : (∃ m ∈ past, m.call = .step) →
    (∀ rx, s.1.perform s.2 (.bindInput rx) = (.bound (.error .inputAfterStart), s)) ∧
      ∀ tx, s.1.perform s.2 (.bindOutput tx) = (.bound (.error .outputAfterStart), s)
  /-- From then on an end can only be taken, which leaves the console. -/
  lasting : (∃ m ∈ past, m.call = .step) → ∀ c,
    (s.1.perform s.2 c).2.1.input = (if c = .takeInput then none else s.1.input) ∧
      (s.1.perform s.2 c).2.1.output = if c = .takeOutput then none else s.1.output
  /-- Closing closes what is held. -/
  closed : s.1.uses .close = ((books past).receiver.map .closeReceiver).toList ++
    ((books past).sender.map .closeSender).toList
  /-- Nothing is touched but what is used. -/
  confined : ∀ c, (∀ fuel, c ≠ .run fuel) → Confined s.1 c

/-- **An engine and its books are in step**, whatever has been asked of it in whatever order.  An
    end that is not held, since it has been taken or another one has been bound in its place, is
    used by no call that follows, unless it has been bound again before the start, or the engine has
    already been waiting there. -/
theorem bindings_in_step (cells : List Int) (tracing : Bool) (console : Console) (h : Hub)
    (events : List Event) :
    let s := live (ofCells cells tracing console, h) events
    let past := moments (ofCells cells tracing console, h) events
    InStep past s ∧
      ∀ p, ¬ (books past).Has p → (∀ r, s.1.request = some r → p ≠ .reading r.receiver) →
        ∀ later, (∀ m ∈ moments s later, m.call = p.bind → m.engine.started = true) →
          ∀ m ∈ moments s later, ∀ u ∈ m.engine.uses m.call, u.end? ≠ some p := by
  intro s past
  have hfollows : Follows (books past) s.1 := follows_live cells tracing console h events
  have horderly : s.1.Orderly := orderly_live cells tracing console h events
  have hstarted (hattempted : ∃ m ∈ past, m.call = .step) : s.1.started = true :=
    hfollows.started.trans ((started_books past).2 hattempted)
  refine ⟨?_, fun p hfree hwaits later hbinds => ?_⟩
  · constructor
    · exact ⟨hfollows.source, hfollows.sink⟩
    · exact ⟨congrArg Answer.receiver hfollows.input,
        congrArg (Answer.sender ∘ Except.ok) hfollows.output⟩
    · exact fun hrun hreq i hfetch hop => hfollows.uses_input hrun hreq hfetch hop
    · exact fun hrun hreq i v hfetch hop hoperand =>
        hfollows.uses_output hrun hreq hfetch hop hoperand
    · exact fun hattempted => ⟨fun rx => perform_bindInput_of_started (hstarted hattempted) rx s.2,
        fun tx => perform_bindOutput_of_started (hstarted hattempted) tx s.2⟩
    · exact fun hattempted c =>
        hfollows.ends_of_started horderly ((started_books past).2 hattempted) s.2 c
    · exact hfollows.uses_close
    · exact fun c hsingle => Engine.confined s.1 hsingle
  · exact unused_live (fun hholds => hfree (hfollows.has_of_holds hwaits hholds)) later hbinds

/-- Two ends are bound one after the other, and the engine has read a value at the second.  It will
    read the next one there too, and be refused a third end; the first one is never used. -/
theorem bindings_in_step_of_replaced :
    let h : Hub := ⟨#[.holding [5], .holding [7]]⟩
    let events : List Event := [.call (.bindInput ⟨0⟩), .call (.bindInput ⟨1⟩), .call .step]
    let s := live (ofCells [3, 0, 3, 0, 99] false {}, h) events
    let later : List Event := [.call .step, .call .close, .call .takeInput]
    s.1.uses .step = [.receive ⟨1⟩] ∧
      s.1.perform s.2 (.bindInput ⟨2⟩) = (.bound (.error .inputAfterStart), s) ∧
      ∀ m ∈ moments s later, ∀ u ∈ m.engine.uses m.call, u.end? ≠ some (.reading ⟨0⟩) := by
  intro h events s later
  obtain ⟨hbooks, hunused⟩ := bindings_in_step [3, 0, 3, 0, 99] false {} h events
  refine ⟨?_, ?_, ?_⟩
  · exact hbooks.input rfl rfl ⟨.input, 0, 0, 0⟩ rfl rfl
  · exact (hbooks.refused (by decide)).1 ⟨2⟩
  · have hnone : s.1.request = none := rfl
    refine hunused (.reading ⟨0⟩) (by decide) (fun r hreq => ?_) later (by decide)
    exact absurd (hnone.symm.trans hreq) nofun

end Intcode.Engine
