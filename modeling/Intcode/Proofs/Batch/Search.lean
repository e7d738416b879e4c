import Mathlib.Data.List.ProdSigma
import Intcode.Batch.Search
import Intcode.Proofs.Enough
import Intcode.Proofs.Memory.Accesses
import Intcode.Proofs.OwnFault
import Intcode.Proofs.Refinement

namespace Intcode.NounVerb

/-!
# What a search for a noun and a verb finds

Each pair is tried with a batch run of its own, which starts from the program as it was given.  If
all these runs end, the search answers for the first pair, noun by noun, whose run halts with the
value wanted in cell 0; all pairs before it have faulted or left another value.  If there is no such
pair, the search says so, provided that the value wanted can be written.

One fault is not passed over: a program that computes an address with too many digits is stopped
while its fault is being named, and so is the search.

* `pairRun`, `Leaves`, `Faults` — the run of a pair, and how it may end
* `Misses`, `Overruns`          — the runs that are passed over, and those that end the search
* `Loaded`, `loaded_spec`       — what such a run starts from
* `pairRun_eq`                  — a run that has ended has come to all it will come to
* `find_eq`                     — the order in which pairs are tried
* `Finds`, `search_eq_iff`      — what a search comes to
* `search_spec`                 — what is found
-/

/-- The batch run of a program with a noun in cell 1 and a verb in cell 2, on no inputs. -/
def pairRun (fuel : Nat) (image : List Int) (noun verb : Int) : Except Error Batch :=
  Batch.run fuel (.cells image) (some []) [(1, noun), (2, verb)] false {}

/-- The run of a pair is over after at most `fuel` steps. -/
def Ends (fuel : Nat) (image : List Int) (noun verb : Int) : Prop :=
  pairRun fuel image noun verb ≠ .error .unfinished

/-- The run of a pair halts and leaves the value `v` in cell 0. -/
def Leaves (image : List Int) (noun verb v : Int) : Prop :=
  ∃ fuel b, pairRun fuel image noun verb = .ok b ∧ (b.engine.get 0).1 = .ok v

/-- The run of a pair stops at a fault. -/
def Faults (image : List Int) (noun verb : Int) (f : Fault) : Prop :=
  ∃ fuel, pairRun fuel image noun verb = .error (.fault f)

/-- The run of a pair is stopped over what is no address and has too many digits to be named. -/
def Overruns (image : List Int) (noun verb : Int) : Prop := Faults image noun verb (.overlong .written)

/-- The run of a pair comes to something else than the value wanted: it stops at another fault, or
    leaves another value. -/
def Misses (image : List Int) (target noun verb : Int) : Prop :=
  (∃ f, f ≠ .overlong .written ∧ Faults image noun verb f) ∨
    ∃ v, v ≠ target ∧ Leaves image noun verb v

/-- The engine has not started, and holds the program, with the noun in cell 1 and the verb in
    cell 2. -/
structure Loaded (image : List Int) (noun verb : Int) (e : Engine) : Prop where
  fresh : e = { machine := { memory := e.machine.memory } }
  lookup : ∀ n, e.machine.memory.lookup n =
    if n = 1 then noun else if n = 2 then verb else image.getD n 0

variable {image : List Int} {noun verb target v : Int} {fuel k m : Nat} {f : Fault}

/-! ### What a run starts from -/

/-- The engine with which a pair is tried. -/
def loaded (image : List Int) (noun verb : Int) : Engine :=
  let memory := (Memory.ofList image).write ⟨1, by decide⟩ noun
  { machine := { memory := memory.write ⟨2, by decide⟩ verb } }

theorem loaded_spec (image : List Int) (noun verb : Int) :
    Loaded image noun verb (loaded image noun verb) := by
  refine ⟨rfl, fun n => ?_⟩
  simp only [loaded, Memory.lookup_write, Memory.lookup_ofList]
  by_cases hverb : n = 2
  · rw [if_pos hverb, if_neg (by omega), if_pos hverb]
  · rw [if_neg hverb, if_neg hverb]

/-! ### How a run ends -/

/-- A run halts, stops at a fault, or is not over. -/
theorem pairRun_cases (fuel : Nat) (image : List Int) (noun verb : Int) :
    let b := Batch.execute fuel (loaded image noun verb) (some [])
    (b.engine.status = .halted ∧ pairRun fuel image noun verb = .ok b) ∨
      (∃ f origin, (f.isProgram = true ∨ f.isHangUp = true) ∧
        b.engine.status = .faulted f origin ∧ pairRun fuel image noun verb = .error (.fault f)) ∨
      (b.engine.status = .running ∧ pairRun fuel image noun verb = .error .unfinished) := by
  intro b
  have hresult : pairRun fuel image noun verb = b.engine.outcome.map fun _ => b := rfl
  have hknown : ∀ f, b.engine.fault? = some f → f.isProgram = true ∨ f.isHangUp = true := by
    rw [show b = _ from Batch.execute_eq_progress rfl [] fuel]
    exact (Batch.sealed_start rfl []).known_stepped (by rintro f ⟨⟩) fuel
  rw [hresult, Engine.outcome]
  unfold Engine.fault? at hknown
  cases hstatus : b.engine.status with
  | halted => exact .inl ⟨rfl, rfl⟩
  | faulted f origin =>
    rw [hstatus] at hknown
    exact .inr (.inl ⟨f, origin, hknown f rfl, rfl, rfl⟩)
  | running => exact .inr (.inr ⟨rfl, rfl⟩)

/-- A run is over if its engine has ended. -/
theorem ends_iff : Ends k image noun verb ↔
    (Batch.execute k (loaded image noun verb) (some [])).engine.isRunning = false := by
  rw [Engine.isRunning_eq_false_iff, Ends]
  rcases pairRun_cases k image noun verb with
    ⟨hstatus, hrun⟩ | ⟨f, origin, -, hstatus, hrun⟩ | ⟨hstatus, hrun⟩ <;> simp [hstatus, hrun]

/-- **What the run of a pair comes to does not depend on how long one waits for it.** -/
theorem pairRun_eq (hk : Ends k image noun verb) (hm : Ends m image noun verb) :
    pairRun k image noun verb = pairRun m image noun verb :=
  Lasts.eq (fun _ _ => Batch.lasts_result (e := loaded image noun verb) rfl []) hm hk

/-- What a run comes to at some time is what it has come to when it is over. -/
theorem exists_pairRun_eq_iff {r : Except Error Batch} (hends : Ends fuel image noun verb)
    (hr : r ≠ .error .unfinished) :
    (∃ k, pairRun k image noun verb = r) ↔ pairRun fuel image noun verb = r := by
  refine ⟨?_, fun hrun => ⟨fuel, hrun⟩⟩
  rintro ⟨k, rfl⟩
  exact pairRun_eq hends hr

/-- The value that a run leaves is found when it is over. -/
theorem leaves_iff (hends : Ends fuel image noun verb) :
    Leaves image noun verb v ↔
      ∃ b, pairRun fuel image noun verb = .ok b ∧ (b.engine.get 0).1 = .ok v := by
  constructor
  · rintro ⟨k, b, hrun, hvalue⟩
    exact ⟨b, (exists_pairRun_eq_iff (r := .ok b) hends nofun).1 ⟨k, hrun⟩, hvalue⟩
  · rintro ⟨b, hrun, hvalue⟩
    exact ⟨fuel, b, hrun, hvalue⟩

/-- And so is the fault at which it has stopped. -/
theorem faults_iff (hends : Ends fuel image noun verb) :
    Faults image noun verb f ↔ pairRun fuel image noun verb = .error (.fault f) :=
  exists_pairRun_eq_iff hends nofun

theorem get_zero (e : Engine) : (e.get 0).1 = .ok (e.machine.memory.lookup 0) := by
  obtain ⟨⟨memory, pc, base, steps⟩, _⟩ := e
  exact congrArg Except.ok (Memory.read_fst memory ⟨0, by decide⟩)

/-- **A pair misses the value wanted** if its run neither leaves it nor ends the search. -/
theorem misses_iff (hends : Ends fuel image noun verb) :
    Misses image target noun verb ↔
      ¬Leaves image noun verb target ∧ ¬Overruns image noun verb := by
  unfold Misses Overruns
  simp only [leaves_iff hends, faults_iff hends]
  rcases pairRun_cases fuel image noun verb with ⟨-, hrun⟩ | ⟨f, -, -, -, hrun⟩ | ⟨-, hrun⟩
  · simp [hrun, get_zero, eq_comm]
  · simp [hrun]
  · exact absurd hrun hends

/-- The faults that a run on sealed inputs stops at are passed over, but for one. -/
theorem isA_fault_of_known (hknown : f.isProgram = true ∨ f.isHangUp = true)
    (hf : f ≠ .overlong .written) : f.kind.isA .fault = true := by
  cases f with
  | overlong cause =>
    cases cause with
    | written => exact absurd rfl hf
    | read => exact absurd hknown nofun
  | console => exact absurd hknown nofun
  | outOfBounds | unrecognizedOpcode | unrecognizedMode | inputClosed | outputClosed => rfl

/-- **A pair is judged** when its run is over: it is accepted if the run leaves the value wanted,
    and passed over if it misses it; a run that is stopped over what cannot be named ends the
    search. -/
theorem accepts_cases (fuel : Nat) (image : List Int) (target noun verb : Int) :
    (Ends fuel image noun verb ∧ Leaves image noun verb target ∧
      accepts fuel image target noun verb = .ok true) ∨
    (Ends fuel image noun verb ∧ Misses image target noun verb ∧
      accepts fuel image target noun verb = .ok false) ∨
    (Ends fuel image noun verb ∧ Overruns image noun verb ∧
      accepts fuel image target noun verb = .error (.fault (.overlong .written))) ∨
    (¬Ends fuel image noun verb ∧ accepts fuel image target noun verb = .error .unfinished) := by
  have haccepts : accepts fuel image target noun verb =
      leaves (Batch.execute fuel (loaded image noun verb) (some [])) target := rfl
  rw [haccepts]
  rcases pairRun_cases fuel image noun verb with
    ⟨hstatus, hrun⟩ | ⟨f, origin, hknown, hstatus, hrun⟩ | ⟨hstatus, hrun⟩
  · have hends : Ends fuel image noun verb := by
      rw [Ends, hrun]
      exact nofun
    rw [misses_iff hends, Overruns, faults_iff hends, leaves_iff hends, hrun]
    by_cases hvalue : (Batch.execute fuel (loaded image noun verb)
        (some [])).engine.machine.memory.lookup 0 = target
    · exact .inl ⟨hends, ⟨_, rfl, by rw [get_zero, hvalue]⟩, by simp [leaves, hstatus, hvalue]⟩
    · refine .inr (.inl ⟨hends, ⟨?_, nofun⟩, by simp [leaves, hstatus, hvalue]⟩)
      rintro ⟨_, ⟨⟩, hleft⟩
      exact hvalue (Except.ok.inj ((get_zero _).symm.trans hleft))
  · have hends : Ends fuel image noun verb := by
      rw [Ends, hrun]
      exact nofun
    -- every fault is passed over, except the one that is no fault of the machine
    by_cases hf : f = .overlong .written
    · subst hf
      refine .inr (.inr (.inl ⟨hends, (faults_iff hends).2 hrun, ?_⟩))
      unfold leaves
      rw [hstatus]
      rfl
    · refine .inr (.inl ⟨hends, .inl ⟨f, hf, (faults_iff hends).2 hrun⟩, ?_⟩)
      simp [leaves, hstatus, isA_fault_of_known hknown hf]
  · refine .inr (.inr (.inr ⟨fun hends => hends hrun, ?_⟩))
    unfold leaves
    rw [hstatus]

/-- A pair is passed over if and only if its run is over and misses the value wanted. -/
theorem accepts_eq_false_iff :
    accepts fuel image target noun verb = .ok false ↔
      Ends fuel image noun verb ∧ Misses image target noun verb := by
  rcases accepts_cases fuel image target noun verb with
    ⟨hends, hleaves, haccepts⟩ | ⟨hends, hmisses, haccepts⟩ | ⟨hends, hoverruns, haccepts⟩ |
    ⟨hrunning, haccepts⟩ <;> rw [haccepts]
  · exact iff_of_false nofun fun h => ((misses_iff hends).1 h.2).1 hleaves
  · exact iff_of_true rfl ⟨hends, hmisses⟩
  · exact iff_of_false nofun fun h => ((misses_iff hends).1 h.2).2 hoverruns
  · exact iff_of_false nofun fun h => hrunning h.1

/-- It is accepted if and only if its run is over and leaves that value. -/
theorem accepts_eq_true_iff :
    accepts fuel image target noun verb = .ok true ↔
      Ends fuel image noun verb ∧ Leaves image noun verb target := by
  rcases accepts_cases fuel image target noun verb with
    ⟨hends, hleaves, haccepts⟩ | ⟨hends, hmisses, haccepts⟩ | ⟨hends, hoverruns, haccepts⟩ |
    ⟨hrunning, haccepts⟩ <;> rw [haccepts]
  · exact iff_of_true rfl ⟨hends, hleaves⟩
  · exact iff_of_false nofun fun h => ((misses_iff hends).1 hmisses).1 h.2
  · refine iff_of_false nofun fun h => ?_
    obtain ⟨b, hrun, -⟩ := (leaves_iff hends).1 h.2
    cases hrun.symm.trans ((faults_iff hends).1 hoverruns)
  · exact iff_of_false nofun fun h => hrunning h.1

/-- Nothing else ends the search, apart from a run that is not over. -/
theorem accepts_eq_error_iff {e : Error} (he : e ≠ .unfinished) :
    accepts fuel image target noun verb = .error e ↔
      e = .fault (.overlong .written) ∧ Ends fuel image noun verb ∧ Overruns image noun verb := by
  rcases accepts_cases fuel image target noun verb with
    ⟨hends, hleaves, haccepts⟩ | ⟨hends, hmisses, haccepts⟩ | ⟨hends, hoverruns, haccepts⟩ |
    ⟨hrunning, haccepts⟩ <;> rw [haccepts]
  · refine iff_of_false nofun fun h => ?_
    obtain ⟨b, hrun, -⟩ := (leaves_iff hends).1 hleaves
    cases hrun.symm.trans ((faults_iff hends).1 h.2.2)
  · exact iff_of_false nofun fun h => ((misses_iff hends).1 hmisses).2 h.2.2
  · exact ⟨fun h => ⟨(Except.error.inj h).symm, hends, hoverruns⟩, fun h => congrArg _ h.1.symm⟩
  · exact iff_of_false (fun h => he (Except.error.inj h).symm) fun h => hrunning h.2.1

/-! ### The search -/

/-- An attempt is the last one if it is accepted or raises an error. -/
def isLast : Except Error Bool → Bool
  | .ok accepted => accepted
  | .error _ => true

/-- What a search comes to whose last attempt is at this member, if there is one. -/
def found {α : Type} (p : α → Except Error Bool) : Option α → Except Error (Option α)
  | none => .ok none
  | some a => (p a).map fun _ => some a

theorem findM?_eq {α : Type} (p : α → Except Error Bool) (l : List α) :
    l.findM? p = found p (l.find? fun a => isLast (p a)) := by
  induction l with
  | nil => rfl
  | cons a l ih =>
    have hcons : (a :: l).findM? p =
        (p a >>= fun accepted => if accepted then pure (some a) else l.findM? p) := by
      rw [List.findM?]
      congr 1
      funext accepted
      cases accepted <;> rfl
    rw [hcons, ih, List.find?_cons]
    rcases hp : p a with e | _ | _
    · exact congrArg (Except.map fun _ => some a) hp.symm
    · rfl
    · exact congrArg (Except.map fun _ => some a) hp.symm

/-- Pairs are tried noun by noun, up to the last attempt. -/
theorem find_eq (p : Int → Int → Except Error Bool) (nouns verbs : List Int) :
    find p nouns verbs = found (fun pair => p pair.1 pair.2)
      ((nouns ×ˢ verbs).find? fun pair => isLast (p pair.1 pair.2)) := by
  induction nouns with
  | nil => rfl
  | cons noun nouns ih =>
    have hcomp : (fun pair : Int × Int => isLast (p pair.1 pair.2)) ∘ Prod.mk noun =
        fun verb => isLast (p noun verb) := rfl
    -- the pairs with this noun are tried before all others
    rw [List.product_cons, List.find?_append, List.find?_map, hcomp, find, findM?_eq]
    cases verbs.find? fun verb => isLast (p noun verb) with
    | none => exact ih
    | some verb =>
      show ((p noun verb).map _ >>= _) = (p noun verb).map _
      cases p noun verb <;> rfl

/-- What a search comes to whose runs are over, as far as they are needed. -/
inductive Finds (fuel : Nat) (image : List Int) (target : Int) (nouns verbs : List Int) :
    Except Error Int → Prop where
  /-- A pair leaves the value wanted. -/
  | pair {front back : List (Int × Int)} {noun verb : Int}
      (hsplit : nouns ×ˢ verbs = front ++ (noun, verb) :: back)
      (hleaves : Ends fuel image noun verb ∧ Leaves image noun verb target)
      (hfront : ∀ pair ∈ front, Ends fuel image pair.1 pair.2 ∧ Misses image target pair.1 pair.2) :
    Finds fuel image target nouns verbs (.ok (100 * noun + verb))
  /-- The run of a pair is stopped over what cannot be named. -/
  | overrun {front back : List (Int × Int)} {noun verb : Int}
      (hsplit : nouns ×ˢ verbs = front ++ (noun, verb) :: back)
      (hoverruns : Ends fuel image noun verb ∧ Overruns image noun verb)
      (hfront : ∀ pair ∈ front, Ends fuel image pair.1 pair.2 ∧ Misses image target pair.1 pair.2) :
    Finds fuel image target nouns verbs (.error (.fault (.overlong .written)))
  /-- There is no pair. -/
  | nothing (hshort : Decimal.digitCount target ≤ digitLimit)
      (hall : ∀ pair ∈ nouns ×ˢ verbs,
        Ends fuel image pair.1 pair.2 ∧ Misses image target pair.1 pair.2) :
    Finds fuel image target nouns verbs (.error (.noPair target))
  /-- There is no pair for a value that cannot be named. -/
  | unnamed (hlong : digitLimit < Decimal.digitCount target)
      (hall : ∀ pair ∈ nouns ×ˢ verbs,
        Ends fuel image pair.1 pair.2 ∧ Misses image target pair.1 pair.2) :
    Finds fuel image target nouns verbs (.error (.overlong .written))

section Search

variable {program : Program.Source} {nouns verbs : List Int} {front back : List (Int × Int)}

theorem search_of_image (himage : program.image = .ok image) (fuel : Nat) (target : Int)
    (nouns verbs : List Int) :
    search fuel program target nouns verbs =
      found (fun pair => accepts fuel image target pair.1 pair.2)
        ((nouns ×ˢ verbs).find? fun pair => isLast (accepts fuel image target pair.1 pair.2)) >>=
          result target := by
  rw [search, himage, ← find_eq]
  rfl

/-- The pairs that miss the value wanted are passed over, and no others. -/
theorem isLast_eq_false_iff : isLast (accepts fuel image target noun verb) = false ↔
    Ends fuel image noun verb ∧ Misses image target noun verb := by
  rw [← accepts_eq_false_iff]
  rcases accepts fuel image target noun verb with e | _ | _ <;> simp [isLast]

/-- The last attempt is the first that does not miss it. -/
theorem find?_isLast_eq_some_iff :
    ((nouns ×ˢ verbs).find? fun pair => isLast (accepts fuel image target pair.1 pair.2)) =
        some (noun, verb) ↔
      isLast (accepts fuel image target noun verb) = true ∧
        ∃ front back, nouns ×ˢ verbs = front ++ (noun, verb) :: back ∧ ∀ pair ∈ front,
          Ends fuel image pair.1 pair.2 ∧ Misses image target pair.1 pair.2 := by
  rw [List.find?_eq_some_iff_append]
  simp only [Bool.not_eq_true', isLast_eq_false_iff]

theorem find?_isLast_eq_none_iff :
    ((nouns ×ˢ verbs).find? fun pair => isLast (accepts fuel image target pair.1 pair.2)) = none ↔
      ∀ pair ∈ nouns ×ˢ verbs,
        Ends fuel image pair.1 pair.2 ∧ Misses image target pair.1 pair.2 := by
  rw [List.find?_eq_none]
  simp only [Bool.not_eq_true, isLast_eq_false_iff]

theorem Finds.search_eq {r : Except Error Int} (hfinds : Finds fuel image target nouns verbs r)
    (himage : program.image = .ok image) : search fuel program target nouns verbs = r := by
  rw [search_of_image himage]
  cases hfinds with
  | pair hsplit hleaves hfront =>
    have haccepts := accepts_eq_true_iff.2 hleaves
    rw [find?_isLast_eq_some_iff.2 ⟨congrArg isLast haccepts, _, _, hsplit, hfront⟩, found,
      haccepts]
    rfl
  | overrun hsplit hoverruns hfront =>
    have haccepts : accepts fuel image target _ _ = .error (.fault (.overlong .written)) :=
      (accepts_eq_error_iff (by nofun)).2 ⟨rfl, hoverruns⟩
    rw [find?_isLast_eq_some_iff.2 ⟨congrArg isLast haccepts, _, _, hsplit, hfront⟩, found,
      haccepts]
    rfl
  | nothing hshort hall =>
    rw [find?_isLast_eq_none_iff.2 hall]
    exact congrArg Except.error (if_pos (decide_eq_true hshort))
  | unnamed hlong hall =>
    rw [find?_isLast_eq_none_iff.2 hall]
    exact congrArg Except.error
      (if_neg fun hwritable => Nat.not_le.2 hlong (of_decide_eq_true hwritable))

/-- A search comes to something, or to a run that is not over. -/
theorem finds_or_unfinished (himage : program.image = .ok image) (fuel : Nat) (target : Int)
    (nouns verbs : List Int) :
    (∃ r, Finds fuel image target nouns verbs r) ∨
      ∃ noun ∈ nouns, ∃ verb ∈ verbs, ¬Ends fuel image noun verb ∧
        search fuel program target nouns verbs = .error .unfinished := by
  cases hfound : (nouns ×ˢ verbs).find? fun pair =>
      isLast (accepts fuel image target pair.1 pair.2) with
  | none =>
    have hall := find?_isLast_eq_none_iff.1 hfound
    rcases Nat.lt_or_ge digitLimit (Decimal.digitCount target) with hlong | hshort
    · exact .inl ⟨_, .unnamed hlong hall⟩
    · exact .inl ⟨_, .nothing hshort hall⟩
  | some pair =>
    obtain ⟨noun, verb⟩ := pair
    obtain ⟨hlast, front, back, hsplit, hfront⟩ := find?_isLast_eq_some_iff.1 hfound
    rcases accepts_cases fuel image target noun verb with
      ⟨hends, hleaves, -⟩ | ⟨hends, hmisses, -⟩ | ⟨hends, hoverruns, -⟩ | ⟨hrunning, haccepts⟩
    · exact .inl ⟨_, .pair hsplit ⟨hends, hleaves⟩ hfront⟩
    · rw [isLast_eq_false_iff.2 ⟨hends, hmisses⟩] at hlast
      cases hlast
    · exact .inl ⟨_, .overrun hsplit ⟨hends, hoverruns⟩ hfront⟩
    · have hmem : (noun, verb) ∈ nouns ×ˢ verbs := List.mem_of_find?_eq_some hfound
      obtain ⟨hnoun, hverb⟩ := List.mem_product.1 hmem
      refine .inr ⟨noun, hnoun, verb, hverb, hrunning, ?_⟩
      rw [search_of_image himage, hfound, found, haccepts]
      rfl

/-- **A search comes to nothing else.** -/
theorem search_eq_iff (himage : program.image = .ok image) {r : Except Error Int}
    (hr : r ≠ .error .unfinished) :
    search fuel program target nouns verbs = r ↔ Finds fuel image target nouns verbs r := by
  refine ⟨?_, fun hfinds => hfinds.search_eq himage⟩
  rintro rfl
  rcases finds_or_unfinished himage fuel target nouns verbs with
    ⟨r, hfinds⟩ | ⟨_, -, _, -, -, hunfinished⟩
  · rwa [hfinds.search_eq himage]
  · exact absurd hunfinished hr

/-! If all runs end, the pairs need only be told apart by what they come to. -/

theorem ends_of_mem (hends : ∀ noun ∈ nouns, ∀ verb ∈ verbs, Ends fuel image noun verb)
    (hpair : (noun, verb) ∈ nouns ×ˢ verbs) : Ends fuel image noun verb :=
  have hmem := List.mem_product.1 hpair
  hends noun hmem.1 verb hmem.2

theorem misses_all_iff (hends : ∀ noun ∈ nouns, ∀ verb ∈ verbs, Ends fuel image noun verb) :
    (∀ pair ∈ nouns ×ˢ verbs, Ends fuel image pair.1 pair.2 ∧ Misses image target pair.1 pair.2) ↔
      ∀ noun ∈ nouns, ∀ verb ∈ verbs, Misses image target noun verb := by
  constructor
  · exact fun h noun hnoun verb hverb => (h (noun, verb) (List.mem_product.2 ⟨hnoun, hverb⟩)).2
  · intro h pair hpair
    obtain ⟨hnoun, hverb⟩ := List.mem_product.1 hpair
    exact ⟨ends_of_mem hends hpair, h _ hnoun _ hverb⟩

theorem ends_of_split (hends : ∀ noun ∈ nouns, ∀ verb ∈ verbs, Ends fuel image noun verb)
    (hsplit : nouns ×ˢ verbs = front ++ (noun, verb) :: back) : Ends fuel image noun verb :=
  ends_of_mem hends (by simp [hsplit])

theorem ends_front (hends : ∀ noun ∈ nouns, ∀ verb ∈ verbs, Ends fuel image noun verb)
    (hsplit : nouns ×ˢ verbs = front ++ (noun, verb) :: back)
    (hfront : ∀ pair ∈ front, Misses image target pair.1 pair.2) :
    ∀ pair ∈ front, Ends fuel image pair.1 pair.2 ∧ Misses image target pair.1 pair.2 :=
  fun pair hpair => ⟨ends_of_mem hends (by simp [hsplit, hpair]), hfront pair hpair⟩

/-- The search answers for the first pair that leaves the value wanted. -/
theorem search_eq_ok_iff (himage : program.image = .ok image)
    (hends : ∀ noun ∈ nouns, ∀ verb ∈ verbs, Ends fuel image noun verb) {a : Int} :
    search fuel program target nouns verbs = .ok a ↔
      ∃ front noun verb back, nouns ×ˢ verbs = front ++ (noun, verb) :: back ∧
        Leaves image noun verb target ∧ a = 100 * noun + verb ∧
        ∀ pair ∈ front, Misses image target pair.1 pair.2 := by
  rw [search_eq_iff himage (by rintro ⟨⟩)]
  constructor
  · intro hfinds
    cases hfinds with
    | pair hsplit hleaves hfront =>
      exact ⟨_, _, _, _, hsplit, hleaves.2, rfl, fun pair hpair => (hfront pair hpair).2⟩
  · rintro ⟨front, noun, verb, back, hsplit, hleaves, rfl, hfront⟩
    exact .pair hsplit ⟨ends_of_split hends hsplit, hleaves⟩ (ends_front hends hsplit hfront)

/-- It stops over the first pair that cannot be passed over. -/
theorem search_eq_overrun_iff (himage : program.image = .ok image)
    (hends : ∀ noun ∈ nouns, ∀ verb ∈ verbs, Ends fuel image noun verb) :
    search fuel program target nouns verbs = .error (.fault (.overlong .written)) ↔
      ∃ front noun verb back, nouns ×ˢ verbs = front ++ (noun, verb) :: back ∧
        Overruns image noun verb ∧ ∀ pair ∈ front, Misses image target pair.1 pair.2 := by
  rw [search_eq_iff himage (by rintro ⟨⟩)]
  constructor
  · intro hfinds
    cases hfinds with
    | overrun hsplit hoverruns hfront =>
      exact ⟨_, _, _, _, hsplit, hoverruns.2, fun pair hpair => (hfront pair hpair).2⟩
  · rintro ⟨front, noun, verb, back, hsplit, hoverruns, hfront⟩
    exact .overrun hsplit ⟨ends_of_split hends hsplit, hoverruns⟩ (ends_front hends hsplit hfront)

/-- It finds no pair if all of them miss the value wanted, and this can be written. -/
theorem search_eq_noPair_iff (himage : program.image = .ok image)
    (hends : ∀ noun ∈ nouns, ∀ verb ∈ verbs, Ends fuel image noun verb) :
    search fuel program target nouns verbs = .error (.noPair target) ↔
      Decimal.digitCount target ≤ digitLimit ∧
        ∀ noun ∈ nouns, ∀ verb ∈ verbs, Misses image target noun verb := by
  rw [search_eq_iff himage (by rintro ⟨⟩), ← misses_all_iff hends]
  constructor
  · intro hfinds
    cases hfinds with | nothing hshort hall => exact ⟨hshort, hall⟩
  · rintro ⟨hshort, hall⟩
    exact .nothing hshort hall

/-- And if this cannot be written, it cannot even tell so. -/
theorem search_eq_unnamed_iff (himage : program.image = .ok image)
    (hends : ∀ noun ∈ nouns, ∀ verb ∈ verbs, Ends fuel image noun verb) :
    search fuel program target nouns verbs = .error (.overlong .written) ↔
      digitLimit < Decimal.digitCount target ∧
        ∀ noun ∈ nouns, ∀ verb ∈ verbs, Misses image target noun verb := by
  rw [search_eq_iff himage (by rintro ⟨⟩), ← misses_all_iff hends]
  constructor
  · intro hfinds
    cases hfinds with | unnamed hlong hall => exact ⟨hlong, hall⟩
  · rintro ⟨hlong, hall⟩
    exact .unnamed hlong hall

/-- There is no other outcome. -/
theorem search_cases (himage : program.image = .ok image)
    (hends : ∀ noun ∈ nouns, ∀ verb ∈ verbs, Ends fuel image noun verb) :
    (∃ a, search fuel program target nouns verbs = .ok a) ∨
      search fuel program target nouns verbs = .error (.noPair target) ∨
      search fuel program target nouns verbs = .error (.fault (.overlong .written)) ∨
      search fuel program target nouns verbs = .error (.overlong .written) := by
  rcases finds_or_unfinished himage fuel target nouns verbs with
    ⟨r, hfinds⟩ | ⟨noun, hnoun, verb, hverb, hrunning, -⟩
  · rw [hfinds.search_eq himage]
    cases hfinds with
    | pair => exact .inl ⟨_, rfl⟩
    | nothing => exact .inr (.inl rfl)
    | overrun => exact .inr (.inr (.inl rfl))
    | unnamed => exact .inr (.inr (.inr rfl))
  · exact absurd (hends noun hnoun verb hverb) hrunning

end Search

/-- **A search finds the first pair that leaves the value wanted.**  A program that is not read is
    refused.  For any other one, provided that all runs end: the search answers `100 * noun + verb`
    for the first pair, noun by noun, whose run halts with the value wanted in cell 0, where the run
    of each pair before it stops at a fault or leaves another value; it tells that there is no pair
    if all pairs are like that, and the value wanted has no more digits than are written.  Each run
    starts from the program as it was given.

    The search raises an error over the first pair instead whose run is stopped over what is no
    address and has more digits than are written; and if all pairs miss a value with so many
    digits.  It has no other outcome. -/
theorem search_spec (fuel : Nat) (program : Program.Source) (target : Int)
    (nouns verbs : List Int) :
    match program.image with
    | .error e => search fuel program target nouns verbs = .error (.parse e)
    | .ok image =>
      (∀ noun verb, ∃ e, Loaded image noun verb e ∧ ∀ k,
        pairRun k image noun verb = (Batch.execute k e (some [])).result) ∧
      ((∀ noun ∈ nouns, ∀ verb ∈ verbs, Ends fuel image noun verb) →
        (∀ noun ∈ nouns, ∀ verb ∈ verbs, Misses image target noun verb ↔
          ¬Leaves image noun verb target ∧ ¬Overruns image noun verb) ∧
        (∀ a, search fuel program target nouns verbs = .ok a ↔
          ∃ front noun verb back, nouns ×ˢ verbs = front ++ (noun, verb) :: back ∧
            Leaves image noun verb target ∧ a = 100 * noun + verb ∧
            ∀ pair ∈ front, Misses image target pair.1 pair.2) ∧
        (search fuel program target nouns verbs = .error (.noPair target) ↔
          Decimal.digitCount target ≤ digitLimit ∧
            ∀ noun ∈ nouns, ∀ verb ∈ verbs, Misses image target noun verb) ∧
        (search fuel program target nouns verbs = .error (.fault (.overlong .written)) ↔
          ∃ front noun verb back, nouns ×ˢ verbs = front ++ (noun, verb) :: back ∧
            Overruns image noun verb ∧ ∀ pair ∈ front, Misses image target pair.1 pair.2) ∧
        (search fuel program target nouns verbs = .error (.overlong .written) ↔
          digitLimit < Decimal.digitCount target ∧
            ∀ noun ∈ nouns, ∀ verb ∈ verbs, Misses image target noun verb) ∧
        ((∃ a, search fuel program target nouns verbs = .ok a) ∨
          search fuel program target nouns verbs = .error (.noPair target) ∨
          search fuel program target nouns verbs = .error (.fault (.overlong .written)) ∨
          search fuel program target nouns verbs = .error (.overlong .written))) := by
  cases himage : program.image with
  | error e =>
    show search _ _ _ _ _ = _
    rw [search, himage]
    rfl
  | ok image =>
    exact ⟨fun noun verb => ⟨_, loaded_spec image noun verb, fun k => rfl⟩, fun hends =>
      ⟨fun noun hnoun verb hverb => misses_iff (hends noun hnoun verb hverb),
        fun _ => search_eq_ok_iff himage hends, search_eq_noPair_iff himage hends,
        search_eq_overrun_iff himage hends, search_eq_unnamed_iff himage hends,
        search_cases himage hends⟩⟩

/-- A program that adds the cells that its noun and its verb point at. -/
def adder : List Int := [1, 0, 0, 0, 99]

/-- A noun that points nowhere is passed over with every verb, and so is a sum that is not wanted;
    a sum that no pair makes is not found. -/
theorem search_spec_of_adder :
    (∀ noun ∈ [-1, 0], ∀ verb ∈ [0, 4], Ends 2 adder noun verb) ∧
      (∃ front noun verb back, [-1, 0] ×ˢ [0, 4] = front ++ (noun, verb) :: back ∧
        Leaves adder noun verb 100 ∧ 4 = 100 * noun + verb ∧
        ∀ pair ∈ front, Misses adder 100 pair.1 pair.2) ∧
      ∀ noun ∈ [-1, 0], ∀ verb ∈ [0, 4], Misses adder 7 noun verb := by
  have hends : ∀ noun ∈ [-1, 0], ∀ verb ∈ [0, 4], Ends 2 adder noun verb := by
    simp only [ends_iff]
    decide +kernel
  obtain ⟨-, hanswer, -⟩ := (search_spec 2 (.cells adder) 100 [-1, 0] [0, 4]).2 hends
  obtain ⟨-, -, hnone, -⟩ := (search_spec 2 (.cells adder) 7 [-1, 0] [0, 4]).2 hends
  exact ⟨hends, (hanswer 4).1 (by decide +kernel), (hnone.1 (by decide +kernel)).2⟩

/-- A program that emits the cell that its noun points at, and goes on at its verb. -/
def pointer : List Int := [4, 0, 0]

theorem status_loaded_pointer {noun : Int} (hlong : digitLimit < Decimal.digitCount noun)
    (verb : Int) :
    (Batch.execute 2 (loaded pointer noun verb) (some [])).engine.status =
      .faulted (.overlong .written) 0 := by
  let s := ((loaded pointer noun verb).wired ⟨0⟩ ⟨1, 0⟩, Batch.channels [])
  have hstatus : (s.1.step s.2).1.status = .faulted (.overlong .written) 0 :=
    Engine.status_step_of_refused rfl rfl rfl rfl rfl (Reference.cell_of_overlong 2 hlong)
  have hone : Engine.stepped s 1 = s.1.step s.2 := by
    rw [Engine.stepped, Engine.stepped]
  have hended : (Engine.stepped s 1).1.isRunning = false := by
    rw [Engine.isRunning_eq_false_iff, hone, hstatus]
    rintro ⟨⟩
  have hprogress : (Batch.execute 2 (loaded pointer noun verb) (some [])).engine =
      (Engine.stepped s 2).1 := by
    rw [Batch.execute_eq_progress rfl, Batch.progress]
  rw [hprogress, Engine.stepped_of_ended hended (Nat.le_succ 1), hone, hstatus]

/-- **A fault that is not passed over.**  Both runs end, the second one with the value wanted, and
    the search does not get there. -/
theorem not_found_behind_power :
    Ends 2 pointer (10 ^ digitLimit) 99 ∧ Ends 2 pointer 0 99 ∧
      ¬Leaves pointer (10 ^ digitLimit) 99 4 ∧ Leaves pointer 0 99 4 ∧
      search 2 (.cells pointer) 4 [10 ^ digitLimit, 0] [99] ≠ .ok (100 * 0 + 99) := by
  have hstatus := status_loaded_pointer Numeral.overlong_pow 99
  have hfirst : Ends 2 pointer (10 ^ digitLimit) 99 := by
    rw [ends_iff, Engine.isRunning_eq_false_iff, hstatus]
    rintro ⟨⟩
  have hsecond : Ends 2 pointer 0 99 := by
    rw [ends_iff]
    decide +kernel
  have hover : Overruns pointer (10 ^ digitLimit) 99 := by
    rw [Overruns, faults_iff hfirst]
    rcases pairRun_cases 2 pointer (10 ^ digitLimit) 99 with
      ⟨hhalted, -⟩ | ⟨f, origin, -, hfaulted, hrun⟩ | ⟨hrunning, -⟩
    · cases hhalted.symm.trans hstatus
    · cases hfaulted.symm.trans hstatus
      exact hrun
    · cases hrunning.symm.trans hstatus
  have hmissed : ¬Leaves pointer (10 ^ digitLimit) 99 4 := by
    rw [leaves_iff hfirst]
    rintro ⟨b, hrun, -⟩
    rw [Overruns, faults_iff hfirst, hrun] at hover
    cases hover
  have hleft : Leaves pointer 0 99 4 := ⟨2, _, rfl, rfl⟩
  have hsearch : search 2 (.cells pointer) 4 [10 ^ digitLimit, 0] [99] =
      .error (.fault (.overlong .written)) :=
    Finds.search_eq (.overrun (List.nil_append _).symm ⟨hfirst, hover⟩ (by rintro pair ⟨⟩)) rfl
  refine ⟨hfirst, hsecond, hmissed, hleft, ?_⟩
  rw [hsearch]
  rintro ⟨⟩

end Intcode.NounVerb
