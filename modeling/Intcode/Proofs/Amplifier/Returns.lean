import Intcode.Amplifier.Best
import Intcode.Proofs.Chain.Batches
import Intcode.Proofs.Enough
import Intcode.Proofs.Ring.Confluence

namespace Intcode.Amplifier

/-!
# What an ordering of phases returns

An ordering of phases is run as an open chain or as a feedback ring.  A chain returns one thing only,
given enough steps.  A ring may return this or that, as its amplifiers take turns; here it is said to
return something only if it returns this however they do.

* `MayReturn`, `Returns`   — the results of an ordering, and its only one
* `lasts_runOrdering`      — more steps do not change a result
* `Returns.mayReturn_iff`  — the only one is one of them
* `Returns.of_chain`, `Returns.of_halts` — chains, and rings that leave no value behind
* `Returns.exists_enough`  — what an ordering returns is found with enough steps
-/

/-- The ordering has this result, given enough steps in a chain, or when some turns have been taken in
    a ring and no amplifier can step any more.  Amplifiers that then wait for ever are unfinished.  A
    ring with more amplifiers than there are names for is not run. -/
def MayReturn (wiring : Wiring) (image phases : List Int) (r : Except Error Int) : Prop :=
  match wiring with
  | .chain => r ≠ .error .unfinished ∧
    ∃ fuel, (Chain.run fuel image phases defaultSeed).result = r
  | .ring =>
    match Ring.checkNames phases with
    | .error e => r = .error e
    | .ok _ => ∃ schedule,
      ((Ring.start image phases defaultSeed).follow schedule).isSettled = true ∧
        Ring.finish ((Ring.start image phases defaultSeed).follow schedule) none = r

/-- The ordering has this result, and no other, whatever turns are taken. -/
structure Returns (wiring : Wiring) (image phases : List Int) (r : Except Error Int) : Prop where
  /-- A run that is not over, or whose amplifiers wait for ever, does not return. -/
  ended : r ≠ .error .unfinished
  exists_run : ∃ fuel, runOrdering fuel wiring image phases = r
  unique : ∀ r', MayReturn wiring image phases r' → r' = r

variable {wiring : Wiring} {image phases : List Int} {r r' : Except Error Int} {k m : Nat}

/-! ### More steps -/

theorem Chain.lasts_result (image phases : List Int) (seed : Int) (hkm : k ≤ m) :
    Lasts (run k image phases seed).result (run m image phases seed).result := by
  cases phases with
  | nil => exact fun _ => rfl
  | cons phase phases =>
    rw [run_eq, run_eq]
    -- each of the batch runs lasts, and so does one after the other
    have hemitted (signals : List Int) (phase : Int) :
        Lasts (emitted k image signals phase) (emitted m image signals phase) :=
      (Batch.lasts_result rfl (phase :: signals) hkm).map Batch.outputs
    exact (Lasts.foldlM hemitted _ _).bind fun _ _ => rfl

/-- A ring whose result is there is settled. -/
theorem Ring.isSettled_of_finish {n : Network} (hover : finish n none ≠ .error .unfinished) :
    n.isSettled = true := by
  cases hsettled : n.isSettled with
  | true => rfl
  | false =>
    refine absurd ?_ hover
    unfold finish
    rw [Network.joinAll_of_not_isSettled hsettled]
    rfl

theorem Ring.lasts_run (image phases : List Int) (seed : Int) (hkm : k ≤ m) :
    Lasts (run k image phases seed none) (run m image phases seed none) := by
  have hfinish : Lasts (finish ((start image phases seed).settle k) none)
      (finish ((start image phases seed).settle m) none) := by
    intro hover
    rw [Network.settle_of_isSettled (isSettled_of_finish hover) hkm]
  unfold run
  cases checkNames phases with
  | error e => exact fun _ => rfl
  | ok _ => exact hfinish

/-- **More steps do not change the result of an ordering.** -/
theorem lasts_runOrdering (wiring : Wiring) (image phases : List Int) (hkm : k ≤ m) :
    Lasts (runOrdering k wiring image phases) (runOrdering m wiring image phases) := by
  cases wiring with
  | chain => exact Chain.lasts_result image phases defaultSeed hkm
  | ring => exact Ring.lasts_run image phases defaultSeed hkm

/-! ### What is returned -/

namespace Returns

/-- An ordering returns one thing only. -/
theorem eq (hr : Returns wiring image phases r) (hr' : Returns wiring image phases r') : r' = r := by
  obtain ⟨k, rfl⟩ := hr.exists_run
  obtain ⟨m, rfl⟩ := hr'.exists_run
  exact Lasts.eq (fun k m => lasts_runOrdering wiring image phases) hr.ended hr'.ended

/-- **With enough steps it is found.** -/
theorem exists_enough (hr : Returns wiring image phases r) :
    ∃ enough, ∀ fuel, enough ≤ fuel → runOrdering fuel wiring image phases = r := by
  obtain ⟨enough, rfl⟩ := hr.exists_run
  exact ⟨enough, fun fuel hfuel => lasts_runOrdering wiring image phases hfuel hr.ended⟩

/-- The fair order of turns is one of those that are taken. -/
theorem mayReturn (hr : Returns wiring image phases r) : MayReturn wiring image phases r := by
  obtain ⟨fuel, hrun⟩ := hr.exists_run
  cases wiring with
  | chain => exact ⟨hr.ended, fuel, hrun⟩
  | ring =>
    have hrun : Ring.run fuel image phases defaultSeed none = r := hrun
    unfold Ring.run at hrun
    unfold MayReturn
    dsimp only
    cases hnames : Ring.checkNames phases with
    | error e =>
      rw [hnames] at hrun
      exact hrun.symm
    | ok _ =>
      rw [hnames] at hrun
      obtain ⟨schedule, hsettle, -⟩ :=
        Network.exists_settle_eq_follow fuel (Ring.start image phases defaultSeed)
      rw [hsettle] at hrun
      have hfinish :
          Ring.finish ((Ring.start image phases defaultSeed).follow schedule) none = r := hrun
      refine ⟨schedule, Ring.isSettled_of_finish ?_, hfinish⟩
      rw [hfinish]
      exact hr.ended

/-- **What is returned is all that may be returned**, and it may. -/
theorem mayReturn_iff (hr : Returns wiring image phases r) :
    MayReturn wiring image phases r' ↔ r' = r := by
  constructor
  · exact hr.unique r'
  · rintro rfl
    exact hr.mayReturn

/-- **A chain returns what it comes to.** -/
theorem of_chain (hover : r ≠ .error .unfinished)
    (hrun : (Chain.run k image phases defaultSeed).result = r) :
    Returns .chain image phases r := by
  refine ⟨hover, ⟨k, hrun⟩, ?_⟩
  rintro _ ⟨hover', m, rfl⟩
  subst hrun
  exact Lasts.eq (fun k m => Chain.lasts_result image phases defaultSeed) hover hover'

/-- **A ring that halts and leaves no value behind returns its result**, if all its amplifiers have
    names. -/
theorem of_halts {schedule : List Nat} (hphases : phases ≠ [])
    (hnames : Ring.checkNames phases = .ok ())
    (hhalts : Ring.Halts image phases defaultSeed schedule)
    (hconsumed : Ring.Consumed image phases defaultSeed schedule) :
    Returns .ring image phases
      (Ring.finish ((Ring.start image phases defaultSeed).follow schedule) none) := by
  obtain ⟨enough, hrun⟩ := Ring.exists_run_eq hphases hnames hhalts hconsumed
  obtain ⟨_, hall⟩ := Ring.halts_of_halts hphases hhalts hconsumed
  refine ⟨?_, ⟨enough, hrun enough (Nat.le_refl _) none⟩, ?_⟩
  · obtain ⟨_, hresult⟩ := (Ring.agree_of_halts hphases hhalts hhalts).result
    rw [(hresult none).1]
    unfold lastSignal
    split <;> exact nofun
  · intro r' hmay
    unfold MayReturn at hmay
    dsimp only at hmay
    rw [hnames] at hmay
    obtain ⟨schedule', hsettled, rfl⟩ := hmay
    obtain ⟨_, _, hend⟩ := hall schedule'
    obtain ⟨_, _, hagree⟩ := hend hsettled
    obtain ⟨_, hresult⟩ := hagree.result
    rw [(hresult none).2, ← (hresult none).1]

end Returns

end Intcode.Amplifier
