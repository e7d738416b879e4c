import Intcode.Proofs.FairSchedule
import Intcode.Proofs.Network.Join
import Intcode.Proofs.Ring.Simulation

namespace Intcode.Amplifier.Ring

open Interleaving

/-!
# The order of turns in a ring

The amplifiers of a ring take their turns in any order.  What a ring that halts comes to does not
depend on the order; and when no value is left behind, it does not depend on the order either that
the ring halts.

* `Halts`           — a schedule after which all amplifiers have halted and nobody can step
* `Agree`           — two rings have come to the same
* `agree_of_halts`  — any two schedules that halt agree
* `halts_of_halts`  — a schedule that halts and leaves no value behind speaks for all
* `exists_run_eq`   — it speaks for the fair schedule, which the ring runs by
-/

/-- After this schedule no worker can step, and every amplifier has halted. -/
structure Halts (image phases : List Int) (seed : Int) (schedule : List Nat) : Prop where
  settled : ((start image phases seed).follow schedule).isSettled = true
  halted : ∀ i < phases.length,
    (((start image phases seed).follow schedule).engine i).status = .halted

/-- Every amplifier of the one ring has the memory, the registers and the step count of that of the
    other, and the results are the last of the same signals, if there are any. -/
structure Agree (size : Nat) (n n' : Network) : Prop where
  machine : ∀ i < size, (n.engine i).machine = (n'.engine i).machine
  result : ∃ signals, ∀ seconds,
    finish n seconds = lastSignal signals ∧ finish n' seconds = lastSignal signals

/-- No value that an amplifier has sent to another than the first is left behind: the next amplifier
    has taken its phase and all that has been sent to it. -/
def Consumed (image phases : List Int) (seed : Int) (schedule : List Nat) : Prop :=
  ∀ i, i + 1 < phases.length →
    ((start image phases seed).takenBy (i + 1) schedule).drop 1 =
      (start image phases seed).sentBy i schedule

variable {size i : Nat} {preload : Nat → List Int} {n n' : Network} {s : Nat → Process}

/-! ### The start -/

/-- The processes of a ring that is ready to run. -/
def processes (image : List Int) (size i : Nat) : Process := { engine := amplifier image size i }

/-- A ring that is ready to run goes with its processes. -/
theorem mirrors_start (image phases : List Int) (seed : Int) :
    Mirrors phases.length (links phases seed).content (start image phases seed)
      (processes image phases.length) := by
  have hengine (i : Nat) (hi : i < phases.length) :
      (start image phases seed).engine i = amplifier image phases.length i := by
    simp [start, Network.engine, hi]
  constructor
  · simp [start]
  · simp [start]
  · intro i hi
    simp [start, hi, processes, worker]
  · intro i hi
    rw [hengine i hi]
    exact ⟨rfl, rfl, rfl, ⟨fun _ => rfl, fun _ => rfl⟩, fun r hr => by cases hr⟩
  · refine ⟨?_, ?_⟩
    · simp [start, links]
    · intro j hj
      refine ⟨?_, fun _ => ?_⟩
      · simp [start, links, Hub.channel, hj]
        rfl
      · exact List.append_nil _

/-- Every channel but the first holds a phase and no more. -/
theorem length_content_links (phases : List Int) (seed : Int) (hi : i < phases.length)
    (hne : i ≠ 0) : ((links phases seed).content i).length = 1 := by
  simp [links, Hub.content, Hub.channel, hi, hne, Channel.content, Channel.holding]

/-! ### The end -/

/-- Joining workers that have ended without a fault succeeds. -/
theorem joinAll_eq_ok {ws : List Worker} (seconds : Option String)
    (hws : ∀ w ∈ ws, w.phase = .ended ∧ (n.engine w.engine).fault? = none) :
    n.joinAll ws seconds = .ok (ws.map n.status) := by
  refine Network.joinAll_eq_ok_iff_forall.2 ⟨fun w hw => ?_, rfl⟩
  obtain ⟨hended, hfault⟩ := hws w hw
  constructor
  · unfold Worker.isAlive
    rw [hended]
    rfl
  · unfold Network.unexpected? Network.failure?
    rw [hfault, ite_self, ite_self]

/-- The processes have all ended, and their engines have halted. -/
def AllHalted (size : Nat) (s : Nat → Process) : Prop :=
  ∀ i < size, (s i).phase = .ended ∧ (s i).engine.status = .halted

/-- A settled ring in which all amplifiers have halted has processes that have. -/
theorem allHalted_of_isSettled (hm : Mirrors size preload n s) (hsettled : n.isSettled = true)
    (hhalted : ∀ i < size, (n.engine i).status = .halted) : AllHalted size s := by
  intro i hi
  constructor
  · rcases hm.phase_of_isSettled hsettled hi with hphase | hphase
    · exact hphase
    · have hrun := (Engine.isRunning_iff _).1 ((hm.wired i hi).phase.2 hphase)
      rw [hhalted i hi] at hrun
      cases hrun
  · rw [(hm.wired i hi).engine]
    exact hhalted i hi

/-- The workers of a ring are those of its amplifiers. -/
theorem exists_of_mem_workers (hm : Mirrors size preload n s) {w : Worker} (hw : w ∈ n.workers) :
    ∃ i, i < size ∧ w = { worker i with phase := (s i).phase } := by
  obtain ⟨i, hi, hget⟩ := Array.mem_iff_getElem.1 hw
  have hi' : i < size := by rw [← hm.workers]; exact hi
  have hworker := hm.worker i hi'
  rw [Array.getElem?_eq_getElem hi, hget] at hworker
  exact ⟨i, hi', Option.some.inj hworker⟩

/-- The result of a ring in which all amplifiers have halted is the last value that the first one
    has left untaken. -/
theorem finish_eq (hm : Mirrors size preload n s) (hsize : 0 < size) (hall : AllHalted size s)
    (seconds : Option String) :
    finish n seconds = lastSignal ((supply size preload s 0).drop (s 0).taken.length) := by
  have hjoin : n.joinAll n.workers.toList seconds = .ok (n.workers.toList.map n.status) := by
    apply joinAll_eq_ok
    intro w hw
    obtain ⟨i, hi, rfl⟩ := exists_of_mem_workers hm (Array.mem_toList_iff.1 hw)
    refine ⟨(hall i hi).1, ?_⟩
    have hstatus := (hall i hi).2
    rw [(hm.wired i hi).engine] at hstatus
    show (n.engine i).fault? = none
    unfold Engine.fault?
    rw [show (n.engine i).status = .halted from hstatus]
  have hin : (n.engine 0).input = some ⟨0⟩ := by
    have hinput := (hm.wired 0 hsize).input
    rw [(hall 0 hsize).1] at hinput
    exact hinput
  have hlink := hm.linked.link 0 hsize
  have hdrop : (supply size preload s 0).drop (s 0).taken.length = n.hub.content 0 := by
    rw [hlink.content (Bool.or_true _), List.drop_left]
    rfl
  unfold finish
  rw [hjoin, hdrop, hin]
  rfl

/-- Two rings with the same processes agree when all amplifiers have halted. -/
theorem agree_of_mirrors (hm : Mirrors size preload n s) (hm' : Mirrors size preload n' s)
    (hsize : 0 < size) (hall : AllHalted size s) : Agree size n n' := by
  constructor
  · intro i hi
    have hengine := congrArg Engine.machine ((hm.wired i hi).engine)
    have hengine' := congrArg Engine.machine ((hm'.wired i hi).engine)
    exact hengine.symm.trans hengine'
  · exact ⟨_, fun seconds =>
      ⟨finish_eq hm hsize hall seconds, finish_eq hm' hsize hall seconds⟩⟩

/-- On the way to an end in which all have halted, no engine stops by a fault. -/
theorem fault?_eq_none (hm : Mirrors size preload n s) {k : Nat} {f : Nat → Process}
    (hrun : Reaches (act size preload) k s f) (hall : AllHalted size f) (hi : i < size) :
    (n.engine i).fault? = none := by
  have hwired := hm.wired i hi
  unfold Engine.fault?
  split
  · rename_i cause origin hfault
    -- the fault would still be there at the end
    have hphase : (s i).phase ≠ .running := by
      intro hrunning
      have hruns := (Engine.isRunning_iff _).1 (hwired.phase.2 hrunning)
      rw [hfault] at hruns
      cases hruns
    have hhalted := (hall i hi).2
    rw [(ended_of_reaches hrun hphase).2.1, hwired.engine] at hhalted
    rw [show (n.engine i).status = .halted from hhalted] at hfault
    cases hfault
  · rfl

/-! ### Schedules -/

variable {image phases : List Int} {seed : Int} {schedule schedule' : List Nat}

/-- A schedule that halts takes the processes to an end in which all have halted. -/
theorem Halts.advances (hhalts : Halts image phases seed schedule) :
    ∃ m f, Stuck (act phases.length (links phases seed).content) f ∧ AllHalted phases.length f ∧
      Advances phases.length (links phases seed).content (processes image phases.length) m f
        ((start image phases seed).follow schedule) ((start image phases seed).takenBy · schedule)
        ((start image phases seed).sentBy · schedule) := by
  rcases (mirrors_start image phases seed).follow schedule with
    ⟨m, f, _, hadvances⟩ | ⟨i, hi, cause, _, origin, hfault⟩
  · -- no amplifier has been hung up on, so the processes have come as far as the ring
    exact ⟨m, f, hadvances.mirrors.stuck_of_isSettled hhalts.settled,
      allHalted_of_isSettled hadvances.mirrors hhalts.settled hhalts.halted, hadvances⟩
  · rw [hhalts.halted i hi] at hfault
    cases hfault

/-- **What a ring that halts comes to does not depend on the order of turns.** -/
theorem agree_of_halts (hphases : phases ≠ []) (hhalts : Halts image phases seed schedule)
    (hhalts' : Halts image phases seed schedule') :
    Agree phases.length ((start image phases seed).follow schedule)
      ((start image phases seed).follow schedule') := by
  obtain ⟨m, f, hstuck, hall, hadvances⟩ := hhalts.advances
  obtain ⟨m', f', hstuck', _, hadvances'⟩ := hhalts'.advances
  obtain rfl := hadvances.run.unique act_commutes hstuck hadvances'.run hstuck'
  exact agree_of_mirrors hadvances.mirrors hadvances'.mirrors
    (List.length_pos_iff.2 hphases) hall

/-- A program that takes its phase and one signal, and passes the signal on. -/
def relay : List Int := [3, 11, 3, 11, 4, 11, 99, 0, 0, 0, 0, 0]

/-- Two relays, one after the other. -/
theorem halts_relay : Halts relay [5, 6] 7 [0, 0, 0, 0, 0, 0, 1, 1, 1, 1, 1, 1] where
  settled := by decide +kernel
  halted := by decide +kernel

/-- Two relays that take turns come to the same as one after the other. -/
theorem agree_of_halts_relay :
    Halts relay [5, 6] 7 [1, 0, 1, 0, 1, 0, 1, 0, 1, 0, 1, 0, 1, 0, 1] ∧
      Agree 2 ((start relay [5, 6] 7).follow [0, 0, 0, 0, 0, 0, 1, 1, 1, 1, 1, 1])
        ((start relay [5, 6] 7).follow [1, 0, 1, 0, 1, 0, 1, 0, 1, 0, 1, 0, 1, 0, 1]) := by
  have hturns : Halts relay [5, 6] 7 [1, 0, 1, 0, 1, 0, 1, 0, 1, 0, 1, 0, 1, 0, 1] :=
    ⟨by decide +kernel, by decide +kernel⟩
  exact ⟨hturns, agree_of_halts (by decide) halts_relay hturns⟩

/-! ### Good ends -/

/-- An end of the processes in which all have halted and none has left a value behind. -/
structure GoodEnd (image phases : List Int) (seed : Int) (bound : Nat) (f : Nat → Process) :
    Prop where
  stuck : Stuck (act phases.length (links phases seed).content) f
  allHalted : AllHalted phases.length f
  run : Reaches (act phases.length (links phases seed).content) bound
    (processes image phases.length) f
  consumed : ∀ i, i + 1 < phases.length → (f i).sent.length ≤ (f (i + 1)).taken.length - 1

/-- A schedule that halts and leaves no value behind comes to a good end. -/
theorem Halts.goodEnd (hhalts : Halts image phases seed schedule)
    (hconsumed : Consumed image phases seed schedule) :
    ∃ bound f, GoodEnd image phases seed bound f ∧
      Mirrors phases.length (links phases seed).content
        ((start image phases seed).follow schedule) f := by
  obtain ⟨bound, f, hstuck, hall, hadvances⟩ := hhalts.advances
  refine ⟨bound, f, ⟨hstuck, hall, hadvances.run, ?_⟩, hadvances.mirrors⟩
  intro i hi
  have hlen := congrArg List.length (hconsumed i hi)
  rw [List.length_drop] at hlen
  rw [hadvances.sent i (by omega), hadvances.taken (i + 1) hi]
  exact Nat.le_of_eq hlen.symm

namespace GoodEnd

variable {bound : Nat} {f : Nat → Process}

/-- When there is a good end, no amplifier is hung up on in any schedule. -/
theorem not_hangsUp (hgood : GoodEnd image phases seed bound f) (hi : i < phases.length)
    {cause : Fault} :
    ¬HangsUp phases.length (links phases seed).content (processes image phases.length) i
      cause := by
  rintro ⟨m, s, hrun, hpoint⟩
  -- whatever has happened, the good end is still ahead
  obtain ⟨d, _, hahead⟩ := hgood.run.of_reaches act_commutes hgood.stuck hrun
  have hended := (hgood.allHalted i hi).1
  rcases hpoint with ⟨_, hstarved⟩ | ⟨_, hspurned⟩
  · exact not_starved hahead hended hstarved
  · have htaken := taken_prefix_of_reaches hrun (fun j => List.nil_prefix) ((i + 1) % phases.length)
    refine not_spurned hahead hi hended htaken ?_ hspurned
    intro hne
    have hnext : i + 1 < phases.length := by
      rcases Nat.lt_or_ge (i + 1) phases.length with hlt | hge
      · exact hlt
      · rw [show i + 1 = phases.length by omega, Nat.mod_self] at hne
        exact absurd rfl hne
    rw [Nat.mod_eq_of_lt hnext]
    exact ⟨length_content_links phases seed hnext (Nat.succ_ne_zero i), hgood.consumed i hnext⟩

/-- Every schedule leads on towards a good end. -/
theorem follow (hgood : GoodEnd image phases seed bound f) (schedule : List Nat) :
    ∃ d s, (start image phases seed).turns schedule + d ≤ bound ∧
      Reaches (act phases.length (links phases seed).content) d s f ∧
      Mirrors phases.length (links phases seed).content
        ((start image phases seed).follow schedule) s := by
  rcases (mirrors_start image phases seed).follow schedule with
    ⟨m, s, hturns, hadvances⟩ | ⟨i, hi, _, hhang, _⟩
  · obtain ⟨d, hbound, hahead⟩ :=
      hgood.run.of_reaches act_commutes hgood.stuck hadvances.run
    exact ⟨d, s, by omega, hahead, hadvances.mirrors⟩
  · exact absurd hhang (hgood.not_hangsUp hi)

/-- A schedule that settles the ring has come to the good end. -/
theorem mirrors_of_isSettled (hgood : GoodEnd image phases seed bound f)
    (hsettled : ((start image phases seed).follow schedule).isSettled = true) :
    Mirrors phases.length (links phases seed).content
      ((start image phases seed).follow schedule) f := by
  obtain ⟨d, s, _, hahead, hm⟩ := hgood.follow schedule
  obtain rfl := hahead.eq_of_stuck (hm.stuck_of_isSettled hsettled)
  exact hm

end GoodEnd

/-- **A schedule that halts and leaves no value behind speaks for all.**  There is a bound to the
    turns of every schedule; in none of them does an amplifier fault; and where nobody can step any
    more, all workers have ended, all amplifiers have halted, and the outcome is the same. -/
theorem halts_of_halts (hphases : phases ≠ []) (hhalts : Halts image phases seed schedule)
    (hconsumed : Consumed image phases seed schedule) :
    ∃ bound, ∀ schedule',
      (start image phases seed).turns schedule' ≤ bound ∧
      (∀ i < phases.length,
        (((start image phases seed).follow schedule').engine i).fault? = none) ∧
      (((start image phases seed).follow schedule').isSettled = true →
        Halts image phases seed schedule' ∧
        (∀ w ∈ ((start image phases seed).follow schedule').workers, w.phase = .ended) ∧
        Agree phases.length ((start image phases seed).follow schedule)
          ((start image phases seed).follow schedule')) := by
  obtain ⟨bound, f, hgood, hm⟩ := hhalts.goodEnd hconsumed
  have hall := hgood.allHalted
  refine ⟨bound, fun schedule' => ?_⟩
  obtain ⟨d, s, hbound, hahead, hm'⟩ := hgood.follow schedule'
  refine ⟨by omega, ?_, ?_⟩
  · intro i hi
    exact fault?_eq_none hm' hahead hall hi
  · intro hsettled
    have hend := hgood.mirrors_of_isSettled hsettled
    refine ⟨⟨hsettled, ?_⟩, ?_, ?_⟩
    · intro i hi
      have hstatus := (hall i hi).2
      rw [(hend.wired i hi).engine] at hstatus
      exact hstatus
    · intro w hw
      obtain ⟨i, hi, rfl⟩ := exists_of_mem_workers hend hw
      exact (hall i hi).1
    · exact agree_of_mirrors hm hend (List.length_pos_iff.2 hphases) hall

/-- However two relays take their turns, the result is the seed. -/
theorem halts_of_halts_relay :
    Halts relay [5, 6] 7 [0, 0, 0, 0, 0, 0, 1, 1, 1, 1, 1, 1] ∧
      Consumed relay [5, 6] 7 [0, 0, 0, 0, 0, 0, 1, 1, 1, 1, 1, 1] ∧
      ∀ schedule, ((start relay [5, 6] 7).follow schedule).isSettled = true →
        finish ((start relay [5, 6] 7).follow schedule) none = .ok 7 := by
  have hconsumed : Consumed relay [5, 6] 7 [0, 0, 0, 0, 0, 0, 1, 1, 1, 1, 1, 1] := by
    intro i hi
    obtain rfl : i = 0 := Nat.lt_one_iff.1 (Nat.lt_of_succ_lt_succ hi)
    decide +kernel
  refine ⟨halts_relay, hconsumed, ?_⟩
  intro schedule hsettled
  obtain ⟨_, hall⟩ := halts_of_halts (by decide) halts_relay hconsumed
  obtain ⟨_, _, hend⟩ := hall schedule
  obtain ⟨_, _, hagree⟩ := hend hsettled
  obtain ⟨signals, hresult⟩ := hagree.result
  rw [(hresult none).2, ← (hresult none).1]
  rfl

/-- The fair schedule is one of all: given enough rounds, a run of the ring has the result of any
    schedule that halts and leaves no value behind, if there are names for all amplifiers. -/
theorem exists_run_eq (hphases : phases ≠ []) (hnames : checkNames phases = .ok ())
    (hhalts : Halts image phases seed schedule) (hconsumed : Consumed image phases seed schedule) :
    ∃ enough, ∀ fuel, enough ≤ fuel → ∀ seconds,
      run fuel image phases seed seconds =
        finish ((start image phases seed).follow schedule) seconds := by
  obtain ⟨bound, f, hgood, hm⟩ := hhalts.goodEnd hconsumed
  refine ⟨bound + 1, fun fuel hfuel seconds => ?_⟩
  obtain ⟨schedule', hsettle, hlong⟩ :=
    Network.exists_settle_eq_follow fuel (start image phases seed)
  obtain ⟨d, _, hbound, _, _⟩ := hgood.follow schedule'
  -- a run that has not settled would have taken more turns than there are
  have hsettled := hlong.resolve_right (by omega)
  unfold run
  rw [hsettle] at hsettled ⊢
  have hagree := agree_of_mirrors hm (hgood.mirrors_of_isSettled hsettled)
    (List.length_pos_iff.2 hphases) hgood.allHalted
  obtain ⟨signals, hresult⟩ := hagree.result
  rw [hnames, (hresult seconds).1, (hresult seconds).2]
  rfl

end Intcode.Amplifier.Ring
