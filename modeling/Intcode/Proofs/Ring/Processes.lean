import Mathlib.Logic.Function.Basic
import Intcode.Proofs.Interleaving
import Intcode.Proofs.Process

namespace Intcode.Amplifier.Ring

open Interleaving

/-!
# Rings of processes

A ring without its channels: every process is supplied with what its channel held at the start and
with all that the process before it has sent.  What two processes do can be done in either order.

* `before`, `supply`, `act`      — the ring, and what one process of it does
* `act_commutes`                 — the order does not matter
* `Starved`, `Spurned`           — a process whose next step is a hang-up
* `not_starved`, `not_spurned`   — neither is met on the way to a good end
-/

/-- The process that sends to process `i`. -/
def before (size i : Nat) : Nat := if i = 0 then size - 1 else i - 1

variable {size i j : Nat}

/-- Every process sends to the next, the last one to the first. -/
theorem eq_before_iff (hi : i < size) (hj : j < size) :
    before size j = i ↔ j = (i + 1) % size := by
  unfold before
  rcases Nat.lt_or_ge (i + 1) size with hlt | hge
  · rw [Nat.mod_eq_of_lt hlt]
    split <;> omega
  · rw [show i + 1 = size by omega, Nat.mod_self]
    split <;> omega

theorem before_next (hi : i < size) : before size ((i + 1) % size) = i :=
  (eq_before_iff hi (Nat.mod_lt _ (by omega))).2 rfl

theorem before_lt (hi : i < size) : before size i < size := by
  unfold before
  split <;> omega

/-- What passes from every process to the one before it passes all around the ring. -/
theorem around {P : Nat → Prop} (hback : ∀ j < size, P j → P (before size j)) (hi : i < size)
    (hP : P i) : ∀ j < size, P j := by
  have hdown (d : Nat) {j : Nat} (hj : j < size) (hPj : P j) (hd : d ≤ j) : P (j - d) := by
    induction d with
    | zero => exact hPj
    | succ d ih =>
      have hprev := hback (j - d) (by omega) (ih (by omega))
      unfold before at hprev
      rw [if_neg (by omega)] at hprev
      rw [show j - (d + 1) = j - d - 1 by omega]
      exact hprev
  have hfirst : P 0 := by
    have h := hdown i hi hP (Nat.le_refl i)
    rwa [Nat.sub_self] at h
  -- from the first process on to the last, and down again
  have hlast : P (size - 1) := hback 0 (by omega) hfirst
  intro j hj
  have h := hdown (size - 1 - j) (by omega) hlast (by omega)
  rwa [show size - 1 - (size - 1 - j) = j by omega] at h

variable (size) (preload : Nat → List Int)

/-- What a process is supplied with in all. -/
def supply (s : Nat → Process) (i : Nat) : List Int := preload i ++ (s (before size i)).sent

/-- A process of the ring does what it does next. -/
def act (i : Nat) (s : Nat → Process) : Option (Nat → Process) :=
  if i < size then ((s i).advance (supply size preload s i)).map (Function.update s i) else none

variable {size preload} {s t f : Nat → Process} {k : Nat}

theorem act_eq_some_iff :
    act size preload i s = some t ↔
      i < size ∧ ∃ p, (s i).advance (supply size preload s i) = some p ∧
        t = Function.update s i p := by
  unfold act
  split
  · rename_i hi
    rw [Option.map_eq_some_iff]
    constructor
    · rintro ⟨p, hp, rfl⟩
      exact ⟨hi, p, hp, rfl⟩
    · rintro ⟨_, p, hp, rfl⟩
      exact ⟨p, hp, rfl⟩
  · rename_i hi
    constructor
    · exact nofun
    · rintro ⟨hi', _⟩
      exact absurd hi' hi

theorem act_of_advance {p : Process} (hi : i < size)
    (hp : (s i).advance (supply size preload s i) = some p) :
    act size preload i s = some (Function.update s i p) := act_eq_some_iff.2 ⟨hi, p, hp, rfl⟩

/-- A part of the processes that a step of one keeps is kept of all. -/
theorem field_update {α : Type} (field : Process → α) {p : Process} (hp : field p = field (s i))
    (j : Nat) : field (Function.update s i p j) = field (s j) := by
  by_cases hj : j = i
  · subst hj
    rw [Function.update_self, hp]
  · rw [Function.update_of_ne hj]

/-- The supplies only grow. -/
theorem supply_prefix (hact : act size preload i s = some t) (j : Nat) :
    supply size preload s j <+: supply size preload t j := by
  obtain ⟨_, p, hp, rfl⟩ := act_eq_some_iff.1 hact
  apply List.prefix_append_right_inj (preload j) |>.2
  by_cases hj : before size j = i
  · rw [hj, Function.update_self]
    exact Process.sent_prefix hp
  · simp only [Function.update_of_ne hj, List.prefix_rfl]

/-- **What two processes do can be done in either order.** -/
theorem act_commutes : Commutes (act size preload) := by
  intro i j s t u hij ht hu
  -- each finds at least what it would have found before the other
  have hsupply := supply_prefix ht j
  have hsupply' := supply_prefix hu i
  obtain ⟨hi, p, hp, rfl⟩ := act_eq_some_iff.1 ht
  obtain ⟨hj, q, hq, rfl⟩ := act_eq_some_iff.1 hu
  have hp' := Process.advance_mono hsupply' hp
  have hq' := Process.advance_mono hsupply hq
  rw [← Function.update_of_ne hij q s] at hp'
  rw [← Function.update_of_ne hij.symm p s] at hq'
  -- and what they change is not the same
  refine ⟨_, act_of_advance hj hq', ?_⟩
  rw [Function.update_comm hij]
  exact act_of_advance hi hp'

/-- What every process has taken is the beginning of its supply. -/
theorem taken_prefix_of_reaches (hrun : Reaches (act size preload) k s t)
    (hs : ∀ j, (s j).taken <+: supply size preload s j) (j : Nat) :
    (t j).taken <+: supply size preload t j := by
  refine hrun.invariant (P := fun s => ∀ j, (s j).taken <+: supply size preload s j) hs ?_ j
  intro i s t hact hs j
  have hgrow := supply_prefix hact j
  obtain ⟨_, p, hp, rfl⟩ := act_eq_some_iff.1 hact
  refine List.IsPrefix.trans ?_ hgrow
  by_cases hj : j = i
  · subst hj
    rw [Function.update_self]
    exact Process.taken_prefix hp (hs j)
  · rw [Function.update_of_ne hj]
    exact hs j

/-- A process whose engine has ended keeps all but its ends. -/
theorem ended_of_reaches (hrun : Reaches (act size preload) k s t)
    (hphase : (s i).phase ≠ .running) :
    (t i).phase ≠ .running ∧ (t i).engine = (s i).engine ∧ (t i).taken = (s i).taken ∧
      (t i).sent = (s i).sent := by
  refine hrun.invariant (P := fun t => (t i).phase ≠ .running ∧ (t i).engine = (s i).engine ∧
    (t i).taken = (s i).taken ∧ (t i).sent = (s i).sent) ⟨hphase, rfl, rfl, rfl⟩ ?_
  rintro j t u hact ⟨hne, hengine, htaken, hsent⟩
  obtain ⟨_, p, hp, rfl⟩ := act_eq_some_iff.1 hact
  by_cases hj : i = j
  · subst hj
    rw [Function.update_self]
    obtain ⟨hne', hengine', htaken', hsent'⟩ := Process.advance_of_ne_running hne hp
    exact ⟨hne', hengine'.trans hengine, htaken'.trans htaken, hsent'.trans hsent⟩
  · rw [Function.update_of_ne hj]
    exact ⟨hne, hengine, htaken, hsent⟩

/-! ### Hang-ups -/

/-- The process needs a value, has taken all there is, and the process before it sends no more. -/
def Starved (size : Nat) (preload : Nat → List Int) (s : Nat → Process) (i : Nat) : Prop :=
  (s i).phase = .running ∧ (∃ r, (s i).engine.move = .await r) ∧
    (supply size preload s i).length ≤ (s i).taken.length ∧ (s (before size i)).phase ≠ .running

/-- The process has a value for one that has let go of its input. -/
def Spurned (size : Nat) (s : Nat → Process) (i : Nat) : Prop :=
  (s i).phase = .running ∧ (∃ tx origin v told, (s i).engine.move = .tell tx origin v told) ∧
    (s ((i + 1) % size)).phase = .ended ∧ (i + 1) % size ≠ 0

/-- A starved process never ends. -/
theorem running_of_starved (hstarved : Starved size preload s i)
    (hrun : Reaches (act size preload) k s t) : (t i).phase = .running := by
  obtain ⟨hphase, ⟨r, hmove⟩, hlen, hbefore⟩ := hstarved
  have hkeep : t i = s i ∧ (t (before size i)).phase ≠ .running ∧
      (t (before size i)).sent = (s (before size i)).sent := by
    refine hrun.invariant (P := fun t => t i = s i ∧ (t (before size i)).phase ≠ .running ∧
      (t (before size i)).sent = (s (before size i)).sent) ⟨rfl, hbefore, rfl⟩ ?_
    rintro j t u hact ⟨hsame, hne, hsent⟩
    obtain ⟨_, p, hp, rfl⟩ := act_eq_some_iff.1 hact
    have hij : i ≠ j := by
      -- its supply is the same as before, so it cannot be the one that acts
      rintro rfl
      have hsupply : supply size preload t i = supply size preload s i :=
        congrArg (preload i ++ ·) hsent
      rw [hsame, hsupply, Process.advance_await hphase hmove, List.getElem?_eq_none hlen] at hp
      cases hp
    refine ⟨(Function.update_of_ne hij _ _).trans hsame, ?_⟩
    by_cases hj : before size i = j
    · subst hj
      rw [Function.update_self]
      obtain ⟨hne', _, _, hsent'⟩ := Process.advance_of_ne_running hne hp
      exact ⟨hne', hsent'.trans hsent⟩
    · rw [Function.update_of_ne hj]
      exact ⟨hne, hsent⟩
  rw [hkeep.1]
  exact hphase

/-- A process with a value for the next has to send it before it ends. -/
theorem sent_of_tell {tx : SenderRef} {origin v : Int} {told : Engine}
    (hphase : (s i).phase = .running) (hmove : (s i).engine.move = .tell tx origin v told)
    (hrun : Reaches (act size preload) k s t) :
    t i = s i ∨ (s i).sent ++ [v] <+: (t i).sent := by
  refine hrun.invariant (P := fun t => t i = s i ∨ (s i).sent ++ [v] <+: (t i).sent) (.inl rfl) ?_
  intro j t u hact hkeep
  obtain ⟨_, p, hp, rfl⟩ := act_eq_some_iff.1 hact
  by_cases hj : i = j
  · subst hj
    rw [Function.update_self]
    right
    -- its first step is to send the value
    rcases hkeep with hsame | hsent
    · rw [hsame, Process.advance_tell hphase hmove] at hp
      cases hp
      exact List.prefix_rfl
    · exact hsent.trans (Process.sent_prefix hp)
  · rw [Function.update_of_ne hj]
    exact hkeep

/-- On the way to a state in which all processes have ended none is starved. -/
theorem not_starved (hrun : Reaches (act size preload) k s f)
    (hended : (f i).phase = .ended) : ¬Starved size preload s i := by
  intro hstarved
  have hphase := running_of_starved hstarved hrun
  rw [hended] at hphase
  cases hphase

/-- On the way to a state in which all processes have ended, and have taken what has been sent to
    them, none is spurned. -/
theorem not_spurned (hrun : Reaches (act size preload) k s f) (hi : i < size)
    (hended : (f i).phase = .ended)
    (htaken : (s ((i + 1) % size)).taken <+: supply size preload s ((i + 1) % size))
    (hgood : (i + 1) % size ≠ 0 → (preload ((i + 1) % size)).length = 1 ∧
      (f i).sent.length ≤ (f ((i + 1) % size)).taken.length - 1) :
    ¬Spurned size s i := by
  rintro ⟨hphase, ⟨tx, origin, v, told, hmove⟩, hnext, hne⟩
  obtain ⟨hpreload, hconsumed⟩ := hgood hne
  have hsame := (ended_of_reaches hrun (by rw [hnext]; exact nofun)).2.2.1
  rcases sent_of_tell hphase hmove hrun with heq | hsent
  · rw [heq, hphase] at hended
    cases hended
  · -- the next process would have taken more than there was
    have hlen := htaken.length_le
    have hmore := hsent.length_le
    unfold supply at hlen
    rw [before_next hi, List.length_append, hpreload] at hlen
    rw [List.length_append, List.length_singleton] at hmore
    rw [hsame] at hconsumed
    omega

end Intcode.Amplifier.Ring
