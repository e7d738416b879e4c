namespace Intcode.Interleaving

/-!
# Interleavings of commuting steps

Several parties act on one state, each in its own way, and what two of them do can be done in either
order.  Then all runs to a state in which nobody can act have the same length and the same end, and
every other run is the beginning of one.

* `Commutes`, `Stuck`, `Reaches`  — the parties, the ends, and runs with their lengths
* `Reaches.of_reaches`            — every run leads on towards an end that some run has
* `Reaches.unique`                — there is at most one end
-/

variable {ι σ : Type} (act : ι → σ → Option σ)

/-- What two parties do can be done in either order. -/
def Commutes : Prop :=
  ∀ ⦃i j : ι⦄ ⦃s t u : σ⦄, i ≠ j → act i s = some t → act j s = some u →
    ∃ w, act j t = some w ∧ act i u = some w

/-- Nobody can act. -/
def Stuck (s : σ) : Prop := ∀ i, act i s = none

/-- There is a run of a given length. -/
inductive Reaches : Nat → σ → σ → Prop where
  | refl (s : σ) : Reaches 0 s s
  | head {i : ι} {k : Nat} {s t u : σ} (hact : act i s = some t) (hrun : Reaches k t u) :
    Reaches (k + 1) s u

namespace Reaches

variable {act} {i : ι} {k m : Nat} {s t u f : σ}

theorem single (hact : act i s = some t) : Reaches act 1 s t := .head hact (.refl t)

theorem trans (hst : Reaches act k s t) (htu : Reaches act m t u) : Reaches act (k + m) s u := by
  induction hst with
  | refl s =>
    rw [Nat.zero_add]
    exact htu
  | head hact _ ih =>
    rw [Nat.succ_add]
    exact .head hact (ih htu)

/-- What every step keeps, every run keeps. -/
theorem invariant {P : σ → Prop} (hrun : Reaches act k s t) (hs : P s)
    (hkeep : ∀ ⦃i s t⦄, act i s = some t → P s → P t) : P t := by
  induction hrun with
  | refl => exact hs
  | head hact _ ih => exact ih (hkeep hact hs)

/-- A step leads on towards an end. -/
theorem of_act (hcomm : Commutes act) (hrun : Reaches act k s f) (hend : Stuck act f)
    (hact : act i s = some t) : ∃ d, k = d + 1 ∧ Reaches act d t f := by
  induction hrun generalizing t with
  | refl s =>
    rw [hend i] at hact
    cases hact
  | @head j k s u f hact' hrun ih =>
    by_cases hij : i = j
    · subst hij
      rw [hact] at hact'
      cases hact'
      exact ⟨k, rfl, hrun⟩
    · -- the step can wait until after the first of the run
      obtain ⟨w, htw, huw⟩ := hcomm hij hact hact'
      obtain ⟨d, rfl, hwf⟩ := ih hend huw
      exact ⟨d + 1, rfl, .head htw hwf⟩

/-- **Every run leads on towards an end**, and what is left of the way is as long as it has to
    be. -/
theorem of_reaches (hcomm : Commutes act) (hrun : Reaches act k s f) (hend : Stuck act f)
    (hother : Reaches act m s t) : ∃ d, k = m + d ∧ Reaches act d t f := by
  -- by induction on the other run: each of its steps shortens the first run by one
  induction hother generalizing k with
  | refl s => exact ⟨k, (Nat.zero_add k).symm, hrun⟩
  | head hact _ ih =>
    obtain ⟨d, rfl, hrun'⟩ := hrun.of_act hcomm hend hact
    obtain ⟨d', rfl, hrest⟩ := ih hrun'
    exact ⟨d', by omega, hrest⟩

/-- Nothing comes after an end. -/
theorem eq_of_stuck (hrun : Reaches act k s f) (hend : Stuck act s) : s = f := by
  cases hrun with
  | refl => rfl
  | @head i _ _ _ _ hact =>
    rw [hend i] at hact
    cases hact

/-- **There is at most one end.** -/
theorem unique (hcomm : Commutes act) (hrun : Reaches act k s f) (hend : Stuck act f)
    (hother : Reaches act m s t) (hend' : Stuck act t) : t = f := by
  obtain ⟨d, _, hrest⟩ := hrun.of_reaches hcomm hend hother
  exact hrest.eq_of_stuck hend'

end Reaches

end Intcode.Interleaving
