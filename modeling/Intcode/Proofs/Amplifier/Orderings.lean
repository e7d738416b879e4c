import Intcode.Amplifier.Orderings

namespace Intcode

/-!
# Which orderings there are, and in which order

The orderings of a list are its rearrangements.  They are told apart by the places their members
have in the list, and they come in the lexicographic order of these places.

* `mem_orderings_iff`    — the orderings of a list are its rearrangements
* `atPlaces`             — the ordering with the members at given places
* `orderings_eq_map`     — every ordering is given by places
* `pairwise_orderings`   — of two orderings the one with the lesser places comes first
-/

variable {α β : Type}

/-! ### Rearrangements -/

/-- A member and the others are a rearrangement of all. -/
theorem perm_of_mem_picks {xs rest : List α} {x : α} (hpick : (x, rest) ∈ picks xs) :
    xs.Perm (x :: rest) := by
  induction xs generalizing x rest with
  | nil => cases hpick
  | cons y ys ih =>
    rcases List.mem_cons.1 hpick with heq | hmem
    · cases heq
      exact .refl _
    · obtain ⟨⟨z, zs⟩, hz, heq⟩ := List.mem_map.1 hmem
      cases heq
      exact ((ih hz).cons y).trans (.swap x y zs)

/-- The others keep their order. -/
theorem sublist_of_mem_picks {xs rest : List α} {x : α} (hpick : (x, rest) ∈ picks xs) :
    rest.Sublist xs := by
  induction xs generalizing x rest with
  | nil => cases hpick
  | cons y ys ih =>
    rcases List.mem_cons.1 hpick with heq | hmem
    · cases heq
      exact List.sublist_cons_self _ _
    · obtain ⟨⟨z, zs⟩, hz, heq⟩ := List.mem_map.1 hmem
      cases heq
      exact (ih hz).cons_cons y

/-- Every member is picked. -/
theorem exists_mem_picks {xs : List α} {x : α} (hx : x ∈ xs) : ∃ rest, (x, rest) ∈ picks xs := by
  induction xs with
  | nil => cases hx
  | cons y ys ih =>
    rcases List.mem_cons.1 hx with rfl | hx
    · exact ⟨ys, List.mem_cons_self⟩
    · obtain ⟨rest, hrest⟩ := ih hx
      exact ⟨y :: rest, List.mem_cons_of_mem _ (List.mem_map_of_mem hrest)⟩

theorem mem_arrangements_iff {n : Nat} {xs p : List α} (hn : xs.length = n) :
    p ∈ arrangements n xs ↔ p.Perm xs := by
  induction n generalizing xs p with
  | zero =>
    obtain rfl := List.length_eq_zero_iff.1 hn
    simp [arrangements]
  | succ n ih =>
    rw [arrangements, List.mem_flatMap]
    constructor
    · rintro ⟨⟨x, rest⟩, hpick, hp⟩
      obtain ⟨q, hq, rfl⟩ := List.mem_map.1 hp
      have hperm := perm_of_mem_picks hpick
      have hrest : rest.length = n := by simpa [hn] using hperm.length_eq.symm
      exact (((ih hrest).1 hq).cons x).trans hperm.symm
    · intro hp
      cases p with
      | nil =>
        rw [← hp.length_eq] at hn
        cases hn
      | cons x q =>
        obtain ⟨rest, hpick⟩ := exists_mem_picks (hp.subset List.mem_cons_self)
        have hperm := perm_of_mem_picks hpick
        have hrest : rest.length = n := by simpa [hn] using hperm.length_eq.symm
        have hq : q.Perm rest := (hp.trans hperm).cons_inv
        exact ⟨(x, rest), hpick, List.mem_map_of_mem ((ih hrest).2 hq)⟩

/-- **The orderings of a list are its rearrangements.** -/
theorem mem_orderings_iff {xs p : List α} : p ∈ orderings xs ↔ p.Perm xs :=
  mem_arrangements_iff rfl

/-! ### Places -/

theorem picks_map (f : α → β) (xs : List α) :
    picks (xs.map f) = (picks xs).map fun (x, rest) => (f x, rest.map f) := by
  induction xs with
  | nil => rfl
  | cons x xs ih => simp [picks, ih, Function.comp_def]

theorem arrangements_map (f : α → β) (n : Nat) (xs : List α) :
    arrangements n (xs.map f) = (arrangements n xs).map (List.map f) := by
  induction n generalizing xs with
  | zero => rfl
  | succ n ih =>
    simp [arrangements, picks_map, ih, List.flatMap_map, List.map_flatMap, Function.comp_def]

/-- The members of a list at these places. -/
def atPlaces (xs : List Int) (places : List Nat) : List Int := places.map fun i => xs.getD i 0

/-- A list has all its members at their places. -/
theorem atPlaces_range (xs : List Int) : atPlaces xs (List.range xs.length) = xs := by
  apply List.ext_getElem
  · simp [atPlaces]
  · intro i hi hi'
    simp [atPlaces, hi']

/-- Every ordering is given by the places of its members. -/
theorem orderings_eq_map (xs : List Int) :
    orderings xs = (orderings (List.range xs.length)).map (atPlaces xs) := by
  have hmap := arrangements_map (fun i => xs.getD i 0) xs.length (List.range xs.length)
  have hrange : (List.range xs.length).map (fun i => xs.getD i 0) = xs := atPlaces_range xs
  rw [hrange] at hmap
  rw [orderings, hmap, orderings, List.length_range]
  rfl

/-- The members at rearranged places are the members rearranged. -/
theorem atPlaces_perm {xs : List Int} {places : List Nat}
    (hplaces : places.Perm (List.range xs.length)) : (atPlaces xs places).Perm xs := by
  have hperm : (atPlaces xs places).Perm (atPlaces xs (List.range xs.length)) := hplaces.map _
  rwa [atPlaces_range] at hperm

/-- Every rearrangement is that of some places. -/
theorem exists_atPlaces {xs p : List Int} (hp : p.Perm xs) :
    ∃ places : List Nat, places.Perm (List.range xs.length) ∧ p = atPlaces xs places := by
  have hmem := mem_orderings_iff.2 hp
  rw [orderings_eq_map] at hmem
  obtain ⟨places, hplaces, rfl⟩ := List.mem_map.1 hmem
  exact ⟨places, mem_orderings_iff.1 hplaces, rfl⟩

/-! ### The order -/

/-- The members of an increasing list are picked in this order. -/
theorem pairwise_picks {xs : List Nat} (hxs : xs.Pairwise (· < ·)) :
    (picks xs).Pairwise fun a b => a.1 < b.1 := by
  induction xs with
  | nil => exact .nil
  | cons x xs ih =>
    obtain ⟨hx, hxs⟩ := List.pairwise_cons.1 hxs
    rw [picks, List.pairwise_cons, List.pairwise_map]
    refine ⟨?_, ih hxs⟩
    intro pick hpick
    obtain ⟨⟨y, rest⟩, hy, rfl⟩ := List.mem_map.1 hpick
    exact hx y ((perm_of_mem_picks hy).symm.subset List.mem_cons_self)

theorem pairwise_arrangements (n : Nat) {xs : List Nat} (hxs : xs.Pairwise (· < ·)) :
    (arrangements n xs).Pairwise (· < ·) := by
  induction n generalizing xs with
  | zero => exact List.pairwise_singleton _ _
  | succ n ih =>
    rw [arrangements, List.pairwise_flatMap]
    constructor
    · -- the same member comes first, so the rest decides
      rintro ⟨x, rest⟩ hpick
      rw [List.pairwise_map]
      refine (ih (hxs.sublist (sublist_of_mem_picks hpick))).imp ?_
      intro p q hpq
      exact List.Lex.cons hpq
    · -- the first members differ
      refine (pairwise_picks hxs).imp ?_
      rintro ⟨x, rest⟩ ⟨y, rest'⟩ hxy p hp q hq
      obtain ⟨p', -, rfl⟩ := List.mem_map.1 hp
      obtain ⟨q', -, rfl⟩ := List.mem_map.1 hq
      exact List.Lex.rel hxy

/-- **The orderings of an increasing list come in lexicographic order.** -/
theorem pairwise_orderings {xs : List Nat} (hxs : xs.Pairwise (· < ·)) :
    (orderings xs).Pairwise (· < ·) :=
  pairwise_arrangements xs.length hxs

/-- The places of a list, in the order in which its orderings are visited, split at one of them:
    those in front of it are the lesser ones, those behind it the greater ones. -/
theorem lt_iff_of_orderings_eq {n : Nat} {front back : List (List Nat)} {places other : List Nat}
    (hsplit : orderings (List.range n) = front ++ places :: back)
    (hother : other.Perm (List.range n)) : other < places ↔ other ∈ front := by
  have hsorted : (orderings (List.range n)).Pairwise (· < ·) :=
    pairwise_orderings List.pairwise_lt_range
  rw [hsplit, List.pairwise_append] at hsorted
  obtain ⟨-, hback, hfront⟩ := hsorted
  have hmem := mem_orderings_iff.2 hother
  rw [hsplit, List.mem_append, List.mem_cons] at hmem
  constructor
  · intro hlt
    rcases hmem with hmem | rfl | hmem
    · exact hmem
    · exact absurd hlt (List.lt_irrefl _)
    · exact absurd hlt (List.lt_asymm ((List.pairwise_cons.1 hback).1 other hmem))
  · intro hmem
    exact hfront other hmem places List.mem_cons_self

end Intcode
