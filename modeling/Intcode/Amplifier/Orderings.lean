namespace Intcode

/-!
# Orderings of a list

The orderings of a list, listed by the positions of their members: those that start with the first
member come first, and so on down.  A member that occurs twice counts twice.

* `picks`          — each member with the rest
* `orderings`      — all orderings, in order
* `foldOrderings`  — visits the orderings one by one without making the list
-/

variable {α : Type}

/-- Each member of a list with the others, in order. -/
def picks : List α → List (α × List α)
  | [] => []
  | x :: xs => (x, xs) :: (picks xs).map fun (y, ys) => (y, x :: ys)

/-- The orderings of `n` members taken from a list. -/
def arrangements : Nat → List α → List (List α)
  | 0, _ => [[]]
  | n + 1, xs => (picks xs).flatMap fun (x, rest) => (arrangements n rest).map (x :: ·)

/-- The orderings of a list. -/
def orderings (xs : List α) : List (List α) := arrangements xs.length xs

/-- Visits the orderings of `n` members of `rest`, each behind the members `chosen`, last first. -/
def foldArrangements {m : Type → Type} [Monad m] {σ : Type} (visit : σ → List α → m σ) :
    Nat → List α → List α → σ → m σ
  | 0, chosen, _, s => visit s chosen.reverse
  | n + 1, chosen, rest, s =>
    (picks rest).foldlM
      (fun s (x, rest) => foldArrangements visit n (x :: chosen) rest s) s

/-- Visits the orderings of a list in order. -/
def foldOrderings {m : Type → Type} [Monad m] {σ : Type} (visit : σ → List α → m σ)
    (xs : List α) (s : σ) : m σ :=
  foldArrangements visit xs.length [] xs s

/-- Visiting is folding over the list of orderings. -/
theorem foldArrangements_eq_foldlM {m : Type → Type} [Monad m] [LawfulMonad m] {σ : Type}
    (visit : σ → List α → m σ) (n : Nat) (chosen rest : List α) (s : σ) :
    foldArrangements visit n chosen rest s =
      ((arrangements n rest).map (chosen.reverse ++ ·)).foldlM visit s := by
  induction n generalizing chosen rest s with
  | zero => simp [foldArrangements, arrangements]
  | succ n ih =>
    simp only [foldArrangements, arrangements, ih]
    generalize picks rest = ps
    induction ps generalizing s with
    | nil => simp
    | cons p ps ihp =>
      simp only [List.foldlM_cons, List.flatMap_cons, List.map_append, List.foldlM_append, ihp]
      simp [List.map_map, Function.comp_def]

theorem foldOrderings_eq_foldlM {m : Type → Type} [Monad m] [LawfulMonad m] {σ : Type}
    (visit : σ → List α → m σ) (xs : List α) (s : σ) :
    foldOrderings visit xs s = (orderings xs).foldlM visit s := by
  simp [foldOrderings, orderings, foldArrangements_eq_foldlM]

end Intcode
