import Mathlib.Data.Finset.Card
import Std.Data.TreeMap.Lemmas
import Intcode.Control.Grid

namespace Intcode.Control

/-!
# What a grid holds

A grid holds the value given last to each point, whatever the points and however often each has been
given one.

* `last?`               — the last member of a list with a property
* `Grid.get?_put`, `Grid.mem_entries_iff` — a grid seen through the values of its points
* `Grid.ofWrites`       — the grid after values have been given to points one after another
* `Grid.get?_ofWrites`, `Grid.size_ofWrites`, `Grid.countP_ofWrites` — what it holds
-/

/-! ### The last of a list -/

/-- The last member of a list with a property. -/
def last? {α : Type} (p : α → Bool) (l : List α) : Option α := (l.filter p).getLast?

theorem last?_concat {α : Type} (p : α → Bool) (l : List α) (x : α) :
    last? p (l ++ [x]) = if p x then some x else last? p l := by
  unfold last?
  rw [List.filter_append]
  cases hx : p x <;> simp [hx]

/-! ### The order of points -/

instance : Std.TransCmp Point.order :=
  inferInstanceAs (Std.TransCmp (compareLex (compareOn Point.x) (compareOn Point.y)))

instance : Std.LawfulEqCmp Point.order where
  eq_of_compare {p q} heq := by
    rw [Point.order, Ordering.then_eq_eq, Std.LawfulEqOrd.compare_eq_iff_eq,
      Std.LawfulEqOrd.compare_eq_iff_eq] at heq
    obtain ⟨px, py⟩ := p
    obtain ⟨qx, qy⟩ := q
    obtain ⟨rfl, rfl⟩ := heq
    rfl

namespace Grid

/-! ### A grid through its points -/

/-- What is found at a point is what has been put there last. -/
theorem get?_put (g : Grid) (p q : Point) (v : Int) :
    (g.put p v).get? q = if p = q then some v else g.get? q := by
  have hinsert := Std.TreeMap.getElem?_insert (t := g.cells) (k := p) (a := q) (v := v)
  simp only [Std.LawfulEqCmp.compare_eq_iff_eq] at hinsert
  exact hinsert

@[simp] theorem get?_empty (p : Point) : ({} : Grid).get? p = none :=
  Std.TreeMap.getElem?_emptyc

/-- The entries of a grid are its points with their values. -/
theorem mem_entries_iff {g : Grid} {p : Point} {v : Int} :
    (p, v) ∈ g.entries ↔ g.get? p = some v :=
  Std.TreeMap.mem_toList_iff_getElem?_eq_some

/-- No point is listed twice. -/
theorem nodup_points (g : Grid) : g.points.Nodup := by
  have hkeys := Std.TreeMap.nodup_keys (t := g.cells)
  rw [← Std.TreeMap.map_fst_toList_eq_keys] at hkeys
  exact hkeys

theorem size_eq (g : Grid) : g.size = g.points.length := by
  rw [points, List.length_map]
  exact Std.TreeMap.length_toList.symm

/-- The points of a grid are those with a value. -/
theorem mem_points_iff {g : Grid} {p : Point} : p ∈ g.points ↔ ∃ v, g.get? p = some v := by
  simp [points, mem_entries_iff]

/-- The size of a grid is the number of its points, if these are known. -/
theorem size_eq_card {g : Grid} {s : Finset Point} (hs : ∀ p, p ∈ s ↔ ∃ v, g.get? p = some v) :
    g.size = s.card := by
  have hpoints : g.points.toFinset = s := by
    ext p
    rw [List.mem_toFinset, mem_points_iff, hs]
  rw [size_eq, ← hpoints, List.toFinset_card_of_nodup g.nodup_points]

/-- The number of entries with a value is the number of points with it, if these are known. -/
theorem countP_eq_card {g : Grid} {v : Int} {s : Finset Point}
    (hs : ∀ p, p ∈ s ↔ g.get? p = some v) :
    g.entries.countP (fun (_, u) => u == v) = s.card := by
  have hsublist : ((g.entries.filter fun (_, u) => u == v).map Prod.fst).Sublist g.points :=
    List.filter_sublist.map _
  have hpoints : ((g.entries.filter fun (_, u) => u == v).map Prod.fst).toFinset = s := by
    ext p
    simp [hs, ← mem_entries_iff]
  rw [List.countP_eq_length_filter, ← hpoints,
    List.toFinset_card_of_nodup (g.nodup_points.sublist hsublist), List.length_map]

/-! ### Values given one after another -/

/-- The grid after values have been given to points one after another. -/
def ofWrites (writes : List (Point × Int)) : Grid :=
  writes.foldl (fun g (p, v) => g.put p v) {}

/-- The value given to a point last. -/
def lastAt (writes : List (Point × Int)) (p : Point) : Option Int :=
  (last? (fun w => w.1 = p) writes).map Prod.snd

variable {writes : List (Point × Int)} {p q : Point} {v : Int}

theorem ofWrites_concat (writes : List (Point × Int)) (p : Point) (v : Int) :
    ofWrites (writes ++ [(p, v)]) = (ofWrites writes).put p v := by
  rw [ofWrites, List.foldl_concat]
  rfl

theorem lastAt_concat (writes : List (Point × Int)) (p q : Point) (v : Int) :
    lastAt (writes ++ [(p, v)]) q = if p = q then some v else lastAt writes q := by
  rw [lastAt, last?_concat]
  by_cases hpq : p = q <;> simp [hpq, lastAt]

/-- **A grid holds the value given last.** -/
theorem get?_ofWrites (writes : List (Point × Int)) (p : Point) :
    (ofWrites writes).get? p = lastAt writes p := by
  induction writes using List.reverseRecOn with
  | nil => exact get?_empty p
  | append_singleton writes w ih =>
    obtain ⟨q, v⟩ := w
    rw [ofWrites_concat, get?_put, lastAt_concat, ih]

/-- A point that has been given a value holds one. -/
theorem exists_lastAt_iff : (∃ v, lastAt writes p = some v) ↔ p ∈ writes.map Prod.fst := by
  induction writes using List.reverseRecOn with
  | nil => simp [lastAt, last?]
  | append_singleton writes w ih =>
    obtain ⟨q, v⟩ := w
    rw [lastAt_concat, List.map_append, List.mem_append, ← ih]
    -- the point is the one just written, or it has been written before
    by_cases hqp : q = p
    · simp [hqp]
    · simp [hqp, Ne.symm hqp]

/-- Where no point is given a value twice, every value is the last one. -/
theorem lastAt_eq_some_iff (hnodup : (writes.map Prod.fst).Nodup) :
    lastAt writes p = some v ↔ (p, v) ∈ writes := by
  induction writes using List.reverseRecOn with
  | nil => simp [lastAt, last?]
  | append_singleton writes w ih =>
    obtain ⟨q, u⟩ := w
    rw [List.map_append, List.map_singleton, List.nodup_append] at hnodup
    obtain ⟨hnodup, -, hnew⟩ := hnodup
    rw [lastAt_concat, List.mem_append, List.mem_singleton, ← ih hnodup]
    by_cases hqp : q = p
    · subst hqp
      have hfirst : ¬lastAt writes q = some v := fun hlast =>
        hnew q (exists_lastAt_iff.1 ⟨v, hlast⟩) q (List.mem_singleton.2 rfl) rfl
      simp [hfirst, eq_comm]
    · simp [hqp, Ne.symm hqp]

/-- The entries of a grid give its values back. -/
theorem lastAt_entries (g : Grid) (p : Point) : lastAt g.entries p = g.get? p :=
  Option.ext fun _ => (lastAt_eq_some_iff g.nodup_points).trans mem_entries_iff

/-- **It has as many points as have been given values.** -/
theorem size_ofWrites (writes : List (Point × Int)) :
    (ofWrites writes).size = (writes.map Prod.fst).toFinset.card := by
  refine size_eq_card fun p => ?_
  rw [List.mem_toFinset, ← exists_lastAt_iff]
  simp only [get?_ofWrites]

/-- **A value is found as often as there are points to which it has been given last.** -/
theorem countP_ofWrites (writes : List (Point × Int)) (v : Int) :
    (ofWrites writes).entries.countP (fun (_, u) => u == v) =
      ((writes.map Prod.fst).toFinset.filter fun p => lastAt writes p = some v).card := by
  refine countP_eq_card fun p => ?_
  rw [Finset.mem_filter, List.mem_toFinset, get?_ofWrites, and_iff_right_iff_imp]
  exact fun hlast => exists_lastAt_iff.1 ⟨v, hlast⟩

end Grid

end Intcode.Control
