namespace Intcode

/-!
# First-in first-out queues

A queue takes values at its back and gives them out at its front, in constant time on average.  It
is a list of the values next to leave and a reversed list of the latest arrivals; `Fifo.toList` is
the queue as one list, and a lemma for each operation says what it does to that list.

* `Fifo.push`   — a value arrives
* `Fifo.pop?`   — the value at the front leaves
* `Fifo.ofList` — the queue with given content
-/

/-- A queue. -/
structure Fifo (α : Type) where
  /-- The values next to leave, in order. -/
  front : List α := []
  /-- The latest arrivals, last first. -/
  back : List α := []
  deriving Repr

namespace Fifo

variable {α : Type}

/-- The content of a queue, the next value to leave first. -/
def toList (q : Fifo α) : List α := q.front ++ q.back.reverse

/-- The queue with given content. -/
def ofList (vs : List α) : Fifo α := ⟨vs, []⟩

/-- The number of values in a queue. -/
def length (q : Fifo α) : Nat := q.front.length + q.back.length

/-- A value arrives at the back. -/
def push (q : Fifo α) (v : α) : Fifo α := ⟨q.front, v :: q.back⟩

/-- The value at the front, and the queue without it. -/
def pop? (q : Fifo α) : Option (α × Fifo α) :=
  match q.front with
  | v :: front => some (v, ⟨front, q.back⟩)
  | [] =>
    match q.back.reverse with
    | v :: front => some (v, ⟨front, []⟩)
    | [] => none

/-! ### The content after each operation -/

@[simp] theorem toList_empty : ({} : Fifo α).toList = [] := rfl

@[simp] theorem toList_ofList (vs : List α) : (ofList vs).toList = vs := by
  simp [ofList, toList]

@[simp] theorem toList_push (q : Fifo α) (v : α) : (q.push v).toList = q.toList ++ [v] := by
  simp [push, toList]

@[simp] theorem length_toList (q : Fifo α) : q.toList.length = q.length := by
  simp [toList, length]

/-- Nothing leaves an empty queue. -/
theorem pop?_eq_none_iff {q : Fifo α} : q.pop? = none ↔ q.toList = [] := by
  obtain ⟨front, back⟩ := q
  cases front with
  | cons v front => simp [pop?, toList]
  | nil =>
    simp only [pop?, toList, List.nil_append]
    split <;> rename_i h <;> simp [h]

/-- What leaves is the head of the content, and its tail stays. -/
theorem toList_eq_cons_of_pop? {q r : Fifo α} {v : α} (h : q.pop? = some (v, r)) :
    q.toList = v :: r.toList := by
  obtain ⟨front, back⟩ := q
  cases front with
  | cons w front =>
    simp only [pop?, Option.some.injEq, Prod.mk.injEq] at h
    obtain ⟨rfl, rfl⟩ := h
    simp [toList]
  | nil =>
    simp only [pop?] at h
    split at h
    · rename_i w front hrev
      simp only [Option.some.injEq, Prod.mk.injEq] at h
      obtain ⟨rfl, rfl⟩ := h
      simp [toList, hrev]
    · cases h

/-- A queue gets shorter when a value leaves. -/
theorem length_lt_of_pop? {q r : Fifo α} {v : α} (h : q.pop? = some (v, r)) :
    r.length < q.length := by
  have := congrArg List.length (toList_eq_cons_of_pop? h)
  simp only [length_toList, List.length_cons] at this
  omega

end Fifo

end Intcode
