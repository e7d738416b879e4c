import Mathlib.Algebra.Ring.Int.Defs
import Mathlib.Algebra.BigOperators.Group.List.Basic
import Intcode.Control.HullRobot
import Intcode.Proofs.Control.Grid

namespace Intcode.Control.HullRobot

/-!
# The walk of the hull painting robot

Where the robot stands, where it looks and what it has painted are told from the readings it has been
given, without going through its states: the bearing from the number of turns to either side, the
place from the bearings in which it has moved, and the color of a panel from the last time the robot
left it or tried to.

* `Reading`                    — a color to paint and a turn
* `bearing`, `place`, `trail`  — the history of a walk
* `walked`                     — the robot after a walk
* `Walked`, `walked_spec`      — the robot goes with its history
* `walk_law`                   — the robot, and its answer to one reading more
-/

/-- What the engine tells the robot. -/
structure Reading where
  color : Int
  turn : Int
  deriving Repr, DecidableEq

/-- The turn is one that the robot knows. -/
def Reading.isTurn (d : Reading) : Bool := d.turn = 0 || d.turn = 1

/-! ### The history of a walk -/

/-- The members of a list, each with those before it. -/
def withPast {α : Type} (l : List α) : List (List α × α) := l.mapIdx fun i x => (l.take i, x)

theorem withPast_concat {α : Type} (l : List α) (x : α) :
    withPast (l ++ [x]) = withPast l ++ [(l, x)] := by
  unfold withPast
  rw [List.mapIdx_concat, List.take_left]
  congr 1
  refine List.mapIdx_eq_mapIdx_iff.2 fun i hi => ?_
  rw [List.take_append_of_le_length (Nat.le_of_lt hi)]

/-- The number of turns to the left. -/
def lefts (ds : List Reading) : Nat := ds.countP fun d => d.turn = 0

/-- The number of turns to the right. -/
def rights (ds : List Reading) : Nat := ds.countP fun d => d.turn = 1

/-- The number of the heading after all turns, counted to the right from the north. -/
def bearing (ds : List Reading) : Int := ((rights ds : Int) - lefts ds) % 4

/-- The bearings in which the robot has moved, one for each turn that it knows. -/
def bearings (ds : List Reading) : List Int :=
  (withPast ds).filterMap fun (past, d) =>
    if d.isTurn then some (bearing (past ++ [d])) else none

/-- How far a move in a bearing goes to the east. -/
def eastward (b : Int) : Int := if b = 1 then 1 else if b = 3 then -1 else 0

/-- How far a move in a bearing goes to the north. -/
def northward (b : Int) : Int := if b = 0 then 1 else if b = 2 then -1 else 0

/-- Where the robot has come to: the sum of its moves. -/
def place (ds : List Reading) : Point :=
  ⟨((bearings ds).map eastward).sum, ((bearings ds).map northward).sum⟩

/-- The places where the robot stood before each reading, with the colors it painted there. -/
def trail (ds : List Reading) : List (Point × Int) :=
  (withPast ds).map fun (past, d) => (place past, d.color)

variable {ds : List Reading} {d : Reading} {r : HullRobot} {start : Int}

theorem bearings_concat (ds : List Reading) (d : Reading) :
    bearings (ds ++ [d]) =
      bearings ds ++ if d.isTurn then [bearing (ds ++ [d])] else [] := by
  rw [bearings, withPast_concat, List.filterMap_append]
  cases hturn : d.isTurn <;> simp [bearings, hturn]

/-- A turn that the robot knows moves it ahead. -/
theorem place_concat (hturn : d.isTurn = true) :
    place (ds ++ [d]) = ⟨(place ds).x + eastward (bearing (ds ++ [d])),
      (place ds).y + northward (bearing (ds ++ [d]))⟩ := by
  simp [place, bearings_concat, hturn]

/-- On any other it stays. -/
theorem place_concat_of_not (hturn : d.isTurn = false) : place (ds ++ [d]) = place ds := by
  simp [place, bearings_concat, hturn]

theorem trail_concat (ds : List Reading) (d : Reading) :
    trail (ds ++ [d]) = trail ds ++ [(place ds, d.color)] := by
  rw [trail, withPast_concat, List.map_append]
  rfl

/-- The panel where the walk began has been painted first of all. -/
theorem origin_mem_trail (ds : List Reading) (d : Reading) :
    Point.origin ∈ (trail (ds ++ [d])).map Prod.fst := by
  induction ds using List.reverseRecOn generalizing d with
  | nil => exact List.mem_singleton.2 rfl
  | append_singleton ds e ih =>
    rw [trail_concat, List.map_append]
    exact List.mem_append_left _ (ih e)

/-! ### Turns and moves -/

theorem index_left (h : Heading) : (h.left.index : Int) = (h.index - 1) % 4 := by
  cases h <;> rfl

theorem index_right (h : Heading) : (h.right.index : Int) = (h.index + 1) % 4 := by
  cases h <;> rfl

theorem ahead_eq (h : Heading) (p : Point) :
    h.ahead p = ⟨p.x + eastward h.index, p.y + northward h.index⟩ := by
  cases h <;> simp [Heading.ahead, Heading.index, eastward, northward, Int.sub_eq_add_neg]

/-- Only a turn that the robot knows gives a heading. -/
theorem turn?_eq_none_iff {h : Heading} : h.turn? d.turn = none ↔ d.isTurn = false := by
  unfold Heading.turn? Reading.isTurn
  split <;> simp_all

/-- And then the heading is the one that the history tells. -/
theorem index_of_turn?_eq_some {h h' : Heading} (hindex : (h.index : Int) = bearing ds)
    (hturn : h.turn? d.turn = some h') : (h'.index : Int) = bearing (ds ++ [d]) := by
  unfold bearing lefts rights at hindex ⊢
  -- the reading adds one to the turns of its side, and the heading goes one on in that direction
  rw [List.countP_append, List.countP_append, List.countP_singleton, List.countP_singleton]
  unfold Heading.turn? at hturn
  split at hturn
  · rename_i hzero
    obtain rfl := Option.some.inj hturn
    rw [index_left, hindex, hzero]
    simp
    omega
  · rename_i hone
    obtain rfl := Option.some.inj hturn
    rw [index_right, hindex, hone]
    simp
    omega
  · cases hturn

/-- On a turn that the robot does not know the bearing stays. -/
theorem bearing_concat_of_not (hturn : d.isTurn = false) : bearing (ds ++ [d]) = bearing ds := by
  have hzero : d.turn ≠ 0 := by simp_all [Reading.isTurn]
  have hone : d.turn ≠ 1 := by simp_all [Reading.isTurn]
  simp [bearing, lefts, rights, hzero, hone]

/-! ### The robot and its history -/

/-- The robot after a walk. -/
def walked (start : Int) (ds : List Reading) : HullRobot :=
  ds.foldl (fun r d => (r.act d.color d.turn).2) { startColor := start }

/-- The robot goes with the history of its walk. -/
structure Walked (ds : List Reading) (r : HullRobot) : Prop where
  heading : (r.heading.index : Int) = bearing ds
  position : r.position = place ds
  panels : r.panels = Grid.ofWrites (trail ds)

theorem walked_concat (start : Int) (ds : List Reading) (d : Reading) :
    walked start (ds ++ [d]) = ((walked start ds).act d.color d.turn).2 := by
  rw [walked, List.foldl_concat]
  rfl

/-- A turn that is not known leaves the panel painted and the robot in its place. -/
theorem act_of_not_isTurn (r : HullRobot) (hturn : d.isTurn = false) :
    r.act d.color d.turn = (.error (.badTurn d.turn),
      { r with panels := r.panels.put r.position d.color }) := by
  simp only [act, turn?_eq_none_iff.2 hturn]

namespace Walked

/-- The panel under the robot is painted next. -/
theorem panels_put (hw : Walked ds r) (d : Reading) :
    r.panels.put r.position d.color = Grid.ofWrites (trail (ds ++ [d])) := by
  rw [hw.panels, hw.position, trail_concat, Grid.ofWrites_concat]

/-- What the robot does on a turn that it knows. -/
theorem exists_act_eq (hw : Walked ds r) (hturn : d.isTurn = true) :
    ∃ r' : HullRobot, r.act d.color d.turn = (.ok [r'.colorAt r'.position], r') ∧
      Walked (ds ++ [d]) r' := by
  have hne : r.heading.turn? d.turn ≠ none := by simp [turn?_eq_none_iff, hturn]
  obtain ⟨h, hsome⟩ := Option.ne_none_iff_exists'.1 hne
  have hindex := index_of_turn?_eq_some hw.heading hsome
  have hahead : h.ahead r.position = place (ds ++ [d]) := by
    rw [ahead_eq, hw.position, place_concat hturn, hindex]
  let r' : HullRobot :=
    { r with panels := r.panels.put r.position d.color, heading := h, position := h.ahead r.position }
  exact ⟨r', by simp only [HullRobot.act, hsome, r'], hindex, hahead, hw.panels_put d⟩

/-- **A reading keeps the robot with its history.** -/
theorem act (hw : Walked ds r) (d : Reading) :
    Walked (ds ++ [d]) (r.act d.color d.turn).2 := by
  cases hturn : d.isTurn with
  | true =>
    obtain ⟨r', hact, hw'⟩ := hw.exists_act_eq hturn
    rw [hact]
    exact hw'
  | false =>
    -- neither the bearing nor the place has changed, only the panel
    rw [act_of_not_isTurn r hturn]
    exact ⟨by rw [bearing_concat_of_not hturn]; exact hw.heading,
      by rw [place_concat_of_not hturn]; exact hw.position, hw.panels_put d⟩

/-- Once the first panel is painted, the color under the robot is the one painted there last, or
    black. -/
theorem colorAt_eq (hw : Walked (ds ++ [d]) r) (p : Point) :
    r.colorAt p = (Grid.lastAt (trail (ds ++ [d])) p).getD black := by
  have hget : r.panels.get? p = Grid.lastAt (trail (ds ++ [d])) p := by
    rw [hw.panels, Grid.get?_ofWrites]
  unfold colorAt
  cases hlast : Grid.lastAt (trail (ds ++ [d])) p with
  | some color => simp only [hget, hlast, Option.getD_some]
  | none =>
    -- the first panel is among those that are painted
    have hne : p ≠ .origin := by
      rintro rfl
      obtain ⟨color, hcolor⟩ := Grid.exists_lastAt_iff.2 (origin_mem_trail ds d)
      rw [hcolor] at hlast
      cases hlast
    simp only [hget, hlast, if_neg hne, Option.getD_none]

/-- The answer to a turn that the robot knows is the color painted last where it then stands. -/
theorem answer_eq (hw : Walked ds r) (hturn : d.isTurn = true) :
    (r.act d.color d.turn).1 =
      .ok [(Grid.lastAt (trail (ds ++ [d])) (place (ds ++ [d]))).getD black] := by
  obtain ⟨r', hact, hw'⟩ := hw.exists_act_eq hturn
  rw [hact, hw'.colorAt_eq, hw'.position]

end Walked

/-- **The robot goes with the history of its walk.** -/
theorem walked_spec (start : Int) (ds : List Reading) : Walked ds (walked start ds) := by
  induction ds using List.reverseRecOn with
  | nil => exact ⟨rfl, rfl, rfl⟩
  | append_singleton ds d ih =>
    rw [walked_concat]
    exact ih.act d

/-- **The law of the hull painting robot.**  After any walk, its heading is the number of turns to the
    right less those to the left, modulo four; it stands at the sum of the moves in the bearings it
    has had; the panels with a color are those where it stood before some reading, each with the
    color painted there last.  One reading more is answered with the color painted last on the panel
    where the robot then stands, or black if there is none; the color it was told to start with has
    no part in any answer.  A turn that it does not know is an error, which leaves the panel painted
    and the robot where it is; the walk goes on from there. -/
theorem walk_law (start : Int) (ds : List Reading) (d : Reading) :
    let r := walked start ds
    (r.heading.index : Int) = bearing ds ∧ r.position = place ds ∧
    (∀ p, r.panels.get? p = Grid.lastAt (trail ds) p) ∧
    r.panels.size = ((trail ds).map Prod.fst).toFinset.card ∧
    (d.isTurn = true → (r.act d.color d.turn).1 =
      .ok [(Grid.lastAt (trail (ds ++ [d])) (place (ds ++ [d]))).getD black]) ∧
    (d.isTurn = false → r.act d.color d.turn = (.error (.badTurn d.turn),
      { r with panels := r.panels.put r.position d.color })) ∧
    ∀ other, ((walked other ds).act d.color d.turn).1 = (r.act d.color d.turn).1 := by
  intro r
  have hw : Walked ds r := walked_spec start ds
  refine ⟨hw.heading, hw.position, fun p => ?_, ?_, hw.answer_eq, act_of_not_isTurn r,
    fun other => ?_⟩
  · rw [hw.panels, Grid.get?_ofWrites]
  · rw [hw.panels, Grid.size_ofWrites]
  · cases hturn : d.isTurn with
    | true => rw [hw.answer_eq hturn, (walked_spec other ds).answer_eq hturn]
    | false => rw [act_of_not_isTurn _ hturn, act_of_not_isTurn _ hturn]

/-- A robot that turns left four times is back on its first panel, which it has painted black though
    it was white to start with; and it does not know a turn `5`. -/
theorem walk_law_of_square :
    ((walked white [⟨0, 0⟩, ⟨1, 0⟩, ⟨1, 0⟩]).act 1 0).1 = .ok [black] ∧
      ((walked white [⟨0, 0⟩]).act 1 5).1 = .error (.badTurn 5) := by
  obtain ⟨-, -, -, -, hanswer, -⟩ := walk_law white [⟨0, 0⟩, ⟨1, 0⟩, ⟨1, 0⟩] ⟨1, 0⟩
  obtain ⟨-, -, -, -, -, herror, -⟩ := walk_law white [⟨0, 0⟩] ⟨1, 5⟩
  exact ⟨(hanswer rfl).trans (by decide +kernel), congrArg Prod.fst (herror rfl)⟩

end Intcode.Control.HullRobot
