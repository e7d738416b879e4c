import Intcode.Control.Arcade
import Intcode.Proofs.Control.Grid

namespace Intcode.Control.Arcade

/-!
# What the arcade cabinet shows

The score, the screen, and the columns of the paddle and of the ball are told from the drawings the
cabinet has been given, each by the last of the drawings that has to do with it.

* `Drawing`                      — a position and what to draw there
* `scored`, `writes`, `column`   — the history of a game
* `shown`                        — the cabinet after some drawings
* `show_eq`                      — what one drawing does to each part of the cabinet
* `Shown`, `shown_spec`          — the cabinet goes with its history
* `screen_law`                   — the cabinet, and its answer to one drawing more
-/

/-- What the engine tells the cabinet. -/
structure Drawing where
  x : Int
  y : Int
  tile : Int
  deriving Repr, DecidableEq

namespace Drawing

/-- Where to draw. -/
def point (d : Drawing) : Point := ⟨d.x, d.y⟩

/-- The number is the score, and nothing is drawn. -/
def isScore (d : Drawing) : Bool := d.point = scorePosition

/-- The number is that of a given tile, which is drawn. -/
def draws (tile : Int) (d : Drawing) : Bool := !d.isScore && d.tile = tile

end Drawing

/-! ### The history of a game -/

/-- The number given last as the score. -/
def scored (ds : List Drawing) : Int := ((last? Drawing.isScore ds).map Drawing.tile).getD 0

/-- The tiles that have been drawn, each with its position. -/
def writes (ds : List Drawing) : List (Point × Int) :=
  (ds.filter fun d => !d.isScore).map fun d => (d.point, d.tile)

/-- The column where a tile has been drawn last. -/
def column (tile : Int) (ds : List Drawing) : Option Int :=
  (last? (Drawing.draws tile) ds).map Drawing.x

/-- The positions where a tile is the last that has been drawn. -/
def positionsOf (tile : Int) (ds : List Drawing) : Finset Point :=
  ((writes ds).map Prod.fst).toFinset.filter fun p => Grid.lastAt (writes ds) p = some tile

variable {ds : List Drawing} {a : Arcade} {play : Bool}

theorem scored_concat (ds : List Drawing) (d : Drawing) :
    scored (ds ++ [d]) = if d.isScore then d.tile else scored ds := by
  rw [scored, last?_concat]
  cases hscore : d.isScore <;> simp [scored]

theorem writes_concat (ds : List Drawing) (d : Drawing) :
    writes (ds ++ [d]) = if d.isScore then writes ds else writes ds ++ [(d.point, d.tile)] := by
  rw [writes, List.filter_append]
  cases hscore : d.isScore <;> simp [writes, hscore]

theorem column_concat (tile : Int) (ds : List Drawing) (d : Drawing) :
    column tile (ds ++ [d]) = if d.draws tile then some d.x else column tile ds := by
  rw [column, last?_concat]
  cases hdraws : d.draws tile <;> simp [column]

/-! ### One drawing -/

/-- A drawing that gives the score leaves all else as it was. -/
theorem show_of_isScore (a : Arcade) {d : Drawing} (hscore : d.isScore = true) :
    a.show d.x d.y d.tile = ([], { a with score := d.tile }) :=
  if_pos (of_decide_eq_true hscore)

/-- **What a drawing does to each part of the cabinet**, and the answer to it. -/
theorem show_eq (a : Arcade) (d : Drawing) :
    a.show d.x d.y d.tile =
      (if d.draws ballTile && a.play then [steer a.paddle d.x] else [],
        { play := a.play
          tiles := if d.isScore then a.tiles else a.tiles.put d.point d.tile
          score := if d.isScore then d.tile else a.score
          paddle := if d.draws paddleTile then some d.x else a.paddle
          ball := if d.draws ballTile then some d.x else a.ball }) := by
  -- the score comes before all tiles, whatever the number is
  cases hscore : d.isScore with
  | true =>
    rw [show_of_isScore a hscore]
    simp [Drawing.draws, hscore]
  | false =>
    have hpoint : (⟨d.x, d.y⟩ : Point) ≠ scorePosition := of_decide_eq_false hscore
    simp only [«show», if_neg hpoint, Drawing.draws, hscore]
    -- a tile is not both the paddle and the ball
    by_cases hpaddle : d.tile = paddleTile
    · simp [hpaddle, paddleTile, ballTile, Drawing.point]
    · by_cases hball : d.tile = ballTile
      · simp [hball, paddleTile, ballTile, Drawing.point]
      · simp [hpaddle, hball, Drawing.point]

/-! ### The cabinet and its history -/

/-- The cabinet after some drawings. -/
def shown (play : Bool) (ds : List Drawing) : Arcade :=
  ds.foldl (fun a d => (a.show d.x d.y d.tile).2) { play }

/-- The cabinet goes with the history of its game. -/
structure Shown (play : Bool) (ds : List Drawing) (a : Arcade) : Prop where
  play : a.play = play
  score : a.score = scored ds
  tiles : a.tiles = Grid.ofWrites (writes ds)
  paddle : a.paddle = column paddleTile ds
  ball : a.ball = column ballTile ds

theorem shown_concat (play : Bool) (ds : List Drawing) (d : Drawing) :
    shown play (ds ++ [d]) = ((shown play ds).show d.x d.y d.tile).2 := by
  rw [shown, List.foldl_concat]
  rfl

namespace Shown

/-- **A drawing keeps the cabinet with its history.** -/
theorem «show» (hs : Shown play ds a) (d : Drawing) :
    Shown play (ds ++ [d]) (a.show d.x d.y d.tile).2 := by
  rw [show_eq]
  refine ⟨hs.play, ?_, ?_, ?_, ?_⟩
  · rw [scored_concat, hs.score]
  · cases hscore : d.isScore with
    | true => simp [writes_concat, hscore, hs.tiles]
    | false => simp [writes_concat, hscore, hs.tiles, Grid.ofWrites_concat]
  · rw [column_concat, hs.paddle]
  · rw [column_concat, hs.ball]

/-- The positions of a tile on the screen, counted. -/
theorem countP_entries (hs : Shown play ds a) (tile : Int) :
    a.tiles.entries.countP (fun (_, u) => u == tile) = (positionsOf tile ds).card := by
  rw [hs.tiles, Grid.countP_ofWrites, positionsOf]

/-- The answer to a drawing, by what has been drawn before. -/
theorem answer_eq (hs : Shown play ds a) (d : Drawing) :
    (a.show d.x d.y d.tile).1 =
      if d.draws ballTile && play then [steer (column paddleTile ds) d.x] else [] := by
  rw [show_eq, hs.play, hs.paddle]

end Shown

/-- **The cabinet goes with the history of its game.** -/
theorem shown_spec (play : Bool) (ds : List Drawing) : Shown play ds (shown play ds) := by
  induction ds using List.reverseRecOn with
  | nil => exact ⟨rfl, rfl, rfl, rfl, rfl⟩
  | append_singleton ds d ih =>
    rw [shown_concat]
    exact ih.show d

/-- **The law of the arcade screen.**  After any drawings, played or not, the score is the number given
    last as the score; what is on the screen is what has been drawn last at each position, and the
    blocks are counted by the positions where the last tile is a block; the paddle and the ball are
    in the columns where they have been drawn last.  One drawing more is answered exactly if it
    draws the ball in a game played: with the sign of the ball's distance from the paddle, or `0` if
    there is no paddle yet.  A drawing that gives the score changes nothing but the score. -/
theorem screen_law (play : Bool) (ds : List Drawing) (d : Drawing) :
    let a := shown play ds
    a.play = play ∧ a.score = scored ds ∧
    (∀ p, a.tiles.get? p = Grid.lastAt (writes ds) p) ∧
    a.tiles.size = ((writes ds).map Prod.fst).toFinset.card ∧
    a.blocks = (positionsOf blockTile ds).card ∧
    a.paddle = column paddleTile ds ∧ a.ball = column ballTile ds ∧
    (d.draws ballTile = true ∧ play = true → (a.show d.x d.y d.tile).1 =
      [((column paddleTile ds).map fun x => (d.x - x).sign).getD 0]) ∧
    (¬ (d.draws ballTile = true ∧ play = true) → (a.show d.x d.y d.tile).1 = []) ∧
    (d.isScore = true → a.show d.x d.y d.tile = ([], { a with score := d.tile })) := by
  intro a
  have hs : Shown play ds a := shown_spec play ds
  refine ⟨hs.play, hs.score, fun p => ?_, ?_, hs.countP_entries blockTile, hs.paddle, hs.ball,
    fun hanswer => ?_, fun hnone => ?_, show_of_isScore a⟩
  · rw [hs.tiles, Grid.get?_ofWrites]
  · rw [hs.tiles, Grid.size_ofWrites]
  · rw [hs.answer_eq, if_pos (by simpa using hanswer)]
    cases hpaddle : column paddleTile ds <;> rfl
  · rw [hs.answer_eq, if_neg (by simpa using hnone)]

/-- A block that is drawn over is not counted, and a score of `4` is not the ball, which is drawn after
    it, two columns to the left of the paddle. -/
theorem screen_law_of_game :
    (shown true [⟨4, 2, 3⟩, ⟨7, 1, 2⟩, ⟨7, 1, 0⟩, ⟨-1, 0, 4⟩]).blocks = 0 ∧
      ((shown true [⟨4, 2, 3⟩, ⟨7, 1, 2⟩, ⟨7, 1, 0⟩, ⟨-1, 0, 4⟩]).show 2 1 4).1 = [-1] := by
  obtain ⟨-, -, -, -, hblocks, -, -, hanswer, -⟩ :=
    screen_law true [⟨4, 2, 3⟩, ⟨7, 1, 2⟩, ⟨7, 1, 0⟩, ⟨-1, 0, 4⟩] ⟨2, 1, 4⟩
  have hball : (⟨2, 1, 4⟩ : Drawing).draws ballTile = true := by decide
  exact ⟨hblocks.trans (by decide +kernel), (hanswer ⟨hball, rfl⟩).trans (by decide)⟩

/-- A score is not a tile: `3` as the score leaves the paddle where it was, which is nowhere at
    first. -/
theorem paddle_shown_of_score :
    (shown false [⟨-1, 0, 3⟩]).paddle ≠
      (last? (fun d => d.tile = paddleTile) [⟨-1, 0, 3⟩]).map Drawing.x := by
  decide

end Intcode.Control.Arcade
