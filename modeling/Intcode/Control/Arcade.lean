import Intcode.Control.Controller
import Intcode.Control.Grid
import Intcode.Text.Blank

namespace Intcode.Control

/-!
# The arcade cabinet

The game draws tiles on the screen, three readings at a time: a position and what to draw there.  A
special position carries the score instead.  When the game is played, the cabinet steers the paddle
toward the ball each time the ball is drawn.

* `Arcade.show`    — one drawing, and the answer to it
* `Arcade.blocks`  — the number of blocks on the screen
* `Arcade.render`  — the screen as text
* `Arcade.controller`
-/

/-- What is on the screen and what is known of the game. -/
structure Arcade where
  /-- Whether the game is played, or only shown. -/
  play : Bool := false
  tiles : Grid := {}
  score : Int := 0
  /-- The column where the paddle was drawn last. -/
  paddle : Option Int := none
  /-- The column where the ball was drawn last. -/
  ball : Option Int := none

namespace Arcade

/-- The position that carries the score. -/
def scorePosition : Point := ⟨-1, 0⟩

/-- The number of the tile that is a block. -/
def blockTile : Int := 2

/-- The number of the tile that is the paddle. -/
def paddleTile : Int := 3

/-- The number of the tile that is the ball. -/
def ballTile : Int := 4

/-- The character that shows a tile. -/
def tileChar (tile : Int) : Char :=
  match tile with
  | 0 => ' '
  | 1 => '%'
  | 2 => '#'
  | 3 => '-'
  | 4 => 'o'
  | _ => '?'

/-- The patch that makes the game free to play. -/
def freePlay : Int × Int := (0, 2)

/-- The joystick position that moves the paddle toward the ball: the sign of the distance. -/
def steer (paddle : Option Int) (ball : Int) : Int :=
  match paddle with
  | none => 0
  | some x => (ball - x).sign

/-- Takes one drawing; answers with a joystick position if the ball was drawn in a game played. -/
def «show» (a : Arcade) (x y tile : Int) : List Int × Arcade :=
  if (⟨x, y⟩ : Point) = scorePosition then ([], { a with score := tile })
  else
    let a := { a with tiles := a.tiles.put ⟨x, y⟩ tile }
    if tile = paddleTile then ([], { a with paddle := some x })
    else if tile = ballTile then
      (if a.play then [steer a.paddle x] else [], { a with ball := some x })
    else ([], a)

/-- The number of blocks on the screen. -/
def blocks (a : Arcade) : Nat := a.tiles.entries.countP fun (_, tile) => tile == blockTile

/-- The largest width of a screen: a width is a signed 64-bit word. -/
def maxWidth : Int := 9223372036854775807

/-- The least width of a screen, which is that of a screen far to the left of column zero. -/
def minWidth : Int := -9223372036854775808

/-- The member of a list of `size` many that an index means: a negative one counts from the end. -/
def memberAt? (size : Nat) (index : Int) : Option Nat :=
  let k := if index < 0 then index + size else index
  if 0 ≤ k ∧ k < size then some k.toNat else none

/-- The rows of characters on the way to the text. -/
abbrev Canvas := Array (Array Char)

/-- Rows of blanks.  A row narrower than nothing is empty. -/
def blankCanvas (width height : Int) : Canvas :=
  ((List.range height.toNat).map fun _ => Array.replicate width.toNat ' ').toArray

/-- Replaces the character at a place of the rows. -/
def plot (rows : Canvas) (p : Point) (c : Char) : Except Error Canvas :=
  match memberAt? rows.size p.y with
  | none => .error (.noMember false)
  | some y =>
    match memberAt? (rows.getD y #[]).size p.x with
    | none => .error (.noMember true)
    | some x => .ok (rows.modify y (·.setIfInBounds x c))

/-- Draws a tile, unless it lies at a negative coordinate: its indices would count from the end. -/
def draw (rows : Canvas) (tile : Point × Int) : Except Error Canvas :=
  if 0 ≤ tile.1.x ∧ 0 ≤ tile.1.y then plot rows tile.1 (tileChar tile.2) else .ok rows

/-- The screen as text, top row first, without trailing blanks.  It begins at column zero and row
    zero; what is drawn outside is not shown. -/
def render (a : Arcade) : Except Error (List String) :=
  match a.tiles.bounds? with
  | none => .ok []
  | some (_, upper) => do
    let width := upper.x + 1
    let height := upper.y + 1
    if 0 < height ∧ (width < minWidth ∨ maxWidth < width) then .error .unfitIndex
    let rows ← a.tiles.entries.foldlM draw (blankCanvas width height)
    return rows.toList.map fun row => String.ofList (dropTrailingSpaces row.toList)

/-- The cabinet as a controller. -/
def controller : Controller Arcade where
  name := "ArcadeCabinet"
  groupSize := 3
  patches a := if a.play then [freePlay] else []
  answer a readings :=
    match readings with
    | [x, y, tile] =>
      let (commands, a) := a.show x y tile
      (.ok commands, a)
    | _ => (.ok [], a)

end Arcade

end Intcode.Control
