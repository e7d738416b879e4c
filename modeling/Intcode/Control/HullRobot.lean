import Intcode.Control.Controller
import Intcode.Control.Grid
import Intcode.Text.Blank

namespace Intcode.Control

/-!
# The hull painting robot

The robot stands on a panel of the hull and looks along one of four headings.  The engine is told
the color under the robot; it answers with the color to paint there and the direction to turn.
The robot then moves one panel ahead and reports the color it finds.

* `Heading`           — the headings, and their turns
* `HullRobot.act`     — one move
* `HullRobot.render`  — a picture of the hull
* `HullRobot.controller`
-/

/-- The color of panels nobody painted. -/
def black : Int := 0

/-- The color a picture of the hull shows. -/
def white : Int := 1

/-- The directions the robot looks in; `y` grows to the north. -/
inductive Heading where
  | north
  | east
  | south
  | west
  deriving Repr, DecidableEq

namespace Heading

/-- The heading after a turn to the left. -/
def left : Heading → Heading
  | .north => .west
  | .west => .south
  | .south => .east
  | .east => .north

/-- The heading after a turn to the right. -/
def right : Heading → Heading
  | .north => .east
  | .east => .south
  | .south => .west
  | .west => .north

/-- The number of a heading, counted to the right from the north. -/
def index : Heading → Nat
  | .north => 0
  | .east => 1
  | .south => 2
  | .west => 3

/-- The heading after a turn by its number: `0` is left, `1` is right. -/
def turn? (h : Heading) (turn : Int) : Option Heading :=
  match turn with
  | 0 => some h.left
  | 1 => some h.right
  | _ => none

/-- The next point in a direction. -/
def ahead (h : Heading) (p : Point) : Point :=
  match h with
  | .north => ⟨p.x, p.y + 1⟩
  | .east => ⟨p.x + 1, p.y⟩
  | .south => ⟨p.x, p.y - 1⟩
  | .west => ⟨p.x - 1, p.y⟩

end Heading

/-- The robot and the panels it has painted. -/
structure HullRobot where
  /-- The color of the first panel. -/
  startColor : Int := black
  panels : Grid := {}
  position : Point := .origin
  heading : Heading := .north

namespace HullRobot

/-- The color of a panel.  The first one has its own until it is painted. -/
def colorAt (r : HullRobot) (p : Point) : Int :=
  match r.panels.get? p with
  | some color => color
  | none => if p = .origin then r.startColor else black

/-- Paints the panel under the robot, turns and moves ahead; answers with the color found there.  On
    an unknown turn the panel is painted but the robot stays. -/
def act (r : HullRobot) (color turn : Int) : Except Error (List Int) × HullRobot :=
  let r := { r with panels := r.panels.put r.position color }
  match r.heading.turn? turn with
  | none => (.error (.badTurn turn), r)
  | some heading =>
    let r := { r with heading, position := heading.ahead r.position }
    (.ok [r.colorAt r.position], r)

/-- The character that shows a panel. -/
def panelChar (r : HullRobot) (p : Point) : Char :=
  if r.panels.get? p = some white then '#' else ' '

/-- The integers from `lower` to `upper`. -/
def interval (lower upper : Int) : List Int :=
  (List.range (upper - lower + 1).toNat).map fun (i : Nat) => lower + i

/-- One row of the picture between two columns, without trailing blanks. -/
def renderRow (r : HullRobot) (left right y : Int) : String :=
  String.ofList (dropTrailingSpaces ((interval left right).map fun x => r.panelChar ⟨x, y⟩))

/-- The picture of the painted hull, top row first. -/
def render (r : HullRobot) : List String :=
  match r.panels.bounds? with
  | none => []
  | some (lower, upper) =>
    (interval lower.y upper.y).reverse.map (r.renderRow lower.x upper.x)

/-- The robot as a controller. -/
def controller : Controller HullRobot where
  name := "HullPaintingRobot"
  groupSize := 2
  opening r := .ok [r.startColor]
  answer r readings :=
    match readings with
    | [color, turn] => r.act color turn
    | _ => (.ok [], r)

end HullRobot

end Intcode.Control
