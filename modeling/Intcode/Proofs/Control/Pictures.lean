import Intcode.Text.Blank
import Intcode.Proofs.Control.Grid

namespace Intcode.Control

/-!
# Pictures

A picture is a list of rows of text.  Rows have no blanks at their ends, so a picture is read as if
blanks went on for ever behind each row and below the last one.

* `Picture.charAt`        — the character in a row and a column
* `Picture.line`, `Picture.sheet` — a picture with a given character in each place
* `Picture.charAt_sheet`, `Picture.getLast?_of_mem_sheet` — what is read in such a picture
* `Grid.Sides`, `Grid.bounds?_eq_some_iff` — the rectangle around the points with a value
-/

namespace Picture

/-- The character in a row and a column, both counted from zero: a blank where there is none. -/
def charAt (rows : List String) (row col : Nat) : Char :=
  (rows[row]?.bind fun line => line.toList[col]?).getD ' '

/-- A row of some width, without trailing blanks. -/
def line (width : Nat) (f : Nat → Char) : String :=
  String.ofList (dropTrailingSpaces ((List.range width).map f))

/-- The picture of some height and width with the character `f row col` in each place. -/
def sheet (height width : Nat) (f : Nat → Nat → Char) : List String :=
  (List.range height).map fun row => line width (f row)

variable {height width row col : Nat} {f : Nat → Nat → Char} {g : Nat → Char}

/-- What is no blank stands in a row. -/
theorem exists_row_of_charAt {rows : List String} (hchar : charAt rows row col ≠ ' ') :
    ∃ text, rows[row]? = some text ∧ text.toList[col]? = some (charAt rows row col) := by
  unfold charAt at hchar ⊢
  cases hplace : rows[row]?.bind fun text => text.toList[col]? with
  | none =>
    rw [hplace] at hchar
    exact absurd rfl hchar
  | some c => exact Option.bind_eq_some_iff.1 hplace

/-! ### Rows -/

/-- Without its trailing blanks a row reads as it did with them. -/
theorem getD_dropTrailingSpaces (cs : List Char) (i : Nat) :
    (dropTrailingSpaces cs)[i]?.getD ' ' = cs[i]?.getD ' ' := by
  have hback := dropTrailing_append (· == ' ') cs
  have hblank : ∀ c ∈ (cs.reverse.takeWhile (· == ' ')).reverse, c = ' ' := fun c hc =>
    eq_of_beq (List.all_eq_true.1 List.all_takeWhile c (List.mem_reverse.1 hc))
  conv_rhs => rw [← hback]
  unfold dropTrailingSpaces
  rw [List.getElem?_append]
  split
  · rfl
  · -- behind the row there is nothing, and what was dropped there is a blank
    rename_i hlength
    rw [List.getElem?_eq_none (Nat.le_of_not_lt hlength)]
    cases hdropped : ((cs.reverse.takeWhile (· == ' ')).reverse)[
        i - (dropTrailing (· == ' ') cs).length]? with
    | none => rfl
    | some c => exact (hblank c (List.mem_of_getElem? hdropped)).symm

theorem getD_line (width : Nat) (g : Nat → Char) (col : Nat) :
    (line width g).toList[col]?.getD ' ' = if col < width then g col else ' ' := by
  rw [line, String.toList_ofList, getD_dropTrailingSpaces]
  split
  · rename_i hcol
    simp [hcol]
  · rename_i hcol
    simp [Nat.le_of_not_lt hcol]

/-- No row ends in a blank. -/
theorem getLast?_line (width : Nat) (g : Nat → Char) :
    (line width g).toList.getLast? ≠ some ' ' := by
  intro hlast
  rw [line, String.toList_ofList] at hlast
  exact absurd (not_of_mem_getLast?_dropTrailing hlast) nofun

/-- A row all of whose characters are blanks is empty. -/
theorem line_eq_empty (hblank : ∀ col < width, g col = ' ') : line width g = "" := by
  have hnil : (line width g).toList = [] := by
    rw [← List.getLast?_eq_none_iff]
    cases hlast : (line width g).toList.getLast? with
    | none => rfl
    | some c =>
      -- the last character would have to be a blank, as all of them are
      rw [List.getLast?_eq_getElem?] at hlast
      have hread := getD_line width g ((line width g).toList.length - 1)
      rw [hlast, Option.getD_some] at hread
      refine absurd ?_ (getLast?_line width g)
      rw [List.getLast?_eq_getElem?, hlast, hread]
      split
      · rename_i hcol
        rw [hblank _ hcol]
      · rfl
  rw [← String.ofList_toList (s := line width g), hnil]

/-! ### Sheets -/

@[simp] theorem length_sheet : (sheet height width f).length = height := by
  simp [sheet]

theorem getElem?_sheet (hrow : row < height) :
    (sheet height width f)[row]? = some (line width (f row)) := by
  simp [sheet, hrow]

/-- **What is read in a picture is what was put there**, and a blank anywhere else. -/
theorem charAt_sheet :
    charAt (sheet height width f) row col =
      if row < height ∧ col < width then f row col else ' ' := by
  unfold charAt
  by_cases hrow : row < height
  · rw [getElem?_sheet hrow, Option.bind_some, getD_line]
    simp [hrow]
  · rw [List.getElem?_eq_none (by simpa using hrow), Option.bind_none, if_neg fun h => hrow h.1]
    rfl

theorem getLast?_of_mem_sheet {text : String} (hmem : text ∈ sheet height width f) :
    text.toList.getLast? ≠ some ' ' := by
  obtain ⟨row, -, rfl⟩ := List.mem_map.1 hmem
  exact getLast?_line width (f row)

end Picture

/-! ### The sides of a grid -/

namespace Grid

/-- The sides of the least rectangle around the points with a value. -/
structure Sides (g : Grid) (left bottom right top : Int) : Prop where
  left : (g.points.map Point.x).min? = some left
  bottom : (g.points.map Point.y).min? = some bottom
  right : (g.points.map Point.x).max? = some right
  top : (g.points.map Point.y).max? = some top

variable {g : Grid} {left bottom right top : Int}

/-- The rectangle around some points and those before them. -/
theorem foldl_join (ps : List Point) (b : Point × Point) :
    ps.foldl (fun b q => join b (q, q)) b =
      (⟨(ps.map Point.x).foldl min b.1.x, (ps.map Point.y).foldl min b.1.y⟩,
        ⟨(ps.map Point.x).foldl max b.2.x, (ps.map Point.y).foldl max b.2.y⟩) := by
  induction ps generalizing b with
  | nil => rfl
  | cons p ps ih =>
    rw [List.foldl_cons, ih]
    rfl

theorem bounds?_eq_none_iff : g.bounds? = none ↔ g.points = [] := by
  unfold bounds?
  cases g.points <;> simp

/-- **The bounds of a grid are given by its sides.** -/
theorem bounds?_eq_some_iff :
    g.bounds? = some (⟨left, bottom⟩, ⟨right, top⟩) ↔ g.Sides left bottom right top := by
  have hsides : g.Sides left bottom right top ↔
      (g.points.map Point.x).min? = some left ∧ (g.points.map Point.y).min? = some bottom ∧
      (g.points.map Point.x).max? = some right ∧ (g.points.map Point.y).max? = some top :=
    ⟨fun ⟨h₁, h₂, h₃, h₄⟩ => ⟨h₁, h₂, h₃, h₄⟩, fun ⟨h₁, h₂, h₃, h₄⟩ => ⟨h₁, h₂, h₃, h₄⟩⟩
  rw [hsides]
  unfold bounds?
  cases g.points with
  | nil => simp
  | cons p ps =>
    simp only [boundsOf, foldl_join, List.map_cons, List.min?_cons', List.max?_cons']
    simp [and_assoc]

/-- A grid without points has no sides, and any other has. -/
theorem exists_sides (hne : g.points ≠ []) :
    ∃ left bottom right top, g.Sides left bottom right top := by
  cases hbounds : g.bounds? with
  | none => exact absurd (bounds?_eq_none_iff.1 hbounds) hne
  | some bounds =>
    obtain ⟨⟨left, bottom⟩, ⟨right, top⟩⟩ := bounds
    exact ⟨left, bottom, right, top, bounds?_eq_some_iff.1 hbounds⟩

/-- Points with a value lie between the sides. -/
theorem Sides.mem (hs : g.Sides left bottom right top) {p : Point} {v : Int}
    (hget : g.get? p = some v) : left ≤ p.x ∧ p.x ≤ right ∧ bottom ≤ p.y ∧ p.y ≤ top := by
  have hmem : p ∈ g.points := mem_points_iff.2 ⟨v, hget⟩
  have hx : p.x ∈ g.points.map Point.x := List.mem_map_of_mem hmem
  have hy : p.y ∈ g.points.map Point.y := List.mem_map_of_mem hmem
  exact ⟨(List.min?_eq_some_iff.1 hs.left).2 _ hx, (List.max?_eq_some_iff.1 hs.right).2 _ hx,
    (List.min?_eq_some_iff.1 hs.bottom).2 _ hy, (List.max?_eq_some_iff.1 hs.top).2 _ hy⟩

end Grid

end Intcode.Control
