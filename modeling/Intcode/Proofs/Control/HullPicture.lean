import Intcode.Proofs.Control.Pictures
import Intcode.Proofs.Control.Walk

namespace Intcode.Control.HullRobot

/-!
# The picture of the hull

The picture spans the panels that have been painted, black ones included, with the top row first.
Given the corner where it begins, the white panels can be read off it again.

* `render_eq`       — the picture as a sheet of characters
* `whitePoints`     — the panels that a picture shows as white
* `picture_law`     — what the picture shows, and what can be read off it
-/

/-- The panels that a picture shows as white, if its first character is that of the panel at `left`
    and `top`. -/
def whitePoints (rows : List String) (left top : Int) : List Point :=
  rows.zipIdx.flatMap fun (text, row) =>
    text.toList.zipIdx.filterMap fun (c, col) =>
      if c = '#' then some ⟨left + col, top - row⟩ else none

variable {r : HullRobot} {left bottom right top : Int}

/-- The integers down to a lower bound, the greatest one first. -/
theorem reverse_interval (lower upper : Int) :
    (interval lower upper).reverse =
      (List.range (upper - lower + 1).toNat).map fun (i : Nat) => upper - i := by
  refine List.ext_getElem (by simp [interval]) fun i hi hi' => ?_
  simp only [List.length_map, List.length_range] at hi'
  simp [interval]
  omega

/-- **The picture is a sheet of the characters of the panels**, from the upper left corner on. -/
theorem render_eq (hsides : r.panels.Sides left bottom right top) :
    r.render = Picture.sheet (top - bottom + 1).toNat (right - left + 1).toNat
      fun row col => r.panelChar ⟨left + col, top - row⟩ := by
  unfold render
  rw [Grid.bounds?_eq_some_iff.2 hsides]
  dsimp only
  rw [reverse_interval, List.map_map]
  refine List.map_congr_left fun row _ => ?_
  show r.renderRow left right (top - row) = _
  rw [renderRow, interval, List.map_map]
  rfl

/-- **Every character shows its panel**, those behind a row and below the last one included. -/
theorem charAt_render (hsides : r.panels.Sides left bottom right top) (row col : Nat) :
    Picture.charAt r.render row col = r.panelChar ⟨left + col, top - row⟩ := by
  rw [render_eq hsides, Picture.charAt_sheet]
  split
  · rfl
  · -- there are no panels outside the picture
    rename_i houtside
    refine (if_neg fun hwhite => houtside ?_).symm
    obtain ⟨-, hright, hbottom, -⟩ := hsides.mem hwhite
    dsimp only at hright hbottom
    omega

theorem mem_whitePoints_iff {rows : List String} {left top : Int} {p : Point} :
    p ∈ whitePoints rows left top ↔
      ∃ row col : Nat, Picture.charAt rows row col = '#' ∧ p = ⟨left + col, top - row⟩ := by
  simp only [whitePoints, List.mem_flatMap, List.mem_filterMap, Prod.exists,
    List.mem_zipIdx_iff_getElem?]
  constructor
  · rintro ⟨text, row, hrow, c, col, hcol, hpoint⟩
    split at hpoint
    · rename_i hwhite
      subst hwhite
      exact ⟨row, col, by simp [Picture.charAt, hrow, hcol], (Option.some.inj hpoint).symm⟩
    · cases hpoint
  · rintro ⟨row, col, hchar, rfl⟩
    obtain ⟨text, hrow, hcol⟩ := Picture.exists_row_of_charAt (hchar.trans_ne (by decide))
    rw [hchar] at hcol
    exact ⟨text, row, hrow, '#', col, hcol, if_pos rfl⟩

/-- **The law of the picture of the hull.**  If a panel has been painted, the picture has a row for
    each line of panels from the greatest `y` down to the least; the character in a row and a column
    is `#` if the panel there is white, and a blank if it is not, be it that the row ends before.
    No row ends in a blank, and a row without white panels is there and empty.  So the white panels
    can be read off the picture, if it is known where it begins. -/
theorem picture_law (r : HullRobot) {left bottom top : Int}
    (hleft : (r.panels.points.map Point.x).min? = some left)
    (hbottom : (r.panels.points.map Point.y).min? = some bottom)
    (htop : (r.panels.points.map Point.y).max? = some top) :
    (r.render.length : Int) = top - bottom + 1 ∧
    (∀ row col : Nat, Picture.charAt r.render row col =
      if r.panels.get? ⟨left + col, top - row⟩ = some white then '#' else ' ') ∧
    (∀ text ∈ r.render, text.toList.getLast? ≠ some ' ') ∧
    (∀ row < r.render.length, (∀ x, r.panels.get? ⟨x, top - row⟩ ≠ some white) →
      r.render[row]? = some "") ∧
    ∀ p, p ∈ whitePoints r.render left top ↔ r.panels.get? p = some white := by
  -- there is a rightmost panel too, as there is a leftmost one
  obtain ⟨right, hright⟩ : ∃ right, (r.panels.points.map Point.x).max? = some right := by
    rw [← Option.isSome_iff_exists, List.isSome_max?_iff, ← List.isSome_min?_iff, hleft]
    rfl
  have hsides : r.panels.Sides left bottom right top := ⟨hleft, hbottom, hright, htop⟩
  have hheight : bottom ≤ top :=
    (List.min?_eq_some_iff.1 hbottom).2 _ (List.max?_eq_some_iff.1 htop).1
  refine ⟨?_, charAt_render hsides, ?_, ?_, ?_⟩
  · rw [render_eq hsides, Picture.length_sheet]
    omega
  · rw [render_eq hsides]
    exact fun text => Picture.getLast?_of_mem_sheet
  · intro row hrow hnone
    rw [render_eq hsides] at hrow ⊢
    rw [Picture.length_sheet] at hrow
    have hblank (col : Nat) : r.panelChar ⟨left + col, top - row⟩ = ' ' := if_neg (hnone _)
    rw [Picture.getElem?_sheet hrow, Picture.line_eq_empty fun col _ => hblank col]
  · intro p
    rw [mem_whitePoints_iff]
    constructor
    · rintro ⟨row, col, hchar, rfl⟩
      rw [charAt_render hsides] at hchar
      by_contra hblack
      rw [panelChar, if_neg hblack] at hchar
      exact absurd hchar (by decide)
    · intro hwhite
      -- the panel lies in the picture, so it has a row and a column
      obtain ⟨hleft', -, -, htop'⟩ := hsides.mem hwhite
      have hp : p = ⟨left + (p.x - left).toNat, top - (top - p.y).toNat⟩ := by
        obtain ⟨x, y⟩ := p
        simp only at hleft' htop' ⊢
        rw [Point.mk.injEq]
        omega
      refine ⟨(top - p.y).toNat, (p.x - left).toNat, ?_, hp⟩
      rw [charAt_render hsides, ← hp]
      exact if_pos hwhite

/-- A robot that has gone round to the right and painted the first and the third panel white shows
    them in two rows, the upper one with the first of them. -/
theorem picture_law_of_square :
    (walked black [⟨1, 1⟩, ⟨0, 1⟩, ⟨1, 1⟩]).render.length = 2 ∧
      whitePoints (walked black [⟨1, 1⟩, ⟨0, 1⟩, ⟨1, 1⟩]).render 0 0 = [⟨0, 0⟩, ⟨1, -1⟩] ∧
      (walked black [⟨1, 1⟩, ⟨0, 1⟩, ⟨1, 1⟩]).panels.get? ⟨1, -1⟩ = some white := by
  obtain ⟨hrows, -, -, -, hread⟩ :=
    picture_law (walked black [⟨1, 1⟩, ⟨0, 1⟩, ⟨1, 1⟩])
      (show _ = some 0 by decide +kernel) (show _ = some (-1) by decide +kernel)
      (show _ = some 0 by decide +kernel)
  have hwhite : whitePoints (walked black [⟨1, 1⟩, ⟨0, 1⟩, ⟨1, 1⟩]).render 0 0 =
      [⟨0, 0⟩, ⟨1, -1⟩] := by decide +kernel
  refine ⟨by omega, hwhite, (hread ⟨1, -1⟩).1 ?_⟩
  rw [hwhite]
  decide

end Intcode.Control.HullRobot
