import Intcode.Proofs.Control.Pictures
import Intcode.Proofs.Control.Screen

namespace Intcode.Control.Arcade

/-!
# The picture of the arcade screen

The picture begins at column zero and row zero, wherever the tiles are.  It goes down to the last
row with a tile; what has been drawn to the left of it or above it is not shown.  There is none if
there are rows, but their width is no width: the greatest column decides about it, also one far to
the left.  Nothing else can fail: every tile that is drawn lies on the rows that are there.

* `legend`              — the characters of the tiles
* `canvas`              — rows with a given character in each place
* `plot_canvas`, `draw_canvas`, `foldlM_draw` — what one tile, and what all of them, do to these
* `render_eq`           — the picture as a sheet of characters, if there is one
* `render_eq_error_iff` — when there is none
* `charAt_of_render`    — what the picture shows
* `render_law`          — the picture of any tiles
-/

/-- The characters of the tiles; all others are shown by a question mark. -/
def legend : List (Int × Char) := [(0, ' '), (1, '%'), (2, '#'), (3, '-'), (4, 'o')]

/-- The width is that of a screen. -/
def Fits (width : Int) : Prop := minWidth ≤ width ∧ width ≤ maxWidth

variable {a : Arcade} {rows : List String} {left top right bottom : Int}

theorem tileChar_eq (tile : Int) : tileChar tile = (legend.lookup tile).getD '?' := by
  unfold tileChar
  split
  · rfl
  · rfl
  · rfl
  · rfl
  · rfl
  · rename_i h0 h1 h2 h3 h4
    have hnone : legend.lookup tile = none :=
      List.lookup_eq_none_iff.2 (by simpa [legend] using ⟨h0, h1, h2, h3, h4⟩)
    rw [hnone]
    rfl

/-- Where nothing is drawn, a blank is shown. -/
theorem tileChar_getD (drawn : Option Int) :
    tileChar (drawn.getD 0) = (drawn.map fun tile => (legend.lookup tile).getD '?').getD ' ' := by
  cases drawn with
  | none => rfl
  | some tile => exact tileChar_eq tile

/-! ### Drawing on blank rows -/

/-- The rows of some height and width with the character `f row col` in each place. -/
def canvas (height width : Nat) (f : Nat → Nat → Char) : Canvas :=
  Array.ofFn fun row : Fin height => Array.ofFn fun col : Fin width => f row col

variable {height width : Nat} {f g : Nat → Nat → Char}

theorem canvas_congr (h : ∀ row < height, ∀ col < width, f row col = g row col) :
    canvas height width f = canvas height width g := by
  unfold canvas
  congr 1
  funext row
  congr 1
  funext col
  exact h row row.2 col col.2

theorem blankCanvas_eq (width height : Int) :
    blankCanvas width height = canvas height.toNat width.toNat fun _ _ => ' ' := by
  apply Array.ext
  · simp [blankCanvas, canvas]
  · intro row _ _
    apply Array.ext <;> simp [blankCanvas, canvas]

/-- The text of rows is the sheet of their characters. -/
theorem text_canvas :
    ((canvas height width f).toList.map fun row => String.ofList (dropTrailingSpaces row.toList)) =
      Picture.sheet height width f := by
  apply List.ext_getElem
  · simp [canvas]
  · intro row hrow _
    have hline : List.ofFn (fun col : Fin width => f row col) = (List.range width).map (f row) := by
      apply List.ext_getElem <;> simp
    simp [canvas, Picture.sheet, Picture.line, hline]

/-- An index from zero on means the member it counts. -/
theorem memberAt?_of_lt {size k : Nat} (hk : k < size) : memberAt? size k = some k := by
  have hnonneg : ¬(k : Int) < 0 := by omega
  have hmember : 0 ≤ (k : Int) ∧ (k : Int) < size := by omega
  unfold memberAt?
  rw [if_neg hnonneg, if_pos hmember, Int.toNat_natCast]

/-- In a row one character is replaced. -/
theorem setIfInBounds_ofFn (h : Nat → Char) (x : Nat) (c : Char) :
    (Array.ofFn fun col : Fin width => h col).setIfInBounds x c =
      Array.ofFn fun col : Fin width => if (col : Nat) = x then c else h col := by
  apply Array.ext
  · simp
  · intro col hcol _
    rw [Array.getElem_setIfInBounds (by simpa using hcol)]
    simp [eq_comm]

/-- **A character is replaced in its place**, if this is on the rows. -/
theorem plot_canvas {x y : Nat} (hx : x < width) (hy : y < height) (c : Char) :
    plot (canvas height width f) ⟨x, y⟩ c =
      .ok (canvas height width fun row col => if row = y ∧ col = x then c else f row col) := by
  have hrows : (canvas height width f).size = height := by simp [canvas]
  have hrow : (canvas height width f).getD y #[] = Array.ofFn fun col : Fin width => f y col := by
    simp [canvas, hy]
  unfold plot
  simp only [hrows, memberAt?_of_lt hy, hrow, Array.size_ofFn, memberAt?_of_lt hx]
  congr 1
  apply Array.ext
  · simp [canvas]
  · intro row hrow' _
    have hrow'' : row < height := by simpa [canvas] using hrow'
    -- only the row of the place is touched
    by_cases hyrow : y = row
    · subst hyrow
      simp [canvas, Array.getElem_modify, setIfInBounds_ofFn (f y)]
    · have hne : row ≠ y := fun h => hyrow h.symm
      simp [canvas, Array.getElem_modify, hyrow, hne]

/-- **A tile is drawn in its place, and nothing if it lies at a negative coordinate.** -/
theorem draw_canvas {tile : Point × Int}
    (hplace : ∀ x y : Nat, tile.1 = ⟨x, y⟩ → y < height ∧ x < width) :
    draw (canvas height width f) tile =
      .ok (canvas height width fun row col =>
        if tile.1 = ⟨col, row⟩ then tileChar tile.2 else f row col) := by
  obtain ⟨⟨px, py⟩, kind⟩ := tile
  unfold draw
  split
  · rename_i hshown
    -- the guard keeps the indices from counting from the end
    obtain ⟨x, rfl⟩ := Int.eq_ofNat_of_zero_le hshown.1
    obtain ⟨y, rfl⟩ := Int.eq_ofNat_of_zero_le hshown.2
    obtain ⟨hy, hx⟩ := hplace x y rfl
    rw [plot_canvas hx hy]
    congr 1
    refine canvas_congr fun row _ col _ => if_congr ?_ rfl rfl
    rw [Point.mk.injEq, Int.ofNat_inj, Int.ofNat_inj]
    exact ⟨fun h => ⟨h.2.symm, h.1.symm⟩, fun h => ⟨h.2.symm, h.1.symm⟩⟩
  · rename_i hhidden
    -- no place on the rows has a negative coordinate
    congr 1
    refine canvas_congr fun row _ col _ => ?_
    rw [if_neg]
    intro hpoint
    injection hpoint with hx hy
    exact hhidden ⟨by dsimp only; omega, by dsimp only; omega⟩

/-- **Tiles are drawn one after another without failure**, and the last one drawn in a place is
    shown there. -/
theorem foldlM_draw (tiles : List (Point × Int))
    (hplaces : ∀ tile ∈ tiles, ∀ x y : Nat, tile.1 = ⟨x, y⟩ → y < height ∧ x < width) :
    tiles.foldlM draw (canvas height width f) =
      .ok (canvas height width fun row col =>
        ((Grid.lastAt tiles ⟨col, row⟩).map tileChar).getD (f row col)) := by
  induction tiles using List.reverseRecOn with
  | nil => rfl
  | append_singleton tiles tile ih =>
    -- the last tile is drawn upon the picture of those before it
    rw [List.foldlM_append, ih fun t ht => hplaces t (List.mem_append_left _ ht)]
    show List.foldlM draw _ [tile] = _
    rw [List.foldlM_cons, draw_canvas (hplaces tile (by simp))]
    show Except.ok _ = _
    congr 1
    refine canvas_congr fun row _ col _ => ?_
    rw [Grid.lastAt_concat]
    split <;> rfl

/-! ### The picture as a sheet -/

/-- A screen without tiles has no rows. -/
theorem render_of_points_eq_nil (hnil : a.tiles.points = []) : a.render = .ok [] := by
  unfold render
  rw [Grid.bounds?_eq_none_iff.2 hnil]

/-- **The picture is a sheet of the characters of the tiles**, if there are no rows or they are of a
    width. -/
theorem render_eq (hsides : a.tiles.Sides left top right bottom)
    (hfits : 0 < bottom + 1 → Fits (right + 1)) :
    a.render = .ok (Picture.sheet (bottom + 1).toNat (right + 1).toNat
      fun (y x : Nat) => tileChar ((a.tiles.get? ⟨x, y⟩).getD 0)) := by
  have hplaces : ∀ tile ∈ a.tiles.entries, ∀ x y : Nat, tile.1 = ⟨x, y⟩ →
      y < (bottom + 1).toNat ∧ x < (right + 1).toNat := by
    rintro ⟨p, tile⟩ hmem x y rfl
    -- the sides bound every tile, so there is a row and a column for it
    obtain ⟨-, hright, -, hbottom⟩ := hsides.mem (Grid.mem_entries_iff.1 hmem)
    dsimp only at hright hbottom
    omega
  have hwide : ¬(0 < bottom + 1 ∧ (right + 1 < minWidth ∨ maxWidth < right + 1)) := by
    rintro ⟨hrow, hunfit⟩
    obtain ⟨hmin, hmax⟩ := hfits hrow
    omega
  unfold render
  rw [Grid.bounds?_eq_some_iff.2 hsides]
  dsimp only
  rw [if_neg hwide, blankCanvas_eq, foldlM_draw _ hplaces]
  refine congrArg Except.ok (text_canvas.trans ?_)
  congr 1
  funext y x
  rw [Grid.lastAt_entries]
  cases a.tiles.get? ⟨x, y⟩ <;> rfl

/-- There is no picture if there are rows, but not of a width. -/
theorem render_eq_error (hsides : a.tiles.Sides left top right bottom) (hrow : 0 < bottom + 1)
    (hunfit : ¬ Fits (right + 1)) : a.render = .error .unfitIndex := by
  have hunfit' : right + 1 < minWidth ∨ maxWidth < right + 1 := by
    unfold Fits at hunfit
    omega
  unfold render
  rw [Grid.bounds?_eq_some_iff.2 hsides]
  dsimp only
  rw [if_pos ⟨hrow, hunfit'⟩]
  rfl

/-- **The picture fails in one way only**, and for one reason. -/
theorem render_eq_error_iff {e : Error} :
    a.render = .error e ↔ e = .unfitIndex ∧
      ∃ right bottom, (a.tiles.points.map Point.x).max? = some right ∧
        (a.tiles.points.map Point.y).max? = some bottom ∧ 0 ≤ bottom ∧ ¬ Fits (right + 1) := by
  by_cases hnil : a.tiles.points = []
  · rw [render_of_points_eq_nil hnil, hnil]
    simp
  · obtain ⟨left, top, right, bottom, hsides⟩ := Grid.exists_sides hnil
    by_cases hfits : 0 < bottom + 1 → Fits (right + 1)
    · rw [render_eq hsides hfits, hsides.right, hsides.top]
      refine iff_of_false nofun ?_
      rintro ⟨-, right', bottom', hright, hbottom, hrow, hunfit⟩
      obtain rfl := Option.some.inj hright
      obtain rfl := Option.some.inj hbottom
      exact hunfit (hfits (by omega))
    · obtain ⟨hrow, hunfit⟩ := Classical.not_imp.1 hfits
      rw [render_eq_error hsides hrow hunfit, hsides.right, hsides.top]
      constructor
      · rintro ⟨⟩
        exact ⟨rfl, right, bottom, rfl, rfl, by omega, hunfit⟩
      · rintro ⟨rfl, -⟩
        rfl

/-- **A picture is such a sheet**, as high as the last row with a tile, and it has room for all
    tiles from column zero and row zero on. -/
theorem exists_sheet_of_render (hrender : a.render = .ok rows) :
    ∃ height width, rows = Picture.sheet height width
        (fun (y x : Nat) => tileChar ((a.tiles.get? ⟨x, y⟩).getD 0)) ∧
      height = ((a.tiles.points.map Point.y).max?.map fun bottom => (bottom + 1).toNat).getD 0 ∧
      ∀ x y : Nat, ∀ tile, a.tiles.get? ⟨x, y⟩ = some tile → y < height ∧ x < width := by
  by_cases hnil : a.tiles.points = []
  · rw [render_of_points_eq_nil hnil] at hrender
    obtain rfl := Except.ok.inj hrender
    refine ⟨0, 0, rfl, by rw [hnil]; rfl, fun x y tile hget => ?_⟩
    have hmem := Grid.mem_points_iff.2 ⟨tile, hget⟩
    rw [hnil] at hmem
    cases hmem
  · obtain ⟨left, top, right, bottom, hsides⟩ := Grid.exists_sides hnil
    by_cases hfits : 0 < bottom + 1 → Fits (right + 1)
    · rw [render_eq hsides hfits] at hrender
      refine ⟨_, _, (Except.ok.inj hrender).symm, by rw [hsides.top]; rfl, fun x y tile hget => ?_⟩
      obtain ⟨-, hright, -, hbottom⟩ := hsides.mem hget
      dsimp only at hright hbottom
      omega
    · obtain ⟨hrow, hunfit⟩ := Classical.not_imp.1 hfits
      rw [render_eq_error hsides hrow hunfit] at hrender
      cases hrender

/-- **Every character shows the tile in its place**, those behind a row and below the last one
    included. -/
theorem charAt_of_render (hrender : a.render = .ok rows) (x y : Nat) :
    Picture.charAt rows y x = tileChar ((a.tiles.get? ⟨x, y⟩).getD 0) := by
  obtain ⟨height, width, rfl, -, hroom⟩ := exists_sheet_of_render hrender
  rw [Picture.charAt_sheet]
  split
  · rfl
  · -- there are no tiles to the right of the picture or below it
    rename_i houtside
    cases hget : a.tiles.get? ⟨x, y⟩ with
    | none => rfl
    | some tile => exact absurd (hroom x y tile hget) houtside

/-- **The law of the picture of the screen.**  If the width that the greatest column gives is the
    width of a screen, there is a picture.  It goes down to the last row with a tile, and has no
    rows if there is none at row zero or below; the character in a row and a column is that of the
    tile drawn there, or a blank if there is none, be it that the row ends before; tiles drawn to
    the left or above change none of the characters; and no row ends in a blank. -/
theorem render_law (a : Arcade)
    (hwidth : ∀ right, (a.tiles.points.map Point.x).max? = some right →
      minWidth ≤ right + 1 ∧ right + 1 ≤ maxWidth) :
    ∃ rows, a.render = .ok rows ∧
      rows.length =
        ((a.tiles.points.map Point.y).max?.map fun bottom => (bottom + 1).toNat).getD 0 ∧
      (∀ x y : Nat, Picture.charAt rows y x =
        ((a.tiles.get? ⟨x, y⟩).map fun tile => (legend.lookup tile).getD '?').getD ' ') ∧
      (∀ p tile rows', p.x < 0 ∨ p.y < 0 →
        ({ a with tiles := a.tiles.put p tile } : Arcade).render = .ok rows' →
        ∀ x y, Picture.charAt rows' y x = Picture.charAt rows y x) ∧
      ∀ text ∈ rows, text.toList.getLast? ≠ some ' ' := by
  obtain ⟨rows, hrender⟩ : ∃ rows, a.render = .ok rows := by
    cases hrender : a.render with
    | ok rows => exact ⟨rows, rfl⟩
    | error e =>
      obtain ⟨-, right, -, hright, -, -, hunfit⟩ := render_eq_error_iff.1 hrender
      exact absurd (hwidth right hright) hunfit
  obtain ⟨height, width, hsheet, hheight, -⟩ := exists_sheet_of_render hrender
  refine ⟨rows, hrender, ?_, fun x y => ?_, ?_, ?_⟩
  · rw [hsheet, Picture.length_sheet, hheight]
  · rw [charAt_of_render hrender, tileChar_getD]
  · intro p tile rows' houtside hrender' x y
    have hne : p ≠ ⟨x, y⟩ := by
      rintro rfl
      dsimp only at houtside
      omega
    rw [charAt_of_render hrender, charAt_of_render hrender', Grid.get?_put, if_neg hne]
  · rw [hsheet]
    exact fun text => Picture.getLast?_of_mem_sheet

/-- A ball in the third row and an unknown tile in the first are shown; the wall to the left of them
    is not. -/
theorem render_law_of_ball :
    ∃ rows, (shown false [⟨1, 2, 4⟩, ⟨0, 0, 7⟩, ⟨-3, 1, 1⟩]).render = .ok rows ∧ rows.length = 3 ∧
      Picture.charAt rows 0 0 = '?' ∧ Picture.charAt rows 2 1 = 'o' := by
  obtain ⟨rows, hrender, hlength, hchar, -⟩ :=
    render_law (shown false [⟨1, 2, 4⟩, ⟨0, 0, 7⟩, ⟨-3, 1, 1⟩]) fun right hright => by
      obtain rfl : 1 = right := Option.some.inj (Eq.trans (by decide +kernel) hright)
      decide
  exact ⟨rows, hrender, hlength.trans (by decide +kernel), (hchar 0 0).trans (by decide +kernel),
    (hchar 1 2).trans (by decide +kernel)⟩

/-- A tile so far to the left that the width does not fit is no better than one too far to the
    right: there is a row, but no picture. -/
theorem not_rendered_of_far_left :
    ∃ right, ((shown false [⟨-9223372036854775810, 0, 1⟩]).tiles.points.map Point.x).max? =
        some right ∧ right + 1 ≤ maxWidth ∧
      (shown false [⟨-9223372036854775810, 0, 1⟩]).render = .error .unfitIndex :=
  ⟨-9223372036854775810, by decide +kernel, by decide, by decide +kernel⟩

end Intcode.Control.Arcade
