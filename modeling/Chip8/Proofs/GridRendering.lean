import Chip8.Proofs.GridLayout
import Chip8.Proofs.Scaling

/-! Rendering a grid. It succeeds just if the scale and the bytes of the grid can be counted, and gives the
grid of the tiles as each is drawn alone. -/

namespace Chip8.Grid

variable {n height width w h : Nat} {tiles : Array (Bitmap w h)} {scheme : String} {p : Palette}

theorem le_extent (nonempty : 0 < n) (length : Nat) : length ≤ extent n length :=
  Nat.le_trans (Nat.le_add_left _ _) (offset_le_extent nonempty)

theorem tile_fits (nonempty : 0 < n)
    (fit : max 1 (extent (rows n) height) * max 1 (extent (columns n) width) * 4 ≤ Image.byteLimit) :
    max 1 height * max 1 width * 4 ≤ Image.byteLimit := by
  have tall : max 1 height ≤ max 1 (extent (rows n) height) := by
    have := le_extent (rows_pos nonempty) height
    omega
  have wide : max 1 width ≤ max 1 (extent (columns n) width) := by
    have := le_extent (columns_pos nonempty) width
    omega
  exact Nat.le_trans (Nat.mul_le_mul_right 4 (Nat.mul_le_mul tall wide)) fit

theorem checkSize_eq_ok_iff : checkSize height width = .ok () ↔
    max 1 height * max 1 width * 4 ≤ Image.byteLimit := by
  constructor
  · intro sized
    rw [checkSize] at sized
    split at sized
    · exact Image.checkBytes_eq_ok_iff.mp sized
    · cases sized
  · intro fit
    have limit : max 1 height * max 1 width * 4 ≤ 9223372036854775807 := fit
    have tall : max 1 height ≤ max 1 height * max 1 width := Nat.le_mul_of_pos_right _ (by omega)
    have wide : max 1 width ≤ max 1 height * max 1 width := Nat.le_mul_of_pos_left _ (by omega)
    rw [checkSize, if_pos (by omega), Image.checkBytes_eq_ok fit]

theorem isEmpty_of_size_pos (nonempty : 0 < tiles.size) : tiles.isEmpty = false := by
  simpa using Array.ne_empty_of_size_pos nonempty

theorem fits_of_render_eq_ok {scale : Int} {g : Image Rgba} (nonempty : 0 < tiles.size)
    (drawn : render tiles scale scheme = .ok g) :
    scale ≤ 9223372036854775807 ∧ max 1 g.height * max 1 g.width * 4 ≤ Image.byteLimit := by
  obtain ⟨p, -, drawn⟩ := exists_of_bind_eq_ok drawn
  simp only [isEmpty_of_size_pos nonempty, Bool.false_eq_true, if_false] at drawn
  obtain ⟨k, scaled, drawn⟩ := exists_of_bind_eq_ok drawn
  obtain ⟨s, -, drawn⟩ := exists_of_bind_eq_ok drawn
  obtain ⟨-, -, drawn⟩ := exists_of_bind_eq_ok drawn
  obtain ⟨⟨⟩, sized, drawn⟩ := exists_of_bind_eq_ok drawn
  cases drawn
  refine ⟨Bitmap.le_of_checkScale_eq_ok scaled, checkSize_eq_ok_iff.mp ?_⟩
  rw [image, Array.size_map]
  exact sized

section fits

variable {k : Nat} (known : Palette.ofScheme scheme = .ok p) (nonempty : 0 < tiles.size) (pos : 0 < k)
  (scale : k ≤ 9223372036854775807)
  (fit : max 1 (extent (rows tiles.size) (h * k)) * max 1 (extent (columns tiles.size) (w * k)) * 4 ≤
    Image.byteLimit)
include known nonempty pos scale fit

theorem render_eq_ok :
    render tiles k scheme = .ok (image (h * k) (w * k) (tiles.map fun b => b.paint k p)) := by
  have tile : max 1 (h * k) * max 1 (w * k) * 4 ≤ Image.byteLimit := tile_fits nonempty fit
  have sides : Sides.count w h k = .ok ⟨h * k, w * k, Nat.le_refl _, Nat.le_refl _⟩ :=
    Sides.count_eq_ok pos (Nat.le_trans (Nat.mul_le_mul_left _ (by decide)) tile)
  simp only [render, known, isEmpty_of_size_pos nonempty, Bitmap.checkScale_ofNat pos scale, sides,
    Image.checkBytes_eq_ok tile, checkSize_eq_ok_iff.mpr fit, bind, Except.bind]
  rfl

theorem render_isGrid :
    ∃ (drawn : Array (Image Rgb)) (g : Image Rgba),
      tiles.map (fun b => b.render k p.on.components p.off.components) = drawn.map .ok ∧
      render tiles k scheme = .ok g ∧ IsGrid g (h * k) (w * k) drawn ∧ g = pasted (h * k) (w * k) drawn := by
  have sides : ∀ t ∈ tiles.map fun b => b.paint k p, t.height = h * k ∧ t.width = w * k := by
    intro t member
    obtain ⟨b, -, rfl⟩ := Array.mem_map.mp member
    exact ⟨rfl, rfl⟩
  have tile : max 1 (h * k) * max 1 (w * k) * 4 ≤ Image.byteLimit := tile_fits nonempty fit
  have alone (b : Bitmap w h) : b.render k p.on.components p.off.components = .ok (b.paint k p) :=
    b.render_eq_ok p pos scale (Nat.le_trans (Nat.mul_le_mul_left _ (by decide)) tile)
  refine ⟨tiles.map fun b : Bitmap w h => b.paint k p, _, ?_, render_eq_ok known nonempty pos scale fit,
    image_isGrid sides, (pasted_eq_image sides).symm⟩
  rw [Array.map_map]
  exact congrArg (fun f => tiles.map f) (funext alone)

end fits

/-- The tiles of a nonempty grid fill all rows but the last, of which there are no more than columns. They have
rectangles that lie inside the grid and keep apart. A scale gives the image with each tile, drawn as it is
alone, in its rectangle and transparency around, just if the scale and the bytes of the image can be counted.
That image is what comes of pasting the tiles one after another. -/
theorem render_lays_out_iff (tiles : Array (Bitmap w h)) (scale : Int) (scheme : String) (p : Palette)
    (nonempty : 0 < tiles.size) (positive : 1 ≤ scale) (known : Palette.ofScheme scheme = .ok p) :
    let n := tiles.size
    let side := scale.toNat
    let height := rows n * (h * side) + 5 * (rows n - 1)
    let width := columns n * (w * side) + 5 * (columns n - 1)
    ((columns n - 1) * (columns n - 1) < n ∧ n ≤ columns n * columns n ∧
      (rows n - 1) * columns n < n ∧ n ≤ rows n * columns n ∧ rows n ≤ columns n) ∧
    (∀ i < n, i / columns n * (h * side + 5) + h * side ≤ height ∧
      i % columns n * (w * side + 5) + w * side ≤ width) ∧
    (∀ i j r c, Covers n (h * side) (w * side) i r c → Covers n (h * side) (w * side) j r c → i = j) ∧
    ((∃ (drawn : Array (Image Rgb)) (g : Image Rgba),
        tiles.map (fun b => b.render scale p.on.components p.off.components) = drawn.map .ok ∧
        render tiles scale scheme = .ok g ∧ IsGrid g (h * side) (w * side) drawn ∧
        g = pasted (h * side) (w * side) drawn) ↔
      scale ≤ 9223372036854775807 ∧ max 1 height * max 1 width * 4 ≤ 9223372036854775807) := by
  obtain ⟨k, rfl⟩ := Int.eq_ofNat_of_zero_le (Int.le_trans Int.one_nonneg positive)
  rw [Int.toNat_natCast]
  intro n side height width
  have tall : extent (rows n) (h * k) = height := extent_eq _ _
  have wide : extent (columns n) (w * k) = width := extent_eq _ _
  refine ⟨⟨pred_columns_mul_self_lt nonempty, le_columns_mul_self n, pred_rows_mul_columns_lt nonempty,
    le_rows_mul_columns nonempty, rows_le_columns nonempty⟩, fun i inside => ⟨?top, ?left⟩,
    fun i j r c covers covers' => covers.unique covers', ?described, ?counted⟩
  case top => exact tall ▸ top_le_extent (lt_places inside)
  case left => exact wide ▸ left_le_extent (lt_places inside)
  case described =>
    rintro ⟨drawn, g, alone, ok, grid, -⟩
    have size : drawn.size = n := by
      simpa using (congrArg Array.size alone).symm
    obtain ⟨counted, bytes⟩ := fits_of_render_eq_ok nonempty ok
    rw [grid.height_eq, grid.width_eq, size] at bytes
    exact ⟨counted, bytes⟩
  case counted =>
    rintro ⟨counted, bytes⟩
    rw [← tall, ← wide] at bytes
    exact render_isGrid known nonempty (by omega) (by omega) bytes

/-- Five tiles in two rows of three, so that the last place stays empty. -/
theorem five_tiles_leave_a_place :
    let lit : Bitmap 2 1 := .ofFn fun _ _ => true
    let tiles := #[lit, .blank, lit, .blank, lit]
    let p : Palette := ⟨⟨0, 255, 0⟩, ⟨0, 0, 0⟩⟩
    (0 < tiles.size ∧ (1 : Int) ≤ 2 ∧ Palette.ofScheme "classic" = .ok p) ∧
      (columns 5 = 3 ∧ rows 5 = 2) ∧
      ∃ (drawn : Array (Image Rgb)) (g : Image Rgba),
        tiles.map (fun b => b.render 2 p.on.components p.off.components) = drawn.map .ok ∧
        render tiles 2 "classic" = .ok g ∧ IsGrid g 2 4 drawn ∧ g = pasted 2 4 drawn ∧
        g.height = 9 ∧ g.width = 22 ∧ g.pixel? 8 21 = some .clear := by
  intro lit tiles p
  have known : Palette.ofScheme "classic" = .ok p := by decide
  obtain ⟨-, -, -, described⟩ := render_lays_out_iff tiles 2 "classic" p (by decide) (by decide) known
  obtain ⟨drawn, g, alone, ok, grid, same⟩ := described.mpr ⟨by decide, by decide⟩
  have size : drawn.size = 5 := by
    simpa [tiles] using (congrArg Array.size alone).symm
  have tall : g.height = 9 := by
    rw [grid.height_eq, size]
    decide
  have wide : g.width = 22 := by
    rw [grid.width_eq, size]
    decide
  have bare : ∀ i < drawn.size, ¬Covers drawn.size 2 4 i 8 21 := by
    rw [size]
    decide
  exact ⟨⟨by decide, by decide, known⟩, by decide, drawn, g, alone, ok, grid, same, tall, wide,
    grid.around 8 (by omega) 21 (by omega) bare⟩

/-- A tile without rows can be too wide for its bytes to be counted, though the grid would have none. -/
theorem wide_tile_is_refused :
    let tiles := #[(Bitmap.blank : Bitmap 1 0)]
    (0 < tiles.size ∧ (1 : Int) ≤ 2305843009213693952 ∧ ∃ p, Palette.ofScheme "retro" = .ok p) ∧
      render tiles 2305843009213693952 "retro" = .error .imageTooLarge ∧
      ¬∃ g, render tiles 2305843009213693952 "retro" = .ok g := by
  intro tiles
  have refused : render tiles 2305843009213693952 "retro" = .error .imageTooLarge := by rfl
  exact ⟨⟨by decide, by decide, _, rfl⟩, refused, fun ⟨g, ok⟩ => nomatch refused.symm.trans ok⟩

end Chip8.Grid
