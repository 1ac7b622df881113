import Chip8.Render.Image

/-! Grids of displays. Bitmaps of one size laid out row by row in a grid that is as close to a square as possible.
Between the tiles, and in place of missing tiles at the end, the image is transparent. -/

namespace Chip8.Grid

/-- The least number whose square is at least `n`. -/
def ceilSqrt : Nat → Nat
  | 0 => 0
  | n + 1 =>
    let r := ceilSqrt n
    if n + 1 ≤ r * r then r else r + 1

theorem le_ceilSqrt_mul_self (n : Nat) : n ≤ ceilSqrt n * ceilSqrt n := by
  induction n with
  | zero => exact Nat.zero_le _
  | succ n ih =>
    simp only [ceilSqrt]
    split
    · assumption
    · rw [Nat.add_mul, Nat.mul_add]
      omega

theorem mul_self_lt_of_lt_ceilSqrt {n r : Nat} (h : r < ceilSqrt n) : r * r < n := by
  induction n with
  | zero => simp [ceilSqrt] at h
  | succ n ih =>
    simp only [ceilSqrt] at h
    split at h
    · exact Nat.lt_succ_of_lt (ih h)
    · have : r * r ≤ ceilSqrt n * ceilSqrt n := Nat.mul_self_le_mul_self (by omega)
      omega

def columns (count : Nat) : Nat :=
  ceilSqrt count

def rows (count : Nat) : Nat :=
  (count + columns count - 1) / columns count

def gap : Nat := 5

def extent (n side : Nat) : Nat :=
  n * side + (n - 1) * gap

def image (height width : Nat) (tiles : Array (Image Rgb)) : Image Rgba where
  height := extent (rows tiles.size) height
  width := extent (columns tiles.size) width
  pixel r c :=
    let tile := tiles[r.val / (height + gap) * columns tiles.size + c.val / (width + gap)]?
    match tile.bind fun t => t.pixel? (r.val % (height + gap)) (c.val % (width + gap)) with
    | some p => p.solid
    | none => .clear

def checkSize (height width : Nat) : Except Error Unit :=
  if height ≤ 9223372036854775807 ∧ width ≤ 9223372036854775807 then Image.checkBytes height width 4
  else .error .gridTooLarge

def defaultScale : Int := 4

variable {w h : Nat}

/-- The grid of some bitmaps in a named scheme. The scheme is looked at first, then whether there is a
bitmap at all, then the scale, then whether a tile fits, with transparency as well, and then the grid. -/
def render (tiles : Array (Bitmap w h)) (scale : Int) (scheme : String) :
    Except Error (Image Rgba) := do
  let p ← Palette.ofScheme scheme
  if tiles.isEmpty then throw .emptyGrid
  let k ← Bitmap.checkScale scale
  let s ← Sides.count w h k
  Image.checkBytes s.rows s.columns 4
  checkSize (extent (rows tiles.size) s.rows) (extent (columns tiles.size) s.columns)
  return image s.rows s.columns (tiles.map fun b => b.paintCounted k p s)

end Chip8.Grid
