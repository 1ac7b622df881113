import Chip8.Bitmap
import Chip8.Render.Palette
import Chip8.Switches

/-! An image gives a value to every row and column. A bitmap becomes an image of its pixels, is coloured, and is
scaled up so that each pixel covers a square.

The sides and the bytes of an image are counted in sixty-four bits. `Sides.count` refuses an image that cannot be
counted, and `count_eq_ok` says that one whose size fits keeps both sides. -/

namespace Chip8

structure Image (α : Type) where
  height : Nat
  width : Nat
  pixel : Fin height → Fin width → α

namespace Image

variable {α β : Type}

def map (f : α → β) (i : Image α) : Image β where
  height := i.height
  width := i.width
  pixel r c := f (i.pixel r c)

theorem div_lt_of_lt_mul {n k : Nat} (x : Fin (n * k)) : x.val / k < n :=
  Nat.div_lt_of_lt_mul (Nat.mul_comm n k ▸ x.isLt)

/-- Repeats every pixel `k` times in both directions. -/
def scaleUp (k : Nat) (i : Image α) : Image α where
  height := i.height * k
  width := i.width * k
  pixel r c := i.pixel ⟨r / k, div_lt_of_lt_mul r⟩ ⟨c / k, div_lt_of_lt_mul c⟩

def pixel? (i : Image α) (row column : Nat) : Option α :=
  if inside : row < i.height ∧ column < i.width then
    some (i.pixel ⟨row, inside.1⟩ ⟨column, inside.2⟩)
  else none

theorem pixel?_eq_some {i : Image α} {r c : Nat} (inside : r < i.height ∧ c < i.width) :
    i.pixel? r c = some (i.pixel ⟨r, inside.1⟩ ⟨c, inside.2⟩) :=
  dif_pos inside

theorem pixel?_eq_none {i : Image α} {r c : Nat} (outside : ¬(r < i.height ∧ c < i.width)) :
    i.pixel? r c = none :=
  dif_neg outside

theorem inside_of_pixel? {i : Image α} {r c : Nat} {a : α} (found : i.pixel? r c = some a) :
    r < i.height ∧ c < i.width :=
  Decidable.byContradiction fun outside => nomatch (pixel?_eq_none outside).symm.trans found

@[simp] theorem pixel?_map (f : α → β) (i : Image α) (r c : Nat) :
    (i.map f).pixel? r c = (i.pixel? r c).map f := by
  unfold pixel? map
  split <;> rfl

theorem ext_pixel? {i j : Image α} (height : i.height = j.height) (width : i.width = j.width)
    (pixel : ∀ r < i.height, ∀ c < i.width, i.pixel? r c = j.pixel? r c) : i = j := by
  obtain ⟨h, w, f⟩ := i
  obtain ⟨h', w', f'⟩ := j
  obtain rfl : h = h' := height
  obtain rfl : w = w' := width
  refine congrArg (Image.mk h w) (funext fun r => funext fun c => ?_)
  have same := pixel r r.isLt c c.isLt
  rw [pixel?_eq_some ⟨r.isLt, c.isLt⟩, pixel?_eq_some ⟨r.isLt, c.isLt⟩] at same
  exact Option.some.inj same

def crop (i : Image α) (rows columns : Nat) (rows_le : rows ≤ i.height)
    (columns_le : columns ≤ i.width) : Image α where
  height := rows
  width := columns
  pixel r c := i.pixel (r.castLE rows_le) (c.castLE columns_le)

def byteLimit : Nat := 9223372036854775807

/-- Refuses an image with too many bytes. An empty side counts as one. -/
def checkBytes (rows columns channels : Nat) : Except Error Unit :=
  if max 1 rows * max 1 columns * channels ≤ byteLimit then .ok () else .error .imageTooLarge

theorem checkBytes_eq_ok {rows columns channels : Nat}
    (fit : max 1 rows * max 1 columns * channels ≤ byteLimit) : checkBytes rows columns channels = .ok () :=
  if_pos fit

end Image

/-- The sides of an image of `w` by `h` squares of side `k`, as they are counted. -/
structure Sides (w h k : Nat) where
  rows : Nat
  columns : Nat
  rows_le : rows ≤ h * k
  columns_le : columns ≤ w * k

namespace Sides

def countSide (n : Nat) : Except Error { m : Nat // m ≤ n } :=
  if n % 18446744073709551616 ≤ 9223372036854775807 then
    .ok ⟨n % 18446744073709551616, Nat.mod_le _ _⟩
  else .error .negativeSide

/-- The sides before scaling, with the rows scaled, and with the columns scaled as well, must fit in
three channels. -/
def count (w h k : Nat) : Except Error (Sides w h k) := do
  Image.checkBytes h w 3
  let rows ← countSide (h * k)
  Image.checkBytes rows.1 w 3
  let columns ← countSide (w * k)
  Image.checkBytes rows.1 columns.1 3
  return ⟨rows.1, columns.1, rows.2, columns.2⟩

theorem countSide_eq_ok {n : Nat} (fit : n ≤ 9223372036854775807) :
    countSide n = .ok ⟨n, Nat.le_refl n⟩ := by
  have same : n % 18446744073709551616 = n := Nat.mod_eq_of_lt (by omega)
  simp only [countSide, same]
  exact if_pos fit

theorem count_eq_ok {w h k : Nat} (pos : 0 < k)
    (fit : max 1 (h * k) * max 1 (w * k) * 3 ≤ Image.byteLimit) :
    count w h k = .ok ⟨h * k, w * k, Nat.le_refl _, Nat.le_refl _⟩ := by
  have limit : max 1 (h * k) * max 1 (w * k) * 3 ≤ 9223372036854775807 := fit
  have tall : max 1 (h * k) ≤ max 1 (h * k) * max 1 (w * k) := Nat.le_mul_of_pos_right _ (by omega)
  have wide : max 1 (w * k) ≤ max 1 (h * k) * max 1 (w * k) := Nat.le_mul_of_pos_left _ (by omega)
  have low : h ≤ h * k := Nat.le_mul_of_pos_right h pos
  have narrow : w ≤ w * k := Nat.le_mul_of_pos_right w pos
  have half : max 1 (h * k) * max 1 w * 3 ≤ Image.byteLimit :=
    Nat.le_trans (Nat.mul_le_mul_right 3 (Nat.mul_le_mul_left _ (by omega))) fit
  have before : max 1 h * max 1 w * 3 ≤ Image.byteLimit :=
    Nat.le_trans (Nat.mul_le_mul_right 3 (Nat.mul_le_mul_right _ (by omega))) half
  have rows : countSide (h * k) = .ok ⟨h * k, Nat.le_refl _⟩ := countSide_eq_ok (by omega)
  have columns : countSide (w * k) = .ok ⟨w * k, Nat.le_refl _⟩ := countSide_eq_ok (by omega)
  simp only [count, rows, columns, bind, Except.bind, Image.checkBytes_eq_ok before,
    Image.checkBytes_eq_ok half, Image.checkBytes_eq_ok fit]
  rfl

end Sides

namespace Bitmap

variable {w h : Nat}

def toImage (b : Bitmap w h) : Image Bool where
  height := h
  width := w
  pixel r c := b.get c r

def paint (b : Bitmap w h) (k : Nat) (p : Palette) : Image Rgb :=
  (b.toImage.map p.colour).scaleUp k

/-- A scale must be positive and fit in sixty-four signed bits. -/
def checkScale (scale : Int) : Except Error Nat := do
  if scale < 1 then throw (.scale scale)
  return (← fitInt64 scale).toNat

theorem checkScale_ofNat {k : Nat} (pos : 0 < k) (fit : k ≤ 9223372036854775807) :
    checkScale k = .ok k := by
  have bounds : -9223372036854775808 ≤ (k : Int) ∧ (k : Int) ≤ 9223372036854775807 := by omega
  simp only [checkScale, fitInt64]
  rw [if_neg (by omega), if_pos bounds]
  rfl

def defaultScale : Int := 8

def defaultOn : Int × Int × Int := (0, 255, 0)

def defaultOff : Int × Int × Int := (0, 0, 0)

/-- The bitmap painted, as far as its sides are counted. -/
def paintCounted (b : Bitmap w h) (k : Nat) (p : Palette) (s : Sides w h k) : Image Rgb :=
  (b.paint k p).crop s.rows s.columns s.rows_le s.columns_le

/-- The bitmap at a scale and in colours that may turn out not to be possible. The scale is looked at
first, then the colours, then whether the image can be counted. -/
def render (b : Bitmap w h) (scale : Int) (on off : Int × Int × Int) : Except Error (Image Rgb) := do
  let k ← checkScale scale
  let on ← Rgb.ofInts on.1 on.2.1 on.2.2
  let off ← Rgb.ofInts off.1 off.2.1 off.2.2
  return b.paintCounted k ⟨on, off⟩ (← Sides.count w h k)

theorem render_eq_ok (b : Bitmap w h) (p : Palette) {k : Nat} (pos : 0 < k) (scale : k ≤ 9223372036854775807)
    (fit : max 1 (h * k) * max 1 (w * k) * 3 ≤ Image.byteLimit) :
    b.render k p.on.components p.off.components = .ok (b.paint k p) := by
  simp only [render, checkScale_ofNat pos scale, Rgb.ofInts_components, Sides.count_eq_ok pos fit, bind,
    Except.bind]
  rfl

/-- The pixels row by row, a byte each: one where a pixel is on. -/
def toBytes (b : Bitmap w h) : List UInt8 :=
  (List.finRange h).flatMap fun y => (List.finRange w).map fun x => (b.get x y).toUInt8

end Bitmap

def Switches.toBytes (s : Switches) : Except Error (List UInt8) := do
  return (← s.toDisplay).toBytes

end Chip8
