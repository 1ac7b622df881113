import Chip8.Render.Image
import Mathlib.Data.Fin.Basic
import Mathlib.Data.List.FinRange
import Mathlib.Data.List.OfFn

/-! Bitmaps scaled up. A pixel of the image is found by the quotients of its row and column, so that every pixel of
the bitmap covers a square, and every `k`-th row and column is the bitmap again. Its byte frame is the bitmap row by
row. -/

namespace Chip8

theorem exists_of_bind_eq_ok {α β : Type} {x : Except Error α} {f : α → Except Error β} {b : β}
    (h : x >>= f = .ok b) : ∃ a, x = .ok a ∧ f a = .ok b := by
  cases x with
  | ok a => exact ⟨a, rfl, h⟩
  | error e => cases h

namespace Image

variable {α β : Type} {i : Image α} {k r c : Nat}

theorem pixel?_scaleUp (pos : 0 < k) : (i.scaleUp k).pixel? r c = i.pixel? (r / k) (c / k) := by
  by_cases inside : r / k < i.height ∧ c / k < i.width
  · have within : r < i.height * k ∧ c < i.width * k :=
      ⟨(Nat.div_lt_iff_lt_mul pos).mp inside.1, (Nat.div_lt_iff_lt_mul pos).mp inside.2⟩
    rw [pixel?_eq_some inside]
    exact pixel?_eq_some (i := i.scaleUp k) within
  · rw [pixel?_eq_none inside]
    refine pixel?_eq_none fun within => inside ?_
    exact ⟨(Nat.div_lt_iff_lt_mul pos).mpr within.1, (Nat.div_lt_iff_lt_mul pos).mpr within.2⟩

theorem mul_lt_of_lt_div {n : Nat} (h : r < (n + k - 1) / k) : r * k < n := by
  have pos : 0 < k := Nat.pos_of_ne_zero (by rintro rfl; simp at h)
  have whole : (r + 1) * k ≤ n + k - 1 := (Nat.le_div_iff_mul_le pos).mp h
  rw [Nat.succ_mul] at whole
  omega

/-- The rows and columns whose numbers are multiples of `k`. -/
def everyNth (k : Nat) (i : Image α) : Image α where
  height := (i.height + k - 1) / k
  width := (i.width + k - 1) / k
  pixel r c := i.pixel ⟨r * k, mul_lt_of_lt_div r.isLt⟩ ⟨c * k, mul_lt_of_lt_div c.isLt⟩

theorem everyNth_length (pos : 0 < k) (n : Nat) : (n * k + k - 1) / k = n := by
  have last : n * k + k - 1 = k * n + (k - 1) := by
    rw [Nat.mul_comm]
    omega
  rw [last, Nat.mul_add_div pos, Nat.div_eq_of_lt (by omega), Nat.add_zero]

theorem everyNth_scaleUp (pos : 0 < k) (i : Image α) : (i.scaleUp k).everyNth k = i := by
  refine ext_pixel? (everyNth_length pos i.height) (everyNth_length pos i.width) fun r row c column => ?_
  have taken : ((i.scaleUp k).everyNth k).pixel? r c = (i.scaleUp k).pixel? (r * k) (c * k) := by
    rw [pixel?_eq_some ⟨row, column⟩, pixel?_eq_some ⟨mul_lt_of_lt_div row, mul_lt_of_lt_div column⟩]
    rfl
  rw [taken, pixel?_scaleUp pos, Nat.mul_div_cancel r pos, Nat.mul_div_cancel c pos]

def toList (i : Image α) : List α :=
  (List.finRange i.height).flatMap fun r => (List.finRange i.width).map (i.pixel r)

theorem toList_eq_ofFn (i : Image α) :
    i.toList = List.ofFn fun q : Fin (i.height * i.width) => i.pixel q.divNat q.modNat := by
  rw [List.ofFn_mul, toList, List.flatMap_def, List.ofFn_eq_map]
  refine congrArg List.flatten (List.map_congr_left fun r _ => ?_)
  rw [List.ofFn_eq_map]
  refine List.map_congr_left fun c _ => ?_
  have place : ∀ inside, (⟨r.val * i.width + c.val, inside⟩ : Fin (i.height * i.width)) = Fin.mkDivMod r c :=
    fun inside => Fin.ext (congrArg (· + c.val) (Nat.mul_comm r.val i.width))
  rw [place, Fin.divNat_mkDivMod, Fin.modNat_mkDivMod]

theorem length_toList (i : Image α) : i.toList.length = i.height * i.width := by
  rw [toList_eq_ofFn, List.length_ofFn]

theorem getElem?_toList (i : Image α) (r : Fin i.height) (c : Fin i.width) :
    i.toList[r.val * i.width + c.val]? = some (i.pixel r c) := by
  have place : r.val * i.width + c.val = (Fin.mkDivMod r c).val := by
    rw [Fin.coe_mkDivMod, Nat.mul_comm]
  rw [toList_eq_ofFn, place, List.getElem?_ofFn, dif_pos (Fin.isLt _), Fin.divNat_mkDivMod, Fin.modNat_mkDivMod]

theorem checkBytes_eq_ok_iff {rows columns channels : Nat} :
    checkBytes rows columns channels = .ok () ↔ max 1 rows * max 1 columns * channels ≤ byteLimit := by
  refine ⟨fun passed => ?_, checkBytes_eq_ok⟩
  by_contra large
  rw [checkBytes, if_neg large] at passed
  cases passed

end Image

theorem Sides.fits_of_count_eq_ok {w h k : Nat} {s : Sides w h k} (counted : count w h k = .ok s) :
    max 1 s.rows * max 1 s.columns * 3 ≤ Image.byteLimit := by
  obtain ⟨-, -, counted⟩ := exists_of_bind_eq_ok counted
  obtain ⟨rows, -, counted⟩ := exists_of_bind_eq_ok counted
  obtain ⟨-, -, counted⟩ := exists_of_bind_eq_ok counted
  obtain ⟨columns, -, counted⟩ := exists_of_bind_eq_ok counted
  obtain ⟨⟨⟩, checked, counted⟩ := exists_of_bind_eq_ok counted
  cases counted
  exact Image.checkBytes_eq_ok_iff.mp checked

namespace Bitmap

variable {w h k : Nat} {b : Bitmap w h} {on off : Rgb} {g : Image Rgb}

theorem le_of_checkScale_eq_ok {scale : Int} (scaled : checkScale scale = .ok k) :
    scale ≤ 9223372036854775807 := by
  by_contra large
  have refused : fitInt64 scale = .error .integerRange := if_neg fun fits => large fits.2
  have positive : ¬scale < 1 := by omega
  simp only [checkScale, refused, if_neg positive] at scaled
  cases scaled

/-- An image shows a bitmap in two colours, with a square of side `k` for each pixel. -/
structure IsShown (b : Bitmap w h) (k : Nat) (on off : Rgb) (g : Image Rgb) : Prop where
  height_eq : g.height = h * k
  width_eq : g.width = w * k
  pixel : ∀ r c, ∀ (row : r / k < h) (column : c / k < w),
    g.pixel? r c = some (if b.get ⟨c / k, column⟩ ⟨r / k, row⟩ then on else off)
  square : ∀ (x : Fin w) (y : Fin h), ∀ i < k, ∀ j < k,
    g.pixel? (y.val * k + i) (x.val * k + j) = some (if b.get x y then on else off)

theorem pixel?_paint (pos : 0 < k) {r c : Nat} (row : r / k < h) (column : c / k < w) :
    (b.paint k ⟨on, off⟩).pixel? r c = some (if b.get ⟨c / k, column⟩ ⟨r / k, row⟩ then on else off) :=
  (Image.pixel?_scaleUp pos).trans
    (Image.pixel?_eq_some (i := b.toImage.map (Palette.colour ⟨on, off⟩)) ⟨row, column⟩)

theorem paint_isShown (pos : 0 < k) : IsShown b k on off (b.paint k ⟨on, off⟩) where
  height_eq := rfl
  width_eq := rfl
  pixel r c row column := pixel?_paint pos row column
  square := by
    intro x y i low j low'
    have quotient (q : Nat) {d : Nat} (low : d < k) : (q * k + d) / k = q := by
      rw [Nat.mul_comm, Nat.mul_add_div pos, Nat.div_eq_of_lt low, Nat.add_zero]
    have row : (y.val * k + i) / k = y.val := quotient y low
    have column : (x.val * k + j) / k = x.val := quotient x low'
    refine (pixel?_paint pos (row.trans_lt y.isLt) (column.trans_lt x.isLt)).trans ?_
    simp only [row, column]

theorem IsShown.eq_paint (pos : 0 < k) (h : IsShown b k on off g) : g = b.paint k ⟨on, off⟩ := by
  refine Image.ext_pixel? h.height_eq h.width_eq fun r row c column => ?_
  rw [h.height_eq] at row
  rw [h.width_eq] at column
  have row := (Nat.div_lt_iff_lt_mul pos).mpr row
  have column := (Nat.div_lt_iff_lt_mul pos).mpr column
  exact (h.pixel r c row column).trans (pixel?_paint pos row column).symm

theorem exists_isShown_iff (b : Bitmap w h) (on off : Rgb) {scale : Int} (positive : 1 ≤ scale) :
    (∃ g, b.render scale on.components off.components = .ok g ∧ IsShown b scale.toNat on off g) ↔
      scale ≤ 9223372036854775807 ∧
        max 1 (h * scale.toNat) * max 1 (w * scale.toNat) * 3 ≤ 9223372036854775807 := by
  obtain ⟨k, rfl⟩ := Int.eq_ofNat_of_zero_le (Int.le_trans Int.one_nonneg positive)
  have pos : 0 < k := by omega
  rw [Int.toNat_natCast]
  constructor
  · rintro ⟨g, drawn, shown⟩
    obtain ⟨_, scaled, drawn⟩ := exists_of_bind_eq_ok drawn
    obtain ⟨_, -, drawn⟩ := exists_of_bind_eq_ok drawn
    obtain ⟨_, -, drawn⟩ := exists_of_bind_eq_ok drawn
    obtain ⟨s, counted, drawn⟩ := exists_of_bind_eq_ok drawn
    have bytes := Sides.fits_of_count_eq_ok counted
    cases drawn
    rw [show s.rows = h * k from shown.height_eq, show s.columns = w * k from shown.width_eq] at bytes
    exact ⟨le_of_checkScale_eq_ok scaled, bytes⟩
  · rintro ⟨counted, bytes⟩
    exact ⟨_, b.render_eq_ok ⟨on, off⟩ pos (by omega) bytes, paint_isShown pos⟩

theorem toBytes_eq (b : Bitmap w h) : b.toBytes = (b.toImage.map Bool.toUInt8).toList := rfl

theorem length_toBytes (b : Bitmap w h) : b.toBytes.length = h * w :=
  (congrArg List.length b.toBytes_eq).trans (Image.length_toList _)

theorem getElem?_toBytes (b : Bitmap w h) (x : Fin w) (y : Fin h) :
    b.toBytes[y.val * w + x.val]? = some (b.get x y).toUInt8 :=
  Image.getElem?_toList (b.toImage.map Bool.toUInt8) y x

theorem toBytes_injective {b c : Bitmap w h} (same : b.toBytes = c.toBytes) : b = c := by
  refine ext_get fun x y => ?_
  have byte : some (b.get x y).toUInt8 = some (c.get x y).toUInt8 := by
    rw [← getElem?_toBytes, ← getElem?_toBytes, same]
  revert byte
  cases b.get x y <;> cases c.get x y <;> decide

/-- Whatever the scale, the frame is what the image shows in the first row and column of each square. -/
theorem IsShown.toBytes_eq (pos : 0 < k) (shown : IsShown b k ⟨1, 1, 1⟩ ⟨0, 0, 0⟩ g) :
    b.toBytes = ((g.everyNth k).map Rgb.red).toList := by
  rw [shown.eq_paint pos, paint, Image.everyNth_scaleUp pos, Bitmap.toBytes_eq]
  refine congrArg Image.toList (congrArg (Image.mk h w) (funext fun r => funext fun c => ?_))
  show (b.get c r).toUInt8 = (if b.get c r then (⟨1, 1, 1⟩ : Rgb) else ⟨0, 0, 0⟩).red
  cases b.get c r <;> rfl

/-- A bitmap of any size is rendered at a scale, with a square in the right colour for each pixel, just if the scale
and the bytes of the image can be counted. The frame of a display has a byte for each pixel, row by row, so that no
other display has the same one. It is the red channel of every `k`-th row and column of the display rendered at scale
`k` in the colours one and zero. -/
theorem rendering_agrees_with_frame :
    (∀ {w h : Nat} (b : Bitmap w h) (scale : Int) (on off : Rgb), 1 ≤ scale →
      ((∃ g, b.render scale on.components off.components = .ok g ∧ IsShown b scale.toNat on off g) ↔
        scale ≤ 9223372036854775807 ∧
          max 1 (h * scale.toNat) * max 1 (w * scale.toNat) * 3 ≤ 9223372036854775807)) ∧
    ∀ d : Display,
      (∀ s : Switches, s.toDisplay = .ok d → s.toBytes = .ok d.toBytes) ∧
      d.toBytes.length = 2048 ∧
      (∀ x y, d.toBytes[y.val * 64 + x.val]? = some (if d.get x y then 1 else 0)) ∧
      (∀ d' : Display, d'.toBytes = d.toBytes → d' = d) ∧
      ∀ k : Nat, 1 ≤ k → 32 * k * (64 * k) * 3 ≤ 9223372036854775807 →
        ∃ g, d.render k (1, 1, 1) (0, 0, 0) = .ok g ∧ IsShown d k ⟨1, 1, 1⟩ ⟨0, 0, 0⟩ g ∧
          d.toBytes = ((g.everyNth k).map Rgb.red).toList := by
  refine ⟨fun b scale on off positive => b.exists_isShown_iff on off positive, fun d => ⟨fun s given => ?_,
    d.length_toBytes, fun x y => ?_, fun d' => toBytes_injective, fun k pos bytes => ?_⟩⟩
  · rw [Switches.toBytes, given]
    rfl
  · rw [getElem?_toBytes]
    cases d.get x y <;> rfl
  · have tall : max 1 (32 * k) = 32 * k := by omega
    have wide : max 1 (64 * k) = 64 * k := by omega
    have small : k ≤ 32 * k * (64 * k) * 3 :=
      calc k ≤ 32 * k := by omega
        _ ≤ 32 * k * (64 * k) := Nat.le_mul_of_pos_right _ (by omega)
        _ ≤ 32 * k * (64 * k) * 3 := Nat.le_mul_of_pos_right _ (by decide)
    have positive : (1 : Int) ≤ k := by omega
    obtain ⟨g, drawn, shown⟩ := (d.exists_isShown_iff ⟨1, 1, 1⟩ ⟨0, 0, 0⟩ positive).mpr
      ⟨by omega, by rwa [Int.toNat_natCast, tall, wide]⟩
    exact ⟨g, drawn, shown, shown.toBytes_eq pos⟩

/-- Two pixels side by side at scale 3, and a display with one lit pixel at scale 2. -/
theorem lit_corner_is_sampled :
    let b : Bitmap 2 1 := .ofFn fun x _ => x = 1
    let d : Display := .ofFn fun x y => x = 63 ∧ y = 0
    (∃ g, b.render 3 (9, 8, 7) (0, 0, 0) = .ok g ∧ g.height = 3 ∧ g.width = 6 ∧
      g.pixel? 2 3 = some ⟨9, 8, 7⟩ ∧ g.pixel? 2 2 = some ⟨0, 0, 0⟩) ∧
    d.toBytes[63]? = some 1 ∧
    ∃ g, d.render 2 (1, 1, 1) (0, 0, 0) = .ok g ∧ g.pixel? 1 127 = some ⟨1, 1, 1⟩ ∧
      d.toBytes = ((g.everyNth 2).map Rgb.red).toList := by
  intro b d
  obtain ⟨rendered, framed⟩ := rendering_agrees_with_frame
  obtain ⟨g, drawn, shown⟩ := (rendered b 3 ⟨9, 8, 7⟩ ⟨0, 0, 0⟩ (by decide)).mpr ⟨by decide, by decide⟩
  obtain ⟨-, -, bytes, -, sampled⟩ := framed d
  obtain ⟨f, drawn', shown', same⟩ := sampled 2 (by decide) (by decide)
  have lit : d.get 63 0 = true := by simp [d]
  have byte := bytes 63 0
  have pixel := shown'.square 63 0 1 (by decide) 1 (by decide)
  rw [if_pos lit] at byte pixel
  exact ⟨⟨g, drawn, shown.height_eq, shown.width_eq, shown.square 1 0 2 (by decide) 0 (by decide),
    shown.square 0 0 2 (by decide) 2 (by decide)⟩, byte, f, drawn', pixel, same⟩

/-- An image without rows can be too wide for its bytes to be counted. -/
theorem wide_image_is_refused :
    let b : Bitmap 1 0 := .blank
    (1 : Int) ≤ 4611686018427387904 ∧
      b.render 4611686018427387904 (0, 255, 0) (0, 0, 0) = .error .imageTooLarge ∧
      ¬∃ g, b.render 4611686018427387904 (0, 255, 0) (0, 0, 0) = .ok g := by
  intro b
  have refused : b.render 4611686018427387904 (0, 255, 0) (0, 0, 0) = .error .imageTooLarge := by rfl
  refine ⟨by decide, refused, ?_⟩
  rintro ⟨g, drawn⟩
  rw [refused] at drawn
  cases drawn

end Bitmap

end Chip8
