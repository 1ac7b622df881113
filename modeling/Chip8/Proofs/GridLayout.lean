import Chip8.Render.Grid
import Mathlib.Tactic.Common

/-! Where the tiles of a grid lie. Every tile has a rectangle of its own inside the grid, the rectangles keep
apart, and all around them the grid is transparent. This describes the grid in full, and it is what comes of
pasting the tiles one after another, with transparent ones in place of those that are missing. -/

namespace Chip8

namespace Image

variable {α : Type}

def fill (height width : Nat) (a : α) : Image α where
  height := height
  width := width
  pixel _ _ := a

theorem pixel?_fill {height width r c : Nat} (a : α) (row : r < height) (column : c < width) :
    (fill height width a).pixel? r c = some a :=
  pixel?_eq_some ⟨row, column⟩

def paste (i j : Image α) (top left : Nat) : Image α where
  height := i.height
  width := i.width
  pixel r c :=
    (if top ≤ r.val ∧ left ≤ c.val then j.pixel? (r - top) (c - left) else none).getD (i.pixel r c)

variable {i j : Image α} {top left r c : Nat}

theorem pixel?_paste : (i.paste j top left).pixel? r c = (i.pixel? r c).map fun a =>
    (if top ≤ r ∧ left ≤ c then j.pixel? (r - top) (c - left) else none).getD a := by
  by_cases inside : r < i.height ∧ c < i.width
  · rw [pixel?_eq_some inside]
    exact pixel?_eq_some (i := i.paste j top left) inside
  · rw [pixel?_eq_none inside]
    exact pixel?_eq_none (i := i.paste j top left) inside

theorem pixel?_paste_of_outside
    (outside : ¬((top ≤ r ∧ r < top + j.height) ∧ left ≤ c ∧ c < left + j.width)) :
    (i.paste j top left).pixel? r c = i.pixel? r c := by
  have beyond : (if top ≤ r ∧ left ≤ c then j.pixel? (r - top) (c - left) else none) = none := by
    split
    · exact pixel?_eq_none (by omega)
    · rfl
  rw [pixel?_paste, beyond]
  exact Option.map_id'

theorem pixel?_paste_of_inside (row : top ≤ r ∧ r < top + j.height)
    (column : left ≤ c ∧ c < left + j.width) (inside : r < i.height ∧ c < i.width) :
    (i.paste j top left).pixel? r c = j.pixel? (r - top) (c - left) := by
  have within : r - top < j.height ∧ c - left < j.width := by omega
  rw [pixel?_paste, if_pos ⟨row.1, column.1⟩, pixel?_eq_some inside, pixel?_eq_some within]
  rfl

end Image

namespace Grid

variable {n : Nat}

theorem columns_pos (nonempty : 0 < n) : 0 < columns n := by
  refine Nat.pos_of_ne_zero fun none => Nat.not_lt.mpr (le_ceilSqrt_mul_self n) ?_
  rw [show ceilSqrt n = 0 from none]
  exact nonempty

theorem le_columns_mul_self (n : Nat) : n ≤ columns n * columns n :=
  le_ceilSqrt_mul_self n

theorem pred_columns_mul_self_lt (nonempty : 0 < n) : (columns n - 1) * (columns n - 1) < n :=
  mul_self_lt_of_lt_ceilSqrt (Nat.sub_lt (columns_pos nonempty) Nat.one_pos)

theorem rows_le_iff (nonempty : 0 < n) {m : Nat} : rows n ≤ m ↔ n ≤ m * columns n := by
  have pos := columns_pos nonempty
  rw [rows, Nat.div_le_iff_le_mul_add_pred pos, Nat.mul_comm m]
  omega

theorem le_rows_mul_columns (nonempty : 0 < n) : n ≤ rows n * columns n :=
  (rows_le_iff nonempty).mp (Nat.le_refl _)

theorem lt_places {i : Nat} (inside : i < n) : i < rows n * columns n :=
  Nat.lt_of_lt_of_le inside (le_rows_mul_columns (Nat.zero_lt_of_lt inside))

theorem rows_pos (nonempty : 0 < n) : 0 < rows n := by
  refine Nat.pos_of_ne_zero fun none => Nat.not_lt.mpr (le_rows_mul_columns nonempty) ?_
  rw [none, Nat.zero_mul]
  exact nonempty

theorem pred_rows_mul_columns_lt (nonempty : 0 < n) : (rows n - 1) * columns n < n := by
  refine Nat.lt_of_not_le fun enough => ?_
  have fewer := (rows_le_iff nonempty).mpr enough
  have pos := rows_pos nonempty
  omega

theorem rows_le_columns (nonempty : 0 < n) : rows n ≤ columns n :=
  (rows_le_iff nonempty).mpr (le_columns_mul_self n)

section line

variable {length i x : Nat}

theorem offset_div (inside : x < length) : (i * (length + gap) + x) / (length + gap) = i := by
  have pitch : x < length + gap := Nat.lt_add_right gap inside
  rw [Nat.mul_comm, Nat.mul_add_div (Nat.zero_lt_of_lt pitch), Nat.div_eq_of_lt pitch, Nat.add_zero]

theorem offset_mod (inside : x < length) : (i * (length + gap) + x) % (length + gap) = x := by
  rw [Nat.mul_comm, Nat.mul_add_mod, Nat.mod_eq_of_lt (Nat.lt_add_right gap inside)]

/-- A tile of a line is found by the quotient, and the remainder lies in it and not in a gap. -/
theorem within_iff : i * (length + gap) ≤ x ∧ x < i * (length + gap) + length ↔
    x / (length + gap) = i ∧ x % (length + gap) < length := by
  constructor
  · rintro ⟨low, high⟩
    obtain ⟨y, rfl⟩ := Nat.exists_eq_add_of_le low
    have inside : y < length := Nat.lt_of_add_lt_add_left high
    exact ⟨offset_div inside, (offset_mod inside).symm ▸ inside⟩
  · rintro ⟨rfl, inside⟩
    have whole := Nat.div_add_mod' x (length + gap)
    omega

theorem extent_succ (m length : Nat) : extent (m + 1) length = m * (length + gap) + length := by
  rw [extent, Nat.add_sub_cancel, Nat.mul_add, Nat.add_mul, Nat.one_mul]
  omega

theorem offset_le_extent (tile : i < n) : i * (length + gap) + length ≤ extent n length := by
  obtain ⟨m, rfl⟩ := Nat.exists_eq_succ_of_ne_zero (Nat.ne_of_gt (Nat.zero_lt_of_lt tile))
  rw [extent_succ]
  exact Nat.add_le_add_right (Nat.mul_le_mul_right _ (Nat.le_of_lt_succ tile)) length

theorem div_lt_of_lt_extent (inside : x < extent n length) : x / (length + gap) < n := by
  cases n with
  | zero => simp [extent] at inside
  | succ m =>
    rw [extent_succ] at inside
    refine Nat.div_lt_of_lt_mul ?_
    rw [Nat.mul_comm, Nat.succ_mul]
    omega

end line

def top (n height i : Nat) : Nat :=
  i / columns n * (height + gap)

def left (n width i : Nat) : Nat :=
  i % columns n * (width + gap)

def Covers (n height width i r c : Nat) : Prop :=
  (top n height i ≤ r ∧ r < top n height i + height) ∧ left n width i ≤ c ∧ c < left n width i + width

instance (n height width i r c : Nat) : Decidable (Covers n height width i r c) :=
  inferInstanceAs (Decidable ((_ ∧ _) ∧ _ ∧ _))

variable {height width i j r c : Nat}

theorem covers_iff : Covers n height width i r c ↔
    (r / (height + gap) = i / columns n ∧ r % (height + gap) < height) ∧
      c / (width + gap) = i % columns n ∧ c % (width + gap) < width :=
  and_congr within_iff within_iff

theorem Covers.index (h : Covers n height width i r c) :
    r / (height + gap) * columns n + c / (width + gap) = i := by
  obtain ⟨⟨row, -⟩, column, -⟩ := covers_iff.mp h
  rw [row, column, Nat.div_add_mod']

theorem Covers.unique (h : Covers n height width i r c) (h' : Covers n height width j r c) : i = j :=
  h.index.symm.trans h'.index

theorem covers_index (column : c / (width + gap) < columns n) (row_mod : r % (height + gap) < height)
    (column_mod : c % (width + gap) < width) :
    Covers n height width (r / (height + gap) * columns n + c / (width + gap)) r c := by
  have pos : 0 < columns n := Nat.zero_lt_of_lt column
  refine covers_iff.mpr ⟨⟨?_, row_mod⟩, ?_, column_mod⟩
  · rw [Nat.mul_comm, Nat.mul_add_div pos, Nat.div_eq_of_lt column, Nat.add_zero]
  · rw [Nat.mul_comm, Nat.mul_add_mod, Nat.mod_eq_of_lt column]

theorem covers_offset (row : r < height) (column : c < width) :
    Covers n height width i (top n height i + r) (left n width i + c) :=
  ⟨⟨Nat.le_add_right _ _, Nat.add_lt_add_left row _⟩, Nat.le_add_right _ _, Nat.add_lt_add_left column _⟩

theorem top_le_extent (place : i < rows n * columns n) : top n height i + height ≤ extent (rows n) height :=
  offset_le_extent (Nat.div_lt_of_lt_mul (Nat.mul_comm _ _ ▸ place))

theorem left_le_extent (place : i < rows n * columns n) : left n width i + width ≤ extent (columns n) width :=
  offset_le_extent (Nat.mod_lt i (Nat.pos_of_mul_pos_left (Nat.zero_lt_of_lt place)))

theorem Covers.inside (h : Covers n height width i r c) (place : i < rows n * columns n) :
    r < extent (rows n) height ∧ c < extent (columns n) width :=
  ⟨Nat.lt_of_lt_of_le h.1.2 (top_le_extent place), Nat.lt_of_lt_of_le h.2.2 (left_le_extent place)⟩

/-- An image is the grid of some tiles, each `height` by `width`: they lie row by row with five pixels between
them, and whatever no tile covers is transparent. -/
structure IsGrid (g : Image Rgba) (height width : Nat) (tiles : Array (Image Rgb)) : Prop where
  sides : ∀ t ∈ tiles, t.height = height ∧ t.width = width
  height_eq : g.height = rows tiles.size * height + 5 * (rows tiles.size - 1)
  width_eq : g.width = columns tiles.size * width + 5 * (columns tiles.size - 1)
  tile : ∀ (i : Nat) (inside : i < tiles.size), ∀ r < height, ∀ c < width,
    g.pixel? (i / columns tiles.size * (height + 5) + r) (i % columns tiles.size * (width + 5) + c) =
      (tiles[i].pixel? r c).map Rgb.solid
  around : ∀ r < g.height, ∀ c < g.width, (∀ i < tiles.size, ¬Covers tiles.size height width i r c) →
    g.pixel? r c = some .clear

variable {g g' : Image Rgba} {tiles : Array (Image Rgb)}

theorem extent_eq (n length : Nat) : extent n length = n * length + 5 * (n - 1) :=
  congrArg (n * length + ·) (Nat.mul_comm _ _)

theorem IsGrid.pixel?_of_covers (h : IsGrid g height width tiles) (inside : i < tiles.size)
    (covers : Covers tiles.size height width i r c) : g.pixel? r c =
      (tiles[i].pixel? (r - top tiles.size height i) (c - left tiles.size width i)).map Rgb.solid := by
  obtain ⟨⟨low, high⟩, first, last⟩ := covers
  obtain ⟨r, rfl⟩ := Nat.exists_eq_add_of_le low
  obtain ⟨c, rfl⟩ := Nat.exists_eq_add_of_le first
  rw [Nat.add_sub_cancel_left, Nat.add_sub_cancel_left]
  exact h.tile i inside r (Nat.lt_of_add_lt_add_left high) c (Nat.lt_of_add_lt_add_left last)

theorem IsGrid.unique (h : IsGrid g height width tiles) (h' : IsGrid g' height width tiles) : g = g' := by
  have tall : g.height = g'.height := h.height_eq.trans h'.height_eq.symm
  have wide : g.width = g'.width := h.width_eq.trans h'.width_eq.symm
  refine Image.ext_pixel? tall wide fun r row c column => ?_
  by_cases covered : ∃ i < tiles.size, Covers tiles.size height width i r c
  · obtain ⟨i, inside, covers⟩ := covered
    rw [h.pixel?_of_covers inside covers, h'.pixel?_of_covers inside covers]
  · have bare (i : Nat) (inside : i < tiles.size) : ¬Covers tiles.size height width i r c :=
      fun covers => covered ⟨i, inside, covers⟩
    rw [h.around r row c column bare, h'.around r (tall ▸ row) c (wide ▸ column) bare]

theorem pixel?_image (inside : r < extent (rows tiles.size) height ∧ c < extent (columns tiles.size) width) :
    (image height width tiles).pixel? r c =
      some (((tiles[r / (height + gap) * columns tiles.size + c / (width + gap)]?.bind fun t =>
        t.pixel? (r % (height + gap)) (c % (width + gap))).map Rgb.solid).getD .clear) := by
  refine (dif_pos inside).trans (congrArg some ?_)
  show (match _ with | some p => Rgb.solid p | none => Rgba.clear) = _
  cases tiles[r / (height + gap) * columns tiles.size + c / (width + gap)]?.bind _ <;> rfl

theorem image_isGrid (sides : ∀ t ∈ tiles, t.height = height ∧ t.width = width) :
    IsGrid (image height width tiles) height width tiles where
  sides := sides
  height_eq := extent_eq _ _
  width_eq := extent_eq _ _
  tile := by
    intro i inside r row c column
    have covers : Covers tiles.size height width i _ _ := covers_offset row column
    have within : r < tiles[i].height ∧ c < tiles[i].width := by
      obtain ⟨tall, wide⟩ := sides _ (Array.getElem_mem inside)
      exact ⟨tall ▸ row, wide ▸ column⟩
    refine (pixel?_image (covers.inside (lt_places inside))).trans ?_
    rw [covers.index, Array.getElem?_eq_getElem inside, Option.bind_some, top, left, offset_mod row,
      offset_mod column, Image.pixel?_eq_some within]
    rfl
  around := by
    intro r row c column bare
    rw [pixel?_image ⟨row, column⟩]
    -- A pixel that is found is one that a tile covers.
    cases found : tiles[r / (height + gap) * columns tiles.size + c / (width + gap)]?.bind fun t =>
        t.pixel? (r % (height + gap)) (c % (width + gap)) with
    | none => rfl
    | some p =>
      obtain ⟨t, tile, pixel⟩ := Option.bind_eq_some_iff.mp found
      obtain ⟨inside, rfl⟩ := Array.getElem?_eq_some_iff.mp tile
      obtain ⟨tall, wide⟩ := sides _ (Array.getElem_mem inside)
      obtain ⟨row_mod, column_mod⟩ := Image.inside_of_pixel? pixel
      exact absurd (covers_index (div_lt_of_lt_extent column) (Nat.lt_of_lt_of_eq row_mod tall)
        (Nat.lt_of_lt_of_eq column_mod wide)) (bare _ inside)

/-- What is pasted in a place of a grid: its tile, or as much transparency where there is none. -/
def slot (height width : Nat) (tiles : Array (Image Rgb)) (i : Nat) : Image Rgba :=
  match tiles[i]? with
  | some t => t.map Rgb.solid
  | none => .fill height width .clear

def pasteSlot (height width : Nat) (tiles : Array (Image Rgb)) (g : Image Rgba) (i : Nat) : Image Rgba :=
  g.paste (slot height width tiles i) (top tiles.size height i) (left tiles.size width i)

/-- The tiles pasted one after another into a transparent image, with transparent tiles to fill up the last
row. -/
def pasted (height width : Nat) (tiles : Array (Image Rgb)) : Image Rgba :=
  (List.range (rows tiles.size * columns tiles.size)).foldl (pasteSlot height width tiles)
    (.fill (extent (rows tiles.size) height) (extent (columns tiles.size) width) .clear)

theorem slot_eq (inside : i < tiles.size) : slot height width tiles i = tiles[i].map Rgb.solid := by
  rw [slot, Array.getElem?_eq_getElem inside]

theorem slot_eq_clear (missing : tiles.size ≤ i) : slot height width tiles i = .fill height width .clear := by
  rw [slot, Array.getElem?_eq_none missing]

theorem slot_sides (sides : ∀ t ∈ tiles, t.height = height ∧ t.width = width) (i : Nat) :
    (slot height width tiles i).height = height ∧ (slot height width tiles i).width = width := by
  by_cases inside : i < tiles.size
  · rw [slot_eq inside]
    exact sides _ (Array.getElem_mem inside)
  · rw [slot_eq_clear (Nat.le_of_not_lt inside)]
    exact ⟨rfl, rfl⟩

variable {slots : List Nat}

theorem foldl_pasteSlot_sides (slots : List Nat) (g : Image Rgba) :
    (slots.foldl (pasteSlot height width tiles) g).height = g.height ∧
      (slots.foldl (pasteSlot height width tiles) g).width = g.width := by
  induction slots generalizing g with
  | nil => exact ⟨rfl, rfl⟩
  | cons i slots ih => exact ih (pasteSlot height width tiles g i)

section sides

variable (sides : ∀ t ∈ tiles, t.height = height ∧ t.width = width)
include sides

theorem pixel?_pasteSlot_of_outside (outside : ¬Covers tiles.size height width i r c) :
    (pasteSlot height width tiles g i).pixel? r c = g.pixel? r c := by
  refine Image.pixel?_paste_of_outside ?_
  rw [(slot_sides sides i).1, (slot_sides sides i).2]
  exact outside

theorem pixel?_foldl_of_outside (outside : ∀ i ∈ slots, ¬Covers tiles.size height width i r c) :
    (slots.foldl (pasteSlot height width tiles) g).pixel? r c = g.pixel? r c := by
  induction slots generalizing g with
  | nil => rfl
  | cons i slots ih =>
    obtain ⟨first, rest⟩ := List.forall_mem_cons.mp outside
    exact (ih rest).trans (pixel?_pasteSlot_of_outside sides first)

/-- A tile stays as it was pasted, whatever is pasted before and after it. -/
theorem pixel?_foldl_of_covers (covers : Covers tiles.size height width i r c) (pasted : i ∈ slots)
    (inside : r < g.height ∧ c < g.width) :
    (slots.foldl (pasteSlot height width tiles) g).pixel? r c =
      (slot height width tiles i).pixel? (r - top tiles.size height i) (c - left tiles.size width i) := by
  induction slots generalizing g with
  | nil => cases pasted
  | cons j slots ih =>
    by_cases again : i ∈ slots
    · exact ih again (g := pasteSlot height width tiles g j) inside
    · obtain rfl : i = j := (List.mem_cons.mp pasted).resolve_right again
      have apart (k : Nat) (member : k ∈ slots) : ¬Covers tiles.size height width k r c :=
        fun both => again (covers.unique both ▸ member)
      refine (pixel?_foldl_of_outside sides apart).trans ?_
      refine Image.pixel?_paste_of_inside ?_ ?_ inside
      · rw [(slot_sides sides i).1]
        exact covers.1
      · rw [(slot_sides sides i).2]
        exact covers.2

theorem pasted_isGrid : IsGrid (pasted height width tiles) height width tiles where
  sides := sides
  height_eq := (foldl_pasteSlot_sides _ _).1.trans (extent_eq _ _)
  width_eq := (foldl_pasteSlot_sides _ _).2.trans (extent_eq _ _)
  tile := by
    intro i inside r row c column
    have place := lt_places inside
    have covers : Covers tiles.size height width i _ _ := covers_offset row column
    refine (pixel?_foldl_of_covers sides covers (List.mem_range.mpr place) (covers.inside place)).trans ?_
    rw [Nat.add_sub_cancel_left, Nat.add_sub_cancel_left, slot_eq inside, Image.pixel?_map]
  around := by
    intro r row c column bare
    rw [pasted, (foldl_pasteSlot_sides _ _).1] at row
    rw [pasted, (foldl_pasteSlot_sides _ _).2] at column
    by_cases covered : ∃ i ∈ List.range (rows tiles.size * columns tiles.size),
        Covers tiles.size height width i r c
    · -- What covers it fills up the last row.
      obtain ⟨i, place, covers⟩ := covered
      have missing : tiles.size ≤ i := Nat.le_of_not_lt fun inside => bare i inside covers
      have ⟨⟨low, high⟩, first, last⟩ := covers
      rw [pasted, pixel?_foldl_of_covers sides covers place ⟨row, column⟩, slot_eq_clear missing]
      exact Image.pixel?_fill _ (by omega) (by omega)
    · refine (pixel?_foldl_of_outside sides fun i place covers => covered ⟨i, place, covers⟩).trans ?_
      exact Image.pixel?_fill _ row column

theorem pasted_eq_image : pasted height width tiles = image height width tiles :=
  (pasted_isGrid sides).unique (image_isGrid sides)

end sides

end Grid
end Chip8
