import Chip8.Bank

/-! A bitmap of width `w` and height `h` has an on/off pixel for each column and row. It is known by its pixels:
`get_ofFn` and `ext_get`. -/

namespace Chip8

structure Bitmap (w h : Nat) where
  /-- The pixels column by column. -/
  pixels : Bank Bool (w * h)
  deriving DecidableEq

namespace Bitmap

variable {w h : Nat}

theorem index_lt (x : Fin w) (y : Fin h) : x.val * h + y.val < w * h := by
  have column : (x.val + 1) * h ≤ w * h := Nat.mul_le_mul_right h x.isLt
  rw [Nat.add_mul, Nat.one_mul] at column
  have := y.isLt
  omega

theorem height_pos (i : Fin (w * h)) : 0 < h :=
  Nat.pos_of_mul_pos_left (Nat.lt_of_le_of_lt (Nat.zero_le _) i.isLt)

def index (x : Fin w) (y : Fin h) : Fin (w * h) :=
  ⟨x.val * h + y.val, index_lt x y⟩

theorem column_lt (i : Fin (w * h)) : i.val / h < w :=
  Nat.div_lt_of_lt_mul (Nat.mul_comm w h ▸ i.isLt)

theorem row_lt (i : Fin (w * h)) : i.val % h < h :=
  Nat.mod_lt _ (height_pos i)

def column (i : Fin (w * h)) : Fin w :=
  ⟨i.val / h, column_lt i⟩

def row (i : Fin (w * h)) : Fin h :=
  ⟨i.val % h, row_lt i⟩

@[simp] theorem column_index (x : Fin w) (y : Fin h) : column (index x y) = x := by
  apply Fin.ext
  have pos : 0 < h := Nat.lt_of_le_of_lt (Nat.zero_le _) y.isLt
  simp only [column, index]
  rw [Nat.mul_comm, Nat.mul_add_div pos, Nat.div_eq_of_lt y.isLt, Nat.add_zero]

@[simp] theorem row_index (x : Fin w) (y : Fin h) : row (index x y) = y := by
  apply Fin.ext
  simp only [row, index]
  rw [Nat.mul_comm, Nat.mul_add_mod, Nat.mod_eq_of_lt y.isLt]

theorem index_column_row (i : Fin (w * h)) : index (column i) (row i) = i := by
  apply Fin.ext
  simp only [column, row, index]
  rw [Nat.mul_comm, Nat.div_add_mod]

def get (b : Bitmap w h) (x : Fin w) (y : Fin h) : Bool :=
  b.pixels.get (index x y)

def ofFn (f : Fin w → Fin h → Bool) : Bitmap w h :=
  ⟨Bank.ofFn fun i => f (column i) (row i)⟩

@[simp] theorem get_ofFn (f : Fin w → Fin h → Bool) (x : Fin w) (y : Fin h) :
    (ofFn f).get x y = f x y := by
  simp [get, ofFn]

theorem ext_get {b c : Bitmap w h} (e : ∀ x y, b.get x y = c.get x y) : b = c := by
  rcases b with ⟨u⟩
  rcases c with ⟨v⟩
  have pixels : u = v := Bank.ext_get fun i => by
    rw [← index_column_row i]
    exact e (column i) (row i)
  rw [pixels]

def blank : Bitmap w h :=
  ofFn fun _ _ => false

@[simp] theorem get_blank (x : Fin w) (y : Fin h) : (blank : Bitmap w h).get x y = false := by
  simp [blank]

def xor (b c : Bitmap w h) : Bitmap w h :=
  ofFn fun x y => b.get x y ^^ c.get x y

@[simp] theorem get_xor (b c : Bitmap w h) (x : Fin w) (y : Fin h) :
    (b.xor c).get x y = (b.get x y ^^ c.get x y) := by
  simp [xor]

def overlaps (b c : Bitmap w h) : Bool :=
  (List.finRange w).any fun x => (List.finRange h).any fun y => b.get x y && c.get x y

theorem overlaps_iff (b c : Bitmap w h) :
    b.overlaps c = true ↔ ∃ x y, b.get x y = true ∧ c.get x y = true := by
  simp [overlaps]

end Bitmap

/-- The screen, its pixels by column and row. -/
abbrev Display := Bitmap 64 32

end Chip8
