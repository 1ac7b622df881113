import Chip8.Proofs.Encoding

/-! A sprite drawn pixel by pixel, row after row, on a display that remembers whether a lit pixel was hit. The
loops draw what the instruction draws in one go. -/

namespace Chip8

namespace Bitmap

variable {w h : Nat}

def invert (b : Bitmap w h) (x : Fin w) (y : Fin h) : Bitmap w h :=
  ofFn fun u v => if u = x ∧ v = y then !b.get u v else b.get u v

/-- The picture of the pixel in column `x` and row `y`, if there is one. -/
def dot (x y : Nat) : Bitmap w h :=
  ofFn fun u v => u.val = x ∧ v.val = y

theorem get_dot (x y : Nat) (u : Fin w) (v : Fin h) :
    (dot x y).get u v = decide (u.val = x ∧ v.val = y) :=
  get_ofFn _ u v

theorem dot_of_outside {x y : Nat} (outside : w ≤ x) : (dot x y : Bitmap w h) = blank := by
  apply ext_get
  intro u v
  rw [get_dot, get_blank, decide_eq_false]
  omega

theorem invert_eq (b : Bitmap w h) (x : Fin w) (y : Fin h) :
    b.invert x y = b.xor (dot x.val y.val) := by
  apply ext_get
  intro u v
  rw [invert, get_ofFn, get_xor, get_dot]
  by_cases here : u = x ∧ v = y
  · simp [here]
  · simp [here, ← Fin.ext_iff]

theorem overlaps_eq_false (b c : Bitmap w h) :
    b.overlaps c = false ↔ ∀ x y, b.get x y = true → c.get x y = false := by
  rw [← Bool.not_eq_true, overlaps_iff]
  simp

theorem overlaps_dot (b : Bitmap w h) (x : Fin w) (y : Fin h) :
    b.overlaps (dot x.val y.val) = b.get x y := by
  apply Bool.eq_iff_iff.mpr
  simp only [overlaps_iff, get_dot, decide_eq_true_eq, ← Fin.ext_iff]
  constructor
  · rintro ⟨u, v, lit, rfl, rfl⟩
    exact lit
  · exact fun lit => ⟨x, y, lit, rfl, rfl⟩

@[simp] theorem xor_blank (b : Bitmap w h) : b.xor blank = b :=
  ext_get fun x y => by simp

@[simp] theorem overlaps_blank (b : Bitmap w h) : b.overlaps blank = false := by
  simp [overlaps_eq_false]

theorem xor_assoc (b c d : Bitmap w h) : (b.xor c).xor d = b.xor (c.xor d) :=
  ext_get fun x y => by simp

/-- Where two pictures lie apart, the second one meets the same pixels after the first one is drawn. -/
theorem overlaps_xor {b c d : Bitmap w h} (apart : c.overlaps d = false) :
    b.overlaps (c.xor d) = (b.overlaps c || (b.xor c).overlaps d) := by
  rw [overlaps_eq_false] at apart
  apply Bool.eq_iff_iff.mpr
  simp only [Bool.or_eq_true, overlaps_iff, get_xor, ← exists_or]
  -- Pixel by pixel, of which no one is lit in both pictures.
  refine exists_congr fun x => exists_congr fun y => ?_
  have := apart x y
  revert this
  cases b.get x y <;> cases c.get x y <;> cases d.get x y <;> simp

end Bitmap

/-- A display that is drawn on, and whether a lit pixel was hit. -/
structure Canvas where
  display : Display
  hit : Bool := false

namespace Canvas

def plot (c : Canvas) (x : Fin 64) (y : Fin 32) : Canvas where
  display := c.display.invert x y
  hit := if c.display.get x y then true else c.hit

/-- Plots bit `7 - b` of a byte in column `left + b`, if it is set and the screen goes so far. -/
def plotBit (c : Canvas) (byte : UInt8) (left : Nat) (y : Fin 32) (b : Nat) : Canvas :=
  if inside : left + b < 64 then
    if byte.toNat.testBit (7 - b) then c.plot ⟨left + b, inside⟩ y else c
  else c

def plotByte (c : Canvas) (byte : UInt8) (left : Nat) (y : Fin 32) : Canvas :=
  (List.range 8).foldl (fun c b => c.plotBit byte left y b) c

/-- Plots the byte at address `a + r` in row `top + r`, if the screen goes so far. Memory goes on with its
start. -/
def plotRow (c : Canvas) (memory : Memory) (a left top r : Nat) : Canvas :=
  if inside : top + r < 32 then
    c.plotByte (memory.get ⟨(a + r) % 4096, Nat.mod_lt _ (by decide)⟩) left ⟨top + r, inside⟩
  else c

def plotSprite (c : Canvas) (memory : Memory) (a left top rows : Nat) : Canvas :=
  (List.range rows).foldl (fun c r => c.plotRow memory a left top r) c

def draw (c : Canvas) (s : Display) : Canvas where
  display := c.display.xor s
  hit := c.hit || c.display.overlaps s

@[simp] theorem draw_blank (c : Canvas) : c.draw Bitmap.blank = c := by
  simp [draw]

theorem draw_draw (c : Canvas) {s t : Display} (apart : s.overlaps t = false) :
    (c.draw s).draw t = c.draw (s.xor t) := by
  simp only [draw, Bitmap.xor_assoc, Bitmap.overlaps_xor apart, Bool.or_assoc]

/-- A loop that draws a part in each pass draws what the parts add up to, if they lie apart. -/
theorem foldl_draw {pass : Canvas → Nat → Canvas} {part total : Nat → Display}
    (draws : ∀ c k, pass c k = c.draw (part k)) (start : total 0 = Bitmap.blank)
    (next : ∀ k, total (k + 1) = (total k).xor (part k))
    (apart : ∀ k, (total k).overlaps (part k) = false) (c : Canvas) (n : Nat) :
    (List.range n).foldl pass c = c.draw (total n) := by
  induction n with
  | zero => rw [start, draw_blank, List.range_zero, List.foldl_nil]
  | succ n ih =>
    rw [List.range_succ, List.foldl_append, ih, List.foldl_cons, List.foldl_nil, draws,
      draw_draw c (apart n), next]

theorem plot_eq (c : Canvas) (x : Fin 64) (y : Fin 32) :
    c.plot x y = c.draw (Bitmap.dot x.val y.val) := by
  rw [plot, draw, Bitmap.invert_eq, Bitmap.overlaps_dot]
  cases c.display.get x y <;> cases c.hit <;> rfl

/-- The pixel of bit `7 - b` of a byte whose highest bit is in column `left`. -/
def bit (byte : UInt8) (left y b : Nat) : Display :=
  if byte.toNat.testBit (7 - b) then Bitmap.dot (left + b) y else Bitmap.blank

def bits (byte : UInt8) (left y k : Nat) : Display :=
  Bitmap.ofFn fun u v =>
    decide ((left ≤ u.val ∧ u.val < left + k) ∧ v.val = y) && byte.toNat.testBit (7 - (u.val - left))

section bits

variable (byte : UInt8) (left y : Nat)

theorem get_bit (b : Nat) (u : Fin 64) (v : Fin 32) :
    (bit byte left y b).get u v = (decide (u.val = left + b ∧ v.val = y) && byte.toNat.testBit (7 - b)) := by
  cases set : byte.toNat.testBit (7 - b) <;> simp [bit, set, Bitmap.get_dot]

theorem bits_zero : bits byte left y 0 = Bitmap.blank := by
  apply Bitmap.ext_get
  intro u v
  have none : ¬((left ≤ u.val ∧ u.val < left + 0) ∧ v.val = y) := by omega
  rw [bits, Bitmap.get_ofFn, Bitmap.get_blank, decide_eq_false none, Bool.false_and]

theorem bits_succ (k : Nat) : bits byte left y (k + 1) = (bits byte left y k).xor (bit byte left y k) := by
  apply Bitmap.ext_get
  intro u v
  rw [Bitmap.get_xor, get_bit, bits, bits, Bitmap.get_ofFn, Bitmap.get_ofFn]
  by_cases last : u.val = left + k
  · simp [last]
  · have same : u.val < left + (k + 1) ↔ u.val < left + k := by omega
    simp [last, same]

theorem bits_apart (k : Nat) : (bits byte left y k).overlaps (bit byte left y k) = false := by
  rw [Bitmap.overlaps_eq_false]
  intro u v lit
  simp only [bits, Bitmap.get_ofFn, Bool.and_eq_true, decide_eq_true_eq] at lit
  have other : u.val ≠ left + k := by omega
  simp [get_bit, other]

end bits

section plot

variable (c : Canvas) (byte : UInt8) (left : Nat) (y : Fin 32)

theorem plotBit_eq (b : Nat) : c.plotBit byte left y b = c.draw (bit byte left y.val b) := by
  unfold plotBit bit
  by_cases inside : left + b < 64
  · rw [dif_pos inside]
    split
    · exact c.plot_eq ⟨left + b, inside⟩ y
    · exact c.draw_blank.symm
  · rw [dif_neg inside, Bitmap.dot_of_outside (Nat.le_of_not_lt inside), ite_self, draw_blank]

theorem plotByte_eq : c.plotByte byte left y = c.draw (bits byte left y.val 8) :=
  foldl_draw (fun c b => c.plotBit_eq byte left y b) (bits_zero byte left y.val) (bits_succ byte left y.val)
    (bits_apart byte left y.val) c 8

end plot

section sprite

variable (memory : Memory) (a left top : Nat)

def row (r : Nat) : Display :=
  bits (memory.read ((a + r) % 4096)) left (top + r) 8

theorem get_row (r : Nat) (u : Fin 64) (v : Fin 32) : (row memory a left top r).get u v =
    (decide ((left ≤ u.val ∧ u.val < left + 8) ∧ v.val = top + r) &&
      (memory.read ((a + r) % 4096)).toNat.testBit (7 - (u.val - left))) := by
  rw [row, bits, Bitmap.get_ofFn]

theorem get_sprite (rows : Nat) (u : Fin 64) (v : Fin 32) : (memory.sprite a left top rows).get u v =
    (decide ((left ≤ u.val ∧ u.val < left + 8) ∧ top ≤ v.val ∧ v.val < top + rows) &&
      (memory.read ((a + (v.val - top)) % 4096)).toNat.testBit (7 - (u.val - left))) := by
  simp only [Memory.sprite, Bitmap.get_ofFn, Bool.decide_and, Bool.and_assoc]

theorem row_of_outside {r : Nat} (outside : 32 ≤ top + r) : row memory a left top r = Bitmap.blank := by
  apply Bitmap.ext_get
  intro u v
  have other : v.val ≠ top + r := by omega
  simp [get_row, other]

theorem sprite_zero : memory.sprite a left top 0 = Bitmap.blank := by
  apply Bitmap.ext_get
  intro u v
  have none : ¬((left ≤ u.val ∧ u.val < left + 8) ∧ top ≤ v.val ∧ v.val < top + 0) := by omega
  rw [get_sprite, Bitmap.get_blank, decide_eq_false none, Bool.false_and]

theorem sprite_succ (n : Nat) :
    memory.sprite a left top (n + 1) = (memory.sprite a left top n).xor (row memory a left top n) := by
  apply Bitmap.ext_get
  intro u v
  rw [Bitmap.get_xor, get_row, get_sprite, get_sprite]
  by_cases last : v.val = top + n
  · simp [last]
  · have same : v.val < top + (n + 1) ↔ v.val < top + n := by omega
    simp [last, same]

theorem sprite_apart (n : Nat) :
    (memory.sprite a left top n).overlaps (row memory a left top n) = false := by
  rw [Bitmap.overlaps_eq_false]
  intro u v lit
  simp only [get_sprite, Bool.and_eq_true, decide_eq_true_eq] at lit
  have other : v.val ≠ top + n := by omega
  simp [get_row, other]

theorem plotRow_eq (c : Canvas) (r : Nat) :
    c.plotRow memory a left top r = c.draw (row memory a left top r) := by
  unfold plotRow
  by_cases inside : top + r < 32
  · have byte : memory.get ⟨(a + r) % 4096, Nat.mod_lt _ (by decide)⟩ = memory.read ((a + r) % 4096) := by
      rw [Memory.read_eq_readOrZero _ (Nat.mod_lt _ (by decide)), Memory.readOrZero,
        dif_pos (Nat.mod_lt _ (by decide))]
    rw [dif_pos inside, byte]
    exact c.plotByte_eq _ left ⟨top + r, inside⟩
  · rw [dif_neg inside, row_of_outside _ _ _ _ (Nat.le_of_not_lt inside), draw_blank]

theorem plotSprite_eq (c : Canvas) (rows : Nat) :
    c.plotSprite memory a left top rows = c.draw (memory.sprite a left top rows) :=
  foldl_draw (plotRow_eq memory a left top) (sprite_zero memory a left top) (sprite_succ memory a left top)
    (sprite_apart memory a left top) c rows

end sprite

end Canvas

namespace Machine

theorem decode_drw (x y n : Nibble) :
    Instruction.decode (0xD000 + 0x100 * x.val + 0x10 * y.val + n.val) = .drw x y n := by
  have word : (0xD000 + 0x100 * x.val + 0x10 * y.val + n.val : Int) = (Instruction.drw x y n).encode := by
    simp [Instruction.encode, Word.ofNibbles]
  rw [word, Instruction.decode_encode rfl]

/-- A drawing instruction does what the loops over the rows and columns of the sprite do, from the corner that
its registers name before the flag is written, and nothing else. The loops touch no pixel outside the sprite. -/
theorem drawing_is_plotting (m : Machine) (x y n : Nibble) :
    let left := (m.reg x).toNat % 64
    let top := (m.reg y).toNat % 32
    let c := Canvas.plotSprite { display := m.display } m.memory m.index.toNat left top n.val
    m.execute (0xD000 + 0x100 * x.val + 0x10 * y.val + n.val) =
      { m with
        display := c.display
        registers := m.registers.set 0xF (if c.hit then 1 else 0)
        drawFlag := true } ∧
      ∀ u v, ¬((left ≤ u.val ∧ u.val < left + 8) ∧ top ≤ v.val ∧ v.val < top + n.val) →
        c.display.get u v = m.display.get u v := by
  intro left top c
  have drawn : c = Canvas.draw { display := m.display } (m.sprite x y n) :=
    Canvas.plotSprite_eq m.memory m.index.toNat left top _ n.val
  constructor
  · have flag : (m.display.overlaps (m.sprite x y n)).toUInt8 = if c.hit then 1 else 0 := by
      rw [drawn, Canvas.draw, Bool.false_or]
      cases m.display.overlaps (m.sprite x y n) <;> rfl
    rw [execute, decode_drw, perform, Machine.draw, flag, drawn]
    rfl
  · intro u v outside
    rw [drawn, Canvas.draw, Bitmap.get_xor, sprite, Canvas.get_sprite, decide_eq_false outside,
      Bool.false_and, Bool.xor_false]

end Machine
end Chip8
