import Chip8.Machine

/-! Drawing. A sprite is eight pixels wide and has up to fifteen rows, a byte each. Its corner wraps around the screen
and the rest of it is clipped at the right and bottom edges. -/

namespace Chip8

/-- The screen with the bytes from `a` on lit as a sprite at column `left` and row `top`. Rows beyond
the end of memory are read from its start. -/
def Memory.sprite (m : Memory) (a left top rows : Nat) : Display :=
  Bitmap.ofFn fun x y =>
    (left ≤ x.val && x.val < left + 8 && top ≤ y.val && y.val < top + rows) &&
      (m.read ((a + (y.val - top)) % 4096)).toNat.testBit (7 - (x.val - left))

namespace Machine

def paint (m : Machine) (d : Display) : Machine :=
  { m with display := d, drawFlag := true }

section paint

variable (m : Machine) (d : Display)

-- These are not definitional for the simplifier, whose check of them would unfold the picture.
@[simp] theorem paint_memory : (m.paint d).memory = m.memory := by rfl

@[simp] theorem paint_pc : (m.paint d).pc = m.pc := by rfl

@[simp] theorem paint_stack : (m.paint d).stack = m.stack := by rfl

@[simp] theorem paint_index : (m.paint d).index = m.index := by rfl

@[simp] theorem paint_awaitingKey : (m.paint d).awaitingKey = m.awaitingKey := by rfl

@[simp] theorem paint_keyRegister : (m.paint d).keyRegister = m.keyRegister := by rfl

@[simp] theorem paint_error : (m.paint d).error = m.error := by rfl

@[simp] theorem paint_key : (m.paint d).key = m.key := by rfl

@[simp] theorem paint_registers : (m.paint d).registers = m.registers := by rfl

@[simp] theorem paint_delayTimer : (m.paint d).delayTimer = m.delayTimer := by rfl

@[simp] theorem paint_keypad : (m.paint d).keypad = m.keypad := by rfl

@[simp] theorem paint_strict : (m.paint d).strict = m.strict := by rfl

@[simp] theorem paint_soundTimer : (m.paint d).soundTimer = m.soundTimer := by rfl

@[simp] theorem paint_display : (m.paint d).display = d := by rfl

@[simp] theorem paint_drawFlag : (m.paint d).drawFlag = true := by rfl

end paint

def clear (m : Machine) : Machine :=
  m.paint Bitmap.blank

def sprite (m : Machine) (x y rows : Nibble) : Display :=
  m.memory.sprite m.index.toNat ((m.reg x).toNat % 64) ((m.reg y).toNat % 32) rows.val

/-- Inverts the pixels of a sprite. The flag register tells whether a lit pixel was among them. -/
def draw (m : Machine) (x y rows : Nibble) : Machine :=
  let s := m.sprite x y rows
  (m.setRegister flagRegister (m.display.overlaps s).toUInt8).paint (m.display.xor s)

end Machine
end Chip8
