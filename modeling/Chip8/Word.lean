import Chip8.Nibble

/-! Instruction words and their fields. A word is any integer. Its fields are those of its sixteen low bits in two's
complement, so every word has them; `raw` keeps the word itself. -/

namespace Chip8

structure Fields where
  raw : Int
  /-- Bits 12 to 15. -/
  opcode : Nibble
  /-- Bits 8 to 11, a register. -/
  x : Nibble
  /-- Bits 4 to 7, a register. -/
  y : Nibble
  /-- Bits 0 to 3. -/
  n : Nibble
  /-- Bits 0 to 7. -/
  nn : UInt8
  /-- Bits 0 to 11, an address. -/
  nnn : Fin 4096
  deriving DecidableEq, Repr

namespace Word

/-- The four bits of `w` from the bit of weight `d` on. -/
def nibble (w : Int) (d : Nat) : Nibble :=
  ⟨(w / d % 16).toNat, by omega⟩

theorem nibble_val (w : Int) (d : Nat) : (nibble w d).val = (w / d % 16).toNat := rfl

def low16 (w : Int) : UInt16 :=
  UInt16.ofInt w

theorem toNat_low16 (w : Int) : ((low16 w).toNat : Int) = w % 65536 := by
  simp only [low16, UInt16.ofInt, UInt16.toNat_ofNat']
  omega

theorem toNat_ofInt (w : Int) : ((UInt8.ofInt w).toNat : Int) = w % 256 := by
  simp only [UInt8.ofInt, UInt8.toNat_ofNat']
  omega

def fields (w : Int) : Fields where
  raw := w
  opcode := nibble w 4096
  x := nibble w 256
  y := nibble w 16
  n := nibble w 1
  nn := UInt8.ofInt w
  nnn := ⟨(w % 4096).toNat, by omega⟩

end Word
end Chip8
