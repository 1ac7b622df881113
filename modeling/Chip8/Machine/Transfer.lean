import Chip8.Machine

/-! The index register, memory and the wait for a key. -/

namespace Chip8.Machine

/-- Adds a register to the index register, at fault beyond the last address. -/
def addIndex (m : Machine) (x : Nibble) : Machine :=
  let a := m.index.toNat + (m.reg x).toNat
  { m.failIf (addressMask < a) .addressOverflow with index := UInt16.ofNat (a % 4096) }

/-- Points the index register at the glyph of a register's digit, at fault above 15. -/
def ldGlyph (m : Machine) (x : Nibble) : Machine :=
  { m.failIf (15 < m.reg x) .invalidRegisterValue with
    index := UInt16.ofNat (fontStart + (m.reg x).toNat % 16 * glyphSize) }

def decimalDigits (b : UInt8) : List UInt8 :=
  [b / 100, b / 10 % 10, b % 10]

/-- Whether the addresses from `a` to `a + last` leave the program region. -/
def outsideProgram (a last : Nat) : Bool :=
  a < programStart || addressMask < a + last

/-- Stores the decimal digits of a register, at fault outside the program region. -/
def storeDecimal (m : Machine) (x : Nibble) : Machine :=
  let a := m.index.toNat
  { m.failIf (outsideProgram a 2) .addressOutOfRange with
    memory := m.memory.write a (decimalDigits (m.reg x)) }

/-- Stores the registers up to `x`, at fault outside the program region. -/
def storeRegisters (m : Machine) (x : Nibble) : Machine :=
  let a := m.index.toNat
  { m.failIf (outsideProgram a x.val) .addressOutOfRange with
    memory := m.memory.write a (m.registers.toList.take (x.val + 1)) }

theorem length_take_registers (m : Machine) (x : Nibble) :
    (m.registers.toList.take (x.val + 1)).length = x.val + 1 :=
  List.length_take_of_le (by rw [Bank.length_toList]; omega)

/-- Loads the registers up to `x`, at fault beyond the last address. -/
def loadRegisters (m : Machine) (x : Nibble) : Machine :=
  let a := m.index.toNat
  { m.failIf (addressMask < a + x.val) .addressOverflow with
    registers := Bank.ofFn fun i =>
      if i ≤ x then m.memory.readOrZero (a + i.val) else m.reg i }

/-- Takes the lowest key that is down. If there is none, backs up onto the instruction and waits. -/
def waitKey (m : Machine) (x : Nibble) : Machine :=
  match m.pressedKey? with
  | some k => m.setRegister x (UInt8.ofNat k.val)
  | none =>
    { m with
      pc := (m.pc - 2) % 4096
      awaitingKey := true
      keyRegister := UInt8.ofNat x.val }

end Chip8.Machine
