import Chip8.Arithmetic
import Chip8.Machine

/-! Register operations. -/

namespace Chip8.Machine

/-- Adds a byte to a register modulo 256 and leaves the flag register alone. -/
def addByte (m : Machine) (x : Nibble) (b : UInt8) : Machine :=
  m.setRegister x (m.reg x + b)

def logic (m : Machine) (op : Logic) (x y : Nibble) : Machine :=
  m.setRegister x (UInt8.ofInt (op.eval (m.reg x).toNat (m.reg y).toNat))

/-- Writes the result and then the flag. A strict machine is at fault if either operand is the flag
register, whose old value the flag would destroy. -/
def arith (m : Machine) (op : Arith) (x y : Nibble) : Machine :=
  let m := m.failIf (m.strict && (x == flagRegister || y == flagRegister)) .flagRegisterOperand
  let r := op.eval (m.reg x).toNat (m.reg y).toNat
  (m.setRegister x (UInt8.ofInt r.1)).setRegister flagRegister r.2.toUInt8

def random (m : Machine) (x : Nibble) (mask : UInt8) : Machine :=
  { m.setRegister x (m.key.sub.byte &&& mask) with key := m.key.next }

end Chip8.Machine
