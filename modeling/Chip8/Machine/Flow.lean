import Chip8.Machine

/-! Jumps, calls, returns and skips. Each effect starts from a program counter that is already past its instruction.
An effect that records a fault goes on to act; a cycle takes its actions back. -/

namespace Chip8.Machine

def skipIf (m : Machine) (c : Bool) : Machine :=
  if c then { m with pc := following m.pc } else m

/-- Jumps, at fault if the target lies below the program region. -/
def jump (m : Machine) (a : Fin 4096) : Machine :=
  { m.failIf (a.val < programStart) .invalidJumpTarget with pc := UInt16.ofNat a.val }

/-- Pushes the program counter and jumps, at fault if the stack is full. -/
def call (m : Machine) (a : Fin 4096) : Machine :=
  let m := m.failIf m.stack.isFull .stackOverflow
  { m with stack := m.stack.push m.pc.toNat }.jump a

/-- Pops the program counter, at fault if the stack is empty. -/
def ret (m : Machine) : Machine :=
  { m.failIf m.stack.isEmpty .stackUnderflow with pc := m.stack.top, stack := m.stack.pop }

def offsetTarget (m : Machine) (a : Fin 4096) : Nat :=
  a.val + (m.reg Nibble.zero).toNat

/-- Jumps to an address plus register 0, at fault if the sum lies outside the program region. -/
def jumpOffset (m : Machine) (a : Fin 4096) : Machine :=
  let t := m.offsetTarget a
  { m.failIf (t < programStart || addressMask < t) .invalidJumpTarget with
    pc := UInt16.ofNat (t % 4096) }

def namedKey (m : Machine) (x : Nibble) : Nibble :=
  Nibble.ofNat (m.reg x).toNat

/-- Skips if the key that a register names is in the given state, at fault above 15. -/
def skipIfKey (m : Machine) (x : Nibble) (down : Bool) : Machine :=
  (m.failIf (15 < m.reg x) .invalidRegisterValue).skipIf
    (m.isDown (m.namedKey x) == down)

end Chip8.Machine
