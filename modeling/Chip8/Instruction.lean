import Chip8.Nibble

/-! Instructions. The closed set of instructions with their operands. `Instruction.index` numbers the thirty-six kinds
in their conventional order and `Instruction.names` names them in that order. -/

namespace Chip8

/-- Operations on two registers that leave the flag register alone. -/
inductive Logic where
  | copy
  | or
  | and
  | xor
  deriving DecidableEq, Repr

/-- Operations on two registers that report a carry, a borrow or a shifted-out bit. -/
inductive Arith where
  | add
  | sub
  | shr
  | subn
  | shl
  deriving DecidableEq, Repr

inductive Instruction where
  /-- Blanks the display. -/
  | cls
  /-- Returns from a subroutine. -/
  | ret
  /-- A call into the host's own code, which no machine here has. -/
  | sys (a : Fin 4096)
  | jp (a : Fin 4096)
  | call (a : Fin 4096)
  /-- Skips if a register equals a byte. -/
  | seByte (x : Nibble) (b : UInt8)
  /-- Skips if a register differs from a byte. -/
  | sneByte (x : Nibble) (b : UInt8)
  /-- Skips if two registers are equal. -/
  | seReg (x y : Nibble)
  | ldByte (x : Nibble) (b : UInt8)
  | addByte (x : Nibble) (b : UInt8)
  | logic (op : Logic) (x y : Nibble)
  | arith (op : Arith) (x y : Nibble)
  /-- Skips if two registers differ. -/
  | sneReg (x y : Nibble)
  | ldIndex (a : Fin 4096)
  /-- Jumps to an address plus register 0. -/
  | jpOffset (a : Fin 4096)
  /-- Sets a register to a random byte under a mask. -/
  | rnd (x : Nibble) (mask : UInt8)
  /-- Draws a sprite of `rows` rows. -/
  | drw (x y : Nibble) (rows : Nibble)
  /-- Skips if the key that a register names is down. -/
  | skp (x : Nibble)
  /-- Skips if the key that a register names is up. -/
  | sknp (x : Nibble)
  /-- Reads the delay timer. -/
  | getDelay (x : Nibble)
  /-- Waits for a key. -/
  | waitKey (x : Nibble)
  | setDelay (x : Nibble)
  | setSound (x : Nibble)
  | addIndex (x : Nibble)
  /-- Points the index register at the glyph of a digit. -/
  | ldGlyph (x : Nibble)
  /-- Stores the three decimal digits of a register. -/
  | storeDecimal (x : Nibble)
  /-- Stores registers 0 to `x`. -/
  | storeRegisters (x : Nibble)
  /-- Loads registers 0 to `x`. -/
  | loadRegisters (x : Nibble)
  /-- A word that encodes nothing. -/
  | illegal (word : UInt16)
  deriving DecidableEq, Repr

namespace Logic

def index : Logic → Fin 36
  | copy => 0
  | or => 1
  | and => 2
  | xor => 3

end Logic

namespace Arith

def index : Arith → Fin 36
  | add => 0
  | sub => 1
  | shr => 2
  | subn => 3
  | shl => 4

end Arith

namespace Instruction

def index : Instruction → Fin 36
  | cls => 0
  | ret => 1
  | sys _ => 2
  | jp _ => 3
  | call _ => 4
  | seByte .. => 5
  | sneByte .. => 6
  | seReg .. => 7
  | ldByte .. => 8
  | addByte .. => 9
  | logic op _ _ => 10 + op.index
  | arith op _ _ => 14 + op.index
  | sneReg .. => 19
  | ldIndex _ => 20
  | jpOffset _ => 21
  | rnd .. => 22
  | drw .. => 23
  | skp _ => 24
  | sknp _ => 25
  | getDelay _ => 26
  | waitKey _ => 27
  | setDelay _ => 28
  | setSound _ => 29
  | addIndex _ => 30
  | ldGlyph _ => 31
  | storeDecimal _ => 32
  | storeRegisters _ => 33
  | loadRegisters _ => 34
  | illegal _ => 35

def names : Vector String 36 :=
  #v["CLS", "RET", "SYS", "JP", "CALL", "SE_VX_BYTE", "SNE_VX_BYTE", "SE_VX_VY", "LD_VX_BYTE",
   "ADD_VX_BYTE", "LD_VX_VY", "OR", "AND", "XOR", "ADD_VX_VY", "SUB", "SHR", "SUBN", "SHL",
   "SNE_VX_VY", "LD_I_ADDR", "JP_V0", "RND", "DRW", "SKP", "SKNP", "LD_VX_DT", "LD_VX_K",
   "LD_DT_VX", "LD_ST_VX", "ADD_I_VX", "LD_F_VX", "LD_B_VX", "LD_MEM_VX", "LD_VX_MEM", "ILLEGAL"]

def name (i : Instruction) : String :=
  names[i.index]

end Instruction
end Chip8
