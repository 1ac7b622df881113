import Chip8.Instruction.Decode
import Chip8.Text.Numeral

/-! Mnemonics. The conventional text of an instruction. Registers and addresses are hexadecimal and the row count of a
sprite is decimal; a shift names its first register only. -/

namespace Chip8.Instruction

open Numeral

def registerText (x : Nibble) : String :=
  "V" ++ nibble x

def registersText (x y : Nibble) : String :=
  registerText x ++ ", " ++ registerText y

def registerByteText (x : Nibble) (b : UInt8) : String :=
  registerText x ++ ", 0x" ++ byte b

def addressText (a : Fin 4096) : String :=
  "0x" ++ address a

def mnemonic : Instruction → String
  | cls => "CLS"
  | ret => "RET"
  | sys a => "SYS " ++ addressText a
  | jp a => "JP " ++ addressText a
  | call a => "CALL " ++ addressText a
  | seByte x b => "SE " ++ registerByteText x b
  | sneByte x b => "SNE " ++ registerByteText x b
  | seReg x y => "SE " ++ registersText x y
  | ldByte x b => "LD " ++ registerByteText x b
  | addByte x b => "ADD " ++ registerByteText x b
  | logic .copy x y => "LD " ++ registersText x y
  | logic .or x y => "OR " ++ registersText x y
  | logic .and x y => "AND " ++ registersText x y
  | logic .xor x y => "XOR " ++ registersText x y
  | arith .add x y => "ADD " ++ registersText x y
  | arith .sub x y => "SUB " ++ registersText x y
  | arith .shr x _ => "SHR " ++ registerText x
  | arith .subn x y => "SUBN " ++ registersText x y
  | arith .shl x _ => "SHL " ++ registerText x
  | sneReg x y => "SNE " ++ registersText x y
  | ldIndex a => "LD I, " ++ addressText a
  | jpOffset a => "JP V0, " ++ addressText a
  | rnd x b => "RND " ++ registerByteText x b
  | drw x y rows => "DRW " ++ registersText x y ++ ", " ++ toString rows.val
  | skp x => "SKP " ++ registerText x
  | sknp x => "SKNP " ++ registerText x
  | getDelay x => "LD " ++ registerText x ++ ", DT"
  | waitKey x => "LD " ++ registerText x ++ ", K"
  | setDelay x => "LD DT, " ++ registerText x
  | setSound x => "LD ST, " ++ registerText x
  | addIndex x => "ADD I, " ++ registerText x
  | ldGlyph x => "LD F, " ++ registerText x
  | storeDecimal x => "LD B, " ++ registerText x
  | storeRegisters x => "LD [I], " ++ registerText x
  | loadRegisters x => "LD " ++ registerText x ++ ", [I]"
  | illegal w => "DW 0x" ++ word w

/-- The mnemonic of the instruction that the sixteen low bits of `w` encode. -/
def disassemble (w : Int) : String :=
  (decode (w % 65536)).mnemonic

end Chip8.Instruction
