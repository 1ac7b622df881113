import Chip8.Instruction
import Chip8.Word

/-! Every integer decodes to an instruction. The two words without operands are compared whole, before any field is
looked at; a wider word with the same low bits is therefore a `sys`. -/

namespace Chip8.Instruction

/-- The logic or arithmetic operation that the lowest nibble of an `8xyn` word selects. -/
def ofOperation (w : Int) (f : Fields) : Instruction :=
  match f.n.val with
  | 0x0 => logic .copy f.x f.y
  | 0x1 => logic .or f.x f.y
  | 0x2 => logic .and f.x f.y
  | 0x3 => logic .xor f.x f.y
  | 0x4 => arith .add f.x f.y
  | 0x5 => arith .sub f.x f.y
  | 0x6 => arith .shr f.x f.y
  | 0x7 => arith .subn f.x f.y
  | 0xE => arith .shl f.x f.y
  | _ => illegal (Word.low16 w)

/-- The timer, key and memory instructions that the low byte of an `Fxnn` word selects. -/
def ofSelector (w : Int) (f : Fields) : Instruction :=
  match f.nn.toNat with
  | 0x07 => getDelay f.x
  | 0x0A => waitKey f.x
  | 0x15 => setDelay f.x
  | 0x18 => setSound f.x
  | 0x1E => addIndex f.x
  | 0x29 => ldGlyph f.x
  | 0x33 => storeDecimal f.x
  | 0x55 => storeRegisters f.x
  | 0x65 => loadRegisters f.x
  | _ => illegal (Word.low16 w)

def ofFields (w : Int) (f : Fields) : Instruction :=
  match f.opcode.val with
  | 0x0 => sys f.nnn
  | 0x1 => jp f.nnn
  | 0x2 => call f.nnn
  | 0x3 => seByte f.x f.nn
  | 0x4 => sneByte f.x f.nn
  | 0x5 => if f.n.val = 0 then seReg f.x f.y else illegal (Word.low16 w)
  | 0x6 => ldByte f.x f.nn
  | 0x7 => addByte f.x f.nn
  | 0x8 => ofOperation w f
  | 0x9 => if f.n.val = 0 then sneReg f.x f.y else illegal (Word.low16 w)
  | 0xA => ldIndex f.nnn
  | 0xB => jpOffset f.nnn
  | 0xC => rnd f.x f.nn
  | 0xD => drw f.x f.y f.n
  | 0xE =>
    if f.nn = 0x9E then skp f.x
    else if f.nn = 0xA1 then sknp f.x
    else illegal (Word.low16 w)
  | _ => ofSelector w f

def decode (w : Int) : Instruction :=
  if w = 0x00E0 then cls
  else if w = 0x00EE then ret
  else ofFields w (Word.fields w)

end Chip8.Instruction
