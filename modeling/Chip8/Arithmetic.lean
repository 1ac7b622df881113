import Chip8.Instruction
import Chip8.TwosComplement

/-! What the two-register operations compute. The operations are defined on integers. Sums, differences and left
shifts are reduced to a byte; the right shift and the logic operations need no reduction on bytes and get none. -/

namespace Chip8

namespace Logic

def eval : Logic → Int → Int → Int
  | copy, _, b => b
  | or, a, b => TwosComplement.or a b
  | and, a, b => TwosComplement.and a b
  | xor, a, b => TwosComplement.xor a b

end Logic

namespace Arith

/-- The result and the flag. A sum carries above 255; a difference has its flag set when the first
number taken is the larger one; a shift has the bit shifted out, bit 0 or bit 7. -/
def eval : Arith → Int → Int → Int × Bool
  | add, a, b => ((a + b) % 256, decide (a + b > 0xFF))
  | sub, a, b => ((a - b) % 256, decide (a > b))
  | shr, a, _ => (a / 2, decide (a % 2 = 1))
  | subn, a, b => ((b - a) % 256, decide (b > a))
  | shl, a, _ => (a * 2 % 256, decide (a / 128 % 2 = 1))

end Arith
end Chip8
