import Chip8.Machine.Drawing
import Chip8.Machine.Flow
import Chip8.Machine.Registers
import Chip8.Machine.Transfer
import Chip8.Range

/-! Execution. The effect of one instruction. Faults are recorded and nothing is taken back. -/

namespace Chip8.Machine

def perform (m : Machine) : Instruction → Machine
  | .cls => m.clear
  | .ret => m.ret
  | .sys _ => m.failIf true .illegalInstruction
  | .jp a => m.jump a
  | .call a => m.call a
  | .seByte x b => m.skipIf (m.reg x == b)
  | .sneByte x b => m.skipIf (m.reg x != b)
  | .seReg x y => m.skipIf (m.reg x == m.reg y)
  | .ldByte x b => m.setRegister x b
  | .addByte x b => m.addByte x b
  | .logic op x y => m.logic op x y
  | .arith op x y => m.arith op x y
  | .sneReg x y => m.skipIf (m.reg x != m.reg y)
  | .ldIndex a => { m with index := UInt16.ofNat a.val }
  | .jpOffset a => m.jumpOffset a
  | .rnd x mask => m.random x mask
  | .drw x y rows => m.draw x y rows
  | .skp x => m.skipIfKey x true
  | .sknp x => m.skipIfKey x false
  | .getDelay x => m.setRegister x m.delayTimer
  | .waitKey x => m.waitKey x
  | .setDelay x => { m with delayTimer := m.reg x }
  | .setSound x => { m with soundTimer := m.reg x }
  | .addIndex x => m.addIndex x
  | .ldGlyph x => m.ldGlyph x
  | .storeDecimal x => m.storeDecimal x
  | .storeRegisters x => m.storeRegisters x
  | .loadRegisters x => m.loadRegisters x
  | .illegal _ => m.failIf true .illegalInstruction

def execute (m : Machine) (w : Int) : Machine :=
  m.perform (Instruction.decode w)

/-- The effects of several words, all of which must fit in thirty-two signed bits. -/
def executeAll (m : Machine) (ws : List Int) : Except Error Machine :=
  ws.foldlM (fun m w => do return m.execute (← fitInt32 w)) m

end Chip8.Machine
