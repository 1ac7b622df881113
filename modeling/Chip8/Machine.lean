import Chip8.CallStack
import Chip8.Memory
import Chip8.Random
import Chip8.Switches

/-! The machine. Everything that a program can observe or change, and the configuration flag `strict`. A machine with
a nonzero `error` is halted. A machine that is `awaitingKey` neither fetches nor advances until a key is down; the
key's number then goes to register `keyRegister`. -/

namespace Chip8

abbrev Registers := Bank UInt8 16

structure Machine where
  key : Key
  memory : Memory := Memory.zero
  pc : UInt16 := 0x200
  display : Display := Bitmap.blank
  stack : CallStack := {}
  delayTimer : UInt8 := 0
  soundTimer : UInt8 := 0
  keypad : Keypad := Bank.fill false
  registers : Registers := Bank.fill 0
  /-- The index register, an address. -/
  index : UInt16 := 0
  awaitingKey : Bool := false
  keyRegister : UInt8 := 0
  /-- Raised when the display is cleared or drawn on; a host lowers it. -/
  drawFlag : Bool := false
  /-- The code of the recorded fault, or zero. -/
  error : UInt8 := 0
  /-- Whether arithmetic that reports a flag refuses the flag register as an operand. -/
  strict : Bool := true
  deriving DecidableEq

namespace Machine

/-- The machine at power-on: all zero but for the program counter and the glyph table. -/
def initial (key : Key) (strict : Bool := true) : Machine where
  key := key
  memory := Memory.zero.write fontStart glyphs
  strict := strict

/-- Records a fault if the condition holds and none is recorded yet. -/
def failIf (m : Machine) (c : Bool) (f : Fault) : Machine :=
  if m.error = 0 && c then { m with error := f.code } else m

theorem failIf_eq (m : Machine) (c : Bool) (f : Fault) :
    m.failIf c f = { m with error := if m.error = 0 ∧ c = true then f.code else m.error } := by
  by_cases h : m.error = 0 ∧ c = true
  · rw [if_pos h, failIf, if_pos (by simp [h])]
  · rw [if_neg h, failIf, if_neg (by simpa using h)]

/-- As `failIf`, with a code in place of the fault. The code zero records nothing. -/
def failWithCode (m : Machine) (c : Bool) (code : Int) : Except Error Machine := do
  match ← Fault.recorded code with
  | some f => return m.failIf c f
  | none => return m

def recordedFault (m : Machine) : Except Error (Option Fault) :=
  Fault.recorded m.error.toNat

def reg (m : Machine) (x : Nibble) : UInt8 :=
  m.registers.get x

def setRegister (m : Machine) (x : Nibble) (b : UInt8) : Machine :=
  { m with registers := m.registers.set x b }

theorem reg_setRegister (m : Machine) (x y : Nibble) (b : UInt8) :
    (m.setRegister x b).reg y = if x = y then b else m.reg y :=
  Bank.get_set m.registers x y b

def following (pc : UInt16) : UInt16 :=
  (pc + 2) % 4096

/-- The word of two bytes at the program counter, the first byte being the high one. -/
def currentWord (m : Machine) : UInt16 :=
  (m.memory.read m.pc.toNat).toUInt16 * 256 +
    (m.memory.read ((m.pc.toNat + 1) % 4096)).toUInt16

def report (m : Machine) (f : Fault) : FaultReport where
  cause := some f
  pc := m.pc.toNat
  word := m.currentWord.toNat

def raise (m : Machine) : Except Error Unit := do
  match ← m.recordedFault with
  | some f => throw (.fault (m.report f))
  | none => return ()

def setKeys (m : Machine) (keys : Switches) : Except Error Machine := do
  return { m with keypad := ← keys.toKeypad }

def setMemory (m : Machine) (memory : Memory) : Machine :=
  { m with memory := memory }

section setMemory

variable (m : Machine) (memory : Memory)

@[simp] theorem setMemory_memory : (m.setMemory memory).memory = memory := by rfl

@[simp] theorem setMemory_key : (m.setMemory memory).key = m.key := by rfl

@[simp] theorem setMemory_pc : (m.setMemory memory).pc = m.pc := by rfl

@[simp] theorem setMemory_stack : (m.setMemory memory).stack = m.stack := by rfl

@[simp] theorem setMemory_index : (m.setMemory memory).index = m.index := by rfl

@[simp] theorem setMemory_awaitingKey : (m.setMemory memory).awaitingKey = m.awaitingKey := by rfl

@[simp] theorem setMemory_keyRegister : (m.setMemory memory).keyRegister = m.keyRegister := by rfl

@[simp] theorem setMemory_error : (m.setMemory memory).error = m.error := by rfl

@[simp] theorem setMemory_registers : (m.setMemory memory).registers = m.registers := by rfl

@[simp] theorem setMemory_display : (m.setMemory memory).display = m.display := by rfl

@[simp] theorem setMemory_drawFlag : (m.setMemory memory).drawFlag = m.drawFlag := by rfl

@[simp] theorem setMemory_soundTimer : (m.setMemory memory).soundTimer = m.soundTimer := by rfl

@[simp] theorem setMemory_strict : (m.setMemory memory).strict = m.strict := by rfl

@[simp] theorem setMemory_setMemory (memory' : Memory) :
    (m.setMemory memory).setMemory memory' = m.setMemory memory' := by rfl

end setMemory

def setKey (m : Machine) (key : Int) (down : Bool) : Except Error Machine :=
  match Nibble.ofInt? key with
  | some k => .ok { m with keypad := m.keypad.set k down }
  | none => .error (.noSuchKey key)

def lowerDrawFlag (m : Machine) : Machine :=
  { m with drawFlag := false }

def isDown (m : Machine) (k : Nibble) : Bool :=
  m.keypad.get k

def pressedKey? (m : Machine) : Option Nibble :=
  Nibble.all.find? m.isDown

end Machine
end Chip8
