import Chip8.Machine
import Chip8.Range

/-! A program is a list of bytes. Loading one fills the program region, with zeros behind the program, and writes the
glyph table again. -/

namespace Chip8

abbrev Program := List UInt8

def Program.ofInts (entries : List Int) : Except Error Program :=
  match entries.mapM byte? with
  | some p => .ok p
  | none => .error .byteRange

namespace Machine

def loaded (m : Machine) (p : Program) : Machine :=
  let region := p ++ List.replicate (programCapacity - p.length) 0
  m.setMemory ((m.memory.write programStart region).write fontStart glyphs)

section loaded

variable (m : Machine) (p : Program)

@[simp] theorem loaded_key : (m.loaded p).key = m.key := by
  simp [loaded]

@[simp] theorem loaded_pc : (m.loaded p).pc = m.pc := by
  simp [loaded]

@[simp] theorem loaded_stack : (m.loaded p).stack = m.stack := by
  simp [loaded]

@[simp] theorem loaded_index : (m.loaded p).index = m.index := by
  simp [loaded]

@[simp] theorem loaded_awaitingKey : (m.loaded p).awaitingKey = m.awaitingKey := by
  simp [loaded]

@[simp] theorem loaded_keyRegister : (m.loaded p).keyRegister = m.keyRegister := by
  simp [loaded]

@[simp] theorem loaded_error : (m.loaded p).error = m.error := by
  simp [loaded]

@[simp] theorem loaded_registers : (m.loaded p).registers = m.registers := by
  simp [loaded]

@[simp] theorem loaded_display : (m.loaded p).display = m.display := by
  simp [loaded]

@[simp] theorem loaded_drawFlag : (m.loaded p).drawFlag = m.drawFlag := by
  simp [loaded]

@[simp] theorem loaded_soundTimer : (m.loaded p).soundTimer = m.soundTimer := by
  simp [loaded]

@[simp] theorem loaded_strict : (m.loaded p).strict = m.strict := by
  simp [loaded]

theorem loaded_eq_setMemory : m.loaded p = m.setMemory (m.loaded p).memory := by
  rw [loaded, setMemory_memory]

end loaded

def load (m : Machine) (p : Program) : Except Error Machine :=
  if programCapacity < p.length then .error (.programTooLarge p.length)
  else .ok (m.loaded p)

theorem load_eq_ok (m : Machine) {p : Program} (fits : p.length ≤ programCapacity) :
    m.load p = .ok (m.loaded p) :=
  if_neg (Nat.not_lt.mpr fits)

def loadFile (m : Machine) : Option Program → Except Error Machine
  | some p => m.load p
  | none => .error .missingFile

/-- The machine at power-on with the same key and strictness, and with a program if one is given. -/
def reset (m : Machine) (p : Option Program := none) : Except Error Machine :=
  match p with
  | some p => (initial m.key m.strict).load p
  | none => .ok (initial m.key m.strict)

end Machine
end Chip8
