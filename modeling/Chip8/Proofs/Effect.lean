import Chip8.Machine.Execute

/-! What an instruction does to each field of a machine, and the fault that stands in its way. Later
modules go through these statements and leave the instructions closed. -/

namespace Chip8

def Fault.when (f : Fault) (c : Bool) : Option Fault :=
  if c then some f else none

@[simp] theorem Fault.when_eq_none (f : Fault) (c : Bool) : f.when c = none ↔ c = false := by
  cases c <;> simp [Fault.when]

@[simp] theorem Fault.when_eq_some (f g : Fault) (c : Bool) : f.when c = some g ↔ c = true ∧ f = g := by
  cases c <;> simp [Fault.when]

theorem flag_le_one (c : Bool) : c.toUInt8 ≤ 1 := by
  cases c <;> decide

theorem flag_eq_one_iff {c : Bool} : c.toUInt8 = 1 ↔ c = true := by
  cases c <;> decide

theorem flag_eq_zero_iff {c : Bool} : c.toUInt8 = 0 ↔ c = false := by
  cases c <;> decide

theorem toNat_flag (c : Bool) : c.toUInt8.toNat = if c then 1 else 0 := by
  cases c <;> rfl

def Instruction.draws : Instruction → Bool
  | .cls | .drw .. => true
  | _ => false

namespace Machine

theorem following_toNat (pc : UInt16) : (following pc).toNat = (pc.toNat + 2) % 4096 := by
  simp only [following, UInt16.toNat_mod, UInt16.toNat_add, UInt16.reduceToNat]
  omega

theorem following_le (pc : UInt16) : (following pc).toNat ≤ 0xFFF := by
  rw [following_toNat]
  omega

theorem following_sub_two {pc : UInt16} (h : pc.toNat ≤ 0xFFF) : (following pc - 2) % 4096 = pc := by
  apply UInt16.toNat_inj.mp
  simp only [UInt16.toNat_mod, UInt16.toNat_sub, following_toNat, UInt16.reduceToNat]
  omega

/-- The fault that an instruction meets. A call finds a full stack before it finds a bad target. -/
def fault? (m : Machine) : Instruction → Option Fault
  | .ret => Fault.stackUnderflow.when m.stack.isEmpty
  | .sys _ | .illegal _ => some .illegalInstruction
  | .jp a => Fault.invalidJumpTarget.when (a.val < programStart)
  | .call a =>
    (Fault.stackOverflow.when m.stack.isFull).or (Fault.invalidJumpTarget.when (a.val < programStart))
  | .jpOffset a =>
    Fault.invalidJumpTarget.when (m.offsetTarget a < programStart || addressMask < m.offsetTarget a)
  | .arith _ x y =>
    Fault.flagRegisterOperand.when (m.strict && (x == flagRegister || y == flagRegister))
  | .skp x | .sknp x | .ldGlyph x => Fault.invalidRegisterValue.when (15 < m.reg x)
  | .addIndex x => Fault.addressOverflow.when (addressMask < m.index.toNat + (m.reg x).toNat)
  | .storeDecimal _ => Fault.addressOutOfRange.when (outsideProgram m.index.toNat 2)
  | .storeRegisters x => Fault.addressOutOfRange.when (outsideProgram m.index.toNat x.val)
  | .loadRegisters x => Fault.addressOverflow.when (addressMask < m.index.toNat + x.val)
  | _ => none

def skips (m : Machine) : Instruction → Bool
  | .seByte x b => m.reg x == b
  | .sneByte x b => m.reg x != b
  | .seReg x y => m.reg x == m.reg y
  | .sneReg x y => m.reg x != m.reg y
  | .skp x => m.isDown (m.namedKey x) == true
  | .sknp x => m.isDown (m.namedKey x) == false
  | _ => false

theorem failIf_of_not {m : Machine} {c : Bool} (h : c = false) (f : Fault) : m.failIf c f = m := by
  simp [failIf, h]

theorem failIf_error (m : Machine) (c : Bool) (f : Fault) :
    (m.failIf c f).error = if m.error = 0 then Fault.codeOf (f.when c) else m.error := by
  cases c <;> by_cases h : m.error = 0 <;> simp [failIf_eq, Fault.when, Fault.codeOf, h]

theorem skipIf_eq (m : Machine) (c : Bool) :
    m.skipIf c = { m with pc := if c then following m.pc else m.pc } := by
  cases c <;> simp [skipIf]

theorem pressedKey?_eq_none_iff {m : Machine} : m.pressedKey? = none ↔ ∀ k, m.isDown k = false := by
  simp [pressedKey?, Nibble.all]

theorem waitKey_eq (m : Machine) (x : Nibble) :
    m.waitKey x = { m with
      registers := match m.pressedKey? with
        | some k => m.registers.set x (UInt8.ofNat k.val)
        | none => m.registers
      pc := if m.pressedKey?.isSome then m.pc else (m.pc - 2) % 4096
      awaitingKey := m.pressedKey?.isNone || m.awaitingKey
      keyRegister := if m.pressedKey?.isSome then m.keyRegister else UInt8.ofNat x.val } := by
  unfold waitKey
  cases m.pressedKey? <;> simp [setRegister]

section Fields

attribute [local simp] perform clear draw ret jump call jumpOffset skipIf_eq skipIfKey setRegister
  addByte logic arith random addIndex ldGlyph storeDecimal storeRegisters loadRegisters waitKey_eq
  failIf_eq

variable (m : Machine) (i : Instruction)

/-- An instruction records its fault unless one is recorded already. -/
theorem perform_error : (m.perform i).error =
    if m.error = 0 then Fault.codeOf (m.fault? i) else m.error := by
  cases i with
  | call a =>
    simp only [perform, call, jump, fault?, failIf_error]
    cases m.stack.isFull <;> by_cases h : m.error = 0 <;>
      simp [h, Fault.when, Fault.codeOf, Fault.code_ne_zero]
  | sys a => simp [failIf_error, fault?, Fault.when, -failIf_eq]
  | illegal w => simp [failIf_error, fault?, Fault.when, -failIf_eq]
  | _ => simp [failIf_error, fault?, Fault.codeOf, -failIf_eq]

theorem perform_pc : (m.perform i).pc = match i with
    | .ret => m.stack.top
    | .jp a | .call a => UInt16.ofNat a.val
    | .jpOffset a => UInt16.ofNat (m.offsetTarget a % 4096)
    | .waitKey _ => if m.pressedKey?.isSome then m.pc else (m.pc - 2) % 4096
    | i => if m.skips i then following m.pc else m.pc := by
  cases i <;> simp [skips]

theorem perform_stack : (m.perform i).stack = match i with
    | .call _ => m.stack.push m.pc.toNat
    | .ret => m.stack.pop
    | _ => m.stack := by
  cases i <;> simp

theorem perform_memory : (m.perform i).memory = match i with
    | .storeDecimal x => m.memory.write m.index.toNat (decimalDigits (m.reg x))
    | .storeRegisters x => m.memory.write m.index.toNat (m.registers.toList.take (x.val + 1))
    | _ => m.memory := by
  cases i <;> simp

theorem perform_index : (m.perform i).index = match i with
    | .ldIndex a => UInt16.ofNat a.val
    | .addIndex x => UInt16.ofNat ((m.index.toNat + (m.reg x).toNat) % 4096)
    | .ldGlyph x => UInt16.ofNat (fontStart + (m.reg x).toNat % 16 * glyphSize)
    | _ => m.index := by
  cases i <;> simp

theorem perform_awaitingKey : (m.perform i).awaitingKey = match i with
    | .waitKey _ => m.pressedKey?.isNone || m.awaitingKey
    | _ => m.awaitingKey := by
  cases i <;> simp

theorem perform_keyRegister : (m.perform i).keyRegister = match i with
    | .waitKey x => if m.pressedKey?.isSome then m.keyRegister else UInt8.ofNat x.val
    | _ => m.keyRegister := by
  cases i <;> simp

theorem perform_registers : (m.perform i).registers = match i with
    | .ldByte x b => m.registers.set x b
    | .addByte x b => m.registers.set x (m.reg x + b)
    | .logic op x y => m.registers.set x (UInt8.ofInt (op.eval (m.reg x).toNat (m.reg y).toNat))
    | .arith op x y =>
      let r := op.eval (m.reg x).toNat (m.reg y).toNat
      (m.registers.set x (UInt8.ofInt r.1)).set flagRegister r.2.toUInt8
    | .rnd x mask => m.registers.set x (m.key.sub.byte &&& mask)
    | .drw x y rows => m.registers.set flagRegister (m.display.overlaps (m.sprite x y rows)).toUInt8
    | .getDelay x => m.registers.set x m.delayTimer
    | .waitKey x =>
      match m.pressedKey? with
      | some k => m.registers.set x (UInt8.ofNat k.val)
      | none => m.registers
    | .loadRegisters x =>
      Bank.ofFn fun i => if i ≤ x then m.memory.readOrZero (m.index.toNat + i.val) else m.reg i
    | _ => m.registers := by
  cases i <;> simp [reg]

theorem perform_key : (m.perform i).key = match i with
    | .rnd .. => m.key.next
    | _ => m.key := by
  cases i <;> simp

theorem perform_delayTimer : (m.perform i).delayTimer = match i with
    | .setDelay x => m.reg x
    | _ => m.delayTimer := by
  cases i <;> simp

theorem perform_keypad : (m.perform i).keypad = m.keypad := by
  cases i <;> simp

theorem perform_strict : (m.perform i).strict = m.strict := by
  cases i <;> simp

theorem perform_soundTimer : (m.perform i).soundTimer = match i with
    | .setSound x => m.reg x
    | _ => m.soundTimer := by
  cases i <;> simp

theorem perform_display : (m.perform i).display = match i with
    | .cls => Bitmap.blank
    | .drw x y rows => m.display.xor (m.sprite x y rows)
    | _ => m.display := by
  cases i <;> simp

theorem perform_drawFlag : (m.perform i).drawFlag = (i.draws || m.drawFlag) := by
  cases i <;> simp [Instruction.draws]

end Fields

section Faultless

variable {m : Machine} {i : Instruction}

/-- Where an instruction can lead: back to a caller, to a jump target, onwards, past the next
instruction, or back onto itself to wait for a key. -/
theorem perform_pc_cases (free : m.fault? i = none) :
    (m.stack.isEmpty = false ∧ (m.perform i).pc = m.stack.top) ∨
    (0x200 ≤ (m.perform i).pc.toNat ∧ (m.perform i).pc.toNat ≤ 0xFFF) ∨
    (m.perform i).pc = m.pc ∨ (m.perform i).pc = following m.pc ∨
    (m.perform i).awaitingKey = true ∧ (m.perform i).pc = (m.pc - 2) % 4096 := by
  rw [perform_pc]
  cases i with
  | ret => exact .inl ⟨by simpa [fault?] using free, rfl⟩
  | jp a =>
    have target : 0x200 ≤ a.val := by simpa [fault?] using free
    exact .inr (.inl (by simp; omega))
  | call a =>
    have target : 0x200 ≤ a.val := by simp [fault?] at free; exact free.2
    exact .inr (.inl (by simp; omega))
  | jpOffset a =>
    have target : 0x200 ≤ m.offsetTarget a ∧ m.offsetTarget a ≤ 0xFFF := by
      simpa [fault?] using free
    exact .inr (.inl (by simp; omega))
  | waitKey x =>
    rw [perform_awaitingKey]
    cases m.pressedKey? with
    | some k => exact .inr (.inr (.inl rfl))
    | none => exact .inr (.inr (.inr (.inr ⟨rfl, rfl⟩)))
  | _ =>
    dsimp only
    split
    · exact .inr (.inr (.inr (.inl rfl)))
    · exact .inr (.inr (.inl rfl))

theorem perform_pc_of_waiting (free : m.awaitingKey = false)
    (waits : (m.perform i).awaitingKey = true) : (m.perform i).pc = (m.pc - 2) % 4096 := by
  rw [perform_awaitingKey] at waits
  rw [perform_pc]
  cases i with
  | waitKey x =>
    have none : m.pressedKey?.isSome = false := by simpa [free] using waits
    simp [none]
  | _ => simp [free] at waits

/-- A call pushes where there is room, a return pops where there is a caller, and nothing else
touches the stack. -/
theorem perform_stack_cases (free : m.fault? i = none) :
    (m.stack.isFull = false ∧ (m.perform i).stack = m.stack.push m.pc.toNat) ∨
    (m.stack.isEmpty = false ∧ (m.perform i).stack = m.stack.pop) ∨
    (m.perform i).stack = m.stack := by
  rw [perform_stack]
  cases i with
  | call a => exact .inl ⟨by simp [fault?] at free; exact free.1, rfl⟩
  | ret => exact .inr (.inl ⟨by simpa [fault?] using free, rfl⟩)
  | _ => exact .inr (.inr rfl)

theorem perform_memory_below (free : m.fault? i = none) {a : Nat} (low : a < 0x200) :
    (m.perform i).memory.readOrZero a = m.memory.readOrZero a := by
  rw [perform_memory]
  cases i with
  | storeDecimal x | storeRegisters x =>
    have inside : 0x200 ≤ m.index.toNat := by
      simp [fault?, outsideProgram] at free
      exact free.1
    rw [Memory.readOrZero_write, if_neg (by omega)]
  | _ => rfl

end Faultless

end Machine
end Chip8
