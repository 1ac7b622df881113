import Chip8.Proofs.CallStack
import Chip8.Proofs.Encoding

/-! The address that a step leads to, read off the bits of the word that is executed. -/

namespace Chip8.Machine

def skipHolds (m : Machine) (w : UInt16) : Bool :=
  let x := m.reg (Nibble.ofNat (w.toNat / 256))
  let y := m.reg (Nibble.ofNat (w.toNat / 16))
  let n := w.toNat % 16
  let nn := w.toNat % 256
  match w.toNat / 4096 with
  | 0x3 => x.toNat = nn
  | 0x4 => x.toNat ≠ nn
  | 0x5 => n = 0 ∧ x = y
  | 0x9 => n = 0 ∧ x ≠ y
  | 0xE =>
    nn = 0x9E ∧ m.isDown (Nibble.ofNat x.toNat) = true ∨
      nn = 0xA1 ∧ m.isDown (Nibble.ofNat x.toNat) = false
  | _ => false

def onward (m : Machine) (w : UInt16) : Nat :=
  if m.skipHolds w then (m.pc.toNat + 4) % 4096 else (m.pc.toNat + 2) % 4096

/-- The slot of the last return address. A pointer beyond the slots means the last of them. -/
def lastSlot (m : Machine) : Nibble :=
  ⟨min (m.stack.pointer.toInt.toNat - 1) 15, by omega⟩

/-- The address that the bits of a word lead to. The highest nibble selects the family of the instruction and
the lower ones are its operands. -/
def nextAddress (m : Machine) (w : UInt16) : Nat :=
  let nn := w.toNat % 256
  let nnn := w.toNat % 4096
  match w.toNat / 4096 with
  | 0x0 => if w.toNat = 0x00EE then (m.stack.data.get m.lastSlot).toNat else m.onward w
  | 0x1 | 0x2 => nnn
  | 0xB => nnn + (m.reg Nibble.zero).toNat
  | 0xF => if nn = 0x0A ∧ ∀ k, m.isDown k = false then m.pc.toNat else m.onward w
  | _ => m.onward w

theorem following_following_toNat (pc : UInt16) :
    (following (following pc)).toNat = (pc.toNat + 4) % 4096 := by
  rw [following_toNat, following_toNat]
  omega

variable {m : Machine} {w : UInt16} {i : Instruction}

theorem skipHolds_eq (word : w.toNat = i.encode) (faultless : m.fault? i = none) :
    m.skipHolds w = m.skips i := by
  unfold skipHolds
  rw [word]
  cases i with
  | illegal w =>
    -- The bits could be those of a skip but for the lowest nibble or byte.
    cases faultless
  | seByte x b | sneByte x b | seReg x y | sneReg x y =>
    simp [Instruction.encode, skips, Nibble.zero, Bool.beq_eq_decide_eq, bne, UInt8.toNat_inj]
  | _ => simp [Instruction.encode, skips, namedKey]

theorem toNat_onward (skips : m.skipHolds w = m.skips i) :
    (if m.advance.skips i then following m.advance.pc else m.advance.pc).toNat = m.onward w := by
  have same : m.advance.skips i = m.skips i := by cases i <;> rfl
  have behind : m.advance.pc = following m.pc := rfl
  rw [onward, skips, same, behind]
  cases m.skips i with
  | true => exact following_following_toNat m.pc
  | false => exact following_toNat m.pc

theorem perform_pc_toNat (word : w.toNat = i.encode) (pc : m.pc.toNat ≤ 0xFFF)
    (faultless : m.fault? i = none) : (m.advance.perform i).pc.toNat = m.nextAddress w := by
  have onwards := toNat_onward (skipHolds_eq word faultless)
  rw [perform_pc, nextAddress, word]
  cases i with
  | sys a | illegal w => cases faultless
  | ret =>
    have nonempty : m.stack.isEmpty = false := by simpa [fault?] using faultless
    exact congrArg UInt16.toNat (CallStack.top_eq nonempty)
  | jp a | call a =>
    simp only [Instruction.encode, Word.ofAddress_family, Word.ofAddress_address, UInt16.toNat_ofNat']
    omega
  | jpOffset a =>
    have target : 0x200 ≤ m.offsetTarget a ∧ m.offsetTarget a ≤ 0xFFF := by
      simpa [fault?] using faultless
    have sum : m.offsetTarget a = a.val + (m.reg Nibble.zero).toNat := rfl
    have same : m.advance.offsetTarget a = m.offsetTarget a := rfl
    simp only [Instruction.encode, Word.ofAddress_family, Word.ofAddress_address, UInt16.toNat_ofNat',
      same, ← sum]
    omega
  | waitKey x =>
    have same : m.advance.pressedKey? = m.pressedKey? := rfl
    have back : (m.advance.pc - 2) % 4096 = m.pc := following_sub_two pc
    simp only [Instruction.encode, Word.ofByte_family, Word.ofByte_byte, same, back,
      ← pressedKey?_eq_none_iff]
    cases key : m.pressedKey? with
    | some k => simpa [skips] using onwards
    | none => rfl
  | _ => simpa [Instruction.encode] using onwards

/-- A step without a fault leads to the address that the word at the program counter names. -/
theorem step_pc_eq_nextAddress (m : Machine) (running : m.error = 0) (free : m.awaitingKey = false)
    (pc : m.pc.toNat ≤ 0xFFF) (faultless : m.step.error = 0) :
    m.step.pc.toNat = m.nextAddress m.currentWord := by
  obtain ⟨faultless, step⟩ := step_of_faultless running free faultless
  rw [step]
  exact perform_pc_toNat (Instruction.encode_decode m.currentWord).symm pc faultless

/-- A skip in the last byte of memory, whose word ends in the first one, leads back to the start. -/
theorem last_skip_wraps :
    let m : Machine := { Machine.initial ⟨0, 0⟩ with
      memory := Memory.zero.write 0xFFF [0x30], pc := 0xFFF }
    m.step.error = 0 ∧ m.step.pc.toNat = 3 := by
  intro m
  have faultless : m.step.error = 0 := by decide +kernel
  have next : m.nextAddress m.currentWord = 3 := by decide +kernel
  exact ⟨faultless, (step_pc_eq_nextAddress m rfl rfl (by decide) faultless).trans next⟩

end Chip8.Machine
