import Chip8.Proofs.Step

/-! The faults of a running program, read off the bits of the word that is executed, and the rollback:
an instruction at fault changes nothing but the recorded fault. -/

namespace Chip8

open Fault

namespace Machine

def operationFault (m : Machine) (x y : Nibble) (n : Nat) : Option Fault :=
  if n ≤ 0x3 then none
  else if n ∈ [0x4, 0x5, 0x6, 0x7, 0xE] then
    flagRegisterOperand.when (m.strict && (x.val = 0xF || y.val = 0xF))
  else some illegalInstruction

def selectorFault (m : Machine) (x : Nibble) (nn : Nat) : Option Fault :=
  match nn with
  | 0x07 | 0x0A | 0x15 | 0x18 => none
  | 0x1E => addressOverflow.when (0xFFF < m.index.toNat + (m.reg x).toNat)
  | 0x29 => invalidRegisterValue.when (0xF < (m.reg x).toNat)
  | 0x33 => addressOutOfRange.when (m.index.toNat < 0x200 || 0xFFF < m.index.toNat + 2)
  | 0x55 => addressOutOfRange.when (m.index.toNat < 0x200 || 0xFFF < m.index.toNat + x.val)
  | 0x65 => addressOverflow.when (0xFFF < m.index.toNat + x.val)
  | _ => some illegalInstruction

/-- The fault that the bits of a word announce. The highest nibble selects the family of the
instruction and the lower ones are its operands. -/
def faultOf (m : Machine) (w : UInt16) : Option Fault :=
  let x := Nibble.ofNat (w.toNat / 256)
  let y := Nibble.ofNat (w.toNat / 16)
  let n := w.toNat % 16
  let nn := w.toNat % 256
  let nnn := w.toNat % 4096
  match w.toNat / 4096 with
  | 0x0 =>
    if w = 0x00E0 then none
    else if w = 0x00EE then stackUnderflow.when (m.stack.pointer.toInt ≤ 0)
    else some illegalInstruction
  | 0x1 => invalidJumpTarget.when (nnn < 0x200)
  | 0x2 =>
    if 16 ≤ m.stack.pointer.toInt then some stackOverflow
    else invalidJumpTarget.when (nnn < 0x200)
  | 0x5 | 0x9 => if n = 0 then none else some illegalInstruction
  | 0x8 => m.operationFault x y n
  | 0xB => invalidJumpTarget.when (nnn + (m.reg 0).toNat < 0x200 || 0xFFF < nnn + (m.reg 0).toNat)
  | 0xE =>
    if nn = 0x9E ∨ nn = 0xA1 then invalidRegisterValue.when (0xF < (m.reg x).toNat)
    else some illegalInstruction
  | 0xF => m.selectorFault x nn
  | _ => none

theorem byte_natCast (n : Nat) : UInt8.ofInt (n : Int) = UInt8.ofNat n := by
  apply UInt8.toNat_inj.mp
  simp only [UInt8.ofInt, UInt8.toNat_ofNat']
  omega

theorem fields_natCast (w : UInt16) : Word.fields w.toNat =
    { raw := w.toNat
      opcode := Nibble.ofNat (w.toNat / 4096)
      x := Nibble.ofNat (w.toNat / 256)
      y := Nibble.ofNat (w.toNat / 16)
      n := Nibble.ofNat w.toNat
      nn := UInt8.ofNat w.toNat
      nnn := ⟨w.toNat % 4096, Nat.mod_lt _ (by decide)⟩ } := by
  simp only [Word.fields, Word.nibble, Nibble.ofNat, Fields.mk.injEq, Fin.mk.injEq, byte_natCast,
    true_and]
  omega

theorem decode_of_operands {w : UInt16} (cls : w ≠ 0x00E0) (ret : w ≠ 0x00EE) :
    Instruction.decode w.toNat = Instruction.ofFields w.toNat (Word.fields w.toNat) := by
  have h₁ : (w.toNat : Int) ≠ 0x00E0 := fun h => cls (UInt16.toNat_inj.mp (by simpa using by omega))
  have h₂ : (w.toNat : Int) ≠ 0x00EE := fun h => ret (UInt16.toNat_inj.mp (by simpa using by omega))
  rw [Instruction.decode, if_neg h₁, if_neg h₂]

theorem fifteen_lt_reg (m : Machine) (x : Nibble) : 15 < m.reg x ↔ 15 < (m.reg x).toNat := by
  simp [UInt8.lt_iff_toNat_lt]

theorem fault?_ofOperation (m : Machine) (w : Int) (f : Fields) :
    m.fault? (Instruction.ofOperation w f) = m.operationFault f.x f.y f.n.val := by
  have flag (x : Nibble) : (x == flagRegister) = decide (x.val = 0xF) :=
    Bool.eq_iff_iff.mpr (by simp [flagRegister, Fin.ext_iff])
  unfold Instruction.ofOperation operationFault
  split
  case h_10 =>
    have large : ¬f.n.val ≤ 0x3 := fun h => by simp_all; omega
    have other : f.n.val ∉ [0x4, 0x5, 0x6, 0x7, 0xE] := by simp; simp_all
    rw [if_neg large, if_neg other, fault?]
  all_goals simp [fault?, *]

theorem fault?_ofSelector (m : Machine) (w : Int) (f : Fields) :
    m.fault? (Instruction.ofSelector w f) = m.selectorFault f.x f.nn.toNat := by
  unfold Instruction.ofSelector selectorFault
  split <;> simp [fault?, outsideProgram, fifteen_lt_reg, *]

theorem faultOf_eq (m : Machine) (w : UInt16) :
    m.faultOf w = m.fault? (Instruction.decode w.toNat) := by
  by_cases cls : w = 0x00E0
  · subst cls
    rfl
  by_cases ret : w = 0x00EE
  · subst ret
    rfl
  rw [decode_of_operands cls ret, fields_natCast]
  have bound : w.toNat / 4096 < 16 := by have := w.toNat_lt; omega
  have byte (b : UInt8) : UInt8.ofNat w.toNat = b ↔ w.toNat % 256 = b.toNat := by
    simp [← UInt8.toNat_inj]
  simp only [faultOf, Instruction.ofFields, Nibble.ofNat_val, Nat.mod_eq_of_lt bound]
  generalize w.toNat / 4096 = op at bound
  match op, bound with
  | 0x0, _ => simp [cls, ret, fault?]
  | 0x1, _ | 0x3, _ | 0x4, _ | 0x6, _ | 0x7, _ | 0xA, _ | 0xB, _ | 0xC, _ | 0xD, _ => rfl
  | 0x2, _ =>
    by_cases full : 16 ≤ m.stack.pointer.toInt <;>
      simp [fault?, CallStack.isFull, Fault.when, full]
  | 0x5, _ | 0x9, _ => by_cases zero : w.toNat % 16 = 0 <;> simp [zero, fault?]
  | 0x8, _ => simp only [fault?_ofOperation, Nibble.ofNat_val]
  | 0xE, _ =>
    simp only [byte]
    by_cases skp : w.toNat % 256 = 0x9E
    · simp [skp, fault?, fifteen_lt_reg]
    by_cases sknp : w.toNat % 256 = 0xA1 <;>
      simp [skp, sknp, fault?, fifteen_lt_reg]
  | 0xF, _ => simp only [fault?_ofSelector, UInt8.toNat_ofNat']
  | n + 16, h => omega

/-- An instruction records exactly the fault of the table, and a step that meets a fault records it
and changes nothing else. -/
theorem execute_error_and_rollback :
    (∀ (m : Machine) (w : UInt16), (m.execute w.toNat).error =
      if m.error ≠ 0 then m.error else Fault.codeOf (m.faultOf w)) ∧
    ∀ m : Machine, m.error = 0 → m.awaitingKey = false →
      (∀ f, m.faultOf m.currentWord = some f → m.step = { m with error := f.code }) ∧
      (m.faultOf m.currentWord = none → m.step = m.advance.execute m.currentWord.toNat) := by
  constructor
  · intro m w
    rw [execute, perform_error, faultOf_eq]
    by_cases running : m.error = 0 <;> simp [running]
  · intro m running free
    rw [step_of_running running free, faultOf_eq]
    exact ⟨fun f fault => cycle_of_fault running fault, cycle_of_no_fault running⟩

/-- A call of a low address on a full stack is at fault for the stack. -/
theorem rollback_of_low_call_on_full_stack :
    let m : Machine := { Machine.initial ⟨0, 0⟩ with
      memory := Memory.zero.write 0x200 [0x21, 0x00], stack := { pointer := 16 } }
    m.step = { m with error := 2 } := by
  intro m
  have fault : m.faultOf m.currentWord = some stackOverflow := by decide +kernel
  exact (execute_error_and_rollback.2 m rfl rfl).1 stackOverflow fault

end Machine
end Chip8
