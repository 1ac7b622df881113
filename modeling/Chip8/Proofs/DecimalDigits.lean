import Chip8.Proofs.RegisterBlock

/-! The decimal digits of a register. A store within the program region writes them into three bytes, and a load of
three registers takes them from there, also over the register that they are the digits of. -/

namespace Chip8.Machine

/-- Three decimal digits that make up a byte, the highest first. -/
structure IsDecimal (d₀ d₁ d₂ b : UInt8) : Prop where
  digits : d₀ ≤ 9 ∧ d₁ ≤ 9 ∧ d₂ ≤ 9
  value : 100 * d₀.toNat + 10 * d₁.toNat + d₂.toNat = b.toNat

theorem length_decimalDigits (b : UInt8) : (decimalDigits b).length = 3 := rfl

theorem isDecimal_decimalDigits (b : UInt8) :
    IsDecimal ((decimalDigits b).getD 0 0) ((decimalDigits b).getD 1 0) ((decimalDigits b).getD 2 0) b := by
  have bound := b.toNat_lt
  show IsDecimal (b / 100) (b / 10 % 10) (b % 10) b
  constructor
  · simp only [UInt8.le_iff_toNat_le, UInt8.toNat_div, UInt8.toNat_mod, UInt8.reduceToNat]
    omega
  · simp only [UInt8.toNat_div, UInt8.toNat_mod, UInt8.reduceToNat]
    omega

section Store

variable {m : Machine} {x : Nibble} (region : 0x200 ≤ m.index.toNat) (fits : m.index.toNat ≤ 0xFFD)
include region fits

theorem storeDecimal_of_inside : m.storeDecimal x = m.setMemory
    (m.memory.write m.index.toNat (decimalDigits (m.reg x))) := by
  have inside : outsideProgram m.index.toNat 2 = false := outsideProgram_eq_false.mpr ⟨region, by omega⟩
  rw [storeDecimal, inside, failIf_of_not rfl, setMemory]

theorem readOrZero_storeDecimal {i : Nat} (h : i ≤ 2) :
    (m.storeDecimal x).memory.readOrZero (m.index.toNat + i) = (decimalDigits (m.reg x)).getD i 0 := by
  rw [storeDecimal_of_inside region fits, setMemory_memory, Memory.readOrZero_write, length_decimalDigits,
    if_pos (by omega), Nat.add_sub_cancel_left]

theorem readOrZero_storeDecimal_of_outside {a : Nat} (outside : ¬(m.index.toNat ≤ a ∧ a ≤ m.index.toNat + 2)) :
    (m.storeDecimal x).memory.readOrZero a = m.memory.readOrZero a := by
  rw [storeDecimal_of_inside region fits, setMemory_memory,
    Memory.readOrZero_write_of_outside (by rw [length_decimalDigits]; omega)]

theorem isDecimal_storeDecimal : IsDecimal ((m.storeDecimal x).memory.readOrZero m.index.toNat)
    ((m.storeDecimal x).memory.readOrZero (m.index.toNat + 1))
    ((m.storeDecimal x).memory.readOrZero (m.index.toNat + 2)) (m.reg x) := by
  have first := readOrZero_storeDecimal (x := x) region fits (Nat.zero_le 2)
  rw [Nat.add_zero] at first
  rw [first, readOrZero_storeDecimal region fits (by decide), readOrZero_storeDecimal region fits (by decide)]
  exact isDecimal_decimalDigits (m.reg x)

end Store

theorem execute_storeDecimal (m : Machine) (x : Nibble) :
    m.execute (0xF033 + 0x100 * x.val) = m.storeDecimal x :=
  m.execute_of_word (i := .storeDecimal x) (by simp [Instruction.encode, Word.ofByte]; omega) rfl

/-- The digits of a register are stored in three bytes of the program region and nowhere else. Loaded again they are
the first three registers, and they make up the old value even if it was in one of these. -/
theorem decimal_digits_come_back (m : Machine) (x : Nibble) (region : 0x200 ≤ m.index.toNat)
    (fits : m.index.toNat ≤ 0xFFD) :
    let stored := m.execute (0xF033 + 0x100 * x.val)
    let loaded := stored.execute 0xF265
    stored = { m with memory := stored.memory } ∧
    (∀ a, ¬(m.index.toNat ≤ a ∧ a ≤ m.index.toNat + 2) →
      stored.memory.readOrZero a = m.memory.readOrZero a) ∧
    IsDecimal (stored.memory.readOrZero m.index.toNat) (stored.memory.readOrZero (m.index.toNat + 1))
      (stored.memory.readOrZero (m.index.toNat + 2)) (m.reg x) ∧
    loaded = { stored with registers := loaded.registers } ∧
    (∀ i ≤ 2, loaded.reg i = stored.memory.readOrZero (m.index.toNat + i.val)) ∧
    (∀ i, 2 < i → loaded.reg i = m.reg i) ∧
    100 * (loaded.reg 0).toNat + 10 * (loaded.reg 1).toNat + (loaded.reg 2).toNat = (m.reg x).toNat := by
  intro stored loaded
  have store : stored = m.storeDecimal x := m.execute_storeDecimal x
  have load : loaded = stored.loadRegisters 2 := stored.execute_load 2
  have kept : stored = m.setMemory stored.memory := by
    rw [store, storeDecimal_of_inside region fits, setMemory_memory]
  have index : stored.index = m.index := by rw [kept, setMemory_index]
  have fits' : stored.index.toNat + (2 : Nibble).val ≤ 0xFFF := by
    rw [index]
    exact Nat.add_le_add_right fits 2
  have digits : IsDecimal (stored.memory.readOrZero m.index.toNat)
      (stored.memory.readOrZero (m.index.toNat + 1)) (stored.memory.readOrZero (m.index.toNat + 2)) (m.reg x) :=
    store ▸ isDecimal_storeDecimal region fits
  have taken (i : Nibble) (h : i ≤ 2) : loaded.reg i = stored.memory.readOrZero (m.index.toNat + i.val) := by
    rw [load, reg_loadRegisters fits', if_pos h, index]
  refine ⟨kept, fun a outside => store ▸ readOrZero_storeDecimal_of_outside region fits outside, digits, ?_, taken,
    fun i above => ?_, ?_⟩
  · rw [load, loadRegisters_of_inside fits']
  · rw [load, reg_loadRegisters fits', if_neg (Fin.not_le.mpr above), kept]
    rfl
  · rw [taken 0 (by decide), taken 1 (by decide), taken 2 (by decide)]
    exact digits.value

/-- The last three bytes of memory hold the digits of register 2, which goes to register 2 again as its lowest. -/
theorem last_bytes_hold_digits :
    let m : Machine := { Machine.initial ⟨0, 0⟩ with index := 0xFFD, registers := (Bank.fill 7).set 2 254 }
    let stored := m.execute 0xF233
    let loaded := stored.execute 0xF265
    IsDecimal (stored.memory.readOrZero 0xFFD) (stored.memory.readOrZero 0xFFE) (stored.memory.readOrZero 0xFFF) 254 ∧
      loaded.reg 2 = stored.memory.readOrZero 0xFFF ∧ loaded.reg 3 = 7 ∧
      100 * (loaded.reg 0).toNat + 10 * (loaded.reg 1).toNat + (loaded.reg 2).toNat = 254 := by
  intro m stored loaded
  obtain ⟨-, -, digits, -, taken, others, value⟩ := decimal_digits_come_back m 2 (by decide) (by decide)
  exact ⟨digits, taken 2 (by decide), others 3 (by decide), value⟩

end Chip8.Machine
