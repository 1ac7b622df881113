import Chip8.Proofs.Footprint
import Mathlib.Data.List.GetD

/-! Blocks of registers in memory. A store makes a block out of the first registers and a load makes registers out of
a block, within the bounds of memory to the last byte, so that each undoes the other. -/

namespace Chip8.Machine

variable {m : Machine} {x : Nibble}

def HoldsBlock (m : Machine) (x : Nibble) : Prop :=
  ∀ i ≤ x, m.memory.readOrZero (m.index.toNat + i.val) = m.reg i

theorem getD_take_registers (m : Machine) {i : Nibble} (h : i ≤ x) :
    (m.registers.toList.take (x.val + 1)).getD i.val 0 = m.reg i := by
  have lane : i.val < (m.registers.toList.take (x.val + 1)).length := by
    rw [length_take_registers]
    exact Nat.lt_succ_of_le h
  rw [List.getD_eq_getElem _ _ lane, List.getElem_take, Bank.getElem_toList, reg]

section Store

variable (region : 0x200 ≤ m.index.toNat) (fits : m.index.toNat + x.val ≤ 0xFFF)

include region fits

theorem storeRegisters_of_inside : m.storeRegisters x = m.setMemory
    (m.memory.write m.index.toNat (m.registers.toList.take (x.val + 1))) := by
  have inside : outsideProgram m.index.toNat x.val = false := outsideProgram_eq_false.mpr ⟨region, by omega⟩
  rw [storeRegisters, inside, failIf_of_not rfl, setMemory]

theorem readOrZero_storeRegisters {i : Nibble} (h : i ≤ x) :
    (m.storeRegisters x).memory.readOrZero (m.index.toNat + i.val) = m.reg i := by
  have lane : i.val ≤ x.val := h
  rw [storeRegisters_of_inside region fits, setMemory_memory, Memory.readOrZero_write, length_take_registers,
    if_pos (by omega), Nat.add_sub_cancel_left, getD_take_registers m h]

theorem readOrZero_storeRegisters_of_outside {a : Nat}
    (outside : ¬(m.index.toNat ≤ a ∧ a ≤ m.index.toNat + x.val)) :
    (m.storeRegisters x).memory.readOrZero a = m.memory.readOrZero a := by
  rw [storeRegisters_of_inside region fits, setMemory_memory,
    Memory.readOrZero_write_of_outside (by rw [length_take_registers]; omega)]

/-- A store over a block that holds the registers already puts back what is there. -/
theorem HoldsBlock.storeRegisters_memory (h : m.HoldsBlock x) : (m.storeRegisters x).memory = m.memory := by
  apply Memory.ext_readOrZero
  intro a _
  by_cases inside : m.index.toNat ≤ a ∧ a ≤ m.index.toNat + x.val
  · obtain ⟨k, rfl⟩ : ∃ k, a = m.index.toNat + k := ⟨a - m.index.toNat, by omega⟩
    have lane : (⟨k, by omega⟩ : Nibble) ≤ x := Fin.mk_le_of_le_val (by omega)
    exact (readOrZero_storeRegisters region fits lane).trans (h _ lane).symm
  · exact readOrZero_storeRegisters_of_outside region fits inside

end Store

section Load

variable (fits : m.index.toNat + x.val ≤ 0xFFF)

include fits

theorem loadRegisters_of_inside : m.loadRegisters x = { m with
    registers := Bank.ofFn fun i => if i ≤ x then m.memory.readOrZero (m.index.toNat + i.val) else m.reg i } := by
  rw [loadRegisters, failIf_of_not (by simpa using fits)]

theorem reg_loadRegisters (i : Nibble) : (m.loadRegisters x).reg i =
    if i ≤ x then m.memory.readOrZero (m.index.toNat + i.val) else m.reg i := by
  rw [loadRegisters_of_inside fits, reg, Bank.get_ofFn]

theorem holdsBlock_loadRegisters : (m.loadRegisters x).HoldsBlock x := by
  intro i h
  rw [reg_loadRegisters fits, if_pos h, loadRegisters_of_inside fits]

end Load

theorem execute_store (m : Machine) (x : Nibble) :
    m.execute (0xF055 + 0x100 * x.val) = m.storeRegisters x :=
  m.execute_of_word (i := .storeRegisters x) (by simp [Instruction.encode, Word.ofByte]; omega) rfl

theorem execute_load (m : Machine) (x : Nibble) :
    m.execute (0xF065 + 0x100 * x.val) = m.loadRegisters x :=
  m.execute_of_word (i := .loadRegisters x) (by simp [Instruction.encode, Word.ofByte]; omega) rfl

/-- A store within the program region writes the registers up to `x` and nothing else, and a load after it brings
them back, whatever the registers hold by then. A load from within memory reads the registers up to `x` and changes
nothing else, and a store after it leaves memory as it was. -/
theorem register_blocks_round_trip :
    (∀ (m : Machine) (x : Nibble), 0x200 ≤ m.index.toNat → m.index.toNat + x.val ≤ 0xFFF →
      let stored := m.execute (0xF055 + 0x100 * x.val)
      stored = { m with memory := stored.memory } ∧
      (∀ i ≤ x, stored.memory.readOrZero (m.index.toNat + i.val) = m.reg i) ∧
      (∀ a, ¬(m.index.toNat ≤ a ∧ a ≤ m.index.toNat + x.val) →
        stored.memory.readOrZero a = m.memory.readOrZero a) ∧
      ∀ registers, ∀ i ≤ x,
        ({ stored with registers := registers }.execute (0xF065 + 0x100 * x.val)).reg i = m.reg i) ∧
    ∀ (m : Machine) (x : Nibble), m.index.toNat + x.val ≤ 0xFFF →
      let loaded := m.execute (0xF065 + 0x100 * x.val)
      loaded = { m with registers := loaded.registers } ∧
      (∀ i ≤ x, loaded.reg i = m.memory.readOrZero (m.index.toNat + i.val)) ∧
      (∀ i, x < i → loaded.reg i = m.reg i) ∧
      (0x200 ≤ m.index.toNat → (loaded.execute (0xF055 + 0x100 * x.val)).memory = m.memory) := by
  simp only [execute_store, execute_load]
  constructor
  · intro m x region fits
    have stored := storeRegisters_of_inside region fits
    have index : (m.storeRegisters x).index = m.index := by rw [stored, setMemory_index]
    refine ⟨by rw [stored, setMemory], fun i h => readOrZero_storeRegisters region fits h,
      fun a outside => readOrZero_storeRegisters_of_outside region fits outside, fun registers i h => ?_⟩
    -- The load finds the memory and the index register that the store left.
    let changed : Machine := { m.storeRegisters x with registers := registers }
    have fits' : changed.index.toNat + x.val ≤ 0xFFF := index ▸ fits
    show (changed.loadRegisters x).reg i = m.reg i
    rw [reg_loadRegisters fits', if_pos h, show changed.index = m.index from index]
    exact readOrZero_storeRegisters region fits h
  · intro m x fits
    have loaded := loadRegisters_of_inside fits
    have index : (m.loadRegisters x).index = m.index := by rw [loaded]
    have memory : (m.loadRegisters x).memory = m.memory := by rw [loaded]
    refine ⟨by rw [loaded], fun i h => by rw [reg_loadRegisters fits, if_pos h],
      fun i above => by rw [reg_loadRegisters fits, if_neg (Fin.not_le.mpr above)], fun region => ?_⟩
    have held := holdsBlock_loadRegisters fits
    exact (held.storeRegisters_memory (index ▸ region) (index ▸ fits)).trans memory

/-- Two registers fit into the last two bytes of memory and come back from there. -/
theorem last_bytes_hold_two_registers :
    let m : Machine := { Machine.initial ⟨0, 0⟩ with
      index := 0xFFE, registers := (Bank.fill 7).set 1 9 }
    let stored := m.execute 0xF155
    stored.memory.readOrZero 0xFFF = 9 ∧ stored.memory.readOrZero 0xFFD = m.memory.readOrZero 0xFFD ∧
      ({ stored with registers := Bank.fill 0 }.execute 0xF165).reg 1 = 9 ∧
      ((m.execute 0xF165).execute 0xF155).memory = m.memory := by
  intro m stored
  obtain ⟨-, bytes, kept, restored⟩ := register_blocks_round_trip.1 m 1 (by decide) (by decide)
  obtain ⟨-, -, -, undone⟩ := register_blocks_round_trip.2 m 1 (by decide)
  exact ⟨bytes 1 (by decide), kept 0xFFD (by decide), restored (Bank.fill 0) 1 (by decide), undone (by decide)⟩

end Chip8.Machine
