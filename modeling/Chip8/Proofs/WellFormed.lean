import Chip8.Proofs.Action
import Chip8.Proofs.CallStack
import Chip8.Proofs.ProgramImage
import Chip8.Proofs.Step

/-! The ranges that the fields of a machine never leave, whatever its host and its program do. Several
instructions write before their fault is known, so a range holds of an instruction only where there
is no fault, and of a step because a fault takes the rest back. -/

namespace Chip8

theorem Fault.codeOf_le (f : Option Fault) : (Fault.codeOf f).toNat ≤ 8 := by
  cases f with
  | none => decide
  | some f => cases f <;> decide

namespace Machine

structure WellFormed (m : Machine) : Prop where
  pc : m.pc.toNat ≤ 0xFFF
  index : m.index.toNat ≤ 0xFFF
  stack : m.stack.Keeps fun a => a.toNat ≤ 0xFFF
  keyRegister : m.keyRegister.toNat ≤ 15
  error : m.error.toNat ≤ 8
  running : m.awaitingKey = true → m.error = 0
  bottom : ∀ a < 0x200, m.memory.readOrZero a = glyphs.getD a 0

theorem backedUp_le (pc : UInt16) : ((pc - 2) % 4096).toNat ≤ 0xFFF := by
  rw [UInt16.toNat_mod]
  exact Nat.le_of_lt_succ (Nat.mod_lt _ (by decide))

variable {m : Machine} {i : Instruction}

theorem perform_index_le (h : m.index.toNat ≤ 0xFFF) : (m.perform i).index.toNat ≤ 0xFFF := by
  rw [perform_index]
  cases i with
  | ldIndex a | addIndex x => simp; omega
  | ldGlyph x =>
    rw [UInt16.toNat_ofNat']
    exact Nat.le_trans (Nat.mod_le _ _) (by dsimp only [fontStart, glyphSize]; omega)
  | _ => exact h

theorem perform_keyRegister_le (h : m.keyRegister.toNat ≤ 15) :
    (m.perform i).keyRegister.toNat ≤ 15 := by
  rw [perform_keyRegister]
  cases i with
  | waitKey x =>
    dsimp only
    split
    · exact h
    · simp; omega
  | _ => exact h

theorem perform_pc_le (h : m.WellFormed) (free : m.fault? i = none) :
    (m.perform i).pc.toNat ≤ 0xFFF := by
  obtain ⟨nonempty, pc⟩ | ⟨-, le⟩ | pc | pc | ⟨-, pc⟩ := perform_pc_cases free
  · exact pc ▸ h.stack.top nonempty
  · exact le
  · exact pc ▸ h.pc
  · exact pc ▸ following_le m.pc
  · exact pc ▸ backedUp_le m.pc

theorem perform_stack_keeps (h : m.WellFormed) (free : m.fault? i = none) :
    (m.perform i).stack.Keeps fun a => a.toNat ≤ 0xFFF := by
  obtain ⟨room, stack⟩ | ⟨-, stack⟩ | stack := perform_stack_cases free
  · exact stack ▸ h.stack.push room h.pc h.pc
  · exact stack ▸ h.stack.pop
  · exact stack ▸ h.stack

namespace WellFormed

theorem advance (h : m.WellFormed) : m.advance.WellFormed :=
  { h with pc := following_le m.pc }

theorem perform (h : m.WellFormed) (free : m.fault? i = none) (ok : (m.perform i).error = 0) :
    (m.perform i).WellFormed where
  pc := perform_pc_le h free
  index := perform_index_le h.index
  stack := perform_stack_keeps h free
  keyRegister := perform_keyRegister_le h.keyRegister
  error := by simp [ok]
  running := fun _ => ok
  bottom := fun a low => (perform_memory_below free low).trans (h.bottom a low)

theorem step (h : m.WellFormed) : m.step.WellFormed := by
  refine step_cases m ?halted ?waiting ?woken ?faulted ?executed
  case halted => exact fun _ => h
  case waiting => exact fun _ _ _ => h
  case woken => exact fun k _ _ _ => { h with pc := following_le m.pc, running := by simp }
  case faulted =>
    intro f _ free _
    exact { h with error := Fault.codeOf_le (some f), running := by simp [free] }
  case executed =>
    intro _ _ faultless ok
    exact h.advance.perform (fault?_advance m _ ▸ faultless) ok

theorem adjust (h : m.WellFormed) (delay sound : UInt8) (keypad : Keypad) (drawFlag : Bool) :
    (m.adjust delay sound keypad drawFlag).WellFormed :=
  { h with }

theorem initial (key : Key) (strict : Bool) : (Machine.initial key strict).WellFormed where
  pc := by simp
  index := by simp
  stack := by simpa using CallStack.keeps_empty
  keyRegister := by simp
  error := by simp
  running := by simp
  bottom := fun a low => by
    rw [readOrZero_initial key strict (by dsimp only [memorySize]; omega), ← glyphs_length]
    split
    · rfl
    · exact (List.getD_eq_default _ _ (by omega)).symm

theorem loaded (h : m.WellFormed) {p : Program} (fits : p.length ≤ programCapacity) :
    (m.loaded p).WellFormed where
  pc := by simpa using h.pc
  index := by simpa using h.index
  stack := by simpa using h.stack
  keyRegister := by simpa using h.keyRegister
  error := by simpa using h.error
  running := by simpa using h.running
  bottom := fun a low => by
    rw [readOrZero_loaded m fits (by dsimp only [memorySize]; omega), if_pos low, h.bottom a low,
      ite_self]

theorem act (h : m.WellFormed) (a : Action) : (m.act a).WellFormed := by
  refine act_cases m a ?stepped ?adjusted ?loaded ?restarted ?reloaded
  case stepped => exact fun _ => h.step
  case adjusted => exact h.adjust
  case loaded => exact fun p _ fits => h.loaded fits
  case restarted => exact fun _ => initial m.key m.strict
  case reloaded => exact fun p _ fits => (initial m.key m.strict).loaded fits

end WellFormed

/-- The ranges of the fields, the zeros above the call stack, the glyphs and the gap behind them, after
any actions since power-on. -/
theorem fields_in_range (key : Key) (strict : Bool) (actions : List Action) :
    let m := (Machine.initial key strict).after actions
    m.pc.toNat ≤ 0xFFF ∧ m.index.toNat ≤ 0xFFF ∧ (∀ x, (m.reg x).toNat ≤ 0xFF) ∧
    (0 ≤ m.stack.pointer.toInt ∧ m.stack.pointer.toInt ≤ 16) ∧
    (∀ i, (m.stack.data.get i).toNat ≤ 0xFFF) ∧
    (∀ i, m.stack.pointer.toInt ≤ i.val → m.stack.data.get i = 0) ∧
    m.keyRegister.toNat ≤ 15 ∧ m.error.toNat ≤ 8 ∧ (m.awaitingKey = true → m.error = 0) ∧
    (∀ a < 0x050, m.memory.readOrZero a = glyphs.getD a 0) ∧
    ∀ a, 0x050 ≤ a → a < 0x200 → m.memory.readOrZero a = 0 := by
  intro m
  have h : m.WellFormed := after_induction (WellFormed.initial key strict) (fun _ a h => h.act a) actions
  obtain ⟨calls, ⟨count, slots⟩, few, addresses⟩ := h.stack
  refine ⟨h.pc, h.index, fun x => Nat.le_of_lt_succ (m.reg x).toNat_lt, ⟨by omega, by omega⟩, ?_, ?_,
    h.keyRegister, h.error, h.running, fun a low => h.bottom a (by omega), ?_⟩
  · intro i
    rw [slots, List.getD_eq_getElem?_getD]
    cases slot : calls[i.val]? with
    | none => simp
    | some a => exact addresses a (List.mem_of_getElem? slot)
  · intro i above
    rw [slots, List.getD_eq_default _ _ (by omega)]
  · intro a behind below
    rw [h.bottom a below, List.getD_eq_default _ _ (by rwa [glyphs_length])]

end Machine
end Chip8
