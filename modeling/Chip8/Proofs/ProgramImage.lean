import Chip8.Machine.Program
import Chip8.Proofs.Step
import Mathlib.Data.List.GetD

/-! What lies in memory at power-on and once a program is loaded, and machines that run the program as it was
loaded. -/

namespace Chip8

theorem Program.getD_padded (p : Program) (n k : Nat) :
    (p ++ List.replicate n 0).getD k 0 = p.getD k 0 := by
  by_cases inside : k < p.length
  · exact List.getD_append _ _ _ _ inside
  · rw [List.getD_append_right _ _ _ _ (Nat.le_of_not_lt inside),
      List.getD_eq_default p _ (Nat.le_of_not_lt inside)]
    by_cases padding : k - p.length < n
    · exact List.getD_replicate _ padding
    · exact List.getD_eq_default _ _ (by rw [List.length_replicate]; omega)

namespace Machine

variable (key : Key) (strict : Bool)

theorem initial_memory : (initial key strict).memory = Memory.zero.write fontStart glyphs := by rfl

@[simp] theorem initial_key : (initial key strict).key = key := by rfl

@[simp] theorem initial_pc : (initial key strict).pc = 0x200 := by rfl

@[simp] theorem initial_stack : (initial key strict).stack = {} := by rfl

@[simp] theorem initial_index : (initial key strict).index = 0 := by rfl

@[simp] theorem initial_awaitingKey : (initial key strict).awaitingKey = false := by rfl

@[simp] theorem initial_keyRegister : (initial key strict).keyRegister = 0 := by rfl

@[simp] theorem initial_error : (initial key strict).error = 0 := by rfl

@[simp] theorem initial_display : (initial key strict).display = Bitmap.blank := by rfl

@[simp] theorem initial_strict : (initial key strict).strict = strict := by rfl

@[simp] theorem initial_drawFlag : (initial key strict).drawFlag = false := by rfl

theorem readOrZero_initial {a : Nat} (h : a < memorySize) :
    (initial key strict).memory.readOrZero a =
      if a < keyCount * glyphSize then glyphs.getD a 0 else 0 := by
  rw [initial_memory, Memory.readOrZero_write, glyphs_length, Memory.readOrZero_zero]
  dsimp only [memorySize, fontStart, keyCount, glyphSize] at *
  by_cases glyph : a < 16 * 5
  · rw [if_pos (by omega), if_pos glyph, Nat.sub_zero]
  · rw [if_neg (by omega), if_neg glyph]

/-- A load fills the program region, restores the glyphs and leaves what is between them. -/
theorem readOrZero_loaded (m : Machine) {p : Program} (fits : p.length ≤ programCapacity) {a : Nat}
    (h : a < memorySize) : (m.loaded p).memory.readOrZero a =
      if a < keyCount * glyphSize then glyphs.getD a 0
      else if a < programStart then m.memory.readOrZero a
      else p.getD (a - programStart) 0 := by
  have size : (p ++ List.replicate (programCapacity - p.length) 0).length = programCapacity := by
    rw [List.length_append, List.length_replicate]
    omega
  rw [loaded, setMemory_memory, Memory.readOrZero_write, Memory.readOrZero_write, size,
    Program.getD_padded, glyphs_length]
  dsimp only [memorySize, fontStart, programStart, programCapacity, keyCount, glyphSize] at *
  by_cases glyph : a < 16 * 5
  · rw [if_pos (by omega), if_pos glyph, Nat.sub_zero]
  rw [if_neg (by omega), if_neg glyph]
  by_cases low : a < 0x200
  · rw [if_neg (by omega), if_pos low]
  · rw [if_pos (by omega), if_neg low]

/-- The words of a program that does not change itself are those it was loaded with. -/
theorem currentWord_of_loaded {m m₀ : Machine} {p : Program} (memory : m.memory = (m₀.loaded p).memory)
    (fits : p.length ≤ programCapacity) {k : Nat} (inside : k + 1 < programCapacity)
    (pc : m.pc.toNat = programStart + k) :
    m.currentWord = (p.getD k 0).toUInt16 * 256 + (p.getD (k + 1) 0).toUInt16 := by
  have byte {j : Nat} (h : j < programCapacity) : m.memory.read (programStart + j) = p.getD j 0 := by
    dsimp only [programStart, programCapacity] at *
    rw [memory, Memory.read_eq_readOrZero _ (by omega),
      readOrZero_loaded m₀ fits (by dsimp only [memorySize]; omega), if_neg, if_neg, Nat.add_sub_cancel_left]
    · dsimp only [programStart]; omega
    · dsimp only [keyCount, glyphSize]; omega
  have next : (programStart + k + 1) % 4096 = programStart + (k + 1) := by
    dsimp only [programStart, programCapacity] at *
    omega
  rw [currentWord, pc, next, byte (by omega), byte inside]

/-- A machine that stands on the byte numbered `k` of a program and has left memory as it was loaded. -/
structure StandsOn (m₀ : Machine) (p : Program) (k : Nat) (m : Machine) : Prop where
  memory : m.memory = (m₀.loaded p).memory
  pc : m.pc.toNat = programStart + k
  running : m.error = 0
  free : m.awaitingKey = false

namespace StandsOn

variable {m m₀ : Machine} {p : Program} {k : Nat} {w : UInt16} {i : Instruction}

theorem loaded (pc : m.pc = 0x200) (running : m.error = 0) (free : m.awaitingKey = false) :
    StandsOn m p 0 (m.loaded p) :=
  ⟨rfl, by rw [loaded_pc, pc]; rfl, by rw [loaded_error, running], by rw [loaded_awaitingKey, free]⟩

theorem executes (h : StandsOn m₀ p k m) (fits : p.length ≤ programCapacity) (inside : k + 1 < programCapacity)
    (word : (p.getD k 0).toUInt16 * 256 + (p.getD (k + 1) 0).toUInt16 = w)
    (decodes : Instruction.decode w.toNat = i) (faultless : m.fault? i = none) : m.executed? = some i :=
  executed?_of_word h.running h.free ((currentWord_of_loaded h.memory fits inside h.pc).trans word) decodes
    faultless

/-- Where an instruction leads that leaves memory as it is and does not wait. -/
theorem step (h : StandsOn m₀ p k m) (executed : m.executed? = some i)
    (memory : (m.advance.perform i).memory = m.advance.memory)
    (free : (m.advance.perform i).awaitingKey = m.advance.awaitingKey) {k' : Nat}
    (pc : (m.advance.perform i).pc.toNat = programStart + k') : StandsOn m₀ p k' m.step := by
  have running : m.step.error = 0 := step_error_of_executed executed
  rw [step_of_executed executed] at running ⊢
  exact ⟨memory.trans h.memory, pc, running, free.trans h.free⟩

theorem following (h : StandsOn m₀ p k m) (inside : k + 2 < programCapacity) :
    m.advance.pc.toNat = programStart + (k + 2) := by
  have here := h.pc
  dsimp only [advance, programStart, programCapacity] at *
  rw [following_toNat]
  omega

theorem step_onward (h : StandsOn m₀ p k m) (inside : k + 2 < programCapacity) (executed : m.executed? = some i)
    (memory : (m.advance.perform i).memory = m.advance.memory)
    (free : (m.advance.perform i).awaitingKey = m.advance.awaitingKey)
    (pc : (m.advance.perform i).pc = m.advance.pc) : StandsOn m₀ p (k + 2) m.step :=
  h.step executed memory free (pc ▸ h.following inside)

end StandsOn

end Machine
end Chip8
