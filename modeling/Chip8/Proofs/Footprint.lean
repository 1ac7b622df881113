import Chip8.Proofs.Encoding

/-! What a step can write, read off the bits of the word that is executed. -/

namespace Chip8

/-- The parts of a machine that an instruction may write: a number of bytes from the index register on,
registers, and the fields that are named. -/
structure Footprint where
  bytes : Nat := 0
  registers : Nibble → Bool := fun _ => false
  display : Bool := false
  key : Bool := false
  stack : Bool := false
  delayTimer : Bool := false
  soundTimer : Bool := false
  index : Bool := false
  /-- The flag and the register of a wait for a key. -/
  wait : Bool := false

namespace Footprint

def ofSelector (x : Nibble) (nn : Nat) : Footprint :=
  match nn with
  | 0x07 => { registers := fun i => x = i }
  | 0x0A => { registers := fun i => x = i, wait := true }
  | 0x15 => { delayTimer := true }
  | 0x18 => { soundTimer := true }
  | 0x1E | 0x29 => { index := true }
  | 0x33 => { bytes := 3 }
  | 0x55 => { bytes := x.val + 1 }
  | 0x65 => { registers := fun i => i ≤ x }
  | _ => {}

/-- The footprint that the bits of a word announce. The highest nibble selects the family of the instruction
and the lower ones are its operands. -/
def ofWord (w : UInt16) : Footprint :=
  let x := Nibble.ofNat (w.toNat / 256)
  let n := w.toNat % 16
  match w.toNat / 4096 with
  | 0x0 => { display := w.toNat = 0x00E0, stack := w.toNat = 0x00EE }
  | 0x2 => { stack := true }
  | 0x6 | 0x7 => { registers := fun i => x = i }
  | 0x8 => { registers := fun i => x = i ∨ 0x4 ≤ n ∧ flagRegister = i }
  | 0xA => { index := true }
  | 0xC => { registers := fun i => x = i, key := true }
  | 0xD => { registers := fun i => flagRegister = i, display := true }
  | 0xF => ofSelector x (w.toNat % 256)
  | _ => {}

/-- A machine differs from an earlier one within the footprint, the program counter and the recorded fault
apart. Memory is written in the program region only, and the draw flag goes up with the display and never
comes down. -/
structure Frames (f : Footprint) (m m' : Machine) : Prop where
  keypad : m'.keypad = m.keypad
  strict : m'.strict = m.strict
  region : f.bytes ≠ 0 → 0x200 ≤ m.index.toNat ∧ m.index.toNat + f.bytes ≤ 0x1000
  memory : ∀ a, ¬(m.index.toNat ≤ a ∧ a < m.index.toNat + f.bytes) →
    m'.memory.readOrZero a = m.memory.readOrZero a
  registers : ∀ i, f.registers i = false → m'.reg i = m.reg i
  display : f.display = false → m'.display = m.display
  drawFlag : m'.drawFlag = (f.display || m.drawFlag)
  key : f.key = false → m'.key = m.key
  stack : f.stack = false → m'.stack = m.stack
  delayTimer : f.delayTimer = false → m'.delayTimer = m.delayTimer
  soundTimer : f.soundTimer = false → m'.soundTimer = m.soundTimer
  index : f.index = false → m'.index = m.index
  wait : f.wait = false → m'.awaitingKey = m.awaitingKey ∧ m'.keyRegister = m.keyRegister

end Footprint

def Instruction.footprint : Instruction → Footprint
  | cls => { display := true }
  | ret | call _ => { stack := true }
  | ldByte x _ | addByte x _ | logic _ x _ | getDelay x => { registers := fun i => x = i }
  | arith _ x _ => { registers := fun i => x = i ∨ flagRegister = i }
  | ldIndex _ | addIndex _ | ldGlyph _ => { index := true }
  | rnd x _ => { registers := fun i => x = i, key := true }
  | drw .. => { registers := fun i => flagRegister = i, display := true }
  | waitKey x => { registers := fun i => x = i, wait := true }
  | setDelay _ => { delayTimer := true }
  | setSound _ => { soundTimer := true }
  | storeDecimal _ => { bytes := 3 }
  | storeRegisters x => { bytes := x.val + 1 }
  | loadRegisters x => { registers := fun i => i ≤ x }
  | _ => {}

theorem Memory.readOrZero_write_of_outside {memory : Memory} {a k : Nat} {bytes : List UInt8}
    (outside : ¬(a ≤ k ∧ k < a + bytes.length)) :
    (memory.write a bytes).readOrZero k = memory.readOrZero k := by
  rw [Memory.readOrZero_write, if_neg fun inside => outside ⟨inside.1, inside.2.1⟩]

namespace Machine

variable {m : Machine} {w : UInt16} {i : Instruction}

theorem ofWord_eq_footprint (word : w.toNat = i.encode) (faultless : m.fault? i = none) :
    Footprint.ofWord w = i.footprint := by
  rw [Footprint.ofWord, word]
  cases i with
  | sys a | illegal w => cases faultless
  | logic op x y => simp [Instruction.encode, Instruction.footprint, Nat.not_le_of_lt op.nibble_lt]
  | arith op x y => simp [Instruction.encode, Instruction.footprint, op.le_nibble]
  | _ => simp [Instruction.encode, Instruction.footprint, Footprint.ofSelector]

theorem outsideProgram_eq_false {a last : Nat} :
    outsideProgram a last = false ↔ 0x200 ≤ a ∧ a + (last + 1) ≤ 0x1000 := by
  simp only [outsideProgram, programStart, addressMask, Bool.or_eq_false_iff, decide_eq_false_iff_not]
  omega

theorem perform_memory_frame (faultless : m.fault? i = none) :
    (i.footprint.bytes ≠ 0 → 0x200 ≤ m.index.toNat ∧ m.index.toNat + i.footprint.bytes ≤ 0x1000) ∧
    ∀ a, ¬(m.index.toNat ≤ a ∧ a < m.index.toNat + i.footprint.bytes) →
      (m.perform i).memory.readOrZero a = m.memory.readOrZero a := by
  rw [perform_memory]
  cases i with
  | storeDecimal x =>
    have inside := outsideProgram_eq_false.mp ((Fault.when_eq_none _ _).mp faultless)
    exact ⟨fun _ => inside, fun a outside => Memory.readOrZero_write_of_outside outside⟩
  | storeRegisters x =>
    have inside := outsideProgram_eq_false.mp ((Fault.when_eq_none _ _).mp faultless)
    exact ⟨fun _ => inside,
      fun a outside => Memory.readOrZero_write_of_outside (by rw [length_take_registers]; exact outside)⟩
  | _ => exact ⟨fun writes => absurd rfl writes, fun _ _ => rfl⟩

theorem perform_registers_frame {j : Nibble} (outside : i.footprint.registers j = false) :
    (m.perform i).reg j = m.reg j := by
  rw [reg, reg, perform_registers]
  cases i with
  | ldByte x b | addByte x b | logic op x y | rnd x mask | drw x y rows | getDelay x =>
    exact Bank.get_set_of_ne _ _ (of_decide_eq_false outside)
  | arith op x y =>
    obtain ⟨other, flagless⟩ := not_or.mp (of_decide_eq_false outside)
    exact (Bank.get_set_of_ne _ _ flagless).trans (Bank.get_set_of_ne _ _ other)
  | waitKey x =>
    cases m.pressedKey? with
    | none => rfl
    | some k => exact Bank.get_set_of_ne _ _ (of_decide_eq_false outside)
  | loadRegisters x =>
    exact (Bank.get_ofFn _ j).trans (if_neg (of_decide_eq_false outside))
  | _ => rfl

theorem perform_frames (faultless : m.fault? i = none) : i.footprint.Frames m (m.perform i) where
  keypad := perform_keypad m i
  strict := perform_strict m i
  region := (perform_memory_frame faultless).1
  memory := (perform_memory_frame faultless).2
  registers _ outside := perform_registers_frame outside
  display kept := by
    rw [perform_display]
    cases i with
    | cls | drw x y rows => cases kept
    | _ => rfl
  drawFlag := by
    rw [perform_drawFlag]
    cases i <;> rfl
  key kept := by
    rw [perform_key]
    cases i with
    | rnd x mask => cases kept
    | _ => rfl
  stack kept := by
    rw [perform_stack]
    cases i with
    | call a | ret => cases kept
    | _ => rfl
  delayTimer kept := by
    rw [perform_delayTimer]
    cases i with
    | setDelay x => cases kept
    | _ => rfl
  soundTimer kept := by
    rw [perform_soundTimer]
    cases i with
    | setSound x => cases kept
    | _ => rfl
  index kept := by
    rw [perform_index]
    cases i with
    | ldIndex a | addIndex x | ldGlyph x => cases kept
    | _ => rfl
  wait kept := by
    rw [perform_awaitingKey, perform_keyRegister]
    cases i with
    | waitKey x => cases kept
    | _ => exact ⟨rfl, rfl⟩

theorem step_of_awaiting_writes (await : m.awaitingKey = true) : ∃ registers pc awaitingKey,
    m.step = { m with registers := registers, pc := pc, awaitingKey := awaitingKey } ∧
    ∀ j : Nibble, j.val ≠ m.keyRegister.toNat → registers.get j = m.reg j := by
  refine step_cases m ?halted ?waiting ?woken ?faulted ?executed
  case halted => exact fun _ => ⟨m.registers, m.pc, m.awaitingKey, rfl, fun _ _ => rfl⟩
  case waiting => exact fun _ _ _ => ⟨m.registers, m.pc, m.awaitingKey, rfl, fun _ _ => rfl⟩
  case woken =>
    intro k _ _ _
    refine ⟨_, _, _, rfl, fun j other => ?_⟩
    rw [Bank.get_setIfIn, if_neg other.symm, reg]
  case faulted => exact fun _ _ free _ => absurd await (by simp [free])
  case executed => exact fun _ free _ _ => absurd await (by simp [free])

/-- A step without a fault writes within the footprint of its word. A step that waits for a key writes the
register of the wait, the program counter and the flag of the wait at most. -/
theorem step_writes_within_footprint :
    (∀ m : Machine, m.error = 0 → m.awaitingKey = false → m.step.error = 0 →
      (Footprint.ofWord m.currentWord).Frames m m.step) ∧
    ∀ m : Machine, m.awaitingKey = true → ∃ registers pc awaitingKey,
      m.step = { m with registers := registers, pc := pc, awaitingKey := awaitingKey } ∧
      ∀ j : Nibble, j.val ≠ m.keyRegister.toNat → registers.get j = m.reg j := by
  refine ⟨fun m running free faultless => ?_, fun m await => step_of_awaiting_writes await⟩
  obtain ⟨faultless, step⟩ := step_of_faultless running free faultless
  have word := (Instruction.encode_decode m.currentWord).symm
  rw [step, ofWord_eq_footprint word faultless]
  exact { perform_frames ((fault?_advance m m.current).trans faultless) with }

/-- Three registers fit below the end of memory and the address below them is kept. A machine that waits
keeps all registers but one. -/
theorem last_store_keeps_below :
    let m : Machine := { Machine.initial ⟨0, 0⟩ with
      memory := Memory.zero.write 0x200 [0xF2, 0x55], index := 0xFFD }
    let w : Machine := { m with awaitingKey := true, keyRegister := 7, keypad := Bank.fill true }
    m.step.error = 0 ∧ m.index.toNat + (Footprint.ofWord m.currentWord).bytes = 0x1000 ∧
      m.step.memory.readOrZero 0xFFC = m.memory.readOrZero 0xFFC ∧
      ∃ registers pc awaitingKey,
        w.step = { w with registers := registers, pc := pc, awaitingKey := awaitingKey } ∧
        ∀ j : Nibble, j.val ≠ 7 → registers.get j = w.reg j := by
  intro m w
  have faultless : m.step.error = 0 := by decide +kernel
  have bytes : (Footprint.ofWord m.currentWord).bytes = 3 := by decide +kernel
  have frames := step_writes_within_footprint.1 m rfl rfl faultless
  refine ⟨faultless, by rw [bytes]; rfl, frames.memory 0xFFC ?_, step_writes_within_footprint.2 w rfl⟩
  rw [bytes]
  decide

end Machine
end Chip8
