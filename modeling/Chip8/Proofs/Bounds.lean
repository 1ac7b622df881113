import Chip8.Proofs.Access
import Chip8.Proofs.Footprint
import Chip8.Proofs.WellFormed

/-! No cell is missing where a machine that is not at fault looks for one. The step does at every number what
its version with lenient accesses does, and on a machine that was reached from power-on the version with
checked accesses gives the same. -/

namespace Chip8

variable {f : Type → Type} [Monad f] {d : Accesses f}

namespace Machine

variable {m : Machine}

/-- `d` does what the machine does at the numbers that an instruction computes and does not mask. -/
def Serves (d : Accesses f) (m : Machine) : Instruction → Prop
  | .call _ => d.At 16 m.stack.pointer.toInt
  | .ret => d.At 16 m.stack.lowered.toInt
  | .storeDecimal _ => d.Covers m.index.toNat 3
  | .storeRegisters x | .loadRegisters x => d.Covers m.index.toNat (x.val + 1)
  | _ => True

theorem serves_lenient (m : Machine) (i : Instruction) : Serves (Accesses.lenient : Accesses f) m i := by
  cases i with
  | call a | ret => exact Accesses.lenient_at _ _
  | storeDecimal x | storeRegisters x | loadRegisters x => exact Accesses.Covers.lenient _ _
  | _ => trivial

theorem regThrough_eq (sound : d.Sound) (x : Nibble) : m.regThrough d x = pure (m.reg x) :=
  sound.read m.registers x

variable [LawfulMonad f]

theorem readThrough_eq {memory : Memory} {a n : Nat} (covers : d.Covers a n) :
    memory.readThrough d a n = pure ((List.range' a n).map memory.readOrZero) := by
  induction n generalizing a with
  | zero => rfl
  | succ n ih =>
    rw [Memory.readThrough, covers.first.readOrZero, ih covers.rest, Memory.orZero_natCast,
      List.range'_succ, List.map_cons, pure_bind, pure_bind]

theorem writeThrough_eq {memory : Memory} {a : Nat} {bytes : List UInt8}
    (covers : d.Covers a bytes.length) :
    memory.writeThrough d a bytes = pure (memory.write a bytes) := by
  induction bytes generalizing memory a with
  | nil => rfl
  | cons b bytes ih =>
    rw [Memory.writeThrough, covers.first.write, Bank.replace_natCast, pure_bind, ih covers.rest,
      Memory.write]

theorem setRegisterThrough_eq (sound : d.Sound) (x : Nibble) (b : UInt8) :
    m.setRegisterThrough d x b = pure (m.setRegister x b) := by
  rw [setRegisterThrough, sound.write, pure_bind, setRegister]

theorem currentWordThrough_eq (sound : d.Sound) (pc : d.At 4096 m.pc.toNat) :
    m.currentWordThrough d = pure m.currentWord := by
  have next : d.At 4096 ((m.pc.toNat + 1) % 4096 : Nat) := sound 4096 ⟨_, Nat.mod_lt _ (by decide)⟩
  rw [currentWordThrough, pc.read, next.read, Memory.nearest_natCast, Memory.nearest_natCast, pure_bind,
    pure_bind, currentWord]

theorem skipIfKeyThrough_eq (sound : d.Sound) (x : Nibble) (down : Bool) :
    m.skipIfKeyThrough d x down = pure (m.skipIfKey x down) := by
  have key : d.read m.keypad ((m.reg x).toNat % 16 : Nat) = pure (m.isDown (m.namedKey x)) :=
    sound.read m.keypad (m.namedKey x)
  rw [skipIfKeyThrough, regThrough_eq sound, pure_bind, key, pure_bind, skipIfKey]

theorem arithThrough_eq (sound : d.Sound) (op : Arith) (x y : Nibble) :
    m.arithThrough d op x y = pure (m.arith op x y) := by
  simp only [arithThrough, regThrough_eq sound, setRegisterThrough_eq sound, pure_bind, arith]

theorem rowBytesThrough_eq (sound : d.Sound) (top : Nat) :
    m.rowBytesThrough d top = pure ((List.range 32).map fun row =>
      m.memory.read ((m.index.toNat + min (row - top) 15) % 4096)) := by
  have read (row : Nat) : d.read m.memory ((m.index.toNat + min (row - top) 15) % 4096 : Nat) =
      pure (m.memory.read ((m.index.toNat + min (row - top) 15) % 4096)) := by
    rw [(sound 4096 ⟨_, Nat.mod_lt _ (by decide)⟩).read, Memory.nearest_natCast]
  simp only [rowBytesThrough, read]
  exact List.mapM_pure

theorem ofRowBytes_eq (memory : Memory) (a left top : Nat) (rows : Nibble) :
    Bitmap.ofRowBytes ((List.range 32).map fun row => memory.read ((a + min (row - top) 15) % 4096))
      left top rows.val = memory.sprite a left top rows.val := by
  apply Bitmap.ext_get
  intro x y
  rw [Bitmap.ofRowBytes, Memory.sprite, Bitmap.get_ofFn, Bitmap.get_ofFn]
  by_cases inside : y.val < top + rows.val
  · have row : min (y.val - top) 15 = y.val - top := by omega
    rw [List.getD_eq_getElem _ _ (by simp), List.getElem_map, List.getElem_range, row]
  · simp [inside]

theorem spriteThrough_eq (sound : d.Sound) (x y rows : Nibble) :
    m.spriteThrough d x y rows = pure (m.sprite x y rows) := by
  rw [spriteThrough, regThrough_eq sound, pure_bind, regThrough_eq sound, pure_bind,
    rowBytesThrough_eq sound, pure_bind, ofRowBytes_eq, sprite]

theorem drawThrough_eq (sound : d.Sound) (x y rows : Nibble) :
    m.drawThrough d x y rows = pure (m.draw x y rows) := by
  rw [drawThrough, spriteThrough_eq sound, pure_bind, setRegisterThrough_eq sound, pure_bind, draw]

theorem waitKeyThrough_eq (sound : d.Sound) (x : Nibble) :
    m.waitKeyThrough d x = pure (m.waitKey x) := by
  unfold waitKeyThrough
  cases key : m.pressedKey? with
  | none => rfl
  | some k =>
    rw [waitKey, key]
    exact setRegisterThrough_eq sound x (UInt8.ofNat k.val)

theorem callThrough_eq (a : Fin 4096) (push : d.At 16 m.stack.pointer.toInt) :
    m.callThrough d a = pure (m.call a) := by
  have stack : (m.failIf m.stack.isFull .stackOverflow).stack = m.stack := by rw [failIf_eq]
  have pc : (m.failIf m.stack.isFull .stackOverflow).pc = m.pc := by rw [failIf_eq]
  rw [callThrough, push.write, pure_bind, CallStack.replace_eq_put, call]
  simp only [stack, pc, CallStack.push]

theorem lowered_nonneg (s : CallStack) : 0 ≤ s.lowered.toInt := by
  show 0 ≤ (if s.pointer - 1 ≤ 0 then 0 else s.pointer - 1).toInt
  split
  · decide
  · next above =>
    rw [Int32.le_iff_toInt_le, Int32.toInt_zero] at above
    omega

theorem retThrough_eq (pop : d.At 16 m.stack.lowered.toInt) : m.retThrough d = pure m.ret := by
  obtain ⟨k, slot⟩ := Int.eq_ofNat_of_zero_le (lowered_nonneg m.stack)
  have top : m.stack.data.nearest m.stack.lowered.toInt = m.stack.top := by
    rw [slot, Bank.nearest_natCast]
    simp only [CallStack.top, slot, Int.toNat_natCast]
  rw [retThrough, pop.read, pure_bind, pop.write, pure_bind, top, CallStack.replace_eq_put, ret,
    CallStack.pop]

theorem storeDecimalThrough_eq (sound : d.Sound) (x : Nibble) (lanes : d.Covers m.index.toNat 3) :
    m.storeDecimalThrough d x = pure (m.storeDecimal x) := by
  rw [storeDecimalThrough, regThrough_eq sound, pure_bind, writeThrough_eq lanes, pure_bind,
    storeDecimal]

theorem lanesThrough_eq (x : Nibble) (lanes : d.Covers m.index.toNat (x.val + 1)) :
    m.lanesThrough d x = pure
      ((List.range' m.index.toNat (x.val + 1)).map m.memory.readOrZero,
        (List.range' (m.index.toNat + (x.val + 1)) (15 - x.val)).map m.memory.readOrZero) := by
  rw [lanesThrough, readThrough_eq lanes, readThrough_eq (.lenient _ _), pure_bind, pure_bind]

/-- Bytes that are put back where they were read change nothing. -/
theorem write_kept (memory : Memory) (a n : Nat) (bytes : List UInt8) :
    (memory.write a bytes).write (a + bytes.length)
      ((List.range' (a + bytes.length) n).map memory.readOrZero) = memory.write a bytes := by
  apply Memory.ext_readOrZero
  intro k inside
  rw [Memory.readOrZero_write, List.length_map, List.length_range']
  split
  · next kept =>
    rw [List.getD_eq_getElem _ _ (by simp; omega), List.getElem_map, List.getElem_range',
      Memory.readOrZero_write, if_neg (by omega)]
    congr 1
    omega
  · rfl

theorem storeRegistersThrough_eq (x : Nibble) (lanes : d.Covers m.index.toNat (x.val + 1)) :
    m.storeRegistersThrough d x = pure (m.storeRegisters x) := by
  have length := length_take_registers m x
  have kept := write_kept m.memory m.index.toNat (15 - x.val) (m.registers.toList.take (x.val + 1))
  rw [length] at kept
  rw [storeRegistersThrough, lanesThrough_eq x lanes, pure_bind,
    writeThrough_eq (by rw [length]; exact lanes), pure_bind,
    writeThrough_eq (.lenient _ _), pure_bind, kept, storeRegisters]

theorem loadRegistersThrough_eq (x : Nibble) (lanes : d.Covers m.index.toNat (x.val + 1)) :
    m.loadRegistersThrough d x = pure (m.loadRegisters x) := by
  have loaded (i : Nibble) (used : i ≤ x) :
      ((List.range' m.index.toNat (x.val + 1)).map m.memory.readOrZero).getD i.val 0 =
        m.memory.readOrZero (m.index.toNat + i.val) := by
    have inside : i.val ≤ x.val := used
    rw [List.getD_eq_getElem _ _ (by simp; omega), List.getElem_map, List.getElem_range', Nat.one_mul]
  have registers : (Bank.ofFn fun i => if i ≤ x then
      ((List.range' m.index.toNat (x.val + 1)).map m.memory.readOrZero).getD i.val 0 else m.reg i) =
      (m.loadRegisters x).registers := by
    apply Bank.ext_get
    intro i
    rw [loadRegisters, Bank.get_ofFn, Bank.get_ofFn]
    exact ite_congr rfl (loaded i) fun _ => rfl
  rw [loadRegistersThrough, lanesThrough_eq x lanes, pure_bind, registers]
  rfl

theorem performThrough_eq (sound : d.Sound) {i : Instruction} (serves : Serves d m i) :
    m.performThrough d i = pure (m.perform i) := by
  cases i with
  | ret => exact retThrough_eq serves
  | call a => exact callThrough_eq a serves
  | arith op x y => exact arithThrough_eq sound op x y
  | drw x y rows => exact drawThrough_eq sound x y rows
  | skp x | sknp x => exact skipIfKeyThrough_eq sound x _
  | waitKey x => exact waitKeyThrough_eq sound x
  | storeDecimal x => exact storeDecimalThrough_eq sound x serves
  | storeRegisters x => exact storeRegistersThrough_eq x serves
  | loadRegisters x => exact loadRegistersThrough_eq x serves
  | cls | sys a | jp a | ldIndex a | illegal w => rfl
  -- The others reach no cell but those of the registers that their operands name.
  | _ =>
    simp only [performThrough, regThrough_eq sound, setRegisterThrough_eq sound, jumpOffsetThrough, pure_bind]
    rfl

theorem resumeThrough_eq (register : d.At 16 m.keyRegister.toNat) : m.resumeThrough d = pure m.resume := by
  unfold resumeThrough resume
  cases m.pressedKey? with
  | none => rfl
  | some k =>
    dsimp only
    rw [register.write, Bank.replace_natCast, pure_bind]

theorem cycleThrough_eq (sound : d.Sound) (pc : d.At 4096 m.pc.toNat)
    (serves : Serves d m.advance m.current) : m.cycleThrough d = pure m.cycle := by
  have performed : m.advance.performThrough d (Instruction.decode m.currentWord.toNat) =
      pure (m.advance.execute m.currentWord.toNat) := performThrough_eq sound serves
  rw [cycleThrough, currentWordThrough_eq sound pc, pure_bind, performed, pure_bind, cycle]

theorem stepThrough_eq (sound : d.Sound) (pc : d.At 4096 m.pc.toNat) (register : d.At 16 m.keyRegister.toNat)
    (serves : m.error = 0 → m.awaitingKey = false → Serves d m.advance m.current) :
    m.stepThrough d = pure m.step := by
  by_cases running : m.error = 0
  · cases waits : m.awaitingKey with
    | true =>
      rw [step_of_awaiting running waits, ← resumeThrough_eq register]
      simp [stepThrough, running, waits]
    | false =>
      rw [step_of_running running waits, ← cycleThrough_eq sound pc (serves running waits)]
      simp [stepThrough, running, waits]
  · rw [step_of_halted running, stepThrough, if_pos running]

theorem serves_checked {i : Instruction} (h : m.WellFormed) (faultless : m.fault? i = none) :
    Serves Accesses.checked m i := by
  obtain ⟨calls, holds, few, -⟩ := h.stack
  cases i with
  | call a =>
    simp [fault?] at faultless
    have room := holds.isFull_iff.not.mp (by simp [faultless.1])
    exact Accesses.checked_at (by rw [holds.1]; omega) (by rw [holds.1]; omega)
  | ret => exact Accesses.checked_at (by rw [holds.lowered]; omega) (by rw [holds.lowered]; omega)
  | storeDecimal x | storeRegisters x =>
    have inside := outsideProgram_eq_false.mp ((Fault.when_eq_none _ _).mp faultless)
    exact .checked inside.2
  | loadRegisters x =>
    simp [fault?, addressMask] at faultless
    exact .checked (by omega)
  | _ => trivial

/-- The step is its version with lenient accesses. After any actions since power-on a step that meets no fault
is its version with checked accesses as well: it never looks for a cell that is missing. -/
theorem accesses_stay_inside :
    (∀ m : Machine, m.stepThrough Accesses.lenient = (pure m.step : Id Machine)) ∧
    ∀ (key : Key) (strict : Bool) (actions : List Action),
      let m := (Machine.initial key strict).after actions
      (m.error = 0 → m.step.error = 0) → m.stepThrough Accesses.checked = some m.step := by
  constructor
  · intro m
    exact stepThrough_eq Accesses.lenient_sound (Accesses.lenient_at _ _) (Accesses.lenient_at _ _)
      fun _ _ => serves_lenient _ _
  · intro key strict actions m faultless
    have h : m.WellFormed := after_induction (WellFormed.initial key strict) (fun _ a h => h.act a) actions
    have pc := h.pc
    have register := h.keyRegister
    -- What the types of the operands do not bound is bounded by the invariant or by the absence of a fault.
    refine stepThrough_eq Accesses.checked_sound (Accesses.checked_at (by omega) (by omega))
      (Accesses.checked_at (by omega) (by omega)) fun running free => ?_
    exact serves_checked h.advance (step_of_faultless running free (faultless running)).1

def lastBytesProgram : Program :=
  [0xAF, 0xFD, 0xF2, 0x55]

theorem lastBytesProgram_stores (m : Machine) (pc : m.pc = 0x200) (running : m.error = 0)
    (free : m.awaitingKey = false) :
    (m.loaded lastBytesProgram).step.executed? = some (.storeRegisters 2) := by
  have fits : lastBytesProgram.length ≤ programCapacity := by decide
  have first : StandsOn m lastBytesProgram 0 (m.loaded lastBytesProgram) := .loaded pc running free
  generalize m.loaded lastBytesProgram = m₁ at first ⊢
  have points : m₁.executed? = some (.ldIndex 0xFFD) :=
    first.executes (w := 0xAFFD) fits (by decide) (by decide) rfl rfl
  have second := first.step_onward (by decide) points (perform_memory _ _) (perform_awaitingKey _ _)
    (by rw [perform_pc]; exact if_neg Bool.false_ne_true)
  have index : m₁.step.index = 0xFFD := by
    rw [step_of_executed points, perform_index]
    rfl
  exact second.executes (w := 0xF255) fits (by decide) (by decide) rfl (by rw [fault?, index]; rfl)

theorem lastBytesProgram_stays_inside :
    let m := (Machine.initial ⟨0, 0⟩).after [.load lastBytesProgram, .step]
    m.executed? = some (.storeRegisters 2) ∧ m.stepThrough Accesses.checked = some m.step := by
  have after : (Machine.initial ⟨0, 0⟩).after [.load lastBytesProgram, .step] =
      ((Machine.initial ⟨0, 0⟩).loaded lastBytesProgram).step := by
    rw [after_cons, act_load _ (by decide), after_cons, act_step, after_nil]
  have stores := lastBytesProgram_stores (Machine.initial ⟨0, 0⟩) (initial_pc _ _) (initial_error _ _)
    (initial_awaitingKey _ _)
  have inside := accesses_stay_inside.2 ⟨0, 0⟩ true [.load lastBytesProgram, .step]
  rw [after] at inside ⊢
  exact ⟨stores, inside fun _ => step_error_of_executed stores⟩

/-- Three registers do not fit in the last two bytes. -/
example :
    let m : Machine := { Machine.initial ⟨0, 0⟩ with
      memory := Memory.zero.write 0x200 [0xF2, 0x55], index := 0xFFE }
    m.step.error = Fault.addressOutOfRange.code ∧ m.stepThrough Accesses.checked = none := by
  decide +kernel

end Machine
end Chip8
