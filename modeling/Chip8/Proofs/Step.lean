import Chip8.Machine.Cycle
import Chip8.Proofs.Effect

/-! What a step can do, and which instruction it executes, if any. -/

namespace Chip8.Machine

def current (m : Machine) : Instruction :=
  Instruction.decode m.currentWord.toNat

variable {m m' : Machine}

theorem currentWord_congr (memory : m'.memory = m.memory) (pc : m'.pc = m.pc) :
    m'.currentWord = m.currentWord := by
  rw [currentWord, currentWord, memory, pc]

theorem current_congr (memory : m'.memory = m.memory) (pc : m'.pc = m.pc) : m'.current = m.current := by
  rw [current, current, currentWord_congr memory pc]

theorem pressedKey?_congr (keypad : m'.keypad = m.keypad) : m'.pressedKey? = m.pressedKey? := by
  have down : m'.isDown = m.isDown := by
    funext k
    rw [isDown, isDown, keypad]
  rw [pressedKey?, pressedKey?, down]

theorem fault?_advance (m : Machine) (i : Instruction) : m.advance.fault? i = m.fault? i := by
  cases i <;> rfl

theorem advance_registers (m : Machine) : m.advance.registers = m.registers := rfl

theorem step_of_halted (h : m.error ≠ 0) : m.step = m :=
  if_pos h

theorem run_of_step_eq (h : m.step = m) (n : Nat) : m.run n = m := by
  induction n with
  | zero => rfl
  | succ n ih => rw [run_succ, h, ih]

theorem run_of_halted (h : m.error ≠ 0) (n : Nat) : m.run n = m :=
  run_of_step_eq (step_of_halted h) n

theorem step_of_awaiting (running : m.error = 0) (h : m.awaitingKey = true) :
    m.step = m.resume := by
  simp [step, running, h]

theorem step_of_running (running : m.error = 0) (h : m.awaitingKey = false) :
    m.step = m.cycle := by
  simp [step, running, h]

theorem perform_current_error (running : m.error = 0) :
    (m.advance.perform m.current).error = Fault.codeOf (m.fault? m.current) := by
  rw [perform_error, fault?_advance, if_pos (show m.advance.error = 0 from running)]

theorem cycle_of_fault {f : Fault} (running : m.error = 0) (h : m.fault? m.current = some f) :
    m.cycle = { m with error := f.code } := by
  have error : (m.advance.perform m.current).error = f.code := by
    rw [perform_current_error running, h, Fault.codeOf]
  have recorded : ¬(m.advance.perform m.current).error = 0 := error ▸ f.code_ne_zero
  rw [← error]
  exact if_neg recorded

theorem cycle_of_no_fault (running : m.error = 0) (h : m.fault? m.current = none) :
    m.cycle = m.advance.perform m.current := by
  have error : (m.advance.perform m.current).error = 0 := by
    rw [perform_current_error running, h, Fault.codeOf]
  exact if_pos error

/-- All that a step can do: nothing on a halted machine or without a key, the end of a wait, a fault,
or an instruction. -/
@[elab_as_elim]
theorem step_cases {motive : Machine → Prop} (m : Machine)
    (halted : m.error ≠ 0 → motive m)
    (waiting : m.error = 0 → m.awaitingKey = true → m.pressedKey? = none → motive m)
    (woken : ∀ k, m.error = 0 → m.awaitingKey = true → m.pressedKey? = some k → motive
      { m with
        registers := m.registers.setIfIn m.keyRegister.toNat (UInt8.ofNat k.val)
        pc := following m.pc
        awaitingKey := false })
    (faulted : ∀ f, m.error = 0 → m.awaitingKey = false → m.fault? m.current = some f →
      motive { m with error := f.code })
    (executed : m.error = 0 → m.awaitingKey = false → m.fault? m.current = none →
      (m.advance.perform m.current).error = 0 → motive (m.advance.perform m.current)) :
    motive m.step := by
  by_cases running : m.error = 0
  · cases await : m.awaitingKey with
    | true =>
      rw [step_of_awaiting running await]
      unfold resume
      cases key : m.pressedKey? with
      | none => exact waiting running await key
      | some k => exact woken k running await key
    | false =>
      rw [step_of_running running await]
      cases fault : m.fault? m.current with
      | none =>
        rw [cycle_of_no_fault running fault]
        exact executed running await fault (by rw [perform_current_error running, fault, Fault.codeOf])
      | some f =>
        rw [cycle_of_fault running fault]
        exact faulted f running await fault
  · rw [step_of_halted running]
    exact halted running

/-- Two machines for which the same thing is in the way of a step, or nothing, go through a step side by
side. -/
@[elab_as_elim]
theorem step_lockstep {motive : Machine → Machine → Prop} (m m' : Machine)
    (error : m'.error = m.error) (await : m'.awaitingKey = m.awaitingKey)
    (fault : m.error = 0 → m.awaitingKey = false → m'.fault? m'.current = m.fault? m.current)
    (keys : m.error = 0 → m.awaitingKey = true → m'.pressedKey? = m.pressedKey?)
    (unmoved : motive m m')
    (woken : ∀ k, m.error = 0 → m.awaitingKey = true → m.pressedKey? = some k → motive
      { m with
        registers := m.registers.setIfIn m.keyRegister.toNat (UInt8.ofNat k.val)
        pc := following m.pc
        awaitingKey := false }
      { m' with
        registers := m'.registers.setIfIn m'.keyRegister.toNat (UInt8.ofNat k.val)
        pc := following m'.pc
        awaitingKey := false })
    (faulted : ∀ f, m.error = 0 → m.awaitingKey = false → m.fault? m.current = some f →
      motive { m with error := f.code } { m' with error := f.code })
    (executed : m.error = 0 → m.awaitingKey = false → m.fault? m.current = none →
      motive (m.advance.perform m.current) (m'.advance.perform m'.current)) :
    motive m.step m'.step := by
  by_cases running : m.error = 0
  · cases waits : m.awaitingKey with
    | true =>
      rw [step_of_awaiting running waits, step_of_awaiting (error.trans running) (await.trans waits),
        resume, resume, keys running waits]
      cases key : m.pressedKey? with
      | none => exact unmoved
      | some k => exact woken k running waits key
    | false =>
      rw [step_of_running running waits, step_of_running (error.trans running) (await.trans waits)]
      have same := fault running waits
      cases result : m.fault? m.current with
      | none =>
        rw [cycle_of_no_fault running result,
          cycle_of_no_fault (error.trans running) (same.trans result)]
        exact executed running waits result
      | some f =>
        rw [cycle_of_fault running result, cycle_of_fault (error.trans running) (same.trans result)]
        exact faulted f running waits result
  · rw [step_of_halted running, step_of_halted (error ▸ running)]
    exact unmoved

/-- The instruction that a step executes, unless the machine is halted, waits or meets a fault. -/
def executed? (m : Machine) : Option Instruction :=
  if m.error = 0 ∧ m.awaitingKey = false ∧ m.step.error = 0 then some m.current else none

theorem executed?_eq_some {i : Instruction} : m.executed? = some i ↔
    m.error = 0 ∧ m.awaitingKey = false ∧ m.fault? m.current = none ∧ m.current = i := by
  unfold executed?
  by_cases running : m.error = 0
  · by_cases free : m.awaitingKey = false
    · rw [step_of_running running free]
      cases fault : m.fault? m.current with
      | none =>
        rw [cycle_of_no_fault running fault, perform_current_error running, fault]
        simp [running, free, Fault.codeOf]
      | some f =>
        rw [cycle_of_fault running fault]
        simp [Fault.code_ne_zero]
    · simp [free]
  · simp [running]

theorem step_error_of_executed {i : Instruction} (h : m.executed? = some i) : m.step.error = 0 := by
  unfold executed? at h
  by_cases executes : m.error = 0 ∧ m.awaitingKey = false ∧ m.step.error = 0
  · exact executes.2.2
  · simp [executes] at h

theorem executed?_of_fault (fault : m.step.error ≠ 0) : m.executed? = none :=
  if_neg fun executes => fault executes.2.2

theorem step_of_executed {i : Instruction} (h : m.executed? = some i) :
    m.step = m.advance.perform i := by
  obtain ⟨running, free, faultless, rfl⟩ := executed?_eq_some.mp h
  exact (step_of_running running free).trans (cycle_of_no_fault running faultless)

theorem step_of_faultless (running : m.error = 0) (free : m.awaitingKey = false)
    (faultless : m.step.error = 0) :
    m.fault? m.current = none ∧ m.step = m.advance.perform m.current := by
  have executed : m.executed? = some m.current := if_pos ⟨running, free, faultless⟩
  exact ⟨(executed?_eq_some.mp executed).2.2.1, step_of_executed executed⟩

theorem executed?_of_word {w : UInt16} {i : Instruction} (running : m.error = 0)
    (free : m.awaitingKey = false) (word : m.currentWord = w)
    (decodes : Instruction.decode w.toNat = i) (faultless : m.fault? i = none) :
    m.executed? = some i := by
  have current : m.current = i := by
    rw [current, word, decodes]
  exact executed?_eq_some.mpr ⟨running, free, current ▸ faultless, current⟩

/-- A step that executes nothing can end a wait or record a fault and touches nothing else. -/
theorem step_of_not_executed (h : m.executed? = none) : ∃ registers pc awaitingKey error,
    m.step = { m with
      registers := registers, pc := pc, awaitingKey := awaitingKey, error := error } := by
  revert h
  refine step_cases m ?halted ?waiting ?woken ?faulted ?executed
  case halted => exact fun _ _ => ⟨m.registers, m.pc, m.awaitingKey, m.error, rfl⟩
  case waiting => exact fun _ _ _ _ => ⟨m.registers, m.pc, m.awaitingKey, m.error, rfl⟩
  case woken => exact fun _ _ _ _ _ => ⟨_, _, _, m.error, rfl⟩
  case faulted => exact fun f _ _ _ _ => ⟨m.registers, m.pc, m.awaitingKey, f.code, rfl⟩
  case executed =>
    intro running free faultless _ idle
    rw [executed?_eq_some.mpr ⟨running, free, faultless, rfl⟩] at idle
    cases idle

theorem step_stack (m : Machine) : m.step.stack = match m.executed? with
    | some (.call _) => m.stack.push (following m.pc).toNat
    | some .ret => m.stack.pop
    | _ => m.stack := by
  cases executed : m.executed? with
  | none =>
    obtain ⟨registers, pc, awaitingKey, error, step⟩ := step_of_not_executed executed
    rw [step]
  | some i =>
    rw [step_of_executed executed, perform_stack]
    cases i <;> rfl

theorem step_soundTimer (m : Machine) : m.step.soundTimer = match m.executed? with
    | some (.setSound x) => m.reg x
    | _ => m.soundTimer := by
  cases executed : m.executed? with
  | none =>
    obtain ⟨registers, pc, awaitingKey, error, step⟩ := step_of_not_executed executed
    rw [step]
  | some i =>
    rw [step_of_executed executed, perform_soundTimer]
    cases i <;> rfl

def silences (m : Machine) : Bool :=
  m.soundTimer != 0 && m.executed?.any fun
    | .setSound x => m.reg x == 0
    | _ => false

theorem silences_iff : m.silences = true ↔ m.soundTimer ≠ 0 ∧ m.step.soundTimer = 0 := by
  rw [silences, Bool.and_eq_true, bne_iff_ne, step_soundTimer]
  refine and_congr_right fun sounding => ?_
  cases m.executed? with
  | none => exact iff_of_false Bool.false_ne_true sounding
  | some i =>
    cases i with
    | setSound x => exact beq_iff_eq
    | _ => exact iff_of_false Bool.false_ne_true sounding

def draws (m : Machine) : Bool :=
  m.executed?.any Instruction.draws

theorem draws_of_fault (fault : m.step.error ≠ 0) : m.draws = false := by
  rw [draws, executed?_of_fault fault]
  rfl

theorem step_drawFlag (m : Machine) : m.step.drawFlag = (m.draws || m.drawFlag) := by
  cases executed : m.executed? with
  | none =>
    obtain ⟨registers, pc, awaitingKey, error, step⟩ := step_of_not_executed executed
    rw [step, draws, executed]
    rfl
  | some i =>
    rw [step_of_executed executed, perform_drawFlag, draws, executed]
    rfl

theorem step_display (still : m.draws = false) : m.step.display = m.display := by
  cases executed : m.executed? with
  | none =>
    obtain ⟨registers, pc, awaitingKey, error, step⟩ := step_of_not_executed executed
    rw [step]
  | some i =>
    rw [draws, executed] at still
    rw [step_of_executed executed, perform_display]
    cases i with
    | cls => cases still
    | drw x y rows => cases still
    | _ => rfl

end Chip8.Machine
