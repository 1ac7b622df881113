import Chip8.Proofs.Independence

/-! The fields that no instruction reads: the sound timer, the draw flag and, unless a wait is on, the register
of a wait. Two machines that differ in nothing else go on to differ in nothing else. -/

namespace Chip8.Machine

/-- Two machines differ at most in what no instruction reads. While they wait for a key they have the same
register to put it into. -/
structure Agree (m m' : Machine) : Prop where
  key : m'.key = m.key
  memory : m'.memory = m.memory
  pc : m'.pc = m.pc
  display : m'.display = m.display
  stack : m'.stack = m.stack
  delayTimer : m'.delayTimer = m.delayTimer
  keypad : m'.keypad = m.keypad
  registers : m'.registers = m.registers
  index : m'.index = m.index
  awaitingKey : m'.awaitingKey = m.awaitingKey
  keyRegister : m.awaitingKey = true → m'.keyRegister = m.keyRegister
  error : m'.error = m.error
  strict : m'.strict = m.strict

def withOutputs (m : Machine) (sound : UInt8) (drawFlag : Bool) (register : UInt8) : Machine :=
  { m with soundTimer := sound, drawFlag := drawFlag, keyRegister := register }

section withOutputs

variable {m : Machine} {sound register : UInt8} {drawFlag : Bool}

theorem fault?_withOutputs (i : Instruction) :
    (m.withOutputs sound drawFlag register).fault? i = m.fault? i := by
  cases i <;> rfl

/-- An instruction does the same to the rest of the machine. If it begins to wait, it sets the register. -/
theorem perform_withOutputs (wait : m.awaitingKey = true → register = m.keyRegister) (i : Instruction) :
    (m.perform i).Agree ((m.withOutputs sound drawFlag register).perform i) where
  key := (perform_key _ i).trans (perform_key m i).symm
  memory := (perform_memory _ i).trans (perform_memory m i).symm
  pc := (perform_pc _ i).trans (perform_pc m i).symm
  display := (perform_display _ i).trans (perform_display m i).symm
  stack := (perform_stack _ i).trans (perform_stack m i).symm
  delayTimer := (perform_delayTimer _ i).trans (perform_delayTimer m i).symm
  keypad := (perform_keypad _ i).trans (perform_keypad m i).symm
  registers := (perform_registers _ i).trans (perform_registers m i).symm
  index := (perform_index _ i).trans (perform_index m i).symm
  awaitingKey := (perform_awaitingKey _ i).trans (perform_awaitingKey m i).symm
  keyRegister awaits := by
    rw [perform_awaitingKey] at awaits
    rw [perform_keyRegister, perform_keyRegister]
    cases i with
    | waitKey x =>
      have same : (m.withOutputs sound drawFlag register).pressedKey? = m.pressedKey? := rfl
      rw [same]
      cases key : m.pressedKey? with
      | none => rfl
      | some k => exact wait (by simpa [key] using awaits)
    | _ => exact wait awaits
  error := by
    refine ((perform_error _ i).trans ?_).trans (perform_error m i).symm
    rw [fault?_withOutputs]
    rfl
  strict := (perform_strict _ i).trans (perform_strict m i).symm

end withOutputs

namespace Agree

variable {m m' : Machine}

theorem refl (m : Machine) : m.Agree m := by
  constructor
  case keyRegister => exact fun _ => rfl
  all_goals rfl

theorem eq_withOutputs (h : m.Agree m') : m' = m.withOutputs m'.soundTimer m'.drawFlag m'.keyRegister := by
  apply Machine.ext
  case key => exact h.key
  case memory => exact h.memory
  case pc => exact h.pc
  case display => exact h.display
  case stack => exact h.stack
  case delayTimer => exact h.delayTimer
  case keypad => exact h.keypad
  case registers => exact h.registers
  case index => exact h.index
  case awaitingKey => exact h.awaitingKey
  case error => exact h.error
  case strict => exact h.strict
  all_goals rfl

@[elab_as_elim]
theorem cases {motive : Machine → Prop} (h : m.Agree m')
    (withOutputs : ∀ sound drawFlag register, (m.awaitingKey = true → register = m.keyRegister) →
      motive (m.withOutputs sound drawFlag register)) : motive m' :=
  h.eq_withOutputs ▸ withOutputs _ _ _ h.keyRegister

theorem fault? (h : m.Agree m') (i : Instruction) : m'.fault? i = m.fault? i :=
  h.cases fun _ _ _ _ => fault?_withOutputs i

theorem advance (h : m.Agree m') : m.advance.Agree m'.advance :=
  { h with pc := congrArg following h.pc }

theorem perform (h : m.Agree m') (i : Instruction) : (m.perform i).Agree (m'.perform i) :=
  h.cases fun _ _ _ wait => perform_withOutputs wait i

theorem step (h : m.Agree m') : m.step.Agree m'.step := by
  have current : m'.current = m.current := current_congr h.memory h.pc
  refine step_lockstep m m' h.error h.awaitingKey ?fault ?keys ?unmoved ?woken ?faulted ?executed
  case fault =>
    intro _ _
    rw [current]
    exact h.fault? m.current
  case keys => exact fun _ _ => pressedKey?_congr h.keypad
  case unmoved => exact h
  case woken =>
    intro k _ await _
    have register : m'.keyRegister = m.keyRegister := h.keyRegister await
    have registers : m'.registers.setIfIn m'.keyRegister.toNat (UInt8.ofNat k.val) =
        m.registers.setIfIn m.keyRegister.toNat (UInt8.ofNat k.val) := by
      rw [h.registers, register]
    exact { h with
      pc := congrArg following h.pc
      registers := registers
      awaitingKey := rfl
      keyRegister := fun _ => register }
  case faulted => exact fun f _ _ _ => { h with error := rfl }
  case executed =>
    intro _ _ _
    rw [current]
    exact h.advance.perform m.current

theorem tick (h : m.Agree m') : m.tick.Agree m'.tick :=
  { h with delayTimer := congrArg (fun delay => if delay = 0 then 0 else delay - 1) h.delayTimer }

theorem setKeys (h : m.Agree m') (keys : Switches) :
    (m.settle (m.setKeys keys)).Agree (m'.settle (m'.setKeys keys)) := by
  rw [Machine.setKeys, Machine.setKeys]
  cases keys.toKeypad with
  | error e => exact h
  | ok keypad => exact { h with keypad := rfl }

theorem setKey (h : m.Agree m') (key : Int) (down : Bool) :
    (m.settle (m.setKey key down)).Agree (m'.settle (m'.setKey key down)) := by
  rw [Machine.setKey, Machine.setKey]
  cases Nibble.ofInt? key with
  | none => exact h
  | some k => exact { h with keypad := congrArg (Bank.set · k down) h.keypad }

theorem setMemory (h : m.Agree m') (memory : Memory) :
    (m.setMemory memory).Agree (m'.setMemory memory) :=
  { h with memory := rfl }

theorem loaded (h : m.Agree m') (p : Program) : (m.loaded p).Agree (m'.loaded p) := by
  unfold Machine.loaded
  rw [h.memory]
  exact h.setMemory _

theorem load (h : m.Agree m') (p : Program) :
    (m.settle (m.load p)).Agree (m'.settle (m'.load p)) := by
  rw [Machine.load, Machine.load]
  by_cases large : programCapacity < p.length
  · rw [if_pos large, if_pos large]
    exact h
  · rw [if_neg large, if_neg large]
    exact h.loaded p

theorem reset (h : m.Agree m') (p : Option Program) :
    (m.settle (m.reset p)).Agree (m'.settle (m'.reset p)) := by
  have same : m'.reset p = m.reset p := by
    unfold Machine.reset
    rw [h.key, h.strict]
  rw [same]
  cases m.reset p with
  | ok n => exact refl n
  | error e => exact h

theorem act (h : m.Agree m') (a : Action) : (m.act a).Agree (m'.act a) := by
  cases a with
  | step => exact h.step
  | tick => exact h.tick
  | setKeys keys => exact h.setKeys keys
  | setKey key down => exact h.setKey key down
  | lowerDrawFlag => exact { h with }
  | load p => exact h.load p
  | reset p => exact h.reset p

end Agree

/-- Machines that differ in nothing but what no instruction reads still differ in nothing else after any
actions, and while they wait for a key they have the same register to put it into. -/
theorem outputs_do_not_interfere {m m' : Machine} (h : m.Agree m') (actions : List Action) :
    (m.after actions).Agree (m'.after actions) := by
  induction actions generalizing m m' with
  | nil => exact h
  | cons a actions ih => exact ih (h.act a)

/-- A program that waits for a key, on a machine at power-on and on one with other outputs. -/
theorem waits_end_alike :
    let m : Machine := { Machine.initial ⟨0, 0⟩ with memory := Memory.zero.write 0x200 [0xF3, 0x0A] }
    let m' : Machine := { m with soundTimer := 9, drawFlag := true, keyRegister := 7 }
    let keys : Switches := { shape := [16], value := fun i => decide (i = 9) }
    m.Agree m' ∧ m'.keyRegister ≠ m.keyRegister ∧
      (m.after [.step, .tick]).Agree (m'.after [.step, .tick]) ∧
      (m.after [.step, .tick]).awaitingKey = true ∧
      (m'.after [.step, .tick]).keyRegister = (m.after [.step, .tick]).keyRegister ∧
      (m.after [.step, .tick, .setKeys keys, .step]).Agree
        (m'.after [.step, .tick, .setKeys keys, .step]) ∧
      (m'.after [.step, .tick, .setKeys keys, .step]).reg 3 = 9 := by
  intro m m' keys
  have agree : m.Agree m' := { Agree.refl m with keyRegister := by simp [m, initial] }
  have parked := outputs_do_not_interfere agree [.step, .tick]
  have await : (m.after [.step, .tick]).awaitingKey = true := by decide +kernel
  exact ⟨agree, by decide, parked, await, parked.keyRegister await,
    outputs_do_not_interfere agree [.step, .tick, .setKeys keys, .step], by decide +kernel⟩

end Chip8.Machine
