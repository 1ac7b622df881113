import Chip8.Proofs.Independence

/-! A strict machine beside a lenient one. The two go through the same states until the strict one refuses
the flag register as an operand, which is all that strictness does. -/

namespace Chip8

/-- Whether an instruction has the flag register both for its flag and for an operand. -/
def Instruction.overwritesOperand : Instruction → Bool
  | .arith _ x y => x == flagRegister || y == flagRegister
  | _ => false

namespace Machine

def lenient (m : Machine) : Machine :=
  { m with strict := false }

variable {m : Machine} {i : Instruction}

theorem overwritesOperand_of_refused (refused : m.fault? i = some .flagRegisterOperand) :
    i.overwritesOperand = true := by
  cases i with
  | arith op x y =>
    have strictly : m.strict = true ∧ (x = flagRegister ∨ y = flagRegister) := by
      simpa [fault?] using refused
    simpa [Instruction.overwritesOperand] using strictly.2
  | _ => simp [fault?] at refused

theorem fault?_lenient (unrefused : m.fault? i ≠ some .flagRegisterOperand) :
    m.lenient.fault? i = m.fault? i := by
  cases i with
  | arith op x y =>
    have allowed : (m.strict && (x == flagRegister || y == flagRegister)) = false := by
      simpa [fault?] using unrefused
    rw [fault?, fault?, allowed, lenient, Bool.false_and]
  | _ => rfl

theorem perform_lenient (unrefused : m.fault? i ≠ some .flagRegisterOperand) :
    m.lenient.perform i = (m.perform i).lenient := by
  apply Machine.ext
  case key => exact (perform_key _ i).trans (perform_key m i).symm
  case memory => exact (perform_memory _ i).trans (perform_memory m i).symm
  case pc => exact (perform_pc _ i).trans (perform_pc m i).symm
  case display => exact (perform_display _ i).trans (perform_display m i).symm
  case stack => exact (perform_stack _ i).trans (perform_stack m i).symm
  case delayTimer => exact (perform_delayTimer _ i).trans (perform_delayTimer m i).symm
  case soundTimer => exact (perform_soundTimer _ i).trans (perform_soundTimer m i).symm
  case keypad => exact (perform_keypad _ i).trans (perform_keypad m i).symm
  case registers => exact (perform_registers _ i).trans (perform_registers m i).symm
  case index => exact (perform_index _ i).trans (perform_index m i).symm
  case awaitingKey => exact (perform_awaitingKey _ i).trans (perform_awaitingKey m i).symm
  case keyRegister => exact (perform_keyRegister _ i).trans (perform_keyRegister m i).symm
  case drawFlag => exact (perform_drawFlag _ i).trans (perform_drawFlag m i).symm
  case strict => exact perform_strict _ i
  case error =>
    refine ((perform_error _ i).trans ?_).trans (perform_error m i).symm
    rw [fault?_lenient unrefused]
    rfl

/-- A step does the same without strictness unless strictness is what it fails for. -/
theorem step_lenient (unrefused : m.step.error ≠ Fault.flagRegisterOperand.code) :
    m.lenient.step = m.step.lenient := by
  have other (running : m.error = 0) (free : m.awaitingKey = false) :
      m.fault? m.current ≠ some .flagRegisterOperand := by
    intro refused
    rw [step_of_running running free, cycle_of_fault running refused] at unrefused
    exact unrefused rfl
  refine step_lockstep (motive := fun n n' => n' = n.lenient) m m.lenient rfl rfl ?fault ?keys ?unmoved
    ?woken ?faulted ?executed
  case fault => exact fun running free => fault?_lenient (other running free)
  case keys => exact fun _ _ => rfl
  case unmoved => rfl
  case woken => exact fun _ _ _ _ => rfl
  case faulted => exact fun f _ _ _ => rfl
  case executed =>
    intro running free _
    exact perform_lenient (m := m.advance) (fault?_advance m m.current ▸ other running free)

theorem current_of_refused (running : m.error = 0) (refused : m.step.error = Fault.flagRegisterOperand.code) :
    m.current.overwritesOperand = true := by
  revert refused
  refine step_cases m ?halted ?waiting ?woken ?faulted ?executed
  case halted => exact fun halted => absurd running halted
  case waiting => exact fun _ _ _ refused => absurd (running.symm.trans refused) (by decide)
  case woken => exact fun _ _ _ _ refused => absurd (running.symm.trans refused) (by decide)
  case faulted =>
    intro f _ _ fault refused
    obtain rfl : f = .flagRegisterOperand := by cases f <;> first | rfl | cases refused
    exact overwritesOperand_of_refused fault
  case executed => exact fun _ _ _ ok refused => absurd (ok.symm.trans refused) (by decide)

theorem act_lenient {a : Action} (noReset : a.isReset = false)
    (unrefused : (m.act a).error ≠ Fault.flagRegisterOperand.code) :
    m.lenient.act a = (m.act a).lenient := by
  cases a with
  | step => exact step_lenient unrefused
  | tick | lowerDrawFlag => rfl
  | setKeys keys =>
    rw [act, act, setKeys, setKeys]
    cases keys.toKeypad <;> rfl
  | setKey key down =>
    rw [act, act, setKey, setKey]
    cases Nibble.ofInt? key <;> rfl
  | load p =>
    rw [act, act, load, load]
    split <;> rfl
  | reset p => cases noReset

theorem after_lenient {actions : List Action} (noReset : ∀ a ∈ actions, a.isReset = false)
    (unrefused : (m.after actions).error ≠ Fault.flagRegisterOperand.code) :
    m.lenient.after actions = (m.after actions).lenient := by
  induction actions generalizing m with
  | nil => rfl
  | cons a actions ih =>
    obtain ⟨noReset, noResets⟩ := List.forall_mem_cons.mp noReset
    have first : (m.act a).error ≠ Fault.flagRegisterOperand.code := by
      intro refused
      apply unrefused
      rw [after_cons, after_error_of_halted (refused ▸ Fault.code_ne_zero _) noResets, refused]
    rw [after_cons, after_cons, act_lenient noReset first]
    exact ih noResets unrefused

/-- A machine that was refused an operand ran up to the step that refused it. -/
theorem exists_refused_step (running : m.error = 0) {actions : List Action}
    (noReset : ∀ a ∈ actions, a.isReset = false)
    (refused : (m.after actions).error = Fault.flagRegisterOperand.code) :
    ∃ before rest, actions = before ++ .step :: rest ∧ (m.after before).error = 0 ∧
      (m.after before).step.error = Fault.flagRegisterOperand.code := by
  induction actions generalizing m with
  | nil => exact absurd (running.symm.trans refused) (by decide)
  | cons a actions ih =>
    obtain ⟨noReset, noResets⟩ := List.forall_mem_cons.mp noReset
    by_cases goesOn : (m.act a).error = 0
    · obtain ⟨before, rest, split, still, refusal⟩ := ih goesOn noResets refused
      exact ⟨a :: before, rest, congrArg (a :: ·) split, still, refusal⟩
    · -- The fault is the one that is found in the end, and only a step records one.
      have now : (m.act a).error = Fault.flagRegisterOperand.code :=
        (after_error_of_halted goesOn noResets).symm.trans refused
      cases isStep : a.isStep with
      | true =>
        obtain rfl := Action.eq_step isStep
        exact ⟨[], actions, rfl, running, now⟩
      | false => exact absurd ((m.act_error isStep noReset).trans running) goesOn

/-- Two machines that differ in strictness alone agree in all else after any actions without a reset, unless
the strict one has refused the flag register as an operand. Then one step refused it, in an instruction
that has the flag register for its flag as well, and the two agree up to that step. -/
theorem strictness_only_restricts (m : Machine) (running : m.error = 0) (actions : List Action)
    (noReset : ∀ a ∈ actions, a.isReset = false) :
    let t := m.after actions
    let t' := { m with strict := false }.after actions
    (t.error ≠ Fault.flagRegisterOperand.code → t' = { t with strict := false }) ∧
    (t.error = Fault.flagRegisterOperand.code → ∃ before rest, actions = before ++ .step :: rest ∧
      (m.after before).error = 0 ∧ (m.after before).step.error = Fault.flagRegisterOperand.code ∧
      (m.after before).current.overwritesOperand = true ∧
      ∀ first, first <+: before →
        { m with strict := false }.after first = { m.after first with strict := false }) := by
  intro t t'
  refine ⟨after_lenient noReset, fun refused => ?_⟩
  obtain ⟨before, rest, split, still, refusal⟩ := exists_refused_step running noReset refused
  refine ⟨before, rest, split, still, refusal, current_of_refused still refusal, ?_⟩
  rintro first ⟨between, rfl⟩
  have noResets {a : Action} (member : a ∈ first ∨ a ∈ between) : a.isReset = false :=
    noReset a (by rw [split]; simp only [List.mem_append]; exact .inl member)
  refine after_lenient (fun a member => noResets (.inl member)) fun halted => ?_
  -- A machine that is halted here would be halted at the step.
  rw [after_append, after_error_of_halted (halted ▸ Fault.code_ne_zero _)
    (fun a member => noResets (.inr member)), halted] at still
  exact Fault.code_ne_zero _ still

/-- Adding the flag register is refused after a tick, and the two machines agree until then. -/
theorem flag_operand_is_refused :
    let m : Machine := { Machine.initial ⟨0, 0⟩ with memory := Memory.zero.write 0x200 [0x80, 0xF4] }
    let actions : List Action := [.tick, .step, .step]
    (m.after actions).error = Fault.flagRegisterOperand.code ∧
    ∃ before rest, actions = before ++ .step :: rest ∧
      (m.after before).error = 0 ∧ (m.after before).step.error = Fault.flagRegisterOperand.code ∧
      (m.after before).current.overwritesOperand = true ∧
      ∀ first, first <+: before →
        { m with strict := false }.after first = { m.after first with strict := false } := by
  intro m actions
  have refused : (m.after actions).error = Fault.flagRegisterOperand.code := by decide +kernel
  exact ⟨refused, (strictness_only_restricts m rfl actions (by decide)).2 refused⟩

end Machine
end Chip8
