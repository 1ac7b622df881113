import Chip8.Proofs.CallStack
import Chip8.Proofs.Encoding

/-! The machines that a step leaves alone. An instruction that is carried out moves the program counter, the call stack
or the flag of a wait, unless it is a jump to its own address. -/

namespace Chip8.Machine

variable {m : Machine} {i : Instruction}

/-- The word at the program counter jumps to the program counter, directly or by register 0. -/
def JumpsToItself (m : Machine) : Prop :=
  let w := m.currentWord.toNat
  0x200 ≤ m.pc.toNat ∧
    (w / 4096 = 0x1 ∧ w % 4096 = m.pc.toNat ∨
      w / 4096 = 0xB ∧ w % 4096 + (m.reg Nibble.zero).toNat = m.pc.toNat)

def Targets (m : Machine) : Instruction → Prop
  | .jp a => a.val = m.pc.toNat
  | .jpOffset a => m.offsetTarget a = m.pc.toNat
  | _ => False

theorem jumpsToItself_iff : m.JumpsToItself ↔ 0x200 ≤ m.pc.toNat ∧ m.Targets m.current := by
  have := m.currentWord.toNat_lt
  constructor
  · rintro ⟨region, ⟨family, target⟩ | ⟨family, target⟩⟩
    · have current : m.current = .jp ⟨m.currentWord.toNat % 4096, by omega⟩ :=
        current_of_word (by simp only [Instruction.encode, Word.ofAddress]; omega) rfl
      exact ⟨region, current ▸ target⟩
    · have current : m.current = .jpOffset ⟨m.currentWord.toNat % 4096, by omega⟩ :=
        current_of_word (by simp only [Instruction.encode, Word.ofAddress]; omega) rfl
      exact ⟨region, current ▸ target⟩
  · rintro ⟨region, target⟩
    have word := m.currentWord_eq_encode
    refine ⟨region, ?_⟩
    cases current : m.current with
    | jp a =>
      rw [current] at target word
      exact .inl (by simpa [word, Instruction.encode, Targets] using target)
    | jpOffset a =>
      rw [current] at target word
      exact .inr (by simpa [word, Instruction.encode, Targets, offsetTarget] using target)
    | _ =>
      rw [current] at target
      cases target

theorem following_ne (pc : UInt16) : following pc ≠ pc := by
  intro same
  have := congrArg UInt16.toNat same
  rw [following_toNat] at this
  omega

theorem following_following_ne (pc : UInt16) : following (following pc) ≠ pc := by
  intro same
  have := congrArg UInt16.toNat same
  rw [following_toNat, following_toNat] at this
  omega

theorem jumped_eq_self_iff {a : Nat} (h : a ≤ 0xFFF) : { m with pc := UInt16.ofNat a } = m ↔ a = m.pc.toNat := by
  have address : (UInt16.ofNat a).toNat = a := by
    rw [UInt16.toNat_ofNat']
    omega
  rw [← address, UInt16.toNat_inj, address]
  exact ⟨congrArg Machine.pc, fun same => by rw [same]⟩

/-- Without a fault, a jump to the program counter is all that changes nothing. -/
theorem perform_eq_self_iff (free : m.awaitingKey = false) (faultless : m.fault? i = none) :
    m.advance.perform i = m ↔ m.Targets i := by
  cases i with
  | sys a | illegal w => cases faultless
  | jp a =>
    have inside := (Fault.when_eq_none _ _).mp faultless
    have result : m.advance.perform (.jp a) = { m with pc := UInt16.ofNat a.val } := by
      rw [perform, jump, failIf_of_not inside]
      rfl
    rw [result, jumped_eq_self_iff (Nat.le_of_lt_succ a.isLt), Targets]
  | jpOffset a =>
    have inside := (Fault.when_eq_none _ _).mp faultless
    have target : m.offsetTarget a ≤ 0xFFF := by simp at inside; exact inside.2
    have result : m.advance.perform (.jpOffset a) = { m with pc := UInt16.ofNat (m.offsetTarget a) } := by
      have same : m.advance.offsetTarget a = m.offsetTarget a := rfl
      rw [perform, jumpOffset, same, failIf_of_not inside, Nat.mod_eq_of_lt (Nat.lt_succ_of_le target)]
      rfl
    rw [result, jumped_eq_self_iff target, Targets]
  | ret =>
    have nonempty : m.stack.isEmpty = false := (Fault.when_eq_none _ _).mp faultless
    refine iff_of_false (fun same => CallStack.pop_ne nonempty ?_) not_false
    exact (perform_stack m.advance .ret).symm.trans (congrArg Machine.stack same)
  | call a =>
    refine iff_of_false (fun same => CallStack.push_ne m.stack m.advance.pc.toNat ?_) not_false
    exact (perform_stack m.advance (.call a)).symm.trans (congrArg Machine.stack same)
  | waitKey x =>
    -- The flag stays down only if a key is down, and then the program counter goes on.
    refine iff_of_false (fun same => following_ne m.pc ?_) not_false
    have await := congrArg Machine.awaitingKey same
    have landing := congrArg Machine.pc same
    rw [perform_awaitingKey, show m.advance.awaitingKey = false from free, free] at await
    have pressed : m.advance.pressedKey?.isSome = true := by simpa using await
    rw [perform_pc] at landing
    dsimp only at landing
    rwa [if_pos pressed] at landing
  | _ =>
    -- All others go on behind the instruction or, if they skip, behind the next one.
    refine iff_of_false (fun same => ?_) not_false
    have landing := congrArg Machine.pc same
    rw [perform_pc] at landing
    dsimp only at landing
    split at landing
    · exact following_following_ne m.pc landing
    · exact following_ne m.pc landing

theorem fault?_eq_none_iff_of_targets (pc : m.pc.toNat ≤ 0xFFF) (target : m.Targets i) :
    m.fault? i = none ↔ 0x200 ≤ m.pc.toNat := by
  cases i with
  | jp a =>
    have target : a.val = m.pc.toNat := target
    simp [fault?, target]
  | jpOffset a =>
    have target : m.offsetTarget a = m.pc.toNat := target
    simp [fault?, target, pc]
  | _ => cases target

theorem step_eq_self_iff_of_running (pc : m.pc.toNat ≤ 0xFFF) (running : m.error = 0) (free : m.awaitingKey = false) :
    m.step = m ↔ m.JumpsToItself := by
  rw [jumpsToItself_iff, step_of_running running free]
  cases fault : m.fault? m.current with
  | none =>
    rw [cycle_of_no_fault running fault, perform_eq_self_iff free fault]
    exact (and_iff_right_of_imp fun target => (fault?_eq_none_iff_of_targets pc target).mp fault).symm
  | some f =>
    rw [cycle_of_fault running fault]
    refine iff_of_false (fun same => f.code_ne_zero ?_) ?_
    · exact (congrArg Machine.error same).trans running
    · rintro ⟨region, target⟩
      have faultless := (fault?_eq_none_iff_of_targets pc target).mpr region
      rw [fault] at faultless
      cases faultless

theorem step_eq_self_iff_of_awaiting (running : m.error = 0) (await : m.awaitingKey = true) :
    m.step = m ↔ ∀ k, m.isDown k = false := by
  rw [step_of_awaiting running await, resume, ← pressedKey?_eq_none_iff]
  cases key : m.pressedKey? with
  | none => simp
  | some k => exact iff_of_false (fun same => following_ne m.pc (congrArg Machine.pc same)) (by simp)

/-- A step leaves a machine alone exactly if it is halted, waits without a key or stands on a jump to itself, and a run
that has come to such a machine stays there. -/
theorem standstill_iff_blocked :
    (∀ m : Machine, m.pc.toNat ≤ 0xFFF → (m.step = m ↔
      m.error ≠ 0 ∨
      (m.error = 0 ∧ m.awaitingKey = true ∧ ∀ k, m.isDown k = false) ∨
      (m.error = 0 ∧ m.awaitingKey = false ∧ m.JumpsToItself))) ∧
    ∀ (m : Machine) (k : Nat), (m.run k).step = m.run k → ∀ n, k ≤ n → m.run n = m.run k := by
  constructor
  · intro m pc
    by_cases running : m.error = 0
    · cases await : m.awaitingKey with
      | true => simp [running, step_eq_self_iff_of_awaiting running await]
      | false => simp [running, step_eq_self_iff_of_running pc running await]
    · simp [running, step_of_halted running]
  · intro m k still n late
    obtain ⟨j, rfl⟩ := Nat.exists_eq_add_of_le late
    rw [run_add, run_of_step_eq still]

/-- A jump from below the program region that register 0 brings to its own address. -/
theorem offset_jump_stands_still :
    let m : Machine := { Machine.initial ⟨0, 0⟩ with
      memory := Memory.zero.write 0x200 [0xB1, 0xFF], registers := (Bank.fill 0).set 0 1 }
    m.step = m ∧ m.run 7 = m.run 3 := by
  intro m
  have loops : m.JumpsToItself := by
    refine ⟨by decide, .inr ?_⟩
    decide +kernel
  have still : m.step = m := (standstill_iff_blocked.1 m (by decide)).mpr (.inr (.inr ⟨rfl, rfl, loops⟩))
  exact ⟨still, standstill_iff_blocked.2 m 3 (by rw [run_of_step_eq still, still]) 7 (by decide)⟩

end Chip8.Machine
