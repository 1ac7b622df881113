import Chip8.Proofs.WellFormed

/-! Where a program goes that runs off the end of memory. The program counter wraps around to the
glyphs, whose first bytes read as instructions end in a fault within three steps. -/

namespace Chip8.Machine

def glyphInstruction (a : Nat) : Instruction :=
  Instruction.decode ((glyphs.getD a 0).toUInt16 * 256 + (glyphs.getD (a + 1) 0).toUInt16).toNat

/-- How many steps among the glyphs it takes at most until the fault. -/
def walkLength : Nat → Nat
  | 1 | 2 => 3
  | 3 | 6 => 2
  | _ => 1

theorem walkLength_pos (a : Nat) : 0 < walkLength a := by
  unfold walkLength
  split <;> decide

theorem walkLength_le (a : Nat) : walkLength a ≤ 3 := by
  unfold walkLength
  split <;> decide

def walkFaults : List Fault :=
  [.illegalInstruction, .invalidJumpTarget, .stackOverflow]

structure Walking (m : Machine) : Prop where
  wellFormed : m.WellFormed
  low : m.pc.toNat ≤ 8
  running : m.error = 0
  free : m.awaitingKey = false

def WalkEnds (m : Machine) : Prop :=
  ∃ f ∈ walkFaults, m.step = { m with error := f.code }

/-- A step that shortens the walk and leaves the callers alone. -/
structure WalkGoesOn (m : Machine) : Prop where
  walking : m.step.Walking
  stack : m.step.stack = m.stack
  shorter : walkLength m.step.pc.toNat < walkLength m.pc.toNat

variable {m : Machine}

theorem WellFormed.current_of_low (h : m.WellFormed) (low : m.pc.toNat ≤ 8) :
    m.current = glyphInstruction m.pc.toNat := by
  have next : (m.pc.toNat + 1) % 4096 = m.pc.toNat + 1 := by omega
  rw [current, currentWord, next, Memory.read_eq_readOrZero _ (by omega),
    Memory.read_eq_readOrZero _ (by omega), h.bottom _ (by omega), h.bottom _ (by omega)]
  rfl

section plain

variable (m) {i : Instruction} (plain : (∃ x y, i = .sneReg x y) ∨ ∃ x b, i = .ldByte x b)

include plain

theorem fault?_of_plain : m.fault? i = none := by
  obtain ⟨x, y, rfl⟩ | ⟨x, b, rfl⟩ := plain <;> rfl

theorem perform_of_plain :
    (m.perform i).awaitingKey = m.awaitingKey ∧ (m.perform i).stack = m.stack ∧
      (m.perform i).pc = if m.skips i then following m.pc else m.pc := by
  rw [perform_awaitingKey, perform_stack, perform_pc]
  obtain ⟨x, y, rfl⟩ | ⟨x, b, rfl⟩ := plain <;> exact ⟨rfl, rfl, rfl⟩

end plain

namespace Walking

theorem ends (h : m.Walking) {f : Fault} (fault : m.fault? m.current = some f)
    (listed : f ∈ walkFaults) : m.WalkEnds :=
  ⟨f, listed, (step_of_running h.running h.free).trans (cycle_of_fault h.running fault)⟩

theorem ends_of_illegal (h : m.Walking) {w : UInt16} (current : m.current = .illegal w) :
    m.WalkEnds :=
  h.ends (f := .illegalInstruction) (by rw [current, fault?]) (by decide)

theorem ends_of_low_call (h : m.Walking) {a : Fin 4096} (current : m.current = .call a)
    (target : a.val < 0x200) : m.WalkEnds := by
  cases full : m.stack.isFull with
  | true => exact h.ends (f := .stackOverflow) (by simp [current, fault?, full, Fault.when]) (by decide)
  | false =>
    exact h.ends (f := .invalidJumpTarget) (by simp [current, fault?, full, Fault.when, target])
      (by decide)

/-- A comparison or a load goes on behind itself, or one instruction later if it skips. -/
theorem goes_on (h : m.Walking) {i : Instruction} (current : m.current = i)
    (plain : (∃ x y, i = .sneReg x y) ∨ ∃ x b, i = .ldByte x b)
    (lands : ∀ pc, pc = following m.pc ∨ m.advance.skips i = true ∧ pc = following (following m.pc) →
      pc.toNat ≤ 8 ∧ walkLength pc.toNat < walkLength m.pc.toNat) : m.WalkGoesOn := by
  have executed : m.executed? = some i :=
    executed?_eq_some.mpr ⟨h.running, h.free, current ▸ fault?_of_plain m plain, current⟩
  have step : m.step = m.advance.perform i := step_of_executed executed
  obtain ⟨free, stack, pc⟩ := perform_of_plain m.advance plain
  rw [← step] at free stack pc
  obtain ⟨low, shorter⟩ := lands m.step.pc (by
    rw [pc]
    by_cases skips : m.advance.skips i = true
    · exact .inr ⟨skips, if_pos skips⟩
    · exact .inl (if_neg skips))
  exact
    { walking := ⟨h.wellFormed.step, low, step_error_of_executed executed, free.trans h.free⟩
      stack := stack
      shorter := shorter }

theorem step (h : m.Walking) : m.WalkEnds ∨ m.WalkGoesOn := by
  have code := h.wellFormed.current_of_low h.low
  have low := h.low
  match pc : m.pc.toNat with
  | 0 | 4 =>
    rw [pc] at code
    exact .inl (h.ends_of_illegal code)
  | 5 | 7 | 8 =>
    rw [pc] at code
    exact .inl (h.ends_of_low_call code (by decide))
  | 1 | 2 | 3 =>
    rw [pc] at code
    refine .inr (h.goes_on code (.inl ⟨_, _, rfl⟩) ?_)
    rintro _ (rfl | ⟨-, rfl⟩) <;> simp [following_toNat, pc, walkLength]
  | 6 =>
    rw [pc] at code
    refine .inr (h.goes_on code (.inr ⟨_, _, rfl⟩) ?_)
    rintro _ (rfl | ⟨skips, -⟩)
    · simp [following_toNat, pc, walkLength]
    · cases skips
  | n + 9 => omega

theorem act (h : m.Walking) {a : Action} (noStep : a.isStep = false) (noReset : a.isReset = false) :
    (m.act a).Walking ∧ (m.act a).pc = m.pc := by
  refine act_cases m a ?stepped ?adjusted ?loaded ?restarted ?reloaded
  case stepped => simp [noStep]
  case adjusted =>
    exact fun _ _ _ _ => ⟨{ h with wellFormed := h.wellFormed.adjust _ _ _ _ }, rfl⟩
  case loaded =>
    intro p _ fits
    refine ⟨⟨h.wellFormed.loaded fits, ?_, ?_, ?_⟩, loaded_pc m p⟩
    · simpa using h.low
    · simpa using h.running
    · simpa using h.free
  case restarted => simp [noReset]
  case reloaded => simp [noReset]

/-- The walk ends once there are enough steps for it, whatever the host does between them. -/
theorem after (h : m.Walking) {actions : List Action} (noReset : ∀ a ∈ actions, a.isReset = false)
    (enough : walkLength m.pc.toNat ≤ actions.countP Action.isStep) :
    ∃ f ∈ walkFaults, (m.after actions).error = f.code := by
  induction actions generalizing m with
  | nil =>
    have := walkLength_pos m.pc.toNat
    simp at enough
    omega
  | cons a actions ih =>
    have noResets : ∀ b ∈ actions, b.isReset = false := fun b member => noReset b (by simp [member])
    cases isStep : a.isStep with
    | false =>
      obtain ⟨walking, pc⟩ := h.act isStep (noReset a (by simp))
      rw [List.countP_cons_of_neg (by simp [isStep])] at enough
      exact ih walking noResets (pc ▸ enough)
    | true =>
      obtain rfl := Action.eq_step isStep
      rw [List.countP_cons_of_pos isStep] at enough
      show ∃ f ∈ walkFaults, (m.step.after actions).error = f.code
      obtain ⟨f, listed, step⟩ | goesOn := h.step
      · refine ⟨f, listed, ?_⟩
        rw [step, after_error_of_halted f.code_ne_zero noResets]
      · have := goesOn.shorter
        exact ih goesOn.walking noResets (by omega)

end Walking

/-- In the program region, or at most `k` bytes behind a wrap around the end of memory. -/
def Landing (k : Nat) (a : UInt16) : Prop :=
  a.toNat ≤ k ∨ 0x200 ≤ a.toNat

theorem landing_following {pc : UInt16} (le : pc.toNat ≤ 0xFFF) (high : 0x200 ≤ pc.toNat) :
    Landing 1 (following pc) := by
  rw [Landing, following_toNat]
  omega

theorem Landing.following {k : Nat} {pc : UInt16} (h : Landing k pc) (le : pc.toNat ≤ 0xFFF) :
    Landing (k + 2) (following pc) := by
  rw [Landing, following_toNat]
  cases h with
  | inl low => omega
  | inr high => omega

theorem Landing.mono {j k : Nat} {pc : UInt16} (h : Landing j pc) (le : j ≤ k) : Landing k pc :=
  h.imp (fun low => Nat.le_trans low le) id

/-- Where the program counter and the callers of a machine stay. -/
structure OnTrack (m : Machine) : Prop where
  pc : Landing 8 m.pc
  waiting : m.awaitingKey = true → 0x200 ≤ m.pc.toNat
  callers : m.stack.Keeps (Landing 1)

namespace OnTrack

/-- An instruction of the program leads to the program or just behind the wrap. -/
theorem perform_of_program (h : m.OnTrack) (wf : m.WellFormed) (high : 0x200 ≤ m.pc.toNat)
    (free : m.awaitingKey = false) (faultless : m.fault? m.current = none) :
    (m.advance.perform m.current).OnTrack := by
  have le : m.advance.pc.toNat ≤ 0xFFF := wf.advance.pc
  have behind : Landing 1 m.advance.pc := landing_following wf.pc high
  have backUp : (m.advance.pc - 2) % 4096 = m.pc := following_sub_two wf.pc
  rw [← fault?_advance] at faultless
  refine ⟨?_, ?_, ?_⟩
  · obtain ⟨nonempty, pc⟩ | ⟨inside, -⟩ | pc | pc | ⟨-, pc⟩ := perform_pc_cases faultless
    · exact pc ▸ (h.callers.top nonempty).mono (by decide)
    · exact .inr inside
    · exact pc ▸ behind.mono (by decide)
    · exact pc ▸ (behind.following le).mono (by decide)
    · exact pc ▸ backUp ▸ .inr high
  · intro waits
    rw [perform_pc_of_waiting (m := m.advance) free waits, backUp]
    exact high
  · obtain ⟨room, stack⟩ | ⟨-, stack⟩ | stack := perform_stack_cases faultless
    · exact stack ▸ CallStack.Keeps.push h.callers room le behind
    · exact stack ▸ h.callers.pop
    · exact stack ▸ h.callers

theorem step_of_program (h : m.OnTrack) (wf : m.WellFormed) (high : 0x200 ≤ m.pc.toNat) :
    m.step.OnTrack := by
  refine step_cases m ?halted ?waiting ?woken ?faulted ?executed
  case halted => exact fun _ => h
  case waiting => exact fun _ _ _ => h
  case woken =>
    exact fun k _ _ _ =>
      { h with pc := (landing_following wf.pc high).mono (by decide), waiting := by simp }
  case faulted => exact fun f _ _ _ => { h with }
  case executed => exact fun _ free faultless _ => h.perform_of_program wf high free faultless

theorem walking (h : m.OnTrack) (wf : m.WellFormed) (low : m.pc.toNat ≤ 8) (running : m.error = 0) :
    m.Walking := by
  refine ⟨wf, low, running, Bool.eq_false_iff.mpr fun waits => ?_⟩
  have := h.waiting waits
  omega

theorem step_of_glyphs (h : m.OnTrack) (wf : m.WellFormed) (low : m.pc.toNat ≤ 8) :
    m.step.OnTrack := by
  by_cases running : m.error = 0
  · obtain ⟨f, -, step⟩ | ⟨goesOn, stack, -⟩ := (h.walking wf low running).step
    · rw [step]
      exact { h with }
    · exact ⟨.inl goesOn.low, by simp [goesOn.free], stack ▸ h.callers⟩
  · rw [step_of_halted running]
    exact h

theorem initial (key : Key) (strict : Bool) : (Machine.initial key strict).OnTrack where
  pc := .inr (by simp)
  waiting := by simp
  callers := by simpa using CallStack.keeps_empty

theorem loaded (h : m.OnTrack) (p : Program) : (m.loaded p).OnTrack where
  pc := by simpa using h.pc
  waiting := by simpa using h.waiting
  callers := by simpa using h.callers

theorem act (h : m.OnTrack) (wf : m.WellFormed) (a : Action) : (m.act a).OnTrack := by
  refine act_cases m a ?stepped ?adjusted ?loaded ?restarted ?reloaded
  case stepped =>
    intro _
    obtain low | high := h.pc
    · exact h.step_of_glyphs wf low
    · exact h.step_of_program wf high
  case adjusted => exact fun _ _ _ _ => { h with }
  case loaded => exact fun p _ _ => h.loaded p
  case restarted => exact fun _ => initial m.key m.strict
  case reloaded => exact fun p _ _ => (initial m.key m.strict).loaded p

end OnTrack

/-- A program counter never enters the gap between the glyphs and the program, and a machine that runs
among the glyphs halts within three steps, whatever its host does between them. -/
theorem running_off_the_end_halts (key : Key) (strict : Bool) (actions : List Action) :
    let m := (Machine.initial key strict).after actions
    (m.pc.toNat ≤ 0x008 ∨ 0x200 ≤ m.pc.toNat ∧ m.pc.toNat ≤ 0xFFF) ∧
    (m.pc.toNat < 0x200 → m.error = 0 → ∀ further : List Action,
      (∀ a ∈ further, a.isReset = false) → 3 ≤ further.countP Action.isStep →
      ∃ f ∈ [Fault.illegalInstruction, .invalidJumpTarget, .stackOverflow],
        (m.after further).error = f.code) ∧
    ∀ i, m.executed? = some i → ¬(0x009 ≤ m.pc.toNat ∧ m.pc.toNat ≤ 0x1FF) := by
  intro m
  have ⟨wf, onTrack⟩ : m.WellFormed ∧ m.OnTrack :=
    after_induction (motive := fun m => m.WellFormed ∧ m.OnTrack)
      ⟨WellFormed.initial key strict, OnTrack.initial key strict⟩
      (fun _ a h => ⟨h.1.act a, h.2.act h.1 a⟩) actions
  have pc : m.pc.toNat ≤ 0xFFF := wf.pc
  have landing : m.pc.toNat ≤ 8 ∨ 0x200 ≤ m.pc.toNat := onTrack.pc
  refine ⟨by omega, ?_, fun _ _ => by omega⟩
  intro (low : m.pc.toNat < 0x200) running further noReset enough
  have glyph : m.pc.toNat ≤ 8 := by omega
  have walking : m.Walking := onTrack.walking wf glyph running
  exact walking.after noReset (Nat.le_trans (walkLength_le _) enough)

/-- A program that jumps to the last word of memory, where it sets a register. -/
def lastWordProgram : Program :=
  0x1F :: 0xFE :: List.replicate 3582 0x60

theorem lastWordProgram_fits : lastWordProgram.length ≤ programCapacity := by
  have length : lastWordProgram.length = 3584 := by
    rw [lastWordProgram, List.length_cons, List.length_cons, List.length_replicate]
  exact Nat.le_of_eq length

theorem lastWordProgram_getD {k : Nat} (h : k < 3582) : lastWordProgram.getD (k + 2) 0 = 0x60 := by
  rw [lastWordProgram, List.getD_cons_succ, List.getD_cons_succ, List.getD_replicate _ h]

theorem executed?_of_lastWordProgram (m : Machine) (pc : m.pc = 0x200) (running : m.error = 0)
    (free : m.awaitingKey = false) :
    (m.loaded lastWordProgram).executed? = some (.jp 0xFFE) ∧
      (m.loaded lastWordProgram).step.executed? = some (.ldByte 0 0x60) ∧
      (m.loaded lastWordProgram).step.pc = 0xFFE := by
  have first : StandsOn m lastWordProgram 0 (m.loaded lastWordProgram) := .loaded pc running free
  generalize m.loaded lastWordProgram = m₁ at first ⊢
  have jump : m₁.executed? = some (.jp 0xFFE) :=
    first.executes (w := 0x1FFE) lastWordProgram_fits (by decide) (by decide) rfl rfl
  have jumped : m₁.step.pc = 0xFFE := by
    rw [step_of_executed jump, perform_pc]
    rfl
  have last : StandsOn m lastWordProgram 0xDFE m₁.step :=
    first.step jump (perform_memory _ _) (perform_awaitingKey _ _) (congrArg UInt16.toNat (perform_pc _ _))
  refine ⟨jump, last.executes (w := 0x6060) lastWordProgram_fits (by decide) ?_ rfl rfl, jumped⟩
  rw [lastWordProgram_getD (by decide), lastWordProgram_getD (by decide)]
  rfl

theorem lastWordProgram_halts :
    let m := (Machine.initial ⟨0, 0⟩).after [.load lastWordProgram, .step, .step]
    m.pc = 0 ∧ m.error = 0 ∧
      ∃ f ∈ [Fault.illegalInstruction, .invalidJumpTarget, .stackOverflow],
        (m.after [.step, .step, .step]).error = f.code := by
  have runs :=
    (running_off_the_end_halts ⟨0, 0⟩ true [.load lastWordProgram, .step, .step]).2.1
  have ⟨jump, set, jumped⟩ := executed?_of_lastWordProgram (Machine.initial ⟨0, 0⟩)
    (initial_pc _ _) (initial_error _ _) (initial_awaitingKey _ _)
  generalize Machine.initial ⟨0, 0⟩ = m at runs jump set jumped ⊢
  have after : m.after [.load lastWordProgram, .step, .step] = (m.loaded lastWordProgram).step.step := by
    rw [after_cons, after_cons, after_cons, after_nil, act_step, act_step,
      act_load m lastWordProgram_fits]
  have running : (m.loaded lastWordProgram).step.step.error = 0 := step_error_of_executed set
  have wrapped : (m.loaded lastWordProgram).step.step.pc = 0 := by
    rw [step_of_executed set, perform_pc]
    show following (m.loaded lastWordProgram).step.pc = 0
    rw [jumped]
    rfl
  rw [after] at runs ⊢
  refine ⟨wrapped, running, runs ?_ running _ (by decide) (by decide)⟩
  rw [wrapped]
  decide

end Chip8.Machine
