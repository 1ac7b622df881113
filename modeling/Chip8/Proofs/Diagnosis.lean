import Chip8.Proofs.Replay
import Chip8.Proofs.WellFormed

/-! What a halted machine tells of its fault. Short of a reset or a program in memory, nothing that is done
to a halted machine changes what its current instruction would meet. The recorded fault can therefore be
found again at the program counter, and every further step reports the same. -/

namespace Chip8

/-- The byte at an address, shifted, and the byte behind it. Behind the last address comes the first. -/
def Memory.word (memory : Memory) (a : Nat) : Nat :=
  (memory.readOrZero a).toNat <<< 8 ||| (memory.readOrZero ((a + 1) &&& 0xFFF)).toNat

namespace Machine

variable {m : Machine} {f : Fault}

theorem currentWord_toNat (pc : m.pc.toNat ≤ 0xFFF) :
    m.currentWord.toNat = m.memory.word m.pc.toNat := by
  have next : (m.pc.toNat + 1) &&& 0xFFF = (m.pc.toNat + 1) % 4096 :=
    Nat.and_two_pow_sub_one_eq_mod (m.pc.toNat + 1) 12
  have inside : (m.pc.toNat + 1) % 4096 < 4096 := Nat.mod_lt _ (by decide)
  rw [Memory.word, next, ← Memory.read_eq_readOrZero _ (Nat.lt_succ_of_le pc),
    ← Memory.read_eq_readOrZero _ inside, ← Nat.shiftLeft_add_eq_or_of_lt (UInt8.toNat_lt _),
    Nat.shiftLeft_eq, currentWord]
  generalize m.memory.read m.pc.toNat = high
  generalize m.memory.read ((m.pc.toNat + 1) % 4096) = low
  have := high.toNat_lt
  have := low.toNat_lt
  simp only [UInt16.toNat_add, UInt16.toNat_mul, UInt8.toNat_toUInt16, UInt16.reduceToNat]
  omega

theorem fault?_withError (m : Machine) (code : UInt8) (i : Instruction) :
    { m with error := code }.fault? i = m.fault? i := by
  cases i <;> rfl

/-- The machine is halted, and the recorded fault is that of the current instruction. -/
structure HaltedBy (m : Machine) (f : Fault) : Prop where
  error : m.error = f.code
  free : m.awaitingKey = false
  fault : m.fault? m.current = some f

namespace HaltedBy

theorem halted (h : m.HaltedBy f) : m.error ≠ 0 :=
  h.error ▸ f.code_ne_zero

theorem adjust (h : m.HaltedBy f) (delay sound : UInt8) (keypad : Keypad) (drawFlag : Bool) :
    (m.adjust delay sound keypad drawFlag).HaltedBy f where
  error := h.error
  free := h.free
  fault := (fault?_adjust m m.current delay sound keypad drawFlag).trans h.fault

/-- Once the record is erased, a step writes it again and does nothing else. -/
theorem step_of_erased (h : m.HaltedBy f) : { m with error := 0 }.step = m := by
  have fault : { m with error := 0 }.fault? m.current = some f :=
    (m.fault?_withError 0 m.current).trans h.fault
  calc { m with error := 0 }.step
    _ = { m with error := 0 }.cycle := step_of_running (m := { m with error := 0 }) rfl h.free
    _ = { m with error := f.code } := cycle_of_fault (m := { m with error := 0 }) rfl fault
    _ = m := by rw [← h.error]

theorem raise (h : m.HaltedBy f) : m.raise = .error (.fault (m.report f)) := by
  rw [Machine.raise, recordedFault, h.error, Fault.recorded_code]
  rfl

end HaltedBy

/-- If the machine is halted, its current instruction is to blame. -/
def Explained (m : Machine) : Prop :=
  m.error ≠ 0 → ∃ f, m.HaltedBy f

namespace Explained

theorem of_running (running : m.error = 0) : m.Explained :=
  fun halted => absurd running halted

theorem step (h : m.Explained) : m.step.Explained := by
  refine step_cases m ?halted ?waiting ?woken ?faulted ?executed
  case halted => exact fun _ => h
  case waiting => exact fun _ _ _ => h
  case woken => exact fun _ running _ _ => of_running running
  case faulted =>
    intro f _ free fault _
    exact ⟨f, rfl, free, (m.fault?_withError f.code m.current).trans fault⟩
  case executed => exact fun _ _ _ running => of_running running

theorem act (h : m.Explained) {a : Action} (noLoad : a.isLoad = false) : (m.act a).Explained := by
  refine act_cases m a ?stepped ?adjusted ?loaded ?restarted ?reloaded
  case stepped => exact fun _ => h.step
  case adjusted =>
    intro delay sound keypad drawFlag halted
    obtain ⟨f, blame⟩ := h halted
    exact ⟨f, blame.adjust delay sound keypad drawFlag⟩
  case loaded =>
    rintro p rfl fits
    simp [Action.isLoad, fits] at noLoad
  case restarted => exact fun _ => of_running (by simp)
  case reloaded => exact fun p _ _ => of_running (by simp)

theorem after (h : m.Explained) {actions : List Action} (noLoad : ∀ a ∈ actions, a.isLoad = false) :
    (m.after actions).Explained := by
  induction actions generalizing m with
  | nil => exact h
  | cons a actions ih =>
    obtain ⟨first, rest⟩ := List.forall_mem_cons.mp noLoad
    exact ih (h.act first) rest

end Explained

def Diagnosed (m : Machine) (r : FaultReport) : Prop :=
  ∃ f, m.HaltedBy f ∧ m.report f = r

namespace Diagnosed

variable {r : FaultReport}

theorem halted (h : m.Diagnosed r) : m.error ≠ 0 := by
  obtain ⟨f, blame, -⟩ := h
  exact blame.halted

theorem failure? (h : m.Diagnosed r) : m.failure? = some (.fault r) := by
  obtain ⟨f, blame, rfl⟩ := h
  rw [Machine.failure?, blame.raise]

theorem adjust (h : m.Diagnosed r) (delay sound : UInt8) (keypad : Keypad) (drawFlag : Bool) :
    (m.adjust delay sound keypad drawFlag).Diagnosed r := by
  obtain ⟨f, blame, rfl⟩ := h
  exact ⟨f, blame.adjust delay sound keypad drawFlag, rfl⟩

end Diagnosed

end Machine

namespace Host

variable {h : Host} {r : FaultReport}

theorem step_machine_of_halted (halted : h.machine.error ≠ 0) : h.step.host.machine = h.machine := by
  have still : h.machine.step = h.machine := Machine.step_of_halted halted
  have shows := h.step_shows_of_fault (still.symm ▸ halted)
  calc h.step.host.machine
    _ = h.machine.step := congrArg (fun o => o.machine) shows.outline
    _ = h.machine := still

theorem step_of_diagnosed (now : h.machine.Diagnosed r) :
    h.step.error = some (.fault r) ∧ h.step.host.machine = h.machine := by
  refine ⟨?_, step_machine_of_halted now.halted⟩
  rw [step_error, Machine.step_of_halted now.halted, now.failure?]

theorem run_machine_of_halted (halted : h.machine.error ≠ 0) (n : Nat) :
    (h.run n).host.machine = h.machine := by
  cases n with
  | zero => rfl
  | succ n =>
    have still : h.machine.step = h.machine := Machine.step_of_halted halted
    rw [run_succ_of_fault (still.symm ▸ halted), step_machine_of_halted halted]

theorem call_diagnosed (now : h.machine.Diagnosed r) {c : Call} (noReset : c.isReset = false)
    (noLoad : c.isLoad = false) : (h.call c).host.machine.Diagnosed r := by
  cases c using Call.stepCases with
  | step => exact (step_machine_of_halted now.halted).symm ▸ now
  | run n => exact (run_machine_of_halted now.halted n).symm ▸ now
  | other c noStep =>
    refine call_cases (motive := fun o _ => o.machine.Diagnosed r) h noStep ?refused ?ticked ?taken ?keyed
      ?loaded ?restarted ?reloaded
    case refused => exact fun _ _ => now
    case ticked => exact fun _ => now.adjust _ _ h.machine.keypad h.machine.drawFlag
    case taken => exact fun _ => now.adjust h.machine.delayTimer h.machine.soundTimer h.machine.keypad false
    case keyed =>
      exact fun keypad _ => now.adjust h.machine.delayTimer h.machine.soundTimer keypad h.machine.drawFlag
    case loaded =>
      intro p loads fits
      simp [Call.isLoad_of_loads? loads fits] at noLoad
    case restarted => rintro rfl; cases noReset
    case reloaded => rintro p rfl; cases noReset

theorem after_diagnosed (now : h.machine.Diagnosed r) {calls : List Call}
    (quiet : ∀ c ∈ calls, c.isReset = false ∧ c.isLoad = false) : (h.after calls).machine.Diagnosed r := by
  induction calls generalizing h with
  | nil => exact now
  | cons c calls ih =>
    obtain ⟨⟨noReset, noLoad⟩, rest⟩ := List.forall_mem_cons.mp quiet
    exact ih (call_diagnosed now noReset noLoad) rest

end Host

namespace Machine

/-- A machine that came to a halt, with no program loaded from some time on when it was not halted, stands on
an instruction that meets the recorded fault: once the record is erased, a step restores it. The fault is
reported with the program counter and the word there, which is the word that a cycle fetches and that a host
reads. On a host with this machine every step fails with that report and leaves the machine as it is, also
after other calls, as long as they neither reset the machine nor load a program. -/
theorem recorded_fault_is_explained (key : Key) (strict : Bool) (before since : List Action) :
    let m := (Machine.initial key strict).after before
    let t := m.after since
    m.error = 0 → (∀ a ∈ since, a.isLoad = false) → t.error ≠ 0 →
    { t with error := 0 }.step = t ∧
    ∃ f : Fault, t.error = f.code ∧
      let word := t.memory.word t.pc.toNat
      let report : FaultReport := { cause := some f, pc := t.pc.toNat, word := word }
      t.currentWord.toNat = word ∧ t.raise = .error (.fault report) ∧
      ∀ h : Host, h.machine = t → h.view.pc = t.pc ∧ h.view.word.toNat = word ∧
        ∀ calls : List Call, (∀ c ∈ calls, c.isReset = false ∧ c.isLoad = false) →
          (h.after calls).step.error = some (.fault report) ∧
          (h.after calls).step.host.machine = (h.after calls).machine := by
  intro m t running noLoad halted
  have wf : m.WellFormed := after_induction (WellFormed.initial key strict) (fun _ a h => h.act a) before
  have wf' : t.WellFormed := after_induction wf (fun _ a h => h.act a) since
  obtain ⟨f, blame⟩ : ∃ f, t.HaltedBy f := (Explained.of_running running).after noLoad halted
  have fetched : t.currentWord.toNat = t.memory.word t.pc.toNat := currentWord_toNat wf'.pc
  refine ⟨blame.step_of_erased, f, blame.error, ?_⟩
  intro word report
  have told : t.report f = report := by rw [Machine.report, fetched]
  refine ⟨fetched, told ▸ blame.raise, ?_⟩
  intro h same
  refine ⟨congrArg Machine.pc same, ?_, fun calls quiet => ?_⟩
  · rw [Host.view, same]
    exact fetched
  · have now : h.machine.Diagnosed report := ⟨f, same.symm ▸ blame, same.symm ▸ told⟩
    exact Host.step_of_diagnosed (Host.after_diagnosed now quiet)

/-- A program that jumps to the last byte of memory. The word there goes on with the first glyph. -/
def lastByteProgram : Program :=
  [0x1F, 0xFF]

theorem lastByteProgram_jumps (m : Machine) (pc : m.pc = 0x200) (running : m.error = 0)
    (free : m.awaitingKey = false) :
    let n := (m.loaded lastByteProgram).step
    n.pc = 0xFFF ∧ n.error = 0 ∧ n.awaitingKey = false ∧ n.memory.word 0xFFF = 0x00F0 := by
  have stands : StandsOn m lastByteProgram 0 (m.loaded lastByteProgram) := .loaded pc running free
  have jump : (m.loaded lastByteProgram).executed? = some (.jp 0xFFF) :=
    stands.executes (w := 0x1FFF) (by decide) (by decide) (by decide) rfl rfl
  have last : (m.loaded lastByteProgram).memory.readOrZero 0xFFF = 0 :=
    readOrZero_loaded m (by decide) (by decide)
  have first : (m.loaded lastByteProgram).memory.readOrZero 0 = 0xF0 :=
    readOrZero_loaded m (by decide) (by decide)
  intro n
  have step : n = (m.loaded lastByteProgram).advance.perform (.jp 0xFFF) := step_of_executed jump
  refine ⟨?_, step_error_of_executed jump, ?_, ?_⟩
  · rw [step, perform_pc]
    rfl
  · rw [step, perform_awaitingKey]
    simpa [advance] using free
  · rw [step, perform_memory]
    show (m.loaded lastByteProgram).memory.word 0xFFF = 0x00F0
    rw [Memory.word, last, show (0xFFF + 1) &&& 0xFFF = 0 from rfl, first]
    rfl

theorem wrapped_word_halts {m : Machine} (pc : m.pc = 0xFFF) (running : m.error = 0)
    (free : m.awaitingKey = false) (word : m.memory.word 0xFFF = 0x00F0) :
    let t := m.after [.step, .tick]
    t.error = Fault.illegalInstruction.code ∧ t.pc.toNat = 0xFFF ∧ t.memory.word 0xFFF = 0x00F0 := by
  have fetched : m.currentWord.toNat = 0x00F0 := by
    rw [currentWord_toNat (by rw [pc]; decide), pc]
    exact word
  have fault : m.fault? m.current = some .illegalInstruction := by
    rw [current, fetched]
    rfl
  have halts : m.step = { m with error := Fault.illegalInstruction.code } := by
    rw [step_of_running running free, cycle_of_fault running fault]
  intro t
  have ticked : t = { m with error := Fault.illegalInstruction.code }.tick := congrArg tick halts
  refine ⟨by rw [ticked, tick], ?_, by rw [ticked, tick, word]⟩
  rw [ticked, tick, pc]
  rfl

theorem lastByteProgram_is_diagnosed :
    let m := (Machine.initial ⟨0, 0⟩).after [.load lastByteProgram, .step]
    let t := m.after [.step, .tick]
    let report : FaultReport := { cause := some .illegalInstruction, pc := 0xFFF, word := 0x00F0 }
    { t with error := 0 }.step = t ∧ t.raise = .error (.fault report) ∧
      ∀ h : Host, h.machine = t → h.view.word = 0x00F0 ∧
        (h.after [.tick, .press 3, .step]).step.error = some (.fault report) := by
  have explained :=
    recorded_fault_is_explained ⟨0, 0⟩ true [.load lastByteProgram, .step] [.step, .tick]
  have ⟨pc, running, free, word⟩ := lastByteProgram_jumps (Machine.initial ⟨0, 0⟩) (initial_pc _ _)
    (initial_error _ _) (initial_awaitingKey _ _)
  have after (m : Machine) : m.after [.load lastByteProgram, .step] = (m.loaded lastByteProgram).step := by
    rw [after_cons, act_load _ (by decide), after_cons, act_step, after_nil]
  have ⟨error, place, wrapped⟩ := wrapped_word_halts pc running free word
  rw [after] at explained ⊢
  obtain ⟨restored, f, code, -, raised, told⟩ :=
    explained running (by decide) (error ▸ Fault.code_ne_zero .illegalInstruction)
  obtain rfl : f = .illegalInstruction := by
    rw [error] at code
    cases f <;> first | rfl | cases code
  rw [place, wrapped] at raised told
  refine ⟨restored, raised, fun h machine => ?_⟩
  obtain ⟨-, seen, fails⟩ := told h machine
  exact ⟨UInt16.toNat_inj.mp seen, (fails [.tick, .press 3, .step] (by decide)).1⟩

end Machine
end Chip8
