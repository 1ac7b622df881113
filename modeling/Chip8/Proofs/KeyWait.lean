import Chip8.Proofs.Encoding
import Chip8.Proofs.WellFormed

/-! A machine that waits for a key against one that executes the waiting instruction over and over. The
two agree, since nothing moves the program counter or rewrites the instruction during the wait. -/

namespace Chip8

theorem Instruction.decode_eq_waitKey_iff {w : UInt16} {x : Nibble} :
    decode w.toNat = .waitKey x ↔ w.toNat = 0xF00A + 0x100 * x.val := by
  rw [decode_eq_iff rfl, encode, Word.ofByte]
  have : (0x0A : UInt8).toNat = 0x0A := rfl
  omega

namespace Machine

variable {m : Machine} {x : Nibble}

theorem exists_pressedKey? (h : ∃ k, m.isDown k = true) : ∃ k, m.pressedKey? = some k := by
  obtain ⟨k, down⟩ := h
  refine Option.ne_none_iff_exists'.mp fun none => ?_
  rw [pressedKey?_eq_none_iff.mp none k] at down
  cases down

/-- A machine parked on the instruction that made it wait. -/
structure Parked (m : Machine) (x : Nibble) : Prop where
  current : m.current = .waitKey x
  keyRegister : m.keyRegister = UInt8.ofNat x.val

theorem Parked.keyRegister_toNat (h : m.Parked x) : m.keyRegister.toNat = x.val := by
  rw [h.keyRegister, UInt8.toNat_ofNat']
  omega

theorem Parked.word (h : m.Parked x) : m.currentWord.toNat = 0xF00A + 0x100 * m.keyRegister.toNat := by
  rw [h.keyRegister_toNat]
  exact Instruction.decode_eq_waitKey_iff.mp h.current

def woken (m : Machine) (x k : Nibble) : Machine :=
  { m with
    registers := m.registers.set x (UInt8.ofNat k.val)
    pc := following m.pc
    awaitingKey := false }

def parkedOn (m : Machine) (x : Nibble) : Machine :=
  { m with awaitingKey := true, keyRegister := UInt8.ofNat x.val }

def withKeypad (m : Machine) (keypad : Keypad) : Machine :=
  { m with keypad := keypad }

theorem step_of_waitKey (running : m.error = 0) (free : m.awaitingKey = false)
    (current : m.current = .waitKey x) : m.step = m.advance.waitKey x := by
  have faultless : m.fault? (.waitKey x) = none := rfl
  exact step_of_executed (executed?_eq_some.mpr ⟨running, free, current ▸ faultless, current⟩)

theorem step_of_waitKey_of_pressed (running : m.error = 0) (free : m.awaitingKey = false)
    (current : m.current = .waitKey x) {k : Nibble} (pressed : m.pressedKey? = some k) :
    m.step = m.woken x k := by
  have same : m.advance.pressedKey? = some k := pressed
  rw [step_of_waitKey running free current, waitKey, same, woken, ← free]
  rfl

theorem step_of_waitKey_of_idle (running : m.error = 0) (free : m.awaitingKey = false)
    (pc : m.pc.toNat ≤ 0xFFF) (current : m.current = .waitKey x) (idle : m.pressedKey? = none) :
    m.step = m.parkedOn x := by
  have same : m.advance.pressedKey? = none := idle
  have back : (m.advance.pc - 2) % 4096 = m.pc := following_sub_two pc
  rw [step_of_waitKey running free current, waitKey, same]
  dsimp only
  rw [back]
  rfl

theorem Parked.step_of_pressed (parked : m.Parked x) (running : m.error = 0)
    (await : m.awaitingKey = true) {k : Nibble} (pressed : m.pressedKey? = some k) :
    m.step = m.woken x k := by
  have register : m.registers.setIfIn m.keyRegister.toNat (UInt8.ofNat k.val) =
      m.registers.set x (UInt8.ofNat k.val) := by
    rw [parked.keyRegister_toNat]
    exact dif_pos x.isLt
  rw [step_of_awaiting running await, resume, pressed]
  dsimp only
  rw [register]
  rfl

theorem step_of_awaiting_of_idle (running : m.error = 0) (await : m.awaitingKey = true)
    (idle : m.pressedKey? = none) : m.step = m := by
  rw [step_of_awaiting running await, resume, idle]

/-- A step of a parked machine is a step of one that has not begun to wait. -/
theorem Parked.step_eq (parked : m.Parked x) (running : m.error = 0) (await : m.awaitingKey = true)
    (pc : m.pc.toNat ≤ 0xFFF) : m.step = { m with awaitingKey := false }.step := by
  have current : ({ m with awaitingKey := false } : Machine).current = .waitKey x := parked.current
  cases key : m.pressedKey? with
  | some k =>
    rw [parked.step_of_pressed running await key,
      step_of_waitKey_of_pressed (m := { m with awaitingKey := false }) running rfl current key]
    rfl
  | none =>
    rw [step_of_awaiting_of_idle running await key,
      step_of_waitKey_of_idle (m := { m with awaitingKey := false }) running rfl pc current key,
      parkedOn, ← parked.keyRegister, ← await]

def WaitsOnKey (m : Machine) : Prop :=
  m.awaitingKey = true → ∃ x, m.Parked x

namespace WaitsOnKey

theorem of_free (free : m.awaitingKey = false) : m.WaitsOnKey := by
  intro await
  rw [free] at await
  cases await

/-- Only the instruction that waits raises the flag, and it leaves the machine parked. -/
theorem perform (pc : m.pc.toNat ≤ 0xFFF) (free : m.awaitingKey = false) :
    (m.advance.perform m.current).WaitsOnKey := by
  intro await
  -- The flag was down, so it is the instruction that raised it and put the program counter back.
  have back : (m.advance.pc - 2) % 4096 = m.pc := following_sub_two pc
  have unchanged : m.advance.awaitingKey = false := free
  have landing : (m.advance.perform m.current).pc = m.pc := by
    rw [perform_pc_of_waiting unchanged await, back]
  rw [perform_awaitingKey, unchanged] at await
  cases current : m.current with
  | waitKey x =>
    rw [current] at await landing
    have idle : m.advance.pressedKey?.isSome = false := by simpa using await
    have memory : (m.advance.perform (.waitKey x)).memory = m.memory := by
      rw [perform_memory]
      rfl
    refine ⟨x, (current_congr memory landing).trans current, ?_⟩
    rw [perform_keyRegister]
    simp only [idle]
    rfl
  | _ =>
    rw [current] at await
    cases await

theorem step (h : m.WaitsOnKey) (wf : m.WellFormed) : m.step.WaitsOnKey := by
  refine step_cases m ?halted ?waiting ?woken ?faulted ?executed
  case halted => exact fun _ => h
  case waiting => exact fun _ _ _ => h
  case woken => exact fun _ _ _ _ => of_free rfl
  case faulted => exact fun f _ free _ => of_free free
  case executed => exact fun _ free _ _ => perform wf.pc free

theorem act (h : m.WaitsOnKey) (wf : m.WellFormed) {a : Action} (noLoad : a.isLoad = false) :
    (m.act a).WaitsOnKey := by
  refine act_cases m a ?stepped ?adjusted ?loaded ?restarted ?reloaded
  case stepped => exact fun _ => h.step wf
  case adjusted =>
    intro delay sound keypad drawFlag await
    obtain ⟨x, parked⟩ := h await
    exact ⟨x, parked.current, parked.keyRegister⟩
  case loaded =>
    rintro p rfl fits
    simp [Action.isLoad, fits] at noLoad
  case restarted => exact fun _ => of_free (by simp)
  case reloaded => exact fun p _ _ => of_free (by simp)

theorem after (h : m.WaitsOnKey) (wf : m.WellFormed) {actions : List Action}
    (noLoad : ∀ a ∈ actions, a.isLoad = false) : (m.after actions).WaitsOnKey := by
  induction actions generalizing m with
  | nil => exact h
  | cons a actions ih =>
    have first : (m.act a).WaitsOnKey := h.act wf (noLoad a (by simp))
    exact ih first (wf.act a) fun b member => noLoad b (by simp [member])

end WaitsOnKey

section Fresh

variable (running : m.error = 0) (free : m.awaitingKey = false) (pc : m.pc.toNat ≤ 0xFFF)
  (current : m.current = .waitKey x) (idle : m.pressedKey? = none)

include running free pc current idle

/-- Without a key, a fresh wait parks the machine in its first cycle and leaves it alone from then on. -/
theorem run_of_waitKey_of_idle (n : Nat) :
    m.run (n + 1) = m.parkedOn x := by
  have first := step_of_waitKey_of_idle running free pc current idle
  have still : m.step.step = m.step := by
    rw [first]
    exact step_of_awaiting_of_idle running rfl idle
  rw [run_succ, run_of_step_eq still, first]

/-- What a key gives does not depend on how long the machine waited for it. -/
theorem step_of_late_key (n : Nat) {keypad : Keypad} (down : ∃ k, keypad.get k = true) :
    ((m.run (n + 1)).withKeypad keypad).step =
      { (m.withKeypad keypad).step with keyRegister := UInt8.ofNat x.val } := by
  obtain ⟨k, pressed⟩ : ∃ k, (m.withKeypad keypad).pressedKey? = some k :=
    exists_pressedKey? down
  have early : (m.withKeypad keypad).step = (m.withKeypad keypad).woken x k :=
    step_of_waitKey_of_pressed (m := m.withKeypad keypad) running free current pressed
  have parked : ((m.parkedOn x).withKeypad keypad).Parked x := ⟨current, rfl⟩
  have late : ((m.parkedOn x).withKeypad keypad).step =
      ((m.parkedOn x).withKeypad keypad).woken x k :=
    parked.step_of_pressed running rfl pressed
  rw [run_of_waitKey_of_idle running free pc current idle n, late, early]
  rfl

end Fresh

theorem setKeys_eq_ok (m : Machine) {keys : Switches} (shape : keys.shape = [keyCount]) :
    m.setKeys keys = .ok (m.withKeypad (Bank.ofFn fun i => keys.value i.val)) := by
  rw [setKeys, Switches.toKeypad, if_pos shape]
  rfl

/-- A machine that waits, with no program loaded since the wait began, stands on the instruction that
waits and steps as if it executed it afresh. From a machine about to execute such an instruction, any
number of cycles without a key is as good as one, and the key that comes then gives what it would have
given at once, the register of the wait apart. -/
theorem key_wait_is_reexecution (key : Key) (strict : Bool) :
    (∀ before since : List Action,
      let m := (Machine.initial key strict).after before
      let w := m.after since
      m.awaitingKey = false → (∀ a ∈ since, a.isLoad = false) → w.awaitingKey = true →
      w.error = 0 ∧ w.keyRegister.toNat ≤ 0xF ∧
      w.currentWord.toNat = 0xF00A + 0x100 * w.keyRegister.toNat ∧
      w.step = { w with awaitingKey := false }.step) ∧
    ∀ (m : Machine) (x : Nibble), m.error = 0 → m.awaitingKey = false → m.pc.toNat ≤ 0xFFF →
      m.currentWord.toNat = 0xF00A + 0x100 * x.val → (∀ k, m.isDown k = false) → ∀ n,
      (m.run (n + 1)).step = m.run (n + 1) ∧
      ∀ keys : Switches, keys.shape = [16] → (∃ i < 16, keys.value i = true) →
        ∃ late early, (m.run (n + 1)).setKeys keys = .ok late ∧ m.setKeys keys = .ok early ∧
          late.step = { early.step with keyRegister := UInt8.ofNat x.val } := by
  constructor
  · intro before since m w free noLoad await
    have wf : m.WellFormed :=
      after_induction (WellFormed.initial key strict) (fun _ a h => h.act a) before
    have wf' : w.WellFormed := after_induction wf (fun _ a h => h.act a) since
    obtain ⟨x, parked⟩ : ∃ x, w.Parked x := (WaitsOnKey.of_free free).after wf noLoad await
    have running : w.error = 0 := wf'.running await
    exact ⟨running, wf'.keyRegister, parked.word, parked.step_eq running await wf'.pc⟩
  · intro m x running free pc word up n
    have current : m.current = .waitKey x := Instruction.decode_eq_waitKey_iff.mpr word
    have idle : m.pressedKey? = none := pressedKey?_eq_none_iff.mpr up
    constructor
    · rw [run_of_waitKey_of_idle running free pc current idle]
      exact step_of_awaiting_of_idle running rfl idle
    · rintro keys shape ⟨i, inside, down⟩
      refine ⟨_, _, setKeys_eq_ok _ shape, setKeys_eq_ok m shape, ?_⟩
      exact step_of_late_key running free pc current idle n ⟨⟨i, inside⟩, by simpa using down⟩

def keyProgram : Program :=
  [0xF5, 0x0A]

theorem keyProgram_waits :
    let m := (Machine.initial ⟨0, 0⟩).after [.load keyProgram]
    let w := m.after [.step, .tick]
    let keys : Switches := { shape := [16], value := fun i => decide (i = 9) }
    w.awaitingKey = true ∧ w.step = { w with awaitingKey := false }.step ∧
      (m.run 3).step = m.run 3 ∧
      ∃ late early, (m.run 3).setKeys keys = .ok late ∧ m.setKeys keys = .ok early ∧
        late.step = { early.step with keyRegister := 5 } := by
  have ⟨waits, lasts⟩ := key_wait_is_reexecution ⟨0, 0⟩ true
  have waits := waits [.load keyProgram] [.step, .tick]
  have lasts := lasts ((Machine.initial ⟨0, 0⟩).after [.load keyProgram]) 5
  have fits : keyProgram.length ≤ programCapacity := by decide
  have after : (Machine.initial ⟨0, 0⟩).after [.load keyProgram] =
      (Machine.initial ⟨0, 0⟩).loaded keyProgram := act_load _ fits
  have running : ((Machine.initial ⟨0, 0⟩).loaded keyProgram).error = 0 := by simp
  have free : ((Machine.initial ⟨0, 0⟩).loaded keyProgram).awaitingKey = false := by simp
  have pc : ((Machine.initial ⟨0, 0⟩).loaded keyProgram).pc = 0x200 := by simp
  have word : ((Machine.initial ⟨0, 0⟩).loaded keyProgram).currentWord = 0xF50A :=
    currentWord_of_loaded (k := 0) rfl fits (by decide) (by rw [pc]; rfl)
  have up (k : Nibble) : ((Machine.initial ⟨0, 0⟩).loaded keyProgram).isDown k = false :=
    Bank.get_fill false k
  have current := Instruction.decode_eq_waitKey_iff (x := 5).mpr (congrArg UInt16.toNat word)
  rw [after] at waits lasts ⊢
  generalize (Machine.initial ⟨0, 0⟩).loaded keyProgram = m at *
  have await : (m.after [.step, .tick]).awaitingKey = true := by
    show m.step.tick.awaitingKey = true
    rw [step_of_waitKey_of_idle running free (by rw [pc]; decide) current (pressedKey?_eq_none_iff.mpr up)]
    rfl
  obtain ⟨still, same⟩ := lasts running free (by rw [pc]; decide) (by rw [word]; rfl) up 2
  exact ⟨await, (waits free (by decide) await).2.2.2, still, same _ rfl ⟨9, by decide, by decide⟩⟩

end Machine
end Chip8
