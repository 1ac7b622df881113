import Chip8.Proofs.Encoding
import Chip8.Proofs.Independence
import Chip8.Proofs.KeyWait

/-! Steps that can change places with a tick or with a change of the keypad, and runs in which it does not
matter when the ticks come. -/

namespace Chip8

def Instruction.usesTimer (i : Instruction) : Bool :=
  i.readsDelay || i.setsDelay || i.setsSound

namespace Machine

def usesTimer (m : Machine) : Bool :=
  let w := m.currentWord.toNat
  m.error = 0 ∧ m.awaitingKey = false ∧ w / 4096 = 0xF ∧ w % 256 ∈ [0x07, 0x15, 0x18]

/-- Whether a step looks at the keypad: while it waits for a key, or for a word that asks for one. -/
def looksAtKeys (m : Machine) : Bool :=
  let w := m.currentWord.toNat
  m.error = 0 ∧ (m.awaitingKey = true ∨ w / 4096 = 0xE ∧ w % 256 ∈ [0x9E, 0xA1] ∨
    w / 4096 = 0xF ∧ w % 256 = 0x0A)

variable {m : Machine} {i : Instruction}

theorem current_usesTimer (rests : m.usesTimer = false) (running : m.error = 0)
    (free : m.awaitingKey = false) : m.current.usesTimer = false := by
  simp only [usesTimer, currentWord_eq_encode, running, free] at rests
  cases current : m.current with
  | getDelay x | setDelay x | setSound x => simp [current, Instruction.encode] at rests
  | _ => rfl

theorem current_readsKeypad (blind : m.looksAtKeys = false) (running : m.error = 0) :
    m.current.readsKeypad = false := by
  simp only [looksAtKeys, currentWord_eq_encode, running] at blind
  cases current : m.current with
  | skp x | sknp x | waitKey x => simp [current, Instruction.encode] at blind
  | _ => rfl

theorem not_awaiting_of_blind (blind : m.looksAtKeys = false) (running : m.error = 0) :
    m.awaitingKey = false := by
  simp [looksAtKeys, running] at blind
  exact blind.1

theorem perform_tick (rests : i.usesTimer = false) : m.tick.perform i = (m.perform i).tick := by
  simp only [Instruction.usesTimer, Bool.or_eq_false_iff] at rests
  obtain ⟨⟨reads, setsDelay⟩, setsSound⟩ := rests
  have delay : m.delayTimer = (m.perform i).delayTimer := by simpa [setsDelay] using ite_setsDelay m i
  have sound : m.soundTimer = (m.perform i).soundTimer := by simpa [setsSound] using ite_setsSound m i
  have unread (h : i.readsDelay = true) : m.tick.delayTimer = m.delayTimer := by simp [reads] at h
  have ticked := perform_adjust m i m.tick.delayTimer m.tick.soundTimer m.keypad m.drawFlag unread
    (fun _ => rfl)
  simp only [setsDelay, setsSound, Bool.false_eq_true, if_false] at ticked
  calc m.tick.perform i
    _ = (m.perform i).adjust m.tick.delayTimer m.tick.soundTimer m.keypad (i.draws || m.drawFlag) := ticked
    _ = (m.perform i).adjust (m.perform i).tick.delayTimer (m.perform i).tick.soundTimer
          (m.perform i).keypad (m.perform i).drawFlag := by
      simp only [tick, delay, sound, perform_keypad, perform_drawFlag]
    _ = (m.perform i).tick := rfl

theorem perform_withKeypad (blind : i.readsKeypad = false) (keypad : Keypad) :
    (m.withKeypad keypad).perform i = (m.perform i).withKeypad keypad := by
  have unread (h : i.readsKeypad = true) : keypad = m.keypad := by simp [blind] at h
  have changed : (m.withKeypad keypad).perform i = _ :=
    perform_adjust m i m.delayTimer m.soundTimer keypad m.drawFlag (fun _ => rfl) unread
  rw [changed, ite_setsDelay, ite_setsSound, ← perform_drawFlag]
  rfl

theorem step_tick (rests : m.usesTimer = false) : m.tick.step = m.step.tick := by
  refine step_lockstep (motive := fun n n' => n' = n.tick) m m.tick rfl rfl ?fault ?keys ?unmoved ?woken
    ?faulted ?executed
  case fault => exact fun _ _ => fault?_adjust m m.current _ _ m.keypad m.drawFlag
  case keys => exact fun _ _ => rfl
  case unmoved => rfl
  case woken => exact fun _ _ _ _ => rfl
  case faulted => exact fun f _ _ _ => rfl
  case executed =>
    exact fun running free _ => perform_tick (m := m.advance) (current_usesTimer rests running free)

theorem step_withKeypad (blind : m.looksAtKeys = false) (keypad : Keypad) :
    (m.withKeypad keypad).step = m.step.withKeypad keypad := by
  refine step_lockstep (motive := fun n n' => n' = n.withKeypad keypad) m (m.withKeypad keypad) rfl rfl
    ?fault ?keys ?unmoved ?woken ?faulted ?executed
  case fault => exact fun _ _ => fault?_adjust m m.current m.delayTimer m.soundTimer keypad m.drawFlag
  case keys =>
    intro running await
    simp [not_awaiting_of_blind blind running] at await
  case unmoved => rfl
  case woken => exact fun _ _ _ _ => rfl
  case faulted => exact fun f _ _ _ => rfl
  case executed =>
    exact fun running _ _ =>
      perform_withKeypad (m := m.advance) (current_readsKeypad blind running) keypad

theorem usesTimer_tick (m : Machine) : m.tick.usesTimer = m.usesTimer := rfl

/-- None of the first `n` steps uses a timer. -/
def Untimed (m : Machine) : Nat → Prop
  | 0 => True
  | n + 1 => m.usesTimer = false ∧ m.step.Untimed n

theorem untimed_tick_iff (m : Machine) (n : Nat) : m.tick.Untimed n ↔ m.Untimed n := by
  induction n generalizing m with
  | zero => exact Iff.rfl
  | succ n ih =>
    rw [Untimed, Untimed, usesTimer_tick]
    refine and_congr_right fun rests => ?_
    rw [step_tick rests]
    exact ih m.step

theorem Untimed.run_tick {n : Nat} (untimed : m.Untimed n) : m.tick.run n = (m.run n).tick := by
  induction n generalizing m with
  | zero => rfl
  | succ n ih =>
    obtain ⟨rests, rest⟩ := untimed
    rw [run_succ, run_succ, step_tick rests, ih rest]

section Beats

variable {actions : List Action} (beats : ∀ a ∈ actions, a = .step ∨ a = .tick)

include beats

/-- The steps among steps and ticks use no timer if they use none without the ticks. -/
theorem untimed_iff_trail : m.Untimed (actions.countP Action.isStep) ↔
    ∀ n ∈ m.trail actions, n.usesTimer = false := by
  induction actions generalizing m with
  | nil => simp [Untimed]
  | cons a actions ih =>
    obtain ⟨now, later⟩ := List.forall_mem_cons.mp beats
    rcases now with rfl | rfl
    · rw [List.countP_cons_of_pos rfl, trail_step, List.forall_mem_cons]
      exact and_congr_right fun _ => ih later
    · rw [List.countP_cons_of_neg Bool.false_ne_true, trail_cons_of_no_step m rfl, ← untimed_tick_iff]
      exact ih later

/-- The ticks among untimed steps can be put off to the end. -/
theorem Untimed.after_eq (untimed : m.Untimed (actions.countP Action.isStep)) : m.after actions =
    (m.run (actions.countP Action.isStep)).ticks (actions.countP Action.isTick) := by
  induction actions generalizing m with
  | nil => rfl
  | cons a actions ih =>
    obtain ⟨now, later⟩ := List.forall_mem_cons.mp beats
    rcases now with rfl | rfl
    · rw [List.countP_cons_of_pos rfl] at untimed ⊢
      rw [List.countP_cons_of_neg Bool.false_ne_true]
      exact ih later untimed.2
    · rw [List.countP_cons_of_neg Bool.false_ne_true] at untimed ⊢
      rw [List.countP_cons_of_pos rfl, ticks, ← untimed.run_tick]
      exact ih later ((untimed_tick_iff m _).mpr untimed)

end Beats

/-- A tick can change places with every step that uses no timer, and a change of the keypad with every step
that does not look at it. Steps and ticks none of which uses a timer therefore end where the same numbers of
steps and of ticks end in any other order, and where the steps alone end with all the ticks behind them. -/
theorem quiet_steps_change_places :
    (∀ m : Machine, m.usesTimer = false → m.step.tick = m.tick.step) ∧
    (∀ (m : Machine) (keys : Switches), keys.shape = [16] → m.looksAtKeys = false →
      ∃ m', m.setKeys keys = .ok m' ∧ m.step.setKeys keys = .ok m'.step) ∧
    ∀ (m : Machine) (actions : List Action), (∀ a ∈ actions, a = .step ∨ a = .tick) →
      (∀ n ∈ m.trail actions, n.usesTimer = false) →
      let cycles := actions.countP Action.isStep
      let ticks := actions.countP Action.isTick
      m.after actions = (m.run cycles).ticks ticks ∧
      ∀ actions' : List Action, (∀ a ∈ actions', a = .step ∨ a = .tick) →
        actions'.countP Action.isStep = cycles → actions'.countP Action.isTick = ticks →
        m.after actions' = m.after actions := by
  refine ⟨fun m rests => (step_tick rests).symm, fun m keys shape blind => ?_, ?_⟩
  · refine ⟨_, setKeys_eq_ok m shape, ?_⟩
    rw [step_withKeypad blind]
    exact setKeys_eq_ok m.step shape
  · intro m actions beats quiet cycles ticks
    have untimed : m.Untimed cycles := (untimed_iff_trail beats).mpr quiet
    have after : m.after actions = (m.run cycles).ticks ticks := untimed.after_eq beats
    refine ⟨after, fun actions' beats' steps' ticks' => ?_⟩
    rw [after, ← steps', ← ticks']
    exact Untimed.after_eq beats' (steps' ▸ untimed)

/-- A program that loads a register, adds to it and waits for a key, with two ticks in between or ahead. -/
theorem two_ticks_change_places :
    let m : Machine := { Machine.initial ⟨0, 0⟩ with
      memory := Memory.zero.write 0x200 [0x60, 0x05, 0x70, 0x01, 0xF0, 0x0A], delayTimer := 3 }
    let keys : Switches := { shape := [16], value := fun i => decide (i = 9) }
    m.step.tick = m.tick.step ∧
      (∃ m', m.setKeys keys = .ok m' ∧ m.step.setKeys keys = .ok m'.step) ∧
      m.after [.step, .tick, .step, .tick, .step] = (m.run 3).ticks 2 ∧
      m.after [.tick, .tick, .step, .step, .step] = m.after [.step, .tick, .step, .tick, .step] ∧
      ((m.run 3).ticks 2).awaitingKey = true ∧ ((m.run 3).ticks 2).delayTimer = 1 := by
  intro m keys
  have rests : m.usesTimer = false := by decide +kernel
  have blind : m.looksAtKeys = false := by decide +kernel
  have quiet : ∀ n ∈ m.trail [.step, .tick, .step, .tick, .step], n.usesTimer = false := by
    decide +kernel
  have ⟨ticks, keypads, runs⟩ := quiet_steps_change_places
  obtain ⟨late, interleaved⟩ := runs m [.step, .tick, .step, .tick, .step] (by simp) quiet
  exact ⟨ticks m rests, keypads m keys rfl blind, late,
    interleaved [.tick, .tick, .step, .step, .step] (by simp) rfl rfl,
    by decide +kernel, by decide +kernel⟩

end Machine
end Chip8
