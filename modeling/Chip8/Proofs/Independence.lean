import Chip8.Proofs.Action
import Chip8.Proofs.Step

/-! Which instructions look at the fields that a host can change between steps. An instruction that does
not look at a field does to the rest of the machine what it would do for any other value of it. -/

namespace Chip8

namespace Instruction

def readsDelay : Instruction → Bool
  | getDelay _ => true
  | _ => false

def setsDelay : Instruction → Bool
  | setDelay _ => true
  | _ => false

def setsSound : Instruction → Bool
  | setSound _ => true
  | _ => false

def readsKeypad : Instruction → Bool
  | skp _ | sknp _ | waitKey _ => true
  | _ => false

end Instruction

attribute [ext] Machine

namespace Machine

section adjust

variable (m : Machine) (i : Instruction) (delay sound : UInt8) (keypad : Keypad) (drawFlag : Bool)

theorem fault?_adjust : (m.adjust delay sound keypad drawFlag).fault? i = m.fault? i := by
  cases i <;> rfl

/-- An instruction keeps what the host has put into the fields that it does not set itself. -/
theorem perform_adjust (timer : i.readsDelay = true → delay = m.delayTimer)
    (keys : i.readsKeypad = true → keypad = m.keypad) :
    (m.adjust delay sound keypad drawFlag).perform i = (m.perform i).adjust
      (if i.setsDelay then (m.perform i).delayTimer else delay)
      (if i.setsSound then (m.perform i).soundTimer else sound)
      keypad (i.draws || drawFlag) := by
  have pressed (reads : i.readsKeypad = true) :
      (m.adjust delay sound keypad drawFlag).pressedKey? = m.pressedKey? := by
    rw [keys reads]
    rfl
  apply Machine.ext
  case key => exact (perform_key _ i).trans (perform_key m i).symm
  case memory => exact (perform_memory _ i).trans (perform_memory m i).symm
  case display => exact (perform_display _ i).trans (perform_display m i).symm
  case stack => exact (perform_stack _ i).trans (perform_stack m i).symm
  case index => exact (perform_index _ i).trans (perform_index m i).symm
  case keypad => exact perform_keypad _ i
  case drawFlag => exact perform_drawFlag _ i
  case strict => exact (perform_strict _ i).trans (perform_strict m i).symm
  case error =>
    refine ((perform_error _ i).trans ?_).trans (perform_error m i).symm
    rw [fault?_adjust]
    rfl
  case delayTimer =>
    show _ = if i.setsDelay then (m.perform i).delayTimer else delay
    rw [perform_delayTimer, perform_delayTimer]
    cases i <;> rfl
  case soundTimer =>
    show _ = if i.setsSound then (m.perform i).soundTimer else sound
    rw [perform_soundTimer, perform_soundTimer]
    cases i <;> rfl
  case registers =>
    refine ((perform_registers _ i).trans ?_).trans (perform_registers m i).symm
    cases i with
    | getDelay x => rw [timer rfl]; rfl
    | waitKey x => simp only [pressed rfl]; rfl
    | _ => rfl
  case pc =>
    refine ((perform_pc _ i).trans ?_).trans (perform_pc m i).symm
    cases i with
    | skp x | sknp x => rw [keys rfl]; rfl
    | waitKey x => simp only [pressed rfl]; rfl
    | _ => rfl
  case awaitingKey =>
    refine ((perform_awaitingKey _ i).trans ?_).trans (perform_awaitingKey m i).symm
    cases i with
    | waitKey x => simp only [pressed rfl]; rfl
    | _ => rfl
  case keyRegister =>
    refine ((perform_keyRegister _ i).trans ?_).trans (perform_keyRegister m i).symm
    cases i with
    | waitKey x => simp only [pressed rfl]; rfl
    | _ => rfl

theorem ite_setsDelay : (if i.setsDelay then (m.perform i).delayTimer else m.delayTimer) =
    (m.perform i).delayTimer := by
  rw [perform_delayTimer]
  cases i <;> rfl

theorem ite_setsSound : (if i.setsSound then (m.perform i).soundTimer else m.soundTimer) =
    (m.perform i).soundTimer := by
  rw [perform_soundTimer]
  cases i <;> rfl

end adjust

section lowerDrawFlag

variable (m : Machine)

theorem perform_lowerDrawFlag (i : Instruction) :
    (m.lowerDrawFlag.perform i).lowerDrawFlag = (m.perform i).lowerDrawFlag := by
  have lowered : m.lowerDrawFlag.perform i = _ :=
    perform_adjust m i m.delayTimer m.soundTimer m.keypad false (fun _ => rfl) (fun _ => rfl)
  rw [lowered, ite_setsDelay, ite_setsSound, ← perform_keypad m i]
  rfl

theorem step_lowerDrawFlag : m.lowerDrawFlag.step.lowerDrawFlag = m.step.lowerDrawFlag := by
  refine step_lockstep (motive := fun n n' => n'.lowerDrawFlag = n.lowerDrawFlag) m m.lowerDrawFlag rfl
    rfl ?fault ?keys ?unmoved ?woken ?faulted ?executed
  case fault => exact fun _ _ => fault?_adjust m m.current m.delayTimer m.soundTimer m.keypad false
  case keys => exact fun _ _ => rfl
  case unmoved => rfl
  case woken => exact fun _ _ _ _ => rfl
  case faulted => exact fun f _ _ _ => rfl
  case executed => exact fun _ _ _ => perform_lowerDrawFlag m.advance m.current

theorem load_lowerDrawFlag (p : Program) :
    m.lowerDrawFlag.load p = (m.load p).map lowerDrawFlag := by
  unfold load
  split <;> rfl

theorem setKeys_lowerDrawFlag (keys : Switches) :
    m.lowerDrawFlag.setKeys keys = (m.setKeys keys).map lowerDrawFlag := by
  unfold setKeys
  cases keys.toKeypad <;> rfl

theorem setKey_lowerDrawFlag (key : Int) (down : Bool) :
    m.lowerDrawFlag.setKey key down = (m.setKey key down).map lowerDrawFlag := by
  unfold setKey
  cases Nibble.ofInt? key <;> rfl

end lowerDrawFlag

theorem step_congr_drawFlag {m m' : Machine} (h : m.lowerDrawFlag = m'.lowerDrawFlag) :
    m.step.lowerDrawFlag = m'.step.lowerDrawFlag := by
  rw [← step_lowerDrawFlag m, ← step_lowerDrawFlag m', h]

theorem run_congr_drawFlag {m m' : Machine} (h : m.lowerDrawFlag = m'.lowerDrawFlag) (n : Nat) :
    (m.run n).lowerDrawFlag = (m'.run n).lowerDrawFlag := by
  induction n generalizing m m' with
  | zero => exact h
  | succ n ih => exact ih (step_congr_drawFlag h)

theorem error_congr_drawFlag {m m' : Machine} (h : m.lowerDrawFlag = m'.lowerDrawFlag) :
    m.error = m'.error :=
  show m.lowerDrawFlag.error = m'.lowerDrawFlag.error by rw [h]

end Machine
end Chip8
