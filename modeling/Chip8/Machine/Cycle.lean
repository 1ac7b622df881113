import Chip8.Machine.Execute

/-! Cycles and timers. A cycle fetches a word and executes it. If that records a fault, the cycle is taken back but
for the fault, so a halted machine stands on the instruction that failed. -/

namespace Chip8.Machine

def advance (m : Machine) : Machine :=
  { m with pc := following m.pc }

/-- Fetches and executes one instruction, or halts on it. -/
def cycle (m : Machine) : Machine :=
  let e := m.advance.execute m.currentWord.toNat
  if e.error = 0 then e else { m with error := e.error }

/-- Ends the wait for a key if one is down. -/
def resume (m : Machine) : Machine :=
  match m.pressedKey? with
  | some k =>
    { m with
      registers := m.registers.setIfIn m.keyRegister.toNat (UInt8.ofNat k.val)
      pc := following m.pc
      awaitingKey := false }
  | none => m

/-- One step: nothing on a halted machine, a look at the keypad on a waiting one, or a cycle. -/
def step (m : Machine) : Machine :=
  if m.error ≠ 0 then m
  else if m.awaitingKey then m.resume
  else m.cycle

def run (m : Machine) : Nat → Machine
  | 0 => m
  | n + 1 => m.step.run n

@[simp] theorem run_zero (m : Machine) : m.run 0 = m := rfl

@[simp] theorem run_succ (m : Machine) (n : Nat) : m.run (n + 1) = m.step.run n := rfl

theorem run_add (m : Machine) (j k : Nat) : m.run (j + k) = (m.run j).run k := by
  induction j generalizing m with
  | zero => simp
  | succ j ih => simp [Nat.add_right_comm, ih]

/-- Counts both timers down by one; they stop at zero. -/
def tick (m : Machine) : Machine :=
  { m with
    delayTimer := if m.delayTimer = 0 then 0 else m.delayTimer - 1
    soundTimer := if m.soundTimer = 0 then 0 else m.soundTimer - 1 }

def ticks (m : Machine) : Nat → Machine
  | 0 => m
  | n + 1 => m.tick.ticks n

def frame (m : Machine) (n : Nat) : Machine :=
  (m.run n).tick

end Chip8.Machine
