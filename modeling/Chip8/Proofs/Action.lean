import Chip8.Machine.Cycle
import Chip8.Machine.Program

/-! The life of a machine in the hands of a host: the requests that a host makes in any order, and
induction on them. -/

namespace Chip8

inductive Action where
  | step
  | tick
  | setKeys (keys : Switches)
  | setKey (key : Int) (down : Bool)
  | lowerDrawFlag
  | load (p : Program)
  | reset (p : Option Program)

def Action.isStep : Action → Bool
  | .step => true
  | _ => false

theorem Action.eq_step {a : Action} (isStep : a.isStep = true) : a = .step := by
  cases a with
  | step => rfl
  | _ => cases isStep

def Action.isTick : Action → Bool
  | .tick => true
  | _ => false

def Action.isReset : Action → Bool
  | .reset _ => true
  | _ => false

/-- Whether an action puts a program into memory. One that does not fit is refused. -/
def Action.isLoad : Action → Bool
  | .load p => decide (p.length ≤ programCapacity)
  | _ => false

namespace Machine

/-- What a host goes on with. A refused request changes nothing. -/
def settle (m : Machine) : Except Error Machine → Machine
  | .ok m => m
  | .error _ => m

def act (m : Machine) : Action → Machine
  | .step => m.step
  | .tick => m.tick
  | .setKeys keys => m.settle (m.setKeys keys)
  | .setKey key down => m.settle (m.setKey key down)
  | .lowerDrawFlag => m.lowerDrawFlag
  | .load p => m.settle (m.load p)
  | .reset p => m.settle (m.reset p)

def after (m : Machine) (actions : List Action) : Machine :=
  actions.foldl act m

@[simp] theorem after_nil (m : Machine) : m.after [] = m := rfl

@[simp] theorem after_cons (m : Machine) (a : Action) (actions : List Action) :
    m.after (a :: actions) = (m.act a).after actions := rfl

theorem after_append (m : Machine) (first second : List Action) :
    m.after (first ++ second) = (m.after first).after second :=
  List.foldl_append

/-- The machine before each step among several actions. -/
def trail (m : Machine) : List Action → List Machine
  | [] => []
  | a :: actions => (if a.isStep then [m] else []) ++ (m.act a).trail actions

@[simp] theorem trail_nil (m : Machine) : m.trail [] = [] := rfl

@[simp] theorem trail_step (m : Machine) (actions : List Action) :
    m.trail (.step :: actions) = m :: m.step.trail actions := rfl

theorem trail_cons_of_no_step (m : Machine) {a : Action} (noStep : a.isStep = false)
    (actions : List Action) : m.trail (a :: actions) = (m.act a).trail actions := by
  simp [trail, noStep]

def adjust (m : Machine) (delay sound : UInt8) (keypad : Keypad) (drawFlag : Bool) : Machine :=
  { m with delayTimer := delay, soundTimer := sound, keypad := keypad, drawFlag := drawFlag }

section adjust

variable (m : Machine) (delay sound : UInt8) (keypad : Keypad) (drawFlag : Bool)

@[simp] theorem adjust_key : (m.adjust delay sound keypad drawFlag).key = m.key := by rfl

@[simp] theorem adjust_memory : (m.adjust delay sound keypad drawFlag).memory = m.memory := by rfl

@[simp] theorem adjust_pc : (m.adjust delay sound keypad drawFlag).pc = m.pc := by rfl

@[simp] theorem adjust_stack : (m.adjust delay sound keypad drawFlag).stack = m.stack := by rfl

@[simp] theorem adjust_index : (m.adjust delay sound keypad drawFlag).index = m.index := by rfl

@[simp] theorem adjust_awaitingKey :
    (m.adjust delay sound keypad drawFlag).awaitingKey = m.awaitingKey := by rfl

@[simp] theorem adjust_keyRegister :
    (m.adjust delay sound keypad drawFlag).keyRegister = m.keyRegister := by rfl

@[simp] theorem adjust_error : (m.adjust delay sound keypad drawFlag).error = m.error := by rfl

end adjust

variable {m m' : Machine}

theorem setKeys_ok {keys : Switches} (h : m.setKeys keys = .ok m') :
    ∃ keypad, m' = m.adjust m.delayTimer m.soundTimer keypad m.drawFlag := by
  unfold setKeys at h
  cases result : keys.toKeypad with
  | error e => simp [result, bind, Except.bind] at h
  | ok keypad =>
    rw [result] at h
    exact ⟨keypad, (Except.ok.inj h).symm⟩

theorem setKey_ok {key : Int} {down : Bool} (h : m.setKey key down = .ok m') :
    ∃ keypad, m' = m.adjust m.delayTimer m.soundTimer keypad m.drawFlag := by
  unfold setKey at h
  cases named : Nibble.ofInt? key with
  | none => simp [named] at h
  | some k =>
    rw [named] at h
    exact ⟨m.keypad.set k down, (Except.ok.inj h).symm⟩

theorem load_ok {p : Program} (h : m.load p = .ok m') :
    p.length ≤ programCapacity ∧ m' = m.loaded p := by
  unfold load at h
  by_cases large : programCapacity < p.length
  · simp [large] at h
  · rw [if_neg large] at h
    exact ⟨Nat.le_of_not_lt large, (Except.ok.inj h).symm⟩

@[simp] theorem act_step (m : Machine) : m.act .step = m.step := rfl

theorem act_load (m : Machine) {p : Program} (fits : p.length ≤ programCapacity) :
    m.act (.load p) = m.loaded p := by
  rw [act, load_eq_ok m fits, settle]

theorem settle_cases {motive : Machine → Prop} {r : Except Error Machine}
    (granted : ∀ m', r = .ok m' → motive m') (refused : motive m) : motive (m.settle r) := by
  cases r with
  | ok m' => exact granted m' rfl
  | error e => exact refused

/-- All that an action can do: a step, a change of what only a host sees, a program in memory, or the
machine at power-on. -/
@[elab_as_elim]
theorem act_cases {motive : Machine → Prop} (m : Machine) (a : Action)
    (stepped : a.isStep = true → motive m.step)
    (adjusted : ∀ delay sound keypad drawFlag, motive (m.adjust delay sound keypad drawFlag))
    (loaded : ∀ p : Program, a = .load p → p.length ≤ programCapacity → motive (m.loaded p))
    (restarted : a.isReset = true → motive (initial m.key m.strict))
    (reloaded : ∀ p : Program, a.isReset = true → p.length ≤ programCapacity →
      motive ((initial m.key m.strict).loaded p)) :
    motive (m.act a) := by
  have refused : motive m := adjusted m.delayTimer m.soundTimer m.keypad m.drawFlag
  cases a with
  | step => exact stepped rfl
  | tick => exact adjusted _ _ m.keypad m.drawFlag
  | setKeys keys =>
    refine settle_cases (fun m' granted => ?_) refused
    obtain ⟨keypad, rfl⟩ := setKeys_ok granted
    exact adjusted _ _ keypad _
  | setKey key down =>
    refine settle_cases (fun m' granted => ?_) refused
    obtain ⟨keypad, rfl⟩ := setKey_ok granted
    exact adjusted _ _ keypad _
  | lowerDrawFlag => exact adjusted m.delayTimer m.soundTimer m.keypad false
  | load p =>
    refine settle_cases (fun m' granted => ?_) refused
    obtain ⟨fits, rfl⟩ := load_ok granted
    exact loaded p rfl fits
  | reset p =>
    cases p with
    | none => exact restarted rfl
    | some p =>
      refine settle_cases (fun m' granted => ?_) refused
      obtain ⟨fits, rfl⟩ := load_ok granted
      exact reloaded p rfl fits

theorem act_stack (m : Machine) {a : Action} (noStep : a.isStep = false) (noReset : a.isReset = false) :
    (m.act a).stack = m.stack := by
  refine act_cases m a ?stepped ?adjusted ?loaded ?restarted ?reloaded
  case stepped => simp [noStep]
  case adjusted => simp
  case loaded => simp
  case restarted => simp [noReset]
  case reloaded => simp [noReset]

theorem reset_stack {p : Option Program} (h : m.reset p = .ok m') : m'.stack = {} := by
  cases p with
  | none =>
    obtain rfl := Except.ok.inj h
    rfl
  | some p =>
    obtain ⟨-, rfl⟩ := load_ok h
    rw [loaded_stack]
    rfl

theorem after_induction {motive : Machine → Prop} {m : Machine} (start : motive m)
    (act : ∀ m a, motive m → motive (m.act a)) (actions : List Action) :
    motive (m.after actions) := by
  induction actions generalizing m with
  | nil => exact start
  | cons a actions ih => exact ih (act m a start)

theorem act_error (m : Machine) {a : Action} (noStep : a.isStep = false) (noReset : a.isReset = false) :
    (m.act a).error = m.error := by
  refine act_cases m a ?stepped ?adjusted ?loaded ?restarted ?reloaded
  case stepped => simp [noStep]
  case adjusted => simp
  case loaded => simp
  case restarted => simp [noReset]
  case reloaded => simp [noReset]

theorem act_error_of_halted (halted : m.error ≠ 0) {a : Action} (noReset : a.isReset = false) :
    (m.act a).error = m.error := by
  cases isStep : a.isStep with
  | true =>
    obtain rfl := Action.eq_step isStep
    simp [step, halted]
  | false => exact m.act_error isStep noReset

theorem after_error_of_halted (halted : m.error ≠ 0) {actions : List Action}
    (noReset : ∀ a ∈ actions, a.isReset = false) : (m.after actions).error = m.error := by
  induction actions generalizing m with
  | nil => rfl
  | cons a actions ih =>
    have first : (m.act a).error = m.error := act_error_of_halted halted (noReset a (by simp))
    rw [after_cons, ih (first ▸ halted) fun b member => noReset b (by simp [member]), first]

end Machine
end Chip8
