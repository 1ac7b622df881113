import Chip8.Proofs.Call
import Chip8.Proofs.Independence

/-! The calls of a driver made on a machine without a host, and all that a call without a step can come to. -/

namespace Chip8

/-- A machine that is driven without a host, and the program that was loaded last. -/
structure Session where
  machine : Machine
  program : Option Program := none

namespace Session

def onMachine (s : Session) (m : Machine) : Session :=
  { s with machine := m }

def load (s : Session) (p : Program) : Except Error Session :=
  (s.machine.load p).map fun m => { machine := m, program := some p }

/-- What a call comes to without a host. The display is there to be read, so to take a frame is to do
nothing. A reset gives the machine at power-on, which has the given key. -/
def request (key : Key) (strict : Bool) (s : Session) : Call → Except Error Session
  | .load entries _ => do s.load (← Program.ofInts entries)
  | .loadFile _ (some p) => s.load p
  | .loadFile _ none => .error .missingFile
  | .step => .ok (s.onMachine s.machine.step)
  | .run n => .ok (s.onMachine (s.machine.run n))
  | .tick => .ok (s.onMachine s.machine.tick)
  | .setKeys keys => (s.machine.setKeys keys).map s.onMachine
  | .press key => (s.machine.setKey key true).map s.onMachine
  | .release key => (s.machine.setKey key false).map s.onMachine
  | .consume => .ok s
  | .reset => ((Machine.initial key strict).reset s.program).map s.onMachine

def call (key : Key) (strict : Bool) (s : Session) (c : Call) : Session :=
  match s.request key strict c with
  | .ok s' => s'
  | .error _ => s

def after (key : Key) (strict : Bool) (s : Session) (calls : List Call) : Session :=
  calls.foldl (call key strict) s

def powerOn (key : Key) (strict : Bool) : Session where
  machine := Machine.initial key strict

def lowered (s : Session) : Session :=
  s.onMachine s.machine.lowerDrawFlag

theorem program_eq_of_lowered {s t : Session} (agree : s.lowered = t.lowered) : s.program = t.program :=
  show s.lowered.program = t.lowered.program by rw [agree]

theorem machine_eq_of_lowered {s t : Session} (agree : s.lowered = t.lowered) :
    s.machine.lowerDrawFlag = t.machine.lowerDrawFlag :=
  show s.lowered.machine = t.lowered.machine by rw [agree]

section lowered

variable (key : Key) (strict : Bool) (s : Session)

theorem map_lowered {f g : Machine → Session} (same : ∀ m, (f m.lowerDrawFlag).lowered = (g m).lowered)
    (m : Except Error Machine) :
    ((m.map Machine.lowerDrawFlag).map f).map lowered = (m.map g).map lowered := by
  cases m with
  | ok m => exact congrArg Except.ok (same m)
  | error e => rfl

theorem load_lowered (p : Program) : (s.lowered.load p).map lowered = (s.load p).map lowered := by
  rw [load, load, lowered, onMachine, Machine.load_lowerDrawFlag]
  exact map_lowered (g := fun m => { machine := m, program := some p }) (fun m => rfl) (s.machine.load p)

theorem request_lowered (c : Call) :
    (s.lowered.request key strict c).map lowered = (s.request key strict c).map lowered := by
  cases c with
  | load entries source =>
    show (Program.ofInts entries >>= s.lowered.load).map lowered =
      (Program.ofInts entries >>= s.load).map lowered
    cases Program.ofInts entries with
    | ok p => exact s.load_lowered p
    | error e => rfl
  | loadFile name contents =>
    cases contents with
    | some p => exact s.load_lowered p
    | none => rfl
  | step => exact congrArg (fun m => Except.ok (s.onMachine m)) s.machine.step_lowerDrawFlag
  | run n =>
    have same : s.machine.lowerDrawFlag.lowerDrawFlag = s.machine.lowerDrawFlag := rfl
    exact congrArg (fun m => Except.ok (s.onMachine m)) (Machine.run_congr_drawFlag same n)
  | setKeys keys =>
    show ((s.machine.lowerDrawFlag.setKeys keys).map s.lowered.onMachine).map lowered = _
    rw [Machine.setKeys_lowerDrawFlag]
    exact map_lowered (g := s.onMachine) (fun m => rfl) (s.machine.setKeys keys)
  | press key | release key =>
    show ((s.machine.lowerDrawFlag.setKey key _).map s.lowered.onMachine).map lowered = _
    rw [Machine.setKey_lowerDrawFlag]
    exact map_lowered (g := s.onMachine) (fun m => rfl) (s.machine.setKey key _)
  | tick | consume | reset => rfl

theorem request_error_congr {s t : Session} (agree : s.lowered = t.lowered) (c : Call) (e : Error) :
    s.request key strict c = .error e ↔ t.request key strict c = .error e := by
  have map_error (x : Except Error Session) : x.map lowered = .error e ↔ x = .error e := by
    cases x <;> simp [Except.map]
  rw [← map_error, ← request_lowered, agree, request_lowered, map_error]

theorem call_lowered (c : Call) : (s.lowered.call key strict c).lowered = (s.call key strict c).lowered := by
  have same := s.request_lowered key strict c
  unfold call
  generalize s.lowered.request key strict c = x at same
  generalize s.request key strict c = y at same
  match x, y, same with
  | .ok _, .ok _, same => exact Except.ok.inj same
  | .error _, .error _, _ => rfl

end lowered

/-- All that a call without a step can come to: a refusal, a tick, another keypad, a program in memory, or
the machine at power-on. -/
@[elab_as_elim]
theorem request_cases {motive : Except Error Session → Prop} (key : Key) (strict : Bool) (s : Session)
    {c : Call} (noStep : c.steps = false)
    (refused : ∀ e, motive (.error e))
    (ticked : c = .tick → motive (.ok (s.onMachine s.machine.tick)))
    (keyed : ∀ keypad, c.isReset = false → motive (.ok (s.onMachine { s.machine with keypad := keypad })))
    (loaded : ∀ p : Program, c.loads? = some p → p.length ≤ programCapacity →
      motive (.ok { machine := s.machine.loaded p, program := some p }))
    (restarted : c = .reset → motive (.ok (s.onMachine (Machine.initial key strict))))
    (reloaded : ∀ p : Program, c = .reset → p.length ≤ programCapacity →
      motive (.ok (s.onMachine ((Machine.initial key strict).loaded p)))) :
    motive (s.request key strict c) := by
  have load (p : Program) (loads : c.loads? = some p) : motive (s.load p) := by
    unfold Session.load
    cases result : s.machine.load p with
    | error e => exact refused e
    | ok m =>
      obtain ⟨fits, rfl⟩ := Machine.load_ok result
      exact loaded p loads fits
  have setKey (key : Int) (down : Bool) (noReset : c.isReset = false) :
      motive ((s.machine.setKey key down).map s.onMachine) := by
    unfold Machine.setKey
    cases Nibble.ofInt? key with
    | none => exact refused _
    | some k => exact keyed _ noReset
  cases c with
  | load entries source =>
    show motive (Program.ofInts entries >>= s.load)
    cases bytes : Program.ofInts entries with
    | error e => exact refused e
    | ok p => exact load p (by rw [Call.loads?, bytes]; rfl)
  | loadFile name contents =>
    cases contents with
    | none => exact refused _
    | some p => exact load p rfl
  | step => cases noStep
  | run n =>
    obtain rfl := Call.eq_zero_of_run noStep
    exact keyed s.machine.keypad rfl
  | tick => exact ticked rfl
  | setKeys keys =>
    show motive ((s.machine.setKeys keys).map s.onMachine)
    unfold Machine.setKeys
    cases keys.toKeypad with
    | error e => exact refused e
    | ok keypad => exact keyed keypad rfl
  | press key => exact setKey key true rfl
  | release key => exact setKey key false rfl
  | consume => exact keyed s.machine.keypad rfl
  | reset =>
    show motive (((Machine.initial key strict).reset s.program).map s.onMachine)
    cases s.program with
    | none => exact restarted rfl
    | some p =>
      show motive (((Machine.initial key strict).load p).map s.onMachine)
      cases result : (Machine.initial key strict).load p with
      | error e => exact refused e
      | ok m =>
        obtain ⟨fits, rfl⟩ := Machine.load_ok result
        exact reloaded p rfl fits

def Fits (s : Session) : Prop :=
  ∀ p, s.program = some p → p.length ≤ programCapacity

theorem Fits.powerOn (key : Key) (strict : Bool) : (Session.powerOn key strict).Fits := by
  intro p remembered
  cases (show none = some p from remembered)

theorem Fits.call {s : Session} (h : s.Fits) (key : Key) (strict : Bool) (c : Call) :
    (s.call key strict c).Fits := by
  unfold Session.call
  cases c using Call.stepCases with
  | step => exact h
  | run n => exact h
  | other c noStep =>
    refine request_cases key strict s noStep ?refused ?ticked ?keyed ?loaded ?restarted ?reloaded
    case refused => exact fun e => h
    case ticked => exact fun _ => h
    case keyed => exact fun _ _ => h
    case loaded => exact fun p _ fits q same => Option.some.inj same ▸ fits
    case restarted => exact fun _ => h
    case reloaded => exact fun _ _ _ => h

theorem Fits.after {s : Session} (h : s.Fits) (key : Key) (strict : Bool) (calls : List Call) :
    (s.after key strict calls).Fits := by
  induction calls generalizing s with
  | nil => exact h
  | cons c calls ih => exact ih (h.call key strict c)

theorem Fits.reset {s : Session} (h : s.Fits) (key : Key) (strict : Bool) :
    ∃ s', s.request key strict .reset = .ok s' := by
  cases remembered : s.program with
  | none => exact ⟨_, by rw [request, remembered]; rfl⟩
  | some p =>
    exact ⟨_, by rw [request, remembered, Machine.reset, Machine.load_eq_ok _ (h p remembered)]; rfl⟩

theorem Fits.isReset_of_error {s : Session} (h : s.Fits) {key : Key} {strict : Bool} {c : Call} {e : Error}
    (refused : s.request key strict c = .error e) : c.isReset = false := by
  cases c with
  | reset =>
    obtain ⟨s', granted⟩ := h.reset key strict
    rw [granted] at refused
    cases refused
  | _ => rfl

end Session
end Chip8
