import Chip8.Proofs.Session

/-! A host against the machine that it owns. The same calls are made on a machine without a host, and the
two go through the same machines but for the draw flag, which a host lowers. -/

namespace Chip8

def Outline.session (o : Outline) : Session where
  machine := o.machine
  program := o.program

/-- The outline once a call was granted. To take the frame lowers the draw flag as well. -/
def Outline.grant (o : Outline) (c : Call) (s : Session) : Outline where
  toSetup := o.toSetup
  machine := if c.takes then s.machine.lowerDrawFlag else s.machine
  program := s.program
  firstStep := c.isReset || o.firstStep

theorem Outline.session_grant (o : Outline) (c : Call) (s : Session) :
    (o.grant c s).session.lowered = s.lowered := by
  unfold Outline.grant
  cases c.takes <;> rfl

/-- What is told of a call without a step: a tick can end a sound. -/
def Outline.told (o : Outline) : Call → List Event
  | .tick => (o.onMachine o.machine.tick).soundEnd o.machine.soundTimer
  | _ => []

theorem Reaction.Answers.map_map {r : Reaction} {o : Outline} {events : List Event}
    {m : Except Error Machine} {f : Machine → Session} {g : Session → Outline}
    (h : r.Answers o events (m.map (g ∘ f))) : r.Answers o events ((m.map f).map g) := by
  cases m <;> exact h

namespace Host

def session (h : Host) : Session :=
  h.outline.session

variable (h : Host) {c : Call}

theorem call_answers (noStep : c.steps = false) : (h.call c).Answers h.outline (h.outline.told c)
    ((h.session.request h.key h.strict c).map (h.outline.grant c)) := by
  cases c with
  | load entries source =>
    show (h.loadEntries entries source).Answers h.outline []
      ((Program.ofInts entries >>= h.session.load).map _)
    unfold loadEntries
    cases Program.ofInts entries with
    | ok p => exact (h.load_answers p source).map_map
    | error e => exact h.refuse_shows e
  | loadFile name contents =>
    cases contents with
    | some p => exact (h.load_answers p (some name)).map_map
    | none => exact h.refuse_shows .missingFile
  | step => cases noStep
  | run n =>
    obtain rfl := Call.eq_zero_of_run noStep
    exact ⟨rfl, rfl, rfl⟩
  | tick => exact h.tick_shows
  | setKeys keys => exact (h.setKeys_answers keys).map_map
  | press key => exact (h.setKey_answers key true).map_map
  | release key => exact (h.setKey_answers key false).map_map
  | consume => exact ⟨rfl, rfl, rfl⟩
  | reset => exact h.reset_answers.map_map

@[elab_as_elim]
theorem call_cases {motive : Outline → List Event → Prop} (h : Host) {c : Call}
    (noStep : c.steps = false)
    (refused : ∀ e, h.session.request h.key h.strict c = .error e → motive h.outline [])
    (ticked : c = .tick → motive (h.outline.onMachine h.machine.tick)
      ((h.outline.onMachine h.machine.tick).soundEnd h.machine.soundTimer))
    (taken : c = .consume → motive (h.outline.onMachine h.machine.lowerDrawFlag) [])
    (keyed : ∀ keypad, c.isReset = false →
      motive (h.outline.onMachine { h.machine with keypad := keypad }) [])
    (loaded : ∀ p : Program, c.loads? = some p → p.length ≤ programCapacity →
      motive { h.outline with machine := h.machine.loaded p, program := some p } [])
    (restarted : c = .reset →
      motive { h.outline with machine := Machine.initial h.key h.strict, firstStep := true } [])
    (reloaded : ∀ p : Program, c = .reset → motive
      { h.outline with machine := (Machine.initial h.key h.strict).loaded p, firstStep := true } []) :
    motive (h.call c).host.outline (audible (h.call c).events) := by
  by_cases tick : c = .tick
  · subst tick
    have shows := h.tick_shows
    rw [call, shows.outline, shows.audible]
    exact ticked rfl
  by_cases consume : c = .consume
  · subst consume
    exact taken rfl
  have silent : h.outline.told c = [] := by
    cases c <;> first | rfl | exact absurd rfl tick
  have leaves : c.takes = false := by
    cases c <;> first | rfl | exact absurd rfl consume
  -- The rest is silent and comes to what is granted without a host.
  have granted (s : Session) (ok : h.session.request h.key h.strict c = .ok s) :
      motive (h.outline.grant c s) [] := by
    revert s
    unfold Outline.grant
    rw [leaves]
    refine Session.request_cases h.key h.strict h.session noStep ?refused ?ticked ?keyed ?loaded ?restarted
      ?reloaded
    case refused => exact fun e s impossible => nomatch impossible
    case ticked => exact fun isTick => absurd isTick tick
    case keyed =>
      rintro keypad noReset _ ⟨⟩
      rw [noReset]
      exact keyed keypad noReset
    case loaded =>
      rintro p loads fits _ ⟨⟩
      rw [Call.isReset_of_loads? loads]
      exact loaded p loads fits
    case restarted =>
      rintro rfl _ ⟨⟩
      exact restarted rfl
    case reloaded =>
      rintro p rfl - _ ⟨⟩
      exact reloaded p rfl
  have answer := h.call_answers noStep
  rw [silent] at answer
  obtain ⟨s, ok, shows⟩ | ⟨e, result, shows⟩ := answer.cases
  · exact shows.outline ▸ shows.audible ▸ granted s ok
  · exact shows.outline ▸ shows.audible ▸ refused e result

theorem step_error : h.step.error = h.machine.step.failure? := by
  by_cases faultless : h.machine.step.error = 0
  · exact (h.step_shows_of_no_fault faultless).error.trans (Machine.failure?_eq_none_iff.mpr faultless).symm
  · exact (h.step_shows_of_fault faultless).error

theorem step_error_eq_none_iff : h.step.error = none ↔ h.machine.step.error = 0 := by
  rw [step_error, Machine.failure?_eq_none_iff]

/-- A step leaves the host as its cycle leaves it, or with the display shown as well. -/
theorem step_outline_cases {motive : Outline → Prop} (cycled : motive h.outline.stepped)
    (shown : motive h.outline.stepped.shown) : motive h.step.host.outline := by
  by_cases faultless : h.machine.step.error = 0
  · exact (h.step_shows_of_no_fault faultless).outline ▸ shown
  · exact (h.step_shows_of_fault faultless).outline ▸ cycled

theorem step_setup : h.step.host.outline.toSetup = h.outline.toSetup :=
  h.step_outline_cases (motive := fun o => o.toSetup = h.outline.toSetup) rfl rfl

theorem step_listeners : h.step.host.listeners = h.listeners :=
  congrArg (fun s => s.listeners) h.step_setup

theorem step_session : h.step.host.session.lowered = (h.session.onMachine h.machine.step).lowered := by
  refine h.step_outline_cases (motive := fun o => o.session.lowered = _) rfl ?_
  unfold Outline.shown
  cases h.outline.stepped.listeners.draw <;> rfl

theorem step_program : h.step.host.program = h.program :=
  Session.program_eq_of_lowered h.step_session

theorem step_machine : h.step.host.machine.lowerDrawFlag = h.machine.step.lowerDrawFlag :=
  Session.machine_eq_of_lowered h.step_session

variable {h} in
theorem step_machine_of_deaf (deaf : h.listeners.draw = false) : h.step.host.machine = h.machine.step := by
  refine h.step_outline_cases (motive := fun o => o.machine = h.machine.step) rfl ?_
  rw [Outline.shown, show h.outline.stepped.listeners.draw = false from deaf]
  rfl

section run

variable {h}

theorem step_isSome_of_fault (fault : h.machine.step.error ≠ 0) : h.step.error.isSome = true :=
  Option.isSome_iff_ne_none.mpr fun ok => fault (h.step_error_eq_none_iff.mp ok)

theorem step_isSome_of_no_fault (faultless : h.machine.step.error = 0) : h.step.error.isSome = false := by
  rw [h.step_error_eq_none_iff.mpr faultless]
  rfl

theorem run_succ_of_fault (fault : h.machine.step.error ≠ 0) (n : Nat) : h.run (n + 1) = h.step := by
  rw [run, Reaction.andThen_of_error (step_isSome_of_fault fault)]

theorem run_succ_of_no_fault (faultless : h.machine.step.error = 0) (n : Nat) : h.run (n + 1) =
    { h.step.host.run n with events := h.step.events ++ (h.step.host.run n).events } := by
  rw [run, Reaction.andThen_of_ok (step_isSome_of_no_fault faultless)]

end run

/-- A run makes its steps one by one and ends with the first that fails. -/
@[elab_as_elim]
theorem run_induction {motive : Host → Nat → Reaction → Prop}
    (none : ∀ h : Host, motive h 0 { host := h })
    (failed : ∀ (h : Host) (n : Nat), h.machine.step.error ≠ 0 → motive h (n + 1) h.step)
    (stepped : ∀ (h : Host) (n : Nat), h.machine.step.error = 0 →
      motive h.step.host n (h.step.host.run n) →
      motive h (n + 1)
        { h.step.host.run n with events := h.step.events ++ (h.step.host.run n).events })
    (h : Host) (n : Nat) : motive h n (h.run n) := by
  induction n generalizing h with
  | zero => exact none h
  | succ n ih =>
    by_cases faultless : h.machine.step.error = 0
    · exact run_succ_of_no_fault faultless n ▸ stepped h n faultless (ih h.step.host)
    · exact run_succ_of_fault faultless n ▸ failed h n faultless

theorem run_setup (n : Nat) : (h.run n).host.outline.toSetup = h.outline.toSetup := by
  refine run_induction ?none ?failed ?stepped h n
  case none => exact fun h => rfl
  case failed => exact fun h n _ => h.step_setup
  case stepped => exact fun h n _ rest => rest.trans h.step_setup

theorem run_session (n : Nat) :
    (h.run n).host.session.lowered = (h.session.onMachine (h.machine.run n)).lowered := by
  refine run_induction ?none ?failed ?stepped h n
  case none => exact fun h => rfl
  case failed =>
    intro h n fault
    -- The machine goes on cycling where the host stops, but it is halted.
    rw [Machine.run_succ, Machine.run_of_halted fault]
    exact h.step_session
  case stepped =>
    intro h n _ rest
    refine rest.trans ?_
    show Session.mk (h.step.host.machine.run n).lowerDrawFlag h.step.host.program =
      Session.mk (h.machine.step.run n).lowerDrawFlag h.program
    rw [Machine.run_congr_drawFlag h.step_machine, step_program]

/-- What a host's step leaves meets the faults that the machine would meet. -/
theorem run_step_error (k : Nat) :
    (h.step.host.machine.run k).error = (h.machine.step.run k).error :=
  Machine.error_congr_drawFlag (Machine.run_congr_drawFlag h.step_machine k)

theorem run_error_eq_none_iff (n : Nat) :
    (h.run n).error = none ↔ ∀ k < n, (h.machine.run (k + 1)).error = 0 := by
  refine run_induction ?none ?failed ?stepped h n
  case none => exact fun h => iff_of_true rfl fun k none => absurd none k.not_lt_zero
  case failed =>
    intro h n fault
    exact iff_of_false (fun ok => fault (h.step_error_eq_none_iff.mp ok)) fun all =>
      fault (all 0 n.succ_pos)
  case stepped =>
    intro h n faultless rest
    simp only [run_step_error] at rest
    refine rest.trans ⟨fun all k within => ?_, fun all k within => all (k + 1) (Nat.succ_lt_succ within)⟩
    cases k with
    | zero => exact faultless
    | succ k => exact all k (Nat.lt_of_succ_lt_succ within)

theorem run_of_fault {k n : Nat} (within : k < n) (fault : (h.machine.run (k + 1)).error ≠ 0) :
    h.run n = h.run (k + 1) := by
  -- On the cycle that fails, for any host: the run of the rest starts from the next one.
  induction k generalizing h n with
  | zero =>
    obtain ⟨n, rfl⟩ := Nat.exists_eq_succ_of_ne_zero (Nat.ne_of_gt within)
    rw [run_succ_of_fault fault, run_succ_of_fault fault]
  | succ k ih =>
    obtain ⟨n, rfl⟩ := Nat.exists_eq_succ_of_ne_zero (Nat.ne_of_gt (Nat.zero_lt_of_lt within))
    by_cases faultless : h.machine.step.error = 0
    · have rest := ih h.step.host (Nat.lt_of_succ_lt_succ within) (h.run_step_error (k + 1) ▸ fault)
      rw [run_succ_of_no_fault faultless, run_succ_of_no_fault faultless, rest]
    · rw [run_succ_of_fault faultless, run_succ_of_fault faultless]

theorem call_session (c : Call) :
    (h.call c).host.session.lowered = (h.session.call h.key h.strict c).lowered := by
  cases c using Call.stepCases with
  | step => exact h.step_session
  | run n => exact h.run_session n
  | other c noStep =>
    unfold Session.call
    obtain ⟨s, ok, shows⟩ | ⟨e, refused, shows⟩ := (h.call_answers noStep).cases
    · rw [ok]
      exact (congrArg (fun o => o.session.lowered) shows.outline).trans (h.outline.session_grant c s)
    · rw [refused]
      exact congrArg (fun o => o.session.lowered) shows.outline

variable {h} in
theorem call_fits (fits : h.session.Fits) (c : Call) : (h.call c).host.session.Fits := by
  have same : (h.call c).host.session.program = (h.session.call h.key h.strict c).program :=
    Session.program_eq_of_lowered (h.call_session c)
  exact fun p remembered => fits.call h.key h.strict c p (same ▸ remembered)

theorem call_setup (c : Call) : (h.call c).host.outline.toSetup = h.outline.toSetup := by
  cases c using Call.stepCases with
  | step => exact h.step_setup
  | run n => exact h.run_setup n
  | other c noStep =>
    obtain ⟨s, -, shows⟩ | ⟨e, -, shows⟩ := (h.call_answers noStep).cases
    · rw [shows.outline]
      rfl
    · rw [shows.outline]

theorem call_listeners (c : Call) : (h.call c).host.listeners = h.listeners :=
  congrArg (fun s => s.listeners) (h.call_setup c)

theorem after_setup (calls : List Call) : (h.after calls).outline.toSetup = h.outline.toSetup := by
  induction calls generalizing h with
  | nil => rfl
  | cons c calls ih => exact (ih (h.call c).host).trans (h.call_setup c)

variable {h} in
theorem after_fits (fits : h.session.Fits) (calls : List Call) : (h.after calls).session.Fits := by
  induction calls generalizing h with
  | nil => exact fits
  | cons c calls ih => exact ih (call_fits fits c)

variable {h} in
theorem after_session {s : Session} (agree : h.session.lowered = s.lowered) (calls : List Call) :
    (h.after calls).session.lowered = (s.after h.key h.strict calls).lowered := by
  induction calls generalizing h s with
  | nil => exact agree
  | cons c calls ih =>
    have setup := h.call_setup c
    have key : (h.call c).host.key = h.key := congrArg Setup.key setup
    have strict : (h.call c).host.strict = h.strict := congrArg Setup.strict setup
    have first : (h.call c).host.session.lowered = (s.call h.key h.strict c).lowered := by
      rw [call_session, ← Session.call_lowered, agree, Session.call_lowered]
    have rest := ih first
    rw [key, strict] at rest
    exact rest

theorem call_error {c : Call} (noStep : c.steps = false) (e : Error) :
    (h.call c).error = some e ↔ h.session.request h.key h.strict c = .error e := by
  obtain ⟨s, ok, shows⟩ | ⟨e', refused, shows⟩ := (h.call_answers noStep).cases
  · rw [shows.error, ok]
    exact iff_of_false nofun nofun
  · rw [shows.error, refused, Option.some.injEq, Except.error.injEq]

/-- After any calls, some of which may have failed, a host has the machine that the same calls give without
a host, but for the draw flag. It fails where that machine meets a fault or refuses the call, a run fails
at the first fault, and a reset never fails. -/
theorem simulates_session (key : Key) (strict : Bool) (listeners : Listeners) (logger : Logger)
    (clock : Clock Float) (calls : List Call) :
    let h := (powerOn key strict listeners logger clock).after calls
    let s := (Session.powerOn key strict).after key strict calls
    h.machine.lowerDrawFlag = s.machine.lowerDrawFlag ∧ h.program = s.program ∧
    (h.step.error = none ↔ s.machine.step.error = 0) ∧
    (∀ n, (h.run n).error = none ↔ ∀ k < n, (s.machine.run (k + 1)).error = 0) ∧
    (∀ n, ∀ k < n, (s.machine.run (k + 1)).error ≠ 0 → h.run n = h.run (k + 1)) ∧
    (∀ n, (h.run n).host.machine.lowerDrawFlag = (s.machine.run n).lowerDrawFlag) ∧
    (∀ c e, c.steps = false → ((h.call c).error = some e ↔ s.request key strict c = .error e)) ∧
    h.reset.error = none := by
  intro h s
  have agree : h.session.lowered = s.lowered :=
    after_session (h := powerOn key strict listeners logger clock) (s := Session.powerOn key strict) rfl calls
  have machine : h.machine.lowerDrawFlag = s.machine.lowerDrawFlag := Session.machine_eq_of_lowered agree
  have faults (n : Nat) : (h.machine.run n).error = (s.machine.run n).error :=
    Machine.error_congr_drawFlag (Machine.run_congr_drawFlag machine n)
  have setup : h.outline.toSetup = { key, strict, listeners } := after_setup _ calls
  have sameKey : h.key = key := congrArg Setup.key setup
  have sameStrict : h.strict = strict := congrArg Setup.strict setup
  have refusals (c : Call) (e : Error) (noStep : c.steps = false) :
      (h.call c).error = some e ↔ s.request key strict c = .error e := by
    rw [h.call_error noStep, sameKey, sameStrict]
    exact Session.request_error_congr key strict agree c e
  have fits : s.Fits := (Session.Fits.powerOn key strict).after key strict calls
  refine ⟨machine, Session.program_eq_of_lowered agree, ?step, ?run, ?halt, ?ran, refusals, ?reset⟩
  case step => rw [step_error_eq_none_iff, show h.machine.step.error = s.machine.step.error from faults 1]
  case run =>
    intro n
    simp only [run_error_eq_none_iff, faults]
  case halt => exact fun n k within fault => h.run_of_fault within (faults (k + 1) ▸ fault)
  case ran =>
    intro n
    have ran := Session.machine_eq_of_lowered (h.run_session n)
    exact ran.trans (Machine.run_congr_drawFlag machine n)
  case reset =>
    refine Option.eq_none_iff_forall_ne_some.mpr fun e failed => ?_
    cases fits.isReset_of_error ((refusals .reset e rfl).mp failed)

end Host
end Chip8
