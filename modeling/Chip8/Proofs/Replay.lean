import Chip8.Proofs.Simulation

/-! A host that was reset beside one that was just switched on and given the same program. No call tells the
two apart, whatever the first one went through before. -/

namespace Chip8

structure View where
  pc : UInt16
  word : UInt16
  registers : Registers
  display : Display
  drawFlag : Bool
  awaitingKey : Bool
  halted : Except Error Bool

/-- What a driver observes of a call. Log lines and timing figures are left out. -/
structure Record where
  events : List Event
  error : Option Error
  machine : Machine
  view : View

namespace Host

def view (h : Host) : View where
  pc := h.machine.pc
  word := h.machine.currentWord
  registers := h.machine.registers
  display := h.machine.display
  drawFlag := h.machine.drawFlag
  awaitingKey := h.machine.awaitingKey
  halted := h.halted

def record (h : Host) (c : Call) : Record where
  events := audible (h.call c).events
  error := (h.call c).error
  machine := (h.call c).host.machine
  view := (h.call c).host.view

def transcript (h : Host) : List Call → List Record
  | [] => []
  | c :: calls => h.record c :: (h.call c).host.transcript calls

end Host

/-- Two reactions that differ in log lines and timing figures at most. -/
structure Reaction.Alike (r r' : Reaction) : Prop where
  outline : r.host.outline = r'.host.outline
  events : audible r.events = audible r'.events
  error : r.error = r'.error

theorem Reaction.Shows.alike {r r' : Reaction} {o : Outline} {events : List Event} {error : Option Error}
    (h : r.Shows o events error) (h' : r'.Shows o events error) : r.Alike r' where
  outline := h.outline.trans h'.outline.symm
  events := h.audible.trans h'.audible.symm
  error := h.error.trans h'.error.symm

theorem Reaction.Answers.alike {r r' : Reaction} {o : Outline} {events : List Event}
    {x : Except Error Outline} (h : r.Answers o events x) (h' : r'.Answers o events x) : r.Alike r' := by
  cases x with
  | ok granted => exact Reaction.Shows.alike h h'
  | error e => exact Reaction.Shows.alike h h'

theorem Reaction.Alike.andThen {r r' : Reaction} {f f' : Host → Reaction} (first : r.Alike r')
    (next : ∀ h h' : Host, h.outline = h'.outline → (f h).Alike (f' h')) :
    (r.andThen f).Alike (r'.andThen f') := by
  have second := next r.host r'.host first.outline
  cases failed : r.error.isSome with
  | true => rwa [andThen_of_error failed, andThen_of_error (first.error ▸ failed)]
  | false =>
    rw [andThen_of_ok failed, andThen_of_ok (first.error ▸ failed)]
    have events : audible (r.events ++ (f r.host).events) = audible (r'.events ++ (f' r'.host).events) := by
      rw [audible_append, audible_append, first.events, second.events]
    exact ⟨second.outline, events, second.error⟩

namespace Host

variable {h h' : Host}

theorem step_alike (same : h.outline = h'.outline) : h.step.Alike h'.step := by
  have machine : h'.machine = h.machine := congrArg (fun o => o.machine) same.symm
  by_cases faultless : h.machine.step.error = 0
  · have shows := h'.step_shows_of_no_fault (machine ▸ faultless)
    rw [← same, machine] at shows
    exact (h.step_shows_of_no_fault faultless).alike shows
  · have shows := h'.step_shows_of_fault (machine ▸ faultless)
    rw [← same, machine] at shows
    exact (h.step_shows_of_fault faultless).alike shows

theorem run_alike (same : h.outline = h'.outline) (n : Nat) : (h.run n).Alike (h'.run n) := by
  induction n generalizing h h' with
  | zero => exact ⟨same, rfl, rfl⟩
  | succ n ih => exact (step_alike same).andThen fun g g' same => ih same

/-- A call does not tell hosts apart that differ in their logger, their clock and their timing figures. -/
theorem call_alike (same : h.outline = h'.outline) (c : Call) : (h.call c).Alike (h'.call c) := by
  cases c using Call.stepCases with
  | step => exact step_alike same
  | run n => exact run_alike same n
  | other c noStep =>
    have answers : (h'.call c).Answers h'.outline (h'.outline.told c)
        ((h'.outline.session.request h'.outline.key h'.outline.strict c).map (h'.outline.grant c)) :=
      h'.call_answers noStep
    rw [← same] at answers
    exact (h.call_answers noStep).alike answers

theorem transcript_congr (same : h.outline = h'.outline) (calls : List Call) :
    h.transcript calls = h'.transcript calls := by
  induction calls generalizing h h' with
  | nil => rfl
  | cons c calls ih =>
    have alike := call_alike same c
    have machine : (h.call c).host.machine = (h'.call c).host.machine :=
      congrArg (fun o => o.machine) alike.outline
    have record : h.record c = h'.record c := by
      rw [Host.record, Host.record, view, view, halted, halted, alike.events, alike.error, machine]
    rw [transcript, transcript, record, ih alike.outline]

end Host

theorem Session.request_program {key : Key} {strict : Bool} {s s' : Session} {c : Call}
    (granted : s.request key strict c = .ok s') : s'.program = c.loads?.or s.program := by
  have load {p : Program} (loads : s.load p = .ok s') : s'.program = some p := by
    unfold Session.load at loads
    cases result : s.machine.load p with
    | ok m =>
      rw [result] at loads
      exact (congrArg Session.program (Except.ok.inj loads)).symm
    | error e =>
      rw [result] at loads
      cases loads
  have keep {x : Except Error Machine} (maps : x.map s.onMachine = .ok s') : s'.program = s.program := by
    cases x with
    | ok m => exact (congrArg Session.program (Except.ok.inj maps)).symm
    | error e => cases maps
  cases c with
  | load entries source =>
    replace granted : Program.ofInts entries >>= s.load = .ok s' := granted
    show s'.program = (Program.ofInts entries).toOption.or s.program
    cases result : Program.ofInts entries with
    | ok p =>
      rw [result] at granted
      exact load granted
    | error e =>
      rw [result] at granted
      cases granted
  | loadFile name contents =>
    cases contents with
    | some p => exact load granted
    | none => cases granted
  | step | run n | tick | consume =>
    cases granted
    rfl
  | setKeys keys | press key | release key | reset => exact keep granted

namespace Host

def loaded? (h : Host) (c : Call) : Option Program :=
  match (h.call c).error with
  | none => c.loads?
  | some _ => none

/-- The program of the last load among several calls that did not fail. -/
def lastLoaded (h : Host) : List Call → Option Program
  | [] => none
  | c :: calls => ((h.call c).host.lastLoaded calls).or (h.loaded? c)

theorem call_program (h : Host) (c : Call) : (h.call c).host.program = (h.loaded? c).or h.program := by
  unfold loaded?
  cases c using Call.stepCases with
  | step => split <;> exact h.step_program
  | run n => split <;> exact Session.program_eq_of_lowered (h.run_session n)
  | other c noStep =>
    obtain ⟨s, ok, shows⟩ | ⟨e, refused, shows⟩ := (h.call_answers noStep).cases
    · rw [shows.error]
      exact (congrArg (fun o => o.program) shows.outline).trans (Session.request_program ok)
    · rw [shows.error]
      exact congrArg (fun o => o.program) shows.outline

theorem after_program (h : Host) (calls : List Call) :
    (h.after calls).program = (h.lastLoaded calls).or h.program := by
  induction calls generalizing h with
  | nil => rfl
  | cons c calls ih => rw [after, ih, call_program, lastLoaded, Option.or_assoc]

end Host

def Setup.powerOn (s : Setup) : Outline where
  toSetup := s
  machine := Machine.initial s.key s.strict
  program := none
  firstStep := true

def Outline.supplied (o : Outline) : Option Program → Outline
  | some p => { o with machine := o.machine.loaded p, program := some p }
  | none => o

namespace Host

def supply (h : Host) (program : Option Program) (source : Option String) : Reaction :=
  match program with
  | some p => h.load p source
  | none => { host := h }

theorem supply_shows (h : Host) {program : Option Program}
    (fits : ∀ p, program = some p → p.length ≤ programCapacity) (source : Option String) :
    (h.supply program source).Shows (h.outline.supplied program) [] none := by
  cases program with
  | none => exact ⟨rfl, rfl, rfl⟩
  | some p =>
    have answers := h.load_answers p source
    rw [h.machine.load_eq_ok (fits p rfl)] at answers
    exact answers

/-- A reset comes to the same as to switch on and to load the remembered program. -/
theorem reset_shows {h : Host} (fits : h.session.Fits) :
    h.reset.Shows (h.outline.toSetup.powerOn.supplied h.program) [] none := by
  have answers : h.reset.Answers h.outline []
      (((Machine.initial h.key h.strict).reset h.program).map fun m =>
        { toSetup := h.outline.toSetup, machine := m, program := h.program, firstStep := true }) :=
    h.reset_answers
  cases remembered : h.program with
  | none =>
    rw [remembered] at answers
    exact answers
  | some p =>
    have granted : (Machine.initial h.key h.strict).reset (some p) =
        .ok ((Machine.initial h.key h.strict).loaded p) := Machine.load_eq_ok _ (fits p remembered)
    rw [remembered, granted] at answers
    exact answers

/-- A host that is reset after any calls, some of which may have failed, cannot be told from one that was just
switched on with the same random stream, strictness and listeners, and on which the program of the last load
that did not fail, if there was one, was loaded. From then on any calls let the same events be heard, fail
with the same errors and leave the same machines. -/
theorem reset_replays_from_power_on (key : Key) (strict : Bool) (listeners : Listeners)
    (logger logger' : Logger) (clock clock' : Clock Float) (past : List Call) (source : Option String) :
    let new := powerOn key strict listeners logger clock
    let used := new.after past
    let fresh := (powerOn key strict listeners logger' clock').supply (new.lastLoaded past) source
    used.reset.error = none ∧ fresh.error = none ∧
      ∀ calls, used.reset.host.transcript calls = fresh.host.transcript calls := by
  intro new used fresh
  have fits : used.session.Fits := after_fits (h := new) (Session.Fits.powerOn key strict) past
  have setup : used.outline.toSetup = new.outline.toSetup := new.after_setup past
  have program : used.program = new.lastLoaded past := by
    rw [new.after_program past]
    exact Option.or_none
  have reset := reset_shows fits
  have supply := (powerOn key strict listeners logger' clock').supply_shows fits source
  rw [setup, program] at reset
  rw [show used.session.program = new.lastLoaded past from program] at supply
  exact ⟨reset.error, supply.error, fun calls => transcript_congr (reset.alike supply).outline calls⟩

end Host
end Chip8
