import Chip8.Host
import Chip8.Proofs.Action

/-! The calls that a driver makes on a host, in any order, and what each of them shows. Log lines and timing
figures are left out of what is shown: no other part of a host depends on them. -/

namespace Chip8

inductive Call where
  | load (entries : List Int) (source : Option String)
  | loadFile (name : String) (contents : Option Program)
  | step
  | run (n : Nat)
  | tick
  | setKeys (keys : Switches)
  | press (key : Int)
  | release (key : Int)
  | consume
  | reset

namespace Call

def isReset : Call → Bool
  | reset => true
  | _ => false

def steps : Call → Bool
  | step => true
  | run n => decide (0 < n)
  | _ => false

def takes : Call → Bool
  | consume => true
  | _ => false

def loads? : Call → Option Program
  | load entries _ => (Program.ofInts entries).toOption
  | loadFile _ contents => contents
  | _ => none

def isLoad (c : Call) : Bool :=
  c.loads?.any fun p => decide (p.length ≤ programCapacity)

theorem isReset_of_loads? {c : Call} {p : Program} (loads : c.loads? = some p) : c.isReset = false := by
  cases c with
  | reset => cases loads
  | _ => rfl

theorem isLoad_of_loads? {c : Call} {p : Program} (loads : c.loads? = some p)
    (fits : p.length ≤ programCapacity) : c.isLoad = true := by
  simp [isLoad, loads, fits]

theorem eq_zero_of_run {n : Nat} (noStep : (run n).steps = false) : n = 0 := by
  simpa [steps] using noStep

@[elab_as_elim]
theorem stepCases {motive : Call → Prop} (step : motive .step) (run : ∀ n, motive (.run n))
    (other : ∀ c : Call, c.steps = false → motive c) (c : Call) : motive c := by
  cases c with
  | step => exact step
  | run n => exact run n
  | _ => exact other _ rfl

end Call

namespace Host

def call (h : Host) : Call → Reaction
  | .load entries source => h.loadEntries entries source
  | .loadFile name contents => h.loadFile name contents
  | .step => h.step
  | .run n => h.run n
  | .tick => h.tick
  | .setKeys keys => h.setKeys keys
  | .press key => h.press key
  | .release key => h.release key
  | .consume => { host := h.consume.2 }
  | .reset => h.reset

def after (h : Host) : List Call → Host
  | [] => h
  | c :: calls => (h.call c).host.after calls

def heard (h : Host) : List Call → List Event
  | [] => []
  | c :: calls => (h.call c).events ++ (h.call c).host.heard calls

theorem after_append (h : Host) (first second : List Call) :
    h.after (first ++ second) = (h.after first).after second := by
  induction first generalizing h with
  | nil => rfl
  | cons c first ih => exact ih (h.call c).host

end Host

structure Setup where
  key : Key
  strict : Bool
  listeners : Listeners

/-- A host without its logger, its clock and its timing figures. -/
structure Outline extends Setup where
  machine : Machine
  program : Option Program
  firstStep : Bool

def Host.outline (h : Host) : Outline where
  key := h.key
  strict := h.strict
  listeners := h.listeners
  machine := h.machine
  program := h.program
  firstStep := h.firstStep

def Event.isLog : Event → Bool
  | log _ => true
  | _ => false

/-- The events without the log lines. -/
def audible (events : List Event) : List Event :=
  events.filter fun e => !e.isLog

@[simp] theorem audible_append (first second : List Event) :
    audible (first ++ second) = audible first ++ audible second :=
  List.filter_append first second

theorem filterMap_audible {α : Type} {f : Event → Option α} (deaf : ∀ line, f (.log line) = none)
    (events : List Event) : (audible events).filterMap f = events.filterMap f := by
  induction events with
  | nil => rfl
  | cons e events ih =>
    cases e with
    | log line => exact ih.trans (List.filterMap_cons_none (deaf line)).symm
    | draw _ | startSound _ | endSound =>
      show List.filterMap f (_ :: audible events) = _
      rw [List.filterMap_cons, List.filterMap_cons, ih]

/-- A reaction leaves a host of the given outline, lets its listeners hear the given events, and fails with
the given error, if any. -/
structure Reaction.Shows (r : Reaction) (o : Outline) (events : List Event) (error : Option Error) :
    Prop where
  outline : r.host.outline = o
  audible : audible r.events = events
  error : r.error = error

namespace Reaction.Shows

variable {r : Reaction} {f : Host → Reaction} {o o' : Outline} {events events' : List Event}
  {error : Option Error}

theorem andThen (first : r.Shows o events none)
    (next : ∀ h : Host, h.outline = o → (f h).Shows o' events' error) :
    (r.andThen f).Shows o' (events ++ events') error := by
  have second := next r.host first.outline
  have ok : r.error.isSome = false := by rw [first.error]; rfl
  rw [andThen_of_ok ok]
  exact ⟨second.outline, by rw [audible_append, first.audible, second.audible], second.error⟩

theorem andThen_of_error {e : Error} (first : r.Shows o events (some e)) :
    (r.andThen f).Shows o events (some e) := by
  have failed : r.error.isSome = true := by rw [first.error]; rfl
  rw [Reaction.andThen_of_error failed]
  exact first

theorem andThen_quiet (first : r.Shows o events none)
    (next : ∀ h : Host, h.outline = o → (f h).Shows o [] error) :
    (r.andThen f).Shows o events error := by
  simpa using first.andThen next

end Reaction.Shows

/-- A granted call leaves the granted outline and lets the given events be heard. A refused call changes
nothing and is not heard. -/
def Reaction.Answers (r : Reaction) (o : Outline) (events : List Event) : Except Error Outline → Prop
  | .ok granted => r.Shows granted events none
  | .error e => r.Shows o [] (some e)

theorem Reaction.Answers.cases {α : Type} {r : Reaction} {o : Outline} {events : List Event}
    {x : Except Error α} {granted : α → Outline} (h : r.Answers o events (x.map granted)) :
    (∃ a, x = .ok a ∧ r.Shows (granted a) events none) ∨ ∃ e, x = .error e ∧ r.Shows o [] (some e) := by
  cases x with
  | ok a => exact .inl ⟨a, rfl, h⟩
  | error e => exact .inr ⟨e, rfl, h⟩

/-- The error that a host is given for a machine, if the machine is halted. -/
def Machine.failure? (m : Machine) : Option Error :=
  match m.raise with
  | .ok () => none
  | .error e => some e

theorem Machine.failure?_eq_none_iff {m : Machine} : m.failure? = none ↔ m.error = 0 := by
  have zero : (m.error.toNat : Int) = 0 ↔ m.error = 0 := by
    rw [← UInt8.toNat_inj]
    exact Int.natCast_eq_zero
  rw [failure?, raise, recordedFault, Fault.recorded]
  by_cases running : m.error = 0
  · rw [if_pos (zero.mpr running)]
    exact iff_of_true rfl running
  · rw [if_neg fun h => running (zero.mp h)]
    cases Fault.ofCode? m.error.toNat <;> exact iff_of_false (Option.some_ne_none _) running

namespace Outline

variable (o : Outline)

def firstFrame : List Event :=
  if o.firstStep && o.listeners.draw then [.draw o.machine.display] else []

def soundStart (before : UInt8) : List Event :=
  if before = 0 && 0 < o.machine.soundTimer then
    if o.listeners.startSound then [.startSound o.machine.soundTimer] else []
  else []

def soundEnd (before : UInt8) : List Event :=
  if 0 < before && o.machine.soundTimer = 0 then
    if o.listeners.endSound then [.endSound] else []
  else []

def drawnFrame : List Event :=
  if o.listeners.draw && o.machine.drawFlag then [.draw o.machine.display] else []

def onMachine (m : Machine) : Outline :=
  { o with machine := m }

def stepped : Outline :=
  { o with machine := o.machine.step, firstStep := false }

/-- The outline once a draw listener, if there is one, was shown the display. -/
def shown : Outline :=
  o.onMachine (if o.listeners.draw then o.machine.lowerDrawFlag else o.machine)

end Outline

namespace Host

variable (h : Host)

theorem refuse_shows (e : Error) : (h.refuse e).Shows h.outline [] (some e) :=
  ⟨rfl, rfl, rfl⟩

theorem log_shows (r : Report) : (h.log r).Shows h.outline [] none := by
  refine ⟨rfl, ?_, rfl⟩
  rw [log]
  cases h.logger.line? r.level r.text <;> rfl

theorem present_shows (frame : Display) : (h.present frame).Shows h.outline [.draw frame] none :=
  ⟨rfl, rfl, rfl⟩

theorem presentFirst_shows :
    h.presentFirst.Shows { h.outline with firstStep := false } h.outline.firstFrame none := by
  have unfolded : h.outline.firstFrame =
      if h.firstStep && h.listeners.draw then [.draw h.machine.display] else [] := rfl
  rw [unfolded, presentFirst]
  cases h.firstStep && h.listeners.draw with
  | true => exact present_shows { h with firstStep := false } h.machine.display
  | false => exact ⟨rfl, rfl, rfl⟩

theorem checkFault_shows : h.checkFault.Shows h.outline [] h.outline.machine.failure? := by
  have unfolded : h.outline.machine = h.machine := rfl
  rw [unfolded, checkFault, Machine.failure?, Machine.raise]
  cases h.machine.recordedFault with
  | error e => exact h.refuse_shows e
  | ok recorded =>
    cases recorded with
    | none => exact ⟨rfl, rfl, rfl⟩
    | some f =>
      refine (h.log_shows _).andThen_quiet fun g same => ?_
      refine (same ▸ g.log_shows (.registers g.machine)).andThen_quiet fun k same' => ?_
      exact same' ▸ k.refuse_shows (.fault (h.machine.report f))

/-- A message that is logged before a listener hears of the same thing. -/
theorem log_andThen_shows (r : Report) (told : Listeners → Bool) {e : Event} (quiet : e.isLog = false) :
    ((h.log r).andThen fun g => { host := g, events := if told g.listeners then [e] else [] }).Shows
      h.outline (if told h.listeners then [e] else []) none := by
  have whole : audible [e] = [e] := List.filter_cons_of_pos (by rw [quiet]; rfl)
  refine (h.log_shows r).andThen fun g same => ⟨same, ?_, rfl⟩
  have listeners : g.listeners = h.listeners := congrArg (fun o => o.listeners) same
  rw [listeners]
  cases told h.listeners with
  | true => exact whole
  | false => rfl

theorem checkSoundStart_shows (before : UInt8) :
    (h.checkSoundStart before).Shows h.outline (h.outline.soundStart before) none := by
  unfold checkSoundStart Outline.soundStart
  by_cases began : (before = 0 && 0 < h.machine.soundTimer) = true
  · rw [if_pos (show (before = 0 && 0 < h.outline.machine.soundTimer) = true from began), if_pos began]
    exact h.log_andThen_shows _ Listeners.startSound rfl
  · rw [if_neg (show ¬(before = 0 && 0 < h.outline.machine.soundTimer) = true from began), if_neg began]
    exact ⟨rfl, rfl, rfl⟩

theorem checkSoundEnd_shows (before : UInt8) :
    (h.checkSoundEnd before).Shows h.outline (h.outline.soundEnd before) none := by
  unfold checkSoundEnd Outline.soundEnd
  by_cases ended : (0 < before && h.machine.soundTimer = 0) = true
  · rw [if_pos (show (0 < before && h.outline.machine.soundTimer = 0) = true from ended), if_pos ended]
    exact h.log_andThen_shows _ Listeners.endSound rfl
  · rw [if_neg (show ¬(0 < before && h.outline.machine.soundTimer = 0) = true from ended), if_neg ended]
    exact ⟨rfl, rfl, rfl⟩

theorem presentDrawn_shows : h.presentDrawn.Shows h.outline.shown h.outline.drawnFrame none := by
  have shown : h.outline.shown =
      h.outline.onMachine (if h.listeners.draw then h.machine.lowerDrawFlag else h.machine) := rfl
  have drawn : h.outline.drawnFrame =
      if h.listeners.draw && h.machine.drawFlag then [.draw h.machine.display] else [] := rfl
  rw [shown, drawn, presentDrawn]
  cases h.listeners.draw with
  | false => exact ⟨rfl, rfl, rfl⟩
  | true =>
    cases flag : h.machine.drawFlag with
    | true => exact h.lowerDrawFlag.present_shows h.machine.display
    | false =>
      have lowered : h.machine.lowerDrawFlag = h.machine := by
        rw [Machine.lowerDrawFlag, ← flag]
      exact ⟨congrArg h.outline.onMachine lowered.symm, rfl, rfl⟩

/-- A step that halts the machine, or finds it halted, fails. -/
theorem step_shows_of_fault (fault : h.machine.step.error ≠ 0) :
    h.step.Shows h.outline.stepped h.outline.firstFrame h.machine.step.failure? := by
  obtain ⟨e, failure⟩ : ∃ e, h.machine.step.failure? = some e :=
    Option.ne_none_iff_exists'.mp fun none => fault (Machine.failure?_eq_none_iff.mp none)
  have checked (g : Host) (same : g.outline = { h.outline with firstStep := false }) :
      g.advance.checkFault.Shows h.outline.stepped [] (some e) := by
    have outline : g.advance.outline = h.outline.stepped :=
      congrArg (fun o => o.onMachine o.machine.step) same
    have shows := g.advance.checkFault_shows
    rw [outline] at shows
    exact failure ▸ shows
  unfold step
  rw [failure, ← List.append_nil h.outline.firstFrame]
  exact h.presentFirst_shows.andThen fun g same => (checked g same).andThen_of_error

/-- A step that meets no fault tells of the sound and then of the display. -/
theorem step_shows_of_no_fault (faultless : h.machine.step.error = 0) :
    h.step.Shows h.outline.stepped.shown
      (h.outline.firstFrame ++
        (h.outline.stepped.soundStart h.machine.soundTimer ++ h.outline.stepped.drawnFrame)) none := by
  have failure : h.machine.step.failure? = none := Machine.failure?_eq_none_iff.mpr faultless
  unfold step
  refine h.presentFirst_shows.andThen fun g same => ?_
  have outline : g.advance.outline = h.outline.stepped :=
    congrArg (fun o => o.onMachine o.machine.step) same
  have timer : g.machine.soundTimer = h.machine.soundTimer :=
    congrArg (fun o => o.machine.soundTimer) same
  have checked : g.advance.checkFault.Shows h.outline.stepped [] none := by
    have shows := g.advance.checkFault_shows
    rw [outline] at shows
    exact failure ▸ shows
  rw [timer, ← List.nil_append (_ ++ _)]
  refine checked.andThen fun k same' => ?_
  refine (same' ▸ k.checkSoundStart_shows h.machine.soundTimer).andThen fun l same'' => ?_
  exact same'' ▸ l.presentDrawn_shows

theorem tick_shows : h.tick.Shows (h.outline.onMachine h.machine.tick)
    ((h.outline.onMachine h.machine.tick).soundEnd h.machine.soundTimer) none :=
  checkSoundEnd_shows { h with machine := h.machine.tick } h.machine.soundTimer

theorem attempt_answers {m : Except Error Machine} {f : Host → Reaction} {granted : Machine → Outline}
    (next : ∀ m, (f { h with machine := m }).Shows (granted m) [] none) :
    (h.attempt m f).Answers h.outline [] (m.map granted) := by
  cases m with
  | ok m => exact next m
  | error e => exact h.refuse_shows e

theorem load_answers (p : Program) (source : Option String) : (h.load p source).Answers h.outline []
    ((h.machine.load p).map fun m => { h.outline with machine := m, program := some p }) :=
  h.attempt_answers fun m => log_shows { h with machine := m, program := some p } _

theorem load_machine {p : Program} (fits : p.length ≤ programCapacity) (source : Option String) :
    (h.load p source).host.machine = h.machine.loaded p := by
  have answers := h.load_answers p source
  rw [Machine.load_eq_ok _ fits] at answers
  exact congrArg (fun o => o.machine) answers.outline

theorem setKeys_answers (keys : Switches) :
    (h.setKeys keys).Answers h.outline [] ((h.machine.setKeys keys).map h.outline.onMachine) :=
  h.attempt_answers fun _ => ⟨rfl, rfl, rfl⟩

theorem setKey_answers (key : Int) (down : Bool) :
    (h.setKey key down).Answers h.outline [] ((h.machine.setKey key down).map h.outline.onMachine) :=
  h.attempt_answers fun _ => ⟨rfl, rfl, rfl⟩

theorem reset_answers : h.reset.Answers h.outline []
    (((Machine.initial h.key h.strict).reset h.program).map fun m =>
      { h.outline with machine := m, firstStep := true }) :=
  h.attempt_answers fun m => log_shows { h with machine := m, firstStep := true } _

end Host
end Chip8
