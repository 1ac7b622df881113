import Chip8.Proofs.History
import Chip8.Proofs.ProgramImage

/-! No picture gets lost between a machine and those who look at it. A draw listener is shown the display
at the first step and after each change; without one the draw flag tells when there is something to take. -/

namespace Chip8

def presented (events : List Event) : List Display :=
  events.filterMap fun
    | .draw frame => some frame
    | _ => none

@[simp] theorem presented_nil : presented [] = [] := rfl

@[simp] theorem presented_append (first second : List Event) :
    presented (first ++ second) = presented first ++ presented second :=
  List.filterMap_append

theorem presented_audible (events : List Event) : presented (audible events) = presented events :=
  filterMap_audible (fun _ => rfl) events

namespace Outline

variable (o : Outline) (before : UInt8)

@[simp] theorem presented_soundStart : presented (o.soundStart before) = [] := by
  unfold soundStart
  split
  · split <;> rfl
  · rfl

@[simp] theorem presented_soundEnd : presented (o.soundEnd before) = [] := by
  unfold soundEnd
  split
  · split <;> rfl
  · rfl

theorem presented_firstFrame (listens : o.listeners.draw = true) :
    presented o.firstFrame = if o.firstStep then [o.machine.display] else [] := by
  rw [firstFrame, listens]
  cases o.firstStep <;> rfl

theorem presented_drawnFrame (listens : o.listeners.draw = true) :
    presented o.drawnFrame = if o.machine.drawFlag then [o.machine.display] else [] := by
  rw [drawnFrame, listens]
  cases o.machine.drawFlag <;> rfl

end Outline

namespace Host

section Epochs

variable {h : Host}

theorem step_firstStep (h : Host) : h.step.host.firstStep = false :=
  h.step_outline_cases (motive := fun o => o.firstStep = false) rfl rfl

theorem run_firstStep (h : Host) (n : Nat) :
    (h.run n).host.firstStep = (h.firstStep && !decide (0 < n)) := by
  refine run_induction ?none ?failed ?stepped h n
  case none => exact fun h => (Bool.and_true h.firstStep).symm
  case failed =>
    intro h n _
    rw [step_firstStep]
    exact (Bool.and_false h.firstStep).symm
  case stepped =>
    intro h n _ rest
    rw [step_firstStep, Bool.false_and] at rest
    exact rest.trans (Bool.and_false h.firstStep).symm

theorem call_firstStep (fits : h.session.Fits) (c : Call) :
    (h.call c).host.firstStep = (c.isReset || h.firstStep && !c.steps) := by
  cases c using Call.stepCases with
  | step => exact h.step_firstStep.trans (Bool.and_false h.firstStep).symm
  | run n => exact h.run_firstStep n
  | other c noStep =>
    rw [noStep, Bool.not_false, Bool.and_true]
    refine call_cases (motive := fun o _ => o.firstStep = (c.isReset || h.firstStep)) h noStep ?refused
      ?ticked ?taken ?keyed ?loaded ?restarted ?reloaded
    case refused => intro e result; rw [fits.isReset_of_error result]; rfl
    case ticked | taken => rintro rfl; rfl
    case keyed => intro _ noReset; rw [noReset]; rfl
    case loaded => intro p loads _; rw [Call.isReset_of_loads? loads]; rfl
    case restarted => rintro rfl; rfl
    case reloaded => rintro _ rfl; rfl

theorem countP_firstStep_runTrail (h : Host) (n : Nat) :
    (h.runTrail n).countP Host.firstStep = if h.firstStep && decide (0 < n) then 1 else 0 := by
  induction n generalizing h with
  | zero => cases h.firstStep <;> rfl
  | succ n ih =>
    rw [decide_eq_true n.succ_pos, Bool.and_true]
    by_cases faultless : h.machine.step.error = 0
    · rw [runTrail_succ_of_no_fault faultless, List.countP_cons, ih, step_firstStep]
      exact Nat.zero_add _
    · rw [runTrail_succ_of_fault faultless, List.countP_singleton]

theorem countP_firstStep_callTrail (h : Host) (c : Call) :
    (h.callTrail c).countP Host.firstStep = if h.firstStep && c.steps then 1 else 0 := by
  cases c using Call.stepCases with
  | step => exact List.countP_singleton.trans (congrArg (if · then 1 else 0) (Bool.and_true _).symm)
  | run n => exact h.countP_firstStep_runTrail n
  | other c noStep => rw [callTrail_of_no_step noStep, noStep, Bool.and_false]; rfl

/-- How many epochs see a first step, given whether the first of them has not seen one yet. -/
def openings (fresh : Bool) : List (List Call) → Nat
  | [] => 0
  | first :: rest => (if fresh && first.any Call.steps then 1 else 0) + rest.countP (·.any Call.steps)

theorem openings_true (epochs : List (List Call)) :
    openings true epochs = epochs.countP (·.any Call.steps) := by
  cases epochs with
  | nil => rfl
  | cons first rest => rw [openings, List.countP_cons, Nat.add_comm, Bool.true_and]

theorem countP_firstStep_trail (fits : h.session.Fits) (calls : List Call) :
    (h.trail calls).countP Host.firstStep = openings h.firstStep (calls.splitOnP Call.isReset) := by
  -- Over any host, since the first epoch may have had its first step before these calls.
  induction calls generalizing h with
  | nil => cases h.firstStep <;> rfl
  | cons c calls ih =>
    rw [trail, List.countP_append, countP_firstStep_callTrail, ih (call_fits fits c), call_firstStep fits,
      List.splitOnP_cons_eq_if_modifyHead]
    cases reset : c.isReset with
    | true =>
      have noStep : c.steps = false := by cases c <;> first | rfl | cases reset
      rw [noStep, Bool.true_or, openings_true, if_pos rfl, openings]
      simp
    | false =>
      rw [if_neg Bool.false_ne_true]
      cases split : calls.splitOnP Call.isReset with
      | nil => exact absurd split (List.splitOnP_ne_nil _ _)
      | cons first rest =>
        -- The call joins the first epoch, so at most one of the two opens it.
        rw [List.modifyHead_cons, openings, openings, List.any_cons, ← Nat.add_assoc]
        cases h.firstStep <;> cases c.steps <;> cases first.any Call.steps <;> rfl

/-- A step since the last reset is not undone by anything but a reset. -/
theorem after_firstStep (fits : h.session.Fits) {calls : List Call}
    (noReset : ∀ c ∈ calls, c.isReset = false)
    (stepped : h.firstStep = false ∨ ∃ c ∈ calls, c.steps = true) : (h.after calls).firstStep = false := by
  induction calls generalizing h with
  | nil => exact stepped.resolve_right fun ⟨_, member, _⟩ => nomatch member
  | cons c calls ih =>
    refine ih (call_fits fits c) (fun d member => noReset d (List.mem_cons_of_mem c member)) ?_
    rw [call_firstStep fits, noReset c List.mem_cons_self]
    obtain done | ⟨d, member, steps⟩ := stepped
    · exact .inl (by rw [done]; rfl)
    · obtain rfl | later := List.mem_cons.mp member
      · exact .inl (by rw [steps]; exact Bool.and_false _)
      · exact .inr ⟨d, later, steps⟩

end Epochs

section Push

variable {h : Host}

/-- What a step shows: the display as it was, if the step is the first, and the display that it leaves, if
it draws. -/
theorem presented_step (listens : h.listeners.draw = true) (lowered : h.machine.drawFlag = false) :
    presented h.step.events = (if h.firstStep then [h.machine.display] else []) ++
      if h.machine.draws then [h.machine.step.display] else [] := by
  have raised : h.machine.step.drawFlag = h.machine.draws := by
    rw [Machine.step_drawFlag, lowered, Bool.or_false]
  have first : presented h.outline.firstFrame = if h.firstStep then [h.machine.display] else [] :=
    h.outline.presented_firstFrame listens
  have drawn : presented h.outline.stepped.drawnFrame =
      if h.machine.step.drawFlag then [h.machine.step.display] else [] :=
    h.outline.stepped.presented_drawnFrame listens
  rw [← presented_audible]
  by_cases faultless : h.machine.step.error = 0
  · rw [(h.step_shows_of_no_fault faultless).audible]
    simp [first, drawn, raised]
  · rw [(h.step_shows_of_fault faultless).audible, Machine.draws_of_fault faultless, first]
    exact (List.append_nil _).symm

theorem step_drawFlag (listens : h.listeners.draw = true) (lowered : h.machine.drawFlag = false) :
    h.step.host.machine.drawFlag = false := by
  by_cases faultless : h.machine.step.error = 0
  · have outline := (h.step_shows_of_no_fault faultless).outline
    have shown : h.outline.stepped.shown = h.outline.stepped.onMachine h.machine.step.lowerDrawFlag := by
      rw [Outline.shown, show h.outline.stepped.listeners.draw = true from listens, if_pos rfl]
      rfl
    exact congrArg (fun o => o.machine.drawFlag) (outline.trans shown)
  · have outline := (h.step_shows_of_fault faultless).outline
    have still : h.machine.step.drawFlag = false := by
      rw [Machine.step_drawFlag, Machine.draws_of_fault faultless, lowered]
      rfl
    exact (congrArg (fun o => o.machine.drawFlag) outline).trans still

theorem step_display (h : Host) : h.step.host.machine.display = h.machine.step.display :=
  show h.step.host.machine.lowerDrawFlag.display = h.machine.step.lowerDrawFlag.display by
    rw [step_machine]

/-- What holds of a host with a draw listener, of the frames that the listener was shown, and of the steps
that were made. -/
structure Pushes (o : Outline) (shown : List Display) (trail : List Host) : Prop where
  listens : o.listeners.draw = true
  lowered : o.machine.drawFlag = false
  last : o.firstStep = false → shown.getLast? = some o.machine.display
  count : shown.length = trail.countP Host.firstStep + trail.countP (·.machine.draws)

theorem Pushes.step {shown : List Display} {trail : List Host} (now : Pushes h.outline shown trail) :
    Pushes h.step.host.outline (shown ++ presented h.step.events) (trail ++ [h]) where
  listens := (congrArg Listeners.draw h.step_listeners).trans now.listens
  lowered := step_drawFlag now.listens now.lowered
  last := by
    intro _
    show _ = some h.step.host.machine.display
    rw [presented_step now.listens now.lowered, step_display]
    -- A step that draws shows its own display. Any other leaves the display that was shown before.
    cases draws : h.machine.draws with
    | true => simp
    | false =>
      rw [Machine.step_display draws]
      cases first : h.firstStep with
      | true => simp
      | false =>
        have last : shown.getLast? = some h.machine.display := now.last first
        simpa using last
  count := by
    rw [presented_step now.listens now.lowered, List.length_append, now.count, List.countP_append,
      List.countP_append, List.countP_singleton, List.countP_singleton]
    cases h.firstStep <;> cases h.machine.draws <;> simp <;> omega

theorem Pushes.keep {o : Outline} {shown : List Display} {trail : List Host} (now : Pushes o shown trail)
    (m : Machine) (program : Option Program) (lowered : m.drawFlag = false)
    (display : m.display = o.machine.display) :
    Pushes { o with machine := m, program := program } shown trail :=
  { now with lowered, last := fun seen => (now.last seen).trans (congrArg some display.symm) }

theorem Pushes.restart {o : Outline} {shown : List Display} {trail : List Host} (now : Pushes o shown trail)
    (m : Machine) (lowered : m.drawFlag = false) :
    Pushes { o with machine := m, firstStep := true } shown trail :=
  { now with lowered, last := fun seen => absurd seen.symm Bool.false_ne_true }

/-- Between the steps only a reset changes the display, and the first step after it shows the new one. -/
theorem Pushes.other {shown : List Display} {trail : List Host} (now : Pushes h.outline shown trail)
    {c : Call} (noStep : c.steps = false) :
    Pushes (h.call c).host.outline (shown ++ presented (h.call c).events) trail := by
  rw [← presented_audible]
  refine call_cases (motive := fun o events => Pushes o (shown ++ presented events) trail) h noStep
    ?refused ?ticked ?taken ?keyed ?loaded ?restarted ?reloaded
  all_goals simp only [presented_nil, Outline.presented_soundEnd, List.append_nil]
  case refused => exact fun _ _ => now
  case ticked => exact fun _ => now.keep h.machine.tick h.program now.lowered rfl
  case taken => exact fun _ => now.keep h.machine.lowerDrawFlag h.program rfl rfl
  case keyed => exact fun keypad _ => now.keep _ h.program now.lowered rfl
  case loaded =>
    intro p _ _
    exact now.keep _ (some p) ((Machine.loaded_drawFlag _ p).trans now.lowered) (Machine.loaded_display _ p)
  case restarted => exact fun _ => now.restart _ (Machine.initial_drawFlag h.key h.strict)
  case reloaded =>
    intro p _
    exact now.restart _ ((Machine.loaded_drawFlag _ p).trans (Machine.initial_drawFlag h.key h.strict))

theorem Pushes.after (now : Pushes h.outline [] []) (calls : List Call) :
    Pushes (h.after calls).outline (presented (h.heard calls)) (h.trail calls) := by
  refine history_induction (motive := fun g events trail => Pushes g.outline (presented events) trail) now
    ?step ?other
  case step => exact fun g events trail now => presented_append events g.step.events ▸ now.step
  case other =>
    exact fun g events trail c _ noStep now => presented_append events (g.call c).events ▸ now.other noStep

end Push

section Pull

/-- The frame that was taken last, given the one before a call. A reset forgets it. -/
def takenBy (h : Host) (taken : Option Display) : Call → Option Display
  | .consume => some h.consume.1
  | .reset => none
  | _ => taken

def lastTaken (h : Host) (taken : Option Display) : List Call → Option Display
  | [] => taken
  | c :: calls => (h.call c).host.lastTaken (h.takenBy taken c) calls

/-- A display that differs from the frame that was taken last is flagged. -/
def UpToDate (h : Host) (taken : Option Display) : Prop :=
  h.machine.drawFlag = false → h.machine.display = taken.getD Bitmap.blank

variable {h : Host}

theorem UpToDate.step {taken : Option Display} (now : h.UpToDate taken) (deaf : h.listeners.draw = false) :
    h.step.host.UpToDate taken := by
  unfold UpToDate
  rw [step_machine_of_deaf deaf, Machine.step_drawFlag]
  intro lowered
  obtain ⟨still, lowered⟩ := Bool.or_eq_false_iff.mp lowered
  exact (Machine.step_display still).trans (now lowered)

theorem UpToDate.run {taken : Option Display} (now : h.UpToDate taken) (deaf : h.listeners.draw = false)
    (n : Nat) : (h.run n).host.UpToDate taken := by
  revert now deaf
  refine run_induction (motive := fun h _ r => h.UpToDate taken → h.listeners.draw = false →
    r.host.UpToDate taken) ?none ?failed ?stepped h n
  case none => exact fun h now _ => now
  case failed => exact fun h n _ now deaf => now.step deaf
  case stepped =>
    intro h n _ rest now deaf
    exact rest (now.step deaf) (h.step_listeners ▸ deaf)

theorem UpToDate.other {taken : Option Display} (now : h.UpToDate taken) (fits : h.session.Fits) {c : Call}
    (noStep : c.steps = false) : (h.call c).host.UpToDate (h.takenBy taken c) := by
  by_cases consumed : c = .consume
  · subst consumed
    exact fun _ => rfl
  have kept (noReset : c.isReset = false) : h.takenBy taken c = taken := by
    cases c <;> first | rfl | exact absurd rfl consumed | cases noReset
  refine call_cases (motive := fun o _ => o.machine.drawFlag = false →
    o.machine.display = (h.takenBy taken c).getD Bitmap.blank) h noStep ?refused ?ticked ?taken ?keyed
    ?loaded ?restarted ?reloaded
  case refused =>
    intro e result
    rw [kept (fits.isReset_of_error result)]
    exact now
  case ticked => rintro rfl; exact now
  case taken => exact fun consume => absurd consume consumed
  case keyed =>
    intro keypad noReset
    rw [kept noReset]
    exact now
  case loaded =>
    intro p loads _ lowered
    rw [kept (Call.isReset_of_loads? loads), Machine.loaded_display]
    exact now ((Machine.loaded_drawFlag _ p).symm.trans lowered)
  case restarted => rintro rfl _; exact Machine.initial_display h.key h.strict
  case reloaded => rintro p rfl _; exact Machine.loaded_display _ p

theorem UpToDate.call {taken : Option Display} (now : h.UpToDate taken) (fits : h.session.Fits)
    (deaf : h.listeners.draw = false) (c : Call) : (h.call c).host.UpToDate (h.takenBy taken c) := by
  cases c using Call.stepCases with
  | step => exact now.step deaf
  | run n => exact now.run deaf n
  | other c noStep => exact now.other fits noStep

theorem UpToDate.after {taken : Option Display} (now : h.UpToDate taken) (fits : h.session.Fits)
    (deaf : h.listeners.draw = false) (calls : List Call) :
    (h.after calls).UpToDate (h.lastTaken taken calls) := by
  induction calls generalizing h taken with
  | nil => exact now
  | cons c calls ih =>
    exact ih (now.call fits deaf c) (call_fits fits c) (h.call_listeners c ▸ deaf)

end Pull

/-- With a draw listener the flag is down between calls, the last frame is the display once a step was made
since power-on or the last reset, and there is one frame for each epoch with a step and one for each
cycle that draws. Without one, a display that is not flagged is the frame that was taken last, or blank
if none was taken since power-on or the last reset. -/
theorem no_frame_lost (key : Key) (strict startSound endSound : Bool) (logger : Logger)
    (clock : Clock Float) (calls : List Call) :
    (let h := powerOn key strict { draw := true, startSound, endSound } logger clock
      let shown := presented (h.heard calls)
      let m := (h.after calls).machine
      m.drawFlag = false ∧
      (∀ before since, calls = before ++ since → (∀ c ∈ since, c.isReset = false) →
        (∃ c ∈ since, c.steps = true) → shown.getLast? = some m.display) ∧
      shown.length = (calls.splitOnP Call.isReset).countP (·.any Call.steps) +
        (h.trail calls).countP (·.machine.draws)) ∧
    (let h := powerOn key strict { draw := false, startSound, endSound } logger clock
      let m := (h.after calls).machine
      m.drawFlag = false → m.display = (h.lastTaken none calls).getD Bitmap.blank) := by
  have fits (listeners : Listeners) : (powerOn key strict listeners logger clock).session.Fits :=
    Session.Fits.powerOn key strict
  refine ⟨?push, ?pull⟩
  case push =>
    intro h shown m
    have start : Pushes h.outline [] [] :=
      { listens := rfl, lowered := rfl, last := fun seen => absurd seen.symm Bool.false_ne_true, count := rfl }
    have now := start.after calls
    refine ⟨now.lowered, ?last, ?count⟩
    case last =>
      rintro before since split noReset stepped
      have later : (h.after calls).firstStep = false := by
        rw [split, after_append]
        exact after_firstStep (after_fits (fits _) before) noReset (.inr stepped)
      exact now.last later
    case count =>
      have epochs : (h.trail calls).countP Host.firstStep = openings true (calls.splitOnP Call.isReset) :=
        countP_firstStep_trail (fits _) calls
      rw [← openings_true, ← epochs]
      exact now.count
  case pull =>
    intro h m
    have start : h.UpToDate none := fun _ => rfl
    exact start.after (fits _) rfl calls

end Host
end Chip8
