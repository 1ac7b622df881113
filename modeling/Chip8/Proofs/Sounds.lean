import Chip8.Proofs.History
import Chip8.Proofs.ProgramImage
import Mathlib.Data.List.Chain

/-! What the sound listeners are told against what the sound timer does. A start is told when a step sets
the timer from zero and an end when a tick brings it to zero, but no listener is told when a step sets it
to zero. -/

namespace Chip8

/-- The sound changes that are told of, `true` for a start and `false` for an end. -/
def soundChanges (events : List Event) : List Bool :=
  events.filterMap fun
    | .startSound _ => some true
    | .endSound => some false
    | _ => none

@[simp] theorem soundChanges_nil : soundChanges [] = [] := rfl

@[simp] theorem soundChanges_append (first second : List Event) :
    soundChanges (first ++ second) = soundChanges first ++ soundChanges second :=
  List.filterMap_append

theorem soundChanges_audible (events : List Event) : soundChanges (audible events) = soundChanges events :=
  filterMap_audible (fun _ => rfl) events

namespace Outline

variable (o : Outline) (before : UInt8)

@[simp] theorem soundChanges_firstFrame : soundChanges o.firstFrame = [] := by
  unfold firstFrame
  split <;> rfl

@[simp] theorem soundChanges_drawnFrame : soundChanges o.drawnFrame = [] := by
  unfold drawnFrame
  split <;> rfl

theorem soundChanges_soundStart (listens : o.listeners.startSound = true) :
    soundChanges (o.soundStart before) =
      if before = 0 ∧ o.machine.soundTimer ≠ 0 then [true] else [] := by
  rw [soundStart, listens]
  simp only [Bool.and_eq_true, decide_eq_true_eq, UInt8.pos_iff_ne_zero]
  split <;> rfl

theorem soundStart_self : o.soundStart o.machine.soundTimer = [] := by
  refine if_neg fun both => ?_
  simp only [Bool.and_eq_true, decide_eq_true_eq, UInt8.pos_iff_ne_zero] at both
  exact both.2 both.1

theorem soundChanges_soundEnd_of_deaf (deaf : o.listeners.endSound = false) :
    soundChanges (o.soundEnd before) = [] := by
  rw [soundEnd, deaf]
  split <;> rfl

theorem soundChanges_soundEnd (listens : o.listeners.endSound = true) :
    soundChanges (o.soundEnd before) =
      if before ≠ 0 ∧ o.machine.soundTimer = 0 then [false] else [] := by
  rw [soundEnd, listens]
  simp only [Bool.and_eq_true, decide_eq_true_eq, UInt8.pos_iff_ne_zero]
  split <;> rfl

end Outline

def Alternates (changes : List Bool) : Prop :=
  (false :: changes).IsChain (· ≠ ·)

def sounding (changes : List Bool) : Bool :=
  changes.getLastD false

theorem Alternates.concat {changes : List Bool} (h : Alternates changes) {b : Bool}
    (turn : sounding changes ≠ b) : Alternates (changes ++ [b]) := by
  unfold Alternates
  rw [← List.cons_append]
  refine h.append (List.isChain_singleton b) fun x last y first => ?_
  have last : sounding changes = x := by
    simpa [sounding, List.getLast?_cons, List.getLastD_eq_getLast?] using last
  obtain rfl : b = y := by simpa using first
  exact last ▸ turn

/-- In turn after `b`, starts and ends balance with what was on before and what is on after. -/
theorem count_of_chain {b : Bool} {changes : List Bool} (h : (b :: changes).IsChain (· ≠ ·)) :
    changes.count true + b.toNat = changes.count false + (changes.getLastD b).toNat := by
  induction changes generalizing b with
  | nil => simp
  | cons c changes ih =>
    obtain ⟨turn, rest⟩ := List.isChain_cons_cons.mp h
    have balance := ih rest
    rw [List.getLastD_cons]
    cases b <;> cases c <;> simp at turn balance ⊢ <;> omega

theorem Alternates.count {changes : List Bool} (h : Alternates changes) :
    changes.count true = changes.count false + (sounding changes).toNat :=
  count_of_chain h

/-- The changes that were told of, how often a sound was silenced untold, and whether one is on. -/
structure Ledger (told : List Bool) (silenced : Nat) (on : Bool) : Prop where
  balance : told.count true = told.count false + silenced + on.toNat
  inTurn : silenced = 0 → Alternates told ∧ sounding told = on

namespace Ledger

variable {told : List Bool} {silenced : Nat}

theorem start (h : Ledger told silenced false) : Ledger (told ++ [true]) silenced true where
  balance := by simp [h.balance]
  inTurn := by
    intro none
    obtain ⟨turn, off⟩ := h.inTurn none
    exact ⟨turn.concat (by simp [off]), List.getLastD_concat⟩

theorem stop (h : Ledger told silenced true) : Ledger (told ++ [false]) silenced false where
  balance := by
    have balance := h.balance
    simp at balance ⊢
    omega
  inTurn := by
    intro none
    obtain ⟨turn, on⟩ := h.inTurn none
    exact ⟨turn.concat (by simp [on]), List.getLastD_concat⟩

theorem silence (h : Ledger told silenced true) : Ledger told (silenced + 1) false where
  balance := h.balance
  inTurn := nofun

/-- The changes alternate and agree with the timer just if no sound was silenced. -/
theorem inTurn_iff {on : Bool} (h : Ledger told silenced on) :
    Alternates told ∧ sounding told = on ↔ silenced = 0 := by
  refine ⟨fun ⟨turn, agree⟩ => ?_, h.inTurn⟩
  -- In turn, the starts exceed the ends by what is on, which leaves nothing for the silenced ones.
  have balance := h.balance
  have count := turn.count
  rw [agree] at count
  omega

end Ledger

namespace Host

/-- How many of the steps that were made set a running sound timer to zero. -/
def silenced (trail : List Host) : Nat :=
  trail.countP (·.machine.silences)

/-- What holds of a host with sound listeners, of the changes that they were told of, and of the steps that
were made. -/
structure Tells (o : Outline) (told : List Bool) (trail : List Host) : Prop where
  startSound : o.listeners.startSound = true
  endSound : o.listeners.endSound = true
  ledger : Ledger told (silenced trail) (o.machine.soundTimer != 0)

variable {h : Host} {told : List Bool} {trail : List Host}

theorem step_soundTimer (h : Host) : h.step.host.machine.soundTimer = h.machine.step.soundTimer :=
  show h.step.host.machine.lowerDrawFlag.soundTimer = h.machine.step.lowerDrawFlag.soundTimer by
    rw [step_machine]

theorem soundChanges_step_of_same (same : h.machine.step.soundTimer = h.machine.soundTimer) :
    soundChanges h.step.events = [] := by
  rw [← soundChanges_audible]
  by_cases faultless : h.machine.step.error = 0
  · have silent : h.outline.stepped.soundStart h.machine.soundTimer = [] :=
      same ▸ h.outline.stepped.soundStart_self
    rw [(h.step_shows_of_no_fault faultless).audible, silent, List.nil_append, soundChanges_append,
      Outline.soundChanges_firstFrame, Outline.soundChanges_drawnFrame, List.append_nil]
  · rw [(h.step_shows_of_fault faultless).audible, Outline.soundChanges_firstFrame]

theorem soundChanges_step (listens : h.listeners.startSound = true) :
    soundChanges h.step.events =
      if h.machine.soundTimer = 0 ∧ h.machine.step.soundTimer ≠ 0 then [true] else [] := by
  by_cases faultless : h.machine.step.error = 0
  · rw [← soundChanges_audible, (h.step_shows_of_no_fault faultless).audible, soundChanges_append,
      soundChanges_append, Outline.soundChanges_firstFrame, Outline.soundChanges_drawnFrame, List.nil_append,
      List.append_nil]
    exact h.outline.stepped.soundChanges_soundStart h.machine.soundTimer listens
  · have same : h.machine.step.soundTimer = h.machine.soundTimer := by
      rw [Machine.step_soundTimer, Machine.executed?_of_fault faultless]
    rw [soundChanges_step_of_same same, same, if_neg fun both => both.2 both.1]

theorem silenced_concat (trail : List Host) (h : Host) :
    silenced (trail ++ [h]) = silenced trail + h.machine.silences.toNat := by
  rw [silenced, silenced, List.countP_append, List.countP_singleton]
  cases h.machine.silences <;> rfl

theorem Tells.step (now : Tells h.outline told trail) :
    Tells h.step.host.outline (told ++ soundChanges h.step.events) (trail ++ [h]) where
  startSound := (congrArg Listeners.startSound h.step_listeners).trans now.startSound
  endSound := (congrArg Listeners.endSound h.step_listeners).trans now.endSound
  ledger := by
    have ledger : Ledger told (silenced trail) (h.machine.soundTimer != 0) := now.ledger
    have loud (kept : ¬(h.machine.soundTimer ≠ 0 ∧ h.machine.step.soundTimer = 0)) :
        h.machine.silences = false :=
      Bool.eq_false_iff.mpr fun silences => kept (Machine.silences_iff.mp silences)
    show Ledger _ _ (h.step.host.machine.soundTimer != 0)
    rw [step_soundTimer, soundChanges_step now.startSound, silenced_concat]
    -- Was the timer on before the step, and is it after?
    by_cases before : h.machine.soundTimer = 0
    · rw [loud fun both => both.1 before]
      rw [bne_eq_false_iff_eq.mpr before] at ledger
      by_cases after : h.machine.step.soundTimer = 0
      · rw [if_neg fun both => both.2 after, List.append_nil, bne_eq_false_iff_eq.mpr after]
        exact ledger
      · rw [if_pos ⟨before, after⟩, bne_iff_ne.mpr after]
        exact ledger.start
    · rw [bne_iff_ne.mpr before] at ledger
      rw [if_neg fun both => before both.1, List.append_nil]
      by_cases after : h.machine.step.soundTimer = 0
      · rw [bne_eq_false_iff_eq.mpr after, Machine.silences_iff.mpr ⟨before, after⟩]
        exact ledger.silence
      · rw [bne_iff_ne.mpr after, loud fun both => after both.2]
        exact ledger

theorem Tells.tick (now : Tells h.outline told trail) : Tells (h.outline.onMachine h.machine.tick)
    (told ++ soundChanges ((h.outline.onMachine h.machine.tick).soundEnd h.machine.soundTimer)) trail := by
  have changes : soundChanges ((h.outline.onMachine h.machine.tick).soundEnd h.machine.soundTimer) =
      if h.machine.soundTimer ≠ 0 ∧ h.machine.tick.soundTimer = 0 then [false] else [] :=
    (h.outline.onMachine h.machine.tick).soundChanges_soundEnd h.machine.soundTimer now.endSound
  rw [changes]
  have ledger : Ledger told (silenced trail) (h.machine.soundTimer != 0) := now.ledger
  refine { now with ledger := ?_ }
  show Ledger _ _ (h.machine.tick.soundTimer != 0)
  by_cases before : h.machine.soundTimer = 0
  · have after : h.machine.tick.soundTimer = 0 := if_pos before
    rw [bne_eq_false_iff_eq.mpr before] at ledger
    rw [if_neg fun both => both.1 before, List.append_nil, bne_eq_false_iff_eq.mpr after]
    exact ledger
  · rw [bne_iff_ne.mpr before] at ledger
    by_cases after : h.machine.tick.soundTimer = 0
    · rw [if_pos ⟨before, after⟩, bne_eq_false_iff_eq.mpr after]
      exact ledger.stop
    · rw [if_neg fun both => after both.2, List.append_nil, bne_iff_ne.mpr after]
      exact ledger

theorem Tells.keep {o : Outline} (now : Tells o told trail) (m : Machine) (program : Option Program)
    (timer : m.soundTimer = o.machine.soundTimer) :
    Tells { o with machine := m, program := program } told trail :=
  { now with ledger := timer ▸ now.ledger }

/-- Between the steps only a tick changes the sound timer, unless there is a reset. -/
theorem Tells.other (now : Tells h.outline told trail) {c : Call} (noStep : c.steps = false)
    (noReset : c.isReset = false) :
    Tells (h.call c).host.outline (told ++ soundChanges (h.call c).events) trail := by
  rw [← soundChanges_audible]
  refine call_cases (motive := fun o events => Tells o (told ++ soundChanges events) trail) h noStep
    ?refused ?ticked ?taken ?keyed ?loaded ?restarted ?reloaded
  case ticked => exact fun _ => now.tick
  all_goals simp only [soundChanges_nil, List.append_nil]
  case refused => exact fun _ _ => now
  case taken => exact fun _ => now.keep h.machine.lowerDrawFlag h.program rfl
  case keyed => exact fun keypad _ => now.keep _ h.program rfl
  case loaded => exact fun p _ _ => now.keep _ (some p) (Machine.loaded_soundTimer _ p)
  case restarted => rintro rfl; cases noReset
  case reloaded => rintro p rfl; cases noReset

/-- After any calls but resets, the sound changes that were told of alternate, a start first, and the last
is a start just if the sound timer runs, as long as no step has set a running sound timer to zero. After
such a step they do so no more. -/
theorem sound_changes_follow_timer_iff (key : Key) (strict draw : Bool) (logger : Logger)
    (clock : Clock Float) (calls : List Call) (noReset : ∀ c ∈ calls, c.isReset = false) :
    let h := powerOn key strict { draw, startSound := true, endSound := true } logger clock
    let told := soundChanges (h.heard calls)
    (Alternates told ∧ (sounding told = true ↔ (h.after calls).machine.soundTimer ≠ 0)) ↔
      ∀ g ∈ h.trail calls, g.machine.silences = false := by
  intro h told
  have start : Tells h.outline [] [] :=
    { startSound := rfl
      endSound := rfl
      ledger := { balance := rfl, inTurn := fun _ => ⟨List.isChain_singleton false, rfl⟩ } }
  have tells : Tells (h.after calls).outline told (h.trail calls) := by
    refine history_induction (motive := fun g events trail => Tells g.outline (soundChanges events) trail)
      start ?step ?other
    case step => exact fun g events trail now => soundChanges_append events g.step.events ▸ now.step
    case other =>
      intro g events trail c member noStep now
      exact soundChanges_append events (g.call c).events ▸ now.other noStep (noReset c member)
  have agree : (sounding told = true ↔ (h.after calls).machine.soundTimer ≠ 0) ↔
      sounding told = ((h.after calls).machine.soundTimer != 0) :=
    (Bool.eq_iff_iff.trans (iff_congr Iff.rfl bne_iff_ne)).symm
  rw [agree]
  refine tells.ledger.inTurn_iff.trans ?_
  simp [silenced, List.countP_eq_zero]

end Host

/-- A program that starts a sound and puts it out again. -/
def hushProgram : Program :=
  [0x60, 0x05, 0xF0, 0x18, 0xF1, 0x18]

theorem Machine.silences_of_hushProgram (m : Machine) (pc : m.pc = 0x200) (running : m.error = 0)
    (free : m.awaitingKey = false) (zero : m.reg 1 = 0) :
    (m.loaded hushProgram).step.step.silences = true := by
  have fits : hushProgram.length ≤ programCapacity := by decide
  have first : StandsOn m hushProgram 0 (m.loaded hushProgram) := .loaded pc running free
  generalize same : m.loaded hushProgram = m₁ at first ⊢
  have loads : m₁.executed? = some (.ldByte 0 5) :=
    first.executes (w := 0x6005) fits (by decide) (by decide) rfl rfl
  have second := first.step_onward (by decide) loads (perform_memory _ _) (perform_awaitingKey _ _)
    (by rw [perform_pc]; exact if_neg Bool.false_ne_true)
  have starts : m₁.step.executed? = some (.setSound 0) :=
    second.executes (w := 0xF018) fits (by decide) (by decide) rfl rfl
  have third := second.step_onward (by decide) starts (perform_memory _ _) (perform_awaitingKey _ _)
    (by rw [perform_pc]; exact if_neg Bool.false_ne_true)
  have ends : m₁.step.step.executed? = some (.setSound 1) :=
    third.executes (w := 0xF118) fits (by decide) (by decide) rfl rfl
  have performed : m₁.step = m₁.advance.perform (.ldByte 0 5) := step_of_executed loads
  have sounding : m₁.step.step.soundTimer = 5 := by
    rw [step_soundTimer, starts]
    show m₁.step.reg 0 = 5
    rw [performed, reg, perform_registers]
    exact Bank.get_set_self _ _ _
  have registers : m₁.step.step.registers = m₁.step.registers := by
    rw [step_of_executed starts, perform_registers]
    exact advance_registers m₁.step
  have off : m₁.step.step.reg 1 = 0 := by
    rw [reg, registers, performed, perform_registers]
    refine (Bank.get_set_of_ne _ _ (by decide)).trans ?_
    rw [advance_registers, ← same, loaded_registers]
    exact zero
  rw [silences, sounding, ends]
  show ((5 : UInt8) != 0 && m₁.step.step.reg 1 == 0) = true
  rw [off]
  rfl

def hushEntries : List Int :=
  [0x60, 0x05, 0xF0, 0x18, 0xF1, 0x18]

def hushCalls : List Call :=
  [.load hushEntries none, .step, .step, .step]

theorem ofInts_hushEntries : Program.ofInts hushEntries = .ok hushProgram := by
  simp [hushEntries, Program.ofInts, byte?]
  rfl

theorem Host.trail_hushCalls (key : Key) (strict startSound endSound : Bool) (logger : Logger)
    (clock : Clock Float) :
    ∃ g ∈ (powerOn key strict { draw := false, startSound, endSound } logger clock).trail hushCalls,
      g.machine.silences = true := by
  generalize start : powerOn key strict { draw := false, startSound, endSound } logger clock = h
  have deaf : h.listeners.draw = false := by rw [← start]; rfl
  have fresh : h.machine = Machine.initial key strict := by rw [← start]; rfl
  let g := (h.call (.load hushEntries none)).host
  have loaded : g.machine = h.machine.loaded hushProgram := by
    show (h.loadEntries hushEntries none).host.machine = h.machine.loaded hushProgram
    rw [loadEntries, ofInts_hushEntries]
    exact h.load_machine (by decide) none
  have deaf₁ : g.listeners.draw = false := by rw [h.call_listeners, deaf]
  have deaf₂ : g.step.host.listeners.draw = false := by rw [g.step_listeners, deaf₁]
  have third (g : Host) : g.step.host.step.host ∈ g.trail [.step, .step, .step] :=
    .tail _ (.tail _ (.head _))
  rw [hushCalls, trail_cons_of_no_step rfl]
  refine ⟨g.step.host.step.host, third g, ?_⟩
  rw [step_machine_of_deaf deaf₂, step_machine_of_deaf deaf₁, loaded, fresh]
  exact Machine.silences_of_hushProgram _ (Machine.initial_pc key strict) (Machine.initial_error key strict)
    (Machine.initial_awaitingKey key strict) (Bank.get_fill 0 1)

theorem Host.hushProgram_is_not_told :
    let h := powerOn ⟨0, 0⟩ true { draw := false, startSound := true, endSound := true }
      (.ofOptions defaultLogger false { reading := fun _ => 0 }) { reading := fun _ => 0 }
    let told := soundChanges (h.heard hushCalls)
    (∀ c ∈ hushCalls, c.isReset = false) ∧
      ¬(Alternates told ∧ (sounding told = true ↔ (h.after hushCalls).machine.soundTimer ≠ 0)) := by
  have noReset : ∀ c ∈ hushCalls, c.isReset = false := by simp [hushCalls, Call.isReset]
  refine ⟨noReset, fun follows => ?_⟩
  have quiet := (sound_changes_follow_timer_iff ⟨0, 0⟩ true false _ _ hushCalls noReset).mp follows
  obtain ⟨g, member, silences⟩ := trail_hushCalls ⟨0, 0⟩ true true true
    (.ofOptions defaultLogger false { reading := fun _ => 0 }) { reading := fun _ => 0 }
  rw [quiet g member] at silences
  cases silences

end Chip8
