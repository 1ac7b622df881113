import Chip8.Proofs.Sounds

/-! How long a sound lasts. A tick takes one off the sound timer, and as long as no step sets it, nothing else
touches it: a sound lasts as many ticks as the timer showed, however many steps, faults and waits for a key lie
between them. -/

namespace Chip8

def Call.isTick : Call → Bool
  | .tick => true
  | _ => false

theorem Call.isTick_of_ne {c : Call} (noTick : c ≠ .tick) : c.isTick = false := by
  cases c with
  | tick => exact absurd rfl noTick
  | _ => rfl

namespace Machine

variable {m : Machine}

theorem tick_soundTimer (m : Machine) : m.tick.soundTimer.toNat = m.soundTimer.toNat - 1 := by
  show (if m.soundTimer = 0 then 0 else m.soundTimer - 1).toNat = _
  by_cases zero : m.soundTimer = 0
  · rw [if_pos zero, zero]
    rfl
  · have left : 1 ≤ m.soundTimer := UInt8.pos_iff_ne_zero.mpr zero
    rw [if_neg zero, UInt8.toNat_sub_of_le _ _ left]
    rfl

def SetsNoSound (m : Machine) : Prop :=
  ∀ x, m.executed? ≠ some (.setSound x)

theorem SetsNoSound.step_soundTimer (h : m.SetsNoSound) : m.step.soundTimer = m.soundTimer := by
  rw [Machine.step_soundTimer]
  cases executed : m.executed? with
  | none => rfl
  | some i =>
    cases i with
    | setSound x => exact absurd executed (h x)
    | _ => rfl

end Machine

namespace Host

variable {h : Host} {calls : List Call} {c : Call}

def Unset (trail : List Host) : Prop :=
  ∀ g ∈ trail, g.machine.SetsNoSound

theorem Unset.append_iff {first second : List Host} :
    Unset (first ++ second) ↔ Unset first ∧ Unset second :=
  List.forall_mem_append

theorem step_leaves_sound (unset : h.machine.SetsNoSound) :
    h.step.host.machine.soundTimer = h.machine.soundTimer ∧ soundChanges h.step.events = [] :=
  ⟨h.step_soundTimer.trans unset.step_soundTimer, soundChanges_step_of_same unset.step_soundTimer⟩

theorem run_leaves_sound {n : Nat} (unset : Unset (h.runTrail n)) :
    (h.run n).host.machine.soundTimer = h.machine.soundTimer ∧ soundChanges (h.run n).events = [] := by
  revert unset
  refine run_induction (motive := fun h n r => Unset (h.runTrail n) →
    r.host.machine.soundTimer = h.machine.soundTimer ∧ soundChanges r.events = []) ?none ?failed ?stepped h n
  case none => exact fun h _ => ⟨rfl, rfl⟩
  case failed =>
    intro h n fault unset
    rw [runTrail_succ_of_fault fault] at unset
    exact step_leaves_sound (unset h List.mem_cons_self)
  case stepped =>
    intro h n faultless rest unset
    rw [runTrail_succ_of_no_fault faultless] at unset
    obtain ⟨timer, quiet⟩ := step_leaves_sound (unset h List.mem_cons_self)
    obtain ⟨timer', quiet'⟩ := rest fun g member => unset g (List.mem_cons_of_mem h member)
    exact ⟨timer'.trans timer, by rw [soundChanges_append, quiet, quiet', List.append_nil]⟩

/-- Only a tick has to do with a sound that is under way. -/
theorem call_leaves_sound (noReset : c.isReset = false) (noTick : c ≠ .tick) (unset : Unset (h.callTrail c)) :
    (h.call c).host.machine.soundTimer = h.machine.soundTimer ∧ soundChanges (h.call c).events = [] := by
  cases c using Call.stepCases with
  | step => exact step_leaves_sound (unset h List.mem_cons_self)
  | run n => exact run_leaves_sound unset
  | other c noStep =>
    rw [← soundChanges_audible]
    refine call_cases (motive := fun o events => o.machine.soundTimer = h.machine.soundTimer ∧
      soundChanges events = []) h noStep ?refused ?ticked ?taken ?keyed ?loaded ?restarted ?reloaded
    case refused => exact fun _ _ => ⟨rfl, rfl⟩
    case ticked => exact fun tick => absurd tick noTick
    case taken => exact fun _ => ⟨rfl, rfl⟩
    case keyed => exact fun _ _ => ⟨rfl, rfl⟩
    case loaded => exact fun p _ _ => ⟨Machine.loaded_soundTimer _ p, rfl⟩
    case restarted => rintro rfl; cases noReset
    case reloaded => rintro p rfl; cases noReset

theorem tick_machine (h : Host) : h.tick.host.machine = h.machine.tick :=
  congrArg (fun o => o.machine) h.tick_shows.outline

/-- The tick that a timer at one is given is the last. -/
theorem soundChanges_tick (h : Host) : soundChanges h.tick.events =
    if h.listeners.endSound = true ∧ h.machine.soundTimer.toNat = 1 then [false] else [] := by
  have last : h.machine.soundTimer ≠ 0 ∧ h.machine.tick.soundTimer = 0 ↔ h.machine.soundTimer.toNat = 1 := by
    rw [Ne, ← UInt8.toNat_inj, ← UInt8.toNat_inj, Machine.tick_soundTimer, UInt8.toNat_zero]
    omega
  rw [← soundChanges_audible, h.tick_shows.audible]
  cases listens : h.listeners.endSound with
  | false => exact (h.outline.onMachine h.machine.tick).soundChanges_soundEnd_of_deaf _ listens
  | true =>
    refine ((h.outline.onMachine h.machine.tick).soundChanges_soundEnd _ listens).trans (if_congr ?_ rfl rfl)
    exact last.trans (and_iff_right rfl).symm

theorem call_soundTimer (noReset : c.isReset = false) (unset : Unset (h.callTrail c)) :
    (h.call c).host.machine.soundTimer.toNat = h.machine.soundTimer.toNat - c.isTick.toNat := by
  by_cases tick : c = .tick
  · subst tick
    show h.tick.host.machine.soundTimer.toNat = _
    rw [tick_machine, Machine.tick_soundTimer]
    rfl
  · rw [(call_leaves_sound noReset tick unset).1, Call.isTick_of_ne tick]
    rfl

theorem soundChanges_call (noReset : c.isReset = false) (unset : Unset (h.callTrail c)) :
    soundChanges (h.call c).events =
      if h.listeners.endSound = true ∧ c.isTick = true ∧ h.machine.soundTimer.toNat = 1 then [false]
      else [] := by
  by_cases tick : c = .tick
  · subst tick
    refine h.soundChanges_tick.trans (if_congr (and_congr_right fun _ => ?_) rfl rfl)
    exact (and_iff_right rfl).symm
  · have other : c.isTick = false := Call.isTick_of_ne tick
    rw [(call_leaves_sound noReset tick unset).2, other, if_neg fun all => Bool.false_ne_true all.2.1]

theorem after_soundTimer (noReset : ∀ c ∈ calls, c.isReset = false) (unset : Unset (h.trail calls)) :
    (h.after calls).machine.soundTimer.toNat = h.machine.soundTimer.toNat - calls.countP Call.isTick := by
  induction calls generalizing h with
  | nil => rfl
  | cons c calls ih =>
    obtain ⟨noReset, noResets⟩ := List.forall_mem_cons.mp noReset
    obtain ⟨now, rest⟩ := Unset.append_iff.mp unset
    show ((h.call c).host.after calls).machine.soundTimer.toNat = _
    rw [ih noResets rest, call_soundTimer noReset now, Nat.sub_sub, List.countP_cons, Nat.add_comm]
    cases c.isTick <;> rfl

/-- The end of a sound is told once if there are ticks enough, and no start is told. -/
theorem soundChanges_heard (noReset : ∀ c ∈ calls, c.isReset = false) (unset : Unset (h.trail calls)) :
    soundChanges (h.heard calls) =
      if h.listeners.endSound = true ∧ h.machine.soundTimer.toNat ≠ 0 ∧
        h.machine.soundTimer.toNat ≤ calls.countP Call.isTick then [false] else [] := by
  induction calls generalizing h with
  | nil => exact (if_neg fun all => all.2.1 (Nat.le_zero.mp all.2.2)).symm
  | cons c calls ih =>
    obtain ⟨noReset, noResets⟩ := List.forall_mem_cons.mp noReset
    obtain ⟨now, rest⟩ := Unset.append_iff.mp unset
    show soundChanges ((h.call c).events ++ (h.call c).host.heard calls) = _
    rw [soundChanges_append, soundChanges_call noReset now, ih noResets rest, call_listeners,
      call_soundTimer noReset now, List.countP_cons]
    cases c.isTick with
    | false => simp
    | true =>
      by_cases listens : h.listeners.endSound = true
      · -- The end is told during this tick, or later, or not at all.
        simp only [listens, true_and, if_true, Bool.toNat_true]
        split_ifs <;> first | rfl | omega
      · simp [listens]

/-- A sound that is under way lasts as many ticks as the sound timer shows, as long as there is no reset and no
step sets the timer. Each tick takes one off, no start is told, and the end is told once, during the last of
these ticks, or not at all if there are fewer. -/
theorem sound_lasts_its_ticks (h : Host) (calls : List Call) (noReset : ∀ c ∈ calls, c.isReset = false)
    (sounding : 1 ≤ h.machine.soundTimer.toNat)
    (unset : ∀ g ∈ h.trail calls, ∀ x, g.machine.executed? ≠ some (.setSound x)) :
    let length := h.machine.soundTimer.toNat
    (∀ before later, calls = before ++ later →
      (h.after before).machine.soundTimer.toNat = length - before.countP Call.isTick) ∧
    (soundChanges (h.heard calls) =
      if h.listeners.endSound = true ∧ length ≤ calls.countP Call.isTick then [false] else []) ∧
    ∀ before c later, calls = before ++ c :: later →
      soundChanges ((h.after before).call c).events =
        if h.listeners.endSound = true ∧ c.isTick = true ∧ before.countP Call.isTick + 1 = length then [false]
        else [] := by
  intro length
  have timer (before later : List Call) (made : calls = before ++ later) :
      (h.after before).machine.soundTimer.toNat = length - before.countP Call.isTick := by
    subst made
    obtain ⟨noResets, -⟩ := List.forall_mem_append.mp noReset
    rw [trail_append] at unset
    exact after_soundTimer noResets (Unset.append_iff.mp unset).1
  refine ⟨timer, ?told, fun before c later made => ?during⟩
  case told =>
    refine (soundChanges_heard noReset unset).trans (if_congr (and_congr_right fun _ => ?_) rfl rfl)
    exact and_iff_right (Nat.ne_of_gt sounding)
  case during =>
    have left := timer before (c :: later) made
    have listeners : (h.after before).listeners = h.listeners :=
      congrArg (fun s => s.listeners) (h.after_setup before)
    subst made
    obtain ⟨noReset, -⟩ := List.forall_mem_cons.mp (List.forall_mem_append.mp noReset).2
    rw [trail_append] at unset
    obtain ⟨now, -⟩ := Unset.append_iff.mp (Unset.append_iff.mp unset).2
    rw [soundChanges_call noReset now, listeners, left]
    refine if_congr (and_congr_right fun _ => and_congr_right fun _ => ?_) rfl rfl
    omega

def humming : Host :=
  let h := powerOn ⟨0, 0⟩ true { draw := true, startSound := true, endSound := true }
    (.ofOptions defaultLogger false { reading := fun _ => 0 }) { reading := fun _ => 0 }
  { h with machine := { h.machine with soundTimer := 2 } }

theorem humming_ends_with_second_tick :
    let before : List Call := [.load hushEntries none, .tick, .step, .press 3]
    let calls := before ++ [.tick, .tick]
    (∀ c ∈ calls, c.isReset = false) ∧ 1 ≤ humming.machine.soundTimer.toNat ∧
      (∀ g ∈ humming.trail calls, ∀ x, g.machine.executed? ≠ some (.setSound x)) ∧
      (humming.after before).machine.soundTimer.toNat = 1 ∧
      (humming.after calls).machine.soundTimer.toNat = 0 ∧
      soundChanges (humming.heard calls) = [false] ∧
      soundChanges ((humming.after before).call .tick).events = [false] := by
  intro before calls
  let g := ((humming.call (.load hushEntries none)).host.call .tick).host
  have machine : g.machine = (humming.machine.loaded hushProgram).tick := by
    have loaded : (humming.loadEntries hushEntries none).host.machine = humming.machine.loaded hushProgram := by
      rw [loadEntries, ofInts_hushEntries]
      exact humming.load_machine (by decide) none
    show ((humming.loadEntries hushEntries none).host.tick).host.machine = _
    rw [tick_machine, loaded]
  have stands : Machine.StandsOn humming.machine hushProgram 0 g.machine := by
    rw [machine]
    exact ⟨rfl, rfl, rfl, rfl⟩
  have loads : g.machine.executed? = some (.ldByte 0 5) :=
    stands.executes (w := 0x6005) (by decide) (by decide) (by decide) rfl rfl
  have noReset : ∀ c ∈ calls, c.isReset = false := by simp [calls, before, Call.isReset]
  have unset : ∀ k ∈ humming.trail calls, ∀ x, k.machine.executed? ≠ some (.setSound x) := by
    have trail : humming.trail calls = [g] := rfl
    intro k member x
    rw [trail, List.mem_singleton] at member
    rw [member, loads]
    intro impossible
    cases impossible
  obtain ⟨timer, told, during⟩ := sound_lasts_its_ticks humming calls noReset (by decide) unset
  exact ⟨noReset, by decide, unset, timer before [.tick, .tick] rfl,
    timer calls [] (List.append_nil calls).symm, told, during before .tick [.tick] rfl⟩

end Host
end Chip8
