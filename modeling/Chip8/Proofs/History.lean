import Chip8.Proofs.Simulation

/-! The history of a host: the steps that were made in several calls, and induction on them. -/

namespace Chip8.Host

def runTrail (h : Host) : Nat → List Host
  | 0 => []
  | n + 1 => h :: if h.step.error.isSome then [] else h.step.host.runTrail n

def callTrail (h : Host) : Call → List Host
  | .step => [h]
  | .run n => h.runTrail n
  | _ => []

def trail (h : Host) : List Call → List Host
  | [] => []
  | c :: calls => h.callTrail c ++ (h.call c).host.trail calls

variable {h : Host}

theorem runTrail_succ_of_fault (fault : h.machine.step.error ≠ 0) (n : Nat) :
    h.runTrail (n + 1) = [h] := by
  rw [runTrail, if_pos (step_isSome_of_fault fault)]

theorem runTrail_succ_of_no_fault (faultless : h.machine.step.error = 0) (n : Nat) :
    h.runTrail (n + 1) = h :: h.step.host.runTrail n := by
  rw [runTrail, step_isSome_of_no_fault faultless]
  rfl

theorem callTrail_of_no_step {c : Call} (noStep : c.steps = false) : h.callTrail c = [] := by
  cases c with
  | step => cases noStep
  | run n =>
    obtain rfl := Call.eq_zero_of_run noStep
    rfl
  | _ => rfl

theorem trail_cons_of_no_step {c : Call} (noStep : c.steps = false) (calls : List Call) :
    h.trail (c :: calls) = (h.call c).host.trail calls := by
  rw [trail, callTrail_of_no_step noStep, List.nil_append]

theorem trail_append (h : Host) (first second : List Call) :
    h.trail (first ++ second) = h.trail first ++ (h.after first).trail second := by
  induction first generalizing h with
  | nil => rfl
  | cons c first ih =>
    show h.callTrail c ++ (h.call c).host.trail (first ++ second) = _
    rw [ih, ← List.append_assoc]
    rfl

section Induction

variable {motive : Host → List Event → List Host → Prop}

theorem run_history
    (step : ∀ (g : Host) (events : List Event) (trail : List Host), motive g events trail →
      motive g.step.host (events ++ g.step.events) (trail ++ [g]))
    {events : List Event} {trail : List Host} (start : motive h events trail) (n : Nat) :
    motive (h.run n).host (events ++ (h.run n).events) (trail ++ h.runTrail n) := by
  induction n generalizing h events trail with
  | zero =>
    show motive h (events ++ []) (trail ++ [])
    simpa using start
  | succ n ih =>
    have first := step h events trail start
    by_cases faultless : h.machine.step.error = 0
    · rw [run_succ_of_no_fault faultless, runTrail_succ_of_no_fault faultless]
      simpa using ih first
    · rw [run_succ_of_fault faultless, runTrail_succ_of_fault faultless]
      exact first

/-- What holds at the start and is kept by a step and by every other call holds after any calls, of what
was heard and of the steps that were made. -/
@[elab_as_elim]
theorem history_induction {calls : List Call} (start : motive h [] [])
    (step : ∀ (g : Host) (events : List Event) (trail : List Host), motive g events trail →
      motive g.step.host (events ++ g.step.events) (trail ++ [g]))
    (other : ∀ (g : Host) (events : List Event) (trail : List Host), ∀ c ∈ calls, c.steps = false →
      motive g events trail → motive (g.call c).host (events ++ (g.call c).events) trail) :
    motive (h.after calls) (h.heard calls) (h.trail calls) := by
  suffices after : ∀ events trail, motive h events trail →
      motive (h.after calls) (events ++ h.heard calls) (trail ++ h.trail calls) from after [] [] start
  clear start
  intro events trail now
  induction calls generalizing h events trail with
  | nil => simpa [after, heard, Host.trail] using now
  | cons c calls ih =>
    have first : motive (h.call c).host (events ++ (h.call c).events) (trail ++ h.callTrail c) := by
      cases c using Call.stepCases with
      | step => exact step h events trail now
      | run n => exact run_history step now n
      | other c noStep =>
        rw [callTrail_of_no_step noStep, List.append_nil]
        exact other h events trail c List.mem_cons_self noStep now
    have rest := ih (fun g events trail d member => other g events trail d (List.mem_cons_of_mem c member))
      _ _ first
    simpa [after, heard, Host.trail] using rest

end Induction

end Chip8.Host
