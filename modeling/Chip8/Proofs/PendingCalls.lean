import Chip8.Proofs.Action
import Chip8.Proofs.CallStack
import Chip8.Proofs.ProgramImage
import Mathlib.Data.List.Infix

/-! The call stack of a run against the list of the calls that are pending in it. The list is kept by the
trace alone: by which calls and returns were executed, and where. -/

namespace Chip8.Machine

/-- The pending calls after an action. An executed call adds the address behind it, an executed return
takes the last one away, and a reset clears the list. -/
def pendingAfter (m : Machine) (calls : List UInt16) : Action → List UInt16
  | .step =>
    match m.executed? with
    | some (.call _) => calls ++ [following m.pc]
    | some .ret => calls.dropLast
    | _ => calls
  | .reset p =>
    match m.reset p with
    | .ok _ => []
    | .error _ => calls
  | _ => calls

def pending (m : Machine) (calls : List UInt16) : List Action → List UInt16
  | [] => calls
  | a :: actions => (m.act a).pending (m.pendingAfter calls a) actions

/-- The stack of a machine is that of the pending calls. -/
structure Tracks (m : Machine) (calls : List UInt16) : Prop where
  holds : m.stack.Holds calls
  few : calls.length ≤ 16

variable {m : Machine} {calls : List UInt16}

namespace Tracks

theorem executed_call (h : m.Tracks calls) {a : Fin 4096} (executed : m.executed? = some (.call a)) :
    m.step.Tracks (calls ++ [following m.pc]) := by
  obtain ⟨-, -, faultless, current⟩ := executed?_eq_some.mp executed
  rw [current] at faultless
  have stack : m.step.stack = m.stack.push (following m.pc).toNat := by
    rw [step_stack, executed]
  have room : ¬16 ≤ calls.length := by
    rw [← h.holds.isFull_iff]
    simp [fault?] at faultless
    simp [faultless.1]
  have pushed := h.holds.push (by omega) (following m.pc).toNat
  rw [CallStack.ofInt_address (following_le m.pc)] at pushed
  exact ⟨stack ▸ pushed, by simp; omega⟩

theorem executed_ret (h : m.Tracks calls) (executed : m.executed? = some .ret) :
    m.step.Tracks calls.dropLast := by
  have stack : m.step.stack = m.stack.pop := by
    rw [step_stack, executed]
  exact ⟨stack ▸ h.holds.pop, by have := h.few; simp; omega⟩

theorem getLast?_of_ret (h : m.Tracks calls) (executed : m.executed? = some .ret) :
    calls.getLast? = some m.step.pc := by
  obtain ⟨-, -, faultless, current⟩ := executed?_eq_some.mp executed
  rw [step_of_executed executed, perform_pc]
  rw [current] at faultless
  obtain rfl | ⟨callers, a, rfl⟩ := calls.eq_nil_or_concat
  · have empty := h.holds.isEmpty_iff.mpr rfl
    simp [fault?, empty] at faultless
  · rw [List.concat_eq_append] at h ⊢
    have few := h.few
    rw [List.getLast?_concat]
    exact congrArg some (h.holds.top (by simp at few; omega)).symm

theorem pointer_eq_iff {m' : Machine} {calls' : List UInt16} (h : m.Tracks calls) (h' : m'.Tracks calls') :
    m.stack.pointer = m'.stack.pointer ↔ calls.length = calls'.length := by
  rw [← Int32.toInt_inj, h.holds.1, h'.holds.1, Int.natCast_inj]

theorem faultless_call (h : m.Tracks calls) (room : calls.length < 16) {a : Fin 4096}
    (region : programStart ≤ a.val) : m.fault? (.call a) = none := by
  have free : m.stack.isFull = false := by
    rw [Bool.eq_false_iff, ne_eq, h.holds.isFull_iff]
    omega
  rw [fault?, free, decide_eq_false (Nat.not_lt.mpr region)]
  rfl

theorem faultless_ret (h : m.Tracks calls) (pending : calls ≠ []) : m.fault? .ret = none := by
  have nonempty : m.stack.isEmpty = false := by
    rw [Bool.eq_false_iff, ne_eq, h.holds.isEmpty_iff]
    exact pending
  rw [fault?, nonempty]
  rfl

theorem step (h : m.Tracks calls) : m.step.Tracks (m.pendingAfter calls .step) := by
  unfold pendingAfter
  cases executed : m.executed? with
  | none => exact ⟨by simpa [m.step_stack, executed] using h.holds, h.few⟩
  | some i =>
    cases i with
    | call a => exact h.executed_call executed
    | ret => exact h.executed_ret executed
    | _ => exact ⟨by simpa [m.step_stack, executed] using h.holds, h.few⟩

theorem initial (key : Key) (strict : Bool) : (Machine.initial key strict).Tracks [] :=
  ⟨by simpa using CallStack.holds_nil, by simp⟩

theorem act (h : m.Tracks calls) (a : Action) : (m.act a).Tracks (m.pendingAfter calls a) := by
  have other (noStep : a.isStep = false) (noReset : a.isReset = false)
      (same : m.pendingAfter calls a = calls) : (m.act a).Tracks (m.pendingAfter calls a) := by
    rw [same]
    exact ⟨m.act_stack noStep noReset ▸ h.holds, h.few⟩
  cases a with
  | step => exact h.step
  | reset p =>
    cases result : m.reset p with
    | ok m' =>
      have after : m.act (.reset p) = m' := by rw [Machine.act, result, settle]
      have cleared : m.pendingAfter calls (.reset p) = [] := by simp [pendingAfter, result]
      rw [after, cleared]
      exact ⟨reset_stack result ▸ CallStack.holds_nil, by simp⟩
    | error e =>
      have after : m.act (.reset p) = m := by rw [Machine.act, result, settle]
      have same : m.pendingAfter calls (.reset p) = calls := by simp [pendingAfter, result]
      rw [after, same]
      exact h
  | _ => exact other rfl rfl rfl

theorem after (h : m.Tracks calls) (actions : List Action) :
    (m.after actions).Tracks (m.pending calls actions) := by
  induction actions generalizing m calls with
  | nil => exact h
  | cons a actions ih => exact ih (h.act a)

end Tracks

theorem pendingAfter_cases (m : Machine) (calls : List UInt16) (a : Action) :
    m.pendingAfter calls a = calls ∨ (∃ r, m.pendingAfter calls a = calls ++ [r]) ∨
      m.pendingAfter calls a = calls.dropLast ∨ m.pendingAfter calls a = [] := by
  unfold pendingAfter
  cases a with
  | step =>
    dsimp only
    cases m.executed? with
    | none => exact .inl rfl
    | some i =>
      cases i with
      | call a => exact .inr (.inl ⟨_, rfl⟩)
      | ret => exact .inr (.inr (.inl rfl))
      | _ => exact .inl rfl
  | reset p =>
    dsimp only
    cases m.reset p with
    | ok m' => exact .inr (.inr (.inr rfl))
    | error e => exact .inl rfl
  | _ => exact .inl rfl

/-- A call that will return to `r` is still pending above its callers, or it was left by a reset. -/
def Above (callers : List UInt16) (r : UInt16) (calls : List UInt16) : Prop :=
  callers ++ [r] <+: calls ∨ calls.length < callers.length

variable {callers : List UInt16} {r : UInt16}

/-- An action that does not come back to the depth of the callers stays on its side of it. -/
theorem Above.pendingAfter (h : Above callers r calls) (m : Machine) (a : Action)
    (away : (m.pendingAfter calls a).length ≠ callers.length) :
    Above callers r (m.pendingAfter calls a) := by
  obtain same | ⟨x, more⟩ | fewer | none := m.pendingAfter_cases calls a
  · rwa [same]
  · rw [more] at away ⊢
    cases h with
    | inl inside => exact .inl (inside.trans (List.prefix_append calls [x]))
    | inr below => exact .inr (by simp at away ⊢; omega)
  · rw [fewer] at away ⊢
    cases h with
    | inl inside =>
      obtain ⟨above, rfl⟩ := inside
      cases above with
      | nil => simp at away
      | cons b above =>
        rw [List.dropLast_append_of_ne_nil (List.cons_ne_nil b above)]
        exact .inl (List.prefix_append _ _)
    | inr below => exact .inr (by simp; omega)
  · rw [none] at away ⊢
    exact .inr (by simp at away ⊢; omega)

/-- Before the depth of the callers is reached again, the call is pending. -/
theorem Tracks.above_after (h : m.Tracks calls) (above : Above callers r calls) {actions : List Action}
    (away : ∀ first, first <+: actions → (m.after first).stack.pointer.toInt ≠ callers.length) :
    Above callers r (m.pending calls actions) := by
  induction actions generalizing m calls with
  | nil => exact above
  | cons a actions ih =>
    have next : (m.act a).stack.pointer.toInt ≠ callers.length :=
      away [a] (List.prefix_append [a] actions)
    rw [(h.act a).holds.1] at next
    refine ih (h.act a) (above.pendingAfter m a (by omega)) fun first isPrefix => ?_
    exact away (a :: first) (List.cons_prefix_cons.mpr ⟨rfl, isPrefix⟩)

/-- The return that first brings back the depth before a call brings back the whole stack, and goes on
behind the call. -/
theorem Tracks.return_of_call (h : m.Tracks calls) {a : Fin 4096}
    (call : m.executed? = some (.call a)) {between : List Action}
    (away : ∀ first, first <+: between → (m.step.after first).stack.pointer ≠ m.stack.pointer)
    (ret : (m.step.after between).executed? = some .ret)
    (back : (m.step.after between).step.stack.pointer = m.stack.pointer) :
    (m.step.after between).step.pc = following m.pc ∧
      (m.step.after between).step.stack = m.stack := by
  have called : m.step.Tracks (calls ++ [following m.pc]) := h.executed_call call
  have above : Above calls (following m.pc) (m.step.pending (calls ++ [following m.pc]) between) := by
    refine called.above_after (.inl (List.prefix_refl _)) fun first isPrefix same => ?_
    exact away first isPrefix (Int32.toInt_inj.mp (same.trans h.holds.1.symm))
  have inside := called.after between
  have last := inside.getLast?_of_ret ret
  have returned := inside.executed_ret ret
  generalize m.step.pending (calls ++ [following m.pc]) between = pending at above last returned
  have depth : pending.dropLast.length = calls.length := by
    have := returned.holds.1
    rw [back, h.holds.1] at this
    omega
  -- The call is on top of its callers, and it was the last one pending.
  obtain ⟨later, rfl⟩ : calls ++ [following m.pc] <+: pending := by
    refine above.resolve_right fun below => ?_
    have := pending.length_dropLast
    omega
  obtain rfl : later = [] := by
    apply List.eq_nil_of_length_eq_zero
    rw [List.length_dropLast, List.length_append, List.length_append, List.length_singleton] at depth
    omega
  rw [List.append_nil] at last returned
  rw [List.getLast?_concat] at last
  rw [List.dropLast_concat] at returned
  exact ⟨(Option.some.inj last).symm, returned.holds.unique h.holds⟩

/-- After any actions since power-on, a reset being one of them, the stack is the list of the pending
calls with zeros behind it. An executed return goes to the last of them, and the one that first brings
the depth back to what it was before a call leaves the stack as it was and goes on behind the call. -/
theorem stack_refines_pending_calls (key : Key) (strict : Bool) (actions : List Action) :
    let m := (Machine.initial key strict).after actions
    let calls := (Machine.initial key strict).pending [] actions
    (m.stack.pointer.toInt = calls.length ∧ calls.length ≤ 16) ∧
    m.stack.data.toList = calls ++ List.replicate (16 - calls.length) 0 ∧
    (m.executed? = some .ret → calls.getLast? = some m.step.pc) ∧
    ∀ a between, m.executed? = some (.call a) →
      (∀ first, first <+: between → (m.step.after first).stack.pointer ≠ m.stack.pointer) →
      (m.step.after between).executed? = some .ret →
      (m.step.after between).step.stack.pointer = m.stack.pointer →
      (m.step.after between).step.pc = following m.pc ∧
        (m.step.after between).step.stack = m.stack := by
  intro m calls
  have tracks : m.Tracks calls := (Tracks.initial key strict).after actions
  refine ⟨⟨tracks.holds.1, tracks.few⟩, tracks.holds.toList tracks.few, tracks.getLast?_of_ret, ?_⟩
  exact fun a between call away ret back => tracks.return_of_call call away ret back

section LoadedProgram

variable {m₀ : Machine} {p : Program} {k : Nat} {w : UInt16}

theorem Tracks.call_of_word (tracks : m.Tracks calls) (stands : StandsOn m₀ p k m)
    (fits : p.length ≤ programCapacity) (inside : k + 1 < programCapacity)
    (word : (p.getD k 0).toUInt16 * 256 + (p.getD (k + 1) 0).toUInt16 = w) {a : Fin 4096}
    (decodes : Instruction.decode w.toNat = .call a) (room : calls.length < 16) (region : programStart ≤ a.val) :
    m.executed? = some (.call a) ∧ StandsOn m₀ p (a.val - programStart) m.step ∧
      m.step.Tracks (calls ++ [following m.pc]) := by
  have executed : m.executed? = some (.call a) :=
    stands.executes fits inside word decodes (tracks.faultless_call room region)
  refine ⟨executed, stands.step executed (perform_memory _ _) (perform_awaitingKey _ _) ?_,
    tracks.executed_call executed⟩
  rw [perform_pc, Nat.add_sub_of_le region]
  exact UInt16.toNat_ofNat_of_lt' (Nat.lt_trans a.isLt (by decide))

theorem Tracks.ret_of_word (tracks : m.Tracks (calls ++ [r])) (stands : StandsOn m₀ p k m)
    (fits : p.length ≤ programCapacity) (inside : k + 1 < programCapacity)
    (word : (p.getD k 0).toUInt16 * 256 + (p.getD (k + 1) 0).toUInt16 = 0x00EE) {k' : Nat}
    (caller : r.toNat = programStart + k') :
    m.executed? = some .ret ∧ StandsOn m₀ p k' m.step ∧ m.step.Tracks calls := by
  have executed : m.executed? = some .ret :=
    stands.executes fits inside word rfl (tracks.faultless_ret (List.concat_ne_nil r calls))
  have back : r = m.step.pc := Option.some.inj (List.getLast?_concat.symm.trans (tracks.getLast?_of_ret executed))
  refine ⟨executed, stands.step executed (perform_memory _ _) (perform_awaitingKey _ _) ?_, ?_⟩
  · rw [← step_of_executed executed, ← back, caller]
  · have returned := tracks.executed_ret executed
    rwa [List.dropLast_concat] at returned

end LoadedProgram

/-- A program that calls a subroutine, which calls another one before it returns. -/
def callProgram : Program :=
  [0x22, 0x04, 0x00, 0x00, 0x22, 0x08, 0x00, 0xEE, 0x00, 0xEE]

theorem callProgram_runs {m₀ : Machine} (stands : StandsOn m₀ callProgram 0 m) (start : m.Tracks []) :
    m.executed? = some (.call 0x204) ∧
    (∀ first, first <+: [.step, .tick, .step] →
      ∃ calls : List UInt16, calls ≠ [] ∧ (m.step.after first).Tracks calls) ∧
    (m.step.after [.step]).stack.pointer.toInt = 2 ∧
    (m.step.after [.step, .tick, .step]).executed? = some .ret ∧
    (m.step.after [.step, .tick, .step]).step.Tracks [] := by
  have fits : callProgram.length ≤ programCapacity := by decide
  have few : [following m.pc].length < 16 := by
    rw [List.length_singleton]
    decide
  obtain ⟨call, outer, one⟩ :=
    start.call_of_word (w := 0x2204) (a := 0x204) stands fits (by decide) (by decide) rfl (by decide) (by decide)
  obtain ⟨-, inner, two⟩ :=
    one.call_of_word (w := 0x2208) (a := 0x208) outer fits (by decide) (by decide) rfl few (by decide)
  -- A tick leaves the program and the calls alone.
  have innerTicked : StandsOn m₀ callProgram 8 m.step.step.tick :=
    ⟨inner.memory, inner.pc, inner.running, inner.free⟩
  have ticked : m.step.step.tick.Tracks ([following m.pc] ++ [following m.step.pc]) := ⟨two.holds, two.few⟩
  obtain ⟨-, outer', again⟩ :=
    ticked.ret_of_word innerTicked fits (by decide) (by decide) (outer.following (by decide))
  have last : m.step.step.tick.step.Tracks ([] ++ [following m.pc]) := again
  obtain ⟨ret, -, done⟩ := last.ret_of_word outer' fits (by decide) (by decide) (stands.following (by decide))
  refine ⟨call, fun first isPrefix => ?_, two.holds.1, ret, done⟩
  have among := (List.mem_inits _ _).mpr isPrefix
  simp only [List.inits, List.map_cons, List.map_nil, List.mem_cons, List.not_mem_nil, or_false] at among
  obtain rfl | rfl | rfl | rfl := among
  · exact ⟨_, List.cons_ne_nil _ _, one⟩
  · exact ⟨_, List.cons_ne_nil _ _, two⟩
  · exact ⟨_, List.cons_ne_nil _ _, ticked⟩
  · exact ⟨_, List.cons_ne_nil _ _, again⟩

/-- The outer call is still pending when the inner one has come back. -/
theorem callProgram_returns :
    let m := (Machine.initial ⟨0, 0⟩).after [.load callProgram]
    let inner := m.step.after [.step, .tick, .step]
    m.executed? = some (.call 0x204) ∧ (m.step.after [.step]).stack.pointer.toInt = 2 ∧
      inner.executed? = some .ret ∧ inner.step.pc = following m.pc ∧ inner.step.stack = m.stack := by
  have returns := (stack_refines_pending_calls ⟨0, 0⟩ true [.load callProgram]).2.2.2 0x204 [.step, .tick, .step]
  have loaded : (initial ⟨0, 0⟩).after [.load callProgram] = (initial ⟨0, 0⟩).loaded callProgram :=
    act_load (initial ⟨0, 0⟩) (p := callProgram) (by decide)
  have stands : StandsOn (initial ⟨0, 0⟩) callProgram 0 ((initial ⟨0, 0⟩).loaded callProgram) :=
    .loaded (initial_pc _ _) (initial_error _ _) (initial_awaitingKey _ _)
  have start : ((initial ⟨0, 0⟩).loaded callProgram).Tracks [] :=
    loaded ▸ (Tracks.initial ⟨0, 0⟩ true).after [.load callProgram]
  rw [loaded] at returns ⊢
  generalize (initial ⟨0, 0⟩).loaded callProgram = m at returns stands start ⊢
  obtain ⟨call, deeper, nested, ret, done⟩ := callProgram_runs stands start
  have back := (done.pointer_eq_iff start).mpr rfl
  refine ⟨call, nested, ret, returns call (fun first isPrefix same => ?_) ret back⟩
  obtain ⟨calls, pending, tracks⟩ := deeper first isPrefix
  exact pending (List.eq_nil_of_length_eq_zero ((tracks.pointer_eq_iff start).mp same))

end Chip8.Machine
