import Chip8.Proofs.Action
import Chip8.Proofs.Encoding
import Chip8.Proofs.ProgramImage
import Mathlib.Logic.Function.Iterate

/-! The random numbers of a run against the stream of its key. How far the stream has gone is how many words
`Cxnn` were executed, and the next such word gets the next byte, whatever the program and its host do in
between. -/

namespace Chip8

/-- A random number that a step draws: the register that it goes to, the mask that is laid over it, and what
the register holds after the step. -/
structure Roll where
  register : Nibble
  mask : UInt8
  value : UInt8
  deriving DecidableEq

/-- The rolls take the bytes of a key's stream one after the other and leave the stream at another key. -/
inductive Key.Yields : Key → List Roll → Key → Prop where
  | nil (k : Key) : Yields k [] k
  | cons {k k' : Key} {r : Roll} {rolls : List Roll} (value : r.value = k.sub.byte &&& r.mask)
      (rest : Yields k.next rolls k') : Yields k (r :: rolls) k'

namespace Key.Yields

variable {k k' : Key} {rolls : List Roll}

theorem key (h : k.Yields rolls k') : k' = Key.next^[rolls.length] k := by
  induction h with
  | nil k => rfl
  | cons value rest ih => simpa using ih

theorem value (h : k.Yields rolls k') {j : Nat} {r : Roll} (drawn : rolls[j]? = some r) :
    r.value = (Key.next^[j] k).sub.byte &&& r.mask := by
  induction h generalizing j with
  | nil k => simp at drawn
  | cons value rest ih =>
    cases j with
    | zero =>
      obtain rfl : _ = r := by simpa using drawn
      exact value
    | succ j => exact ih (by simpa using drawn)

end Key.Yields

namespace Machine

/-- The random number that a step draws, if the word that it executes is a `Cxnn`. -/
def roll? (m : Machine) : Option Roll :=
  let w := m.currentWord.toNat
  let x := Nibble.ofNat (w / 256)
  if m.error = 0 ∧ m.awaitingKey = false ∧ w / 4096 = 0xC then
    some { register := x, mask := UInt8.ofNat w, value := m.step.reg x }
  else none

def rolls (m : Machine) (actions : List Action) : List Roll :=
  (m.trail actions).filterMap roll?

variable {m : Machine} {r : Roll}

theorem current_of_family (family : m.currentWord.toNat / 4096 = 0xC) : m.current =
    .rnd (Nibble.ofNat (m.currentWord.toNat / 256)) (UInt8.ofNat m.currentWord.toNat) := by
  refine current_of_word ?_ rfl
  simp only [Instruction.encode, Word.ofByte, Nibble.ofNat_val, UInt8.toNat_ofNat']
  omega

theorem family_of_current {x : Nibble} {mask : UInt8} (current : m.current = .rnd x mask) :
    m.currentWord.toNat / 4096 = 0xC := by
  rw [currentWord_eq_encode, current]
  exact Word.ofByte_family 0xC mask x

theorem step_of_roll (drawn : m.roll? = some r) :
    m.step.key = m.key.next ∧ r.value = m.key.sub.byte &&& r.mask := by
  unfold roll? at drawn
  dsimp only at drawn
  split at drawn
  case isFalse => cases drawn
  case isTrue executes =>
    obtain ⟨running, free, family⟩ := executes
    obtain rfl := Option.some.inj drawn
    have current := current_of_family family
    have faultless : m.fault? m.current = none := by rw [current]; rfl
    have step := step_of_executed (executed?_eq_some.mpr ⟨running, free, faultless, current⟩)
    rw [step, perform_key, reg, perform_registers]
    exact ⟨rfl, Bank.get_set_self m.registers _ _⟩

theorem step_key_of_no_roll (idle : m.roll? = none) : m.step.key = m.key := by
  cases executed : m.executed? with
  | none =>
    obtain ⟨registers, pc, awaitingKey, error, step⟩ := step_of_not_executed executed
    rw [step]
  | some i =>
    obtain ⟨running, free, -, current⟩ := executed?_eq_some.mp executed
    rw [step_of_executed executed, perform_key]
    cases i with
    | rnd x mask => simp [roll?, running, free, family_of_current current] at idle
    | _ => rfl

theorem act_key (m : Machine) {a : Action} (noStep : a.isStep = false) : (m.act a).key = m.key := by
  refine act_cases m a ?stepped ?adjusted ?loaded ?restarted ?reloaded
  case stepped => simp [noStep]
  case adjusted => simp
  case loaded => simp
  case restarted => simp
  case reloaded => simp

theorem yields_rolls (m : Machine) (actions : List Action) :
    m.key.Yields (m.rolls actions) (m.after actions).key := by
  unfold rolls
  induction actions generalizing m with
  | nil => exact .nil m.key
  | cons a actions ih =>
    have rest := ih (m.act a)
    cases isStep : a.isStep with
    | false =>
      rw [act_key m isStep] at rest
      rwa [trail_cons_of_no_step m isStep]
    | true =>
      obtain rfl := Action.eq_step isStep
      rw [trail_step]
      cases drawn : m.roll? with
      | none =>
        rw [act_step, step_key_of_no_roll drawn] at rest
        rwa [List.filterMap_cons_none drawn]
      | some r =>
        obtain ⟨key, value⟩ := step_of_roll drawn
        rw [act_step, key] at rest
        rw [List.filterMap_cons_some drawn]
        exact .cons value rest

/-- The key of a machine is moved on once for each word `Cxnn` that it executes, and the number drawn by the
word at place `j` is the byte at place `j` of the stream under the mask of the word. Two runs that start from
one key therefore see the same bytes, each under its own masks, whatever they execute and whatever their hosts
do. A machine at power-on has the key that it was given. -/
theorem random_numbers_follow_the_stream (m : Machine) (actions : List Action) :
    (m.after actions).key = Key.next^[(m.rolls actions).length] m.key ∧
    (∀ (j : Nat) (r : Roll), (m.rolls actions)[j]? = some r →
      r.value = (Key.next^[j] m.key).sub.byte &&& r.mask) ∧
    ∀ (m' : Machine) (actions' : List Action), m'.key = m.key → ∀ (j : Nat) (r r' : Roll),
      (m.rolls actions)[j]? = some r → (m'.rolls actions')[j]? = some r' →
      r.value &&& r'.mask = r'.value &&& r.mask := by
  have yields := m.yields_rolls actions
  refine ⟨yields.key, fun j r drawn => yields.value drawn, ?_⟩
  intro m' actions' same j r r' drawn drawn'
  rw [yields.value drawn, (m'.yields_rolls actions').value drawn', same, UInt8.and_assoc,
    UInt8.and_comm r.mask, ← UInt8.and_assoc]

/-- Two programs draw from one key, one of them in its first two steps and the other in its second. -/
theorem first_bytes_of_two_programs :
    let m : Machine := { Machine.initial ⟨0, 42⟩ with
      memory := Memory.zero.write 0x200 [0xC3, 0xFF, 0xC4, 0x0F] }
    let m' : Machine := { Machine.initial ⟨0, 42⟩ false with
      memory := Memory.zero.write 0x200 [0x60, 0x05, 0xC5, 0x3C] }
    let r : Roll := { register := 3, mask := 0xFF, value := 196 }
    let r' : Roll := { register := 5, mask := 0x3C, value := 4 }
    m.rolls [.step, .tick, .step] = [r, { register := 4, mask := 0x0F, value := 12 }] ∧
      m'.rolls [.step, .step] = [r'] ∧
      (m.after [.step, .tick, .step]).key = (Key.mk 0 42).next.next ∧
      12 = (Key.mk 0 42).next.sub.byte &&& 0x0F ∧ r.value &&& r'.mask = r'.value &&& r.mask := by
  intro m m' r r'
  have rolls : m.rolls [.step, .tick, .step] = [r, { register := 4, mask := 0x0F, value := 12 }] := by
    decide +kernel
  have rolls' : m'.rolls [.step, .step] = [r'] := by decide +kernel
  obtain ⟨key, value, shared⟩ := random_numbers_follow_the_stream m [.step, .tick, .step]
  rw [rolls] at key value shared
  have shared := shared m' [.step, .step] rfl 0 r r' rfl
  rw [rolls'] at shared
  exact ⟨rolls, rolls', key, value 1 _ rfl, shared rfl⟩

end Machine
end Chip8
