import Chip8.Proofs.WellFormed

/-! Loading and resetting. A load leaves nothing of an earlier program, and a reset loads its program into a
machine at power-on. No run writes below the program region, so both leave the same memory. -/

namespace Chip8.Machine

variable {m m' : Machine} {p q : Program}

theorem load_eq_error_iff :
    m.load p = .error (.programTooLarge p.length) ↔ programCapacity < p.length := by
  refine ⟨fun refused => Nat.lt_of_not_le fun fits => ?_, fun large => if_pos large⟩
  rw [load_eq_ok m fits] at refused
  cases refused

/-- Of the memory before a load only what lies between the glyphs and the program region is left. -/
theorem loaded_memory_congr (fits : p.length ≤ programCapacity)
    (gap : ∀ a, keyCount * glyphSize ≤ a → a < programStart →
      m'.memory.readOrZero a = m.memory.readOrZero a) :
    (m'.loaded p).memory = (m.loaded p).memory := by
  refine Memory.ext_readOrZero fun a inside => ?_
  rw [readOrZero_loaded m' fits inside, readOrZero_loaded m fits inside]
  by_cases glyph : a < keyCount * glyphSize
  · rw [if_pos glyph, if_pos glyph]
  · by_cases low : a < programStart
    · rw [if_neg glyph, if_neg glyph, if_pos low, if_pos low, gap a (Nat.le_of_not_lt glyph) low]
    · rw [if_neg glyph, if_neg glyph, if_neg low, if_neg low]

theorem loaded_loaded (m : Machine) (fits : p.length ≤ programCapacity)
    (fits' : q.length ≤ programCapacity) : (m.loaded p).loaded q = m.loaded q := by
  have memory : ((m.loaded p).loaded q).memory = (m.loaded q).memory := by
    refine loaded_memory_congr fits' fun a behind low => ?_
    have inside : a < memorySize := Nat.lt_trans low (by decide)
    rw [readOrZero_loaded m fits inside, if_neg (Nat.not_lt.mpr behind), if_pos low]
  calc (m.loaded p).loaded q
    _ = (m.loaded p).setMemory (m.loaded q).memory := by rw [loaded_eq_setMemory (m.loaded p), memory]
    _ = m.setMemory (m.loaded q).memory := by rw [loaded_eq_setMemory m p, setMemory_setMemory]
    _ = m.loaded q := (loaded_eq_setMemory m q).symm

theorem reset_eq_ok (m : Machine) (fits : p.length ≤ programCapacity) :
    m.reset (some p) = .ok ((initial m.key m.strict).loaded p) :=
  load_eq_ok _ fits

theorem reset_congr (key : m'.key = m.key) (strict : m'.strict = m.strict) (p : Option Program) :
    m'.reset p = m.reset p := by
  cases p with
  | none => rw [reset, reset, key, strict]
  | some p => rw [reset, reset, key, strict]

theorem WellFormed.reset_memory (h : m.WellFormed) (fits : p.length ≤ programCapacity) :
    ((Machine.initial m.key m.strict).loaded p).memory = (Machine.loaded m p).memory :=
  loaded_memory_congr fits fun a _ low =>
    ((WellFormed.initial m.key m.strict).bottom a low).trans (h.bottom a low).symm

/-- The image that a load leaves: the program at `0x200` with zeros up to the last byte, the glyphs at the
bottom, and between them what was there. -/
theorem loaded_image (m : Machine) (fits : p.length ≤ programCapacity) :
    let memory := (m.loaded p).memory
    (∀ (i : Nat) (inside : i < p.length), memory.readOrZero (0x200 + i) = p[i]) ∧
    (∀ a, 0x200 + p.length ≤ a → a ≤ 0xFFF → memory.readOrZero a = 0) ∧
    (∀ a < 0x50, memory.readOrZero a = glyphs.getD a 0) ∧
    ∀ a, 0x50 ≤ a → a < 0x200 → memory.readOrZero a = m.memory.readOrZero a := by
  intro memory
  have image {a : Nat} (inside : a < 4096) : memory.readOrZero a =
      if a < 0x50 then glyphs.getD a 0 else if a < 0x200 then m.memory.readOrZero a
      else p.getD (a - 0x200) 0 := readOrZero_loaded m fits inside
  have fits : p.length ≤ 3584 := fits
  refine ⟨fun i inside => ?program, fun a behind last => ?padding, fun a glyph => ?glyph,
    fun a behind low => ?gap⟩
  case program =>
    rw [image (by omega), if_neg (by omega), if_neg (by omega), Nat.add_sub_cancel_left,
      List.getD_eq_getElem p 0 inside]
  case padding =>
    rw [image (by omega), if_neg (by omega), if_neg (by omega), List.getD_eq_default p 0 (by omega)]
  case glyph => rw [image (by omega), if_pos glyph]
  case gap => rw [image (by omega), if_neg (Nat.not_lt.mpr behind), if_pos low]

/-- A load is refused just if its program does not fit. Otherwise it changes memory alone, to an image of which
only the part between the glyphs and the program region depends on the memory before, so that a second load
leaves nothing of the first. A reset depends on the program, the random stream and the strictness alone. At
any time in the life of a machine it gives the memory that a load gives, and a second reset changes nothing. -/
theorem loads_and_resets :
    (∀ (m : Machine) (p : Program),
      (m.load p = .error (.programTooLarge p.length) ↔ 3584 < p.length) ∧
      (p.length ≤ 3584 → ∃ memory, m.load p = .ok { m with memory := memory } ∧
        (∀ (i : Nat) (inside : i < p.length), memory.readOrZero (0x200 + i) = p[i]) ∧
        (∀ a, 0x200 + p.length ≤ a → a ≤ 0xFFF → memory.readOrZero a = 0) ∧
        (∀ a < 0x50, memory.readOrZero a = glyphs.getD a 0) ∧
        ∀ a, 0x50 ≤ a → a < 0x200 → memory.readOrZero a = m.memory.readOrZero a)) ∧
    (∀ (m : Machine) (p q : Program), p.length ≤ 3584 → q.length ≤ 3584 →
      ∃ m', m.load p = .ok m' ∧ m'.load q = m.load q) ∧
    (∀ (m m' : Machine) (p : Program), m'.key = m.key → m'.strict = m.strict →
      m'.reset (some p) = m.reset (some p)) ∧
    ∀ (key : Key) (strict : Bool) (actions : List Action) (p : Program), p.length ≤ 3584 →
      let m := (initial key strict).after actions
      ∃ r l, m.reset (some p) = .ok r ∧ m.load p = .ok l ∧ r.memory = l.memory ∧
        r.reset (some p) = .ok r := by
  refine ⟨fun m p => ⟨load_eq_error_iff, fun fits => ?image⟩, fun m p q fits fits' => ?again,
    fun m m' p key strict => reset_congr key strict (some p), fun key strict actions p fits => ?reset⟩
  case image =>
    refine ⟨(m.loaded p).memory, ?_, loaded_image m fits⟩
    rw [load_eq_ok m fits, loaded_eq_setMemory m p]
    rfl
  case again =>
    refine ⟨m.loaded p, load_eq_ok m fits, ?_⟩
    rw [load_eq_ok _ fits', load_eq_ok m fits', loaded_loaded m fits fits']
  case reset =>
    intro m
    have h : m.WellFormed := after_induction (WellFormed.initial key strict) (fun _ a h => h.act a) actions
    refine ⟨(initial m.key m.strict).loaded p, m.loaded p, reset_eq_ok m fits, load_eq_ok m fits,
      h.reset_memory fits, ?_⟩
    have again : ((initial m.key m.strict).loaded p).reset (some p) = m.reset (some p) :=
      reset_congr (by simp) (by simp) (some p)
    rw [again, reset_eq_ok m fits]

/-- Two bytes take the place of a program that fills the region, on a machine that has run it. -/
theorem short_program_replaces_long_one :
    let long : Program := List.replicate 3584 0xFF
    let short : Program := [0x12, 0x00]
    let m := (initial ⟨0, 0⟩).after [.load long, .step, .tick]
    (long.length ≤ 3584 ∧ 3584 < (0xFF :: long).length) ∧
    m.load (0xFF :: long) = .error (.programTooLarge (0xFF :: long).length) ∧
    (∃ memory, m.load short = .ok { m with memory := memory } ∧ memory.readOrZero 0x200 = 0x12 ∧
      memory.readOrZero 0xFFF = 0 ∧ memory.readOrZero 0x04F = 0x80) ∧
    (∃ m', m.load long = .ok m' ∧ m'.load short = m.load short) ∧
    (initial m.key m.strict).reset (some short) = m.reset (some short) ∧
    ∃ r l, m.reset (some short) = .ok r ∧ m.load short = .ok l ∧ r.memory = l.memory ∧
      r.reset (some short) = .ok r := by
  intro long short m
  have size : long.length = 3584 := List.length_replicate
  have fits : long.length ≤ 3584 := Nat.le_of_eq size
  have large : 3584 < (0xFF :: long).length := Nat.lt_succ_of_le (Nat.le_of_eq size.symm)
  have few : short.length ≤ 3584 := by decide
  obtain ⟨load, again, fresh, reset⟩ := loads_and_resets
  obtain ⟨memory, loaded, program, padding, glyphs, -⟩ := (load m short).2 few
  exact ⟨⟨fits, large⟩, (load m (0xFF :: long)).1.mpr large,
    ⟨memory, loaded, program 0 (by decide), padding 0xFFF (by decide) (by decide), glyphs 0x4F (by decide)⟩,
    again m long short fits few, fresh m _ short (initial_key _ _) (initial_strict _ _),
    reset ⟨0, 0⟩ true [.load long, .step, .tick] short few⟩

end Chip8.Machine
