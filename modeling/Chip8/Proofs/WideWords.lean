import Chip8.Proofs.Effect

/-! Words wider than sixteen bits. A word acts as its sixteen low bits do, except that the two instructions without
operands are words of sixteen bits only. A wider word with their low bits is a call into the host's own code. -/

namespace Chip8

namespace Word

/-- A word with the low bits of an instruction without operands and with other bits as well. -/
def Overlong (w : Int) : Prop :=
  (w % 65536 = 0x00E0 ∨ w % 65536 = 0x00EE) ∧ ¬(0 ≤ w ∧ w ≤ 0xFFFF)

instance (w : Int) : Decidable (Overlong w) :=
  inferInstanceAs (Decidable (_ ∧ _))

variable {w : Int}

theorem low_eq_self (inside : 0 ≤ w ∧ w ≤ 0xFFFF) : w % 65536 = w :=
  Int.emod_eq_of_lt inside.1 (Int.lt_of_le_of_lt inside.2 (by decide))

/-- The fields are made of one another and make up the sixteen low bits. -/
theorem fields_make_up_word (w : Int) :
    (fields w).nn.toNat = 16 * (fields w).y.val + (fields w).n.val ∧
    (fields w).nnn.val = 256 * (fields w).x.val + (fields w).nn.toNat ∧
    (4096 * (fields w).opcode.val + (fields w).nnn.val : Int) = w % 65536 := by
  have byte := toNat_ofInt w
  simp only [fields, nibble_val]
  omega

theorem fields_low (w : Int) : fields (w % 65536) = { fields w with raw := w % 65536 } := by
  have byte : UInt8.ofInt (w % 65536) = UInt8.ofInt w := by
    apply UInt8.toNat_inj.mp
    rw [← Int.natCast_inj, toNat_ofInt, toNat_ofInt]
    omega
  simp only [fields, nibble, byte, Fields.mk.injEq, Fin.mk.injEq, true_and]
  omega

theorem low16_low (w : Int) : low16 (w % 65536) = low16 w := by
  apply UInt16.toNat_inj.mp
  rw [← Int.natCast_inj, toNat_low16, toNat_low16, Int.emod_emod]

end Word

namespace Instruction

open Word

variable {w : Int}

theorem ofFields_low (w : Int) : ofFields (w % 65536) (fields (w % 65536)) = ofFields w (fields w) := by
  rw [fields_low]
  simp only [ofFields, ofOperation, ofSelector, low16_low]

theorem decode_eq_ofFields (operands : w % 65536 ≠ 0x00E0 ∧ w % 65536 ≠ 0x00EE) :
    decode w = ofFields w (fields w) := by
  rw [decode, if_neg (by omega), if_neg (by omega)]

theorem decode_low (short : ¬Overlong w) : decode (w % 65536) = decode w := by
  by_cases operands : w % 65536 ≠ 0x00E0 ∧ w % 65536 ≠ 0x00EE
  · rw [decode_eq_ofFields operands, decode_eq_ofFields (by rwa [Int.emod_emod]), ofFields_low]
  · rw [low_eq_self (by unfold Overlong at short; omega)]

theorem decode_low_of_overlong (wide : Overlong w) : decode (w % 65536) = cls ∨ decode (w % 65536) = ret := by
  obtain ⟨cls | ret, -⟩ := wide
  · exact .inl (by rw [cls]; rfl)
  · exact .inr (by rw [ret]; rfl)

theorem decode_of_overlong (wide : Overlong w) : decode w = sys (fields w).nnn := by
  obtain ⟨low, outside⟩ := wide
  have family : (fields w).opcode.val = 0x0 := by
    simp only [fields, nibble_val]
    omega
  rw [decode, if_neg (by omega), if_neg (by omega), ofFields, family]
  rfl

theorem identify_eq_ok (low : -2147483648 ≤ w) (high : w ≤ 2147483647) : identify w = .ok (decode w) := by
  rw [identify, fitInt32_eq_ok low high]
  rfl

end Instruction

namespace Machine

open Word

variable {w : Int}

theorem execute_of_overlong (m : Machine) (wide : Overlong w) : m.execute w =
    { m with error := if m.error = 0 then Fault.illegalInstruction.code else m.error } := by
  rw [execute, Instruction.decode_of_overlong wide, perform, failIf_eq]
  simp only [and_true]

theorem execute_low_error_of_overlong {m : Machine} (running : m.error = 0) (wide : Overlong w) :
    (m.execute (w % 65536)).error ≠ Fault.illegalInstruction.code := by
  rw [execute, perform_error, if_pos running]
  obtain cls | ret := Instruction.decode_low_of_overlong wide
  · rw [cls]
    exact (Fault.code_ne_zero .illegalInstruction).symm
  · rw [ret, fault?]
    cases m.stack.isEmpty <;> decide

theorem execute_low_ne_of_overlong {m : Machine} (running : m.error = 0) (wide : Overlong w) :
    m.execute w ≠ m.execute (w % 65536) := by
  intro same
  have error : (m.execute w).error = Fault.illegalInstruction.code := by
    rw [execute_of_overlong m wide]
    exact if_pos running
  exact execute_low_error_of_overlong running wide (same ▸ error)

/-- A word of thirty-two signed bits has the fields of its sixteen low bits, and it names the instruction that they
name and acts as they act on every machine. The exceptions are the wider words with the low bits of an instruction
without operands: these, and no others, are calls into the host's own code where their low bits are not, and record
the fault of an illegal instruction and do nothing else. -/
theorem wide_words_act_as_low_bits (w : Int) (low : -2147483648 ≤ w) (high : w ≤ 2147483647) :
    ((fields w).opcode.val < 16 ∧ (fields w).x.val < 16 ∧ (fields w).y.val < 16 ∧ (fields w).n.val < 16 ∧
      (fields w).nn.toNat = 16 * (fields w).y.val + (fields w).n.val ∧
      (fields w).nnn.val = 256 * (fields w).x.val + (fields w).nn.toNat ∧
      (4096 * (fields w).opcode.val + (fields w).nnn.val : Int) = w % 65536) ∧
    (¬Overlong w → Instruction.identify w = Instruction.identify (w % 65536) ∧
      ∀ m : Machine, m.execute w = m.execute (w % 65536)) ∧
    (Overlong w → Instruction.identify w = .ok (.sys (fields w).nnn) ∧
      (Instruction.identify (w % 65536) = .ok .cls ∨ Instruction.identify (w % 65536) = .ok .ret) ∧
      ∀ m : Machine,
        m.execute w = { m with error := if m.error = 0 then Fault.illegalInstruction.code else m.error } ∧
        (m.error = 0 → m.execute w ≠ m.execute (w % 65536))) := by
  have named : Instruction.identify w = .ok (Instruction.decode w) := Instruction.identify_eq_ok low high
  have namedLow : Instruction.identify (w % 65536) = .ok (Instruction.decode (w % 65536)) :=
    Instruction.identify_eq_ok (by omega) (by omega)
  refine ⟨⟨Fin.isLt _, Fin.isLt _, Fin.isLt _, Fin.isLt _, fields_make_up_word w⟩, fun short => ?_, fun wide => ?_⟩
  · have same := Instruction.decode_low short
    exact ⟨by rw [named, namedLow, same], fun m => by rw [execute, execute, same]⟩
  · rw [named, namedLow]
    refine ⟨congrArg _ (Instruction.decode_of_overlong wide), ?_, fun m => ⟨execute_of_overlong m wide,
      fun running => execute_low_ne_of_overlong running wide⟩⟩
    exact (Instruction.decode_low_of_overlong wide).imp (congrArg _) (congrArg _)

/-- A negative word with the low bits of a return is illegal, and one with those of a jump is a jump. -/
theorem negative_return_is_illegal :
    let m := Machine.initial ⟨0, 0⟩
    Overlong (-65298) ∧ m.execute (-65298) = { m with error := Fault.illegalInstruction.code } ∧
      m.execute (-65298) ≠ m.execute 0x00EE ∧ m.execute (-60416) = m.execute 0x1400 := by
  intro m
  have wide : Overlong (-65298) := by decide
  obtain ⟨-, -, exception⟩ := wide_words_act_as_low_bits (-65298) (by decide) (by decide)
  obtain ⟨-, -, acts⟩ := exception wide
  obtain ⟨-, usual, -⟩ := wide_words_act_as_low_bits (-60416) (by decide) (by decide)
  exact ⟨wide, (acts m).1, (acts m).2 rfl, (usual (by decide)).2 m⟩

end Machine
end Chip8
