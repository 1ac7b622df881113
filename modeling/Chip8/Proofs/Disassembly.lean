import Chip8.Proofs.Assembly
import Chip8.Proofs.Encoding

/-! Words of one text. They agree in their sixteen low bits, or these are shifts of one register, which act alike
except where a strict machine looks at the second register. -/

namespace Chip8

namespace Instruction

theorem disassemble_eq (w : Int) : disassemble w = (decode (Word.low16 w).toNat).mnemonic := by
  rw [disassemble, Word.toNat_low16]

theorem decode_inj {v w : UInt16} : decode v.toNat = decode w.toNat ↔ v = w := by
  refine ⟨fun same => UInt16.toNat_inj.mp ?_, congrArg fun w : UInt16 => decode w.toNat⟩
  rw [← encode_decode v, same, encode_decode w]

theorem decode_eq_arith_iff {w : UInt16} {op : Arith} {x y : Nibble} : decode w.toNat = arith op x y ↔
    (w.toNat : Int) = 0x8000 + 0x100 * x.val + 0x10 * y.val + op.nibble.val := by
  refine (decode_eq_iff rfl).trans ?_
  simp only [encode, Word.ofNibbles]
  omega

theorem disassemble_eq_iff {a b : Int} : disassemble a = disassemble b ↔ a % 65536 = b % 65536 ∨
    ∃ op : Arith, op.ignoresSecond = true ∧ ∃ x y y' : Nibble,
      a % 65536 = 0x8000 + 0x100 * x.val + 0x10 * y.val + op.nibble.val ∧
      b % 65536 = 0x8000 + 0x100 * x.val + 0x10 * y'.val + op.nibble.val := by
  rw [disassemble_eq, disassemble_eq, mnemonic_eq_iff, decode_inj, ← UInt16.toNat_inj, ← Int.natCast_inj]
  -- What a word is decoded to is known of words of sixteen bits, so the residues of `a` and `b` come in last.
  simp only [decode_eq_arith_iff, exists_and_left]
  rw [Word.toNat_low16, Word.toNat_low16]

theorem exists_ignoresSecond {P : Arith → Prop} :
    (∃ op : Arith, op.ignoresSecond = true ∧ P op) ↔ P .shr ∨ P .shl := by
  constructor
  · rintro ⟨op, ignored, holds⟩
    cases op with
    | shr => exact .inl holds
    | shl => exact .inr holds
    | _ => cases ignored
  · rintro (holds | holds)
    · exact ⟨.shr, rfl, holds⟩
    · exact ⟨.shl, rfl, holds⟩

theorem fields_y_of_decode {w : UInt16} {op : Arith} {x y : Nibble} (decoded : decode w.toNat = arith op x y) :
    (Word.fields w.toNat).y = y := by
  rw [Machine.fields_natCast, (decode_eq_iff rfl).mp decoded]
  exact Word.ofNibbles_y 0x8 x y op.nibble

end Instruction

namespace Machine

open Instruction

theorem arith_congr_of_ignored (m : Machine) {op : Arith} (ignored : op.ignoresSecond = true) {x y y' : Nibble}
    (alike : m.strict = true → (y = flagRegister ↔ y' = flagRegister)) : m.arith op x y = m.arith op x y' := by
  have refusal : (m.strict && (x == flagRegister || y == flagRegister)) =
      (m.strict && (x == flagRegister || y' == flagRegister)) := by
    cases strict : m.strict with
    | false => rfl
    | true =>
      have flag : (y == flagRegister) = (y' == flagRegister) := Bool.eq_iff_iff.mpr (by simpa using alike strict)
      rw [flag]
  have result (n : Machine) :
      op.eval (n.reg x).toNat (n.reg y).toNat = op.eval (n.reg x).toNat (n.reg y').toNat := by
    cases op with
    | shr | shl => rfl
    | _ => cases ignored
  simp only [arith, refusal, result]

theorem execute_congr_of_disassemble {v w : UInt16} (same : disassemble v.toNat = disassemble w.toNat) (m : Machine)
    (alike : m.strict = true →
      ((Word.fields v.toNat).y = flagRegister ↔ (Word.fields w.toNat).y = flagRegister)) :
    m.execute v.toNat = m.execute w.toNat := by
  have short (w : UInt16) : (w.toNat : Int) % 65536 = w.toNat := by
    have := w.toNat_lt
    omega
  obtain equal | ⟨op, ignored, x, y, y', first, second⟩ := disassemble_eq_iff.mp same
  · rw [short, short] at equal
    rw [equal]
  · rw [short, ← decode_eq_arith_iff] at first second
    rw [fields_y_of_decode first, fields_y_of_decode second] at alike
    rw [execute, execute, first, second]
    exact m.arith_congr_of_ignored ignored alike

/-- Two words have one text just if they agree in their sixteen low bits or these are right shifts, or left shifts,
of one register. Words of sixteen bits with one text act alike on a machine, unless it is strict and the flag register
is the second register of just one of them. -/
theorem disassembly_loses_second_registers :
    (∀ a b : Int, disassemble a = disassemble b ↔ a % 65536 = b % 65536 ∨
      (∃ x y y' : Nibble, a % 65536 = 0x8000 + 0x100 * x.val + 0x10 * y.val + 0x6 ∧
        b % 65536 = 0x8000 + 0x100 * x.val + 0x10 * y'.val + 0x6) ∨
      ∃ x y y' : Nibble, a % 65536 = 0x8000 + 0x100 * x.val + 0x10 * y.val + 0xE ∧
        b % 65536 = 0x8000 + 0x100 * x.val + 0x10 * y'.val + 0xE) ∧
    ∀ v w : UInt16, disassemble v.toNat = disassemble w.toNat → ∀ m : Machine,
      (m.strict = true → ((Word.fields v.toNat).y = flagRegister ↔ (Word.fields w.toNat).y = flagRegister)) →
      m.execute v.toNat = m.execute w.toNat :=
  ⟨fun _ _ => disassemble_eq_iff.trans (or_congr_right exists_ignoresSecond),
    fun _ _ same m alike => execute_congr_of_disassemble same m alike⟩

/-- Two right shifts of register 1 have one text. A lenient machine takes the flag register for the second. -/
theorem shifts_of_one_register_act_alike :
    let m := Machine.initial ⟨0, 0⟩ false
    disassemble (-0x7EDA) = disassemble 0x81F6 ∧ m.execute 0x8126 = m.execute 0x81F6 := by
  intro m
  obtain ⟨texts, acts⟩ := disassembly_loses_second_registers
  have same : disassemble (0x8126 : UInt16).toNat = disassemble (0x81F6 : UInt16).toNat :=
    (texts _ _).mpr (.inr (.inl ⟨1, 2, 15, by decide, by decide⟩))
  exact ⟨(texts _ _).mpr (.inr (.inl ⟨1, 2, 15, by decide, by decide⟩)), acts 0x8126 0x81F6 same m (by decide)⟩

end Machine
end Chip8
