import Chip8.Proofs.Encoding

/-! Arithmetic with a flag: the result and the flag together account for the operands. The flag is written last, so it
takes the place of the result where both go to the flag register. -/

namespace Chip8

namespace Arith

/-- The result `r` and the flag `f` that the operation should give on two bytes. -/
def Accounts (op : Arith) (a b r f : UInt8) : Prop :=
  f ≤ 1 ∧ match op with
  | add => r.toNat + 256 * f.toNat = a.toNat + b.toNat
  | sub => (r.toNat : Int) = (a.toNat - b.toNat) % 256 ∧ (f = 1 ↔ b < a)
  | shr => 2 * r.toNat + f.toNat = a.toNat
  | subn => (r.toNat : Int) = (b.toNat - a.toNat) % 256 ∧ (f = 1 ↔ a < b)
  | shl => r.toNat + 256 * f.toNat = 2 * a.toNat

theorem toNat_ofInt_eval (op : Arith) (a b : UInt8) :
    ((UInt8.ofInt (op.eval a.toNat b.toNat).1).toNat : Int) = (op.eval a.toNat b.toNat).1 := by
  have := a.toNat_lt
  rw [Word.toNat_ofInt]
  apply Int.emod_eq_of_lt
  all_goals cases op <;> simp only [eval] <;> omega

theorem accounts_eval (op : Arith) (a b : UInt8) :
    op.Accounts a b (UInt8.ofInt (op.eval a.toNat b.toNat).1) (op.eval a.toNat b.toNat).2.toUInt8 := by
  have result := op.toNat_ofInt_eval a b
  refine ⟨flag_le_one _, ?_⟩
  cases op with
  | add | shr | shl =>
    simp only [eval, toNat_flag, decide_eq_true_eq] at result ⊢
    have := a.toNat_lt
    have := b.toNat_lt
    split <;> omega
  | sub | subn =>
    refine ⟨result, ?_⟩
    simp only [eval, flag_eq_one_iff, decide_eq_true_eq, UInt8.lt_iff_toNat_lt]
    omega

end Arith

namespace Machine

theorem execute_arith (m : Machine) (op : Arith) (x y : Nibble) :
    m.execute (0x8000 + 0x100 * x.val + 0x10 * y.val + op.nibble.val) = m.arith op x y :=
  m.execute_of_word (i := .arith op x y) (by simp [Instruction.encode, Word.ofNibbles]) rfl

theorem arith_of_allowed {m : Machine} (op : Arith) {x y : Nibble}
    (allowed : m.strict = true → x ≠ flagRegister ∧ y ≠ flagRegister) :
    let r := op.eval (m.reg x).toNat (m.reg y).toNat
    m.arith op x y = (m.setRegister x (UInt8.ofInt r.1)).setRegister flagRegister r.2.toUInt8 := by
  have granted : (m.strict && (x == flagRegister || y == flagRegister)) = false := by
    cases strict : m.strict with
    | false => rfl
    | true => simp [allowed strict]
  rw [arith, failIf_of_not granted]

/-- Arithmetic with a flag writes the result and the flag that account for the old operands, and nothing else. The flag
register as first operand, which only a lenient machine takes, ends with the flag. -/
theorem flag_arithmetic_accounts (m : Machine) (op : Arith) (x y : Nibble)
    (allowed : m.strict = true → x ≠ flagRegister ∧ y ≠ flagRegister) :
    let m' := m.execute (0x8000 + 0x100 * x.val + 0x10 * y.val + op.nibble.val)
    m' = { m with registers := m'.registers } ∧
    (∀ z, z ≠ x → z ≠ flagRegister → m'.reg z = m.reg z) ∧
    (x ≠ flagRegister → op.Accounts (m.reg x) (m.reg y) (m'.reg x) (m'.reg flagRegister)) ∧
    (x = flagRegister → ∃ r, op.Accounts (m.reg x) (m.reg y) r (m'.reg flagRegister)) := by
  intro m'
  have performed : m' = _ := (m.execute_arith op x y).trans (arith_of_allowed op allowed)
  have account := op.accounts_eval (m.reg x) (m.reg y)
  have flag : m'.reg flagRegister = (op.eval (m.reg x).toNat (m.reg y).toNat).2.toUInt8 := by
    rw [performed, reg_setRegister, if_pos rfl]
  refine ⟨by rw [performed]; rfl, fun z other flagless => ?_, fun other => ?_, fun _ => ⟨_, flag ▸ account⟩⟩
  · rw [performed, reg_setRegister, if_neg flagless.symm, reg_setRegister, if_neg other.symm]
  · have result : m'.reg x = UInt8.ofInt (op.eval (m.reg x).toNat (m.reg y).toNat).1 := by
      rw [performed, reg_setRegister, if_neg other.symm, reg_setRegister, if_pos rfl]
    rw [result, flag]
    exact account

/-- The flag register doubled on a lenient machine leaves the carry, and a strict machine subtracts with a borrow. -/
theorem doubled_flag_register_carries :
    let m : Machine := { Machine.initial ⟨0, 0⟩ false with registers := Bank.fill 0x90 }
    let s : Machine := { Machine.initial ⟨0, 0⟩ with registers := (Bank.fill 3).set 2 5 }
    (m.execute 0x8FF4).reg flagRegister = 1 ∧
      Arith.sub.Accounts 3 5 ((s.execute 0x8125).reg 1) ((s.execute 0x8125).reg flagRegister) := by
  intro m s
  obtain ⟨-, -, -, doubled⟩ := flag_arithmetic_accounts m .add flagRegister flagRegister (by simp [m, initial])
  obtain ⟨-, -, borrowed, -⟩ := flag_arithmetic_accounts s .sub 1 2 (by decide)
  obtain ⟨r, bit, sum⟩ := doubled rfl
  refine ⟨UInt8.toNat_inj.mp ?_, borrowed (by decide)⟩
  have sum : r.toNat + 256 * ((m.execute 0x8FF4).reg flagRegister).toNat = 0x90 + 0x90 := sum
  have := r.toNat_lt
  have : (1 : UInt8).toNat = 1 := rfl
  omega

end Machine
end Chip8
