/-! Bitwise operations on integers. An integer is read as an infinite row of bits in two's complement, so that bit `k`
of `n` is the parity of `n / 2 ^ k`. A negative integer is the complement of a natural number. -/

namespace Chip8.TwosComplement

/-- The bits of `m` that `n` lacks. -/
def without (m n : Nat) : Nat :=
  m ^^^ (m &&& n)

def and : Int → Int → Int
  | .ofNat m, .ofNat n => .ofNat (m &&& n)
  | .ofNat m, .negSucc n => .ofNat (without m n)
  | .negSucc m, .ofNat n => .ofNat (without n m)
  | .negSucc m, .negSucc n => .negSucc (m ||| n)

def or : Int → Int → Int
  | .ofNat m, .ofNat n => .ofNat (m ||| n)
  | .ofNat m, .negSucc n => .negSucc (without n m)
  | .negSucc m, .ofNat n => .negSucc (without m n)
  | .negSucc m, .negSucc n => .negSucc (m &&& n)

def xor : Int → Int → Int
  | .ofNat m, .ofNat n => .ofNat (m ^^^ n)
  | .ofNat m, .negSucc n => .negSucc (m ^^^ n)
  | .negSucc m, .ofNat n => .negSucc (m ^^^ n)
  | .negSucc m, .negSucc n => .ofNat (m ^^^ n)

theorem and_natCast (m n : Nat) : and m n = ((m &&& n : Nat) : Int) := rfl

/-- The low bits of an integer are its residue. -/
theorem and_shiftLeft_sub_one (a : Int) (k : Nat) : and a (1 <<< k - 1 : Nat) = a % (1 <<< k : Nat) := by
  rw [Nat.one_shiftLeft]
  have pos : 0 < 2 ^ k := Nat.two_pow_pos k
  cases a with
  | ofNat m =>
    rw [Int.ofNat_eq_natCast, and_natCast, Nat.and_two_pow_sub_one_eq_mod]
    rfl
  | negSucc m =>
    -- They are the bits that the low bits of `m` lack.
    have low : without (2 ^ k - 1) m = 2 ^ k - (m % 2 ^ k + 1) := by
      apply Nat.eq_of_testBit_eq
      intro i
      rw [Nat.testBit_two_pow_sub_succ (Nat.mod_lt m pos), without, Nat.testBit_xor, Nat.testBit_and,
        Nat.testBit_two_pow_sub_one, Nat.testBit_mod_two_pow]
      cases decide (i < k) <;> cases m.testBit i <;> rfl
    have below : m % 2 ^ k < 2 ^ k := Nat.mod_lt m pos
    show ((without (2 ^ k - 1) m : Nat) : Int) = _
    rw [low, Int.negSucc_emod m (by exact_mod_cast pos)]
    omega

end Chip8.TwosComplement
