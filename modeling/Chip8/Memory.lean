import Chip8.Bank

/-! Memory. A total read that stays on the last byte beyond the end, a read that gives zero there, and writes that are
lost there. -/

namespace Chip8

abbrev Memory := Bank UInt8 4096

namespace Memory

def zero : Memory :=
  Bank.fill 0

/-- The byte at `a`, or the last byte where `a` lies beyond it. -/
def read (m : Memory) (a : Nat) : UInt8 :=
  m.get ⟨min a 4095, by omega⟩

def readOrZero (m : Memory) (a : Nat) : UInt8 :=
  if h : a < 4096 then m.get ⟨a, h⟩ else 0

def write (m : Memory) (a : Nat) : List UInt8 → Memory
  | [] => m
  | b :: bs => write (m.setIfIn a b) (a + 1) bs

theorem read_eq_readOrZero (m : Memory) {a : Nat} (h : a < 4096) : read m a = readOrZero m a := by
  have : min a 4095 = a := by omega
  simp only [read, readOrZero, this, dif_pos h]

@[simp] theorem readOrZero_zero (a : Nat) : readOrZero zero a = 0 := by
  by_cases h : a < 4096 <;> simp [zero, readOrZero, h]

theorem readOrZero_setIfIn (m : Memory) (a k : Nat) (b : UInt8) :
    readOrZero (m.setIfIn a b) k = if k = a ∧ a < 4096 then b else readOrZero m k := by
  unfold readOrZero
  by_cases hk : k < 4096
  · by_cases ha : a = k
    · rw [dif_pos hk, Bank.get_setIfIn, if_pos ha, if_pos (by omega)]
    · rw [dif_pos hk, Bank.get_setIfIn, if_neg ha, if_neg (by omega), dif_pos hk]
  · rw [dif_neg hk, dif_neg hk, if_neg (by omega)]

theorem readOrZero_write (m : Memory) (a k : Nat) (bs : List UInt8) :
    readOrZero (write m a bs) k =
      if a ≤ k ∧ k < a + bs.length ∧ k < 4096 then bs.getD (k - a) 0 else readOrZero m k := by
  induction bs generalizing m a with
  | nil => rw [write, if_neg (by simp only [List.length_nil]; omega)]
  | cons b bs ih =>
    rw [write, ih, readOrZero_setIfIn, List.length_cons]
    by_cases first : k = a ∧ a < 4096
    · rw [if_neg (by omega), if_pos first, if_pos (by omega), first.1, Nat.sub_self]
      rfl
    · by_cases later : a + 1 ≤ k ∧ k < a + 1 + bs.length ∧ k < 4096
      · rw [if_pos later, if_pos (by omega), show k - a = k - (a + 1) + 1 by omega,
          List.getD_cons_succ]
      · rw [if_neg later, if_neg first, if_neg (by omega)]

theorem ext_readOrZero {m m' : Memory} (h : ∀ a < 4096, readOrZero m a = readOrZero m' a) :
    m = m' :=
  Bank.ext_get fun i => by
    have := h i.val i.isLt
    rwa [readOrZero, readOrZero, dif_pos i.isLt, dif_pos i.isLt] at this

end Memory
end Chip8
