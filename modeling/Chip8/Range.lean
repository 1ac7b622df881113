import Chip8.Error
import Chip8.Random

/-! Numbers that must fit. Checked conversions of integers to a width, and the two operations that start with one:
naming the instruction of a word and making a key from a seed. -/

namespace Chip8

def fitInt32 (n : Int) : Except Error Int :=
  if -2147483648 ≤ n ∧ n ≤ 2147483647 then .ok n else .error .integerRange

def fitInt64 (n : Int) : Except Error Int :=
  if -9223372036854775808 ≤ n ∧ n ≤ 9223372036854775807 then .ok n else .error .integerRange

/-- An integer of sixty-four bits, with a sign or without, taken modulo 2^32 into thirty-two signed
bits. -/
def wrapInt32 (n : Int) : Except Error Int :=
  if -9223372036854775808 ≤ n ∧ n ≤ 18446744073709551615 then .ok (n.bmod 4294967296)
  else .error .integerRange

theorem fitInt32_eq_ok {n : Int} (low : -2147483648 ≤ n) (high : n ≤ 2147483647) :
    fitInt32 n = .ok n :=
  if_pos ⟨low, high⟩

theorem wrapInt32_eq_ok {n : Int} (low : -2147483648 ≤ n) (high : n ≤ 2147483647) :
    wrapInt32 n = .ok n := by
  rw [wrapInt32, if_pos (by omega), Int.bmod_eq_of_le (by omega) (by omega)]

def byte? (n : Int) : Option UInt8 :=
  if 0 ≤ n ∧ n ≤ 255 then some (UInt8.ofInt n) else none

theorem byte?_toNat (b : UInt8) : byte? b.toNat = some b := by
  have bound := b.toNat_lt
  have small : ((b.toNat : Int) % 2 ^ 8).toNat = b.toNat := by omega
  rw [byte?, if_pos (by omega), UInt8.ofInt, small, UInt8.ofNat_toNat]

def Instruction.identify (w : Int) : Except Error Instruction := do
  return decode (← fitInt32 w)

def Key.fromSeed (seed : Int) : Except Error Key := do
  return Key.ofSeed (← fitInt64 seed)

end Chip8
