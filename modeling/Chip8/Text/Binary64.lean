import Chip8.Text.Numeral

/-! Floating-point numbers in text. Sixty-four bits are a sign, an exponent of eleven bits and a fraction of
fifty-two. Every finite number is a multiple of the least positive one, so it is decoded exactly, and its text is that
of the exact value rounded once. -/

namespace Chip8

inductive Binary64 where
  /-- A sign and the size in units of the least positive number. -/
  | finite (negative : Bool) (units : Nat)
  | infinite (negative : Bool)
  | nan
  deriving DecidableEq, Repr

namespace Binary64

/-- How many units make one. -/
def unitsPerOne : Nat := 1 <<< 1074

def ofFields (negative : Bool) (exponent fraction : Nat) : Binary64 :=
  if exponent = 2047 then if fraction = 0 then .infinite negative else .nan
  else if exponent = 0 then .finite negative fraction
  else .finite negative (((1 <<< 52) + fraction) <<< (exponent - 1))

def ofBits (bits : UInt64) : Binary64 :=
  ofFields (bits >>> 63 = 1) (bits >>> 52 &&& 0x7FF).toNat (bits &&& 0xFFFFFFFFFFFFF).toNat

def hundredths : Binary64 → String
  | finite negative units => Numeral.hundredths negative units unitsPerOne
  | infinite negative => if negative then "-inf" else "inf"
  | nan => "nan"

end Binary64
end Chip8
