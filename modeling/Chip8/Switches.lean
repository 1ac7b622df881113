import Chip8.Bitmap
import Chip8.Error

/-! Switches. On/off values as a host hands them in: an array of any number of dimensions. Only an array of the right
shape becomes a keypad or a display. -/

namespace Chip8

/-- The keys, `true` where one is down. -/
abbrev Keypad := Bank Bool 16

structure Switches where
  /-- The size of each dimension. A single value has none. -/
  shape : List Nat
  /-- The values, the last dimension running fastest. -/
  value : Nat → Bool

namespace Switches

def toKeypad (s : Switches) : Except Error Keypad :=
  if s.shape = [keyCount] then .ok (Bank.ofFn fun i => s.value i.val)
  else if dimensionLimit < s.shape.length then .error .keypadNesting
  else .error (.keypadShape s.shape)

def toDisplay (s : Switches) : Except Error Display :=
  if s.shape = [screenWidth, screenHeight] then
    .ok (Bitmap.ofFn fun x y => s.value (x.val * screenHeight + y.val))
  else if dimensionLimit < s.shape.length then .error (.displayRank s.shape.length)
  else .error (.displayShape s.shape)

end Switches
end Chip8
