/-! Sizes and the memory map. The machine has `memorySize` bytes. The glyph table lies at the bottom, and the program
region runs from `programStart` to the last byte. -/

namespace Chip8

abbrev memorySize : Nat := 4096

abbrev addressMask : Nat := 0xFFF

abbrev fontStart : Nat := 0x000

abbrev programStart : Nat := 0x200

abbrev programCapacity : Nat := 3584

abbrev screenWidth : Nat := 64

abbrev screenHeight : Nat := 32

abbrev registerCount : Nat := 16

abbrev keyCount : Nat := 16

abbrev stackSize : Nat := 16

abbrev dimensionLimit : Nat := 64

abbrev timerFrequency : Nat := 60

abbrev glyphSize : Nat := 5

/-- The shapes of the hexadecimal digits, one byte a row, the highest bit being the leftmost pixel. -/
def glyphs : List UInt8 :=
  [0xF0, 0x90, 0x90, 0x90, 0xF0,
   0x20, 0x60, 0x20, 0x20, 0x70,
   0xF0, 0x10, 0xF0, 0x80, 0xF0,
   0xF0, 0x10, 0xF0, 0x10, 0xF0,
   0x90, 0x90, 0xF0, 0x10, 0x10,
   0xF0, 0x80, 0xF0, 0x10, 0xF0,
   0xF0, 0x80, 0xF0, 0x90, 0xF0,
   0xF0, 0x10, 0x20, 0x40, 0x40,
   0xF0, 0x90, 0xF0, 0x90, 0xF0,
   0xF0, 0x90, 0xF0, 0x10, 0xF0,
   0xF0, 0x90, 0xF0, 0x90, 0x90,
   0xE0, 0x90, 0xE0, 0x90, 0xE0,
   0xF0, 0x80, 0x80, 0x80, 0xF0,
   0xE0, 0x90, 0x90, 0x90, 0xE0,
   0xF0, 0x80, 0xF0, 0x80, 0xF0,
   0xF0, 0x80, 0xF0, 0x80, 0x80]

theorem glyphs_length : glyphs.length = keyCount * glyphSize := rfl

end Chip8
