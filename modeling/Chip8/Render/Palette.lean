import Chip8.Range

/-! Colours and colour schemes. -/

namespace Chip8

structure Rgb where
  red : UInt8
  green : UInt8
  blue : UInt8
  deriving DecidableEq, Repr

structure Rgba where
  red : UInt8
  green : UInt8
  blue : UInt8
  alpha : UInt8
  deriving DecidableEq, Repr

namespace Rgb

def ofInts (red green blue : Int) : Except Error Rgb :=
  match byte? red, byte? green, byte? blue with
  | some r, some g, some b => .ok ⟨r, g, b⟩
  | _, _, _ => .error .integerRange

def components (c : Rgb) : Int × Int × Int :=
  (c.red.toNat, c.green.toNat, c.blue.toNat)

theorem ofInts_components (c : Rgb) :
    ofInts c.components.1 c.components.2.1 c.components.2.2 = .ok c := by
  simp only [ofInts, components, byte?_toNat]

def solid (c : Rgb) : Rgba :=
  ⟨c.red, c.green, c.blue, 255⟩

end Rgb

def Rgba.clear : Rgba := ⟨0, 0, 0, 0⟩

structure Palette where
  on : Rgb
  off : Rgb
  deriving DecidableEq, Repr

namespace Palette

def colour (p : Palette) (lit : Bool) : Rgb :=
  if lit then p.on else p.off

def schemes : List (String × Palette) :=
  [("classic", ⟨⟨0, 255, 0⟩, ⟨0, 0, 0⟩⟩),
   ("amber", ⟨⟨255, 176, 0⟩, ⟨0, 0, 0⟩⟩),
   ("white", ⟨⟨255, 255, 255⟩, ⟨0, 0, 0⟩⟩),
   ("blue", ⟨⟨0, 255, 255⟩, ⟨0, 0, 64⟩⟩),
   ("retro", ⟨⟨255, 255, 0⟩, ⟨64, 0, 64⟩⟩)]

def defaultScheme : String := "classic"

def ofScheme (name : String := defaultScheme) : Except Error Palette :=
  match schemes.lookup name with
  | some p => .ok p
  | none => .error (.unknownScheme name (schemes.map Prod.fst))

end Palette
end Chip8
