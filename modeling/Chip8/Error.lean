import Chip8.Fault
import Chip8.Layout

/-! Errors. Why a call on the library is refused. `Error.message` has the wording of each. -/

namespace Chip8

inductive Error where
  /-- A number does not fit the width it is given. -/
  | integerRange
  /-- A program has an entry that is not a byte. -/
  | byteRange
  | programTooLarge (size : Nat)
  /-- There is no file with the program. -/
  | missingFile
  | keypadShape (shape : List Nat)
  /-- Key states are nested more deeply than an array can be. -/
  | keypadNesting
  | noSuchKey (key : Int)
  | unknownFaultCode (code : Int)
  | fault (report : FaultReport)
  | scale (scale : Int)
  /-- The length of a side comes out negative where it is counted. -/
  | negativeSide
  /-- The bytes of an image cannot be counted. -/
  | imageTooLarge
  /-- A side of a grid cannot be counted. -/
  | gridTooLarge
  | displayShape (shape : List Nat)
  /-- A display has more dimensions than an array can have. -/
  | displayRank (rank : Nat)
  | unknownScheme (name : String) (known : List String)
  /-- A grid of no displays has no rows. -/
  | emptyGrid
  deriving DecidableEq, Repr

namespace Error

def quoted (names : List String) : String :=
  "[" ++ String.intercalate ", " (names.map fun n => "'" ++ n ++ "'") ++ "]"

def message : Error → String
  | integerRange => "integer out of range"
  | byteRange => "bytes must be in range(0, 256)"
  | programTooLarge size =>
    "Program is " ++ toString size ++ " bytes, at most " ++ toString programCapacity
      ++ " fit at 0x" ++ Numeral.hex 3 programStart
  | missingFile => "no such file"
  | keypadShape shape =>
    "Keypad state must have exactly " ++ toString keyCount ++ " entries, got shape "
      ++ Numeral.sizes shape
  | keypadNesting =>
    "setting an array element with a sequence. The requested array would exceed the maximum number of "
      ++ "dimension of " ++ toString dimensionLimit ++ "."
  | noSuchKey key => "Key must be between 0x0 and 0xF, got " ++ toString key
  | unknownFaultCode code => toString code ++ " is not a valid ErrorCode"
  | fault report => report.text
  | scale s => "Scale must be a positive integer, got " ++ toString s
  | negativeSide => "negative dimensions are not allowed"
  | imageTooLarge =>
    "array is too big; `arr.size * arr.dtype.itemsize` is larger than the maximum possible size."
  | gridTooLarge => "Maximum allowed dimension exceeded"
  | displayRank rank =>
    "maximum supported dimension for an ndarray is currently " ++ toString dimensionLimit ++ ", found "
      ++ toString rank
  | displayShape shape =>
    "Expected display shape " ++ Numeral.sizes [screenWidth, screenHeight] ++ ", got "
      ++ Numeral.sizes shape
  | unknownScheme name known =>
    "Unknown color scheme '" ++ name ++ "'. Available: " ++ quoted known
  | emptyGrid => "division by zero"

end Error

/-- The fault that a code records, or none for zero. -/
def Fault.recorded (code : Int) : Except Error (Option Fault) :=
  if code = 0 then .ok none
  else match Fault.ofCode? code with
    | some f => .ok (some f)
    | none => .error (.unknownFaultCode code)

theorem Fault.recorded_code (f : Fault) : Fault.recorded f.code.toNat = .ok (some f) := by
  cases f <;> rfl

end Chip8
