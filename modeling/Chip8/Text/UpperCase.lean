import Chip8.Text.CaseTable

/-! Upper case. The upper case of a text, character by character. It may be longer than the text. -/

namespace Chip8

namespace CaseRun

def has (r : CaseRun) (c : Nat) : Bool :=
  r.first ≤ c && c ≤ r.last && (c - r.first) % r.stride = 0

end CaseRun

/-- The upper case of a character: the character itself where the tables have nothing else. -/
def upperChar (c : Char) : List Char :=
  match caseRuns.find? (·.has c.toNat) with
  | some r => [Char.ofNat (c.toNat + r.shift).toNat]
  | none =>
    match caseExpansions.lookup c.toNat with
    | some cs => cs.map Char.ofNat
    | none => [c]

def upperCase (s : String) : String :=
  String.ofList (s.toList.flatMap upperChar)

end Chip8
