import Chip8.Nibble

/-! Numerals. The number formats of messages and mnemonics: upper-case hexadecimal, decimal in groups of three, and
decimal with two places. -/

namespace Chip8.Numeral

def hexDigit (d : Nibble) : Char :=
  (Nat.digitChar d.val).toUpper

/-- The hexadecimal digits of a natural number, without leading zeros. -/
def hexDigits (n : Nat) : List Char :=
  (Nat.toDigits 16 n).map Char.toUpper

/-- Hexadecimal padded with zeros to `width` characters. A minus sign counts as one of them. -/
def hex (width : Nat) (n : Int) : String :=
  let sign := if n < 0 then ['-'] else []
  let digits := hexDigits n.natAbs
  String.ofList (sign ++ List.replicate (width - sign.length - digits.length) '0' ++ digits)

def nibble (d : Nibble) : String :=
  String.ofList [hexDigit d]

def byte (b : UInt8) : String :=
  String.ofList [hexDigit (Nibble.ofNat (b.toNat / 16)), hexDigit (Nibble.ofNat b.toNat)]

def address (a : Fin 4096) : String :=
  String.ofList [hexDigit (Nibble.ofNat (a.val / 256)), hexDigit (Nibble.ofNat (a.val / 16)),
    hexDigit (Nibble.ofNat a.val)]

def word (w : UInt16) : String :=
  String.ofList [hexDigit (Nibble.ofNat (w.toNat / 4096)), hexDigit (Nibble.ofNat (w.toNat / 256)),
    hexDigit (Nibble.ofNat (w.toNat / 16)), hexDigit (Nibble.ofNat w.toNat)]

/-- Puts a comma after every third digit that another digit follows; the lowest digit comes first. -/
def groupThrees : List Char → List Char
  | a :: b :: c :: d :: rest => a :: b :: c :: ',' :: groupThrees (d :: rest)
  | digits => digits

def grouped (n : Int) : String :=
  let sign := if n < 0 then ['-'] else []
  String.ofList (sign ++ (groupThrees (Nat.toDigits 10 n.natAbs).reverse).reverse)

/-- The quotient rounded to the nearest natural number, a half going to the even neighbour. -/
def roundDiv (n d : Nat) : Nat :=
  let q := n / d
  let r := n % d
  if 2 * r < d then q
  else if d < 2 * r then q + 1
  else if q % 2 = 0 then q else q + 1

/-- The rounded quotient is within half a unit of the exact one. -/
theorem roundDiv_near (n : Nat) {d : Nat} (h : 0 < d) :
    2 * (d * roundDiv n d) ≤ 2 * n + d ∧ 2 * n ≤ 2 * (d * roundDiv n d) + d := by
  have split := Nat.div_add_mod n d
  have small := Nat.mod_lt n h
  have up : d * (n / d + 1) = d * (n / d) + d := Nat.mul_succ d (n / d)
  simp only [roundDiv]
  generalize n / d = q at *
  generalize n % d = r at *
  split
  · omega
  · split
    · rw [up]; omega
    · split
      · omega
      · rw [up]; omega

/-- The fraction `n / d` with a sign in decimal with two places. A negative fraction keeps its sign even
where it rounds to zero. -/
def hundredths (negative : Bool) (n d : Nat) : String :=
  let h := roundDiv (n * 100) d
  let places := if h % 100 < 10 then "0" ++ toString (h % 100) else toString (h % 100)
  (if negative then "-" else "") ++ toString (h / 100) ++ "." ++ places

def alignRight (width : Nat) (s : String) : String :=
  String.ofList (List.replicate (width - s.length) ' ') ++ s

/-- A list of sizes in round brackets. A single size is followed by a comma. -/
def sizes : List Nat → String
  | [n] => "(" ++ toString n ++ ",)"
  | ns => "(" ++ String.intercalate ", " (ns.map toString) ++ ")"

end Chip8.Numeral
