/-! Nibbles. Four bits: a field of an instruction word, the number of a register, of a key or of a stack slot. -/

namespace Chip8

abbrev Nibble := Fin 16

namespace Nibble

def ofNat (n : Nat) : Nibble :=
  ⟨n % 16, Nat.mod_lt n (by decide)⟩

@[simp] theorem ofNat_val (n : Nat) : (ofNat n).val = n % 16 := rfl

def zero : Nibble := ofNat 0

def ofInt? (n : Int) : Option Nibble :=
  if h : 0 ≤ n ∧ n < 16 then some ⟨n.toNat, by omega⟩ else none

def all : List Nibble :=
  List.finRange 16

end Nibble

/-- The register that receives carries, borrows, shifted-out bits and collisions. -/
def flagRegister : Nibble := Nibble.ofNat 15

end Chip8
