/-! A clock is a sequence of readings, of which some have been taken. -/

namespace Chip8

structure Clock (α : Type) where
  reading : Nat → α
  taken : Nat := 0

namespace Clock

variable {α : Type}

def now (c : Clock α) : α :=
  c.reading c.taken

def advance (c : Clock α) : Clock α :=
  { c with taken := c.taken + 1 }

@[simp] theorem advance_reading (c : Clock α) : c.advance.reading = c.reading := rfl

@[simp] theorem advance_taken (c : Clock α) : c.advance.taken = c.taken + 1 := rfl

end Clock
end Chip8
