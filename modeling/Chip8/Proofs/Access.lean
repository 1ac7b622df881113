import Chip8.Machine.Cycle

/-! The step of a machine with each access to a cell of a bank put through an `Accesses`, which says what
becomes of a number that no cell has: `Accesses.lenient` goes on with another cell or with none, as the machine
does, and `Accesses.checked` gives up. -/

namespace Chip8

namespace Bank

variable {α : Type} {n : Nat}

class HasCells (n : Nat) : Prop where
  pos : 0 < n

instance : HasCells 16 := ⟨by decide⟩

instance : HasCells 4096 := ⟨by decide⟩

def fromEnd (n : Nat) (i : Int) : Int :=
  if i < 0 then i + n else i

def cell? (n : Nat) (i : Int) : Option (Fin n) :=
  if h : 0 ≤ i ∧ i < n then some ⟨i.toNat, by omega⟩ else none

/-- The cell with a number, or the first or last one where the number lies beyond it. -/
def nearest [HasCells n] (b : Bank α n) (i : Int) : α :=
  b.get ⟨(min (max (fromEnd n i) 0) (n - 1)).toNat, by have := HasCells.pos (n := n); omega⟩

def orZero (b : Bank UInt8 n) (i : Int) : UInt8 :=
  match cell? n (fromEnd n i) with
  | some k => b.get k
  | none => 0

def replace (b : Bank α n) (i : Int) (a : α) : Bank α n :=
  match cell? n (fromEnd n i) with
  | some k => b.set k a
  | none => b

theorem cell?_eq_some {i : Int} (low : 0 ≤ i) (high : i < n) :
    cell? n i = some ⟨i.toNat, by omega⟩ :=
  dif_pos ⟨low, high⟩

theorem fromEnd_natCast (k : Nat) : fromEnd n k = k :=
  if_neg (by omega)

theorem nearest_natCast [HasCells n] (b : Bank α n) (k : Nat) :
    b.nearest k = b.get ⟨min k (n - 1), by have := HasCells.pos (n := n); omega⟩ := by
  have pos := HasCells.pos (n := n)
  simp only [nearest, fromEnd_natCast]
  congr 2
  omega

theorem replace_natCast (b : Bank α n) (k : Nat) (a : α) : b.replace k a = b.setIfIn k a := by
  rw [replace, fromEnd_natCast, setIfIn]
  by_cases inside : k < n
  · rw [cell?_eq_some (by omega) (by omega), dif_pos inside]
    rfl
  · rw [cell?, dif_neg (by omega), dif_neg inside]

end Bank

theorem Memory.nearest_natCast (memory : Memory) (a : Nat) : memory.nearest a = memory.read a :=
  Bank.nearest_natCast memory a

theorem Memory.orZero_natCast (memory : Memory) (a : Nat) :
    memory.orZero a = memory.readOrZero a := by
  rw [Bank.orZero, Bank.fromEnd_natCast, Memory.readOrZero]
  by_cases inside : a < 4096
  · rw [Bank.cell?_eq_some (by omega) (by omega), dif_pos inside]
    rfl
  · rw [Bank.cell?, dif_neg (by omega), dif_neg inside]

theorem CallStack.replace_eq_put (data : Bank UInt16 16) (p : Int) (a : UInt16) :
    data.replace p a = put data p a := by
  have cell : slot? p = Bank.cell? 16 (Bank.fromEnd 16 p) := rfl
  rw [Bank.replace, put, cell]
  cases Bank.cell? 16 (Bank.fromEnd 16 p) <;> rfl

/-- How the cells of a bank are read and written by number. -/
structure Accesses (f : Type → Type) where
  read {α : Type} {n : Nat} [Bank.HasCells n] : Bank α n → Int → f α
  /-- A read for which a missing cell may hold zero. -/
  readOrZero {n : Nat} : Bank UInt8 n → Int → f UInt8
  write {α : Type} {n : Nat} : Bank α n → Int → α → f (Bank α n)

namespace Accesses

variable {f : Type → Type} [Monad f]

/-- A read goes to the nearest cell, and a write to a missing cell is lost. -/
def lenient : Accesses f where
  read b i := pure (b.nearest i)
  readOrZero b i := pure (b.orZero i)
  write b i a := pure (b.replace i a)

/-- Nothing is given for a missing cell. -/
def checked : Accesses Option where
  read {_ n} _ b i := (Bank.cell? n i).map b.get
  readOrZero {n} b i := (Bank.cell? n i).map b.get
  write {_ n} b i a := (Bank.cell? n i).map (b.set · a)

/-- `d` does at a number of a bank with `n` cells what the machine does there. -/
structure At (d : Accesses f) (n : Nat) (i : Int) : Prop where
  read : ∀ {α : Type} [Bank.HasCells n] (b : Bank α n), d.read b i = pure (b.nearest i)
  readOrZero : ∀ b : Bank UInt8 n, d.readOrZero b i = pure (b.orZero i)
  write : ∀ {α : Type} (b : Bank α n) (a : α), d.write b i a = pure (b.replace i a)

def Sound (d : Accesses f) : Prop :=
  ∀ (n : Nat) (k : Fin n), d.At n k.val

theorem lenient_at (n : Nat) (i : Int) : (lenient : Accesses f).At n i where
  read _ := rfl
  readOrZero _ := rfl
  write _ _ := rfl

theorem checked_at {n : Nat} {i : Int} (low : 0 ≤ i) (high : i < n) : checked.At n i := by
  obtain ⟨k, rfl⟩ := Int.eq_ofNat_of_zero_le low
  have inside : k < n := Int.ofNat_lt.mp high
  have cell : Bank.cell? n k = some ⟨k, inside⟩ := Bank.cell?_eq_some low high
  constructor
  case read =>
    intro α _ b
    have same : min k (n - 1) = k := by omega
    simp only [checked, cell, Bank.nearest_natCast, same]
    rfl
  case readOrZero =>
    intro b
    simp only [checked, cell, Bank.orZero, Bank.fromEnd_natCast]
    rfl
  case write =>
    intro α b a
    simp only [checked, cell, Bank.replace, Bank.fromEnd_natCast]
    rfl

theorem checked_sound : checked.Sound :=
  fun _ k => checked_at (by omega) (by omega)

theorem lenient_sound : (lenient : Accesses f).Sound :=
  fun n k => lenient_at n k.val

variable {d : Accesses f}

namespace Sound

theorem read (sound : d.Sound) {α : Type} {n : Nat} [Bank.HasCells n] (b : Bank α n) (k : Fin n) :
    d.read b k.val = pure (b.get k) := by
  have same : min k.val (n - 1) = k.val := by omega
  rw [(sound n k).read, Bank.nearest_natCast]
  simp only [same]

theorem write (sound : d.Sound) {α : Type} {n : Nat} (b : Bank α n) (k : Fin n) (a : α) :
    d.write b k.val a = pure (b.set k a) := by
  rw [(sound n k).write, Bank.replace_natCast, Bank.setIfIn, dif_pos k.isLt]

end Sound

def Covers (d : Accesses f) (a n : Nat) : Prop :=
  ∀ k < n, d.At 4096 (a + k : Nat)

namespace Covers

variable {a n : Nat}

theorem first (covers : d.Covers a (n + 1)) : d.At 4096 a :=
  covers 0 (Nat.succ_pos n)

theorem rest (covers : d.Covers a (n + 1)) : d.Covers (a + 1) n := by
  intro k small
  rw [Nat.add_right_comm]
  exact covers (k + 1) (Nat.succ_lt_succ small)

theorem lenient (a n : Nat) : (Accesses.lenient : Accesses f).Covers a n :=
  fun _ _ => Accesses.lenient_at _ _

theorem checked (inside : a + n ≤ 4096) : Accesses.checked.Covers a n :=
  fun k small => Accesses.checked_at (by omega) (by omega)

end Covers

end Accesses

/-- The screen with a byte for each of its rows, of which those from row `top` on are lit from column `left`
on. -/
def Bitmap.ofRowBytes (bytes : List UInt8) (left top rows : Nat) : Display :=
  Bitmap.ofFn fun x y =>
    (left ≤ x.val && x.val < left + 8 && top ≤ y.val && y.val < top + rows) &&
      (bytes.getD y.val 0).toNat.testBit (7 - (x.val - left))

section Through

variable {f : Type → Type} [Monad f] (d : Accesses f)

def Memory.readThrough (memory : Memory) (a : Nat) : Nat → f (List UInt8)
  | 0 => pure []
  | n + 1 => do return (← d.readOrZero memory a) :: (← Memory.readThrough memory (a + 1) n)

def Memory.writeThrough (memory : Memory) (a : Nat) : List UInt8 → f Memory
  | [] => pure memory
  | b :: bs => do Memory.writeThrough (← d.write memory a b) (a + 1) bs

namespace Machine

variable (m : Machine)

def regThrough (x : Nibble) : f UInt8 :=
  d.read m.registers x.val

def setRegisterThrough (x : Nibble) (b : UInt8) : f Machine := do
  return { m with registers := ← d.write m.registers x.val b }

def currentWordThrough : f UInt16 := do
  let high ← d.read m.memory m.pc.toNat
  let low ← d.read m.memory ((m.pc.toNat + 1) % 4096 : Nat)
  return high.toUInt16 * 256 + low.toUInt16

def callThrough (a : Fin 4096) : f Machine := do
  let data ← d.write m.stack.data m.stack.pointer.toInt (UInt16.ofInt (m.pc.toNat % 4096))
  let m := m.failIf m.stack.isFull .stackOverflow
  return { m with stack := { data := data, pointer := m.stack.pointer + 1 } }.jump a

def retThrough : f Machine := do
  let top ← d.read m.stack.data m.stack.lowered.toInt
  let data ← d.write m.stack.data m.stack.lowered.toInt 0
  return { m.failIf m.stack.isEmpty .stackUnderflow with
    pc := top, stack := { data := data, pointer := m.stack.lowered } }

def jumpOffsetThrough (a : Fin 4096) : f Machine := do
  let t := a.val + (← m.regThrough d Nibble.zero).toNat
  return { m.failIf (t < programStart || addressMask < t) .invalidJumpTarget with
    pc := UInt16.ofNat (t % 4096) }

def skipIfKeyThrough (x : Nibble) (down : Bool) : f Machine := do
  let key ← m.regThrough d x
  let state ← d.read m.keypad (key.toNat % 16 : Nat)
  return (m.failIf (15 < key) .invalidRegisterValue).skipIf (state == down)

def arithThrough (op : Arith) (x y : Nibble) : f Machine := do
  let m := m.failIf (m.strict && (x == flagRegister || y == flagRegister)) .flagRegisterOperand
  let r := op.eval (← m.regThrough d x).toNat (← m.regThrough d y).toNat
  (← m.setRegisterThrough d x (UInt8.ofInt r.1)).setRegisterThrough d flagRegister r.2.toUInt8

/-- The bytes of a sprite whose corner is in row `top`. One is read for each row of the screen, also for the
rows above the sprite and below it. -/
def rowBytesThrough (top : Nat) : f (List UInt8) :=
  (List.range 32).mapM fun row =>
    d.read m.memory ((m.index.toNat + min (row - top) 15) % 4096 : Nat)

def spriteThrough (x y rows : Nibble) : f Display := do
  let left ← m.regThrough d x
  let top ← m.regThrough d y
  let bytes ← m.rowBytesThrough d (top.toNat % 32)
  return Bitmap.ofRowBytes bytes (left.toNat % 64) (top.toNat % 32) rows.val

def drawThrough (x y rows : Nibble) : f Machine := do
  let s ← m.spriteThrough d x y rows
  let m' ← m.setRegisterThrough d flagRegister (m.display.overlaps s).toUInt8
  return m'.paint (m.display.xor s)

def storeDecimalThrough (x : Nibble) : f Machine := do
  let value ← m.regThrough d x
  let memory ← m.memory.writeThrough d m.index.toNat (decimalDigits value)
  return { m.failIf (outsideProgram m.index.toNat 2) .addressOutOfRange with memory := memory }

/-- The bytes of the sixteen lanes of a transfer: those up to `x` and those behind it, which are masked and
are not checked. -/
def lanesThrough (x : Nibble) : f (List UInt8 × List UInt8) := do
  let used ← m.memory.readThrough d m.index.toNat (x.val + 1)
  let masked ← m.memory.readThrough Accesses.lenient (m.index.toNat + (x.val + 1)) (15 - x.val)
  return (used, masked)

/-- The masked lanes put back what they hold. -/
def storeRegistersThrough (x : Nibble) : f Machine := do
  let lanes ← m.lanesThrough d x
  let stored ← m.memory.writeThrough d m.index.toNat (m.registers.toList.take (x.val + 1))
  let memory ← stored.writeThrough Accesses.lenient (m.index.toNat + (x.val + 1)) lanes.2
  return { m.failIf (outsideProgram m.index.toNat x.val) .addressOutOfRange with memory := memory }

def loadRegistersThrough (x : Nibble) : f Machine := do
  let lanes ← m.lanesThrough d x
  return { m.failIf (addressMask < m.index.toNat + x.val) .addressOverflow with
    registers := Bank.ofFn fun i => if i ≤ x then lanes.1.getD i.val 0 else m.reg i }

def waitKeyThrough (x : Nibble) : f Machine :=
  match m.pressedKey? with
  | some k => m.setRegisterThrough d x (UInt8.ofNat k.val)
  | none => pure (m.waitKey x)

def performThrough : Instruction → f Machine
  | .ret => m.retThrough d
  | .call a => m.callThrough d a
  | .seByte x b => return m.skipIf ((← m.regThrough d x) == b)
  | .sneByte x b => return m.skipIf ((← m.regThrough d x) != b)
  | .seReg x y => return m.skipIf ((← m.regThrough d x) == (← m.regThrough d y))
  | .sneReg x y => return m.skipIf ((← m.regThrough d x) != (← m.regThrough d y))
  | .ldByte x b => m.setRegisterThrough d x b
  | .addByte x b => do m.setRegisterThrough d x ((← m.regThrough d x) + b)
  | .logic op x y => do
    let result := op.eval (← m.regThrough d x).toNat (← m.regThrough d y).toNat
    m.setRegisterThrough d x (UInt8.ofInt result)
  | .arith op x y => m.arithThrough d op x y
  | .jpOffset a => m.jumpOffsetThrough d a
  | .rnd x mask => do
    return { ← m.setRegisterThrough d x (m.key.sub.byte &&& mask) with key := m.key.next }
  | .drw x y rows => m.drawThrough d x y rows
  | .skp x => m.skipIfKeyThrough d x true
  | .sknp x => m.skipIfKeyThrough d x false
  | .getDelay x => m.setRegisterThrough d x m.delayTimer
  | .waitKey x => m.waitKeyThrough d x
  | .setDelay x => return { m with delayTimer := ← m.regThrough d x }
  | .setSound x => return { m with soundTimer := ← m.regThrough d x }
  | .addIndex x => do
    let a := m.index.toNat + (← m.regThrough d x).toNat
    return { m.failIf (addressMask < a) .addressOverflow with index := UInt16.ofNat (a % 4096) }
  | .ldGlyph x => do
    let digit ← m.regThrough d x
    return { m.failIf (15 < digit) .invalidRegisterValue with
      index := UInt16.ofNat (fontStart + digit.toNat % 16 * glyphSize) }
  | .storeDecimal x => m.storeDecimalThrough d x
  | .storeRegisters x => m.storeRegistersThrough d x
  | .loadRegisters x => m.loadRegistersThrough d x
  -- The other instructions read and write no cell by number.
  | i => pure (m.perform i)

def cycleThrough : f Machine := do
  let word ← m.currentWordThrough d
  let e ← m.advance.performThrough d (Instruction.decode word.toNat)
  return if e.error = 0 then e else { m with error := e.error }

def resumeThrough : f Machine :=
  match m.pressedKey? with
  | some k => do
    return { m with
      registers := ← d.write m.registers m.keyRegister.toNat (UInt8.ofNat k.val)
      pc := following m.pc
      awaitingKey := false }
  | none => pure m

def stepThrough : f Machine :=
  if m.error ≠ 0 then pure m
  else if m.awaitingKey then m.resumeThrough d
  else m.cycleThrough d

end Machine
end Through
end Chip8
