import Chip8.Bank
import Chip8.Nibble

/-! The call stack. Sixteen slots of return addresses and a pointer that counts the pending calls. The pointer may
leave the range of the slots: a push beyond the last slot is counted but not stored, and a pop from there reads the
last slot and clears nothing. -/

namespace Chip8

structure CallStack where
  data : Bank UInt16 16 := Bank.fill 0
  pointer : Int32 := 0
  deriving DecidableEq

namespace CallStack

def isFull (s : CallStack) : Bool :=
  decide (16 ≤ s.pointer.toInt)

def isEmpty (s : CallStack) : Bool :=
  decide (s.pointer.toInt ≤ 0)

/-- The slot that a pointer names: a negative one counts from the end. There is none outside
`-16` to `15`. -/
def slot? (p : Int) : Option Nibble :=
  Nibble.ofInt? (if p < 0 then p + 16 else p)

def put (data : Bank UInt16 16) (p : Int) (a : UInt16) : Bank UInt16 16 :=
  match slot? p with
  | some i => data.set i a
  | none => data

/-- Pushes the twelve low bits of an address. -/
def push (s : CallStack) (a : Int) : CallStack where
  data := put s.data s.pointer.toInt (UInt16.ofInt (a % 4096))
  pointer := s.pointer + 1

/-- Where a pop leaves the pointer: one lower, and not below zero. -/
def lowered (s : CallStack) : Int32 :=
  max (s.pointer - 1) 0

def top (s : CallStack) : UInt16 :=
  s.data.get ⟨min s.lowered.toInt.toNat 15, by omega⟩

def pop (s : CallStack) : CallStack where
  data := put s.data s.lowered.toInt 0
  pointer := s.lowered

end CallStack
end Chip8
