import Chip8.Instruction.Mnemonic

/-! Faults. The causes for which a running program halts, the byte that records each of them on the machine, and the
report of a fault to a host. The byte zero stands for no fault; it has a name and a description as well, so that a
report can be made without a cause. -/

namespace Chip8

inductive Fault where
  | illegalInstruction
  | stackOverflow
  | stackUnderflow
  | invalidJumpTarget
  | addressOutOfRange
  | addressOverflow
  | invalidRegisterValue
  | flagRegisterOperand
  deriving DecidableEq, Repr

namespace Fault

def code : Fault → UInt8
  | illegalInstruction => 1
  | stackOverflow => 2
  | stackUnderflow => 3
  | invalidJumpTarget => 4
  | addressOutOfRange => 5
  | addressOverflow => 6
  | invalidRegisterValue => 7
  | flagRegisterOperand => 8

def all : List Fault :=
  [illegalInstruction, stackOverflow, stackUnderflow, invalidJumpTarget, addressOutOfRange,
   addressOverflow, invalidRegisterValue, flagRegisterOperand]

theorem code_ne_zero (f : Fault) : f.code ≠ 0 := by
  cases f <;> decide

def ofCode? (c : Int) : Option Fault :=
  all.find? fun f => f.code.toNat = c

def name : Fault → String
  | illegalInstruction => "ILLEGAL_INSTRUCTION"
  | stackOverflow => "STACK_OVERFLOW"
  | stackUnderflow => "STACK_UNDERFLOW"
  | invalidJumpTarget => "INVALID_JUMP_TARGET"
  | addressOutOfRange => "ADDRESS_OUT_OF_RANGE"
  | addressOverflow => "ADDRESS_OVERFLOW"
  | invalidRegisterValue => "INVALID_REGISTER_VALUE"
  | flagRegisterOperand => "FLAG_REGISTER_OPERAND"

def description : Fault → String
  | illegalInstruction => "illegal instruction"
  | stackOverflow => "call stack is full"
  | stackUnderflow => "return with an empty call stack"
  | invalidJumpTarget => "illegal jump target"
  | addressOutOfRange => "memory access outside program region"
  | addressOverflow => "address exceeds 0xFFF"
  | invalidRegisterValue => "register value above 0xF"
  | flagRegisterOperand => "VF used as operand of a flag-producing instruction"

/-- The more general fault that a fault is a case of. -/
def parent? : Fault → Option Fault
  | flagRegisterOperand => some illegalInstruction
  | _ => none

def nameOf : Option Fault → String
  | some f => f.name
  | none => "NONE"

def codeOf : Option Fault → UInt8
  | some f => f.code
  | none => 0

def descriptionOf : Option Fault → String
  | some f => f.description
  | none => "machine fault"

end Fault

/-- What a host is told of a fault: the cause, where it arose, and the word that was fetched there. -/
structure FaultReport where
  cause : Option Fault
  pc : Int
  word : Int
  /-- A text that takes the place of the usual one, unless it is empty. -/
  note : String := ""
  deriving DecidableEq, Repr

def FaultReport.text (r : FaultReport) : String :=
  if r.note = "" then
    Fault.descriptionOf r.cause ++ " at 0x" ++ Numeral.hex 3 r.pc ++ ": "
      ++ Instruction.disassemble r.word ++ " (0x" ++ Numeral.hex 4 r.word ++ ")"
  else r.note

end Chip8
