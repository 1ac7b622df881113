import Chip8.Logger
import Chip8.Machine

/-! Reports. What a host has to say to a logger: each report has a level and a text. -/

namespace Chip8

inductive Report where
  /-- A program was loaded, from a named source or from none. -/
  | loaded (size : Int) (source : Option String)
  | reset
  | fault (pc word : Int) (reason : String)
  /-- The registers of a machine. -/
  | registers (m : Machine)
  | soundOn (ticks : UInt8)
  | soundOff

namespace Report

def level : Report → String
  | loaded .. => "INFO"
  | reset => "INFO"
  | fault .. => "ERROR"
  | registers _ => "DEBUG"
  | soundOn _ => "DEBUG"
  | soundOff => "DEBUG"

def registerText (m : Machine) (x : Nibble) : String :=
  "V" ++ Numeral.nibble x ++ "=" ++ Numeral.byte (m.reg x)

def registersText (m : Machine) : String :=
  "PC=0x" ++ Numeral.hex 3 m.pc.toNat ++ " I=0x" ++ Numeral.hex 3 m.index.toNat
    ++ " SP=" ++ toString m.stack.pointer.toInt ++ " DT=" ++ toString m.delayTimer.toNat
    ++ " ST=" ++ toString m.soundTimer.toNat ++ " "
    ++ String.intercalate " " (Nibble.all.map (registerText m))

def text : Report → String
  | loaded size source =>
    let origin := match source with
      | some s => if s = "" then "" else " from " ++ s
      | none => ""
    "Loaded " ++ toString size ++ " bytes" ++ origin
  | reset => "Machine reset"
  | fault pc word reason =>
    "Fault at 0x" ++ Numeral.hex 3 pc ++ " [" ++ Numeral.hex 4 word ++ "] "
      ++ Instruction.disassemble word ++ ": " ++ reason
  | registers m => registersText m
  | soundOn ticks => "Sound on for " ++ toString ticks.toNat ++ " ticks"
  | soundOff => "Sound off"

end Report
end Chip8
