import Chip8.Clock
import Chip8.Text.Binary64
import Chip8.Text.UpperCase

/-! The console logger. A line is written if its level is at least as severe as the logger's threshold. Levels are
compared by name in any case; an unknown name counts as `INFO`. Time is measured in seconds from the reading that the
logger takes when it is opened. -/

namespace Chip8

structure Logger.Options where
  name : String := "chip8vm"
  threshold : String := "INFO"
  /-- Whether colours are wanted; they are used on a terminal only. -/
  colours : Bool := true
  stamps : Bool := true

structure Logger where
  name : String
  /-- The threshold in upper case. -/
  threshold : String
  coloured : Bool
  stamped : Bool
  /-- The first reading, from which stamps count. -/
  start : Float
  clock : Clock Float

namespace Logger

/-- Sets up a logger for a stream that is a terminal or not, and reads the clock. -/
def ofOptions (o : Options) (terminal : Bool) (clock : Clock Float) : Logger where
  name := o.name
  threshold := upperCase o.threshold
  coloured := o.colours && terminal
  stamped := o.stamps
  start := clock.now
  clock := clock.advance

def severity (level : String) : Nat :=
  if level = "DEBUG" then 0
  else if level = "INFO" then 1
  else if level = "WARNING" then 2
  else if level = "ERROR" then 3
  else if level = "CRITICAL" then 4
  else 1

def admits (l : Logger) (level : String) : Bool :=
  severity l.threshold ≤ severity (upperCase level)

/-- The control sequence that selects graphic rendition `n`. -/
def rendition (n : Nat) : String :=
  "\x1b[" ++ toString n ++ "m"

def colour (level : String) : String :=
  if level = "DEBUG" then rendition 36
  else if level = "INFO" then rendition 32
  else if level = "WARNING" then rendition 33
  else if level = "ERROR" then rendition 31
  else if level = "CRITICAL" then rendition 35
  else if level = "RESET" then rendition 0
  else ""

def levelText (l : Logger) (level : String) : String :=
  let text := "[" ++ Numeral.alignRight 8 level ++ "]"
  if l.coloured then colour (upperCase level) ++ text ++ rendition 0 else text

def stampText (l : Logger) (now : Float) : String :=
  "[" ++ Numeral.alignRight 8 (Binary64.ofBits (now - l.start).toBits).hundredths ++ "s]"

def line (l : Logger) (level message : String) : String :=
  (if l.stamped then l.stampText l.clock.now else "") ++ l.levelText level ++ "[" ++ l.name ++ "] "
    ++ message ++ "\n"

def line? (l : Logger) (level message : String) : Option String :=
  if l.admits level then some (l.line level message) else none

/-- The logger after a message: a stamped line takes a reading. -/
def after (l : Logger) (level : String) : Logger :=
  if l.admits level && l.stamped then { l with clock := l.clock.advance } else l

end Logger
end Chip8
