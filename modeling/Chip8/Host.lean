import Chip8.Machine.Cycle
import Chip8.Machine.Program
import Chip8.Report

/-! A host owns one machine and drives it one call at a time. It hands frames and sound changes to those of its
listeners that are present, writes to its logger, and keeps smoothed timing figures.

A call answers with a `Reaction`: the host afterwards, what was heard meanwhile, and the error if the call failed.
What happened before a failure stays. -/

namespace Chip8

/-- A smoothed duration and a smoothed interval between ends, in seconds. -/
structure Stopwatch where
  duration : Float := 0
  interval : Float := 0
  /-- When the last measurement ended. -/
  last : Option Float := none

namespace Stopwatch

def smoothing : Float := 0.9

def smooth (average sample : Float) : Float :=
  average * smoothing + sample * (1 - smoothing)

def record (s : Stopwatch) (started finished : Float) : Stopwatch where
  duration := smooth s.duration (finished - started)
  interval := match s.last with
    | some t => smooth s.interval (finished - t)
    | none => s.interval
  last := some finished

/-- Measurements per second, or zero while there is no positive interval. -/
def rate (s : Stopwatch) : Float :=
  if s.interval ≤ 0 then 0 else 1 / s.interval

end Stopwatch

structure Listeners where
  draw : Bool := false
  startSound : Bool := false
  endSound : Bool := false
  deriving DecidableEq, Repr

inductive Event where
  | draw (frame : Display)
  | startSound (ticks : UInt8)
  | endSound
  | log (line : String)
  deriving DecidableEq

structure Host where
  key : Key
  strict : Bool
  listeners : Listeners
  logger : Logger
  clock : Clock Float
  machine : Machine
  /-- The program loaded last, which a reset loads again. -/
  program : Option Program := none
  /-- Whether no step was made since power-on or reset. -/
  firstStep : Bool := true
  cycles : Stopwatch := {}
  frames : Stopwatch := {}

structure Reaction where
  host : Host
  events : List Event := []
  error : Option Error := none

namespace Reaction

def andThen (r : Reaction) (f : Host → Reaction) : Reaction :=
  if r.error.isSome then r
  else
    let s := f r.host
    { s with events := r.events ++ s.events }

theorem andThen_of_error {r : Reaction} (h : r.error.isSome = true) (f : Host → Reaction) :
    r.andThen f = r := by
  simp [andThen, h]

theorem andThen_of_ok {r : Reaction} (h : r.error.isSome = false) (f : Host → Reaction) :
    r.andThen f = { f r.host with events := r.events ++ (f r.host).events } := by
  simp [andThen, h]

end Reaction

namespace Host

/-- The logger of a host that is given none writes warnings and worse. -/
def defaultLogger : Logger.Options :=
  { threshold := "WARNING" }

def powerOn (key : Key) (strict : Bool) (listeners : Listeners) (logger : Logger)
    (clock : Clock Float) : Host where
  key := key
  strict := strict
  listeners := listeners
  logger := logger
  clock := clock
  machine := Machine.initial key strict

def refuse (h : Host) (e : Error) : Reaction :=
  { host := h, error := some e }

def log (h : Host) (r : Report) : Reaction where
  host := { h with logger := h.logger.after r.level }
  events := ((h.logger.line? r.level r.text).map Event.log).toList

def present (h : Host) (frame : Display) : Reaction where
  host :=
    { h with
      clock := h.clock.advance.advance
      frames := h.frames.record h.clock.now h.clock.advance.now }
  events := [.draw frame]

/-- The first step since power-on or reset presents the display as it is. -/
def presentFirst (h : Host) : Reaction :=
  let g := { h with firstStep := false }
  if h.firstStep && h.listeners.draw then g.present h.machine.display else { host := g }

def advance (h : Host) : Host :=
  { h with
    machine := h.machine.step
    clock := h.clock.advance.advance
    cycles := h.cycles.record h.clock.now h.clock.advance.now }

/-- Fails if the machine is halted, after logging the fault and the registers. -/
def checkFault (h : Host) : Reaction :=
  match h.machine.recordedFault with
  | .error e => h.refuse e
  | .ok none => { host := h }
  | .ok (some f) =>
    let r := h.machine.report f
    (h.log (.fault r.pc r.word f.description)).andThen fun h =>
      (h.log (.registers h.machine)).andThen fun h => h.refuse (.fault r)

def checkSoundStart (h : Host) (before : UInt8) : Reaction :=
  let now := h.machine.soundTimer
  if before = 0 && 0 < now then
    (h.log (.soundOn now)).andThen fun h =>
      { host := h, events := if h.listeners.startSound then [.startSound now] else [] }
  else { host := h }

def checkSoundEnd (h : Host) (before : UInt8) : Reaction :=
  if 0 < before && h.machine.soundTimer = 0 then
    (h.log .soundOff).andThen fun h =>
      { host := h, events := if h.listeners.endSound then [.endSound] else [] }
  else { host := h }

def lowerDrawFlag (h : Host) : Host :=
  { h with machine := h.machine.lowerDrawFlag }

/-- Presents the display if it was drawn on and there is a draw listener. -/
def presentDrawn (h : Host) : Reaction :=
  if h.listeners.draw && h.machine.drawFlag then
    h.lowerDrawFlag.present h.machine.display
  else { host := h }

def step (h : Host) : Reaction :=
  h.presentFirst.andThen fun h =>
    h.advance.checkFault.andThen fun g =>
      (g.checkSoundStart h.machine.soundTimer).andThen presentDrawn

/-- Steps `n` times, or up to the first failure. -/
def run (h : Host) : Nat → Reaction
  | 0 => { host := h }
  | n + 1 => h.step.andThen fun h => h.run n

def tick (h : Host) : Reaction :=
  checkSoundEnd { h with machine := h.machine.tick } h.machine.soundTimer

def ticks (h : Host) : Nat → Reaction
  | 0 => { host := h }
  | n + 1 => h.tick.andThen fun h => h.ticks n

def consume (h : Host) : Display × Host :=
  (h.machine.display, h.lowerDrawFlag)

def attempt (h : Host) (m : Except Error Machine) (f : Host → Reaction) : Reaction :=
  match m with
  | .ok m => f { h with machine := m }
  | .error e => h.refuse e

def load (h : Host) (p : Program) (source : Option String := none) : Reaction :=
  h.attempt (h.machine.load p) fun h => { h with program := some p }.log (.loaded p.length source)

def loadEntries (h : Host) (entries : List Int) (source : Option String := none) : Reaction :=
  match Program.ofInts entries with
  | .ok p => h.load p source
  | .error e => h.refuse e

def loadFile (h : Host) (name : String) : Option Program → Reaction
  | some p => h.load p (some name)
  | none => h.refuse .missingFile

/-- Restores the machine at power-on and loads the program again. -/
def reset (h : Host) : Reaction :=
  h.attempt ((Machine.initial h.key h.strict).reset h.program) fun h =>
    { h with firstStep := true }.log .reset

def setKeys (h : Host) (keys : Switches) : Reaction :=
  h.attempt (h.machine.setKeys keys) fun h => { host := h }

def setKey (h : Host) (key : Int) (down : Bool) : Reaction :=
  h.attempt (h.machine.setKey key down) fun h => { host := h }

def press (h : Host) (key : Int) : Reaction :=
  h.setKey key true

def release (h : Host) (key : Int) : Reaction :=
  h.setKey key false

def halted (h : Host) : Except Error Bool := do
  return (← h.machine.recordedFault).isSome

end Host
end Chip8
