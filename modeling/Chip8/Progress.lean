import Chip8.Machine.Cycle
import Chip8.Range
import Chip8.Text.Numeral

/-! A bar follows a loop of `total` iterations. It is opened before the first one, told of progress every `rate`
iterations and of the rest at the end, and closed after the last one. A bar that was never opened is told nothing.

Iterations are counted in thirty-two signed bits. `scan` refuses a loop if anything that its iterations are compared
with does not fit. An iteration that is announced by itself is compared modulo 2^32 instead, and what it tells must
fit: `announce` and `conclude`, which agree with `begin` and `finish` where all is in range. -/

namespace Chip8

namespace Progress

/-- What a bar is told. Options of type `α` are passed on to it as they are. -/
inductive Event (α : Type) where
  | opened (total : Int) (title : String) (unit : String) (options : List (String × α))
  | advanced (amount : Int)
  | closed
  deriving DecidableEq, Repr

structure Bar (α : Type) where
  total : Int
  title : String
  rate : Int
  options : List (String × α)

def iterationUnit : String := "cycle"

def defaultTitle (total : Int) : String :=
  "Running (" ++ Numeral.grouped total ++ " cycles)"

/-- The rate in use: the one asked for, or a twentieth of the loop up to 50; at least one, and not more
than the loop is long. -/
def effectiveRate (total : Int) : Option Int → Int
  | none => max 1 (min (total / 20) 50)
  | some r => max 1 (min r total)

theorem one_le_effectiveRate (total : Int) (rate : Option Int) : 1 ≤ effectiveRate total rate := by
  cases rate <;> simp only [effectiveRate] <;> omega

theorem effectiveRate_le (total : Int) (rate : Option Int) : effectiveRate total rate ≤ max 1 total := by
  cases rate <;> simp only [effectiveRate] <;> omega

def reserved : List String := ["total", "mininterval", "maxinterval", "miniters"]

variable {α σ : Type}

def Bar.ofTotal (total : Int) (rate : Option Int) (title : Option String)
    (options : List (String × α)) : Bar α where
  total := total
  title := title.getD (defaultTitle total)
  rate := effectiveRate total rate
  options := options.filter fun o => o.1 ∉ reserved

namespace Bar

/-- The length of the last, incomplete stretch. -/
def remainder (b : Bar α) : Int :=
  b.total % b.rate

def completes (b : Bar α) (i : Int) : Bool :=
  i % b.rate = 0 && i ≠ b.total - b.remainder && 0 < i

def progress (b : Bar α) (i : Int) : List (Event α) :=
  (if b.completes i then [.advanced b.rate] else []) ++
    (if i = b.total - b.remainder then [.advanced b.remainder] else [])

def isOpen (before : Bool) (i : Int) : Bool :=
  before || i = 0

def opening (b : Bar α) (i : Int) : List (Event α) :=
  if i = 0 then [.opened b.total b.title iterationUnit b.options] else []

def begin (b : Bar α) (before : Bool) (i : Int) : List (Event α) :=
  b.opening i ++ (if isOpen before i then b.progress i else [])

def finish (b : Bar α) (isOpen : Bool) (i : Int) : List (Event α) :=
  if isOpen && i = b.total - 1 then [.closed] else []

def follow (b : Bar α) (body : σ → Nat → σ) : (left i : Nat) → (before : Bool) → σ →
    σ × List (Event α)
  | 0, _, _, s => (s, [])
  | left + 1, i, before, s =>
    let rest := b.follow body left (i + 1) (isOpen before i) (body s i)
    (rest.1, b.begin before i ++ b.finish (isOpen before i) i ++ rest.2)

def loop (b : Bar α) (body : σ → Nat → σ) (s : σ) : σ × List (Event α) :=
  b.follow body b.total.toNat 0 false s

/-- Tells an amount if it is due. An amount that is due must fit. -/
def told (due : Bool) (amount : Int) : Except Error (List (Event α)) :=
  if due then do return [.advanced (← fitInt32 amount)] else .ok []

/-- The events before iteration `i` announced by itself. A rate of zero modulo 2^32 divides every number. -/
def announce (b : Bar α) (before : Bool) (i : Int) : Except Error (List (Event α)) := do
  let i ← fitInt32 i
  let rate ← wrapInt32 b.rate
  let rest ← wrapInt32 (b.total - b.remainder)
  let whole ← told ((rate = 0 || i % rate = 0) && i ≠ rest && 0 < i) b.rate
  let last ← told (i = rest) b.remainder
  return b.opening i ++ (if isOpen before i then whole ++ last else [])

def conclude (b : Bar α) (isOpen : Bool) (i : Int) : Except Error (List (Event α)) := do
  let i ← fitInt32 i
  let last ← wrapInt32 (b.total - 1)
  return if isOpen && i = last then [.closed] else []

theorem told_eq_ok {amount : Int} (due : Bool) (low : -2147483648 ≤ amount)
    (high : amount ≤ 2147483647) :
    (told due amount : Except Error (List (Event α))) =
      .ok (if due then [.advanced amount] else []) := by
  cases due
  · rfl
  · simp only [told, fitInt32_eq_ok low high]
    rfl

theorem announce_eq_begin {b : Bar α} {i : Int} (before : Bool) (low : -2147483648 ≤ i)
    (high : i ≤ 2147483647) (pos : 1 ≤ b.rate) (rate : b.rate ≤ 2147483647)
    (above : -2147483648 ≤ b.total - b.remainder) (below : b.total - b.remainder ≤ 2147483647) :
    b.announce before i = .ok (b.begin before i) := by
  have nonneg : 0 ≤ b.remainder := Int.emod_nonneg _ (by omega)
  have small : b.remainder < b.rate := Int.emod_lt_of_pos _ (by omega)
  have nonzero : decide (b.rate = 0) = false := decide_eq_false (by omega)
  have wrapped : wrapInt32 b.rate = .ok b.rate := wrapInt32_eq_ok (by omega) rate
  have whole : ∀ due : Bool, told due b.rate = .ok (if due then [Event.advanced b.rate] else []) :=
    fun due => told_eq_ok (α := α) due (by omega) rate
  have last : ∀ due : Bool,
      told due b.remainder = .ok (if due then [Event.advanced b.remainder] else []) :=
    fun due => told_eq_ok (α := α) due (by omega) (by omega)
  simp only [announce, fitInt32_eq_ok low high, wrapped, wrapInt32_eq_ok above below, begin, progress,
    completes]
  simp only [bind, Except.bind, whole, last, nonzero, Bool.false_or, decide_eq_true_eq]
  rfl

theorem conclude_eq_finish {b : Bar α} {i : Int} (isOpen : Bool) (low : -2147483648 ≤ i)
    (high : i ≤ 2147483647) (above : -2147483648 ≤ b.total - 1) (below : b.total - 1 ≤ 2147483647) :
    b.conclude isOpen i = .ok (b.finish isOpen i) := by
  simp only [conclude, fitInt32_eq_ok low high, wrapInt32_eq_ok above below, finish]
  rfl

def checkStretches (b : Bar α) : Except Error Unit := do
  discard (fitInt32 b.rate)
  discard (fitInt32 (b.total - b.remainder))

def checkLast (b : Bar α) : Except Error Unit :=
  discard (fitInt32 (b.total - 1))

/-- Runs the loop if its iterations can be counted. An empty loop is checked too. -/
def scan (b : Bar α) (body : σ → Nat → σ) (s : σ) : Except Error (σ × List (Event α)) := do
  b.checkStretches
  b.checkLast
  return b.loop body s

end Bar
end Progress

open Progress in
/-- Steps `n` times under a progress bar. An empty title counts as none. -/
def Machine.runWithProgress (m : Machine) (n : Int) (title : Option String) (rate : Option Int) :
    Except Error (Machine × List (Event Empty)) :=
  (Bar.ofTotal n rate (title.filter (· ≠ "")) []).scan (fun m _ => m.step) m

end Chip8
