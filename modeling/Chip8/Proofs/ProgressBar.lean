import Chip8.Progress
import Mathlib.Algebra.Ring.Int.Defs
import Mathlib.Data.List.Basic

/-! What a progress bar is told of a loop. The loop runs as it would without the bar, which is opened first and
closed last. In between it is told of complete stretches, each of them when the next one begins. -/

namespace Chip8.Progress

variable {α σ : Type}

def Event.amount : Event α → Int
  | .advanced amount => amount
  | _ => 0

def reported (events : List (Event α)) : Int :=
  (events.map Event.amount).sum

@[simp] theorem reported_nil : reported ([] : List (Event α)) = 0 := rfl

@[simp] theorem reported_append (first second : List (Event α)) :
    reported (first ++ second) = reported first + reported second := by
  simp [reported]

namespace Bar

def events (b : Bar α) (i : Nat) : List (Event α) :=
  b.opening i ++ b.progress i ++ b.finish true i

variable (b : Bar α) (body : σ → Nat → σ)

/-- The events of a loop are those of its iterations, and its result is the one without a bar. -/
theorem follow_eq (left i : Nat) (before : Bool) (started : before = true ∨ i = 0) (s : σ) :
    b.follow body left i before s =
      ((List.range' i left).foldl body s, (List.range' i left).flatMap b.events) := by
  induction left generalizing i before s with
  | zero => rfl
  | succ left ih =>
    have isOpen : isOpen before i = true := by
      obtain rfl | rfl := started
      · rfl
      · simp [Bar.isOpen]
    rw [follow, isOpen, ih (i + 1) true (.inl rfl), List.range'_succ, List.foldl_cons, List.flatMap_cons,
      begin, isOpen, if_pos rfl, events]

theorem loop_eq (s : σ) : b.loop body s =
    ((List.range b.total.toNat).foldl body s, (List.range b.total.toNat).flatMap b.events) := by
  rw [loop, b.follow_eq body _ 0 false (.inr rfl), List.range_eq_range']

/-- The rate, the start of the last stretch and the last iteration fit in thirty-two signed bits. -/
def InRange (b : Bar α) : Prop :=
  (-2147483648 ≤ b.rate ∧ b.rate ≤ 2147483647) ∧
  (-2147483648 ≤ b.total - b.remainder ∧ b.total - b.remainder ≤ 2147483647) ∧
  -2147483648 ≤ b.total - 1 ∧ b.total - 1 ≤ 2147483647

instance : Decidable b.InRange :=
  inferInstanceAs (Decidable (_ ∧ _))

/-- A loop is refused just if its iterations are compared with something that does not fit. -/
theorem scan_eq (s : σ) :
    b.scan body s = if b.InRange then .ok (b.loop body s) else .error .integerRange := by
  have check (n : Int) (next : Except Error (σ × List (Event α))) :
      (discard (fitInt32 n) >>= fun _ => next) =
        if -2147483648 ≤ n ∧ n ≤ 2147483647 then next else .error .integerRange := by
    unfold fitInt32
    split <;> rfl
  simp only [scan, checkStretches, checkLast, bind_assoc, check]
  rw [← ite_and, ← ite_and]
  exact if_congr and_assoc rfl rfl

theorem ofTotal_inRange {n : Nat} (h : n ≤ 2147483647) (rate : Option Int) (title : Option String)
    (options : List (String × α)) : (ofTotal n rate title options).InRange := by
  have low := one_le_effectiveRate n rate
  have high := effectiveRate_le n rate
  have nonneg := Int.emod_nonneg (n : Int) (b := effectiveRate n rate) (by omega)
  have small := Int.emod_lt_of_pos (n : Int) (b := effectiveRate n rate) (by omega)
  simp only [InRange, ofTotal, remainder]
  omega

end Bar

/-- The progress that a bar for `n` iterations is told in stretches of `p` by the end of iteration `i`: the
stretches that are complete, of which the last one is cut to the rest. -/
def reportedBy (n p i : Nat) : Nat :=
  if i < n - n % p then i - i % p else n - p

def amountAt (n p i : Nat) : Nat :=
  if i = n - n % p then n % p
  else if 0 < i ∧ i % p = 0 then p
  else 0

variable {n p i : Nat}

theorem mod_succ (pos : 0 < p) : (i + 1) % p = if i % p + 1 = p then 0 else i % p + 1 := by
  have small := Nat.mod_lt i pos
  rw [← Nat.mod_add_mod]
  split
  · next full => rw [full, Nat.mod_self]
  · exact Nat.mod_eq_of_lt (by omega)

theorem mod_eq_pred (pos : 0 < p) (whole : (i + 1) % p = 0) : i % p = p - 1 := by
  rw [mod_succ pos] at whole
  split at whole
  · omega
  · cases whole

theorem mod_of_rest (pos : 0 < p) (begun : n - n % p ≤ i) (inside : i < n) :
    i % p = i - (n - n % p) := by
  have whole := Nat.div_add_mod n p
  have small := Nat.mod_lt n pos
  have split : i = p * (n / p) + (i - (n - n % p)) := by omega
  conv_lhs => rw [split, Nat.mul_add_mod]
  exact Nat.mod_eq_of_lt (by omega)

theorem reportedBy_of_lt (early : i < n - n % p) : reportedBy n p i = i - i % p :=
  if_pos early

theorem reportedBy_of_le (late : n - n % p ≤ i) : reportedBy n p i = n - p :=
  if_neg (Nat.not_lt_of_le late)

theorem reportedBy_zero (pos : 0 < p) (le : p ≤ n) : reportedBy n p 0 = amountAt n p 0 := by
  have small := Nat.mod_lt n pos
  rw [reportedBy_of_lt (by omega), amountAt, if_neg (by omega), if_neg (by omega), Nat.zero_sub]

theorem reportedBy_succ (pos : 0 < p) (inside : i + 1 < n) :
    reportedBy n p (i + 1) = reportedBy n p i + amountAt n p (i + 1) := by
  have less := Nat.mod_lt i pos
  have below := Nat.mod_le i p
  unfold amountAt
  -- The next iteration comes before the last, incomplete stretch, begins it, or lies within it. If there is no
  -- such stretch, the first case is the only one.
  rcases Nat.lt_trichotomy (i + 1) (n - n % p) with early | rest | late
  · rw [reportedBy_of_lt early, reportedBy_of_lt (by omega), if_neg (by omega)]
    by_cases whole : (i + 1) % p = 0
    · have last := mod_eq_pred pos whole
      rw [if_pos ⟨Nat.succ_pos i, whole⟩]
      omega
    · have next := mod_succ (i := i) pos
      rw [if_neg fun due => whole due.2]
      split at next <;> omega
  · have begun := mod_of_rest (i := i + 1) pos (Nat.le_of_eq rest.symm) inside
    have last := mod_eq_pred pos (i := i) (by omega)
    rw [reportedBy_of_le (by omega), reportedBy_of_lt (by omega), if_pos rest]
    omega
  · have begun := mod_of_rest (n := n) (i := i + 1) pos (by omega) inside
    rw [reportedBy_of_le (by omega), reportedBy_of_le (by omega), if_neg (by omega),
      if_neg fun due => by omega, Nat.add_zero]

theorem reportedBy_last (pos : 0 < p) (le : p ≤ n) : reportedBy n p (n - 1) = n - p := by
  by_cases whole : n % p = 0
  · have last : (n - 1) % p = p - 1 := mod_eq_pred pos (by rwa [Nat.sub_add_cancel (by omega)])
    rw [reportedBy_of_lt (by omega), last]
    omega
  · exact reportedBy_of_le (by omega)

namespace Bar

/-- A bar for `n` iterations that is told of stretches of `p`, none of them longer than the loop. -/
structure Fits (b : Bar α) (n p : Nat) : Prop where
  total : b.total = n
  rate : b.rate = p
  pos : 0 < p
  le : p ≤ n

def amounts (n p k : Nat) : List Int :=
  (List.range k).flatMap fun i => if amountAt n p i = 0 then [] else [(amountAt n p i : Int)]

theorem amounts_succ (k : Nat) : amounts n p (k + 1) =
    amounts n p k ++ if amountAt n p k = 0 then [] else [(amountAt n p k : Int)] := by
  rw [amounts, List.range_succ, List.flatMap_append, List.flatMap_singleton, amounts]

theorem sum_amounts_succ (k : Nat) :
    (amounts n p (k + 1)).sum = (amounts n p k).sum + amountAt n p k := by
  rw [amounts_succ, List.sum_append]
  split
  · next none => rw [none]; rfl
  · rw [List.sum_singleton]

theorem sum_amounts (pos : 0 < p) (le : p ≤ n) (inside : i < n) :
    (amounts n p (i + 1)).sum = reportedBy n p i := by
  induction i with
  | zero => rw [sum_amounts_succ, reportedBy_zero pos le]; exact Int.zero_add _
  | succ i ih => rw [sum_amounts_succ, ih (by omega), reportedBy_succ pos inside, Int.natCast_add]

theorem reported_map_advanced (amounts : List Int) :
    reported (amounts.map (Event.advanced (α := α))) = amounts.sum := by
  simp only [reported, List.map_map]
  exact congrArg List.sum (List.map_id amounts)

theorem ofTotal_fits (pos : 1 ≤ n) (rate : Option Int) (title : Option String)
    (options : List (String × α)) :
    (ofTotal n rate title options).Fits n (effectiveRate n rate).toNat := by
  have low := one_le_effectiveRate n rate
  have high := effectiveRate_le n rate
  have nonneg : 0 ≤ effectiveRate n rate := by omega
  exact ⟨rfl, (Int.toNat_of_nonneg nonneg).symm, by omega, by omega⟩

variable {b : Bar α}

namespace Fits

theorem total_sub_remainder (fits : b.Fits n p) : b.total - b.remainder = (n - n % p : Nat) := by
  rw [remainder, fits.total, fits.rate, Int.ofNat_sub (Nat.mod_le n p), Int.natCast_emod]

theorem completes_eq (fits : b.Fits n p) (i : Nat) :
    b.completes i = decide (0 < i ∧ i % p = 0 ∧ i ≠ n - n % p) := by
  rw [completes, fits.total_sub_remainder, fits.rate, Bool.eq_iff_iff]
  simp only [Bool.and_eq_true, decide_eq_true_eq]
  omega

/-- The two conditions under which progress is told exclude each other, and neither tells nothing. -/
theorem progress_eq (fits : b.Fits n p) (inside : i < n) : b.progress i =
    (if amountAt n p i = 0 then [] else [(amountAt n p i : Int)]).map Event.advanced := by
  have pos := fits.pos
  have remainder : b.remainder = (n % p : Nat) := by
    rw [remainder, fits.total, fits.rate, Int.natCast_emod]
  rw [progress, fits.completes_eq, fits.total_sub_remainder, fits.rate, remainder, amountAt]
  by_cases rest : i = n - n % p
  · have partly : n % p ≠ 0 := by omega
    simp only [rest, ne_eq, not_true_eq_false, and_false, decide_false, if_true, if_neg partly]
    rfl
  · by_cases due : 0 < i ∧ i % p = 0
    · have nonzero : p ≠ 0 := by omega
      simp only [rest, due, ne_eq, not_false_eq_true, and_self, decide_true, if_true, if_false, if_neg nonzero,
        Int.natCast_inj]
      rfl
    · have none : ¬(0 < i ∧ i % p = 0 ∧ i ≠ n - n % p) := fun all => due ⟨all.1, all.2.1⟩
      simp only [rest, due, none, decide_false, if_true, if_false, Int.natCast_inj]
      rfl

theorem events_eq (fits : b.Fits n p) (i : Nat) :
    b.events i = b.opening i ++ b.progress i ++ if i + 1 = n then [.closed] else [] := by
  have last : (i : Int) = b.total - 1 ↔ i + 1 = n := by
    rw [fits.total]
    omega
  simp only [events, finish, last, Bool.true_and, decide_eq_true_eq]

theorem flatMap_events (fits : b.Fits n p) (inside : i < n) :
    (List.range (i + 1)).flatMap b.events =
      .opened n b.title iterationUnit b.options :: (amounts n p (i + 1)).map .advanced ++
        if i + 1 = n then [.closed] else [] := by
  induction i with
  | zero =>
    have first : b.opening (0 : Nat) = [.opened n b.title iterationUnit b.options] := by
      rw [opening, fits.total, if_pos Int.natCast_zero]
    rw [List.range_one, List.flatMap_singleton, fits.events_eq, fits.progress_eq inside, first, amounts_succ 0]
    rfl
  | succ i ih =>
    have later : b.opening (i + 1 : Nat) = [] := if_neg (by omega)
    rw [List.range_succ, List.flatMap_append, List.flatMap_singleton, ih (by omega), if_neg (by omega),
      fits.events_eq, fits.progress_eq inside, later, amounts_succ (i + 1), List.map_append]
    simp only [List.append_nil, List.nil_append, List.cons_append, List.append_assoc]

theorem reported_events (fits : b.Fits n p) (inside : i < n) :
    reported ((List.range (i + 1)).flatMap b.events) = reportedBy n p i := by
  have closing : reported (if i + 1 = n then [Event.closed (α := α)] else []) = 0 := by
    split <;> rfl
  have opening : reported [Event.opened (α := α) n b.title iterationUnit b.options] = 0 := rfl
  rw [fits.flatMap_events inside, reported_append, ← List.singleton_append, reported_append, opening,
    reported_map_advanced, sum_amounts fits.pos fits.le inside, closing, Int.zero_add, Int.add_zero]

variable (body : σ → Nat → σ) (s : σ)

theorem loop_eq (fits : b.Fits n p) : b.loop body s =
    ((List.range n).foldl body s, (List.range n).flatMap b.events) := by
  rw [b.loop_eq, fits.total, Int.toNat_natCast]

theorem loop_events (fits : b.Fits n p) : (b.loop body s).2 =
    .opened n b.title iterationUnit b.options :: (amounts n p n).map .advanced ++ [.closed] := by
  have pos := fits.pos
  have le := fits.le
  have events := fits.flatMap_events (i := n - 1) (by omega)
  rw [Nat.sub_add_cancel (by omega), if_pos rfl] at events
  rw [fits.loop_eq, events]

theorem reported_loop (fits : b.Fits n p) : reported (b.loop body s).2 = n - p := by
  have pos := fits.pos
  have le := fits.le
  have events := fits.reported_events (i := n - 1) (by omega)
  rw [Nat.sub_add_cancel (by omega), reportedBy_last pos le] at events
  rw [fits.loop_eq, events, Int.ofNat_sub le]

end Fits

end Bar
end Chip8.Progress

namespace Chip8.Machine

open Progress

end Chip8.Machine

namespace Chip8.Progress.Bar

variable {α σ : Type} {b : Bar α} {rate : Option Int} {title : Option String} {options : List (String × α)}
variable (body : σ → Nat → σ) (s : σ)

/-- A loop that can be counted closes its bar short of its length by exactly the rate in use: the first
stretch is never told. -/
theorem progress_ends_a_stretch_short {n : Nat} (pos : 1 ≤ n) (made : b = ofTotal n rate title options) :
    (b.scan body s = .ok (b.loop body s) ∨
      2147483647 < n ∧ b.scan body s = .error .integerRange) ∧
    reported (b.loop body s).2 = n - effectiveRate n rate ∧
    (b.loop body s).2.getLast? = some .closed := by
  subst made
  have fits := ofTotal_fits pos rate title options
  refine ⟨?_, ?_, ?_⟩
  · rw [scan_eq]
    by_cases inRange : (ofTotal n rate title options).InRange
    · exact .inl (if_pos inRange)
    · refine .inr ⟨Nat.lt_of_not_le fun short => ?_, if_neg inRange⟩
      exact inRange (ofTotal_inRange short rate title options)
  · rw [fits.reported_loop, ← fits.rate]
    rfl
  · rw [fits.loop_events]
    exact List.getLast?_concat

/-- At the usual rate, a hundred iterations are told as ninety-five. -/
theorem hundred_are_told_as_ninety_five :
    let b : Bar Empty := ofTotal 100 none none []
    1 ≤ 100 ∧ b.rate = 5 ∧ reported (b.loop (· + ·) 0).2 = 95 :=
  ⟨by decide, by decide, (progress_ends_a_stretch_short (· + ·) 0 (n := 100) (by decide) rfl).2.1⟩

end Chip8.Progress.Bar
