import Chip8.CallStack
import Chip8.Layout
import Chip8.TwosComplement
import Mathlib.Data.List.GetD

/-! The call stack as a list of return addresses, the oldest first. Pushes append to the list and pops
remove from its end, at any depth: the addresses beyond the slots are counted but not stored. -/

namespace Chip8.CallStack

/-- The stack counts the addresses of the list and stores those that have a slot. The slots above
are zero. -/
def Holds (s : CallStack) (calls : List UInt16) : Prop :=
  s.pointer.toInt = calls.length ∧ ∀ i : Nibble, s.data.get i = calls.getD i.val 0

theorem get_put (data : Bank UInt16 16) (n : Nat) (a : UInt16) (i : Nibble) :
    (put data n a).get i = if i.val = n then a else data.get i := by
  rw [put, slot?, if_neg (by omega), Nibble.ofInt?]
  by_cases h : n < 16
  · rw [dif_pos (by omega)]
    simp [Bank.get_set, Fin.ext_iff, eq_comm]
  · rw [dif_neg (by omega), if_neg (by omega)]

theorem lowered_toInt {s : CallStack} (h : 0 ≤ s.pointer.toInt) :
    s.lowered.toInt = max (s.pointer.toInt - 1) 0 := by
  have below : (s.pointer - 1).toInt = s.pointer.toInt - 1 := by
    rw [Int32.toInt_sub]
    exact Int.bmod_eq_of_le (by simp; omega) (by have := s.pointer.toInt_lt; simp; omega)
  have order : s.pointer - 1 ≤ 0 ↔ s.pointer.toInt - 1 ≤ 0 := by
    rw [Int32.le_iff_toInt_le, below, Int32.toInt_zero]
  show (if s.pointer - 1 ≤ 0 then 0 else s.pointer - 1).toInt = _
  by_cases last : s.pointer.toInt - 1 ≤ 0
  · rw [if_pos (order.mpr last), Int32.toInt_zero]
    omega
  · rw [if_neg (fun low => last (order.mp low)), below]
    omega

theorem top_eq {s : CallStack} (nonempty : s.isEmpty = false) :
    s.top = s.data.get ⟨min (s.pointer.toInt.toNat - 1) 15, by omega⟩ := by
  have pending : 0 < s.pointer.toInt := by simpa [isEmpty] using nonempty
  have slot : s.lowered.toInt.toNat = s.pointer.toInt.toNat - 1 := by
    rw [lowered_toInt (Int.le_of_lt pending)]
    omega
  simp only [top, slot]

theorem pop_ne {s : CallStack} (nonempty : s.isEmpty = false) : s.pop ≠ s := by
  intro same
  have pending : 0 < s.pointer.toInt := by simpa [isEmpty] using nonempty
  have pointer : s.lowered.toInt = s.pointer.toInt := congrArg (fun t => t.pointer.toInt) same
  rw [lowered_toInt (Int.le_of_lt pending)] at pointer
  omega

theorem push_ne (s : CallStack) (a : Int) : s.push a ≠ s := by
  intro same
  have pointer : s.pointer + 1 = s.pointer := congrArg CallStack.pointer same
  rw [Int32.add_eq_left] at pointer
  exact absurd pointer (by decide)

theorem holds_nil : CallStack.Holds {} [] :=
  ⟨rfl, fun i => by simp⟩

variable {s : CallStack} {calls : List UInt16}

theorem Holds.isEmpty_iff (h : s.Holds calls) : s.isEmpty = true ↔ calls = [] := by
  simp [isEmpty, h.1]

theorem Holds.isFull_iff (h : s.Holds calls) : s.isFull = true ↔ 16 ≤ calls.length := by
  rw [isFull, decide_eq_true_iff, h.1]
  omega

theorem Holds.push (h : s.Holds calls) (room : calls.length + 1 < 0x80000000) (a : Int) :
    (s.push a).Holds (calls ++ [UInt16.ofInt (a % 4096)]) := by
  obtain ⟨count, slots⟩ := h
  constructor
  · simp only [CallStack.push, Int32.toInt_add, count, List.length_append, List.length_singleton]
    exact Int.bmod_eq_of_le (by simp; omega) (by simp; omega)
  · intro i
    simp only [CallStack.push, count, get_put, slots]
    rcases Nat.lt_trichotomy i.val calls.length with below | top | above
    · rw [if_neg (Nat.ne_of_lt below), List.getD_append _ _ _ _ below]
    · rw [if_pos top, top, List.getD_append_right _ _ _ _ (Nat.le_refl _), Nat.sub_self]
      rfl
    · rw [if_neg (Nat.ne_of_gt above), List.getD_eq_default _ _ (by omega),
        List.getD_eq_default _ _ (by simp; omega)]

theorem Holds.lowered (h : s.Holds calls) : s.lowered.toInt = (calls.length - 1 : Nat) := by
  rw [lowered_toInt (by rw [h.1]; omega), h.1]
  omega

theorem Holds.pop (h : s.Holds calls) : s.pop.Holds calls.dropLast := by
  constructor
  · simp [CallStack.pop, h.lowered]
  · intro i
    simp only [CallStack.pop, h.lowered, get_put, h.2]
    rcases Nat.lt_trichotomy i.val (calls.length - 1) with below | last | above
    · rw [if_neg (Nat.ne_of_lt below), List.getD_eq_getElem?_getD, List.getD_eq_getElem?_getD,
        List.getElem?_dropLast, if_pos below]
    · rw [if_pos last, List.getD_eq_default _ _ (by simp [last])]
    · rw [if_neg (Nat.ne_of_gt above), List.getD_eq_default _ _ (by omega),
        List.getD_eq_default _ _ (by simp; omega)]

theorem Holds.top_eq_getD (h : s.Holds calls) : s.top = calls.getD (min (calls.length - 1) 15) 0 := by
  have slot : min s.lowered.toInt.toNat 15 = min (calls.length - 1) 15 := by
    rw [h.lowered, Int.toNat_natCast]
  rw [CallStack.top, h.2]
  simp only [slot]

theorem Holds.top {a : UInt16} (h : s.Holds (calls ++ [a])) (room : calls.length < 16) : s.top = a := by
  have last : min ((calls ++ [a]).length - 1) 15 = calls.length := by
    rw [List.length_append, List.length_singleton]
    omega
  rw [h.top_eq_getD, last, List.getD_append_right _ _ _ _ (Nat.le_refl _), Nat.sub_self]
  rfl

theorem Holds.unique {t : CallStack} (hs : s.Holds calls) (ht : t.Holds calls) : s = t := by
  have pointer : s.pointer = t.pointer := Int32.toInt_inj.mp (hs.1.trans ht.1.symm)
  have data : s.data = t.data := Bank.ext_get fun i => (hs.2 i).trans (ht.2 i).symm
  cases s
  cases t
  simp_all

/-- All sixteen slots: the pending calls and zeros behind them. -/
theorem Holds.toList (h : s.Holds calls) (few : calls.length ≤ 16) :
    s.data.toList = calls ++ List.replicate (16 - calls.length) 0 := by
  apply List.ext_getElem
  · simp
    omega
  · intro i inside _
    rw [Bank.getElem_toList, h.2]
    by_cases pending : i < calls.length
    · rw [List.getElem_append_left pending, List.getD_eq_getElem _ _ pending]
    · rw [List.getElem_append_right (Nat.le_of_not_lt pending), List.getElem_replicate,
        List.getD_eq_default _ _ (Nat.le_of_not_lt pending)]

theorem ofInt_address {a : UInt16} (h : a.toNat ≤ 0xFFF) :
    UInt16.ofInt ((a.toNat : Int) % 4096) = a := by
  apply UInt16.toNat_inj.mp
  simp only [UInt16.ofInt, UInt16.toNat_ofNat']
  omega

inductive Move where
  | push (a : Int)
  | pop

def move (s : CallStack) : Move → CallStack
  | .push a => s.push a
  | .pop => s.pop

def after (s : CallStack) (moves : List Move) : CallStack :=
  moves.foldl move s

/-- The pushed addresses after a move, the latest last. A push adds the twelve low bits of its address, and
a pop takes the last address away, if there is one. -/
def Move.onList (calls : List UInt16) : Move → List UInt16
  | push a => calls ++ [UInt16.ofInt (TwosComplement.and a addressMask)]
  | pop => calls.dropLast

theorem Move.length_onList_le (calls : List UInt16) (m : Move) :
    (m.onList calls).length ≤ calls.length + 1 := by
  cases m with
  | push a => exact Nat.le_of_eq List.length_append
  | pop => rw [onList, List.length_dropLast]; omega

theorem Holds.move (h : s.Holds calls) (room : calls.length + 1 < 0x80000000) (m : Move) :
    (s.move m).Holds (m.onList calls) := by
  cases m with
  | push a =>
    have masked : TwosComplement.and a addressMask = a % 4096 := TwosComplement.and_shiftLeft_sub_one a 12
    rw [Move.onList, masked]
    exact h.push room a
  | pop => exact h.pop

theorem Holds.after (h : s.Holds calls) {moves : List Move}
    (room : calls.length + moves.length < 0x80000000) :
    (s.after moves).Holds (moves.foldl Move.onList calls) := by
  induction moves generalizing s calls with
  | nil => exact h
  | cons m moves ih =>
    have length := m.length_onList_le calls
    rw [List.length_cons] at room
    exact ih (h.move (by omega) m) (by omega)

/-- The stack after any pushes and pops against the list of the pushed addresses, each cut to twelve bits and
each pop taking the last one away. The pointer counts the list, the slots hold its first sixteen addresses and
zeros, and a pop takes the last address, or zero from an empty list, or the sixteenth address from a longer
list than there are slots. -/
theorem pushes_and_pops_follow_list (moves : List Move) (few : moves.length < 0x80000000) :
    let s := ({} : CallStack).after moves
    let calls := moves.foldl Move.onList []
    s.pointer.toInt = calls.length ∧
    (∀ (i : Nibble) (pending : i.val < calls.length), s.data.get i = calls[i.val]) ∧
    (∀ i : Nibble, calls.length ≤ i.val → s.data.get i = 0) ∧
    (s.isEmpty = true ↔ calls = []) ∧ (s.isFull = true ↔ 16 ≤ calls.length) ∧
    (calls = [] → s.top = 0) ∧
    (calls.length ≤ 16 → ∀ a, calls.getLast? = some a → s.top = a) ∧
    ∀ deep : 16 < calls.length, s.top = calls[15] := by
  intro s calls
  have holds : s.Holds calls := holds_nil.after (by rwa [List.length_nil, Nat.zero_add])
  refine ⟨holds.1, fun i pending => ?stored, fun i above => ?cleared, holds.isEmpty_iff, holds.isFull_iff,
    fun empty => ?none, fun shallow a last => ?last, fun deep => ?clamped⟩
  case stored => rw [holds.2, List.getD_eq_getElem _ _ pending]
  case cleared => rw [holds.2, List.getD_eq_default _ _ above]
  case none => rw [holds.top_eq_getD, empty, List.getD_nil]
  case last =>
    rw [holds.top_eq_getD, Nat.min_eq_left (by omega), List.getD_eq_getElem?_getD,
      ← List.getLast?_eq_getElem?, last, Option.getD_some]
  case clamped => rw [holds.top_eq_getD, Nat.min_eq_right (by omega), List.getD_eq_getElem]

/-- Eighteen pushes, the first of them of a negative address. The addresses beyond the slots are counted only:
three pops later the last slot is empty. -/
def deepMoves : List Move :=
  .push (-1) :: (List.range 17).map fun i : Nat => .push (0x1200 + i)

theorem deepMoves_follow_list :
    let s := ({} : CallStack).after deepMoves
    let moves := deepMoves ++ List.replicate 3 .pop
    let t := ({} : CallStack).after moves
    (deepMoves.length < 0x80000000 ∧ moves.length < 0x80000000) ∧
    s.pointer.toInt = 18 ∧ s.data.get 0 = 0xFFF ∧ s.data.get 15 = 0x20E ∧ s.top = 0x20E ∧
    t.pointer.toInt = 15 ∧ t.data.get 15 = 0 ∧ t.top = 0x20D := by
  intro s moves t
  have few : deepMoves.length < 0x80000000 := by decide
  have few' : moves.length < 0x80000000 := by decide
  obtain ⟨count, stored, -, -, -, -, -, clamped⟩ := pushes_and_pops_follow_list deepMoves few
  obtain ⟨count', -, cleared, -, -, -, last, -⟩ := pushes_and_pops_follow_list moves few'
  exact ⟨⟨few, few'⟩, count, stored 0 (by decide), stored 15 (by decide), clamped (by decide), count',
    cleared 15 (by decide), last (by decide) _ rfl⟩

/-- At most sixteen calls are pending, and all return addresses have a property. -/
def Keeps (s : CallStack) (P : UInt16 → Prop) : Prop :=
  ∃ calls, s.Holds calls ∧ calls.length ≤ 16 ∧ ∀ a ∈ calls, P a

variable {P : UInt16 → Prop}

theorem keeps_empty : Keeps {} P :=
  ⟨[], holds_nil, by simp, by simp⟩

theorem Keeps.push (h : s.Keeps P) (room : s.isFull = false) {a : UInt16} (address : a.toNat ≤ 0xFFF)
    (ha : P a) : (s.push a.toNat).Keeps P := by
  obtain ⟨calls, holds, -, all⟩ := h
  have few : calls.length < 16 := by
    have := holds.isFull_iff.not.mp (Bool.not_eq_true _ ▸ room)
    omega
  refine ⟨calls ++ [a], ?_, by simpa using Nat.succ_le_of_lt few, ?_⟩
  · simpa only [ofInt_address address] using holds.push (by omega) a.toNat
  · intro b member
    cases List.mem_append.mp member with
    | inl old => exact all b old
    | inr new => exact List.mem_singleton.mp new ▸ ha

theorem Keeps.pop (h : s.Keeps P) : s.pop.Keeps P := by
  obtain ⟨calls, holds, few, all⟩ := h
  refine ⟨calls.dropLast, holds.pop, by simp; omega, ?_⟩
  exact fun a member => all a (List.dropLast_subset calls member)

theorem Keeps.top (h : s.Keeps P) (nonempty : s.isEmpty = false) : P s.top := by
  obtain ⟨calls, holds, few, all⟩ := h
  obtain rfl | ⟨calls, a, rfl⟩ := calls.eq_nil_or_concat
  · have empty := holds.isEmpty_iff.mpr rfl
    rw [nonempty] at empty
    contradiction
  · rw [List.concat_eq_append] at holds few all
    rw [holds.top (by simp at few; omega)]
    exact all a (by simp)

end Chip8.CallStack
