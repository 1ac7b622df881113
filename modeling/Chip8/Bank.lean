/-! A bank has `n` cells, numbered from zero. It is known by what its cells hold: `get_set`, `get_ofFn` and `ext_get`.
-/

namespace Chip8

structure Bank (α : Type) (n : Nat) where
  cells : Vector α n
  deriving DecidableEq

namespace Bank

variable {α : Type} {n : Nat}

@[inline] def get (b : Bank α n) (i : Fin n) : α :=
  b.cells[i]

@[inline] def set (b : Bank α n) (i : Fin n) (a : α) : Bank α n :=
  ⟨b.cells.set i a⟩

def ofFn (f : Fin n → α) : Bank α n :=
  ⟨Vector.ofFn f⟩

def fill (a : α) : Bank α n :=
  ⟨Vector.replicate n a⟩

def toList (b : Bank α n) : List α :=
  b.cells.toList

def setIfIn (b : Bank α n) (k : Nat) (a : α) : Bank α n :=
  if h : k < n then b.set ⟨k, h⟩ a else b

@[simp] theorem get_ofFn (f : Fin n → α) (i : Fin n) : (ofFn f).get i = f i := by
  simp [get, ofFn]

@[simp] theorem get_fill (a : α) (i : Fin n) : (fill a : Bank α n).get i = a := by
  simp [get, fill]

theorem get_set (b : Bank α n) (i j : Fin n) (a : α) :
    (b.set i a).get j = if i = j then a else b.get j := by
  simp [get, set, Vector.getElem_set, Fin.ext_iff]

@[simp] theorem get_set_self (b : Bank α n) (i : Fin n) (a : α) : (b.set i a).get i = a := by
  simp [get_set]

theorem get_set_of_ne (b : Bank α n) {i j : Fin n} (a : α) (h : i ≠ j) :
    (b.set i a).get j = b.get j := by
  simp [get_set, h]

theorem get_setIfIn (b : Bank α n) (k : Nat) (a : α) (j : Fin n) :
    (b.setIfIn k a).get j = if k = j.val then a else b.get j := by
  unfold setIfIn
  by_cases h : k < n
  · simp [h, get_set, Fin.ext_iff]
  · have : ¬ k = j.val := by omega
    simp [h, this]

theorem ext_get {b c : Bank α n} (h : ∀ i, b.get i = c.get i) : b = c := by
  rcases b with ⟨u⟩
  rcases c with ⟨v⟩
  have cells : u = v := by
    apply Vector.ext
    intro i hi
    exact h ⟨i, hi⟩
  rw [cells]

@[simp] theorem length_toList (b : Bank α n) : b.toList.length = n := by
  simp [toList]

theorem getElem_toList (b : Bank α n) (i : Nat) (h : i < b.toList.length) :
    b.toList[i] = b.get ⟨i, length_toList b ▸ h⟩ := by
  simp [toList, get]

end Bank
end Chip8
