import Chip8.Proofs.Canvas

/-! Sprites drawn over each other. A drawing inverts the pixels of a picture that other drawings do not change, so the
order of drawings does not matter and a drawing undoes itself. -/

namespace Chip8

namespace Bitmap

variable {w h : Nat}

theorem xor_right_comm (b c d : Bitmap w h) : (b.xor c).xor d = (b.xor d).xor c := by
  apply ext_get
  intro x y
  simp only [get_xor]
  exact Bool.xor_right_comm _ _ _

theorem xor_xor_self (b c : Bitmap w h) : (b.xor c).xor c = b := by
  apply ext_get
  intro x y
  simp

theorem overlaps_xor_self_iff (b c : Bitmap w h) :
    (b.xor c).overlaps c = true ↔ ∃ x y, c.get x y = true ∧ b.get x y = false := by
  rw [overlaps_iff]
  refine exists_congr fun x => exists_congr fun y => ?_
  cases lit : c.get x y <;> simp [lit]

end Bitmap

/-- A sprite to be drawn: the address of its rows, the registers that place its corner, and the number of rows. The
registers are not the one that a drawing writes. -/
structure Drawing where
  index : UInt16
  x : Nibble
  y : Nibble
  rows : Nibble
  x_ne : x ≠ flagRegister := by decide
  y_ne : y ≠ flagRegister := by decide

def Machine.overlay (m : Machine) (d : Drawing) : Machine :=
  { m with index := d.index }.execute (0xD000 + 0x100 * d.x.val + 0x10 * d.y.val + d.rows.val)

namespace Drawing

def Lights (d : Drawing) (m : Machine) (u : Fin 64) (v : Fin 32) : Prop :=
  let left := (m.reg d.x).toNat % 64
  let top := (m.reg d.y).toNat % 32
  (left ≤ u.val ∧ u.val < left + 8) ∧ (top ≤ v.val ∧ v.val < top + d.rows.val) ∧
    (m.memory.readOrZero ((d.index.toNat + (v.val - top)) % 4096)).toNat.testBit (7 - (u.val - left)) = true

def picture (d : Drawing) (m : Machine) : Display :=
  m.memory.sprite d.index.toNat ((m.reg d.x).toNat % 64) ((m.reg d.y).toNat % 32) d.rows.val

theorem get_picture_eq_true_iff (d : Drawing) (m : Machine) (u : Fin 64) (v : Fin 32) :
    (d.picture m).get u v = true ↔ d.Lights m u v := by
  rw [picture, Canvas.get_sprite, Memory.read_eq_readOrZero _ (Nat.mod_lt _ (by decide)), Bool.and_eq_true,
    decide_eq_true_iff, and_assoc]
  rfl

end Drawing

namespace Machine

variable (m : Machine) (d e : Drawing)

theorem overlay_eq : m.overlay d =
    ({ m with index := d.index }.setRegister flagRegister (m.display.overlaps (d.picture m)).toUInt8).paint
      (m.display.xor (d.picture m)) :=
  execute_of_word _ (i := .drw d.x d.y d.rows) (by simp [Instruction.encode, Word.ofNibbles]) rfl

@[simp] theorem overlay_display : (m.overlay d).display = m.display.xor (d.picture m) := by
  rw [overlay_eq, paint_display]

theorem overlay_flag : (m.overlay d).reg flagRegister = (m.display.overlaps (d.picture m)).toUInt8 := by
  rw [overlay_eq, reg, paint_registers, setRegister, Bank.get_set_self]

@[simp] theorem picture_overlay : e.picture (m.overlay d) = e.picture m := by
  have memory : (m.overlay d).memory = m.memory := by rw [overlay_eq, paint_memory]; rfl
  have kept {x : Nibble} (h : x ≠ flagRegister) : (m.overlay d).reg x = m.reg x := by
    rw [overlay_eq, reg, paint_registers]
    exact Bank.get_set_of_ne _ _ h.symm
  rw [Drawing.picture, Drawing.picture, memory, kept e.x_ne, kept e.y_ne]

/-- Drawings one after the other invert their pictures one after the other. All pictures are those that the machine
shows at the start. -/
theorem foldl_overlay_display (ds : List Drawing) :
    (ds.foldl overlay m).display = ds.foldl (fun b d => b.xor (d.picture m)) m.display := by
  induction ds generalizing m with
  | nil => rfl
  | cons d ds ih => simp only [List.foldl_cons, ih, overlay_display, picture_overlay]

theorem foldl_overlay_perm {ds es : List Drawing} (perm : ds.Perm es) :
    (ds.foldl overlay m).display = (es.foldl overlay m).display := by
  rw [foldl_overlay_display, foldl_overlay_display]
  exact perm.foldl_eq' (fun d _ e _ b => b.xor_right_comm (d.picture m) (e.picture m)) m.display

/-- Two drawings give the same display in either order. A drawing made twice restores the display, and the second time
the flag register tells whether a pixel of the sprite was off at first: all of them were if the first time met none. -/
theorem drawings_commute_and_cancel :
    (∀ (m : Machine) (d e : Drawing), ((m.overlay d).overlay e).display = ((m.overlay e).overlay d).display) ∧
    ∀ (m : Machine) (d : Drawing),
      let once := m.overlay d
      let twice := once.overlay d
      twice.display = m.display ∧
      (twice.reg flagRegister = 1 ↔ ∃ u v, d.Lights m u v ∧ m.display.get u v = false) ∧
      (once.reg flagRegister = 0 → (twice.reg flagRegister = 1 ↔ ∃ u v, d.Lights m u v)) := by
  constructor
  · exact fun m d e => m.foldl_overlay_perm (.swap e d [])
  · intro m d once twice
    have met : twice.reg flagRegister = 1 ↔ ∃ u v, d.Lights m u v ∧ m.display.get u v = false := by
      rw [overlay_flag, flag_eq_one_iff, overlay_display, picture_overlay, Bitmap.overlaps_xor_self_iff]
      simp only [d.get_picture_eq_true_iff]
    refine ⟨by simp [twice, once, Bitmap.xor_xor_self], met, fun none => ?_⟩
    have off (u : Fin 64) (v : Fin 32) (lit : d.Lights m u v) : m.display.get u v = false := by
      rw [overlay_flag, flag_eq_zero_iff, Bitmap.overlaps_eq_false] at none
      rw [← d.get_picture_eq_true_iff] at lit
      cases on : m.display.get u v with
      | false => rfl
      | true =>
        rw [none u v on] at lit
        cases lit
    rw [met]
    exact exists_congr fun u => exists_congr fun v => and_iff_left_of_imp (off u v)

/-- A glyph of which one pixel is on the screen, in the last corner, is met when it is drawn again. -/
theorem corner_glyph_is_met_again :
    let m : Machine := { Machine.initial ⟨0, 0⟩ with registers := (Bank.fill 0xFF).set 1 0x3F }
    let d : Drawing := { index := 0, x := 0, y := 1, rows := 5 }
    ((m.overlay d).overlay d).display = m.display ∧ ((m.overlay d).overlay d).reg flagRegister = 1 := by
  intro m d
  obtain ⟨restored, -, met⟩ := drawings_commute_and_cancel.2 m d
  have unmet : (m.overlay d).reg flagRegister = 0 := by
    rw [overlay_flag, flag_eq_zero_iff, Bitmap.overlaps_eq_false]
    intro u v on
    rw [show m.display = Bitmap.blank from rfl, Bitmap.get_blank] at on
    cases on
  have lit : d.Lights m 63 31 := ⟨by decide +kernel, by decide +kernel, by decide +kernel⟩
  exact ⟨restored, (met unmet).mpr ⟨63, 31, lit⟩⟩

end Machine
end Chip8
