import Chip8.Proofs.FaultTable

/-! The words of instructions. The word of an instruction is put together from its operands, and it is the
word that the instruction was decoded from, so a table over the bits of a word can be read off its
instruction. The other way round, the word of an instruction that can be carried out decodes to it. -/

namespace Chip8

def Word.ofAddress (family : Nat) (a : Fin 4096) : Nat :=
  4096 * family + a.val

def Word.ofByte (family : Nat) (x : Nibble) (b : UInt8) : Nat :=
  4096 * family + 256 * x.val + b.toNat

def Word.ofNibbles (family : Nat) (x y n : Nibble) : Nat :=
  4096 * family + 256 * x.val + 16 * y.val + n.val

namespace Word

variable (family : Nat) (a : Fin 4096) (b : UInt8) (x y n : Nibble)

@[simp] theorem ofAddress_family : ofAddress family a / 4096 = family := by
  unfold ofAddress
  omega

@[simp] theorem ofAddress_address : ofAddress family a % 4096 = a.val := by
  unfold ofAddress
  omega

@[simp] theorem ofByte_family : ofByte family x b / 4096 = family := by
  have := b.toNat_lt
  unfold ofByte
  omega

@[simp] theorem ofByte_x : Nibble.ofNat (ofByte family x b / 256) = x := by
  have := b.toNat_lt
  unfold ofByte
  exact Fin.ext (by simp only [Nibble.ofNat_val]; omega)

@[simp] theorem ofByte_byte : ofByte family x b % 256 = b.toNat := by
  have := b.toNat_lt
  unfold ofByte
  omega

@[simp] theorem ofNat_ofByte : UInt8.ofNat (ofByte family x b) = b :=
  UInt8.toNat_inj.mp (by rw [UInt8.toNat_ofNat', ofByte_byte])

@[simp] theorem ofNibbles_family : ofNibbles family x y n / 4096 = family := by
  unfold ofNibbles
  omega

@[simp] theorem ofNibbles_x : Nibble.ofNat (ofNibbles family x y n / 256) = x := by
  unfold ofNibbles
  exact Fin.ext (by simp only [Nibble.ofNat_val]; omega)

@[simp] theorem ofNibbles_y : Nibble.ofNat (ofNibbles family x y n / 16) = y := by
  unfold ofNibbles
  exact Fin.ext (by simp only [Nibble.ofNat_val]; omega)

@[simp] theorem ofNibbles_nibble : ofNibbles family x y n % 16 = n.val := by
  unfold ofNibbles
  omega

@[simp] theorem ofNat_ofNibbles : Nibble.ofNat (ofNibbles family x y n) = n :=
  Fin.ext (by rw [Nibble.ofNat_val, ofNibbles_nibble])

section Decoded

variable {w : UInt16} {family : Nat}

theorem fields_opcode : (fields w.toNat).opcode.val = w.toNat / 4096 := by
  have := w.toNat_lt
  rw [Machine.fields_natCast, Nibble.ofNat_val]
  omega

theorem ofAddress_fields (h : (fields w.toNat).opcode.val = family) :
    ofAddress family (fields w.toNat).nnn = w.toNat := by
  rw [fields_opcode] at h
  rw [Machine.fields_natCast, ofAddress]
  dsimp only
  omega

theorem ofByte_fields (h : (fields w.toNat).opcode.val = family) :
    ofByte family (fields w.toNat).x (fields w.toNat).nn = w.toNat := by
  rw [fields_opcode] at h
  rw [Machine.fields_natCast, ofByte, Nibble.ofNat_val, UInt8.toNat_ofNat']
  omega

theorem ofNibbles_fields (h : (fields w.toNat).opcode.val = family) :
    ofNibbles family (fields w.toNat).x (fields w.toNat).y (fields w.toNat).n = w.toNat := by
  rw [fields_opcode] at h
  rw [Machine.fields_natCast, ofNibbles]
  simp only [Nibble.ofNat_val]
  omega

end Decoded

end Word

def Logic.nibble : Logic → Nibble
  | copy => Nibble.ofNat 0x0
  | or => Nibble.ofNat 0x1
  | and => Nibble.ofNat 0x2
  | xor => Nibble.ofNat 0x3

def Arith.nibble : Arith → Nibble
  | add => Nibble.ofNat 0x4
  | sub => Nibble.ofNat 0x5
  | shr => Nibble.ofNat 0x6
  | subn => Nibble.ofNat 0x7
  | shl => Nibble.ofNat 0xE

theorem Logic.nibble_lt (op : Logic) : op.nibble.val < 4 := by
  cases op <;> decide

theorem Arith.le_nibble (op : Arith) : 4 ≤ op.nibble.val := by
  cases op <;> decide

namespace Instruction

open Word

def encode : Instruction → Nat
  | cls => 0x00E0
  | ret => 0x00EE
  | sys a => ofAddress 0x0 a
  | jp a => ofAddress 0x1 a
  | call a => ofAddress 0x2 a
  | seByte x b => ofByte 0x3 x b
  | sneByte x b => ofByte 0x4 x b
  | seReg x y => ofNibbles 0x5 x y Nibble.zero
  | ldByte x b => ofByte 0x6 x b
  | addByte x b => ofByte 0x7 x b
  | logic op x y => ofNibbles 0x8 x y op.nibble
  | arith op x y => ofNibbles 0x8 x y op.nibble
  | sneReg x y => ofNibbles 0x9 x y Nibble.zero
  | ldIndex a => ofAddress 0xA a
  | jpOffset a => ofAddress 0xB a
  | rnd x mask => ofByte 0xC x mask
  | drw x y rows => ofNibbles 0xD x y rows
  | skp x => ofByte 0xE x 0x9E
  | sknp x => ofByte 0xE x 0xA1
  | getDelay x => ofByte 0xF x 0x07
  | waitKey x => ofByte 0xF x 0x0A
  | setDelay x => ofByte 0xF x 0x15
  | setSound x => ofByte 0xF x 0x18
  | addIndex x => ofByte 0xF x 0x1E
  | ldGlyph x => ofByte 0xF x 0x29
  | storeDecimal x => ofByte 0xF x 0x33
  | storeRegisters x => ofByte 0xF x 0x55
  | loadRegisters x => ofByte 0xF x 0x65
  | illegal w => w.toNat

variable {w : UInt16}

theorem encode_illegal : (illegal (Word.low16 w.toNat)).encode = w.toNat := by
  have := w.toNat_lt
  have low := Word.toNat_low16 w.toNat
  simp only [encode]
  omega

theorem encode_ite {c : Prop} [Decidable c] {i j : Instruction} (hi : c → i.encode = w.toNat)
    (hj : j.encode = w.toNat) : (if c then i else j).encode = w.toNat := by
  split
  case isTrue holds => exact hi holds
  case isFalse => exact hj

theorem encode_ofOperation (family : (Word.fields w.toNat).opcode.val = 0x8) :
    (ofOperation w.toNat (Word.fields w.toNat)).encode = w.toNat := by
  have operation {n : Nibble} (h : (Word.fields w.toNat).n.val = n.val) :
      ofNibbles 0x8 (Word.fields w.toNat).x (Word.fields w.toNat).y n = w.toNat :=
    Fin.ext h ▸ ofNibbles_fields family
  unfold ofOperation
  split
  case h_10 => exact encode_illegal
  all_goals exact operation ‹_›

theorem encode_ofSelector (family : (Word.fields w.toNat).opcode.val = 0xF) :
    (ofSelector w.toNat (Word.fields w.toNat)).encode = w.toNat := by
  have selector {b : UInt8} (h : (Word.fields w.toNat).nn.toNat = b.toNat) :
      ofByte 0xF (Word.fields w.toNat).x b = w.toNat :=
    UInt8.toNat_inj.mp h ▸ ofByte_fields family
  unfold ofSelector
  split
  case h_10 => exact encode_illegal
  all_goals exact selector ‹_›

theorem encode_ofFields : (ofFields w.toNat (Word.fields w.toNat)).encode = w.toNat := by
  unfold ofFields
  split
  case h_1 h | h_2 h | h_3 h | h_11 h | h_12 h => exact ofAddress_fields h
  case h_4 h | h_5 h | h_7 h | h_8 h | h_13 h => exact ofByte_fields h
  case h_14 h => exact ofNibbles_fields h
  case h_6 h | h_10 h =>
    have zero (n : (Word.fields w.toNat).n = Nibble.zero) := n ▸ ofNibbles_fields h
    exact encode_ite (fun n => zero (Fin.ext n)) encode_illegal
  case h_9 h => exact encode_ofOperation h
  case h_15 h =>
    have selector {b : UInt8} (nn : (Word.fields w.toNat).nn = b) := nn ▸ ofByte_fields h
    exact encode_ite selector (encode_ite selector encode_illegal)
  case h_16 =>
    -- No other family is left.
    have last : (Word.fields w.toNat).opcode.val = 0xF := by
      have := (Word.fields w.toNat).opcode.isLt
      simp only [imp_false] at *
      omega
    exact encode_ofSelector last

/-- Decoding loses nothing: an instruction has the word that it was decoded from. -/
theorem encode_decode (w : UInt16) : (decode w.toNat).encode = w.toNat := by
  by_cases cls : w = 0x00E0
  · subst cls
    rfl
  by_cases ret : w = 0x00EE
  · subst ret
    rfl
  rw [Machine.decode_of_operands cls ret]
  exact encode_ofFields

/-- Whether a machine can carry out the instruction at all. The words of the others may have another meaning. -/
def isDefined : Instruction → Bool
  | sys _ | illegal _ => false
  | _ => true

theorem encode_lt (i : Instruction) : i.encode < 0x10000 := by
  cases i with
  | cls | ret => decide
  | illegal w => exact w.toNat_lt
  | sys a | jp a | call a | ldIndex a | jpOffset a => simp only [encode, ofAddress]; omega
  | seByte x b | sneByte x b | ldByte x b | addByte x b | rnd x b =>
    have := b.toNat_lt
    simp only [encode, ofByte]
    omega
  | seReg x y | sneReg x y | logic op x y | arith op x y | drw x y n =>
    simp only [encode, ofNibbles]
    omega
  | _ => simp [encode, ofByte]; omega

theorem le_encode {i : Instruction} (defined : i.isDefined = true) (operands : i ≠ cls ∧ i ≠ ret) :
    0x1000 ≤ i.encode := by
  cases i with
  | cls | ret => simp at operands
  | sys a | illegal w => cases defined
  | _ => simp only [encode, ofAddress, ofByte, ofNibbles]; omega

/-- A word of sixteen bits that starts with a family is told by its operands. -/
theorem decode_of_le {n : Nat} (bound : n < 0x10000) (family : 0x1000 ≤ n) : decode n = ofFields n
    { raw := n
      opcode := Nibble.ofNat (n / 4096)
      x := Nibble.ofNat (n / 256)
      y := Nibble.ofNat (n / 16)
      n := Nibble.ofNat n
      nn := UInt8.ofNat n
      nnn := ⟨n % 4096, Nat.mod_lt _ (by decide)⟩ } := by
  obtain ⟨w, rfl⟩ : ∃ w : UInt16, w.toNat = n :=
    ⟨UInt16.ofNat n, UInt16.toNat_ofNat_of_lt' bound⟩
  have cls : w ≠ 0x00E0 := by rintro rfl; simp at family
  have ret : w ≠ 0x00EE := by rintro rfl; simp at family
  rw [Machine.decode_of_operands cls ret, Machine.fields_natCast]

theorem decode_encode {i : Instruction} (defined : i.isDefined = true) : decode i.encode = i := by
  cases i with
  | cls | ret => rfl
  | sys a | illegal w => cases defined
  | logic op x y | arith op x y =>
    rw [decode_of_le (encode_lt _) (le_encode rfl (by simp))]
    cases op <;> simp [encode, ofFields, ofOperation, Logic.nibble, Arith.nibble]
  | _ =>
    rw [decode_of_le (encode_lt _) (le_encode rfl (by simp))]
    simp [encode, ofFields, ofSelector, Nibble.zero]

theorem decode_eq_iff {w : UInt16} {i : Instruction} (defined : i.isDefined = true) :
    decode w.toNat = i ↔ w.toNat = i.encode :=
  ⟨fun decodes => decodes ▸ (encode_decode w).symm, fun word => by rw [word, decode_encode defined]⟩

end Instruction

namespace Machine

theorem currentWord_eq_encode (m : Machine) : m.currentWord.toNat = m.current.encode :=
  (Instruction.encode_decode m.currentWord).symm

theorem current_of_word {m : Machine} {i : Instruction} (word : m.currentWord.toNat = i.encode)
    (defined : i.isDefined = true) : m.current = i :=
  (Instruction.decode_eq_iff defined).mpr word

theorem execute_of_word (m : Machine) {w : Int} {i : Instruction} (word : w = i.encode)
    (defined : i.isDefined = true) : m.execute w = m.perform i := by
  rw [execute, word, Instruction.decode_encode defined]

end Machine

end Chip8
