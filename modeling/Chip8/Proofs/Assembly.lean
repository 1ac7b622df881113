import Chip8.Instruction.Mnemonic

/-! Mnemonics read back. A mnemonic is a line of words, a keyword and its operands. Its instruction can be told from
it but for the second register of a shift, which it leaves out. -/

namespace Chip8

namespace Numeral

def digit? (c : Char) : Option Nibble :=
  Nibble.all.find? fun d => hexDigit d = c

@[simp] theorem digit?_hexDigit (d : Nibble) : digit? (hexDigit d) = some d := by
  revert d
  decide

theorem hexDigit_ne (d : Nibble) : hexDigit d ≠ ',' ∧ hexDigit d ≠ ' ' := by
  revert d
  decide

theorem plain_of_mem_toDigits (n : Nat) : ∀ c ∈ Nat.toDigits 10 n, c ≠ ',' ∧ c ≠ ' ' := by
  intro c mem
  have digit : c.isDigit := Nat.isDigit_of_mem_toDigits (by decide) (by decide) mem
  constructor <;>
    · rintro rfl
      exact absurd digit (by decide)

def value? (cs : List Char) : Option Nat :=
  cs.foldlM (fun n c => (digit? c).map fun d => 16 * n + d.val) 0

theorem value?_map_hexDigit (ds : List Nibble) :
    value? (ds.map hexDigit) = some (ds.foldl (fun n d => 16 * n + d.val) 0) := by
  unfold value?
  generalize 0 = n
  induction ds generalizing n with
  | nil => rfl
  | cons d ds ih => simp [ih]

theorem value?_byte (b : UInt8) : value? (byte b).toList = some b.toNat := by
  have bound := b.toNat_lt
  have digits : (byte b).toList = [Nibble.ofNat (b.toNat / 16), Nibble.ofNat b.toNat].map hexDigit :=
    String.toList_ofList
  rw [digits, value?_map_hexDigit]
  simp only [List.foldl_cons, List.foldl_nil, Nibble.ofNat_val, Option.some.injEq]
  omega

theorem value?_address (a : Fin 4096) : value? (address a).toList = some a.val := by
  have digits : (address a).toList = [Nibble.ofNat (a.val / 256), Nibble.ofNat (a.val / 16),
      Nibble.ofNat a.val].map hexDigit := String.toList_ofList
  rw [digits, value?_map_hexDigit]
  simp only [List.foldl_cons, List.foldl_nil, Nibble.ofNat_val, Option.some.injEq]
  omega

theorem value?_word (w : UInt16) : value? (word w).toList = some w.toNat := by
  have bound := w.toNat_lt
  have digits : (word w).toList = [Nibble.ofNat (w.toNat / 4096), Nibble.ofNat (w.toNat / 256),
      Nibble.ofNat (w.toNat / 16), Nibble.ofNat w.toNat].map hexDigit := String.toList_ofList
  rw [digits, value?_map_hexDigit]
  simp only [List.foldl_cons, List.foldl_nil, Nibble.ofNat_val, Option.some.injEq]
  omega

end Numeral

inductive Operand where
  | register (x : Nibble)
  | byte (b : UInt8)
  | address (a : Fin 4096)
  | word (w : UInt16)
  /-- A number of rows, in decimal. -/
  | count (n : Nibble)
  | index
  /-- The memory at the index register. -/
  | indirect
  | delay
  | sound
  | key
  | glyph
  | decimal
  deriving DecidableEq

namespace Operand

open Numeral

def text : Operand → String
  | register x => Instruction.registerText x
  | byte b => "0x" ++ Numeral.byte b
  | address a => Instruction.addressText a
  | word w => "0x" ++ Numeral.word w
  | count n => toString n.val
  | index => "I"
  | indirect => "[I]"
  | delay => "DT"
  | sound => "ST"
  | key => "K"
  | glyph => "F"
  | decimal => "B"

/-- The operand of a hexadecimal number. Its length tells what it is. -/
def numeral? (cs : List Char) : Option Operand := do
  let n ← value? cs
  match cs.length with
  | 2 => return byte (.ofNat n)
  | 3 => return address (Fin.ofNat 4096 n)
  | 4 => return word (.ofNat n)
  | _ => none

def read? : List Char → Option Operand
  | '0' :: 'x' :: cs => numeral? cs
  | ['V', c] => (digit? c).map register
  | ['I'] => some index
  | ['[', 'I', ']'] => some indirect
  | ['D', 'T'] => some delay
  | ['S', 'T'] => some sound
  | ['K'] => some key
  | ['F'] => some glyph
  | ['B'] => some decimal
  | cs => (Nibble.all.find? fun n => (toString n.val).toList = cs).map count

theorem read?_numeral (s : String) : read? ("0x" ++ s).toList = numeral? s.toList := by
  rw [String.toList_append]
  rfl

theorem read?_register (c : Char) : read? ['V', c] = (digit? c).map register := rfl

theorem read?_text (o : Operand) : read? o.text.toList = some o := by
  cases o with
  | register x =>
    have chars : (text (register x)).toList = ['V', hexDigit x] := by
      simp [text, Instruction.registerText, nibble]
    rw [chars, read?_register, digit?_hexDigit, Option.map_some]
  | byte b =>
    have length : (Numeral.byte b).toList.length = 2 := by simp [Numeral.byte]
    rw [text, read?_numeral]
    simp [numeral?, value?_byte, length]
  | address a =>
    have length : (Numeral.address a).toList.length = 3 := by simp [Numeral.address]
    rw [text, Instruction.addressText, read?_numeral]
    simp [numeral?, value?_address, length]
  | word w =>
    have length : (Numeral.word w).toList.length = 4 := by simp [Numeral.word]
    rw [text, read?_numeral]
    simp [numeral?, value?_word, length]
  | count n =>
    revert n
    decide
  | _ => rfl

theorem plain_of_mem_text (o : Operand) : ∀ c ∈ o.text.toList, c ≠ ',' ∧ c ≠ ' ' := by
  cases o with
  | count n => simpa [text] using plain_of_mem_toDigits n
  | _ =>
    simp [text, Instruction.registerText, Instruction.addressText, nibble, Numeral.byte, Numeral.address,
      Numeral.word, hexDigit_ne]

end Operand

def Arith.ignoresSecond : Arith → Bool
  | shr | shl => true
  | _ => false

namespace Instruction

open Operand

def line : Instruction → String × List Operand
  | cls => ("CLS", [])
  | ret => ("RET", [])
  | sys a => ("SYS", [address a])
  | jp a => ("JP", [address a])
  | call a => ("CALL", [address a])
  | seByte x b => ("SE", [register x, byte b])
  | sneByte x b => ("SNE", [register x, byte b])
  | seReg x y => ("SE", [register x, register y])
  | ldByte x b => ("LD", [register x, byte b])
  | addByte x b => ("ADD", [register x, byte b])
  | logic .copy x y => ("LD", [register x, register y])
  | logic .or x y => ("OR", [register x, register y])
  | logic .and x y => ("AND", [register x, register y])
  | logic .xor x y => ("XOR", [register x, register y])
  | arith .add x y => ("ADD", [register x, register y])
  | arith .sub x y => ("SUB", [register x, register y])
  | arith .shr x _ => ("SHR", [register x])
  | arith .subn x y => ("SUBN", [register x, register y])
  | arith .shl x _ => ("SHL", [register x])
  | sneReg x y => ("SNE", [register x, register y])
  | ldIndex a => ("LD", [.index, address a])
  | jpOffset a => ("JP", [register Nibble.zero, address a])
  | rnd x b => ("RND", [register x, byte b])
  | drw x y rows => ("DRW", [register x, register y, count rows])
  | skp x => ("SKP", [register x])
  | sknp x => ("SKNP", [register x])
  | getDelay x => ("LD", [register x, delay])
  | waitKey x => ("LD", [register x, key])
  | setDelay x => ("LD", [delay, register x])
  | setSound x => ("LD", [sound, register x])
  | addIndex x => ("ADD", [.index, register x])
  | ldGlyph x => ("LD", [glyph, register x])
  | storeDecimal x => ("LD", [decimal, register x])
  | storeRegisters x => ("LD", [indirect, register x])
  | loadRegisters x => ("LD", [register x, indirect])
  | illegal w => ("DW", [word w])

/-- The instruction of a line. A shift is read with register 0 in second place. -/
def ofLine? : String → List Operand → Option Instruction
  | "CLS", [] => some cls
  | "RET", [] => some ret
  | "SYS", [address a] => some (sys a)
  | "JP", [address a] => some (jp a)
  | "CALL", [address a] => some (call a)
  | "SE", [register x, byte b] => some (seByte x b)
  | "SNE", [register x, byte b] => some (sneByte x b)
  | "SE", [register x, register y] => some (seReg x y)
  | "LD", [register x, byte b] => some (ldByte x b)
  | "ADD", [register x, byte b] => some (addByte x b)
  | "LD", [register x, register y] => some (logic .copy x y)
  | "OR", [register x, register y] => some (logic .or x y)
  | "AND", [register x, register y] => some (logic .and x y)
  | "XOR", [register x, register y] => some (logic .xor x y)
  | "ADD", [register x, register y] => some (arith .add x y)
  | "SUB", [register x, register y] => some (arith .sub x y)
  | "SHR", [register x] => some (arith .shr x Nibble.zero)
  | "SUBN", [register x, register y] => some (arith .subn x y)
  | "SHL", [register x] => some (arith .shl x Nibble.zero)
  | "SNE", [register x, register y] => some (sneReg x y)
  | "LD", [.index, address a] => some (ldIndex a)
  | "JP", [register _, address a] => some (jpOffset a)
  | "RND", [register x, byte b] => some (rnd x b)
  | "DRW", [register x, register y, count rows] => some (drw x y rows)
  | "SKP", [register x] => some (skp x)
  | "SKNP", [register x] => some (sknp x)
  | "LD", [register x, delay] => some (getDelay x)
  | "LD", [register x, key] => some (waitKey x)
  | "LD", [delay, register x] => some (setDelay x)
  | "LD", [sound, register x] => some (setSound x)
  | "ADD", [.index, register x] => some (addIndex x)
  | "LD", [glyph, register x] => some (ldGlyph x)
  | "LD", [decimal, register x] => some (storeDecimal x)
  | "LD", [indirect, register x] => some (storeRegisters x)
  | "LD", [register x, indirect] => some (loadRegisters x)
  | "DW", [word w] => some (illegal w)
  | _, _ => none

def words (s : String) : List (List Char) :=
  (s.toList.filter (· ≠ ',')).splitOn ' '

def read? (s : String) : Option Instruction :=
  match words s with
  | [] => none
  | k :: os => do ofLine? (String.ofList k) (← os.mapM Operand.read?)

section Words

attribute [local simp] mnemonic line registersText registerByteText registerText addressText text Numeral.nibble
  Numeral.byte Numeral.address Numeral.word Numeral.hexDigit_ne

theorem filter_mnemonic (i : Instruction) : i.mnemonic.toList.filter (· ≠ ',') =
    [' '].intercalate (i.line.1.toList :: i.line.2.map fun o => o.text.toList) := by
  cases i with
  | logic op x y => cases op <;> simp
  | arith op x y => cases op <;> simp
  | jpOffset a => simp [show Numeral.hexDigit Nibble.zero = '0' from rfl]
  | drw x y rows => simpa using fun c digit => (Numeral.plain_of_mem_toDigits rows c digit).1
  | _ => simp

theorem blank_not_mem_keyword (i : Instruction) : ' ' ∉ i.line.1.toList := by
  cases i with
  | logic op x y => cases op <;> simp
  | arith op x y => cases op <;> simp
  | _ => simp

end Words

theorem words_mnemonic (i : Instruction) :
    words i.mnemonic = i.line.1.toList :: i.line.2.map fun o => o.text.toList := by
  rw [words, filter_mnemonic]
  refine List.splitOn_intercalate ' ' ?_ (List.cons_ne_nil _ _)
  refine List.forall_mem_cons.mpr ⟨blank_not_mem_keyword i, List.forall_mem_map.mpr fun o _ blank => ?_⟩
  exact (o.plain_of_mem_text ' ' blank).2 rfl

/-- The instruction as far as its mnemonic tells: a register that it leaves out is register 0. -/
def asWritten : Instruction → Instruction
  | arith op x y => arith op x (if op.ignoresSecond then Nibble.zero else y)
  | i => i

theorem ofLine?_line (i : Instruction) : ofLine? i.line.1 i.line.2 = some i.asWritten := by
  cases i with
  | logic op x y => cases op <;> rfl
  | arith op x y => cases op <;> rfl
  | _ => rfl

theorem mnemonic_asWritten (i : Instruction) : i.asWritten.mnemonic = i.mnemonic := by
  cases i with
  | arith op x y => cases op <;> rfl
  | _ => rfl

theorem mapM_read?_text (os : List Operand) :
    (os.map fun o => o.text.toList).mapM Operand.read? = some os := by
  induction os with
  | nil => rfl
  | cons o os ih => simp [Operand.read?_text, ih]

theorem read?_mnemonic (i : Instruction) : read? i.mnemonic = some i.asWritten := by
  rw [read?, words_mnemonic]
  simp only [mapM_read?_text, String.ofList_toList, Option.bind_eq_bind, Option.bind_some, ofLine?_line]

theorem mnemonic_eq_iff_asWritten {i j : Instruction} :
    i.mnemonic = j.mnemonic ↔ i.asWritten = j.asWritten := by
  constructor
  · intro same
    exact Option.some.inj (by rw [← read?_mnemonic, ← read?_mnemonic, same])
  · intro same
    rw [← mnemonic_asWritten i, ← mnemonic_asWritten j, same]

theorem asWritten_cases (i : Instruction) :
    i.asWritten = i ∨ ∃ op x y, op.ignoresSecond = true ∧ i = arith op x y := by
  cases i with
  | arith op x y =>
    cases ignored : op.ignoresSecond with
    | true => exact .inr ⟨op, x, y, ignored, rfl⟩
    | false => exact .inl (by simp [asWritten, ignored])
  | _ => exact .inl rfl

theorem asWritten_of_ignored {op : Arith} {x y : Nibble} (ignored : op.ignoresSecond = true) :
    (arith op x y).asWritten = arith op x Nibble.zero := by
  rw [asWritten, if_pos ignored]

/-- Instructions with one mnemonic differ at most in the second register of a shift. -/
theorem mnemonic_eq_iff {i j : Instruction} : i.mnemonic = j.mnemonic ↔
    i = j ∨ ∃ op x y y', op.ignoresSecond = true ∧ i = arith op x y ∧ j = arith op x y' := by
  rw [mnemonic_eq_iff_asWritten]
  constructor
  · intro same
    obtain whole | ⟨op, x, y, ignored, rfl⟩ := asWritten_cases i
    · obtain whole' | ⟨op', x', y', ignored', rfl⟩ := asWritten_cases j
      · exact .inl (by rw [← whole, same, whole'])
      · rw [whole, asWritten_of_ignored ignored'] at same
        exact .inr ⟨op', x', _, y', ignored', same, rfl⟩
    · obtain whole' | ⟨op', x', y', ignored', rfl⟩ := asWritten_cases j
      · rw [whole', asWritten_of_ignored ignored] at same
        exact .inr ⟨op, x, y, _, ignored, rfl, same.symm⟩
      · rw [asWritten_of_ignored ignored, asWritten_of_ignored ignored'] at same
        obtain ⟨rfl, rfl, -⟩ := Instruction.arith.inj same
        exact .inr ⟨op, x, y, y', ignored, rfl, rfl⟩
  · rintro (rfl | ⟨op, x, y, y', ignored, rfl, rfl⟩)
    · rfl
    · rw [asWritten_of_ignored ignored, asWritten_of_ignored ignored]

end Instruction
end Chip8
