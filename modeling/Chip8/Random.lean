/-! The random stream. A counter-based generator: a key and a counter of two words each are mixed into two words by
twenty rounds of Threefry. A key is split into the key of the rest of the stream and a key to draw from. -/

namespace Chip8

/-- Two words, as a key or as a counter. -/
structure Key where
  fst : UInt32
  snd : UInt32
  deriving DecidableEq, Repr

namespace Key

/-- The key of a seed: its thirty-two low bits. -/
def ofSeed (seed : Int) : Key :=
  ⟨0, UInt32.ofInt seed⟩

def rotateLeft (x : UInt32) (r : UInt32) : UInt32 :=
  (x <<< r) ||| (x >>> (32 - r))

/-- One round: the first word takes in the second, which is rotated and takes in the first. -/
def round (x : Key) (r : UInt32) : Key :=
  let s := x.fst + x.snd
  ⟨s, rotateLeft x.snd r ^^^ s⟩

/-- The third word of the key schedule. -/
def parity (k : Key) : UInt32 :=
  k.fst ^^^ k.snd ^^^ 0x1BD11BDA

/-- The word of the key schedule at `i`, counted modulo three. -/
def schedule (k : Key) (i : Nat) : UInt32 :=
  match i % 3 with
  | 0 => k.fst
  | 1 => k.snd
  | _ => k.parity

/-- The rotations of the `i`th group of four rounds. -/
def rotations (i : Nat) : List UInt32 :=
  if i % 2 = 0 then [13, 15, 26, 6] else [17, 29, 16, 24]

/-- Four rounds followed by an injection of the key schedule. -/
def fourRounds (k : Key) (x : Key) (i : Nat) : Key :=
  let x := (rotations i).foldl round x
  ⟨x.fst + k.schedule (i + 1), x.snd + k.schedule (i + 2) + UInt32.ofNat (i + 1)⟩

/-- Mixes the counter `x` under the key `k` in twenty rounds. -/
def threefry (k x : Key) : Key :=
  [0, 1, 2, 3, 4].foldl k.fourRounds ⟨x.fst + k.fst, x.snd + k.snd⟩

/-- The key of the rest of the stream. -/
def next (k : Key) : Key :=
  k.threefry ⟨0, 0⟩

/-- The key to draw from. -/
def sub (k : Key) : Key :=
  k.threefry ⟨0, 1⟩

def byte (k : Key) : UInt8 :=
  let x := k.threefry ⟨0, 0⟩
  (x.fst ^^^ x.snd).toUInt8

end Key
end Chip8
