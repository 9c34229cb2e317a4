/-!
# Reading and writing bytes

Numbers of fixed size are written with the most significant byte first. A decoder reads from the
front of a list of bytes, and what it leaves unread is known also when it fails: a number of fixed
size that is cut short uses up all the bytes there are.

## Main definitions

* `Decoder` — readers that fail with a cause, run by `Decoder.decode`.
* `WireError` — why bytes cannot be read.
* `readByte`, `readShort`, `readLong` and `putShort`, `putLong` — numbers of fixed size.
-/

namespace VoxelChunk

/-- Why bytes could not be read. -/
inductive WireError where
  /-- The bytes end too early. -/
  | endOfInput
  /-- A variable-length integer goes on after its fifth byte. -/
  | varIntTooBig
  /-- The number of biomes does not fit the height of the world. -/
  | biomeCount
  deriving DecidableEq, Repr

/-- The text of a read that failed. -/
def WireError.message : WireError → String
  | endOfInput => "failed to fill whole buffer"
  | varIntTooBig => "var int too big"
  | biomeCount => "invalid biome array length"

/-- A reader of bytes that may fail, and then still leaves the bytes it did not read. -/
abbrev Decoder (ε : Type) := ExceptT ε (StateM (List UInt8))

namespace Decoder

variable {ε ε' α : Type}

/-- The outcome of a decoder on the given bytes, and the bytes left over. -/
def decode (d : Decoder ε α) (bytes : List UInt8) : Except ε α × List UInt8 := d.run.run bytes

/-- The decoder that does what `f` says on all bytes. -/
def ofFun (f : List UInt8 → Except ε α × List UInt8) : Decoder ε α := ExceptT.mk f

@[simp] theorem decode_ofFun (f : List UInt8 → Except ε α × List UInt8) (bytes : List UInt8) :
    (ofFun f).decode bytes = f bytes := rfl

/-- The same decoder with another kind of error. -/
def mapError (f : ε → ε') (d : Decoder ε α) : Decoder ε' α :=
  ofFun fun bytes => ((d.decode bytes).1.mapError f, (d.decode bytes).2)

@[simp] theorem decode_mapError (f : ε → ε') (d : Decoder ε α) (bytes : List UInt8) :
    (d.mapError f).decode bytes = ((d.decode bytes).1.mapError f, (d.decode bytes).2) := rfl

@[simp] theorem decode_pure (a : α) (bytes : List UInt8) :
    (pure a : Decoder ε α).decode bytes = (.ok a, bytes) := rfl

@[simp] theorem decode_throw (e : ε) (bytes : List UInt8) :
    (throw e : Decoder ε α).decode bytes = (.error e, bytes) := rfl

end Decoder

/-! ### Numbers of fixed size -/

/-- The next byte. -/
def readByte : Decoder WireError UInt8 :=
  .ofFun fun
    | [] => (.error .endOfInput, [])
    | b :: rest => (.ok b, rest)

/-- The next `k` bytes; if there are fewer, those are used up. -/
def readExactly (k : Nat) : Decoder WireError (List UInt8) :=
  .ofFun fun bytes =>
    if (bytes.take k).length = k then (.ok (bytes.take k), bytes.drop k)
    else (.error .endOfInput, [])

/-- The number whose digits in base 256 are the bytes, most significant first. -/
def bigEndian (bytes : List UInt8) : Nat := bytes.foldl (fun n b => n * 256 + b.toNat) 0

/-- The last `k` digits of `n` in base 256, most significant first. -/
def putBigEndian : Nat → Nat → List UInt8
  | 0, _ => []
  | k + 1, n => UInt8.ofNat (n >>> (8 * k)) :: putBigEndian k n

@[simp] theorem length_putBigEndian (k n : Nat) : (putBigEndian k n).length = k := by
  induction k with
  | zero => rfl
  | succ k ih => simp [putBigEndian, ih]

/-- The next two bytes as a number. -/
def readShort : Decoder WireError UInt16 := do
  return UInt16.ofNat (bigEndian (← readExactly 2))

/-- The next eight bytes as a number. -/
def readLong : Decoder WireError UInt64 := do
  return UInt64.ofNat (bigEndian (← readExactly 8))

/-- A short as two bytes. -/
def putShort (n : UInt16) : List UInt8 := putBigEndian 2 n.toNat

/-- A long as eight bytes. -/
def putLong (n : UInt64) : List UInt8 := putBigEndian 8 n.toNat

end VoxelChunk
