import VoxelChunk.Storage.Container
import VoxelChunk.Wire.VarInt

/-!
# Containers as bytes

A container is written as the number of bits of a cell, then the palette if there is one, then the
packed words. Lengths and the numbers of states are variable-length integers. A container that is
received may also have no bits at all: then it holds one state in all cells and needs no words.

## Main definitions

* `Container.encode` — the bytes of a container.
* `Container.decoder` — the container of a given length that bytes stand for.
-/

namespace VoxelChunk

namespace Container

/-- A length or the number of a state as a variable-length integer. -/
def putNat (n : Nat) : List UInt8 := putVarInt (UInt32.ofNat n).toInt32

/-- The bytes of the palette: its length and its states, or nothing if the cells store states. -/
def encodePalette : Palette → List UInt8
  | .indexed states =>
    putNat states.size ++ states.toList.flatMap fun state => putNat state.id.toNat
  | .direct => []

/-- The bytes of a container. -/
def encode (c : Container) : List UInt8 :=
  UInt8.ofNat c.bits :: encodePalette c.palette ++
    putNat c.cells.words.size ++ c.cells.words.toList.flatMap putLong

/-- The next length or number of a state. -/
def readNat : Decoder StorageError Nat := do
  let n ← readVarInt.mapError .wire
  if n < 0 then throw .negativeLength else return n.toInt.toNat

/-- The next state. -/
def readState : Decoder StorageError BlockState := do return ⟨UInt32.ofNat (← readNat)⟩

/-- The next `n` states, which must differ from each other and from those in `states`. -/
def readStates : Nat → Array BlockState → Decoder StorageError (Array BlockState)
  | 0, states => return states
  | n + 1, states => do
    let state ← readState
    if states.contains state then throw (.duplicateEntry state)
    else readStates n (states.push state)

/-- The next `n` words, put behind those in `words`. -/
def readWords : Nat → Array UInt64 → Decoder StorageError (Array UInt64)
  | 0, words => return words
  | n + 1, words => do
    let word ← readLong.mapError .wire
    readWords n (words.push word)

/-- The palette for cells written with the given number of bits, and the number of bits that the
cells get once they are read. -/
def readPalette (wireBits globalBits : Nat) : Decoder StorageError (Palette × Nat) := do
  if wireBits = 0 then
    let state ← readState
    return (.indexed #[state], minIndexBits)
  else if wireBits ≤ maxIndexBits then
    let bits := max wireBits minIndexBits
    let length ← readNat
    if length = 0 ∨ 1 <<< bits < length then throw (.invalidPaletteLength length)
    else
      let states ← readStates length #[]
      return (.indexed states, bits)
  else if wireBits ≤ globalBits then return (.direct, globalBits)
  else throw (.invalidBits wireBits)

/-- The packed cells written with the given number of bits. -/
def readCells (wireBits length : Nat) : Decoder StorageError PackedArray := do
  let count ← readNat
  if wordsFor 32 length < count then
    throw (.invalidDataLength (wordsFor wireBits length) count)
  else
    let words ← readWords count #[]
    match PackedArray.ofWords? wireBits length words with
    | .error e => throw e
    | .ok cells => return cells

/-- The next container of the given length. -/
def decoder (length globalBits : Nat) : Decoder StorageError Container := do
  let wireBits := (← readByte.mapError .wire).toNat
  if 32 < wireBits then throw (.invalidBits wireBits)
  else
    let (palette, bits) ← readPalette wireBits globalBits
    let cells ← readCells wireBits length
    return ⟨globalBits, palette, if cells.bits = bits then cells else cells.repack bits⟩

end Container

end VoxelChunk
