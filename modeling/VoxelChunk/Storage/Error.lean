import VoxelChunk.Wire.Bytes
import VoxelChunk.Storage.Packed
import VoxelChunk.Block.Facts

/-!
# What can be wrong with stored states

The causes for which stored or received states cannot be read, and their texts.
-/

namespace VoxelChunk

/-- Why stored states cannot be read. -/
inductive StorageError where
  /-- The bytes themselves cannot be read. -/
  | wire (cause : WireError)
  /-- A stored number has no entry in the palette. -/
  | missingEntry (raw : Nat)
  /-- No container has entries of this many bits. -/
  | invalidBits (bits : Nat)
  /-- The number of words does not fit the number of entries. -/
  | invalidDataLength (expected actual : Nat)
  /-- The palette is empty or longer than its entries can number. -/
  | invalidPaletteLength (length : Nat)
  /-- A state stands in the palette twice. -/
  | duplicateEntry (state : BlockState)
  /-- A length or the number of a state is negative. -/
  | negativeLength
  deriving DecidableEq, Repr

/-- The text of a storage error. -/
def StorageError.message : StorageError → String
  | wire cause => cause.message
  | missingEntry raw => s!"missing palette entry for raw value {raw}"
  | invalidBits bits => s!"invalid bits per entry: {bits}"
  | invalidDataLength expected actual =>
    s!"invalid packed data length, expected {expected} words, got {actual}"
  | invalidPaletteLength length => s!"invalid palette length: {length}"
  | duplicateEntry state => "duplicate palette entry: " ++ state.text
  | negativeLength => "negative length or id"

/-- The packed array made of the given words, if they are as many as it needs. -/
def PackedArray.ofWords? (bits length : Nat) (words : Array UInt64) :
    Except StorageError PackedArray :=
  if 32 < bits then .error (.invalidBits bits)
  else if h : words.size = wordsFor bits length then .ok ⟨bits, length, words, h⟩
  else .error (.invalidDataLength (wordsFor bits length) words.size)

end VoxelChunk
