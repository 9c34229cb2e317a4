import VoxelChunk.Wire.Bytes

/-!
# Variable-length integers

A 32-bit integer is written in groups of seven bits, lowest group first, one group a byte. The
high bit of a byte says that more groups follow. Negative integers are written as the 32-bit
pattern that stands for them, so they take five bytes.

## Main definitions

* `putVarInt` — the fewest groups that hold a value.
* `readVarInt` — the value of at most five groups; bits above the 32nd are dropped.
-/

namespace VoxelChunk

/-- The number of groups a 32-bit value may take. -/
def maxGroups : Nat := 5

/-- The groups of `value`, as many as needed but no more than the given number. -/
def putGroups : Nat → Nat → List UInt8
  | 0, _ => []
  | k + 1, value =>
    if value < 128 then [UInt8.ofNat value]
    else UInt8.ofNat (value % 128 + 128) :: putGroups k (value / 128)

/-- The bytes of a 32-bit integer. -/
def putVarInt (value : Int32) : List UInt8 := putGroups maxGroups value.toUInt32.toNat

/-- The value of the next groups, of which there may be no more than the given number. -/
def readGroups : Nat → Decoder WireError Nat
  | 0 => throw .varIntTooBig
  | k + 1 => do
    let b ← readByte
    if b.toNat < 128 then return b.toNat
    else return b.toNat - 128 + 128 * (← readGroups k)

/-- The next 32-bit integer. -/
def readVarInt : Decoder WireError Int32 := do
  return (UInt32.ofNat (← readGroups maxGroups)).toInt32

end VoxelChunk
