/-!
# Packed arrays

A packed array keeps small numbers of a fixed number of bits in 64-bit words. An entry never
spans two words: each word holds as many entries as fit, the first in its lowest bits, and the
bits left over are zero in an array that was not read from outside.

## Main definitions

* `ceilLog2` — the number of bits that tell a number of values apart.
* `PackedArray` — the arrays; that the number of words is right is part of the type.
* `PackedArray.get`, `PackedArray.set`, `PackedArray.exchange` — one entry.
* `PackedArray.repack` — the same entries with another number of bits.
-/

namespace VoxelChunk

/-- The least number of bits that tell `n` values apart. -/
def ceilLog2 (n : Nat) : Nat := if n ≤ 1 then 0 else (n - 1).log2 + 1

/-- The number of words that hold `length` entries of `bits` bits. -/
def wordsFor (bits length : Nat) : Nat :=
  if bits = 0 then 0 else (length + 64 / bits - 1) / (64 / bits)

/-- Numbers of `bits` bits, packed into words. -/
structure PackedArray where
  bits : Nat
  length : Nat
  words : Array UInt64
  size_words : words.size = wordsFor bits length
  deriving DecidableEq

namespace PackedArray

/-- An array of zeros. -/
def zero (bits length : Nat) : PackedArray :=
  ⟨bits, length, Array.replicate (wordsFor bits length) 0, Array.size_replicate⟩

instance : Inhabited PackedArray := ⟨zero 0 0⟩

/-- There are no entries. -/
def isEmpty (a : PackedArray) : Bool := a.length == 0

/-- The number of entries in each word. -/
def perWord (a : PackedArray) : Nat := 64 / a.bits

/-- The word that holds an entry. -/
def wordOf (a : PackedArray) (i : Nat) : Nat := i / a.perWord

/-- The place of an entry's lowest bit in its word. -/
def shiftOf (a : PackedArray) (i : Nat) : UInt64 := UInt64.ofNat (i % a.perWord * a.bits)

/-- The word whose lowest bits, as many as an entry has, are ones. -/
def mask (a : PackedArray) : UInt64 := (1 <<< UInt64.ofNat a.bits) - 1

/-- The entry at a place. -/
def get (a : PackedArray) (i : Nat) : Nat :=
  if a.bits = 0 then 0
  else ((a.words.getD (a.wordOf i) 0 >>> a.shiftOf i) &&& a.mask).toNat

/-- The array with the entry at a place set to the lowest bits of `value`. -/
def set (a : PackedArray) (i value : Nat) : PackedArray :=
  if a.bits = 0 then a
  else
    let shift := a.shiftOf i
    let mask := a.mask
    { a with
      words := a.words.modify (a.wordOf i) fun w =>
        (w &&& ~~~(mask <<< shift)) ||| ((UInt64.ofNat value &&& mask) <<< shift)
      size_words := Array.size_modify.trans a.size_words }

/-- The entry at a place, and the array with that entry set. -/
def exchange (a : PackedArray) (i value : Nat) : Nat × PackedArray := (a.get i, a.set i value)

@[simp] theorem bits_set (a : PackedArray) (i v : Nat) : (a.set i v).bits = a.bits := by
  unfold set; split <;> rfl

@[simp] theorem length_set (a : PackedArray) (i v : Nat) : (a.set i v).length = a.length := by
  unfold set; split <;> rfl

/-- The entries, in order. -/
def toList (a : PackedArray) : List Nat := (List.range a.length).map a.get

/-- An array of `length` entries of `bits` bits, the one at `i` being `f i`. -/
def ofFn (bits length : Nat) (f : Nat → Nat) : PackedArray :=
  (List.range length).foldl (fun a i => a.set i (f i)) (zero bits length)

/-- The same entries with another number of bits. -/
def repack (a : PackedArray) (bits : Nat) : PackedArray := ofFn bits a.length a.get

end PackedArray

end VoxelChunk
