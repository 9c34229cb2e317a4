import VoxelChunk.Grid.Height
import VoxelChunk.Storage.Error

/-!
# Heightmaps

A heightmap holds, for each of the 256 columns of a chunk, the height just above the topmost block
that counts, or the bottom of the world if none does. Heights are stored relative to the bottom in
a packed array.

## Main definitions

* `Heightmap.get`, `Heightmap.set` — the height of a column.
* `Heightmap.track` — the heightmap after a block of a column has changed.
* `topBelow` — the height just above the topmost block that counts below a given height.
* `Heightmap.toLongs`, `Heightmap.setLongs` — the packed words.
-/

namespace VoxelChunk

/-- The height just above the topmost of the `n` blocks from `bottom` up that counts, or `bottom`
if none does. -/
def topBelow (bottom : Int) (counts : Int → Bool) : Nat → Int
  | 0 => bottom
  | n + 1 => if counts (bottom + n) then bottom + n + 1 else topBelow bottom counts n

/-- The number of columns of a chunk. -/
def columnCount : Nat := 256

/-- A height for each column of a chunk. -/
structure Heightmap where
  bottom : Int
  /-- The heights relative to the bottom. -/
  cells : PackedArray
  deriving DecidableEq

namespace Heightmap

/-- The heightmap with all columns at the bottom. -/
def flat (limit : HeightLimit) : Heightmap :=
  ⟨limit.bottom, .zero (ceilLog2 (limit.height + 1)) columnCount⟩

/-- The number of a column, of which only the place in the chunk matters. -/
def columnIndex (x z : Int) : Nat := (x % 16 + z % 16 * 16).toNat

theorem columnIndex_lt (x z : Int) : columnIndex x z < columnCount := by
  unfold columnIndex columnCount
  omega

/-- The height of a column. -/
def get (h : Heightmap) (x z : Int) : Int := wrap32 (h.cells.get (columnIndex x z)) + h.bottom

/-- The heightmap with the height of a column set. -/
def set (h : Heightmap) (x z y : Int) : Heightmap :=
  { h with cells := h.cells.set (columnIndex x z) ((y - h.bottom) % 4294967296).toNat }

/-- The heightmap after the block at height `y` of a column has changed, and whether the column
has. That the block counts now is told by `counts`; blocks below are asked by `column` only when
the topmost one no longer counts. -/
def track (h : Heightmap) (x y z : Int) (counts : Bool) (column : Int → Bool) : Bool × Heightmap :=
  let top := h.get x z
  if y ≤ top - 2 then (false, h)
  else if counts then
    if top ≤ y then (true, h.set x z (y + 1)) else (false, h)
  else if top - 1 = y then
    (true, h.set x z (topBelow h.bottom column (y - h.bottom).toNat))
  else (false, h)

/-- The heights of all columns in the order of their numbers. -/
def toList (h : Heightmap) : List Int :=
  (List.range columnCount).map fun i => wrap32 (h.cells.get i) + h.bottom

/-- The greatest height of a column. -/
def highest (h : Heightmap) : Int := h.toList.max?.getD h.bottom

/-- The packed words. -/
def toLongs (h : Heightmap) : List Int64 := h.cells.words.toList.map UInt64.toInt64

/-- Replace all heights by packed words, if they are as many as needed. -/
def setLongs (h : Heightmap) (longs : List Int64) : Except StorageError Heightmap :=
  (PackedArray.ofWords? h.cells.bits columnCount (longs.toArray.map Int64.toUInt64)).map
    fun cells => { h with cells }

end Heightmap

end VoxelChunk
