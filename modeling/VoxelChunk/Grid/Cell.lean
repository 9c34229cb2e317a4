import VoxelChunk.Grid.Position

/-!
# Cells of a section

The 4096 cells of a section are numbered with `x` fastest, then `z`, then `y`. Queues of blocks
kept beside the sections pack the same three coordinates into a short with `x` fastest, then `y`,
then `z`. Both use the coordinates relative to the section only.

## Main definitions

* `cellIndex`, `cellPos` — from a block to the number of its cell, and back.
* `packLocal`, `unpackLocal` — from a block to its packed short, and back given its section.
-/

namespace VoxelChunk

/-- The number of cells in a section. -/
def cellCount : Nat := 4096

/-- The number of a block's cell in its section. -/
def cellIndex (p : BlockPos) : Nat := (p.y % 16 * 256 + p.z % 16 * 16 + p.x % 16).toNat

/-- The place of a cell relative to the first block of the section. -/
def cellPos (index : Nat) : BlockPos := ⟨index % 16, index / 256 % 16, index / 16 % 16⟩

theorem cellIndex_lt (p : BlockPos) : cellIndex p < cellCount := by
  unfold cellIndex cellCount
  omega

/-- The place of a block's cell is the block's position relative to its section. -/
theorem cellPos_cellIndex (p : BlockPos) : cellPos (cellIndex p) = p.inSection := by
  simp only [cellPos, cellIndex, BlockPos.inSection, BlockPos.mk.injEq]
  omega

theorem cellIndex_cellPos {i : Nat} (h : i < cellCount) : cellIndex (cellPos i) = i := by
  simp only [cellPos, cellIndex, cellCount] at *
  omega

/-- The short that stands for a block in the queue of its section. -/
def packLocal (p : BlockPos) : UInt16 :=
  UInt16.ofNat (p.x % 16 + p.y % 16 * 16 + p.z % 16 * 256).toNat

/-- The block that a short stands for in the queue of the section at height `sectionY` of a
chunk. The four highest bits are ignored. -/
def unpackLocal (packed : UInt16) (sectionY : Int) (chunk : ChunkPos) : BlockPos :=
  let n := packed.toNat
  ⟨n % 16 + chunk.startX, n / 16 % 16 + wrap32 (sectionY * 16), n / 256 % 16 + chunk.startZ⟩

end VoxelChunk
