/-!
# Positions on the block grid

Blocks lie on an integer grid. A chunk is a column of 16 by 16 blocks and a section is a cube of
16 blocks a side, so the chunk or section of a block is found by dividing its coordinates by 16,
rounding down.

Coordinates are the integers that fit in 32 bits. Going from a chunk or a section back to its
first block multiplies by 16 and keeps the low 32 bits, see `wrap32`.

## Main definitions

* `BlockPos`, `ChunkPos`, `SectionPos` — the three grids.
* `ChunkPos.ofBlock`, `SectionPos.ofBlock` — the cell of a coarser grid that holds a block.
* `ChunkPos.toLong`, `ChunkPos.ofLong` — a chunk position as one 64-bit word.
* `span`, `BlockPos.box` — the integers from one bound to another, and the blocks of a box.
-/

namespace VoxelChunk

/-- The signed 32-bit integer with the same low 32 bits as `n`. -/
def wrap32 (n : Int) : Int := n.bmod 4294967296

/-- The integers from `lo` to `hi`, both included, in ascending order. -/
def span (lo hi : Int) : List Int :=
  (List.range (hi + 1 - lo).toNat).map fun (i : Nat) => lo + i

theorem mem_span {lo hi n : Int} : n ∈ span lo hi ↔ lo ≤ n ∧ n ≤ hi := by
  simp only [span, List.mem_map, List.mem_range]
  constructor
  · rintro ⟨i, hi, rfl⟩
    omega
  · intro h
    exact ⟨(n - lo).toNat, by omega, by omega⟩

/-! ### Blocks -/

/-- The position of a block. -/
structure BlockPos where
  x : Int
  y : Int
  z : Int
  deriving DecidableEq, Repr, Inhabited

namespace BlockPos

instance : Add BlockPos := ⟨fun p q => ⟨p.x + q.x, p.y + q.y, p.z + q.z⟩⟩

instance : Sub BlockPos := ⟨fun p q => ⟨p.x - q.x, p.y - q.y, p.z - q.z⟩⟩

/-- The position with all three coordinates equal to `n`. -/
def splat (n : Int) : BlockPos := ⟨n, n, n⟩

/-- The square of the distance from the origin in 64-bit arithmetic, each coordinate cut to 32
bits. -/
def lengthSq (p : BlockPos) : Int64 :=
  let square (n : Int) : Int64 := .ofInt (wrap32 n) * .ofInt (wrap32 n)
  square p.x + square p.y + square p.z

/-- The position relative to the first block of its section. -/
def inSection (p : BlockPos) : BlockPos := ⟨p.x % 16, p.y % 16, p.z % 16⟩

/-- The positions of a box, corners included: `x` runs fastest and `y` slowest. -/
def box (lo hi : BlockPos) : List BlockPos :=
  (span lo.y hi.y).flatMap fun y =>
    (span lo.z hi.z).flatMap fun z => (span lo.x hi.x).map fun x => ⟨x, y, z⟩

/-- The text of a position, `[x, y, z]`. -/
def text (p : BlockPos) : String := s!"[{p.x}, {p.y}, {p.z}]"

@[simp] theorem add_x (p q : BlockPos) : (p + q).x = p.x + q.x := rfl
@[simp] theorem add_y (p q : BlockPos) : (p + q).y = p.y + q.y := rfl
@[simp] theorem add_z (p q : BlockPos) : (p + q).z = p.z + q.z := rfl
@[simp] theorem sub_x (p q : BlockPos) : (p - q).x = p.x - q.x := rfl
@[simp] theorem sub_y (p q : BlockPos) : (p - q).y = p.y - q.y := rfl
@[simp] theorem sub_z (p q : BlockPos) : (p - q).z = p.z - q.z := rfl

end BlockPos

/-- The vertical section coordinate of a block coordinate. -/
def sectionCoord (y : Int) : Int := y / 16

/-! ### Chunks -/

/-- The position of a chunk column. -/
structure ChunkPos where
  x : Int
  z : Int
  deriving DecidableEq, Repr, Inhabited

namespace ChunkPos

/-- The chunk that holds a block, whatever its height. -/
def ofBlock (p : BlockPos) : ChunkPos := ⟨p.x / 16, p.z / 16⟩

/-- The chunk position as one word: `x` in the low 32 bits, `z` in the high ones. -/
def toLong (c : ChunkPos) : Int64 :=
  Int64.ofInt (c.x % 4294967296 + c.z % 4294967296 * 4294967296)

/-- The chunk position written in a word by `toLong`. -/
def ofLong (n : Int64) : ChunkPos :=
  ⟨wrap32 n.toInt, n.toInt / 4294967296⟩

/-- The `x` coordinate of the first column of blocks. -/
def startX (c : ChunkPos) : Int := wrap32 (c.x * 16)

/-- The `z` coordinate of the first column of blocks. -/
def startZ (c : ChunkPos) : Int := wrap32 (c.z * 16)

/-- The block lies in the column of this chunk. -/
def contains (c : ChunkPos) (p : BlockPos) : Bool := ofBlock p == c

/-- The text of a chunk position, `[x, z]`. -/
def text (c : ChunkPos) : String := s!"[{c.x}, {c.z}]"

end ChunkPos

/-! ### Sections -/

/-- The position of a section. -/
structure SectionPos where
  x : Int
  y : Int
  z : Int
  deriving DecidableEq, Repr, Inhabited

namespace SectionPos

/-- The section that holds a block. -/
def ofBlock (p : BlockPos) : SectionPos := ⟨p.x / 16, sectionCoord p.y, p.z / 16⟩

/-- The chunk that holds a section. -/
def chunk (s : SectionPos) : ChunkPos := ⟨s.x, s.z⟩

/-- The block with the least coordinates in a section. -/
def minBlock (s : SectionPos) : BlockPos := ⟨wrap32 (s.x * 16), wrap32 (s.y * 16), wrap32 (s.z * 16)⟩

@[simp] theorem chunk_ofBlock (p : BlockPos) : (ofBlock p).chunk = ChunkPos.ofBlock p := rfl

end SectionPos

end VoxelChunk
