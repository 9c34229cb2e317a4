import VoxelChunk.Grid.Cell
import VoxelChunk.Grid.Height

/-!
# Sections, cells and columns

The section of a height, the cell of a block in its section and the column of a block tell where the
block is stored. Coordinates of 32 bits do not wrap around in a world that ends far from their
bounds.

## Main definitions

* `HeightLimit.InRange` — the world ends far from where coordinates wrap around.
* `BlockPos.InRange` — the coordinates fit in 32 bits.
* `ChunkPos.InRange` — the column lies where coordinates do not wrap around.

## Main results

* `HeightLimit.sectionIndex?_eq_some_iff` — the section of a height.
* `BlockPos.eq_of_ofBlock_eq` — a block is known by its column and its place in it.
-/

namespace VoxelChunk

/-! ### Heights and sections -/

namespace HeightLimit

variable {limit : HeightLimit} {y : Int} {index : Nat}

/-- The section of a height. -/
theorem sectionIndex?_eq_some_iff :
    limit.sectionIndex? y = some index ↔
      index < limit.sectionCount ∧ y / 16 = limit.bottom / 16 + index := by
  unfold sectionIndex? indexOfCoord? bottomSection sectionCoord
  constructor
  · intro h
    split at h
    · next hc =>
      cases h
      exact ⟨hc.2, by omega⟩
    · cases h
  · rintro ⟨hlt, heq⟩
    have hindex : (y / 16 - limit.bottom / 16).toNat = index := by omega
    rw [hindex, if_pos ⟨by omega, hlt⟩]

/-- The heights that have a section are those of the world. -/
theorem exists_sectionIndex?_iff :
    (∃ index, limit.sectionIndex? y = some index) ↔
      limit.bottom ≤ y ∧ y < limit.bottom + limit.height := by
  have hb := limit.bottom_aligned
  have hh := limit.height_aligned
  simp only [sectionIndex?_eq_some_iff, sectionCount]
  constructor
  · rintro ⟨index, hlt, heq⟩
    omega
  · intro h
    exact ⟨(y / 16 - limit.bottom / 16).toNat, by omega, by omega⟩

/-- The coordinates of the sections of the world follow each other. -/
theorem sectionCoordOf_eq (h : index < limit.sectionCount) :
    limit.sectionCoordOf index = limit.bottom / 16 + index := by
  have hheight := limit.height_lt
  unfold sectionCount at h
  unfold sectionCoordOf bottomSection sectionCoord wrap32
  rw [Int.bmod_eq_of_le (by omega) (by omega)]

/-- Each section of the world has its own coordinate. -/
theorem sectionCoordOf_inj {i j : Nat} (hi : i < limit.sectionCount) (hj : j < limit.sectionCount)
    (h : limit.sectionCoordOf i = limit.sectionCoordOf j) : i = j := by
  rw [sectionCoordOf_eq hi, sectionCoordOf_eq hj] at h
  omega

/-- The world ends far from where coordinates wrap around: its top is the number of blocks above its
bottom, not what is left of it in 32 bits. -/
structure InRange (limit : HeightLimit) : Prop where
  bottom : -1073741824 ≤ limit.bottom
  top : limit.bottom + limit.height < 1073741824

theorem InRange.height_lt (h : limit.InRange) : limit.height < 2147483648 := by
  have := h.bottom
  have := h.top
  omega

theorem InRange.top_eq (h : limit.InRange) : limit.top = limit.bottom + limit.height :=
  top_eq_of_lt h.height_lt

/-- The first block of a section of the world. -/
theorem InRange.minY_eq (h : limit.InRange) (hi : index < limit.sectionCount) :
    wrap32 (limit.sectionCoordOf index * 16) = limit.bottom + 16 * index := by
  have h₁ := h.bottom
  have h₂ := h.top
  have h₃ := limit.bottom_aligned
  have h₄ := limit.height_aligned
  rw [sectionCoordOf_eq hi]
  unfold sectionCount at hi
  unfold wrap32
  rw [Int.bmod_eq_of_le (by omega) (by omega)]
  omega

end HeightLimit

/-! ### Cells -/

/-- The blocks of a chunk that share a cell of a section are the same block, apart from the chunk
they are in. -/
theorem cellIndex_eq_iff {p q : BlockPos} :
    cellIndex p = cellIndex q ↔ p.x % 16 = q.x % 16 ∧ p.y % 16 = q.y % 16 ∧ p.z % 16 = q.z % 16 := by
  unfold cellIndex
  omega

/-! ### Blocks and columns -/

/-- The coordinates of a block fit in 32 bits. -/
structure BlockPos.InRange (p : BlockPos) : Prop where
  x : -2147483648 ≤ p.x ∧ p.x < 2147483648
  y : -2147483648 ≤ p.y ∧ p.y < 2147483648
  z : -2147483648 ≤ p.z ∧ p.z < 2147483648

/-- Blocks of one chunk that share a place in it are the same. -/
theorem BlockPos.eq_of_ofBlock_eq {p q : BlockPos} (h : ChunkPos.ofBlock p = ChunkPos.ofBlock q)
    (hx : p.x % 16 = q.x % 16) (hy : p.y = q.y) (hz : p.z % 16 = q.z % 16) : p = q := by
  obtain ⟨px, py, pz⟩ := p
  obtain ⟨qx, qy, qz⟩ := q
  obtain ⟨hcx, hcz⟩ := ChunkPos.mk.inj h
  simp only at hx hy hz hcx hcz
  rw [hy, show px = qx by omega, show pz = qz by omega]

/-- All blocks of the column have coordinates that fit in 32 bits. -/
def ChunkPos.InRange (column : ChunkPos) : Prop :=
  -134217728 ≤ column.x ∧ column.x < 134217728 ∧ -134217728 ≤ column.z ∧ column.z < 134217728

theorem ChunkPos.InRange.startX_eq {column : ChunkPos} (h : column.InRange) :
    column.startX = column.x * 16 := by
  obtain ⟨hx, hx', -⟩ := h
  exact Int.bmod_eq_of_le (by omega) (by omega)

theorem ChunkPos.InRange.startZ_eq {column : ChunkPos} (h : column.InRange) :
    column.startZ = column.z * 16 := by
  obtain ⟨-, -, hz, hz'⟩ := h
  exact Int.bmod_eq_of_le (by omega) (by omega)

/-- Within range, the blocks that queues stand for lie in the column of the chunk. -/
theorem ChunkPos.InRange.contains_unpackLocal {column : ChunkPos} (h : column.InRange)
    (packed : UInt16) (sectionY : Int) :
    column.contains (unpackLocal packed sectionY column) = true := by
  unfold ChunkPos.contains ChunkPos.ofBlock unpackLocal
  rw [beq_iff_eq, h.startX_eq, h.startZ_eq]
  obtain ⟨x, z⟩ := column
  simp only [ChunkPos.mk.injEq]
  omega

/-- A block whose coordinates fit in 32 bits lies in a column within range. -/
theorem BlockPos.InRange.ofBlock {p : BlockPos} (h : p.InRange) : (ChunkPos.ofBlock p).InRange := by
  obtain ⟨hx, -, hz⟩ := h
  unfold ChunkPos.InRange ChunkPos.ofBlock
  dsimp only
  omega

end VoxelChunk
