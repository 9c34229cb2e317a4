import Mathlib.Data.Set.Function
import VoxelChunk.Proofs.Grid

/-!
# Addresses of blocks

A block is found in a world by its chunk, the section of its height, and its cell there. It is kept
in a queue as a short, from which its chunk and its section bring it back, and a chunk is kept as a
long. None of these loses anything: each stands for one block or one chunk.

## Main definitions

* `ChunkPos.InLong` — the coordinates of a chunk fit in a long, with 32 bits for each.

## Main results

* `HeightLimit.InRange.isSome_sectionIndex?_iff` — the heights that have a section.
* `unpackLocal_packLocal` — a block comes back from a queue.
* `bijOn_cellIndex` — the numbers of cells.
* `address_eq_iff` — chunk, section and cell tell blocks apart.
* `ChunkPos.ofLong_toLong`, `ChunkPos.toLong_ofLong` — chunks and longs stand for each other.
* `HeightLimit.InRange.addresses` — all addresses of blocks.
-/

namespace VoxelChunk

/-! ### Sections -/

namespace HeightLimit

variable {limit : HeightLimit} {y : Int} {index : Nat}

/-- The coordinate of the section with the index of a height is that of the height. -/
theorem sectionCoordOf_of_sectionIndex? (h : limit.sectionIndex? y = some index) :
    limit.sectionCoordOf index = sectionCoord y := by
  obtain ⟨hlt, hy⟩ := sectionIndex?_eq_some_iff.mp h
  rw [sectionCoordOf_eq hlt, sectionCoord, hy]

theorem InRange.isOutside_eq_false_iff (h : limit.InRange) :
    limit.isOutside y = false ↔ limit.bottom ≤ y ∧ y < limit.bottom + limit.height := by
  simp [isOutside, h.top_eq]

/-- The heights that have a section are those that are not outside. -/
theorem InRange.isSome_sectionIndex?_iff (h : limit.InRange) :
    (limit.sectionIndex? y).isSome ↔ limit.isOutside y = false := by
  rw [h.isOutside_eq_false_iff, ← exists_sectionIndex?_iff, Option.isSome_iff_exists]

end HeightLimit

/-! ### Cells and queues -/

/-- A block comes back from the queue of its section. -/
theorem unpackLocal_packLocal {p : BlockPos} (h : p.InRange) :
    unpackLocal (packLocal p) (sectionCoord p.y) (ChunkPos.ofBlock p) = p := by
  -- twelve bits are used, so that nothing is lost in a short
  have hpacked : (packLocal p).toNat = (p.x % 16 + p.y % 16 * 16 + p.z % 16 * 256).toNat := by
    rw [packLocal, UInt16.toNat_ofNat']
    omega
  have hy : wrap32 (sectionCoord p.y * 16) = p.y / 16 * 16 := by
    have := h.y
    unfold sectionCoord wrap32
    rw [Int.bmod_eq_of_le (by omega) (by omega)]
  unfold unpackLocal
  rw [h.ofBlock.startX_eq, h.ofBlock.startZ_eq, hpacked, hy]
  obtain ⟨x, y, z⟩ := p
  simp only [ChunkPos.ofBlock, BlockPos.mk.injEq]
  omega

/-- The blocks of a section have the numbers below the count of its cells, each number once. -/
theorem bijOn_cellIndex : Set.BijOn cellIndex {p | p.inSection = p} {i | i < cellCount} := by
  refine ⟨fun p _ => cellIndex_lt p, fun p hp q hq heq => ?_, fun i hi => ?_⟩
  · calc p = cellPos (cellIndex p) := by rw [cellPos_cellIndex, hp]
      _ = cellPos (cellIndex q) := by rw [heq]
      _ = q := by rw [cellPos_cellIndex, hq]
  · refine ⟨cellPos i, ?_, cellIndex_cellPos hi⟩
    show (cellPos i).inSection = cellPos i
    rw [← cellPos_cellIndex, cellIndex_cellPos hi]

/-- Blocks that have a section are told apart by chunk, section and cell. -/
theorem address_eq_iff {limit : HeightLimit} {p q : BlockPos}
    (hp : (limit.sectionIndex? p.y).isSome) :
    (ChunkPos.ofBlock p = ChunkPos.ofBlock q ∧ limit.sectionIndex? p.y = limit.sectionIndex? q.y ∧
      cellIndex p = cellIndex q) ↔ p = q := by
  refine ⟨fun ⟨hchunk, hsection, hcell⟩ => ?_, fun heq => by simp [heq]⟩
  obtain ⟨index, hindex⟩ := Option.isSome_iff_exists.mp hp
  obtain ⟨-, hyp⟩ := HeightLimit.sectionIndex?_eq_some_iff.mp hindex
  obtain ⟨-, hyq⟩ := HeightLimit.sectionIndex?_eq_some_iff.mp (hsection ▸ hindex)
  obtain ⟨hx, hy, hz⟩ := cellIndex_eq_iff.mp hcell
  -- the section is the quotient of the height, and the cell has its remainder
  exact BlockPos.eq_of_ofBlock_eq hchunk hx (by omega) hz

/-! ### Chunks -/

theorem wrap32_bounds (n : Int) : -2147483648 ≤ wrap32 n ∧ wrap32 n < 2147483648 :=
  ⟨Int.le_bmod (by decide), Int.bmod_lt (by decide)⟩

theorem wrap32_emod (n : Int) : wrap32 n % 4294967296 = n % 4294967296 :=
  Int.bmod_emod

namespace ChunkPos

/-- The coordinates of a chunk fit in a long, with 32 bits for each. -/
structure InLong (c : ChunkPos) : Prop where
  x : -2147483648 ≤ c.x ∧ c.x < 2147483648
  z : -2147483648 ≤ c.z ∧ c.z < 2147483648

/-- The low half of the long of a chunk is `x`, the high half is `z`. -/
theorem toInt_toLong_emod (c : ChunkPos) : c.toLong.toInt % 18446744073709551616 =
    c.x % 4294967296 + c.z % 4294967296 * 4294967296 := by
  have hn : c.toLong.toInt % (18446744073709551616 : Nat) =
      (c.x % 4294967296 + c.z % 4294967296 * 4294967296) % (18446744073709551616 : Nat) := by
    rw [toLong, Int64.toInt_ofInt]
    exact Int.bmod_emod
  omega

/-- A chunk comes back from its long. -/
theorem ofLong_toLong {c : ChunkPos} (h : c.InLong) : ofLong c.toLong = c := by
  have hn := c.toInt_toLong_emod
  have hlow := wrap32_emod c.toLong.toInt
  have hbounds := wrap32_bounds c.toLong.toInt
  have hle := c.toLong.le_toInt
  have hlt := c.toLong.toInt_lt
  obtain ⟨hx, hz⟩ := h
  -- what is known of the long modulo 2 ^ 64 and of its low half modulo 2 ^ 32 is enough, since
  -- both lie in a range of that size
  obtain ⟨x, z⟩ := c
  simp only [ofLong, ChunkPos.mk.injEq] at *
  omega

theorem inLong_ofLong (n : Int64) : (ofLong n).InLong where
  x := wrap32_bounds n.toInt
  z := by
    have hle := n.le_toInt
    have hlt := n.toInt_lt
    unfold ofLong
    dsimp only
    omega

/-- A long comes back from its chunk. -/
theorem toLong_ofLong (n : Int64) : (ofLong n).toLong = n := by
  have hn := (ofLong n).toInt_toLong_emod
  have hlow := wrap32_emod n.toInt
  have hle := n.le_toInt
  have hlt := n.toInt_lt
  have hle' := (ofLong n).toLong.le_toInt
  have hlt' := (ofLong n).toLong.toInt_lt
  apply Int64.toInt_inj.mp
  simp only [ofLong] at *
  omega

end ChunkPos

/-! ### All addresses of blocks -/

/-- **Addresses stand for blocks one to one.** In a world that ends far from where coordinates wrap
around, exactly the heights that are not outside have a section. Blocks come back from the queues
of their sections and cells are numbered without gaps, so that chunk, section and cell tell blocks
of the world apart. Chunks and longs stand for each other. -/
theorem HeightLimit.InRange.addresses {limit : HeightLimit} (h : limit.InRange) :
    (∀ p : BlockPos, p.InRange →
      ((limit.sectionIndex? p.y).isSome ↔ limit.isOutside p.y = false) ∧
      (∀ index, limit.sectionIndex? p.y = some index →
        index < limit.sectionCount ∧ limit.sectionCoordOf index = p.y / 16) ∧
      unpackLocal (packLocal p) (sectionCoord p.y) (ChunkPos.ofBlock p) = p ∧
      cellPos (cellIndex p) = ⟨p.x % 16, p.y % 16, p.z % 16⟩) ∧
    Set.BijOn cellIndex {p | p.inSection = p} {i | i < cellCount} ∧
    (∀ p q : BlockPos, p.InRange → q.InRange →
      limit.isOutside p.y = false → limit.isOutside q.y = false →
      ((ChunkPos.ofBlock p = ChunkPos.ofBlock q ∧
        limit.sectionIndex? p.y = limit.sectionIndex? q.y ∧ cellIndex p = cellIndex q) ↔ p = q)) ∧
    (∀ c : ChunkPos, c.InLong → ChunkPos.ofLong c.toLong = c) ∧
    ∀ n : Int64, (ChunkPos.ofLong n).InLong ∧ (ChunkPos.ofLong n).toLong = n := by
  refine ⟨fun p hp => ⟨h.isSome_sectionIndex?_iff, fun index hindex => ?_,
    unpackLocal_packLocal hp, cellPos_cellIndex p⟩, bijOn_cellIndex, fun p q _ _ hin _ =>
    address_eq_iff (h.isSome_sectionIndex?_iff.mpr hin), fun c hc => ChunkPos.ofLong_toLong hc,
    fun n => ⟨ChunkPos.inLong_ofLong n, ChunkPos.toLong_ofLong n⟩⟩
  exact ⟨lt_sectionCount_of_indexOfCoord? hindex, sectionCoordOf_of_sectionIndex? hindex⟩

/-- Thirty-two sections, eight of them below zero. -/
def deepWorld : HeightLimit := ⟨-128, 512, rfl, rfl, by decide, by decide⟩

/-- The highest block in a corner of the world has the last section, and comes back from its queue.
The block below the bottom has no section. -/
theorem addresses_deepWorld :
    deepWorld.InRange ∧
      deepWorld.sectionIndex? 383 = some 31 ∧ deepWorld.sectionCoordOf 31 = 23 ∧
      deepWorld.sectionIndex? (-129) = none ∧
      unpackLocal (packLocal ⟨-2147483648, 383, 2147483647⟩) 23 ⟨-134217728, 134217727⟩ =
        ⟨-2147483648, 383, 2147483647⟩ ∧
      ChunkPos.ofLong (ChunkPos.toLong ⟨-1, -2147483648⟩) = ⟨-1, -2147483648⟩ := by
  have hin : deepWorld.InRange := ⟨by decide, by decide⟩
  obtain ⟨hblock, -, -, hchunk, -⟩ := hin.addresses
  obtain ⟨-, hcoord, hqueue, -⟩ :=
    hblock ⟨-2147483648, 383, 2147483647⟩ ⟨by decide, by decide, by decide⟩
  obtain ⟨hbelow, -⟩ := hblock ⟨0, -129, 0⟩ ⟨by decide, by decide, by decide⟩
  have hindex : deepWorld.sectionIndex? 383 = some 31 := by decide
  refine ⟨hin, hindex, (hcoord 31 hindex).2, ?_, hqueue, hchunk _ ⟨by decide, by decide⟩⟩
  exact Option.not_isSome_iff_eq_none.mp (hbelow.not.mpr (by decide))

end VoxelChunk
