import Mathlib.Algebra.Group.Nat.Defs
import VoxelChunk.Heightmap.Columns
import VoxelChunk.Proofs.Storage.Packed

/-!
# Heightmaps follow their columns

A heightmap is told about one changed block at a time and looks at other blocks only when the
topmost block of a column no longer counts. Still each height stays the one that a look at the
whole column would give.

## Main definitions

* `IsSurface` — a height lies just above the topmost block that counts.
* `Heightmap.Fits` — the cells are as many and as wide as the world asks for.
* `HeightLimit.heightmapWords` — the number of words that the heights take.

## Main results

* `isSurface_topBelow` — `topBelow` finds the surface.
* `Heightmap.get_set` — a height within the world is read back, and no other column changes.
* `Heightmap.Fits.setLongs` — words are taken exactly if they are as many as needed.
* `Heightmap.track_spec` — a change of one block is followed.
-/

namespace VoxelChunk

/-! ### Surfaces -/

/-- `h` lies just above the topmost block that counts, from `bottom` up and below `top`; if none
counts, it is `bottom`. -/
structure IsSurface (bottom top : Int) (counts : Int → Bool) (h : Int) : Prop where
  reached : h = bottom ∨ bottom < h ∧ h ≤ top ∧ counts (h - 1) = true
  clear : ∀ y, h ≤ y → y < top → counts y = false

namespace IsSurface

variable {bottom top h h' : Int} {counts counts' : Int → Bool}

theorem bottom_le (hs : IsSurface bottom top counts h) : bottom ≤ h := by
  rcases hs.reached with rfl | ⟨hlt, -, -⟩
  · exact Int.le_refl _
  · exact Int.le_of_lt hlt

theorem le_top (hs : IsSurface bottom top counts h) (hle : bottom ≤ top) : h ≤ top := by
  rcases hs.reached with rfl | ⟨-, hh, -⟩
  · exact hle
  · exact hh

/-- A column has one surface. -/
theorem unique (hs : IsSurface bottom top counts h) (hs' : IsSurface bottom top counts h') :
    h = h' := by
  -- the block below the higher of the two would be clear above the lower one
  have hle : ∀ {a b}, IsSurface bottom top counts a → IsSurface bottom top counts b → a ≤ b := by
    intro a b ha hb
    by_cases hlt : b < a
    · rcases ha.reached with rfl | ⟨-, htop, hcounts⟩
      · have := hb.bottom_le
        omega
      · rw [hb.clear (a - 1) (by omega) (by omega)] at hcounts
        cases hcounts
    · omega
  exact Int.le_antisymm (hle hs hs') (hle hs' hs)

theorem congr (hs : IsSurface bottom top counts h)
    (heq : ∀ y, bottom ≤ y → y < top → counts' y = counts y) : IsSurface bottom top counts' h where
  reached := by
    rcases hs.reached with rfl | ⟨hlt, htop, hcounts⟩
    · exact Or.inl rfl
    · exact Or.inr ⟨hlt, htop, (heq _ (by omega) (by omega)).trans hcounts⟩
  clear := by
    intro y hy htop
    have := hs.bottom_le
    rw [heq y (by omega) htop, hs.clear y hy htop]

/-- The surface of a column made of a lower and an upper part. -/
theorem append {mid : Int} (hs : IsSurface bottom mid counts h) (hs' : IsSurface mid top counts h')
    (hlo : bottom ≤ mid) (hhi : mid ≤ top) :
    IsSurface bottom top counts (if h' = mid then h else h') := by
  have hle := hs.le_top hlo
  split
  · next heq =>
    subst heq
    constructor
    · rcases hs.reached with hb | ⟨hlt, -, hcounts⟩
      · exact Or.inl hb
      · exact Or.inr ⟨hlt, by omega, hcounts⟩
    · intro y h₁ h₂
      by_cases hy : y < h'
      · exact hs.clear y h₁ hy
      · exact hs'.clear y (by omega) h₂
  · next hne =>
    rcases hs'.reached with heq | ⟨hlt, htop, hcounts⟩
    · exact absurd heq hne
    · exact ⟨Or.inr ⟨by omega, htop, hcounts⟩, hs'.clear⟩

theorem shift (hs : IsSurface bottom top counts h) (base : Int) :
    IsSurface (base + bottom) (base + top) (fun y => counts (y - base)) (base + h) where
  reached := by
    rcases hs.reached with rfl | ⟨hlt, htop, hcounts⟩
    · exact Or.inl rfl
    · refine Or.inr ⟨by omega, by omega, ?_⟩
      rwa [show base + h - 1 - base = h - 1 by omega]
  clear := fun y h₁ h₂ => hs.clear (y - base) (by omega) (by omega)

/-! The surface after the block at `y` has changed. -/

section Change

variable {y : Int} (hs : IsSurface bottom top counts h)
  (hsame : ∀ y', y' ≠ y → counts' y' = counts y')
include hs hsame

theorem change_below (hy : y ≤ h - 2) (hlo : bottom ≤ y) : IsSurface bottom top counts' h where
  reached := by
    rcases hs.reached with rfl | ⟨hlt, htop, hcounts⟩
    · omega
    · exact Or.inr ⟨hlt, htop, (hsame _ (by omega)).trans hcounts⟩
  clear := by
    intro y' h₁ h₂
    rw [hsame y' (by omega), hs.clear y' h₁ h₂]

theorem change_counts (hc : counts' y = true) (hy : h - 1 ≤ y) (hlo : bottom ≤ y) (hhi : y < top) :
    IsSurface bottom top counts' (y + 1) where
  reached := Or.inr ⟨by omega, by omega, by rwa [Int.add_sub_cancel]⟩
  clear := by
    intro y' h₁ h₂
    rw [hsame y' (by omega), hs.clear y' (by omega) h₂]

theorem change_clear (hc : counts' y = false) (hy : h ≤ y) : IsSurface bottom top counts' h where
  reached := by
    rcases hs.reached with rfl | ⟨hlt, htop, hcounts⟩
    · exact Or.inl rfl
    · exact Or.inr ⟨hlt, htop, (hsame _ (by omega)).trans hcounts⟩
  clear := by
    intro y' h₁ h₂
    by_cases hy' : y' = y
    · rw [hy', hc]
    · rw [hsame y' hy', hs.clear y' h₁ h₂]

/-- When the topmost block no longer counts, the surface is the one of the blocks below. -/
theorem change_topmost (hc : counts' y = false) (hy : h - 1 = y) {h' : Int}
    (hbelow : IsSurface bottom y counts' h') (hhi : y < top) : IsSurface bottom top counts' h' where
  reached := by
    rcases hbelow.reached with rfl | ⟨hlt, htop, hcounts⟩
    · exact Or.inl rfl
    · exact Or.inr ⟨hlt, by omega, hcounts⟩
  clear := by
    intro y' h₁ h₂
    rcases Int.lt_trichotomy y' y with hlt | rfl | hlt
    · exact hbelow.clear y' h₁ hlt
    · exact hc
    · rw [hsame y' (by omega), hs.clear y' (by omega) h₂]

end Change

end IsSurface

/-- `topBelow` finds the surface. -/
theorem isSurface_topBelow (bottom : Int) (counts : Int → Bool) (n : Nat) :
    IsSurface bottom (bottom + n) counts (topBelow bottom counts n) := by
  induction n with
  | zero => exact ⟨Or.inl rfl, fun y h₁ h₂ => by simp only [topBelow] at h₁; omega⟩
  | succ n ih =>
    unfold topBelow
    by_cases hc : counts (bottom + n) = true
    · rw [if_pos hc]
      refine ⟨Or.inr ⟨by omega, by omega, ?_⟩, fun y h₁ h₂ => by omega⟩
      rwa [Int.add_sub_cancel]
    · rw [if_neg hc]
      constructor
      · rcases ih.reached with h | ⟨h₁, h₂, h₃⟩
        · exact Or.inl h
        · exact Or.inr ⟨h₁, by omega, h₃⟩
      · intro y h₁ h₂
        by_cases hy : y = bottom + n
        · rw [hy]
          simpa using hc
        · exact ih.clear y h₁ (by omega)

/-! ### Heights -/

/-- The number of words that the heights of a chunk take. -/
def HeightLimit.heightmapWords (limit : HeightLimit) : Nat :=
  wordsFor (ceilLog2 (limit.height + 1)) columnCount

/-- Columns with the same number are the same column. -/
theorem columnIndex_eq_iff {x z x' z' : Int} :
    Heightmap.columnIndex x z = Heightmap.columnIndex x' z' ↔
      x % 16 = x' % 16 ∧ z % 16 = z' % 16 := by
  unfold Heightmap.columnIndex
  omega

namespace Heightmap

variable {limit : HeightLimit} {h h' : Heightmap} {x y z x' z' : Int} {longs : List Int64}

theorem get_congr (heq : columnIndex x z = columnIndex x' z') : h.get x z = h.get x' z' := by
  unfold get
  rw [heq]

/-- The cells of the heightmap are as many and as wide as a world with the given limit asks for. -/
structure Fits (limit : HeightLimit) (h : Heightmap) : Prop where
  bottom : h.bottom = limit.bottom
  bits : h.cells.bits = ceilLog2 (limit.height + 1)
  length : h.cells.length = columnCount

theorem fits_flat (limit : HeightLimit) : (flat limit).Fits limit := ⟨rfl, rfl, rfl⟩

theorem Fits.bits_le (hf : h.Fits limit) : h.cells.bits ≤ 32 := by
  rw [hf.bits]
  apply ceilLog2_le
  have := limit.height_lt
  omega

theorem Fits.set (hf : h.Fits limit) (x z y : Int) : (h.set x z y).Fits limit :=
  ⟨hf.bottom, (PackedArray.bits_set ..).trans hf.bits,
    (PackedArray.length_set ..).trans hf.length⟩

/-- The cells stay as they must be, whatever is told to the heightmap. -/
theorem Fits.track (hf : h.Fits limit) (x y z : Int) (counts : Bool) (column : Int → Bool) :
    (h.track x y z counts column).2.Fits limit := by
  rw [Heightmap.track]
  split
  · exact hf
  · split
    · split
      · exact hf.set ..
      · exact hf
    · split
      · exact hf.set ..
      · exact hf

theorem get_flat (limit : HeightLimit) (x z : Int) : (flat limit).get x z = limit.bottom := by
  unfold get flat
  rw [PackedArray.get_zero]
  exact Int.zero_add _

/-- A height within the world is read back, and no other column changes. -/
theorem get_set (hf : h.Fits limit) (hsize : limit.height < 2147483648) (hlo : limit.bottom ≤ y)
    (hhi : y ≤ limit.bottom + limit.height) (x z x' z' : Int) :
    (h.set x z y).get x' z' =
      if columnIndex x' z' = columnIndex x z then y else h.get x' z' := by
  have hvalue : ((y - h.bottom) % 4294967296).toNat = (y - limit.bottom).toNat := by
    rw [hf.bottom]
    omega
  have hlt : (y - limit.bottom).toNat < 2 ^ h.cells.bits := by
    have hle := le_two_pow_ceilLog2 (limit.height + 1)
    rw [hf.bits]
    omega
  have hcell := PackedArray.get_set hf.bits_le
    (by rw [hf.length]; exact columnIndex_lt x z) (by rw [hf.length]; exact columnIndex_lt x' z') hlt
  unfold get set
  simp only [hvalue, hcell]
  split
  · unfold wrap32
    rw [hf.bottom, Int.bmod_eq_of_le (by omega) (by omega)]
    omega
  · rfl

/-! ### Words -/

theorem setLongs_toLongs (hf : h.Fits limit) : (flat limit).setLongs h.toLongs = .ok h := by
  have hwords : h.toLongs.toArray.map Int64.toUInt64 = h.cells.words := by
    have hsame : Int64.toUInt64 ∘ UInt64.toInt64 = id := rfl
    simp [toLongs, hsame]
  have hcells : PackedArray.ofWords? (flat limit).cells.bits columnCount h.cells.words =
      .ok h.cells := by
    have hbits : (flat limit).cells.bits = h.cells.bits := hf.bits.symm
    unfold PackedArray.ofWords?
    rw [hbits, ← hf.length, if_neg (Nat.not_lt.2 hf.bits_le), dif_pos h.cells.size_words]
  unfold setLongs
  rw [hwords, hcells]
  exact congrArg Except.ok (by rw [show (flat limit).bottom = h.bottom from hf.bottom.symm])

/-- The words that heights are set by are kept as they are. -/
theorem toLongs_of_setLongs (hset : h.setLongs longs = .ok h') : h'.toLongs = longs := by
  have hsame : UInt64.toInt64 ∘ Int64.toUInt64 = id := rfl
  unfold setLongs PackedArray.ofWords? at hset
  split at hset
  · cases hset
  · split at hset
    · cases hset
      simp [toLongs, hsame]
    · cases hset

/-- Heights are set by words exactly if they are as many as needed. -/
theorem Fits.setLongs (hf : h.Fits limit) (longs : List Int64) :
    (longs.length = limit.heightmapWords → ∃ h', h.setLongs longs = .ok h' ∧ h'.Fits limit) ∧
      (longs.length ≠ limit.heightmapWords → h.setLongs longs =
        .error (.invalidDataLength limit.heightmapWords longs.length)) := by
  have hbits : ¬32 < h.cells.bits := Nat.not_lt.mpr hf.bits_le
  have hsize : (longs.toArray.map Int64.toUInt64).size = longs.length := by simp
  have hneeded : wordsFor h.cells.bits columnCount = limit.heightmapWords := by
    rw [hf.bits, HeightLimit.heightmapWords]
  unfold Heightmap.setLongs PackedArray.ofWords?
  rw [if_neg hbits]
  constructor
  · intro hlength
    rw [dif_pos (hsize.trans (hlength.trans hneeded.symm))]
    exact ⟨_, rfl, hf.bottom, hf.bits, rfl⟩
  · intro hlength
    rw [dif_neg (fun h => hlength (hsize.symm.trans (h.trans hneeded))), hsize, hneeded]
    rfl

/-! ### Changes of one block -/

/-- **A change of one block is followed.** Before, the height of the column was its surface for
`before`, which differs from `after` at `y` only. -/
theorem track_spec (hf : h.Fits limit) (hsize : limit.height < 2147483648)
    {before after : Int → Bool}
    (hs : IsSurface limit.bottom (limit.bottom + limit.height) before (h.get x z))
    (hlo : limit.bottom ≤ y) (hhi : y < limit.bottom + limit.height)
    (hsame : ∀ y', y' ≠ y → after y' = before y') :
    (h.track x y z (after y) after).2.Fits limit ∧
      IsSurface limit.bottom (limit.bottom + limit.height) after
        ((h.track x y z (after y) after).2.get x z) ∧
      ∀ x' z', columnIndex x' z' ≠ columnIndex x z →
        (h.track x y z (after y) after).2.get x' z' = h.get x' z' := by
  -- a column set to its new surface is all that any of the cases has to reach
  have hset : ∀ {v}, IsSurface limit.bottom (limit.bottom + limit.height) after v →
      (h.set x z v).Fits limit ∧
        IsSurface limit.bottom (limit.bottom + limit.height) after ((h.set x z v).get x z) ∧
        ∀ x' z', columnIndex x' z' ≠ columnIndex x z → (h.set x z v).get x' z' = h.get x' z' := by
    intro v hv
    have hget := get_set hf hsize hv.bottom_le (hv.le_top (by omega)) x z
    refine ⟨hf.set x z v, ?_, fun x' z' hne => (hget x' z').trans (if_neg hne)⟩
    rwa [hget x z, if_pos rfl]
  rw [track]
  split
  · next hbelow => exact ⟨hf, hs.change_below hsame hbelow hlo, fun _ _ _ => rfl⟩
  · next habove =>
    cases hc : after y with
    | true =>
      have hnew := hs.change_counts hsame hc (by omega) hlo hhi
      by_cases hle : h.get x z ≤ y
      · rw [if_pos hle]
        exact hset hnew
      · -- the block was the topmost one before, and counted then
        rw [if_neg hle]
        have htop : y + 1 = h.get x z := by omega
        exact ⟨hf, htop ▸ hnew, fun _ _ _ => rfl⟩
    | false =>
      by_cases htop : h.get x z - 1 = y
      · -- the topmost block is gone: the column is searched from there down
        rw [if_pos htop]
        apply hset
        have hbelow := isSurface_topBelow h.bottom after (y - h.bottom).toNat
        rw [hf.bottom, Int.toNat_of_nonneg (by omega),
          show limit.bottom + (y - limit.bottom) = y by omega] at hbelow
        rw [hf.bottom]
        exact hs.change_topmost hsame hc htop hbelow hhi
      · rw [if_neg htop]
        exact ⟨hf, hs.change_clear hsame hc (by omega), fun _ _ _ => rfl⟩

end Heightmap

end VoxelChunk
