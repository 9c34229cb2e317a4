import VoxelChunk.Proofs.Grid
import VoxelChunk.Proofs.Heightmap

/-!
# Heights stay within the world

The cells of a heightmap are as wide as the heights of the world ask for, from its bottom up to the
top of its highest block. So no height is cut off, and heights that lie within the world do so as
long as they follow its blocks.

## Main definitions

* `Heightmap.Within` — all heights lie within the world.
* `Heightmap.give` — words are given to a heightmap, which may refuse them.
* `Heightmap.Built` — the heightmaps that a flat one can become.

## Main results

* `Heightmap.track_cases` — what a change of one block can do.
* `Heightmap.Within.track` — heights stay within the world.
* `Heightmap.highest_spec` — the greatest height.
* `Heightmap.Fits.give` — words are taken, or change nothing.
* `Heightmap.Built.heights_spec` — all of these, for each heightmap that can come up.
-/

namespace VoxelChunk.Heightmap

variable {limit : HeightLimit} {h : Heightmap} {x y z : Int}

/-- All heights lie within the world, the top of its highest block included. -/
def Within (limit : HeightLimit) (h : Heightmap) : Prop :=
  ∀ x z, limit.bottom ≤ h.get x z ∧ h.get x z ≤ limit.top

/-- Give words to a heightmap, which stays as it is if they are not as many as needed. -/
def give (h : Heightmap) (longs : List Int64) : Except StorageError Unit × Heightmap :=
  match h.setLongs longs with
  | .ok taken => (.ok (), taken)
  | .error e => (.error e, h)

/-- The heightmaps that a flat one can become. -/
inductive Built (limit : HeightLimit) : Heightmap → Prop
  | flat : Built limit (flat limit)
  | set {h : Heightmap} (x z y : Int) : Built limit h → Built limit (h.set x z y)
  | track {h : Heightmap} (x y z : Int) (counts : Bool) (column : Int → Bool) :
    Built limit h → Built limit (h.track x y z counts column).2
  | give {h : Heightmap} (longs : List Int64) : Built limit h → Built limit (h.give longs).2

/-! ### Words -/

/-- **Words are taken if they are as many as needed, else they change nothing.** -/
theorem Fits.give (hf : h.Fits limit) (longs : List Int64) :
    (longs.length = limit.heightmapWords →
      (h.give longs).1 = .ok () ∧ (h.give longs).2.toLongs = longs ∧
        (h.give longs).2.Fits limit) ∧
    (longs.length ≠ limit.heightmapWords → h.give longs =
      (.error (.invalidDataLength limit.heightmapWords longs.length), h)) := by
  obtain ⟨htaken, hrefused⟩ := hf.setLongs longs
  unfold Heightmap.give
  constructor
  · intro hlength
    obtain ⟨taken, hset, hfits⟩ := htaken hlength
    rw [hset]
    exact ⟨rfl, toLongs_of_setLongs hset, hfits⟩
  · intro hlength
    rw [hrefused hlength]

/-- The cells stay as wide as the world asks for. -/
theorem Built.fits (hb : h.Built limit) : h.Fits limit := by
  induction hb with
  | flat => exact fits_flat limit
  | set x z y _ ih => exact ih.set x z y
  | track x y z counts column _ ih => exact ih.track x y z counts column
  | @give h longs _ ih =>
    by_cases hlength : longs.length = limit.heightmapWords
    · exact ((ih.give longs).1 hlength).2.2
    · rw [(ih.give longs).2 hlength]
      exact ih

/-! ### Changes of one block -/

/-- What a change of one block can do: nothing, or the column gets another height, from the bottom
up to the top of the block. -/
theorem track_cases (hlo : h.bottom ≤ y) (x z : Int) (counts : Bool) (column : Int → Bool) :
    h.track x y z counts column = (false, h) ∨
      ∃ top, h.track x y z counts column = (true, h.set x z top) ∧ top ≠ h.get x z ∧
        h.bottom ≤ top ∧ top ≤ y + 1 := by
  unfold Heightmap.track
  dsimp only
  split
  · exact Or.inl rfl
  · split
    · split
      · -- the block stands above all that counted before
        exact Or.inr ⟨y + 1, rfl, by omega, by omega, Int.le_refl _⟩
      · exact Or.inl rfl
    · split
      · -- the topmost block is gone, and the column is searched below it
        have hbelow := isSurface_topBelow h.bottom column (y - h.bottom).toNat
        have hbottom := hbelow.bottom_le
        have htop := hbelow.le_top (by omega)
        exact Or.inr ⟨_, rfl, by omega, hbottom, by omega⟩
      · exact Or.inl rfl

/-! ### The greatest height -/

theorem mem_toList {v : Int} : v ∈ h.toList ↔ ∃ x z, h.get x z = v := by
  unfold toList
  simp only [List.mem_map, List.mem_range]
  constructor
  · rintro ⟨i, hi, rfl⟩
    have hcolumn : columnIndex (i % 16 : Nat) (i / 16 : Nat) = i := by
      unfold columnIndex columnCount at *
      omega
    exact ⟨(i % 16 : Nat), (i / 16 : Nat), by rw [get, hcolumn]⟩
  · rintro ⟨x, z, rfl⟩
    exact ⟨columnIndex x z, columnIndex_lt x z, rfl⟩

/-- **The greatest height** is that of a column, and no other column is higher. -/
theorem highest_spec (h : Heightmap) :
    (∃ x z, h.highest = h.get x z) ∧ ∀ x z, h.get x z ≤ h.highest := by
  -- there are columns, so the bottom is never put in the place of a greatest height
  have hne : h.toList ≠ [] := List.ne_nil_of_mem (mem_toList.mpr ⟨0, 0, rfl⟩)
  obtain ⟨top, htop⟩ := Option.ne_none_iff_exists'.mp (mt List.max?_eq_none_iff.mp hne)
  obtain ⟨hmem, hle⟩ := List.max?_eq_some_iff.mp htop
  unfold highest
  rw [htop, Option.getD_some]
  obtain ⟨x, z, hget⟩ := mem_toList.mp hmem
  exact ⟨⟨x, z, hget.symm⟩, fun x z => hle _ (mem_toList.mpr ⟨x, z, rfl⟩)⟩

/-! ### Worlds that end far from where coordinates wrap around -/

section InRange

variable (hrange : limit.InRange) (hf : h.Fits limit)
include hrange hf

/-- A height within the world is read back from its column, and no other column changes. -/
theorem get_set_of_inRange (hlo : limit.bottom ≤ y) (hhi : y ≤ limit.top) (x z x' z' : Int) :
    (h.set x z y).get x' z' =
      if x' % 16 = x % 16 ∧ z' % 16 = z % 16 then y else h.get x' z' := by
  rw [get_set hf hrange.height_lt hlo (hrange.top_eq ▸ hhi)]
  simp only [columnIndex_eq_iff]

/-- A change of one block changes no other column, and it is told whether it has changed its own. -/
theorem track_frame (hlo : limit.bottom ≤ y) (hhi : y < limit.top) (x z : Int) (counts : Bool)
    (column : Int → Bool) :
    (∀ x' z', ¬(x' % 16 = x % 16 ∧ z' % 16 = z % 16) →
      (h.track x y z counts column).2.get x' z' = h.get x' z') ∧
    ((h.track x y z counts column).1 = true ↔
      (h.track x y z counts column).2.get x z ≠ h.get x z) := by
  rcases track_cases (hf.bottom ▸ hlo) x z counts column with heq | ⟨top, heq, hne, hbottom, htop⟩
  · simp [heq]
  · have hget := get_set_of_inRange hrange hf (y := top) (hf.bottom ▸ hbottom) (by omega) x z
    rw [heq]
    refine ⟨fun x' z' hother => (hget x' z').trans (if_neg hother), fun _ => ?_, fun _ => rfl⟩
    rwa [hget, if_pos ⟨rfl, rfl⟩]

/-- Heights stay within the world, whatever is told of its blocks. -/
theorem Within.track (hw : h.Within limit) (hlo : limit.bottom ≤ y) (hhi : y < limit.top)
    (x z : Int) (counts : Bool) (column : Int → Bool) :
    (h.track x y z counts column).2.Within limit := by
  rcases track_cases (hf.bottom ▸ hlo) x z counts column with heq | ⟨top, heq, -, hbottom, htop⟩
  · rwa [heq]
  · intro x' z'
    have hlo' : limit.bottom ≤ top := hf.bottom ▸ hbottom
    rw [heq, get_set_of_inRange hrange hf hlo' (by omega)]
    split
    · exact ⟨hlo', by omega⟩
    · exact hw x' z'

end InRange

/-! ### All heightmaps that can come up -/

/-- **Heights are never cut off.** In a world that ends far from where coordinates wrap around, a
height up to the top of the highest block is read back. Heights that lie within the world stay there
as long as they follow its blocks, the greatest one is found, and words are taken as they are or not
at all. -/
theorem Built.heights_spec (hrange : limit.InRange) (hb : h.Built limit) :
    (∀ x z y, limit.bottom ≤ y → y ≤ limit.top → ∀ x' z', (h.set x z y).get x' z' =
      if x' % 16 = x % 16 ∧ z' % 16 = z % 16 then y else h.get x' z') ∧
    (∀ x y z counts column, limit.bottom ≤ y → y < limit.top →
      (h.Within limit → (h.track x y z counts column).2.Within limit) ∧
      (∀ x' z', ¬(x' % 16 = x % 16 ∧ z' % 16 = z % 16) →
        (h.track x y z counts column).2.get x' z' = h.get x' z') ∧
      ((h.track x y z counts column).1 = true ↔
        (h.track x y z counts column).2.get x z ≠ h.get x z)) ∧
    ((∃ x z, h.highest = h.get x z) ∧ ∀ x z, h.get x z ≤ h.highest) ∧
    ∀ longs : List Int64,
      (longs.length = limit.heightmapWords →
        (h.give longs).1 = .ok () ∧ (h.give longs).2.toLongs = longs) ∧
      (longs.length ≠ limit.heightmapWords → h.give longs =
        (.error (.invalidDataLength limit.heightmapWords longs.length), h)) := by
  have hf := hb.fits
  refine ⟨fun x z y hlo hhi => get_set_of_inRange hrange hf hlo hhi x z,
    fun x y z counts column hlo hhi => ⟨fun hw => ?_, track_frame hrange hf hlo hhi x z ..⟩,
    h.highest_spec, fun longs => ⟨fun hlength => ?_, (hf.give longs).2⟩⟩
  · exact Within.track hrange hf hw hlo hhi x z counts column
  · obtain ⟨hdone, hwords, -⟩ := (hf.give longs).1 hlength
    exact ⟨hdone, hwords⟩

/-- Sixteen sections, three of them below zero. A column has one of 257 heights, one more than eight
bits tell apart. -/
def sixteenSections : HeightLimit := ⟨-48, 256, rfl, rfl, by decide, by decide⟩

/-- The top of the highest block is read back, also when the heightmap was told of that block. Words
that are too few are refused. -/
theorem heights_sixteenSections :
    sixteenSections.InRange ∧ (flat sixteenSections).Built sixteenSections ∧
      ((flat sixteenSections).set 3 5 208).get 19 (-11) = 208 ∧
      ((flat sixteenSections).track 3 207 5 true fun _ => false).2.Within sixteenSections ∧
      ((flat sixteenSections).track 3 207 5 true fun _ => false).2.get 4 5 = -48 ∧
      (flat sixteenSections).give [0] = (.error (.invalidDataLength 37 1), flat sixteenSections) := by
  have hin : sixteenSections.InRange := ⟨by decide, by decide⟩
  have hbuilt : (flat sixteenSections).Built sixteenSections := .flat
  have hwithin : (flat sixteenSections).Within sixteenSections := fun x z => by
    rw [get_flat]
    decide
  obtain ⟨hset, htrack, -, hgive⟩ := hbuilt.heights_spec hin
  obtain ⟨hstays, hothers, -⟩ := htrack 3 207 5 true (fun _ => false) (by decide) (by decide)
  refine ⟨hin, hbuilt, (hset 3 5 208 (by decide) (by decide) 19 (-11)).trans (if_pos (by decide)),
    hstays hwithin, (hothers 4 5 (by decide)).trans (get_flat ..), ?_⟩
  exact (hgive [0]).2 (by decide)

end VoxelChunk.Heightmap
