import VoxelChunk.Biome

/-!
# The cubes of a world

The cubes of a world are numbered without gaps, and blocks have the number of a cube just if they
lie in it, where a block below or above the world counts as one at the bottom or at the top. So the
biome that is set for a block is the one of all blocks of its cube, and of no others.

## Main definitions

* `HeightLimit.nearest` — the height of the world nearest to a given one.
* `HeightLimit.SameCube` — two blocks lie in one cube.
* `Biomes.Built`, `Biomes.Fits` — the biomes that can be made for a world, and their shape.

## Main results

* `Biomes.Fits.cubeIndex_eq` — the number of a cube by layer, row and place.
* `Biomes.Fits.cubeIndex_eq_iff`, `Biomes.Fits.exists_cubeIndex` — numbers tell cubes apart, and
  each number is used.
* `Biomes.Built.cubes_spec` — biomes are set and read cube by cube.
-/

namespace VoxelChunk

/-! ### Cubes -/

namespace HeightLimit

/-- The height of the world that is nearest to the given one. -/
def nearest (limit : HeightLimit) (y : Int) : Int := max limit.bottom (min y (limit.top - 1))

/-- The blocks lie in one cube, once they are taken into the heights of the world. -/
structure SameCube (limit : HeightLimit) (p q : BlockPos) : Prop where
  x : p.x / 4 % 4 = q.x / 4 % 4
  layer : limit.nearest p.y / 4 = limit.nearest q.y / 4
  z : p.z / 4 % 4 = q.z / 4 % 4

variable {limit : HeightLimit}

/-- Heights are taken to layers of the world, counted from its bottom. -/
theorem nearest_layer (h : limit.height < 2147483648) (y : Int) :
    limit.bottom / 4 ≤ limit.nearest y / 4 ∧
      limit.nearest y / 4 < limit.bottom / 4 + limit.sectionCount * 4 := by
  have hb := limit.bottom_aligned
  have hh := limit.height_aligned
  have hpos := limit.height_pos
  unfold nearest sectionCount
  rw [top_eq_of_lt h]
  omega

theorem nearest_of_mem {y : Int} (h₁ : limit.bottom ≤ y) (h₂ : y < limit.top) :
    limit.nearest y = y := by
  unfold nearest
  omega

end HeightLimit

namespace Biomes

variable {limit : HeightLimit} {b : Biomes} {p q : BlockPos}

/-! ### Biomes that are made for a world -/

/-- The biomes that can be made for a world: the same one everywhere, or given ones, of which some
have been set. -/
inductive Built (limit : HeightLimit) : Biomes → Prop
  | filled (biome : Biome) : Built limit (.filled limit biome)
  | ofIds {b : Biomes} (ids : List UInt32) : ofIds? limit ids = some b → Built limit b
  | set {b : Biomes} (pos : BlockPos) (biome : Biome) :
    Built limit b → Built limit (b.set pos biome)

/-- There is one biome for each cube of the world. -/
structure Fits (limit : HeightLimit) (b : Biomes) : Prop where
  bottomLayer : b.bottomLayer = limit.bottom / 4
  size : b.size = countFor limit

@[simp] theorem size_set (b : Biomes) (pos : BlockPos) (biome : Biome) :
    (b.set pos biome).size = b.size :=
  Array.size_setIfInBounds

theorem ofIds?_eq_some_iff {ids : List UInt32} :
    ofIds? limit ids = some b ↔
      ids.length = countFor limit ∧ b = ⟨limit.bottom / 4, (ids.map Biome.mk).toArray⟩ := by
  unfold ofIds?
  split
  · next h => simp [h, eq_comm]
  · next h => simp [h]

theorem Built.fits (h : Built limit b) : b.Fits limit := by
  induction h with
  | filled biome => exact ⟨rfl, Array.size_replicate⟩
  | ofIds ids h =>
    obtain ⟨hlen, rfl⟩ := ofIds?_eq_some_iff.1 h
    exact ⟨rfl, by simpa [size] using hlen⟩
  | set pos biome _ ih => exact ⟨ih.bottomLayer, (size_set ..).trans ih.size⟩

/-- Biomes that fit are made from their numbers. -/
theorem Fits.ofIds?_ids (h : b.Fits limit) :
    ofIds? limit (b.cubes.toList.map Biome.id) = some b := by
  have hids : (b.cubes.toList.map Biome.id).map Biome.mk = b.cubes.toList := by
    rw [List.map_map]
    exact List.map_id _
  rw [ofIds?_eq_some_iff, List.length_map, hids, ← h.bottomLayer]
  exact ⟨h.size, rfl⟩

/-! ### The numbers of cubes -/

@[simp] theorem cubeIndex_set (b : Biomes) (pos : BlockPos) (biome : Biome) (p : BlockPos) :
    (b.set pos biome).cubeIndex p = b.cubeIndex p := by
  have hsize : (b.set pos biome).cubes.size = b.cubes.size := size_set b pos biome
  unfold cubeIndex
  rw [hsize]
  rfl

namespace Fits

variable (h : b.Fits limit) (hheight : limit.height < 2147483648)
include h hheight

/-- **The number of a cube** by its layer from the bottom of the world, its row and its place. -/
theorem cubeIndex_eq (p : BlockPos) : (b.cubeIndex p : Int) =
    (limit.nearest p.y / 4 - limit.bottom / 4) * 16 + p.z / 4 % 4 * 4 + p.x / 4 % 4 := by
  have hb := limit.bottom_aligned
  have hh := limit.height_aligned
  have hworld := limit.height_pos
  have hsize : b.cubes.size = limit.height / 16 * 64 := h.size
  -- the layer is taken into the world after counting from the bottom, the height before
  have hlayer : min (max (p.y / 4 - limit.bottom / 4) 0) (((b.cubes.size / 16 : Nat) : Int) - 1) =
      limit.nearest p.y / 4 - limit.bottom / 4 := by
    unfold HeightLimit.nearest
    rw [HeightLimit.top_eq_of_lt hheight, hsize]
    omega
  have hpos := (HeightLimit.nearest_layer hheight p.y).1
  unfold cubeIndex
  simp only [h.bottomLayer]
  rw [hlayer]
  omega

/-- Every block has the number of a cube. -/
theorem cubeIndex_lt (p : BlockPos) : b.cubeIndex p < b.size := by
  have hindex := h.cubeIndex_eq hheight p
  have hlayer := (HeightLimit.nearest_layer hheight p.y).2
  rw [h.size, countFor]
  omega

/-- **Numbers tell cubes apart.** -/
theorem cubeIndex_eq_iff : b.cubeIndex p = b.cubeIndex q ↔ limit.SameCube p q := by
  rw [← Int.natCast_inj, h.cubeIndex_eq hheight, h.cubeIndex_eq hheight]
  constructor
  · intro heq
    exact ⟨by omega, by omega, by omega⟩
  · rintro ⟨hx, hlayer, hz⟩
    rw [hx, hlayer, hz]

/-- **Each number is used**, by a block of the world. -/
theorem exists_cubeIndex {i : Nat} (hi : i < b.size) :
    ∃ p : BlockPos, (0 ≤ p.x ∧ p.x < 16) ∧ (limit.bottom ≤ p.y ∧ p.y < limit.top) ∧
      (0 ≤ p.z ∧ p.z < 16) ∧ b.cubeIndex p = i := by
  have hh := limit.height_aligned
  rw [h.size, countFor, HeightLimit.sectionCount] at hi
  have hlow : limit.bottom ≤ limit.bottom + (i / 16 * 4 : Nat) := by omega
  have hhigh : limit.bottom + (i / 16 * 4 : Nat) < limit.top := by
    rw [HeightLimit.top_eq_of_lt hheight]
    omega
  refine ⟨⟨(i % 4 * 4 : Nat), limit.bottom + (i / 16 * 4 : Nat), (i / 4 % 4 * 4 : Nat)⟩,
    by dsimp only; omega, ⟨hlow, hhigh⟩, by dsimp only; omega, ?_⟩
  rw [← Int.natCast_inj, h.cubeIndex_eq hheight]
  dsimp only
  rw [HeightLimit.nearest_of_mem hlow hhigh]
  omega

end Fits

/-! ### Setting and reading -/

/-- A biome that is set is read with the number of its cube. -/
theorem get_set (hq : b.cubeIndex q < b.size) (biome : Biome) (p : BlockPos) :
    (b.set q biome).get p = if b.cubeIndex p = b.cubeIndex q then biome else b.get p := by
  unfold get
  rw [cubeIndex_set]
  unfold set
  rw [Array.getD_eq_getD_getElem?, Array.getElem?_setIfInBounds, Array.getD_eq_getD_getElem?]
  by_cases hcube : b.cubeIndex p = b.cubeIndex q
  · rw [if_pos hcube.symm, if_pos hcube, if_pos (show b.cubeIndex q < b.cubes.size from hq)]
    rfl
  · rw [if_neg (Ne.symm hcube), if_neg hcube]

theorem getElem?_cubeIndex (hp : b.cubeIndex p < b.size) :
    b.cubes[b.cubeIndex p]? = some (b.get p) := by
  have hlt : b.cubeIndex p < b.cubes.size := hp
  unfold get
  rw [Array.getD_eq_getD_getElem?, Array.getElem?_eq_getElem hlt]
  rfl

/-- **Biomes are set and read cube by cube.** Every block has a cube, whose biome is read for it,
what is set for a block is read for all blocks of its cube and for no others, and each cube is that
of some block. -/
theorem Built.cubes_spec (hheight : limit.height < 268435456) (hb : Built limit b) :
    (∀ p, b.cubeIndex p < b.size ∧ b.cubes[b.cubeIndex p]? = some (b.get p)) ∧
      (∀ p q biome,
        (limit.SameCube p q → (b.set q biome).get p = biome) ∧
          (¬limit.SameCube p q → (b.set q biome).get p = b.get p)) ∧
      ∀ i < b.size, ∃ p : BlockPos, (0 ≤ p.x ∧ p.x < 16) ∧
        (limit.bottom ≤ p.y ∧ p.y < limit.top) ∧ (0 ≤ p.z ∧ p.z < 16) ∧ b.cubeIndex p = i := by
  have hfits := hb.fits
  have hlt : limit.height < 2147483648 := by omega
  refine ⟨fun p => ?_, fun p q biome => ?_, fun i hi => hfits.exists_cubeIndex hlt hi⟩
  · have hp := hfits.cubeIndex_lt hlt p
    exact ⟨hp, getElem?_cubeIndex hp⟩
  · have hset := get_set (hfits.cubeIndex_lt hlt q) biome p
    have hcube := hfits.cubeIndex_eq_iff hlt (p := p) (q := q)
    exact ⟨fun hsame => hset.trans (if_pos (hcube.2 hsame)),
      fun hother => hset.trans (if_neg (hother ∘ hcube.1))⟩

end Biomes

/-- Three sections, two below zero and one above. -/
def threeSections : HeightLimit := ⟨-32, 48, rfl, rfl, by decide, by decide⟩

/-- A biome is set at the bottom of a corner. It is read far below that corner, but not in the
neighbouring layer. -/
theorem cubes_threeSections :
    threeSections.height < 268435456 ∧
      ((Biomes.filled threeSections ⟨1⟩).set ⟨5, -30, -3⟩ ⟨7⟩).get ⟨4, -200, 12⟩ = ⟨7⟩ ∧
      ((Biomes.filled threeSections ⟨1⟩).set ⟨5, -30, -3⟩ ⟨7⟩).get ⟨5, -28, -3⟩ = ⟨1⟩ ∧
      ∃ p : BlockPos, (Biomes.filled threeSections ⟨1⟩).cubeIndex p = 191 := by
  have hbuilt : Biomes.Built threeSections (.filled threeSections ⟨1⟩) := .filled ⟨1⟩
  obtain ⟨-, hset, hused⟩ := Biomes.Built.cubes_spec (by decide) hbuilt
  have hsame : threeSections.SameCube ⟨4, -200, 12⟩ ⟨5, -30, -3⟩ :=
    ⟨by decide, by decide, by decide⟩
  have hother : ¬threeSections.SameCube ⟨5, -28, -3⟩ ⟨5, -30, -3⟩ := fun h =>
    absurd h.layer (by decide)
  obtain ⟨p, -, -, -, hp⟩ := hused 191 (by decide +kernel)
  exact ⟨by decide, (hset _ _ _).1 hsame, ((hset _ _ _).2 hother).trans (by decide +kernel), p, hp⟩

end VoxelChunk
