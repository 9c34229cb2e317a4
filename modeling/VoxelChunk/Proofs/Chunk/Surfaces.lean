import VoxelChunk.Proofs.Chunk.Write

/-!
# Heightmaps after any number of writes

Heightmaps are told about one block at a time, and a look at a column passes over the emptiness of
sections that a scan relies on. After any run of writes, with all that blocks do in reaction, every
height is still the surface of its column as the chunk shows it.

## Main definitions

* `Config.BuiltSections` — sections made by writing blocks.
* `Config.Start` — the blocks of a new chunk, or of one whose heightmaps have just been found.
* `Config.OnSurfaces` — all live heightmaps have the surfaces of the stored blocks.
* `Chunk.countsAt` — the block that is shown at a position counts.

## Main results

* `Config.Start.onSurfaces`, `Config.OnSurfaces.storeBlock` — the invariant and its step.
* `Site.isSurface_setBlocks` — heights after a run of writes.
-/

namespace VoxelChunk

variable {α τ : Type}

namespace Config

/-- As many sections as the world has, each absent or made from air by writing blocks. -/
structure BuiltSections (cfg : Config α τ) (sections : Sections) : Prop where
  size : sections.size = cfg.height.sectionCount
  built : ∀ index : Nat, ∀ s : Section,
    sections[index]?.join = some s → s.Built cfg.facts cfg.globalBits

/-- The blocks and heightmaps of a new chunk without sections, or of any chunk whose heightmaps
have just been found by scans. -/
inductive Start (cfg : Config α τ) : Sections × Array (Option Heightmap) → Prop
  | fresh (init : ChunkInit α) : init.sections = none →
    Start cfg ((Chunk.new cfg init).sections, (Chunk.new cfg init).heightmaps)
  | populated (c : Chunk α) : cfg.BuiltSections c.sections → cfg.FittingHeightmaps c.heightmaps →
    Start cfg ((c.populateHeightmaps cfg).sections, (c.populateHeightmaps cfg).heightmaps)

/-- All live heightmaps have the surfaces of the stored blocks. -/
structure OnSurfaces (cfg : Config α τ) (blocks : Sections × Array (Option Heightmap)) : Prop where
  sections : cfg.SoundSections blocks.1
  heightmaps : ∀ (number : Nat) (kind : HeightmapKind),
    cfg.heightmaps[number]? = some kind → kind.isLive →
      ∃ h, blocks.2[number]?.join = some h ∧
        h.OnSurface cfg.height blocks.1 (kind.counts cfg.facts)

variable {cfg : Config α τ}

theorem BuiltSections.sound {sections : Sections} (h : cfg.BuiltSections sections)
    (hair : cfg.facts.isAir .air) : cfg.SoundSections sections where
  size := h.size
  sound := fun index s hs => (h.built index s hs).sound cfg.globalBits_le hair

end Config

/-! ### New chunks -/

namespace Chunk

variable {cfg : Config α τ} {init : ChunkInit α}

/-- A new chunk with sections that were made by writing blocks can have its heightmaps found. -/
theorem builtSections_new (h : ∀ sections, init.sections = some sections →
    ∀ s, some s ∈ sections → s.Built cfg.facts cfg.globalBits) :
    cfg.BuiltSections (new cfg init).sections where
  size := by simp [new]
  built := by
    intro index s hs
    simp only [new, Array.getElem?_ofFn] at hs
    split at hs
    · simp only [Option.join_some, List.getElem?_toArray] at hs
      cases hsec : init.sections with
      | none =>
        rw [hsec] at hs
        simp at hs
      | some sections =>
        rw [hsec, Option.getD_some, Option.join_eq_some_iff] at hs
        exact h sections hsec s (List.mem_of_getElem? hs)
    · cases hs

end Chunk

/-! ### The invariant -/

namespace Config

variable {cfg : Config α τ} (hair : cfg.facts.isAir .air)
  (hkinds : ∀ kind ∈ cfg.heightmaps, ∀ state, cfg.facts.isAir state →
    kind.counts cfg.facts state = false)
include hair

section Start

include hkinds

theorem onSurface_flat {kind : HeightmapKind} (hkind : kind ∈ cfg.heightmaps) :
    (Heightmap.flat cfg.height).OnSurface cfg.height
      (Array.replicate cfg.height.sectionCount none) (kind.counts cfg.facts) where
  fits := Heightmap.fits_flat _
  surface := by
    intro x z
    rw [Heightmap.get_flat]
    refine ⟨Or.inl rfl, fun y _ _ => hkinds kind hkind _ ?_⟩
    rwa [columnState_replicate]

theorem Start.onSurfaces (hrange : cfg.height.InRange)
    {blocks : Sections × Array (Option Heightmap)} (h : cfg.Start blocks) :
    cfg.OnSurfaces blocks := by
  cases h with
  | fresh init hnone =>
    rw [Chunk.sections_new hnone]
    refine ⟨soundSections_replicate cfg, fun number kind hkind hlive => ⟨.flat cfg.height, ?_, ?_⟩⟩
    · rw [Chunk.heightmaps_new, hkind, Option.filter_some, if_pos hlive, Option.map_some]
    · exact onSurface_flat hair hkinds (List.mem_of_getElem? hkind)
  | populated c hbuilt hfit =>
    rw [Chunk.sections_populate]
    refine ⟨hbuilt.sound hair, fun number kind hkind hlive => ?_⟩
    obtain ⟨h, hslot, hf⟩ := hfit number kind hkind hlive
    refine ⟨kind.scanned cfg c.sections h, ?_, ?_⟩
    · rw [Chunk.heightmaps_populate c cfg hkind, hslot, Option.map_some]
    · exact onSurface_scanned hrange (hbuilt.sound hair)
        (hkinds kind (List.mem_of_getElem? hkind)) hair hf

end Start

/-- **A stored state leaves all live heightmaps on the surfaces.** -/
theorem OnSurfaces.storeBlock (hrange : cfg.height.InRange) {s : Site α τ} {pos : BlockPos}
    {state : BlockState} {index : Nat}
    (h : cfg.OnSurfaces s.blocks) (hi : cfg.height.sectionIndex? pos.y = some index)
    (hs : state.FitsIn cfg.globalBits) :
    cfg.OnSurfaces (s.storeBlock cfg index pos state).2.blocks := by
  obtain ⟨hlo, hhi⟩ := HeightLimit.exists_sectionIndex?_iff.1 ⟨index, hi⟩
  have hstored := Site.storeBlock_spec h.sections hair hi hs
  generalize s.storeBlock cfg index pos state = out at hstored ⊢
  cases hstored with
  | skipped => exact h
  | same sections hsound hset heq =>
    refine ⟨hsound, fun number kind hkind hlive => ?_⟩
    obtain ⟨hm, hslot, hon⟩ := h.heightmaps number kind hkind hlive
    refine ⟨hm, hslot, hon.fits, fun x z => (hon.surface x z).congr fun y _ _ => ?_⟩
    show kind.counts cfg.facts (columnState sections cfg.height x y z) = _
    rw [hset.of_eq heq]
    rfl
  | changed sections events notices hsound hset hne =>
    refine ⟨hsound, fun number kind hkind hlive => ?_⟩
    obtain ⟨hm, hslot, hon⟩ := h.heightmaps number kind hkind hlive
    refine ⟨(kind.tell cfg sections pos state hm).2, ?_, onSurface_tell hrange hon hlo hhi hset⟩
    show (toldHeightmaps cfg sections pos state s.chunk.heightmaps)[number]?.join = _
    rw [join_toldHeightmaps hkind, show s.chunk.heightmaps[number]?.join = some hm from hslot,
      Option.map_some]

end Config

/-! ### Heights after a run of writes -/

/-- The block that is shown at a position counts for a kind of heightmaps. -/
def Chunk.countsAt (c : Chunk α) (cfg : Config α τ) (kind : HeightmapKind) (pos : BlockPos) : Bool :=
  (c.blockAt cfg pos).toOption.any (kind.counts cfg.facts)

/-- What is shown counts when what is stored does. -/
theorem Chunk.countsAt_eq {c : Chunk α} {cfg : Config α τ} {kind : HeightmapKind}
    (h : cfg.SoundSections c.sections)
    (hkind : ∀ state, cfg.facts.isAir state → kind.counts cfg.facts state = false)
    (hair : cfg.facts.isAir .air) (pos : BlockPos) :
    c.countsAt cfg kind pos =
      kind.counts cfg.facts (columnState c.sections cfg.height pos.x pos.y pos.z) := by
  unfold countsAt
  obtain ⟨state, hread, heq | ⟨heq, hstored⟩⟩ := blockAt_eq h pos
  · rw [hread, heq]
    rfl
  · rw [hread, heq, hkind _ hstored]
    exact hkind _ hair

/-- **After any run of writes, every height is the surface of its column**, and the greatest height
is that of the highest column. -/
theorem Site.isSurface_setBlocks {cfg : Config α τ} (hrange : cfg.height.InRange)
    (hair : cfg.facts.isAir .air)
    (hkinds : ∀ kind ∈ cfg.heightmaps, ∀ state, cfg.facts.isAir state →
      kind.counts cfg.facts state = false)
    {s : Site α τ} (hstart : cfg.Start s.blocks) (writes : List BlockWrite)
    (hw : s.OnlyWrites (fun _ state => state.FitsIn cfg.globalBits) cfg writes) :
    let c := (s.setBlocks cfg writes).chunk
    (∀ pos, ∃ state, c.blockAt cfg pos = .ok state) ∧
      ∀ (number : Nat) (kind : HeightmapKind),
        cfg.heightmaps[number]? = some kind → kind.isLive →
          (∀ x z, IsSurface cfg.height.bottom cfg.height.top
            (fun y => c.countsAt cfg kind ⟨x, y, z⟩) (c.sampleHeightmap cfg number x z)) ∧
          (∀ x z, 0 ≤ x → x < 16 → 0 ≤ z → z < 16 →
            c.sampleHeightmap cfg number x z ≤ c.highestPoint cfg number) ∧
          ∃ x z, (0 ≤ x ∧ x < 16) ∧ (0 ≤ z ∧ z < 16) ∧
            c.highestPoint cfg number = c.sampleHeightmap cfg number x z := by
  intro c
  have hon : cfg.OnSurfaces (s.setBlocks cfg writes).blocks :=
    setBlocks_keeps (fun s index pos state h hs hi => h.storeBlock hair hrange hi hs) writes
      (hstart.onSurfaces hair hkinds hrange) hw
  have hsections : cfg.SoundSections c.sections := hon.sections
  refine ⟨fun pos => ?_, fun number kind hkind hlive => ?_⟩
  · obtain ⟨state, hread, -⟩ := Chunk.blockAt_eq hsections pos
    exact ⟨state, hread⟩
  · have hcounts := hkinds kind (List.mem_of_getElem? hkind)
    obtain ⟨h, hslot, hsurface⟩ := hon.heightmaps number kind hkind hlive
    have hget : ∀ x z, c.sampleHeightmap cfg number x z = h.get x z := by
      intro x z
      unfold Chunk.sampleHeightmap Chunk.heightmap?
      rw [show c.heightmaps[number]?.join = some h from hslot]
    simp only [hget]
    refine ⟨fun x z => ?_, Chunk.highestPoint_spec hkind hsections hcounts hair hrange
      hsurface.surface⟩
    rw [hrange.top_eq]
    refine (hsurface.surface x z).congr fun y _ _ => ?_
    rw [Chunk.countsAt_eq hsections hcounts hair]
    rfl

/-- Air does not count for any kind of heightmaps of the world of stone. -/
theorem stoneWorld_counts : ∀ kind ∈ stoneWorld.heightmaps, ∀ state,
    stoneWorld.facts.isAir state → kind.counts stoneWorld.facts state = false := by
  intro kind hkind state hstate
  have hair : state = .air := by simpa [stoneWorld, Config.facts] using hstate
  subst hair
  revert kind
  decide

/-- One stone in a new chunk of the world of stone. -/
theorem isSurface_stone :
    let c := (Site.setBlocks stoneWorld ⟨.new stoneWorld { pos := ⟨0, 0⟩ }, { isClient := false }⟩
      [{ pos := ⟨3, 5, 4⟩, state := ⟨1⟩ }]).chunk
    ∀ x z, IsSurface 0 stoneWorld.height.top
      (fun y => c.countsAt stoneWorld ⟨"WORLD_SURFACE", .client, HeightmapKind.notAir⟩ ⟨x, y, z⟩)
      (c.sampleHeightmap stoneWorld 1 x z) := by
  have hrange : stoneWorld.height.InRange := ⟨by decide, by decide⟩
  have hw := Site.isSurface_setBlocks hrange rfl stoneWorld_counts
    (s := ⟨.new stoneWorld { pos := ⟨0, 0⟩ }, { isClient := false }⟩) (.fresh _ rfl)
    [{ pos := ⟨3, 5, 4⟩, state := ⟨1⟩ }]
    (Site.onlyWrites_of_default stoneWorld_default _ (by decide))
  exact (hw.2 1 _ rfl rfl).1

end VoxelChunk
