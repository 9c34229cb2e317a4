import Mathlib.Data.List.Nodup
import VoxelChunk.Proofs.Chunk.Readable
import VoxelChunk.Proofs.Chunk.Statuses

/-!
# Blocks that give off light

The blocks that give off light are listed section by section, by the places of cells and without
those sections that hold only air. Wherever blocks can be read, the list is that of all blocks of
the column that are shown with a state that gives off light: each is listed once, and a block of a
section that holds only air is not listed, whatever kind of air is stored there.

## Main definitions

* `sectionBlocks`, `columnBlocks` — the blocks of a section and of a column, in the order of cells.
* `Chunk.lightAt?` — the light that the state shown for a block gives off.

## Main results

* `mem_columnBlocks`, `nodup_columnBlocks` — each block of a column is one of them, once.
* `Chunk.lightSources_eq` — the list of lights is read off block by block.
* `Site.lightSources_reworks` — lights after any run of writes and packets.
-/

namespace VoxelChunk

variable {α τ : Type}

/-! ### The blocks of a column -/

/-- The first block of the section with the given index. -/
def sectionOrigin (limit : HeightLimit) (column : ChunkPos) (index : Nat) : BlockPos :=
  ⟨column.startX, wrap32 (limit.sectionCoordOf index * 16), column.startZ⟩

/-- The blocks of the section with the given index, in the order of its cells. -/
def sectionBlocks (limit : HeightLimit) (column : ChunkPos) (index : Nat) : List BlockPos :=
  (List.range cellCount).map fun i => sectionOrigin limit column index + cellPos i

/-- The blocks of a column within the height limit, from the lowest section up. -/
def columnBlocks (limit : HeightLimit) (column : ChunkPos) : List BlockPos :=
  (List.range limit.sectionCount).flatMap (sectionBlocks limit column)

section Column

variable {limit : HeightLimit} {column : ChunkPos} {index i : Nat} {p : BlockPos}

/-- Within range, no coordinate of the first block of a section wraps around. -/
theorem sectionOrigin_eq (hrange : limit.InRange) (hcolumn : column.InRange)
    (hi : index < limit.sectionCount) :
    sectionOrigin limit column index =
      ⟨column.x * 16, limit.bottom + 16 * index, column.z * 16⟩ := by
  rw [sectionOrigin, hcolumn.startX_eq, hcolumn.startZ_eq, hrange.minY_eq hi]

/-- A block is at the place of its cell in its section. -/
theorem sectionOrigin_add_cellPos (hrange : limit.InRange) (hcolumn : column.InRange)
    (hp : column.contains p) (hi : limit.sectionIndex? p.y = some index) :
    sectionOrigin limit column index + cellPos (cellIndex p) = p := by
  obtain ⟨hlt, hy⟩ := HeightLimit.sectionIndex?_eq_some_iff.1 hi
  have hb := limit.bottom_aligned
  obtain ⟨x, y, z⟩ := p
  obtain rfl : (⟨x / 16, z / 16⟩ : ChunkPos) = column := eq_of_beq hp
  rw [sectionOrigin_eq hrange hcolumn hlt, cellPos_cellIndex]
  show (⟨x / 16 * 16 + x % 16, limit.bottom + 16 * index + y % 16, z / 16 * 16 + z % 16⟩ :
    BlockPos) = ⟨x, y, z⟩
  rw [BlockPos.mk.injEq]
  simp only at hy
  omega

/-- The places of the cells of a section are blocks of it. -/
theorem sectionOrigin_add_spec (hrange : limit.InRange) (hcolumn : column.InRange)
    (hindex : index < limit.sectionCount) (hi : i < cellCount) :
    column.contains (sectionOrigin limit column index + cellPos i) ∧
      limit.sectionIndex? (sectionOrigin limit column index + cellPos i).y = some index ∧
      cellIndex (sectionOrigin limit column index + cellPos i) = i := by
  have hb := limit.bottom_aligned
  obtain ⟨x, z⟩ := column
  rw [sectionOrigin_eq hrange hcolumn hindex]
  refine ⟨beq_iff_eq.2 ?_, HeightLimit.sectionIndex?_eq_some_iff.2 ⟨hindex, ?_⟩, ?_⟩
  · simp only [ChunkPos.ofBlock, BlockPos.add_x, BlockPos.add_z, cellPos, ChunkPos.mk.injEq]
    omega
  · simp only [BlockPos.add_y, cellPos]
    omega
  · unfold cellCount at hi
    simp only [cellIndex, BlockPos.add_x, BlockPos.add_y, BlockPos.add_z, cellPos]
    omega

/-- The blocks of a section of the world: those of the column at its heights. -/
theorem mem_sectionBlocks (hrange : limit.InRange) (hcolumn : column.InRange)
    (hindex : index < limit.sectionCount) :
    p ∈ sectionBlocks limit column index ↔
      column.contains p ∧ limit.sectionIndex? p.y = some index := by
  simp only [sectionBlocks, List.mem_map, List.mem_range]
  constructor
  · rintro ⟨i, hi, rfl⟩
    obtain ⟨hcontains, hlayer, -⟩ := sectionOrigin_add_spec hrange hcolumn hindex hi
    exact ⟨hcontains, hlayer⟩
  · rintro ⟨hcontains, hlayer⟩
    exact ⟨cellIndex p, cellIndex_lt p, sectionOrigin_add_cellPos hrange hcolumn hcontains hlayer⟩

/-- The blocks of a column are those within the height limit. -/
theorem mem_columnBlocks (hrange : limit.InRange) (hcolumn : column.InRange) :
    p ∈ columnBlocks limit column ↔
      column.contains p ∧ limit.bottom ≤ p.y ∧ p.y < limit.top := by
  rw [hrange.top_eq, ← HeightLimit.exists_sectionIndex?_iff, columnBlocks, List.mem_flatMap]
  constructor
  · rintro ⟨index, hindex, hp⟩
    obtain ⟨hcontains, hlayer⟩ :=
      (mem_sectionBlocks hrange hcolumn (List.mem_range.1 hindex)).1 hp
    exact ⟨hcontains, index, hlayer⟩
  · rintro ⟨hcontains, index, hlayer⟩
    have hindex : index < limit.sectionCount := (HeightLimit.sectionIndex?_eq_some_iff.1 hlayer).1
    exact ⟨index, List.mem_range.2 hindex,
      (mem_sectionBlocks hrange hcolumn hindex).2 ⟨hcontains, hlayer⟩⟩

/-- No block of a column is met twice. -/
theorem nodup_columnBlocks (hrange : limit.InRange) (hcolumn : column.InRange) :
    (columnBlocks limit column).Nodup := by
  refine List.nodup_flatMap.2 ⟨fun index hindex => ?_, ?_⟩
  · -- in a section, blocks are told apart by their cells
    refine List.Nodup.map_on (fun i hi j hj heq => ?_) List.nodup_range
    have hcell : ∀ k ∈ List.range cellCount,
        cellIndex (sectionOrigin limit column index + cellPos k) = k := fun k hk =>
      (sectionOrigin_add_spec hrange hcolumn (List.mem_range.1 hindex) (List.mem_range.1 hk)).2.2
    rw [← hcell i hi, heq, hcell j hj]
  · refine List.nodup_range.imp_of_mem fun {index index'} hindex hindex' hne => ?_
    intro p hp hp'
    have hlayer := ((mem_sectionBlocks hrange hcolumn (List.mem_range.1 hindex)).1 hp).2
    have hlayer' := ((mem_sectionBlocks hrange hcolumn (List.mem_range.1 hindex')).1 hp').2
    exact hne (Option.some.inj (hlayer.symm.trans hlayer'))

end Column

/-! ### Lights, block by block -/

namespace Chunk

variable {c : Chunk α} {cfg : Config α τ} {index : Nat} {p : BlockPos}

/-- The block and the light that the state shown for it gives off, if it gives off any. -/
def lightAt? (c : Chunk α) (cfg : Config α τ) (p : BlockPos) : Option (BlockPos × UInt8) :=
  match c.blockAt cfg p with
  | .ok state => if cfg.facts.luminance state = 0 then none else some (p, cfg.facts.luminance state)
  | .error _ => none

theorem lightAt?_eq_some_iff {q : BlockPos} {luminance : UInt8} :
    c.lightAt? cfg p = some (q, luminance) ↔
      p = q ∧ ∃ state, c.blockAt cfg p = .ok state ∧
        cfg.facts.luminance state = luminance ∧ luminance ≠ 0 := by
  unfold lightAt?
  cases c.blockAt cfg p with
  | error e => simp
  | ok state =>
    simp only [Option.ite_none_left_eq_some, Option.some.injEq, Prod.mk.injEq, Except.ok.injEq]
    constructor
    · rintro ⟨hne, rfl, rfl⟩
      exact ⟨rfl, state, rfl, rfl, hne⟩
    · rintro ⟨rfl, _, rfl, rfl, hne⟩
      exact ⟨hne, rfl, rfl⟩

theorem fst_of_lightAt? {light : BlockPos × UInt8} (h : c.lightAt? cfg p = some light) :
    light.1 = p :=
  (lightAt?_eq_some_iff.1 h).1.symm

theorem occupiedSection?_of_index (hi : cfg.height.sectionIndex? p.y = some index) :
    c.occupiedSection? cfg p = (c.section? index).filter fun s => !s.isEmpty := by
  rw [occupiedSection?, hi, Option.bind_some]

/-- The light of a block of a section that does not hold only air. -/
theorem lightAt?_of_section {s : Section} (hs : s.Readable)
    (hoccupied : c.occupiedSection? cfg p = some s) :
    c.lightAt? cfg p =
      if cfg.facts.luminance (s.stateAt p) = 0 then none
      else some (p, cfg.facts.luminance (s.stateAt p)) := by
  rw [lightAt?, blockAt, hoccupied]
  simp only [hs.get_eq, Except.mapError]

/-- Plain air gives off no light. -/
theorem lightAt?_of_none (hdark : cfg.facts.luminance .air = 0)
    (hoccupied : c.occupiedSection? cfg p = none) : c.lightAt? cfg p = none := by
  rw [lightAt?, blockAt, hoccupied]
  simp only [hdark, if_true]

/-- The lights listed for a section are those of its blocks. -/
theorem map_sectionLights (hrange : cfg.height.InRange) (hcolumn : c.pos.InRange) {s : Section}
    (hs : s.Readable) (hindex : index < cfg.height.sectionCount)
    (hsec : ((c.section? index).filter fun s => !s.isEmpty) = some s) :
    ((sectionLights cfg.facts s).map fun (q, luminance) =>
        (sectionOrigin cfg.height c.pos index + q, luminance)) =
      (sectionBlocks cfg.height c.pos index).filterMap (c.lightAt? cfg) := by
  rw [sectionLights, hs.toList_eq, sectionBlocks, List.filterMap_map, List.map_filterMap,
    List.filterMap_map]
  refine List.filterMap_congr fun i hi => ?_
  obtain ⟨-, hlayer, hcell⟩ :=
    sectionOrigin_add_spec hrange hcolumn hindex (List.mem_range.1 hi)
  have hlight := lightAt?_of_section hs ((occupiedSection?_of_index hlayer).trans hsec)
  rw [Section.stateAt, hcell] at hlight
  simp only [Function.comp_apply, hlight]
  split <;> rfl

/-- **The list of lights is read off block by block.** -/
theorem lightSources_eq (hrange : cfg.height.InRange) (hcolumn : c.pos.InRange)
    (hdark : cfg.facts.luminance .air = 0) (h : Sections.Readable c.sections)
    (hsize : c.sections.size = cfg.height.sectionCount) :
    c.lightSources cfg = (columnBlocks cfg.height c.pos).filterMap (c.lightAt? cfg) := by
  unfold lightSources columnBlocks
  rw [List.filterMap_flatMap, hsize]
  refine List.flatMap_congr fun index hindex => ?_
  replace hindex := List.mem_range.1 hindex
  cases hsec : (c.section? index).filter fun s => !s.isEmpty with
  | none =>
    -- all blocks of the section are shown as plain air, of whatever kind they are
    refine (List.filterMap_eq_nil_iff.2 fun p hp => ?_).symm
    have hlayer := ((mem_sectionBlocks hrange hcolumn hindex).1 hp).2
    exact lightAt?_of_none hdark ((occupiedSection?_of_index hlayer).trans hsec)
  | some s =>
    have hs := h index s (Option.filter_eq_some_iff.1 hsec).1
    exact map_sectionLights hrange hcolumn hs hindex hsec

/-- Of blocks that are told apart, the lights are told apart by their blocks. -/
theorem nodup_lights {blocks : List BlockPos} (h : blocks.Nodup) :
    ((blocks.filterMap (c.lightAt? cfg)).map Prod.fst).Nodup := by
  rw [List.map_filterMap]
  refine h.filterMap fun p p' q hp hp' => ?_
  obtain ⟨light, hlight, rfl⟩ := Option.map_eq_some_iff.1 hp
  obtain ⟨light', hlight', heq⟩ := Option.map_eq_some_iff.1 hp'
  rw [← fst_of_lightAt? hlight, ← fst_of_lightAt? hlight', heq]

end Chunk

namespace Site

variable {cfg : Config α τ}

/-! ### Runs -/

theorem safely_rework (s : Site α τ) (edit : BlocksEdit) : s.Safely (s.rework cfg edit) := by
  cases edit with
  | write pos state flags => exact safely_setBlock s pos state flags
  | packet biomes packet => exact safely_loadPacket s biomes packet

/-- **The lights of a chunk are its blocks that are shown with a state that gives off light.** A new
chunk gets sections that can be had, or none; then writes are made and packets come, one after
another, whatever blocks do in reaction. All blocks can be read, and the list of lights holds each
block of the column that lies within the height limit and gives off light, once and with the
luminance of the state that is shown for it, and nothing else. -/
theorem lightSources_reworks (hrange : cfg.height.InRange)
    (hdark : cfg.facts.luminance .air = 0) {init : ChunkInit α} (hcolumn : init.pos.InRange)
    (hinit : ∀ sections, init.sections = some sections → ∀ sec, some sec ∈ sections → sec.Formed)
    (level : Level τ) (edits : List BlocksEdit) :
    let c := (reworks cfg ⟨Chunk.new cfg init, level⟩ edits).chunk
    ∃ shown : BlockPos → BlockState, (∀ p, c.blockAt cfg p = .ok (shown p)) ∧
      ((c.lightSources cfg).map Prod.fst).Nodup ∧
      ∀ p luminance, (p, luminance) ∈ c.lightSources cfg ↔
        init.pos.contains p ∧ (cfg.height.bottom ≤ p.y ∧ p.y < cfg.height.top) ∧
          cfg.facts.luminance (shown p) = luminance ∧ luminance ≠ 0 := by
  intro c
  have hnew : (Chunk.new cfg init).sections.size = cfg.height.sectionCount := Array.size_ofFn
  have hreports := reports_reworks (s := ⟨Chunk.new cfg init, level⟩) hnew edits
  have hpos : c.pos = init.pos := hreports.pos
  have hsize : c.sections.size = cfg.height.sectionCount := hreports.size.trans hnew
  have hreadable : Sections.Readable c.sections :=
    (safely_foldl safely_rework edits _ (readable_new hinit)).1
  choose shown hshown using Chunk.exists_blockAt hreadable cfg
  have hlights := Chunk.lightSources_eq hrange (hpos ▸ hcolumn) hdark hreadable hsize
  rw [hpos] at hlights
  refine ⟨shown, hshown, ?_, fun p luminance => ?_⟩
  · rw [hlights]
    exact Chunk.nodup_lights (nodup_columnBlocks hrange hcolumn)
  · rw [hlights, List.mem_filterMap, ← and_assoc, ← mem_columnBlocks hrange hcolumn]
    constructor
    · rintro ⟨q, hq, hlight⟩
      obtain ⟨rfl, state, hstate, hluminance⟩ := Chunk.lightAt?_eq_some_iff.1 hlight
      cases (hshown q).symm.trans hstate
      exact ⟨hq, hluminance⟩
    · rintro ⟨hp, hluminance⟩
      exact ⟨p, hp, Chunk.lightAt?_eq_some_iff.2 ⟨rfl, shown p, hshown p, hluminance⟩⟩

end Site

/-! ### A lamp and air that glows -/

/-- A world of eight sections with stone, a lamp, and a kind of air that glows. -/
def lampWorld : Config Unit Unit where
  registry :=
    { toBlockFacts :=
        { stoneWorld.facts with
          stateCount := 4
          isAir := fun s => s == .air || s == ⟨3⟩
          luminance := fun s => if s == ⟨2⟩ then 15 else if s == ⟨3⟩ then 7 else 0 }
      create := fun _ _ => none
      instantiate := fun _ _ _ => none
      supports := fun _ _ => false }
  height := ⟨-64, 128, rfl, rfl, by decide, by decide⟩

/-- A new chunk of that world. -/
def lampInit : ChunkInit Unit := { pos := ⟨-1, 2⟩ }

/-- A lamp with glowing air beside it, and glowing air that takes the place of a stone in the
section above. -/
def lampEdits : List BlocksEdit :=
  [.write ⟨-3, -2, 40⟩ ⟨2⟩ {}, .write ⟨-3, -1, 40⟩ ⟨3⟩ {}, .write ⟨-3, 0, 40⟩ ⟨1⟩ {},
    .write ⟨-3, 0, 40⟩ ⟨3⟩ {}]

/-- Of the two blocks of air that glow, only the one in the section of the lamp is listed. -/
theorem lightSources_lamp : lampWorld.height.InRange ∧
    lampWorld.facts.luminance .air = 0 ∧ lampInit.pos.InRange ∧
    let c := (Site.reworks lampWorld ⟨.new lampWorld lampInit, { isClient := false }⟩
      lampEdits).chunk
    ((c.lightSources lampWorld).map Prod.fst).Nodup ∧
      (⟨-3, -2, 40⟩, 15) ∈ c.lightSources lampWorld ∧
      (⟨-3, -1, 40⟩, 7) ∈ c.lightSources lampWorld ∧
      ∀ luminance, (⟨-3, 0, 40⟩, luminance) ∉ c.lightSources lampWorld := by
  have hrange : lampWorld.height.InRange := ⟨by decide, by decide⟩
  have hcolumn : lampInit.pos.InRange := by
    unfold ChunkPos.InRange
    decide
  obtain ⟨shown, hshown, hnodup, hlights⟩ :=
    Site.lightSources_reworks hrange rfl hcolumn nofun { isClient := false } lampEdits
  have hread : ∀ {p : BlockPos} {state : BlockState}, (Site.reworks lampWorld
      ⟨.new lampWorld lampInit, { isClient := false }⟩ lampEdits).chunk.blockAt lampWorld p =
        .ok state → shown p = state := fun {p _} h =>
    Except.ok.inj ((hshown p).symm.trans h)
  have hlamp : shown ⟨-3, -2, 40⟩ = ⟨2⟩ := hread (by decide +kernel)
  have hglow : shown ⟨-3, -1, 40⟩ = ⟨3⟩ := hread (by decide +kernel)
  have hdull : shown ⟨-3, 0, 40⟩ = .air := hread (by decide +kernel)
  refine ⟨hrange, rfl, hcolumn, hnodup, (hlights _ _).2 ?_, (hlights _ _).2 ?_, ?_⟩
  · rw [hlamp]
    decide
  · rw [hglow]
    decide
  · intro luminance hmem
    obtain ⟨-, -, rfl, hne⟩ := (hlights _ _).1 hmem
    rw [hdull] at hne
    exact hne rfl

end VoxelChunk
