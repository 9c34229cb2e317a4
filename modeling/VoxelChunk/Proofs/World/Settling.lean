import VoxelChunk.Proofs.Chunk.Readable
import VoxelChunk.Proofs.Chunk.Settling
import VoxelChunk.Proofs.World.Owners

/-!
# Settling a chunk of a world

While a chunk is settled it is out of its world, and its blocks are seen in the chunk while all
others are seen in the rest of the world. This comes to the same as settling the queued blocks in
the whole world, one after another, where each sees what the ones before it have become.

## Main definitions

* `World.settleBlock`, `World.settleBlocks` — blocks settled in the whole world.
* `World.Settles` — what settling a chunk makes of a world.

## Main results

* `World.settles_settleChunk` — **settling a chunk settles its queued blocks in the whole world.**
* `not_settled` — chunks out of range and states that do not fit.
-/

namespace VoxelChunk

variable {α τ σ : Type}

namespace World

/-- Settle a block as its neighbours in the world ask. -/
def settleBlock (cfg : Config α τ) (w : World α τ σ) (pos : BlockPos) : World α τ σ :=
  match w.blockAt cfg pos >>= cfg.facts.settle (w.blockAt cfg) pos with
  | .ok state => (w.setBlock cfg pos state { noRedraw := true, force := true }).2
  | .error fault => { w with level := w.level.note (.fault fault) }

/-- Settle blocks, one after another. -/
def settleBlocks (cfg : Config α τ) (w : World α τ σ) (positions : List BlockPos) : World α τ σ :=
  positions.foldl (fun w pos => w.settleBlock cfg pos) w

/-- The place of the chunk at a column, its sections and its heightmaps. -/
def landscape (w : World α τ σ) (column : ChunkPos) :
    Option (ChunkPos × Sections × Array (Option Heightmap)) :=
  (w.chunk? column).map fun c => (c.pos, c.sections, c.heightmaps)

/-- What settling the chunk `c` of a column makes of a world. -/
structure Settles (cfg : Config α τ) (w : World α τ σ) (column : ChunkPos) (c : Chunk α)
    (w' : World α τ σ) : Prop where
  /-- All sections and heightmaps are what they become when the queued blocks are settled in the
  whole world. -/
  landscape : ∀ other,
    w'.landscape other = (w.settleBlocks cfg (c.queuedBlocks cfg)).landscape other
  /-- So all blocks are seen as they are then. -/
  shown : w'.blockAt cfg = (w.settleBlocks cfg (c.queuedBlocks cfg)).blockAt cfg
  others : ∀ other, other ≠ column → w'.chunk? other = w.chunk? other
  chunk : ∃ c', w'.chunk? column = some c' ∧ c'.Settled ∧
    ((∀ state face neighbor, state.FitsIn cfg.globalBits →
        (cfg.facts.neighborUpdate state face neighbor).FitsIn cfg.globalBits) →
      cfg.FittingSections c.sections → ∀ pos, column.contains pos → pos ∉ c.queuedBlocks cfg →
        columnState c'.sections cfg.height pos.x pos.y pos.z =
          columnState c.sections cfg.height pos.x pos.y pos.z)
  again : w'.settleChunk cfg column = (true, w')

variable {cfg : Config α τ} {w v : World α τ σ} {column : ChunkPos} {s t : Site α τ} {pos : BlockPos}

/-! ### What is seen -/

/-- What is seen of a world through one of its chunks and the rest of the world. -/
theorem viewThrough_eq (hv : v.chunk? column = some s.chunk) (hpos : s.chunk.pos = column)
    (hothers : ∀ other, other ≠ column → v.chunk? other = w.chunk? other) :
    s.chunk.viewThrough cfg (blockAt { w with chunks := w.chunks.erase column } cfg) =
      v.blockAt cfg := by
  funext q
  unfold Chunk.viewThrough ChunkPos.contains
  rw [hpos]
  split
  · next hin =>
    unfold blockAt
    rw [beq_iff_eq.1 hin, hv]
  · next hout =>
    have hne : ChunkPos.ofBlock q ≠ column := fun heq => hout (beq_iff_eq.2 heq)
    have hrest : ({ w with chunks := w.chunks.erase column } : World α τ σ).chunk? (.ofBlock q) =
        w.chunk? (.ofBlock q) := (Keyed.find?_erase ..).trans (if_neg hne)
    unfold blockAt
    rw [hrest, hothers _ hne]

/-- What is seen depends on the chunks' places and sections. -/
theorem blockAt_of_landscape (h : ∀ other, w.landscape other = v.landscape other) :
    w.blockAt cfg = v.blockAt cfg := by
  funext q
  have hq := h (.ofBlock q)
  unfold landscape at hq
  unfold blockAt
  cases hw : w.chunk? (.ofBlock q) with
  | none =>
    rw [hw] at hq
    rw [Option.map_eq_none_iff.1 hq.symm]
  | some c =>
    rw [hw] at hq
    obtain ⟨c', hc', hsame⟩ := Option.map_eq_some_iff.1 hq.symm
    rw [hc']
    obtain ⟨hpos, hblocks⟩ := Prod.mk.inj hsame
    exact congrFun (Chunk.blockAt_congr hpos.symm (Prod.mk.inj hblocks).1.symm cfg) q

theorem putSite_putSite (w : World α τ σ) (column : ChunkPos) (s t : Site α τ) :
    (w.putSite column s).putSite column t = w.putSite column t := by
  unfold putSite
  simp only [Keyed.insert_insert]

/-! ### One block after another -/

section Along

variable (hdefault : cfg.DefaultReactions)
include hdefault

/-- **A block settles in the whole world as it does in its chunk**, if the rest of the world is as
it was. -/
theorem settleBlock_site (hv : v.site? column = some s) (hpos : s.chunk.pos = column)
    (hothers : ∀ other, other ≠ column → v.chunk? other = w.chunk? other)
    (hin : column.contains pos) :
    let view := blockAt { w with chunks := w.chunks.erase column } cfg
    (v.settleBlock cfg pos).site? column = some (s.settleBlock cfg view pos) ∧
      (s.settleBlock cfg view pos).chunk.pos = column ∧
      ∀ other, other ≠ column → (v.settleBlock cfg pos).chunk? other = w.chunk? other := by
  intro view
  have hcolumn : ChunkPos.ofBlock pos = column := beq_iff_eq.1 hin
  obtain ⟨hchunk, hlevel⟩ := site?_eq_some_iff.1 hv
  have hview : s.chunk.viewThrough cfg view = v.blockAt cfg := viewThrough_eq hchunk hpos hothers
  have hread : s.chunk.blockAt cfg pos = v.blockAt cfg pos := by
    unfold blockAt
    rw [hcolumn, hchunk]
  refine ⟨?_, (congrArg Prod.fst (Site.terrain_settleBlock hdefault view s pos)).trans hpos, ?_⟩
  · unfold settleBlock Site.settleBlock
    rw [hview, hread]
    cases v.blockAt cfg pos >>= cfg.facts.settle (v.blockAt cfg) pos with
    | error fault =>
      refine site?_eq_some_iff.2 ⟨hchunk, ?_⟩
      rw [← hlevel]
      rfl
    | ok state =>
      simp only [setBlock]
      rw [hcolumn, atChunk_of_site hv]
      exact site?_eq_some_iff.2 ⟨(chunk?_putSite ..).trans (if_pos rfl), rfl⟩
  · intro other hother
    unfold settleBlock
    split
    · unfold setBlock
      rw [hcolumn, atChunk_of_site hv, chunk?_putSite, if_neg hother]
      exact hothers other hother
    · exact hothers other hother

theorem settleBlocks_site (hv : v.site? column = some s) (hpos : s.chunk.pos = column)
    (hothers : ∀ other, other ≠ column → v.chunk? other = w.chunk? other)
    {positions : List BlockPos} (hin : ∀ pos ∈ positions, column.contains pos) :
    let view := blockAt { w with chunks := w.chunks.erase column } cfg
    (v.settleBlocks cfg positions).site? column = some (s.settleBlocks cfg view positions) ∧
      (s.settleBlocks cfg view positions).chunk.pos = column ∧
      ∀ other, other ≠ column → (v.settleBlocks cfg positions).chunk? other = w.chunk? other := by
  intro view
  induction positions generalizing v s with
  | nil => exact ⟨hv, hpos, hothers⟩
  | cons pos positions ih =>
    obtain ⟨hv', hpos', hothers'⟩ :=
      settleBlock_site hdefault hv hpos hothers (hin pos List.mem_cons_self)
    exact ih hv' hpos' hothers' fun p hp => hin p (List.mem_cons_of_mem pos hp)

end Along

/-- The world with a chunk replaced is what it becomes by settling blocks if the chunk is. -/
theorem landscape_putSite (hv : v.site? column = some s)
    (hothers : ∀ other, other ≠ column → v.chunk? other = w.chunk? other) (h : s.SameBlocks t)
    (other : ChunkPos) : (w.putSite column t).landscape other = v.landscape other := by
  unfold landscape
  rw [chunk?_putSite]
  split
  · next heq =>
    rw [heq, (site?_eq_some_iff.1 hv).1, Option.map_some, Option.map_some, h.pos]
    exact congrArg (fun blocks => some (_, blocks)) h.blocks
  · next hne => rw [hothers other hne]

theorem settleChunk_eq {c : Chunk α} (hc : w.chunk? column = some c) :
    w.settleChunk cfg column = (true, w.putSite column (Site.settleAll ⟨c, w.level⟩ cfg
      (blockAt { w with chunks := w.chunks.erase column } cfg))) := by
  have hsite : w.site? column = some ⟨c, w.level⟩ := site?_eq_some_iff.2 ⟨hc, rfl⟩
  unfold settleChunk
  exact atChunk_of_site hsite

/-- A chunk that is settled stays as it is when it is settled again. -/
theorem settleChunk_putSite (hsettled : s.chunk.Settled) :
    (w.putSite column s).settleChunk cfg column = (true, w.putSite column s) := by
  have hthere : (w.putSite column s).chunk? column = some s.chunk :=
    (chunk?_putSite ..).trans (if_pos rfl)
  rw [settleChunk_eq hthere]
  show (true, (w.putSite column s).putSite column (s.settleAll cfg _)) = _
  rw [Site.settleAll_of_settled hsettled, putSite_putSite]

/-- **Settling a chunk settles its queued blocks in the whole world**, one after another. Nothing of
the chunk waits then, blocks that were not queued are as they were, and settling it again changes
nothing. -/
theorem settles_settleChunk (hdefault : cfg.DefaultReactions) {c : Chunk α}
    (hc : w.chunk? column = some c) (hpos : c.pos = column) (hrange : column.InRange) :
    (w.settleChunk cfg column).1 = true ∧
      w.Settles cfg column c (w.settleChunk cfg column).2 := by
  rw [settleChunk_eq hc]
  generalize hview : blockAt { w with chunks := w.chunks.erase column } cfg = view
  have hin : ∀ pos ∈ c.queuedBlocks cfg, column.contains pos := fun pos hmem =>
    hpos ▸ Chunk.contains_of_mem_queuedBlocks (hpos.symm ▸ hrange) hmem
  have hsite : w.site? column = some ⟨c, w.level⟩ := site?_eq_some_iff.2 ⟨hc, rfl⟩
  obtain ⟨hlooped, -, hrest⟩ := settleBlocks_site hdefault hsite hpos (fun _ _ => rfl) hin
  rw [hview] at hlooped
  have hsame := Site.sameBlocks_settleAll hdefault view ⟨c, w.level⟩
  have hsettled := Site.settled_settleAll hdefault view ⟨c, w.level⟩
  have hlandscape := landscape_putSite hlooped hrest hsame
  refine ⟨rfl, hlandscape, blockAt_of_landscape hlandscape,
    fun other hother => (chunk?_putSite ..).trans (if_neg hother),
    ⟨_, (chunk?_putSite ..).trans (if_pos rfl), hsettled, ?_⟩, settleChunk_putSite hsettled⟩
  intro hfits hsections pos hcontains hunqueued
  have hunchanged := Site.unchanged_settleBlocks (s := ⟨c, w.level⟩) hdefault hfits hsections view
    (c.queuedBlocks cfg) (q := pos) fun p hp hplace =>
      hunqueued (ChunkPos.eq_of_samePlace hcontains (hin p hp) hplace ▸ hp)
  rw [hsame.sections_eq]
  exact hunchanged

end World

/-! ### Spreading stone -/

/-- A world in which stone spreads to the blocks that are settled. -/
def spreadingStone : Config Unit Unit :=
  { stoneWorld with
    registry := { stoneWorld.registry with
      neighborUpdate := fun state _ neighbor => if neighbor = ⟨1⟩ then ⟨1⟩ else state } }

/-- A chunk of air with two blocks queued, the one next to the chunk to the west first. -/
def brinkChunk : Chunk Unit :=
  { Chunk.new spreadingStone { pos := ⟨0, 0⟩ } with unsettled := #[[0, 1]], loaded := true }

/-- A chunk with stone next to the chunk to the east. -/
def westStone : Site Unit Unit :=
  Site.setBlocks spreadingStone
    ⟨{ Chunk.new spreadingStone { pos := ⟨-1, 0⟩ } with loaded := true }, { isClient := false }⟩
    [{ pos := ⟨-1, 0, 0⟩, state := ⟨1⟩ }]

/-- A world with both chunks. -/
def brinkWorld : World Unit Unit Unit where
  level := westStone.level
  chunks := ((Keyed.empty : Keyed ChunkPos (Chunk Unit)).insert ⟨-1, 0⟩ westStone.chunk).insert
    ⟨0, 0⟩ brinkChunk
  owner := ()

/-- The stone spreads to the first block, and from there to the second, but not to the next one. -/
theorem stone_spreads :
    brinkWorld.chunk? ⟨0, 0⟩ = some brinkChunk ∧
      brinkWorld.Settles spreadingStone ⟨0, 0⟩ brinkChunk
        (brinkWorld.settleChunk spreadingStone ⟨0, 0⟩).2 ∧
      ((brinkWorld.settleChunk spreadingStone ⟨0, 0⟩).2.blockAt spreadingStone ⟨1, 0, 0⟩).toOption =
        some ⟨1⟩ ∧
      ∃ c', (brinkWorld.settleChunk spreadingStone ⟨0, 0⟩).2.chunk? ⟨0, 0⟩ = some c' ∧ c'.Settled ∧
        columnState c'.sections spreadingStone.height 2 0 0 = .air := by
  have hdefault : spreadingStone.DefaultReactions := ⟨fun _ _ _ _ => rfl, fun _ _ _ _ => rfl⟩
  have hc : brinkWorld.chunk? ⟨0, 0⟩ = some brinkChunk := (Keyed.find?_insert ..).trans (if_pos rfl)
  have hrange : ChunkPos.InRange ⟨0, 0⟩ := by
    unfold ChunkPos.InRange
    decide
  obtain ⟨-, hsettles⟩ := World.settles_settleChunk hdefault hc rfl hrange
  have hfits : ∀ state face neighbor, state.FitsIn spreadingStone.globalBits →
      (spreadingStone.facts.neighborUpdate state face neighbor).FitsIn
        spreadingStone.globalBits := by
    intro state face neighbor hstate
    show BlockState.FitsIn (if neighbor = ⟨1⟩ then ⟨1⟩ else state) _
    split
    · decide
    · exact hstate
  have hsections : spreadingStone.FittingSections brinkChunk.sections :=
    (Config.soundSections_replicate spreadingStone).soundStates.fittingSections
  have hair : columnState brinkChunk.sections spreadingStone.height 2 0 0 = .air :=
    columnState_replicate spreadingStone.height.sectionCount
  obtain ⟨c', hc', hsettled, hunqueued⟩ := hsettles.chunk
  refine ⟨hc, hsettles, ?_, c', hc', hsettled,
    (hunqueued hfits hsections ⟨2, 0, 0⟩ (by decide) (by decide)).trans hair⟩
  rw [hsettles.shown]
  decide +kernel

/-! ### A chunk out of range -/

/-- The far chunk has not been settled yet. -/
def unsettledFar : World Unit Unit Unit :=
  World.edits settlingChests { level := { isClient := false }, owner := () }
    [.insertChunk (Chunk.new settlingChests { pos := ⟨0, 0⟩ }), .insertChunk farChests]

/-! ### States that do not fit -/

/-- If every neighbour asks for the same state, a block settles in it. -/
theorem BlockFacts.settle_of_const {facts : BlockFacts} {settled : BlockState}
    (h : ∀ state face neighbor, facts.neighborUpdate state face neighbor = settled) {ε : Type}
    {view : BlockPos → Except ε BlockState} (hview : ∀ pos, ∃ state, view pos = .ok state)
    (pos : BlockPos) (state : BlockState) : facts.settle view pos state = .ok settled := by
  choose states hstates using hview
  unfold settle Face.all
  simp only [List.foldlM_cons, hstates, h]
  rfl

/-- Where all neighbours ask for the same state, this state is written. -/
theorem Site.sections_settleBlock {cfg : Config α τ} (hdefault : cfg.DefaultReactions)
    {settled : BlockState}
    (hconst : ∀ state face neighbor, cfg.facts.neighborUpdate state face neighbor = settled)
    {view : BlockPos → Except Fault BlockState} (hview : ∀ pos, ∃ state, view pos = .ok state)
    {s : Site α τ} (hreadable : Sections.Readable s.chunk.sections) {pos : BlockPos} {index : Nat}
    (hi : cfg.height.sectionIndex? pos.y = some index) {sec : Section}
    (hsec : s.chunk.sections[index]?.join = some sec) :
    (s.settleBlock cfg view pos).chunk.sections =
      s.chunk.sections.setIfInBounds index (some (sec.set cfg.facts pos settled).2) := by
  obtain ⟨state, hread⟩ := Chunk.exists_blockAt hreadable cfg pos
  have hthrough : ∀ q, ∃ state, s.chunk.viewThrough cfg view q = .ok state := by
    intro q
    unfold Chunk.viewThrough
    split
    · exact Chunk.exists_blockAt hreadable cfg q
    · exact hview q
  have hsettle : s.chunk.blockAt cfg pos >>= cfg.facts.settle (s.chunk.viewThrough cfg view) pos =
      .ok settled := by
    rw [hread]
    exact BlockFacts.settle_of_const hconst hthrough pos state
  have hput : s.putWritten cfg index pos settled =
      s.chunk.sections.setIfInBounds index (some (sec.set cfg.facts pos settled).2) := by
    unfold putWritten written
    rw [hsec, Option.getD_some]
  unfold settleBlock
  rw [hsettle]
  refine (congrArg Prod.fst (blocks_of_terrain (terrain_setBlock hdefault ..))).trans ?_
  unfold stored
  simp only [hi]
  have hstoring := storing s cfg index pos settled
  generalize s.storeBlock cfg index pos settled = out at hstoring
  cases hstoring with
  | skipped hnone _ =>
    rw [hsec] at hnone
    cases hnone
  | failed => exact hput
  | same => exact hput
  | changed => exact hput

/-- The world of solid blocks in which each block that is settled takes the same state. -/
def solidWorld : Config Unit Unit where
  registry :=
    { toBlockFacts := { Section.solidFacts with neighborUpdate := fun _ _ _ => ⟨1⟩ }
      toEntityFactory := chestWorld.factory }
  height := default

/-- A chunk with a section whose palette is full of states that do not fit, and one block queued. -/
def crowdedChunk : Chunk Unit :=
  { Chunk.new solidWorld
      { pos := ⟨0, 0⟩, sections := some [some (Section.crowded.recounted Section.solidFacts)] } with
    unsettled := #[[0]], loaded := true }

/-- A world with this chunk. -/
def crowdedWorld : World Unit Unit Unit where
  level := { isClient := false }
  chunks := (Keyed.empty : Keyed ChunkPos (Chunk Unit)).insert ⟨0, 0⟩ crowdedChunk
  owner := ()

theorem solidWorld_default : solidWorld.DefaultReactions :=
  ⟨fun _ _ _ _ => rfl, fun _ _ _ _ => rfl⟩

theorem sections_crowdedChunk : crowdedChunk.sections =
    #[some (Section.crowded.recounted Section.solidFacts)] := by
  show Array.ofFn _ = _
  rfl

theorem section_crowdedChunk : crowdedChunk.sections[0]?.join =
    some (Section.crowded.recounted Section.solidFacts) := by
  rw [sections_crowdedChunk]
  rfl

theorem readable_crowdedChunk : Sections.Readable crowdedChunk.sections := by
  have hcrowded := (Section.decode_counted Section.decode_crowded).toReadable
  rw [sections_crowdedChunk]
  generalize Section.crowded.recounted Section.solidFacts = crowded at hcrowded
  intro index s hs
  cases index with
  | succ index => cases hs
  | zero =>
    cases hs
    exact hcrowded

/-- When the queued block is settled the palette gives way, and the state next to it is cut. -/
theorem crowdedWorld_settled :
    ∃ c, (crowdedWorld.settleChunk solidWorld ⟨0, 0⟩).2.chunk? ⟨0, 0⟩ = some c ∧
      columnState c.sections solidWorld.height 1 0 0 = ⟨40⟩ := by
  have hc : crowdedWorld.chunk? ⟨0, 0⟩ = some crowdedChunk :=
    (Keyed.find?_insert ..).trans (if_pos rfl)
  have hi : solidWorld.height.sectionIndex? (⟨0, 0, 0⟩ : BlockPos).y = some 0 := rfl
  have hqueued : crowdedChunk.queuedBlocks solidWorld = [⟨0, 0, 0⟩] := rfl
  rw [World.settleChunk_eq hc]
  generalize hview : World.blockAt
    { crowdedWorld with chunks := crowdedWorld.chunks.erase ⟨0, 0⟩ } solidWorld = view
  -- there is no other chunk, so all blocks around read as air
  have hread : ∀ pos, ∃ state, view pos = .ok state := by
    intro pos
    have hnone : ({ crowdedWorld with chunks := crowdedWorld.chunks.erase ⟨0, 0⟩ } :
        World Unit Unit Unit).chunk? (.ofBlock pos) = none := by
      refine (Keyed.find?_erase ..).trans ?_
      split
      · rfl
      · next hne => exact (Keyed.find?_insert ..).trans (if_neg hne)
    rw [← hview]
    unfold World.blockAt
    rw [hnone]
    exact ⟨.air, rfl⟩
  have hsettled := Site.sections_settleBlock solidWorld_default (fun _ _ _ => rfl) hread
    (s := ⟨crowdedChunk, crowdedWorld.level⟩) readable_crowdedChunk hi section_crowdedChunk
  refine ⟨_, (World.chunk?_putSite ..).trans (if_pos rfl), ?_⟩
  rw [(Site.sameBlocks_settleAll solidWorld_default view _).sections_eq, hqueued]
  unfold Site.settleBlocks
  rw [List.foldl_cons, List.foldl_nil, hsettled, sections_crowdedChunk]
  exact (columnState_of_section hi rfl).trans (Section.stateAt_set_crowded _)

/-! ### What is not settled as in the world -/

/-- **The queued blocks of a chunk out of range are settled in the chunk**, and not where they are
in the world, although all blocks react by default and settle in states that fit. In a chunk within
range that holds states which do not fit, a block that was not queued changes. -/
theorem not_settled :
    (settlingChests.DefaultReactions ∧
      (∀ state face neighbor, state.FitsIn settlingChests.globalBits →
        (settlingChests.facts.neighborUpdate state face neighbor).FitsIn
          settlingChests.globalBits) ∧
      ∃ c, unsettledFar.chunk? ⟨268435456, 0⟩ = some c ∧ c.pos = ⟨268435456, 0⟩ ∧
        (unsettledFar.settleChunk settlingChests ⟨268435456, 0⟩).2.blockAt settlingChests ⟨0, 1, 0⟩ ≠
          (unsettledFar.settleBlocks settlingChests (c.queuedBlocks settlingChests)).blockAt
            settlingChests ⟨0, 1, 0⟩) ∧
    solidWorld.DefaultReactions ∧
      (∀ state face neighbor, state.FitsIn solidWorld.globalBits →
        (solidWorld.facts.neighborUpdate state face neighbor).FitsIn solidWorld.globalBits) ∧
      crowdedWorld.chunk? ⟨0, 0⟩ = some crowdedChunk ∧ crowdedChunk.pos = ⟨0, 0⟩ ∧
      ⟨1, 0, 0⟩ ∉ crowdedChunk.queuedBlocks solidWorld ∧
      columnState crowdedChunk.sections solidWorld.height 1 0 0 = ⟨1000⟩ ∧
      ∃ c, (crowdedWorld.settleChunk solidWorld ⟨0, 0⟩).2.chunk? ⟨0, 0⟩ = some c ∧
        columnState c.sections solidWorld.height 1 0 0 = ⟨40⟩ := by
  have hchest : BlockState.FitsIn ⟨1⟩ settlingChests.globalBits := by decide
  have hsolid : BlockState.FitsIn ⟨1⟩ solidWorld.globalBits := by decide
  have hqueued : crowdedChunk.queuedBlocks solidWorld = [⟨0, 0, 0⟩] := rfl
  have hcrowded : columnState crowdedChunk.sections solidWorld.height 1 0 0 = ⟨1000⟩ := by
    have hi : solidWorld.height.sectionIndex? 0 = some 0 := rfl
    rw [columnState_of_section hi section_crowdedChunk, Section.stateAt_recounted]
    exact Section.stateAt_crowded _
  refine ⟨⟨⟨fun _ _ _ _ => rfl, fun _ _ _ _ => rfl⟩, fun _ _ _ _ => hchest, _, rfl, rfl, ?_⟩,
    solidWorld_default, fun _ _ _ _ => hsolid, (Keyed.find?_insert ..).trans (if_pos rfl), rfl, ?_,
    hcrowded, crowdedWorld_settled⟩
  · intro hsame
    have hread := congrArg Except.toOption hsame
    revert hread
    decide +kernel
  · rw [hqueued]
    decide

end VoxelChunk
