import VoxelChunk.Chunk.Basic
import VoxelChunk.Heightmap.Kind

/-!
# What the user of the library supplies

A registry answers all questions about blocks and block entities, and says how blocks react when
they are replaced or added. A reaction is a program of edits to the chunk, so that whatever a
block does, it does by the operations of the library.

## Main definitions

* `Reaction` — what a block does when it is replaced or added.
* `Registry` — blocks, block entities, tickers and reactions.
* `Config` — a registry, a height limit and the kinds of heightmaps of a world.
-/

namespace VoxelChunk

/-- What a block does when it is replaced or added: edits, each of which may depend on the
outcome of those before and on the chunk and level as they are then. -/
inductive Reaction (α τ : Type) where
  /-- Nothing more. -/
  | done
  /-- Set a block; the outcome is the state before, if the block changed. -/
  | setBlock (pos : BlockPos) (state : BlockState) (moved : Bool)
      (next : Option BlockState → Reaction α τ)
  /-- Remove a block entity; the outcome tells whether there was one. -/
  | removeEntity (pos : BlockPos) (next : Bool → Reaction α τ)
  /-- Install a block entity. -/
  | addEntity (entity : BlockEntity α) (next : Reaction α τ)
  /-- Look at the chunk and the level. -/
  | look (next : Site α τ → Reaction α τ)

/-- The block entity leaves with the last block of its kind. This is what blocks do when they are
replaced, unless told otherwise. -/
def BlockFacts.leaveWithBlock {α τ : Type} (facts : BlockFacts) (pos : BlockPos)
    (old new : BlockState) : Reaction α τ :=
  if facts.hasEntity old ∧ facts.blockOf old ≠ facts.blockOf new then
    .removeEntity pos fun _ => .done
  else .done

/-- Blocks and block entities, as the user of the library knows them. -/
structure Registry (α τ : Type) extends BlockFacts, EntityFactory α where
  /-- How an entity of a type is ticked whose block has the given state, on a client or not. -/
  tickerFor : Bool → BlockState → EntityType → Option τ := fun _ _ _ => none
  /-- What a block does when it is replaced: its position, its state, the new one, and whether
  the new one was moved. -/
  onReplaced : BlockPos → BlockState → BlockState → Bool → Reaction α τ :=
    fun pos old new _ => toBlockFacts.leaveWithBlock pos old new
  /-- What a block does once it is added: its position, its state, the one before, and whether it
  was moved. -/
  onAdded : BlockPos → BlockState → BlockState → Bool → Reaction α τ := fun _ _ _ _ => .done

/-- What all chunks of a world have in common. -/
structure Config (α τ : Type) where
  registry : Registry α τ
  height : HeightLimit
  /-- The kinds of heightmaps, by their numbers. -/
  heightmaps : List HeightmapKind := HeightmapKind.standard
  /-- Every change of a heightmap is compared with a scan of the column. -/
  verifyHeightmaps : Bool := false
  /-- How deep the writes that blocks make in reaction to writes may be nested. -/
  nesting : Nat := 64

namespace Config

variable {α τ : Type}

/-- What is known about blocks. -/
def facts (cfg : Config α τ) : BlockFacts := cfg.registry.toBlockFacts

/-- How block entities are made, read and written. -/
def factory (cfg : Config α τ) : EntityFactory α := cfg.registry.toEntityFactory

/-- The bits of a cell that stores the number of a state. -/
def globalBits (cfg : Config α τ) : Nat := max (ceilLog2 cfg.facts.stateCount.toNat) 1

end Config

/-! ### New chunks -/

/-- What a chunk is made of when it comes from storage or from the generator of the world. -/
structure ChunkInit (α : Type) where
  pos : ChunkPos
  /-- The biomes, by default the same one everywhere. -/
  biomes : Option Biomes := none
  upgradeData : Compound := []
  blockTicks : TickSlot BlockId := .empty
  fluidTicks : TickSlot FluidId := .empty
  inhabitedTime : Nat := 0
  /-- The sections, by default all absent. There should be as many as the world has. -/
  sections : Option (List (Option Section)) := none
  onLoad : Option (Column α → Column α) := none

/-- Sections for a new chunk that hold the given blocks. Sections without blocks are absent, and
blocks in none of the sections are left out. -/
def Config.sectionsWith {α τ : Type} (cfg : Config α τ) (count : Nat)
    (blocks : List (BlockPos × BlockState)) : List (Option Section) :=
  let write (pos : BlockPos) (state : BlockState) (s : Option Section) : Option Section :=
    some ((s.getD (.empty cfg.globalBits)).set cfg.facts pos state).2
  let sections := blocks.foldl (fun sections (pos, state) =>
    match ((pos.y - cfg.height.bottom) / 16).toNat? with
    | some index => sections.modify index (write pos state)
    | none => sections) (Array.replicate count none)
  sections.toList

namespace Chunk

variable {α τ : Type}

/-- A new chunk. Sections above the world are dropped and missing ones are absent. -/
def new (cfg : Config α τ) (init : ChunkInit α) : Chunk α :=
  let given := (init.sections.getD []).toArray
  let count := cfg.height.sectionCount
  { pos := init.pos
    sections := Array.ofFn fun (i : Fin count) => given[i.val]?.join
    heightmaps :=
      (cfg.heightmaps.map fun kind =>
        if kind.isLive then some (Heightmap.flat cfg.height) else none).toArray
    biomes := init.biomes.getD (.filled cfg.height default)
    upgradeData := init.upgradeData
    blockTicks := init.blockTicks
    fluidTicks := init.fluidTicks
    inhabitedTime := init.inhabitedTime
    entities := {}
    pending := {}
    tickers := {}
    lent := none
    nextSerial := 0
    dispatchers := (Keyed.empty : Keyed Int Dispatcher)
    structures := {}
    unsettled := Array.replicate count []
    stage := .inaccessible
    loaded := false
    needsSaving := false
    onLoad := init.onLoad }

/-- What is to be noted when a new chunk is made: that it got the wrong number of sections. -/
def newNotice? (cfg : Config α τ) (init : ChunkInit α) : Option Notice :=
  match init.sections with
  | none => none
  | some sections =>
    if sections.length = cfg.height.sectionCount then none
    else some (.sectionCount init.pos sections.length cfg.height.sectionCount)

end Chunk

end VoxelChunk
