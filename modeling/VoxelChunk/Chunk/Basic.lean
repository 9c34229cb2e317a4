import VoxelChunk.Biome
import VoxelChunk.Heightmap.Columns
import VoxelChunk.Level
import VoxelChunk.Schedule.Chunk
import VoxelChunk.Section
import VoxelChunk.Structure

/-!
# Chunks

A chunk is a column of sections with all that belongs to it: heightmaps, biomes, block entities,
scheduled ticks, listeners, structures and queues of blocks that are not settled yet.

## Main definitions

* `Column`, `Chunk` — the contents of a chunk, and the chunk with what is still to be done when it
  is loaded.
* `Site` — a chunk together with its level, which most operations change both.
-/

namespace VoxelChunk

/-- How far a chunk takes part in the life of its world. -/
inductive Stage where
  /-- Loaded, but out of reach. -/
  | inaccessible
  /-- In reach, but nothing is ticked. -/
  | border
  /-- Blocks and block entities are ticked. -/
  | ticking
  /-- All is ticked. -/
  | entityTicking
  deriving DecidableEq, Repr, Inhabited

namespace Stage

/-- The name of a stage. -/
def name : Stage → String
  | inaccessible => "Inaccessible"
  | border => "Border"
  | ticking => "Ticking"
  | entityTicking => "EntityTicking"

/-- Blocks and block entities are ticked. -/
def isTicking : Stage → Bool
  | inaccessible | border => false
  | ticking | entityTicking => true

end Stage

/-- The block entity that is out of its chunk while it is being ticked. What happens at its
position meanwhile is noted here and takes effect when it comes back. -/
structure LentEntity where
  pos : BlockPos
  serial : UInt32
  type : EntityType
  cachedState : BlockState
  /-- The entity has been removed or replaced meanwhile. -/
  removed : Bool := false
  deriving DecidableEq, Repr

/-- The contents of a chunk. -/
structure Column (α : Type) where
  pos : ChunkPos
  /-- The sections from the bottom up; an absent section holds only air. -/
  sections : Array (Option Section)
  /-- The heightmaps by the number of their kind. -/
  heightmaps : Array (Option Heightmap)
  biomes : Biomes
  /-- What is known about bringing the chunk to a newer format. -/
  upgradeData : Compound
  blockTicks : TickSlot BlockId
  fluidTicks : TickSlot FluidId
  inhabitedTime : Nat
  /-- The installed block entities. -/
  entities : Keyed BlockPos (BlockEntity α)
  /-- Saved data of block entities that nobody has asked for yet. -/
  pending : Keyed BlockPos Compound
  /-- The names of the tickers registered for block entities. -/
  tickers : Keyed BlockPos TickerHandle
  lent : Option LentEntity
  /-- The serial of the next block entity to be installed. -/
  nextSerial : UInt32
  dispatchers : Dispatchers
  structures : Structures
  /-- For each section, the blocks that are not settled yet. -/
  unsettled : Array (List UInt16)
  stage : Stage
  /-- The chunk is in its world. -/
  loaded : Bool
  needsSaving : Bool

/-- A chunk. -/
structure Chunk (α : Type) extends Column α where
  /-- What is done once, when the chunk first comes into its world. -/
  onLoad : Option (Column α → Column α) := none

/-- A chunk and its level. -/
structure Site (α τ : Type) where
  chunk : Chunk α
  level : Level τ

namespace Chunk

variable {α : Type}

/-- Blocks and block entities of the chunk are ticked. -/
def isTicking (c : Chunk α) : Bool := c.stage.isTicking

/-- Do what is still to be done when the chunk comes into its world. The outcome tells whether
there was something. -/
def load (c : Chunk α) : Bool × Chunk α :=
  match c.onLoad with
  | some f => (true, { toColumn := f c.toColumn, onLoad := none })
  | none => (false, c)

/-- The section with the given index, unless it is absent. -/
def section? (c : Chunk α) (index : Nat) : Option Section := c.sections[index]?.join

/-- The section with the given index holds only air. -/
def isSectionEmpty (c : Chunk α) (index : Nat) : Bool := (c.section? index).all Section.isEmpty

/-! ### Structures -/

/-- Set the start of a structure. -/
def setStructureStart (c : Chunk α) (name : String) (start : StructureStart) : Chunk α :=
  { c with structures := c.structures.setStart name start, needsSaving := true }

/-- Set the starts of all structures. -/
def setStructureStarts (c : Chunk α) (starts : Keyed String StructureStart) : Chunk α :=
  { c with structures := c.structures.setStarts starts, needsSaving := true }

/-- The references to a structure, see `Structures.referencesTo`. -/
def structureReferences (c : Chunk α) (name : String) : List Int64 × Chunk α :=
  let (references, structures) := c.structures.referencesTo name
  (references, { c with structures })

/-- Add a reference to a structure. -/
def addStructureReference (c : Chunk α) (name : String) (reference : Int64) : Chunk α :=
  { c with structures := c.structures.addReference name reference, needsSaving := true }

/-- Set the references to all structures. -/
def setStructureReferences (c : Chunk α) (references : Keyed String (List Int64)) : Chunk α :=
  { c with structures := c.structures.setReferences references, needsSaving := true }

end Chunk

namespace Site

variable {α τ : Type}

/-- Add an event to the level. -/
def push (s : Site α τ) (event : Event) : Site α τ := { s with level := s.level.push event }

/-- Add a notice to the level. -/
def note (s : Site α τ) (notice : Notice) : Site α τ := { s with level := s.level.note notice }

/-- Block entities of the chunk can have listeners and tickers. -/
def canTick (s : Site α τ) : Bool := s.chunk.loaded || s.level.isClient

end Site

end VoxelChunk
