import VoxelChunk.Block.Facts
import VoxelChunk.Text.Quoted

/-!
# Kinds of heightmaps

A kind of heightmap says which blocks count. Its place in the list of kinds of a world is its
number, by which the heightmaps of a chunk are kept.

## Main definitions

* `HeightmapKind` — a name, a usage and a predicate on block states.
* `HeightmapKind.standard` — the six kinds that a world has unless told otherwise.
-/

namespace VoxelChunk

/-- What a heightmap is for. -/
inductive HeightmapUsage where
  /-- Used while the world is generated and not kept by chunks. -/
  | worldGen
  /-- Kept by chunks. -/
  | live
  /-- Kept by chunks and sent to clients. -/
  | client
  deriving DecidableEq, Repr

/-- The name of a usage. -/
def HeightmapUsage.name : HeightmapUsage → String
  | worldGen => "WorldGen"
  | live => "Live"
  | client => "Client"

/-- The usage with the given name. -/
def HeightmapUsage.ofName? (name : String) : Option HeightmapUsage :=
  [worldGen, live, client].find? fun usage => usage.name == name

/-- A kind of heightmap. -/
structure HeightmapKind where
  /-- The name under which the heightmap is saved and sent. -/
  name : String
  usage : HeightmapUsage
  /-- The states that count, given what is known about blocks. -/
  counts : BlockFacts → BlockState → Bool

namespace HeightmapKind

/-- Chunks keep heightmaps of this kind up to date. -/
def isLive (kind : HeightmapKind) : Bool := kind.usage != .worldGen

/-- Heightmaps of this kind are sent to clients. -/
def isSent (kind : HeightmapKind) : Bool := kind.usage == .client

/-- The text of a kind. -/
def text (kind : HeightmapKind) : String :=
  "HeightmapType \x7b name: " ++ Text.quoted kind.name ++ ", usage: " ++ kind.usage.name ++
    ", .. \x7d"

/-- The block is not air. -/
def notAir (facts : BlockFacts) (state : BlockState) : Bool := !facts.isAir state

/-- The block or its fluid stops movement. -/
def stopsMotion (facts : BlockFacts) (state : BlockState) : Bool :=
  facts.blocksMovement state || !(facts.fluidState state).isEmpty

/-- The kinds that a world has unless told otherwise. -/
def standard : List HeightmapKind :=
  [⟨"WORLD_SURFACE_WG", .worldGen, notAir⟩,
    ⟨"WORLD_SURFACE", .client, notAir⟩,
    ⟨"OCEAN_FLOOR_WG", .worldGen, BlockFacts.blocksMovement⟩,
    ⟨"OCEAN_FLOOR", .live, BlockFacts.blocksMovement⟩,
    ⟨"MOTION_BLOCKING", .client, stopsMotion⟩,
    ⟨"MOTION_BLOCKING_NO_LEAVES", .live,
      fun facts state => stopsMotion facts state && !facts.isLeaves state⟩]

/-- The number of the first kind with the given name. -/
def find? (kinds : List HeightmapKind) (name : String) : Option Nat :=
  kinds.findIdx? fun kind => kind.name == name

end HeightmapKind

end VoxelChunk
