import VoxelChunk.Chunk.Entities
import VoxelChunk.Chunk.Heights

/-!
# Sections on the network

Sections are sent together with a mask that tells which ones there are, and with the heightmaps
that clients get. A packet that comes with biomes stands for the whole chunk: sections it does not
have are empty. Everything in a packet is read before anything is changed, so a packet that cannot
be read leaves the chunk as it is.

## Main definitions

* `SectionsPacket`, `Chunk.sectionsPacket` — what is sent for a chunk.
* `PacketError` — why a packet cannot be read.
* `Site.loadPacket` — the chunk after a packet has come.
-/

namespace VoxelChunk

/-- The sections of a chunk as they are sent. -/
structure SectionsPacket where
  /-- For each section, from the bottom up, whether it is in the data. -/
  mask : List Bool
  /-- The sections one after another, from the bottom up. -/
  data : List UInt8
  /-- The heightmaps by name. -/
  heightmaps : Compound

/-- Why a packet cannot be read. -/
inductive PacketError where
  /-- The mask is not as long as the chunk has sections. -/
  | maskLength (expected actual : Nat)
  | badSection (index : Nat) (cause : StorageError)
  | badHeightmap (name : String) (cause : StorageError)
  deriving DecidableEq, Repr

namespace PacketError

/-- The text of a packet that cannot be read. -/
def message : PacketError → String
  | maskLength expected actual =>
    s!"section mask has {actual} bits but the chunk has {expected} sections"
  | badSection index cause => s!"section {index}: " ++ cause.message
  | badHeightmap name cause => "heightmap " ++ name ++ ": " ++ cause.message

/-- What is wrong with a part of the packet. -/
def cause? : PacketError → Option StorageError
  | maskLength .. => none
  | badSection _ cause => some cause
  | badHeightmap _ cause => some cause

end PacketError

namespace Chunk

variable {α τ : Type}

/-- What is sent for a chunk: all sections that are not empty, and the heightmaps for clients. -/
def sectionsPacket (c : Chunk α) (cfg : Config α τ) : SectionsPacket where
  mask := (List.range c.sections.size).map fun index => !c.isSectionEmpty index
  data := (List.range c.sections.size).flatMap fun index =>
    match (c.section? index).filter fun s => !s.isEmpty with
    | some s => s.encode
    | none => []
  heightmaps := cfg.heightmaps.zipIdx.foldl (fun fields (kind, number) =>
    match if kind.isSent then c.heightmapLongs? number else none with
    | some longs => fields.insert kind.name (.longArray longs)
    | none => fields) []

end Chunk

/-! ### Reading a packet -/

/-- The sections whose bits are set, in order, the first bit being that of the section with the
given index. -/
def readSections (facts : BlockFacts) (globalBits : Nat) :
    Nat → List Bool → Decoder PacketError (List (Nat × Section))
  | _, [] => return []
  | index, false :: mask => readSections facts globalBits (index + 1) mask
  | index, true :: mask => do
    let s ← (Section.decoder facts globalBits).mapError (PacketError.badSection index)
    return (index, s) :: (← readSections facts globalBits (index + 1) mask)

/-- The heightmaps whose names are fields, with the numbers of their kinds. -/
def readHeightmaps (limit : HeightLimit) (fields : Compound) (kinds : List (HeightmapKind × Nat)) :
    Except PacketError (List (Nat × Heightmap)) :=
  kinds.foldlM (fun found (kind, number) =>
    match fields.findLongArray? kind.name with
    | none => return found
    | some longs => do
      let h ← ((Heightmap.flat limit).setLongs longs).mapError (PacketError.badHeightmap kind.name)
      return found ++ [(number, h)]) []

/-- All that a packet holds. -/
structure PacketContents where
  /-- The sections with their indices, from the bottom up. -/
  sections : List (Nat × Section)
  /-- The heightmaps with the numbers of their kinds. -/
  heightmaps : List (Nat × Heightmap)

/-- Read a packet. -/
def readPacket {α τ : Type} (cfg : Config α τ) (packet : SectionsPacket) :
    Except PacketError PacketContents := do
  if packet.mask.length ≠ cfg.height.sectionCount then
    throw (.maskLength cfg.height.sectionCount packet.mask.length)
  let sections ←
    ((readSections cfg.facts cfg.globalBits 0 packet.mask).decode packet.data).1
  let heightmaps ← readHeightmaps cfg.height packet.heightmaps cfg.heightmaps.zipIdx
  return { sections, heightmaps }

/-- The first of the sections that wait, if it is the one with the given index, and the others. -/
def takeSection? (index : Nat) : List (Nat × Section) → Option (Section × List (Nat × Section))
  | [] => none
  | (next, new) :: rest => if next = index then some (new, rest) else none

namespace Site

variable {α τ : Type}

/-- Put a section in its place, or none, and tell if it became empty or ceased to be. -/
def replaceSection (s : Site α τ) (cfg : Config α τ) (index : Nat) (new : Option Section) :
    Site α τ :=
  let before := s.chunk.isSectionEmpty index
  let c := { s.chunk with sections := s.chunk.sections.setIfInBounds index new }
  let after := c.isSectionEmpty index
  let s := { s with chunk := c }
  if before = after then s
  else s.push (.sectionStatus c.pos (cfg.height.sectionCoordOf index) after)

/-- Put the next of the sections that wait in a place if it is for that place. Otherwise the place
is emptied if the packet stands for the whole chunk. -/
def placeNext (cfg : Config α τ) (full : Bool) (walk : Site α τ × List (Nat × Section))
    (index : Nat) : Site α τ × List (Nat × Section) :=
  match takeSection? index walk.2 with
  | some (new, rest) => (walk.1.replaceSection cfg index (some new), rest)
  | none => (if full then walk.1.replaceSection cfg index none else walk.1, walk.2)

/-- Put the sections of a packet in their places, going through the places and the sections in step
from the bottom up. -/
def replaceSections (s : Site α τ) (cfg : Config α τ) (sections : List (Nat × Section))
    (full : Bool) : Site α τ :=
  ((List.range cfg.height.sectionCount).foldl (placeNext cfg full) (s, sections)).1

/-- Remove the block entities in the sections of a packet, or all of them. -/
def removeCovered (s : Site α τ) (cfg : Config α τ) (mask : List Bool) (full : Bool) :
    Site α τ :=
  let covered (pos : BlockPos) : Bool :=
    full || ((cfg.height.sectionIndex? pos.y).map fun index => mask.getD index false).getD false
  (s.chunk.entities.keys.filter covered).foldl (fun s pos => (s.removeEntity pos).2) s

/-- The chunk after a packet has come, with biomes if the packet stands for the whole chunk. -/
def loadPacket (s : Site α τ) (cfg : Config α τ) (biomes : Option Biomes)
    (packet : SectionsPacket) : Except PacketError Unit × Site α τ :=
  match readPacket cfg packet with
  | .error e => (.error e, s)
  | .ok contents =>
    let full := biomes.isSome
    let s := s.removeCovered cfg packet.mask full
    let s := { s with chunk := { s.chunk with biomes := biomes.getD s.chunk.biomes } }
    let s := s.replaceSections cfg contents.sections full
    let c := contents.heightmaps.foldl (fun c (number, h) => c.putHeightmap number h) s.chunk
    (.ok (), { s with chunk := c })

end Site

end VoxelChunk
