import VoxelChunk.Chunk.Registry

/-!
# Reading blocks

Outside the height limit and in sections that are absent or hold only air, all blocks read as air
and without a fluid, whatever kind of air is stored there.

## Main definitions

* `Chunk.blockAt`, `Chunk.fluidAt` — the state and the fluid of a block, or the fault met.
* `Chunk.lightSources` — the blocks that give off light.
-/

namespace VoxelChunk

namespace Chunk

variable {α τ : Type}

/-- The section that holds a block, unless it holds only air. -/
def occupiedSection? (c : Chunk α) (cfg : Config α τ) (pos : BlockPos) : Option Section :=
  ((cfg.height.sectionIndex? pos.y).bind c.section?).filter fun s => !s.isEmpty

/-- The state of a block. -/
def blockAt (c : Chunk α) (cfg : Config α τ) (pos : BlockPos) : Except Fault BlockState :=
  match c.occupiedSection? cfg pos with
  | some s => (s.get pos).mapError fun cause => ⟨.readBlock, c.pos, pos, cause⟩
  | none => .ok .air

/-- The fluid in a block. -/
def fluidAt (c : Chunk α) (cfg : Config α τ) (pos : BlockPos) : Except Fault FluidState :=
  match c.occupiedSection? cfg pos with
  | some s => (s.fluidAt cfg.facts pos).mapError fun cause => ⟨.readFluid, c.pos, pos, cause⟩
  | none => .ok .empty

/-- The blocks of a section that give off light, relative to its first block. -/
def sectionLights (facts : BlockFacts) (s : Section) : List (BlockPos × UInt8) :=
  s.toList.filterMap fun (pos, state) =>
    if facts.luminance state = 0 then none else some (pos, facts.luminance state)

/-- The blocks that give off light, with their luminance: from the lowest section up, and in a
section in the order of the cells. -/
def lightSources (c : Chunk α) (cfg : Config α τ) : List (BlockPos × UInt8) :=
  (List.range c.sections.size).flatMap fun index =>
    match (c.section? index).filter fun s => !s.isEmpty with
    | none => []
    | some s =>
      let origin : BlockPos :=
        ⟨c.pos.startX, wrap32 (cfg.height.sectionCoordOf index * 16), c.pos.startZ⟩
      (sectionLights cfg.facts s).map fun (pos, luminance) => (origin + pos, luminance)

end Chunk

/-- The state of a block of the chunk; a fault is noted and read as air. -/
def Site.blockAt {α τ : Type} (s : Site α τ) (cfg : Config α τ) (pos : BlockPos) :
    BlockState × Site α τ :=
  let (state, level) := s.level.settle (s.chunk.blockAt cfg pos)
  (state, { s with level })

end VoxelChunk
