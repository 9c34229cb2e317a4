import VoxelChunk.Chunk.Registry

/-!
# Scheduled ticks of a chunk

Ticks of blocks and of fluids are kept apart, each where the chunk's slot says: in the chunk or in
the level.
-/

namespace VoxelChunk

namespace Site

variable {α τ : Type}

/-- Schedule a tick of a block. The outcome tells whether it was accepted. -/
def scheduleBlock (s : Site α τ) (pos : BlockPos) (block : BlockId) (delay : Nat)
    (priority : TickPriority) : Bool × Site α τ :=
  let (accepted, blockTicks, world) :=
    s.chunk.blockTicks.schedule s.level.blockTicks pos block delay s.level.time priority
  (accepted, { chunk := { s.chunk with blockTicks }, level := { s.level with blockTicks := world } })

/-- Schedule a tick of a fluid. The outcome tells whether it was accepted. -/
def scheduleFluid (s : Site α τ) (pos : BlockPos) (fluid : FluidId) (delay : Nat)
    (priority : TickPriority) : Bool × Site α τ :=
  let (accepted, fluidTicks, world) :=
    s.chunk.fluidTicks.schedule s.level.fluidTicks pos fluid delay s.level.time priority
  (accepted, { chunk := { s.chunk with fluidTicks }, level := { s.level with fluidTicks := world } })

/-- A tick of the block is scheduled at the position. -/
def isBlockScheduled (s : Site α τ) (pos : BlockPos) (block : BlockId) : Bool :=
  s.chunk.blockTicks.isScheduled s.level.blockTicks pos block

/-- A tick of the fluid is scheduled at the position. -/
def isFluidScheduled (s : Site α τ) (pos : BlockPos) (fluid : FluidId) : Bool :=
  s.chunk.fluidTicks.isScheduled s.level.fluidTicks pos fluid

/-- Hand all ticks of the chunk over to the world. -/
def promoteTicks (s : Site α τ) : Site α τ :=
  let (_, blockTicks, worldBlocks) := s.chunk.blockTicks.promote s.level.blockTicks s.level.time
  let (_, fluidTicks, worldFluids) := s.chunk.fluidTicks.promote s.level.fluidTicks s.level.time
  { chunk := { s.chunk with blockTicks, fluidTicks }
    level := { s.level with blockTicks := worldBlocks, fluidTicks := worldFluids } }

/-- Take all ticks of the chunk back from the world. -/
def demoteTicks (s : Site α τ) : Site α τ :=
  let (_, blockTicks, worldBlocks) :=
    s.chunk.blockTicks.demote s.level.blockTicks s.chunk.pos s.level.time
  let (_, fluidTicks, worldFluids) :=
    s.chunk.fluidTicks.demote s.level.fluidTicks s.chunk.pos s.level.time
  { chunk := { s.chunk with blockTicks, fluidTicks }
    level := { s.level with blockTicks := worldBlocks, fluidTicks := worldFluids } }

end Site

end VoxelChunk
