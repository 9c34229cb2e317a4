import VoxelChunk.Chunk.Settle

/-!
# Worlds

A world holds chunks by their positions, and the level they share. What is done at a position is
done by the chunk there; where there is none, blocks read as air and writes do nothing.

## Main definitions

* `World` — the chunks, the level, and what belongs to the owner of the world.
* `World.insertChunk`, `World.removeChunk` — chunks come and go.
* `World.blockAt`, `World.setBlock`, `World.getEntity`, `World.addEntity`, `World.removeEntity`.
* `World.settleChunk` — the queued blocks of a chunk, seeing all other chunks.
* `World.emit` — the listeners that hear an event.
-/

namespace VoxelChunk

/-- A world. -/
structure World (α τ σ : Type) where
  level : Level τ
  chunks : Keyed ChunkPos (Chunk α) := {}
  /-- What the owner of the world wants tickers to see and change. -/
  owner : σ

namespace World

variable {α τ σ β : Type}

/-! ### Chunks -/

/-- The chunk at a position. -/
def chunk? (w : World α τ σ) (pos : ChunkPos) : Option (Chunk α) := w.chunks.find? pos

/-- The chunk at a position with the level. -/
def site? (w : World α τ σ) (pos : ChunkPos) : Option (Site α τ) :=
  (w.chunk? pos).map fun chunk => ⟨chunk, w.level⟩

/-- The world with the chunk at a position and the level replaced. -/
def putSite (w : World α τ σ) (pos : ChunkPos) (s : Site α τ) : World α τ σ :=
  { w with level := s.level, chunks := w.chunks.insert pos s.chunk }

/-- Do something with the chunk at a position, if there is one. -/
def atChunk (w : World α τ σ) (pos : ChunkPos) (missing : β) (f : Site α τ → β × Site α τ) :
    β × World α τ σ :=
  match w.site? pos with
  | none => (missing, w)
  | some s =>
    let (outcome, s) := f s
    (outcome, w.putSite pos s)

/-- Remove the chunk at a position. Its entities and tickers stop, and it takes its ticks along. -/
def removeChunk (w : World α τ σ) (pos : ChunkPos) : Option (Chunk α) × World α τ σ :=
  match w.site? pos with
  | none => (none, w)
  | some s =>
    let s := s.discardEntities.demoteTicks
    (some { s.chunk with loaded := false },
      { w with level := s.level, chunks := w.chunks.erase pos })

/-- Insert a chunk at its position. What was to be done when it first comes into its world is
done, and its entities start to listen and to be ticked. The outcome is the chunk that was there
before. -/
def insertChunk (w : World α τ σ) (cfg : Config α τ) (chunk : Chunk α) :
    Option (Chunk α) × World α τ σ :=
  let pos := chunk.pos
  let (previous, w) := w.removeChunk pos
  let chunk := { chunk.load.2 with loaded := true }
  (previous, w.putSite pos (Site.updateEntities ⟨chunk, w.level⟩ cfg))

/-! ### Blocks and block entities -/

/-- The state of a block. -/
def blockAt (w : World α τ σ) (cfg : Config α τ) (pos : BlockPos) : Except Fault BlockState :=
  match w.chunk? (.ofBlock pos) with
  | some c => c.blockAt cfg pos
  | none => .ok .air

/-- Write a block, see `Site.setBlock`. -/
def setBlock (w : World α τ σ) (cfg : Config α τ) (pos : BlockPos) (state : BlockState)
    (flags : SetFlags) : Option BlockState × World α τ σ :=
  w.atChunk (.ofBlock pos) none fun s => s.setBlock cfg pos state flags

/-- The block entity at a position, see `Site.getEntity`. -/
def getEntity (w : World α τ σ) (cfg : Config α τ) (pos : BlockPos) (mode : CreationMode) :
    Option (BlockEntity α) × World α τ σ :=
  w.atChunk (.ofBlock pos) none fun s => s.getEntity cfg pos mode

/-- Change the installed block entity at a position, if there is one. -/
def modifyEntity (w : World α τ σ) (pos : BlockPos) (f : BlockEntity α → BlockEntity α) :
    World α τ σ :=
  (w.atChunk (.ofBlock pos) () fun s => ((), { s with chunk := s.chunk.modifyEntity pos f })).2

/-- Install a block entity at its position. The outcome tells whether there is a chunk. -/
def addEntity (w : World α τ σ) (cfg : Config α τ) (entity : BlockEntity α) :
    Bool × World α τ σ :=
  match w.site? (.ofBlock entity.pos) with
  | none => (false, { w with level := w.level.note (.missingChunk entity.pos) })
  | some s => (true, w.putSite (.ofBlock entity.pos) (s.addEntity cfg entity))

/-- Remove the block entity at a position, see `Site.removeEntity`. -/
def removeEntity (w : World α τ σ) (pos : BlockPos) : Bool × World α τ σ :=
  w.atChunk (.ofBlock pos) false fun s => s.removeEntity pos

/-- Settle the queued blocks of a chunk, which see the blocks of all other chunks. The outcome
tells whether there is a chunk. -/
def settleChunk (w : World α τ σ) (cfg : Config α τ) (pos : ChunkPos) : Bool × World α τ σ :=
  let others : World α τ σ := { w with chunks := w.chunks.erase pos }
  w.atChunk pos false fun s => (true, s.settleAll cfg (others.blockAt cfg))

/-! ### Events -/

/-- The listeners that hear an event at a position. Sections are searched as far as the range of
the event goes on each axis. -/
def emit (w : World α τ σ) (event : GameEvent) (pos : BlockPos) : List Listener :=
  let reach := BlockPos.splat (wrap32 event.range.toNat)
  let low := SectionPos.ofBlock (pos - reach)
  let high := SectionPos.ofBlock (pos + reach)
  (span low.x high.x).flatMap fun x =>
    (span low.z high.z).flatMap fun z =>
      match w.chunk? ⟨x, z⟩ with
      | none => []
      | some c =>
        (span low.y high.y).flatMap fun y =>
          match c.dispatchers.find? y with
          | some d => d.dispatch pos
          | none => []

end World

end VoxelChunk
