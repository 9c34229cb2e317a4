import VoxelChunk.Chunk.Ticks
import VoxelChunk.Chunk.Write
import VoxelChunk.Grid.Cell

/-!
# Settling blocks

While a world is generated, blocks are placed whose final states depend on neighbours that are not
there yet. Such blocks are queued, and settled once the chunks around are there: each gets the
state that its neighbours ask for. The chunk is then ready, so its ticks are handed over to the
world and its saved block entities are loaded.

## Main definitions

* `Chunk.queueBlock`, `Chunk.queuePacked` — blocks to be settled.
* `Site.settleBlock` — one block, with other chunks seen through a view.
* `Site.settleAll` — all queued blocks, and the rest that makes a chunk ready.
-/

namespace VoxelChunk

namespace Chunk

variable {α τ : Type}

/-- Queue a packed block of a section. The outcome tells whether it was not queued yet. -/
def queuePacked (c : Chunk α) (index : Nat) (packed : UInt16) : Bool × Chunk α :=
  match c.unsettled[index]? with
  | none => (false, c)
  | some queue =>
    if packed ∈ queue then (false, c)
    else (true, { c with unsettled := c.unsettled.setIfInBounds index (queue ++ [packed]) })

/-- Queue a block. The outcome tells whether it lies within the height limit and was not queued
yet. -/
def queueBlock (c : Chunk α) (cfg : Config α τ) (pos : BlockPos) : Bool × Chunk α :=
  match cfg.height.sectionIndex? pos.y with
  | none => (false, c)
  | some index => c.queuePacked index (packLocal pos)

/-- The queues that are not empty, each with the index of its section. -/
def queues (c : Chunk α) : List (Nat × List UInt16) :=
  (c.unsettled.toList.zipIdx.filter fun queue => !queue.1.isEmpty).map Prod.swap

/-- The block at a position, which for positions outside the chunk is told by `view`. -/
def viewThrough (c : Chunk α) (cfg : Config α τ) (view : BlockPos → Except Fault BlockState)
    (pos : BlockPos) : Except Fault BlockState :=
  if c.pos.contains pos then c.blockAt cfg pos else view pos

end Chunk

namespace Site

variable {α τ : Type}

/-- Settle a block as its neighbours ask. -/
def settleBlock (s : Site α τ) (cfg : Config α τ) (view : BlockPos → Except Fault BlockState)
    (pos : BlockPos) : Site α τ :=
  match s.chunk.blockAt cfg pos >>= cfg.facts.settle (s.chunk.viewThrough cfg view) pos with
  | .ok state => (s.setBlock cfg pos state { noRedraw := true, force := true }).2
  | .error fault => s.note (.fault fault)

/-- Settle all queued blocks of a section. -/
def settleSection (s : Site α τ) (cfg : Config α τ)
    (view : BlockPos → Except Fault BlockState) (index : Nat) : Site α τ :=
  let queue := s.chunk.unsettled.getD index []
  let c := { s.chunk with unsettled := s.chunk.unsettled.setIfInBounds index [] }
  let sectionY := cfg.height.sectionCoordOf index
  queue.foldl (fun s packed => s.settleBlock cfg view (unpackLocal packed sectionY s.chunk.pos))
    { s with chunk := c }

/-- Load all saved block entities, and give up those that cannot be loaded. -/
def loadAllPending (s : Site α τ) (cfg : Config α τ) : Site α τ :=
  let s := s.chunk.pending.keys.foldl (fun s pos => (s.getEntity cfg pos .check).2) s
  { s with chunk := { s.chunk with pending := {} } }

/-- Settle all queued blocks, from the lowest section up, then hand the ticks of the chunk over to
the world and load its saved block entities. -/
def settleAll (s : Site α τ) (cfg : Config α τ) (view : BlockPos → Except Fault BlockState) :
    Site α τ :=
  let s := (List.range s.chunk.unsettled.size).foldl (fun s index =>
    s.settleSection cfg view index) s
  s.promoteTicks.loadAllPending cfg

end Site

end VoxelChunk
