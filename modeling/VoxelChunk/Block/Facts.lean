import VoxelChunk.Grid.Face

/-!
# Blocks and what is known about them

Blocks, fluids and their states are numbers whose meaning the user of the library supplies. What
the library must know about a state is answered by a `BlockFacts`.

## Main definitions

* `BlockState`, `FluidState`, `BlockId`, `FluidId` — the numbers.
* `BlockFacts` — the answers about them.
* `BlockFacts.settle` — the state a block takes once all its neighbours are known.
-/

namespace VoxelChunk

/-- A state of a block. -/
structure BlockState where
  id : UInt32
  deriving DecidableEq, Repr, Inhabited

/-- The state read wherever no block is stored. -/
def BlockState.air : BlockState := ⟨0⟩

/-- The text of a state. -/
def BlockState.text (s : BlockState) : String := "BlockState(" ++ toString s.id ++ ")"

/-- A state of a fluid. -/
structure FluidState where
  id : UInt32
  deriving DecidableEq, Repr, Inhabited

/-- The state of a block without a fluid. -/
def FluidState.empty : FluidState := ⟨0⟩

/-- There is no fluid. -/
def FluidState.isEmpty (s : FluidState) : Bool := s == FluidState.empty

/-- A kind of block; all states of one kind share it. -/
structure BlockId where
  id : UInt32
  deriving DecidableEq, Repr, Inhabited

/-- A kind of fluid; all states of one kind share it. -/
structure FluidId where
  id : UInt32
  deriving DecidableEq, Repr, Inhabited

/-- What is known about block and fluid states. -/
structure BlockFacts where
  /-- The number of block states. -/
  stateCount : UInt32
  /-- The kind of a block state. -/
  blockOf : BlockState → BlockId
  isAir : BlockState → Bool
  /-- The fluid in a block, `FluidState.empty` if there is none. -/
  fluidState : BlockState → FluidState
  /-- The kind of a fluid state. -/
  fluidOf : FluidState → FluidId
  /-- The light that a block gives off. -/
  luminance : BlockState → UInt8 := fun _ => 0
  /-- The block is ticked at random. -/
  ticksRandomly : BlockState → Bool := fun _ => false
  /-- The fluid is ticked at random. -/
  fluidTicksRandomly : FluidState → Bool := fun _ => false
  blocksMovement : BlockState → Bool
  isLeaves : BlockState → Bool := fun _ => false
  /-- A block entity belongs to each block in this state. -/
  hasEntity : BlockState → Bool
  /-- The state a block takes when the neighbour across a face has the given state. -/
  neighborUpdate : BlockState → Face → BlockState → BlockState := fun state _ _ => state

namespace BlockFacts

/-- The state a block takes once its neighbours are known: it is updated for the neighbour across
each face in turn. The neighbours are read by `view`, which may fail. -/
def settle {ε : Type} (facts : BlockFacts) (view : BlockPos → Except ε BlockState)
    (pos : BlockPos) (state : BlockState) : Except ε BlockState :=
  Face.all.foldlM (fun state face => do
    return facts.neighborUpdate state face (← view (pos + face.delta))) state

end BlockFacts

end VoxelChunk
