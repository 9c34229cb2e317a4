import VoxelChunk.Storage.Error

/-!
# Faults

A fault is an access to a block of a chunk that fails because the stored states are corrupted. It
is reported with the place of the access.
-/

namespace VoxelChunk

/-- What was done when a fault occurred. -/
inductive Access where
  | readBlock
  | readFluid
  | writeBlock
  deriving DecidableEq, Repr

/-- The title of a report about a fault. -/
def Access.title : Access → String
  | readBlock => "Getting block state"
  | readFluid => "Getting fluid state"
  | writeBlock => "Setting block state"

/-- An access that failed. -/
structure Fault where
  access : Access
  chunk : ChunkPos
  /-- The position of the block. -/
  pos : BlockPos
  cause : StorageError
  deriving DecidableEq, Repr

/-- The report about a fault. -/
def Fault.message (f : Fault) : String :=
  f.access.title ++ "\n-- Block being got --\nChunk: " ++ f.chunk.text ++
    "\nLocal: " ++ f.pos.inSection.text ++ "\nWorld: " ++ f.pos.text

end VoxelChunk
