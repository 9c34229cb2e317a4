import VoxelChunk.Grid.Position

/-!
# The six faces of a block

Each block has six neighbours, one across each face. The order of `Face.all` is the order in which
neighbours are asked when a block is settled, and `Face.number` is the place in that order.
-/

namespace VoxelChunk

/-- A face of a block, named for the axis it crosses and the direction along it. -/
inductive Face where
  | negY
  | posY
  | negZ
  | posZ
  | negX
  | posX
  deriving DecidableEq, Repr, Inhabited

namespace Face

/-- All faces, in the order of their numbers. -/
def all : List Face := [negY, posY, negZ, posZ, negX, posX]

/-- The number of a face, its place in `all`. -/
def number : Face → Nat
  | negY => 0
  | posY => 1
  | negZ => 2
  | posZ => 3
  | negX => 4
  | posX => 5

/-- The name of a face. -/
def name : Face → String
  | negY => "NegY"
  | posY => "PosY"
  | negZ => "NegZ"
  | posZ => "PosZ"
  | negX => "NegX"
  | posX => "PosX"

/-- The face on the other side of the block. -/
def opposite : Face → Face
  | negY => posY
  | posY => negY
  | negZ => posZ
  | posZ => negZ
  | negX => posX
  | posX => negX

/-- The step to the neighbour across a face. -/
def delta : Face → BlockPos
  | negY => ⟨0, -1, 0⟩
  | posY => ⟨0, 1, 0⟩
  | negZ => ⟨0, 0, -1⟩
  | posZ => ⟨0, 0, 1⟩
  | negX => ⟨-1, 0, 0⟩
  | posX => ⟨1, 0, 0⟩

@[simp] theorem opposite_opposite (f : Face) : f.opposite.opposite = f := by cases f <;> rfl

end Face

end VoxelChunk
