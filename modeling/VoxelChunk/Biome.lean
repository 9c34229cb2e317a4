import VoxelChunk.Grid.Height
import VoxelChunk.Wire.VarInt

/-!
# Biomes

Each cube of four blocks a side has a biome. Cubes are numbered with `x` fastest, then `z`, then
`y` from the bottom of the world; heights below or above the world are taken as the lowest or the
highest cube.

## Main definitions

* `Biomes` — the biomes of a chunk; that there is one for each cube is checked when they are made.
* `Biomes.get`, `Biomes.set` — the biome of a block.
* `Biomes.encode`, `Biomes.decoder` — biomes as bytes.
-/

namespace VoxelChunk

/-- A biome, a number whose meaning the user of the library supplies. -/
structure Biome where
  id : UInt32
  deriving DecidableEq, Repr, Inhabited

/-- The biomes of a chunk. -/
structure Biomes where
  /-- The height of the lowest cube, counted in cubes. -/
  bottomLayer : Int
  cubes : Array Biome
  deriving DecidableEq

namespace Biomes

/-- The number of cubes within a height limit. -/
def countFor (limit : HeightLimit) : Nat := limit.sectionCount * 64

/-- The same biome everywhere. -/
def filled (limit : HeightLimit) (biome : Biome) : Biomes :=
  ⟨limit.bottom / 4, Array.replicate (countFor limit) biome⟩

/-- Biomes with the given numbers, if there is one for each cube. -/
def ofIds? (limit : HeightLimit) (ids : List UInt32) : Option Biomes :=
  if ids.length = countFor limit then some ⟨limit.bottom / 4, (ids.map Biome.mk).toArray⟩ else none

/-- The number of the cube of a block. -/
def cubeIndex (b : Biomes) (pos : BlockPos) : Nat :=
  let highest : Int := (b.cubes.size / 16 : Nat) - 1
  let layer := min (max (pos.y / 4 - b.bottomLayer) 0) highest
  (layer * 16 + pos.z / 4 % 4 * 4 + pos.x / 4 % 4).toNat

/-- The biome of a block. -/
def get (b : Biomes) (pos : BlockPos) : Biome := b.cubes.getD (b.cubeIndex pos) default

/-- The biomes with the one of a block set, and with it those of its cube. -/
def set (b : Biomes) (pos : BlockPos) (biome : Biome) : Biomes :=
  { b with cubes := b.cubes.setIfInBounds (b.cubeIndex pos) biome }

/-- The number of cubes. -/
def size (b : Biomes) : Nat := b.cubes.size

/-- There are no cubes. -/
def isEmpty (b : Biomes) : Bool := b.cubes.isEmpty

/-- The bytes of biomes: how many there are, then each as a variable-length integer. -/
def encode (b : Biomes) : List UInt8 :=
  putVarInt (UInt32.ofNat b.size).toInt32 ++
    b.cubes.toList.flatMap fun biome => putVarInt biome.id.toInt32

/-- The next `n` numbers of biomes. -/
def readIds : Nat → Decoder WireError (List UInt32)
  | 0 => return []
  | n + 1 => do
    let id := (← readVarInt).toUInt32
    return id :: (← readIds n)

/-- The next biomes, which must be as many as the height limit needs. -/
def decoder (limit : HeightLimit) : Decoder WireError Biomes := do
  let count ← readVarInt
  if count.toInt = countFor limit then
    match ofIds? limit (← readIds (countFor limit)) with
    | some b => return b
    | none => throw .biomeCount
  else throw .biomeCount

end Biomes

end VoxelChunk
