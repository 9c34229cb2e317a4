import VoxelChunk.Map.Keyed
import VoxelChunk.Grid.Position
import VoxelChunk.Tag.Basic

/-!
# Structures

A structure starts in one chunk, which keeps its start. Every chunk that the structure touches
refers to that chunk by its position written as one word.

## Main definitions

* `StructureStart` — the start of a structure.
* `Structures` — the starts and references of a chunk, by the name of the structure.
-/

namespace VoxelChunk

/-- The start of a structure. -/
structure StructureStart where
  name : String
  /-- The chunk where the structure starts. -/
  pos : ChunkPos
  /-- The number of chunks that refer to this start. -/
  references : UInt32 := 0
  /-- What the generator of the world knows about the structure. -/
  data : Compound := []
  deriving Inhabited

/-- The starts and references of a chunk. -/
structure Structures where
  starts : Keyed String StructureStart := {}
  references : Keyed String (List Int64) := {}
  deriving Inhabited

namespace Structures

/-- The start of the structure with the given name. -/
def start? (s : Structures) (name : String) : Option StructureStart := s.starts.find? name

/-- Set the start of a structure. -/
def setStart (s : Structures) (name : String) (start : StructureStart) : Structures :=
  { s with starts := s.starts.insert name start }

/-- Set all starts. -/
def setStarts (s : Structures) (starts : Keyed String StructureStart) : Structures :=
  { s with starts }

/-- The references to a structure. From then on it is one with references, if only with none. -/
def referencesTo (s : Structures) (name : String) : List Int64 × Structures :=
  match s.references.find? name with
  | some references => (references, s)
  | none => ([], { s with references := s.references.insert name [] })

/-- Add a reference to a structure. -/
def addReference (s : Structures) (name : String) (reference : Int64) : Structures :=
  let references := (s.references.find? name).getD []
  { s with
    references := s.references.insert name
      (if reference ∈ references then references else references ++ [reference]) }

/-- Set all references. One that is given twice counts once. -/
def setReferences (s : Structures) (references : Keyed String (List Int64)) : Structures :=
  { s with references := references.mapValues fun _ l => l.eraseDups }

end Structures

end VoxelChunk
