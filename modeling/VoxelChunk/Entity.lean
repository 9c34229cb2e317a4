import VoxelChunk.Block.Facts
import VoxelChunk.Listener
import VoxelChunk.Tag.Path
import VoxelChunk.Ticker

/-!
# Block entities

A block entity is an object with state of its own that belongs to one block. What the library
knows of it is the same for all; the rest, its data, is of a type that the user of the library
chooses, and an `EntityFactory` tells how to make, read and write it.

## Main definitions

* `BlockEntity` — an entity with its data.
* `EntityFactory` — how entities are made, read and written.
* `EntityFactory.load` — the entity that saved data stands for.
* `EntityFactory.save` — the data to save for an entity.
-/

namespace VoxelChunk

/-- The id in saved data that asks for the entity which the block would get by itself. -/
def dummyId : String := "DUMMY"

/-- What is done when a block entity is asked for and there is none. -/
inductive CreationMode where
  /-- The entity that the block gets by itself is made at once. -/
  | immediate
  /-- Nothing is made, the caller will. -/
  | queued
  /-- Nothing is made. -/
  | check
  deriving DecidableEq, Repr

/-- An object that belongs to a block. -/
structure BlockEntity (α : Type) where
  type : EntityType
  pos : BlockPos
  /-- The state of the block when the entity was last installed or updated. -/
  cachedState : BlockState
  /-- The entity has been removed from its chunk and must not be used or ticked. -/
  removed : Bool := false
  /-- The entity is installed in a chunk. -/
  hasWorld : Bool := false
  /-- The number that the entity got when it was installed. -/
  serial : UInt32 := 0
  data : α
  deriving DecidableEq, Repr

namespace BlockEntity

variable {α : Type}

/-- The fields with the type and the position of an entity set. -/
def writeIdentity (e : BlockEntity α) (fields : Compound) : Compound :=
  let coordinate (n : Int) : Tag := .int (Int32.ofInt n)
  (((fields.insert "id" (.string e.type.id)).insert "x" (coordinate e.pos.x)).insert
    "y" (coordinate e.pos.y)).insert "z" (coordinate e.pos.z)

/-- The entity as one that has been taken out of its chunk. -/
def discard (e : BlockEntity α) : BlockEntity α := { e with removed := true, hasWorld := false }

end BlockEntity

/-- The position in saved data. -/
def savedPos (fields : Compound) : Except TagError BlockPos := do
  let x ← fields.walk.getInt "x"
  let y ← fields.walk.getInt "y"
  let z ← fields.walk.getInt "z"
  return ⟨x.toInt, y.toInt, z.toInt⟩

/-- Why saved data stands for no block entity. -/
inductive LoadError where
  /-- The data has not the form it must have. -/
  | parse (cause : TagError)
  /-- No such type of entities, or none for this state. -/
  | unsupported (id : String) (state : BlockState)
  deriving DecidableEq, Repr

/-- The text of a load that failed. -/
def LoadError.message : LoadError → String
  | parse cause => cause.message
  | unsupported id state =>
    "block entity " ++ id ++ " unknown or unsupported by state " ++ state.text

/-- How block entities are made, read and written. -/
structure EntityFactory (α : Type) where
  /-- The entity that a block in the given state gets by itself. -/
  create : BlockPos → BlockState → Option (BlockEntity α)
  /-- A new entity of the type with the given id, if there is one for this state. -/
  instantiate : String → BlockPos → BlockState → Option (BlockEntity α)
  /-- Entities of this type may belong to blocks in this state. -/
  supports : EntityType → BlockState → Bool
  /-- The data of an entity as read from saved fields. -/
  readData : BlockEntity α → CompoundAt → Except TagError α := fun e _ => .ok e.data
  /-- The fields with the data of an entity set. -/
  writeData : BlockEntity α → Compound → Compound := fun _ fields => fields
  /-- The listener of an entity, if it hears events. -/
  listener : BlockEntity α → Option Listener := fun _ => none

namespace EntityFactory

variable {α : Type}

/-- The entity that saved fields stand for, at a position with a block in the given state. -/
def load (factory : EntityFactory α) (pos : BlockPos) (state : BlockState) (fields : Compound) :
    Except LoadError (BlockEntity α) :=
  match fields.walk.getString "id" with
  | .error e => .error (.parse e)
  | .ok id =>
    match factory.instantiate id pos state with
    | none => .error (.unsupported id state)
    | some entity =>
      match factory.readData entity fields.walk with
      | .error e => .error (.parse e)
      | .ok data => .ok { entity with data }

/-- The fields to save for an entity. -/
def save (factory : EntityFactory α) (e : BlockEntity α) : Compound :=
  factory.writeData e (e.writeIdentity [])

end EntityFactory

end VoxelChunk
