import VoxelChunk.Tag.Basic

/-!
# Reading tags by path

Data that must have a certain form is read by walking into it field by field. The walk remembers
its path, and an error names the path of the first step that failed and what was expected there.

## Main definitions

* `Expected`, `TagError` — what was expected, and where.
* `TagAt`, `CompoundAt` — a tag or a compound with the path that led to it.
* `CompoundAt.get`, `CompoundAt.getInt` and its likes — one step of a walk.
-/

namespace VoxelChunk

/-- What a walk expected to find. -/
inductive Expected where
  /-- Any tag. -/
  | item
  | byte
  | int
  | long
  | string
  | longArray
  | compound
  deriving DecidableEq, Repr

/-- The name of what was expected. -/
def Expected.name : Expected → String
  | item => "Item"
  | byte => "Byte"
  | int => "Int"
  | long => "Long"
  | string => "String"
  | longArray => "LongArray"
  | compound => "Compound"

/-- A walk that found nothing, or something else. -/
structure TagError where
  /-- The names of the fields walked into, each after a slash. -/
  path : String
  expected : Expected
  deriving DecidableEq, Repr

/-- The text of a walk that failed. -/
def TagError.message (e : TagError) : String := e.path ++ ": expected " ++ e.expected.name

/-- A tag found on a walk. -/
structure TagAt where
  tag : Tag
  path : String

/-- A compound found on a walk. -/
structure CompoundAt where
  fields : Compound
  path : String

/-- A walk that starts at a tag. -/
def Tag.walk (t : Tag) : TagAt := ⟨t, ""⟩

/-- A walk that starts at a compound. -/
def Compound.walk (fields : Compound) : CompoundAt := ⟨fields, ""⟩

namespace TagAt

/-- The value that `read` finds in the tag. -/
def expect {α : Type} (t : TagAt) (read : Tag → Option α) (expected : Expected) :
    Except TagError α :=
  match read t.tag with
  | some a => .ok a
  | none => .error ⟨t.path, expected⟩

/-- The tag as a byte. -/
def asByte (t : TagAt) : Except TagError Int8 := t.expect Tag.asByte? .byte

/-- The tag as a truth value, which is a byte. -/
def asBool (t : TagAt) : Except TagError Bool := t.expect Tag.asBool? .byte

/-- The tag as an int. -/
def asInt (t : TagAt) : Except TagError Int32 := t.expect Tag.asInt? .int

/-- The tag as a long. -/
def asLong (t : TagAt) : Except TagError Int64 := t.expect Tag.asLong? .long

/-- The tag as a string. -/
def asString (t : TagAt) : Except TagError String := t.expect Tag.asString? .string

/-- The tag as an array of longs. -/
def asLongArray (t : TagAt) : Except TagError (List Int64) :=
  t.expect Tag.asLongArray? .longArray

/-- The tag as a compound, to walk on from. -/
def asCompound (t : TagAt) : Except TagError CompoundAt :=
  (t.expect Tag.asCompound? .compound).map fun fields => ⟨fields, t.path⟩

end TagAt

namespace CompoundAt

/-- Walk into a field. -/
def get (c : CompoundAt) (key : String) : Except TagError TagAt :=
  match c.fields.find? key with
  | some tag => .ok ⟨tag, c.path ++ "/" ++ key⟩
  | none => .error ⟨c.path ++ "/" ++ key, .item⟩

/-- The byte in a field. -/
def getByte (c : CompoundAt) (key : String) : Except TagError Int8 :=
  (c.get key).bind TagAt.asByte

/-- The truth value in a field. -/
def getBool (c : CompoundAt) (key : String) : Except TagError Bool :=
  (c.get key).bind TagAt.asBool

/-- The int in a field. -/
def getInt (c : CompoundAt) (key : String) : Except TagError Int32 :=
  (c.get key).bind TagAt.asInt

/-- The long in a field. -/
def getLong (c : CompoundAt) (key : String) : Except TagError Int64 :=
  (c.get key).bind TagAt.asLong

/-- The string in a field. -/
def getString (c : CompoundAt) (key : String) : Except TagError String :=
  (c.get key).bind TagAt.asString

/-- The array of longs in a field. -/
def getLongArray (c : CompoundAt) (key : String) : Except TagError (List Int64) :=
  (c.get key).bind TagAt.asLongArray

/-- The compound in a field, to walk on from. -/
def getCompound (c : CompoundAt) (key : String) : Except TagError CompoundAt :=
  (c.get key).bind TagAt.asCompound

end CompoundAt

end VoxelChunk
