/-!
# Tags

A tag is a tree of typed values, used for all data that is saved or sent beside the blocks
themselves. A compound is a tag with named fields. Fields are kept in ascending order of their
names, which is also the order of the bytes that write the names.

## Main definitions

* `Tag`, `Compound` — tags, and lists of fields.
* `Compound.find?`, `Compound.insert`, `Compound.erase` — fields by name.
* `Tag.asInt?` and its likes — the value of a tag of a given type.
* `Tag.same` — equality of tags, where floats are compared as numbers.
-/

namespace VoxelChunk

/-- A typed value. Floating-point numbers are given by their bits. -/
inductive Tag where
  | byte (n : Int8)
  | short (n : Int16)
  | int (n : Int32)
  | long (n : Int64)
  | float (bits : UInt32)
  | double (bits : UInt64)
  | byteArray (bytes : List UInt8)
  | string (s : String)
  | list (items : List Tag)
  /-- Named fields, in ascending order of their names. -/
  | compound (fields : List (String × Tag))
  | intArray (items : List Int32)
  | longArray (items : List Int64)
  deriving Inhabited

/-- Named fields, in ascending order of their names. -/
abbrev Compound := List (String × Tag)

/-! ### Values of a given type -/

namespace Tag

/-- The number of a byte. -/
def asByte? : Tag → Option Int8
  | byte n => some n
  | _ => none

/-- A byte as a truth value: all but zero is true. -/
def asBool? (t : Tag) : Option Bool := t.asByte?.map (· != 0)

/-- The number of a short. -/
def asShort? : Tag → Option Int16
  | short n => some n
  | _ => none

/-- The number of an int. -/
def asInt? : Tag → Option Int32
  | int n => some n
  | _ => none

/-- The number of a long. -/
def asLong? : Tag → Option Int64
  | long n => some n
  | _ => none

/-- The text of a string. -/
def asString? : Tag → Option String
  | string s => some s
  | _ => none

/-- The items of a list. -/
def asList? : Tag → Option (List Tag)
  | list items => some items
  | _ => none

/-- The fields of a compound. -/
def asCompound? : Tag → Option Compound
  | compound fields => some fields
  | _ => none

/-- The numbers of an array of longs. -/
def asLongArray? : Tag → Option (List Int64)
  | longArray items => some items
  | _ => none

end Tag

/-! ### Fields by name -/

namespace Compound

/-- The field with the given name. -/
def find? (fields : Compound) (key : String) : Option Tag :=
  (List.find? (fun field => field.1 == key) fields).map Prod.snd

/-- There is a field with the given name. -/
def contains (fields : Compound) (key : String) : Bool := (find? fields key).isSome

/-- Set a field, keeping the names in order. -/
def insert : Compound → String → Tag → Compound
  | [], key, tag => [(key, tag)]
  | field :: rest, key, tag =>
    if key < field.1 then (key, tag) :: field :: rest
    else if key = field.1 then (key, tag) :: rest
    else field :: insert rest key tag

/-- The compound with the given fields, of which a later one replaces an earlier one. -/
def ofList (fields : List (String × Tag)) : Compound :=
  fields.foldl (fun c field => insert c field.1 field.2) []

/-- Take out a field. -/
def erase (fields : Compound) (key : String) : Compound :=
  fields.filter fun field => field.1 != key

/-- The names of the fields, in order. -/
def keys (fields : Compound) : List String := fields.map Prod.fst

/-- The truth value in a field. -/
def findBool? (fields : Compound) (key : String) : Option Bool :=
  (find? fields key).bind Tag.asBool?

/-- The int in a field. -/
def findInt? (fields : Compound) (key : String) : Option Int32 :=
  (find? fields key).bind Tag.asInt?

/-- The long in a field. -/
def findLong? (fields : Compound) (key : String) : Option Int64 :=
  (find? fields key).bind Tag.asLong?

/-- The string in a field. -/
def findString? (fields : Compound) (key : String) : Option String :=
  (find? fields key).bind Tag.asString?

/-- The compound in a field. -/
def findCompound? (fields : Compound) (key : String) : Option Compound :=
  (find? fields key).bind Tag.asCompound?

/-- The array of longs in a field. -/
def findLongArray? (fields : Compound) (key : String) : Option (List Int64) :=
  (find? fields key).bind Tag.asLongArray?

end Compound

/-! ### Equality -/

/-- Equality of the numbers that two bit patterns stand for, with `e` bits of exponent and `f` of
fraction: a pattern for no number differs from all, and the two zeros are equal. -/
def sameNumber (e f : Nat) (a b : Nat) : Bool :=
  let magnitude (n : Nat) := n % 1 <<< (e + f)
  let isNumber (n : Nat) := magnitude n ≤ (1 <<< e - 1) <<< f
  isNumber a && isNumber b && (a == b || (magnitude a == 0 && magnitude b == 0))

mutual

/-- Two tags are equal: of one type, with equal values. -/
def Tag.same : Tag → Tag → Bool
  | .byte a, .byte b => a == b
  | .short a, .short b => a == b
  | .int a, .int b => a == b
  | .long a, .long b => a == b
  | .float a, .float b => sameNumber 8 23 a.toNat b.toNat
  | .double a, .double b => sameNumber 11 52 a.toNat b.toNat
  | .byteArray a, .byteArray b => a == b
  | .string a, .string b => a == b
  | .list a, .list b => Tag.sameItems a b
  | .compound a, .compound b => Tag.sameFields a b
  | .intArray a, .intArray b => a == b
  | .longArray a, .longArray b => a == b
  | _, _ => false

/-- Equality of lists of tags, item by item. -/
def Tag.sameItems : List Tag → List Tag → Bool
  | [], [] => true
  | a :: as, b :: bs => Tag.same a b && Tag.sameItems as bs
  | _, _ => false

/-- Equality of lists of fields, name by name and value by value. -/
def Tag.sameFields : List (String × Tag) → List (String × Tag) → Bool
  | [], [] => true
  | (k, a) :: as, (l, b) :: bs => k == l && Tag.same a b && Tag.sameFields as bs
  | _, _ => false

end

/-- Equality of compounds, see `Tag.same`. -/
def Compound.same (a b : Compound) : Bool := Tag.sameFields a b

end VoxelChunk
