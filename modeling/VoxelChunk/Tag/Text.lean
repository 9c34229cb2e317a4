import VoxelChunk.Tag.Basic
import VoxelChunk.Text.Quoted
import VoxelChunk.Text.Shortest

/-!
# The text of tags

A tag is written as the name of its type with its value in parentheses. Arrays are cut short: of
bytes the first ten are shown, of ints and longs only the number of items.
-/

namespace VoxelChunk

namespace Text

/-- The parts in a row, separated by a comma and a blank. -/
def commas (parts : List String) : String := ", ".intercalate parts

/-- The name of a type with a value in parentheses. -/
def wrapped (name value : String) : String := name ++ "(" ++ value ++ ")"

/-- A byte in base 16 with upper-case digits. -/
def upperHex (b : UInt8) : String := (hex b.toNat).toUpper

/-- The number of bytes and the first ten of them. -/
def byteArray (bytes : List UInt8) : String :=
  "(" ++ toString bytes.length ++ ") [" ++ commas ((bytes.take 10).map upperHex) ++ "]..."

mutual

/-- The text of a tag. -/
def tag : Tag → String
  | .byte n => wrapped "Byte" (toString n)
  | .short n => wrapped "Short" (toString n)
  | .int n => wrapped "Int" (toString n)
  | .long n => wrapped "Long" (toString n)
  | .float bits => wrapped "Float" (float32 bits)
  | .double bits => wrapped "Double" (float64 bits)
  | .byteArray bytes => wrapped "ByteArray" (byteArray bytes)
  | .string s => wrapped "String" (quoted s)
  | .list items => wrapped "List" ("[" ++ commas (tags items) ++ "]")
  | .compound entries => wrapped "Compound" ("\x7b" ++ commas (fields entries) ++ "\x7d")
  | .intArray items => wrapped "IntArray" (toString items.length)
  | .longArray items => wrapped "LongArray" (toString items.length)

/-- The texts of the items of a list. -/
def tags : List Tag → List String
  | [] => []
  | t :: rest => tag t :: tags rest

/-- The texts of fields, each with its name quoted. -/
def fields : List (String × Tag) → List String
  | [] => []
  | (k, t) :: rest => (quoted k ++ ": " ++ tag t) :: fields rest

end

/-- The text of a compound by itself. -/
def compound (c : Compound) : String := "\x7b" ++ commas (fields c) ++ "\x7d"

end Text

end VoxelChunk
