import VoxelChunk.Text.Hex
import VoxelChunk.Text.Printable

/-!
# Quoted text

A text is quoted between double quotes. Backslashes and double quotes get a backslash, a few
controls have a letter of their own, and every other character that would not show by itself is
given by its code point.
-/

namespace VoxelChunk

namespace Text

/-- A character inside a quoted text. -/
def quotedChar (c : Char) : String :=
  if c = '\x00' then "\\0"
  else if c = '\t' then "\\t"
  else if c = '\r' then "\\r"
  else if c = '\n' then "\\n"
  else if c = '"' then "\\\""
  else if c = '\\' then "\\\\"
  else if isExtending c || !isPrintable c then "\\u\x7b" ++ hex c.toNat ++ "\x7d"
  else String.singleton c

/-- The text between double quotes. -/
def quoted (s : String) : String := "\"" ++ String.join (s.toList.map quotedChar) ++ "\""

end Text

end VoxelChunk
