/-!
# Numbers and bytes in base 16

## Main definitions

* `Text.hex`, `Text.paddedHex`, `Text.hexBytes` — numbers and bytes as texts.
* `Text.hexValue`, `Text.bytesOfHex` — what such texts stand for.
-/

namespace VoxelChunk

namespace Text

/-- The text of `n` in base 16 with lower-case digits. -/
def hex (n : Nat) : String := String.ofList (Nat.toDigits 16 n)

/-- The text of `n` in base 16, with zeros in front so that it has no less than `width` digits. -/
def paddedHex (width n : Nat) : String :=
  let digits := Nat.toDigits 16 n
  String.ofList (List.replicate (width - digits.length) '0' ++ digits)

/-- The text of bytes, with two digits for each. -/
def hexBytes (bytes : List UInt8) : String :=
  String.join (bytes.map fun b => paddedHex 2 b.toNat)

/-- The value of a digit in base 16, lower-case or upper-case. -/
def hexDigitValue (c : Char) : Nat :=
  if c.isDigit then c.toNat - '0'.toNat else c.toLower.toNat - 'a'.toNat + 10

/-- The number that a text of digits in base 16 stands for. -/
def hexValue (s : String) : Nat := s.foldl (fun n c => n * 16 + hexDigitValue c) 0

/-- The bytes that digits in base 16 stand for, two digits each. -/
def bytesOfDigits : List Char → List UInt8
  | high :: low :: rest =>
    UInt8.ofNat (hexDigitValue high * 16 + hexDigitValue low) :: bytesOfDigits rest
  | _ => []

/-- The bytes that a text with two digits for each stands for. -/
def bytesOfHex (s : String) : List UInt8 := bytesOfDigits s.toList

end Text

end VoxelChunk
