/-!
# The shortest decimal text of a binary number

A floating-point number stands for all reals that round to it. Of the decimals in that interval
the text takes one with the fewest digits, and of those the nearest; a tie goes up. The interval
holds its ends exactly if the significand is even, and it is narrower below a power of two.

## Main definitions

* `Binary`, `Binary.ofBits` — a floating-point number taken apart.
* `Dyadic.shortest` — the digits and the exponent of the shortest decimal.
* `Text.float32`, `Text.float64` — the text of the number with the given bits.
-/

namespace VoxelChunk

/-- A positive number `significand * 2 ^ exponent` with the interval that rounds to it. -/
structure Dyadic where
  significand : Nat
  exponent : Int
  /-- The number below is only half as far away as the number above. -/
  narrow : Bool
  deriving DecidableEq, Repr

/-- A floating-point number. -/
inductive Binary where
  /-- No number. -/
  | nan
  | infinite (negative : Bool)
  | zero (negative : Bool)
  | finite (negative : Bool) (value : Dyadic)
  deriving DecidableEq, Repr

/-- The number with the given bits: a sign, `e` bits of exponent and `f` bits of fraction. -/
def Binary.ofBits (e f : Nat) (bits : Nat) : Binary :=
  let negative := bits >>> (e + f) % 2 = 1
  let biased := bits >>> f % 1 <<< e
  let fraction := bits % 1 <<< f
  let least : Int := 2 - (1 <<< (e - 1) : Nat) - f
  if biased = 1 <<< e - 1 then
    if fraction = 0 then .infinite negative else .nan
  else if biased = 0 then
    if fraction = 0 then .zero negative
    else .finite negative ⟨fraction, least, false⟩
  else .finite negative ⟨fraction + 1 <<< f, least + (biased - 1), fraction = 0⟩

namespace Dyadic

/-- The numerator and denominator of `n * 2 ^ exponent`. -/
def ratio (n : Nat) (exponent : Int) : Nat × Nat :=
  (n <<< exponent.toNat, 1 <<< (-exponent).toNat)

/-- The exponent of the first digit of `num / den` in base 10. -/
def decimalExponent (num den : Nat) : Int :=
  if den ≤ num then (Nat.toDigits 10 (num / den)).length - 1
  else Int.negOfNat (((List.range 400).find? fun k => den ≤ num * Nat.pow 10 k).getD 400)

/-- The decimals with `k` digits next to the number that lie in its interval: the multiple of
`10 ^ step` chosen, and `step`. -/
def withDigits? (x : Dyadic) (k : Nat) : Option (Nat × Int) :=
  let (num, den) := ratio (4 * x.significand) (x.exponent - 2)
  let (low, _) := ratio (4 * x.significand - if x.narrow then 1 else 2) (x.exponent - 2)
  let (high, _) := ratio (4 * x.significand + 2) (x.exponent - 2)
  let step := decimalExponent num den - k + 1
  let up := Nat.pow 10 step.toNat
  let down := Nat.pow 10 (-step).toNat
  -- the number, its interval and the multiples of the step, all over `den * down`
  let unit := up * den
  let below := num * down / unit
  let even := x.significand % 2 = 0
  let inside (c : Nat) : Bool :=
    if even then low * down ≤ c * unit && c * unit ≤ high * down
    else low * down < c * unit && c * unit < high * down
  let nearerBelow := num * down - below * unit < (below + 1) * unit - num * down
  match inside below, inside (below + 1) with
  | false, false => none
  | true, false => some (below, step)
  | false, true => some (below + 1, step)
  | true, true => some (if nearerBelow then below else below + 1, step)

/-- The shortest decimal in the interval, as digits and the power of ten to multiply them by.
Seventeen digits always suffice for 64-bit numbers. -/
def shortest (x : Dyadic) : Nat × Int :=
  ((List.range 17).findSome? fun k => x.withDigits? (k + 1)).getD (0, 0)

end Dyadic

namespace Text

/-- The digits without zeros at the end, and how many zeros there were. -/
def trimZeros (digits : List Char) : List Char × Nat :=
  let zeros := (digits.reverse.takeWhile (· = '0')).length
  (digits.take (digits.length - zeros), zeros)

/-- The decimal `digits * 10 ^ exponent`: with a point and at least one place after it from
`0.0001` up to but not including `10 ^ 16`, and with an exponent otherwise. -/
def decimal (digits : Nat) (exponent : Int) : String :=
  let (ds, zeros) := trimZeros (Nat.toDigits 10 digits)
  let exponent := exponent + zeros
  let first := exponent + ds.length - 1
  if -4 ≤ first ∧ first < 16 then
    if 0 ≤ exponent then String.ofList (ds ++ List.replicate exponent.toNat '0') ++ ".0"
    else if 0 ≤ first then
      let whole := (first + 1).toNat
      String.ofList (ds.take whole ++ ['.'] ++ ds.drop whole)
    else "0." ++ String.ofList (List.replicate (-first - 1).toNat '0' ++ ds)
  else
    let fraction := match ds.drop 1 with
      | [] => ""
      | rest => "." ++ String.ofList rest
    String.ofList (ds.take 1) ++ fraction ++ "e" ++ toString first

/-- The sign in front of a number. -/
def sign (negative : Bool) : String := if negative then "-" else ""

/-- The text of a floating-point number. -/
def binary : Binary → String
  | .nan => "NaN"
  | .infinite negative => sign negative ++ "inf"
  | .zero negative => sign negative ++ "0.0"
  | .finite negative value => sign negative ++ decimal value.shortest.1 value.shortest.2

/-- The text of the 32-bit number with the given bits. -/
def float32 (bits : UInt32) : String := binary (.ofBits 8 23 bits.toNat)

/-- The text of the 64-bit number with the given bits. -/
def float64 (bits : UInt64) : String := binary (.ofBits 11 52 bits.toNat)

end Text

end VoxelChunk
