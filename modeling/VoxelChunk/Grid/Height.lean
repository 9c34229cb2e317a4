import VoxelChunk.Grid.Position

/-!
# The vertical extent of a world

A world spans a whole number of sections: its bottom and its height are multiples of 16 and its
height is not zero. Sections are numbered from the bottom, so a section coordinate becomes an
index by subtracting that of the bottom section.

## Main definitions

* `HeightLimit` — an extent, which is always aligned to sections.
* `HeightLimit.of?` — the extent with a given bottom and height, or why there is none.
* `HeightLimit.sectionIndex?`, `HeightLimit.sectionCoordOf` — indices and section coordinates.
-/

namespace VoxelChunk

/-- Why a bottom and a height are no vertical extent. -/
inductive HeightError where
  /-- The bottom is not at the bottom of a section. -/
  | unalignedBottom
  /-- The height is zero or no whole number of sections. -/
  | unalignedHeight
  deriving DecidableEq, Repr

/-- The text of a refused extent. -/
def HeightError.message : HeightError → String
  | unalignedBottom => "bottom y must be a multiple of 16"
  | unalignedHeight => "height must be a non-zero multiple of 16"

/-- A vertical extent made of whole sections. -/
structure HeightLimit where
  /-- The least `y` of the extent. -/
  bottom : Int
  /-- The number of blocks from the bottom to the top. -/
  height : Nat
  bottom_aligned : bottom % 16 = 0
  height_aligned : height % 16 = 0
  height_pos : 0 < height
  /-- The height is a number of 32 bits. -/
  height_lt : height < 4294967296
  deriving DecidableEq

namespace HeightLimit

instance : Inhabited HeightLimit := ⟨⟨0, 16, rfl, rfl, by decide, by decide⟩⟩

/-- The extent with the given bottom and height. Of two faults the bottom's is reported. -/
def of? (bottom : Int) (height : UInt32) : Except HeightError HeightLimit :=
  if hb : bottom % 16 = 0 then
    if hh : 0 < height.toNat ∧ height.toNat % 16 = 0 then
      .ok ⟨bottom, height.toNat, hb, hh.2, hh.1, height.toNat_lt⟩
    else .error .unalignedHeight
  else .error .unalignedBottom

/-- The least `y` above the extent. -/
def top (limit : HeightLimit) : Int := limit.bottom + wrap32 limit.height

/-- The number of sections. -/
def sectionCount (limit : HeightLimit) : Nat := limit.height / 16

/-- The section coordinate of the lowest section. -/
def bottomSection (limit : HeightLimit) : Int := sectionCoord limit.bottom

/-- The least section coordinate above the extent. -/
def topSection (limit : HeightLimit) : Int := sectionCoord (limit.top - 1) + 1

/-- The coordinate lies below or above the extent. -/
def isOutside (limit : HeightLimit) (y : Int) : Bool := y < limit.bottom || limit.top ≤ y

/-- The index of the section with the given coordinate, if it is one of the extent's. -/
def indexOfCoord? (limit : HeightLimit) (coord : Int) : Option Nat :=
  if limit.bottomSection ≤ coord ∧ (coord - limit.bottomSection).toNat < limit.sectionCount then
    some (coord - limit.bottomSection).toNat
  else none

/-- The index of the section that holds a block at height `y`, if it lies in the extent. -/
def sectionIndex? (limit : HeightLimit) (y : Int) : Option Nat :=
  limit.indexOfCoord? (sectionCoord y)

/-- The coordinate of the section with the given index. -/
def sectionCoordOf (limit : HeightLimit) (index : Nat) : Int :=
  limit.bottomSection + wrap32 index

/-- The top of an extent that is not too high. -/
theorem top_eq_of_lt {limit : HeightLimit} (h : limit.height < 2147483648) :
    limit.top = limit.bottom + limit.height := by
  unfold top wrap32
  rw [Int.bmod_eq_of_le (by omega) (by omega)]

theorem lt_sectionCount_of_indexOfCoord? {limit : HeightLimit} {coord : Int} {index : Nat}
    (h : limit.indexOfCoord? coord = some index) : index < limit.sectionCount := by
  unfold indexOfCoord? at h
  split at h
  · rename_i hc
    cases h
    exact hc.2
  · cases h

end HeightLimit

end VoxelChunk
