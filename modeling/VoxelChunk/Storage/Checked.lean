import VoxelChunk.Storage.Container

/-!
# Checked writes

The states of a container are supposed to fit the cells that store their numbers. Nothing depends
on it as long as a palette is there. A program built with checks stops at a write that makes a cell
store a number that does not fit; without checks the number is cut.

## Main definitions

* `WriteCheck` — what is checked.
* `Container.failedCheck?` — the check that a write fails.
* `Container.setChecked` — a write by a program built with checks.
-/

namespace VoxelChunk

/-- What is checked of the number of a state. -/
inductive WriteCheck where
  /-- A state that is written fits the width of the registry. -/
  | state
  /-- A number that a cell gets fits the cell. -/
  | cell
  deriving DecidableEq, Repr

/-- The text that a program stops with. -/
def WriteCheck.message : WriteCheck → String
  | state => "assertion failed: self.global_bits == 32 || state.0 < (1 << self.global_bits)"
  | cell => "value too large for bits"

namespace Container

/-- The number of the state fits a cell that stores it. -/
def fitsCell (c : Container) (state : BlockState) : Bool := state.id.toNat < 1 <<< c.globalBits

/-- The check that fails when all cells come to store the numbers of their states and one more cell
gets a number. It is the first in the order of the cells, unless a cell before cannot be read. -/
def failedCellCheck? (c : Container) (state : BlockState) : Option WriteCheck :=
  let failed := (List.range c.length).findSome? fun i =>
    match c.get i with
    | .error _ => some none
    | .ok stored => if c.fitsCell stored then none else some (some WriteCheck.cell)
  failed.getD (if c.fitsCell state then none else some .cell)

/-- The check that fails when a state is written to a cell. -/
def failedCheck? (c : Container) (i : Nat) (state : BlockState) : Option WriteCheck :=
  match c.get i with
  | .error _ => none
  | .ok _ =>
    match c.palette with
    | .direct => if c.fitsCell state then none else some .state
    | .indexed states =>
      if state ∈ states ∨ states.size < 1 <<< c.bits ∨ c.bits + 1 ≤ maxIndexBits then none
      else c.failedCellCheck? state

/-- Write a state to a cell, unless a check fails. -/
def setChecked (c : Container) (i : Nat) (state : BlockState) :
    Except WriteCheck (Except StorageError BlockState) × Container :=
  match c.failedCheck? i state with
  | some check => (.error check, c)
  | none => (.ok (c.set i state).1, (c.set i state).2)

end Container

end VoxelChunk
