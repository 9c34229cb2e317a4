import VoxelChunk.Runs
import VoxelChunk.Storage.Error

/-!
# Containers of block states

A container holds a fixed number of block states. While there are few different ones, the states
are listed in a palette and each cell stores an index into it; the cells grow by one bit whenever
the palette outgrows them. Once more than eight bits would be needed, the palette is dropped and
each cell stores the number of its state.

## Main definitions

* `Palette` — how stored numbers stand for states.
* `Container`, `Container.filled` — containers, and the one with a single state.
* `Container.get`, `Container.set` — the state of a cell, and a write to it.
* `Container.toList?` — all states in order, if all can be read.
-/

namespace VoxelChunk

/-- The least number of bits of a cell that stores an index. -/
def minIndexBits : Nat := 4

/-- The greatest number of bits of a cell that stores an index. -/
def maxIndexBits : Nat := 8

/-- How stored numbers stand for states. -/
inductive Palette where
  /-- By their place in a list of different states. -/
  | indexed (states : Array BlockState)
  /-- As the numbers of the states themselves. -/
  | direct
  deriving DecidableEq, Repr

/-- A fixed number of block states. -/
structure Container where
  /-- The bits of a cell that stores the number of a state. -/
  globalBits : Nat
  palette : Palette
  cells : PackedArray
  deriving DecidableEq

/-- The state that a stored number stands for. -/
def Palette.state (palette : Palette) (raw : Nat) : Except StorageError BlockState :=
  match palette with
  | .indexed states =>
    match states[raw]? with
    | some state => .ok state
    | none => .error (.missingEntry raw)
  | .direct => .ok ⟨UInt32.ofNat raw⟩

namespace Container

/-- The container with one state in all cells. -/
def filled (length : Nat) (state : BlockState) (globalBits : Nat) : Container :=
  ⟨globalBits, .indexed #[state], .zero minIndexBits length⟩

/-- The number of cells. -/
def length (c : Container) : Nat := c.cells.length

/-- The bits of a cell. -/
def bits (c : Container) : Nat := c.cells.bits

/-- The state of a cell. -/
def get (c : Container) (i : Nat) : Except StorageError BlockState := c.palette.state (c.cells.get i)

/-- All states in order, or why the first cell that cannot be read cannot. -/
def toList? (c : Container) : Except StorageError (List BlockState) :=
  (List.range c.length).mapM c.get

/-! ### Writing -/

/-- The container with cells that store the numbers of their states. -/
def toDirect (c : Container) : Except StorageError Container :=
  c.toList?.map fun states =>
    let ids := states.toArray.map fun s => s.id.toNat
    { c with
      palette := .direct
      cells := .ofFn c.globalBits c.length fun i => ids.getD i 0 }

/-- The container with cells wider by one bit, or that store the numbers of their states if the
cells would be too wide for indices. -/
def grow (c : Container) : Except StorageError Container :=
  if c.bits + 1 ≤ maxIndexBits then .ok { c with cells := c.cells.repack (c.bits + 1) }
  else c.toDirect

/-- The number that stands for a state, which is put into the palette if it is not there. The
palette keeps the state also if the cells cannot be widened for it. -/
def intern (c : Container) (state : BlockState) : Except StorageError Nat × Container :=
  match c.palette with
  | .direct => (.ok state.id.toNat, c)
  | .indexed states =>
    match states.idxOf? state with
    | some index => (.ok index, c)
    | none =>
      let c := { c with palette := .indexed (states.push state) }
      if states.size < 1 <<< c.bits then (.ok states.size, c)
      else
        match c.grow with
        | .error e => (.error e, c)
        | .ok grown =>
          match grown.palette with
          | .indexed _ => (.ok states.size, grown)
          | .direct => (.ok state.id.toNat, grown)

/-- Write a state to a cell. The outcome is the state before, or why the write failed. -/
def set (c : Container) (i : Nat) (state : BlockState) :
    Except StorageError BlockState × Container :=
  match c.get i with
  | .error e => (.error e, c)
  | .ok previous =>
    match c.intern state with
    | (.error e, c) => (.error e, c)
    | (.ok raw, c) => (.ok previous, { c with cells := c.cells.set i raw })

/-- Write states to consecutive cells until a write fails. -/
def setFrom (c : Container) (i : Nat) : List BlockState → Except StorageError Unit × Container
  | [] => (.ok (), c)
  | state :: rest =>
    match c.set i state with
    | (.error e, c) => (.error e, c)
    | (.ok _, c) => setFrom c (i + 1) rest

/-! ### Counting -/

/-- The different states with their numbers of cells, in the order of the states. -/
def counts (c : Container) : Except StorageError (List (BlockState × Nat)) :=
  c.toList?.map fun states => runs (states.mergeSort fun a b => a.id ≤ b.id)

end Container

end VoxelChunk
