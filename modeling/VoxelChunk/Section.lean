import VoxelChunk.Grid.Cell
import VoxelChunk.Storage.Checked
import VoxelChunk.Storage.Codec

/-!
# Sections

A section is a cube of 16 blocks a side. Beside the states of its blocks it keeps three counters,
so that empty sections and sections that need no random ticks can be passed over. The counters
follow every write and are counted anew when a section is received.

## Main definitions

* `Counters`, `Counters.tally` — the counters, and what they are for given states.
* `Section.get`, `Section.set` — the state of a block, and a write to it.
* `Section.setChecked` — a write by a program built with checks.
* `Section.recount` — the section with its counters counted anew.
* `Section.encode`, `Section.decoder` — sections as bytes.
-/

namespace VoxelChunk

/-! ### Counters -/

/-- What is counted in a section. -/
structure Counters where
  /-- The blocks that are not air. -/
  nonAir : UInt16 := 0
  /-- The blocks that are ticked at random, once for the block and once for its fluid. -/
  randomTicks : UInt16 := 0
  /-- The blocks with a fluid. -/
  fluids : UInt16 := 0
  deriving DecidableEq, Repr, Inhabited

namespace Counters

/-- What one block in the given state adds to the counters. -/
def ofState (facts : BlockFacts) (state : BlockState) : Counters :=
  let solid := !facts.isAir state
  let fluid := facts.fluidState state
  let wet := !fluid.isEmpty
  let ticks (b : Bool) : UInt16 := if b then 1 else 0
  { nonAir := ticks solid
    randomTicks := ticks (solid && facts.ticksRandomly state) +
      ticks (wet && facts.fluidTicksRandomly fluid)
    fluids := ticks wet }

instance : Add Counters :=
  ⟨fun a b => ⟨a.nonAir + b.nonAir, a.randomTicks + b.randomTicks, a.fluids + b.fluids⟩⟩

instance : Sub Counters :=
  ⟨fun a b => ⟨a.nonAir - b.nonAir, a.randomTicks - b.randomTicks, a.fluids - b.fluids⟩⟩

/-- The counters of blocks in the given states. -/
def tally (facts : BlockFacts) (states : List BlockState) : Counters :=
  states.foldl (fun counters state => counters + ofState facts state) {}

end Counters

/-! ### Sections -/

/-- The states of the blocks of a section, and their counters. -/
structure Section where
  counters : Counters
  states : Container
  deriving DecidableEq

namespace Section

/-- A section of air. -/
def empty (globalBits : Nat) : Section := ⟨{}, .filled cellCount .air globalBits⟩

/-- All blocks are air. -/
def isEmpty (s : Section) : Bool := s.counters.nonAir == 0

/-- Some block or fluid is ticked at random. -/
def hasRandomTicks (s : Section) : Bool := s.counters.randomTicks != 0

/-- Some block has a fluid. -/
def hasFluids (s : Section) : Bool := s.counters.fluids != 0

/-- The state of the block at a position, of which only the place in the section matters. -/
def get (s : Section) (pos : BlockPos) : Except StorageError BlockState :=
  s.states.get (cellIndex pos)

/-- The fluid at a position. -/
def fluidAt (s : Section) (facts : BlockFacts) (pos : BlockPos) : Except StorageError FluidState :=
  (s.get pos).map facts.fluidState

/-- Write a state. The outcome is the state before, or why the write failed. -/
def set (s : Section) (facts : BlockFacts) (pos : BlockPos) (state : BlockState) :
    Except StorageError BlockState × Section :=
  match s.states.set (cellIndex pos) state with
  | (.error e, states) => (.error e, { s with states })
  | (.ok previous, states) =>
    if previous = state then (.ok previous, { s with states })
    else
      (.ok previous,
        ⟨s.counters - Counters.ofState facts previous + Counters.ofState facts state, states⟩)

/-- Write a state, unless a check fails. -/
def setChecked (s : Section) (facts : BlockFacts) (pos : BlockPos) (state : BlockState) :
    Except WriteCheck (Except StorageError BlockState) × Section :=
  match s.states.failedCheck? (cellIndex pos) state with
  | some check => (.error check, s)
  | none => (.ok (s.set facts pos state).1, (s.set facts pos state).2)

/-- The section with its counters counted anew. -/
def recount (s : Section) (facts : BlockFacts) : Except StorageError Section :=
  s.states.toList?.map fun states => { s with counters := Counters.tally facts states }

/-- The states that can be read, each with its place in the section. -/
def toList (s : Section) : List (BlockPos × BlockState) :=
  (List.range cellCount).filterMap fun i =>
    match s.states.get i with
    | .ok state => some (cellPos i, state)
    | .error _ => none

/-! ### Bytes -/

/-- The bytes of a section. -/
def encode (s : Section) : List UInt8 := putShort s.counters.nonAir ++ s.states.encode

/-- The next section. The counter in the bytes is not trusted: all counters are counted anew. -/
def decoder (facts : BlockFacts) (globalBits : Nat) : Decoder StorageError Section := do
  let _ ← readShort.mapError .wire
  let states ← Container.decoder cellCount globalBits
  match (⟨{}, states⟩ : Section).recount facts with
  | .error e => throw e
  | .ok s => return s

end Section

end VoxelChunk
