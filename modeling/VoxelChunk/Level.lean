import VoxelChunk.Entity
import VoxelChunk.Fault
import VoxelChunk.Schedule.World

/-!
# The level of a world

The level is what all chunks of a world share: whether it is a client's, the time, the tickers,
the ticks scheduled in the world, the events for those who watch the world, and the notices for
those who run it.

## Main definitions

* `Event`, `SetFlags` — what happened to blocks, sections and block entities.
* `Notice` — what should not happen, with its text.
* `Level` — the level itself.
-/

namespace VoxelChunk

/-- How a block is set. -/
structure SetFlags where
  /-- The block has been moved here. -/
  moved : Bool := false
  /-- Clients should not draw the block anew. -/
  noRedraw : Bool := false
  /-- The neighbours should not react. -/
  force : Bool := false
  deriving DecidableEq, Repr, Inhabited

/-- Something that happened in a chunk. -/
inductive Event where
  /-- The state of a block changed. -/
  | block (pos : BlockPos) (previous new : BlockState) (flags : SetFlags)
  /-- A section became empty or ceased to be. -/
  | sectionStatus (chunk : ChunkPos) (sectionY : Int) (isEmpty : Bool)
  /-- A block entity has been installed. -/
  | entitySet (pos : BlockPos)
  /-- A block entity has been removed. -/
  | entityRemoved (pos : BlockPos)
  deriving DecidableEq, Repr

/-! ### Notices -/

/-- How bad a notice is. -/
inductive Severity where
  | warning
  | error
  deriving DecidableEq, Repr

/-- The word for it in a log. -/
def Severity.name : Severity → String
  | warning => "WARN"
  | error => "ERROR"

/-- Something that those who run the world should know. -/
inductive Notice where
  /-- A chunk was made from the wrong number of sections. -/
  | sectionCount (chunk : ChunkPos) (actual expected : Nat)
  /-- A heightmap differs from a scan of the column. -/
  | staleHeightmap (kind : String) (chunk : ChunkPos) (x z actual expected : Int)
  /-- Saved data asks for the entity of a block that has none. -/
  | dummyWithoutEntity (pos : BlockPos) (state : BlockState)
  /-- Saved data stands for no entity. -/
  | loadFailed (pos : BlockPos) (cause : LoadError)
  /-- Saved data was given up. -/
  | notLoaded (pos : BlockPos) (state : BlockState)
  /-- A block entity was to be added where there is no chunk. -/
  | missingChunk (pos : BlockPos)
  /-- A block entity is not ticked because its block has the wrong state. -/
  | invalidForTicking (type : EntityType) (pos : BlockPos) (state : BlockState)
  /-- Stored states are corrupted. -/
  | fault (cause : Fault)
  /-- A write made while reacting to a write was nested too deep and not made. -/
  | nestedTooDeep (pos : BlockPos)
  deriving DecidableEq, Repr

namespace Notice

/-- How bad a notice is. -/
def severity : Notice → Severity
  | staleHeightmap .. => .error
  | fault .. => .error
  | nestedTooDeep .. => .error
  | _ => .warning

/-- The text of a notice. -/
def message : Notice → String
  | sectionCount chunk actual expected =>
    "could not set chunk " ++ chunk.text ++ " sections, array length is " ++ toString actual ++
      " instead of " ++ toString expected
  | staleHeightmap kind chunk x z actual expected =>
    "heightmap " ++ kind ++ " of chunk " ++ chunk.text ++ " at " ++ toString x ++ "/" ++
      toString z ++ " is " ++ toString actual ++ ", expected " ++ toString expected
  | dummyWithoutEntity pos state =>
    "tried to load a dummy block entity at " ++ pos.text ++
      " but found no block entity block " ++ state.text
  | loadFailed pos cause =>
    "failed to load block entity at " ++ pos.text ++ ": " ++ cause.message
  | notLoaded pos state =>
    "tried to load a block entity for block " ++ state.text ++ " but failed at location " ++
      pos.text
  | missingChunk pos => "tried to add a block entity at " ++ pos.text ++ " in a missing chunk"
  | invalidForTicking type pos state =>
    "block entity " ++ type.id ++ " @ " ++ pos.text ++ " state " ++ state.text ++
      " invalid for ticking"
  | fault cause => cause.message
  | nestedTooDeep pos => "a block at " ++ pos.text ++ " was not set, reactions are nested too deep"

/-- The line for a log: how bad it is, and the text. -/
def line (n : Notice) : String := n.severity.name ++ ": " ++ n.message

end Notice

/-! ### Levels -/

/-- What all chunks of a world share. -/
structure Level (τ : Type) where
  /-- The level shows a world that is run elsewhere. -/
  isClient : Bool
  /-- The time of the world. -/
  time : Nat := 0
  tickers : Tickers τ := {}
  blockTicks : WorldSchedule BlockId := {}
  fluidTicks : WorldSchedule FluidId := {}
  /-- The events so far, if they are kept. -/
  events : Option (Array Event) := none
  /-- The notices so far. -/
  notices : Array Notice := #[]
  deriving Inhabited

namespace Level

variable {τ : Type}

/-- Add an event, if events are kept. -/
def push (l : Level τ) (event : Event) : Level τ :=
  { l with events := l.events.map (·.push event) }

/-- Replace the events by others, or stop keeping them. The outcome is the events so far. -/
def swapEvents (l : Level τ) (events : Option (Array Event)) :
    Option (Array Event) × Level τ :=
  (l.events, { l with events })

/-- Free the slots of all tickers that have been removed. The outcome is their number. -/
def reapTickers (l : Level τ) : Nat × Level τ :=
  let (reaped, tickers) := l.tickers.reap
  (reaped, { l with tickers })

/-- Take out the first tick of a block, if it is due at the given time. -/
def popBlockTick? (l : Level τ) (time : Nat) : Option (ScheduledTick BlockId × Level τ) :=
  (l.blockTicks.popDue? time).map fun (tick, blockTicks) => (tick, { l with blockTicks })

/-- Take out the first tick of a fluid, if it is due at the given time. -/
def popFluidTick? (l : Level τ) (time : Nat) : Option (ScheduledTick FluidId × Level τ) :=
  (l.fluidTicks.popDue? time).map fun (tick, fluidTicks) => (tick, { l with fluidTicks })

/-- Take out the events and notices so far. Events are kept on if they were. -/
def drain (l : Level τ) : Array Event × Array Notice × Level τ :=
  (l.events.getD #[], l.notices, { l with events := l.events.map fun _ => #[], notices := #[] })

/-- Add a notice. -/
def note (l : Level τ) (notice : Notice) : Level τ := { l with notices := l.notices.push notice }

/-- The state read from a chunk; a fault is noted and read as air. -/
def settle (l : Level τ) : Except Fault BlockState → BlockState × Level τ
  | .ok state => (state, l)
  | .error fault => (.air, l.note (.fault fault))

end Level

end VoxelChunk
