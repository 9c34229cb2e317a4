import VoxelChunk.Schedule.World

/-!
# Ticks held by a chunk

While a chunk is not ticked by its world it holds its ticks itself, with delays instead of times.
Promoting a chunk hands its ticks over to the world, and demoting it takes them back.

## Main definitions

* `LocalSchedule` — the ticks a chunk holds, in the order of their acceptance, and their keys.
* `TickSlot` — where the ticks of a chunk are: in the chunk or in the world.
* `TickSlot.promote`, `TickSlot.demote`, `TickSlot.schedule`, `TickSlot.isScheduled`.
-/

namespace VoxelChunk

/-- A tick that is due some time after its chunk is promoted. -/
structure LocalTick (κ : Type) where
  key : TickKey κ
  delay : Nat
  priority : TickPriority
  deriving DecidableEq, Repr

/-- The ticks that a chunk holds. -/
structure LocalSchedule (κ : Type) where
  /-- The ticks in the order of their acceptance. -/
  ticks : List (LocalTick κ) := []
  /-- The set of the keys that cannot be scheduled again. -/
  keys : List (TickKey κ) := []
  deriving Inhabited

namespace LocalSchedule

variable {κ : Type}

/-- The number of ticks. -/
def size (s : LocalSchedule κ) : Nat := s.ticks.length

/-- There are no ticks. -/
def isEmpty (s : LocalSchedule κ) : Bool := s.ticks.isEmpty

variable [DecidableEq κ]

/-- The target is scheduled at the position. -/
def isScheduled (s : LocalSchedule κ) (pos : BlockPos) (target : κ) : Bool :=
  s.keys.contains ⟨pos, target⟩

/-- Schedule a tick, unless the target is scheduled at the position already. -/
def schedule (s : LocalSchedule κ) (pos : BlockPos) (target : κ) (delay : Nat)
    (priority : TickPriority) : Bool × LocalSchedule κ :=
  if s.isScheduled pos target then (false, s)
  else
    (true,
      { ticks := s.ticks ++ [⟨⟨pos, target⟩, delay, priority⟩]
        keys := s.keys.insert ⟨pos, target⟩ })

/-- The schedule with the given ticks. Of two with the same key only the first is accepted. -/
def ofTicks (ticks : List (LocalTick κ)) : LocalSchedule κ :=
  ticks.foldl (fun s t => (s.schedule t.key.pos t.key.target t.delay t.priority).2) {}

/-- What is left in the chunk and the schedule of a world that takes over all ticks, due after
their delays from now. A target that the world has scheduled at the position already keeps the
world's tick. -/
def drainInto (s : LocalSchedule κ) (world : WorldSchedule κ) (now : Nat) :
    LocalSchedule κ × WorldSchedule κ :=
  ({ ticks := [], keys := [] }, s.ticks.foldl
    (fun world t => (world.schedule t.key.pos t.key.target (now + t.delay) t.priority).2) world)

/-- The schedule of a chunk that takes over ticks of a world. An overdue tick gets no delay. -/
def ofWorldTicks (ticks : List (ScheduledTick κ)) (now : Nat) : LocalSchedule κ :=
  ofTicks (ticks.map fun t => ⟨t.key, t.time - now, t.priority⟩)

end LocalSchedule

/-- Where the ticks of a chunk are. -/
inductive TickSlot (κ : Type) where
  /-- The chunk holds them. -/
  | held (schedule : LocalSchedule κ)
  /-- The world has them. -/
  | handedOver
  deriving Inhabited

namespace TickSlot

variable {κ : Type}

/-- A chunk that holds its ticks and has none. -/
def empty : TickSlot κ := .held {}

/-- The world has the ticks. -/
def isHandedOver : TickSlot κ → Bool
  | held _ => false
  | handedOver => true

/-- The ticks that the chunk holds. -/
def held? : TickSlot κ → Option (LocalSchedule κ)
  | held s => some s
  | handedOver => none

variable [DecidableEq κ]

/-- Hand the ticks over to the world. The outcome tells whether the chunk held them. -/
def promote (slot : TickSlot κ) (world : WorldSchedule κ) (now : Nat) :
    Bool × TickSlot κ × WorldSchedule κ :=
  match slot with
  | held s => (true, handedOver, (s.drainInto world now).2)
  | handedOver => (false, handedOver, world)

/-- Take the ticks of a chunk back from the world. The outcome tells whether the world had
them. -/
def demote (slot : TickSlot κ) (world : WorldSchedule κ) (chunk : ChunkPos) (now : Nat) :
    Bool × TickSlot κ × WorldSchedule κ :=
  match slot with
  | held s => (false, held s, world)
  | handedOver =>
    let (ticks, world) := world.drainChunk chunk
    (true, held (.ofWorldTicks ticks now), world)

/-- Schedule a tick where the ticks of the chunk are. -/
def schedule (slot : TickSlot κ) (world : WorldSchedule κ) (pos : BlockPos) (target : κ)
    (delay now : Nat) (priority : TickPriority) : Bool × TickSlot κ × WorldSchedule κ :=
  match slot with
  | held s =>
    let (accepted, s) := s.schedule pos target delay priority
    (accepted, held s, world)
  | handedOver =>
    let (accepted, world) := world.schedule pos target (now + delay) priority
    (accepted, handedOver, world)

/-- The target is scheduled at the position, as far as this chunk is concerned. -/
def isScheduled (slot : TickSlot κ) (world : WorldSchedule κ) (pos : BlockPos) (target : κ) :
    Bool :=
  match slot with
  | held s => s.isScheduled pos target
  | handedOver => world.isScheduled pos target

end TickSlot

end VoxelChunk
