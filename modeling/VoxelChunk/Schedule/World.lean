import VoxelChunk.Grid.Position

/-!
# Ticks scheduled in a world

A tick is due at a time and concerns a target, a kind of block or fluid, at a position. A target
is scheduled at most once at a position. Ticks that are due are handed out in the order of their
times, then of their priorities, lower ones first, then of their acceptance.

A schedule has two collections, the ticks in their order and the set of their keys. Whether a
target is scheduled is told by the set alone, so each operation has to change both.

## Main definitions

* `TickKey`, `ScheduledTick` — what a tick concerns, and the tick itself.
* `WorldSchedule` — the pending ticks and the set of their keys.
* `WorldSchedule.schedule`, `WorldSchedule.popDue?`, `WorldSchedule.drainChunk`.
-/

namespace VoxelChunk

/-- How urgent a tick is; of two ticks due at one time the one with the lower number comes first. -/
structure TickPriority where
  level : Int8
  deriving DecidableEq, Repr, Inhabited

namespace TickPriority

/-- Before `high`. -/
def extremelyHigh : TickPriority := ⟨-3⟩

/-- Before `normal`. -/
def high : TickPriority := ⟨-1⟩

/-- What a tick has unless told otherwise. -/
def normal : TickPriority := ⟨0⟩

/-- After `normal`. -/
def low : TickPriority := ⟨1⟩

end TickPriority

/-- A target at a position. -/
structure TickKey (κ : Type) where
  pos : BlockPos
  target : κ
  deriving DecidableEq, Repr

/-- A tick that is due at a time of the world. -/
structure ScheduledTick (κ : Type) where
  /-- The number of ticks that the schedule had accepted before. -/
  uid : Nat
  time : Nat
  priority : TickPriority
  key : TickKey κ
  deriving DecidableEq, Repr

namespace ScheduledTick

variable {κ : Type}

/-- The order in which ticks come out. -/
def compare (a b : ScheduledTick κ) : Ordering :=
  (Ord.compare a.time b.time).then
    ((Ord.compare a.priority.level.toInt b.priority.level.toInt).then (Ord.compare a.uid b.uid))

/-- Two ticks of one schedule are the same. -/
def same (a b : ScheduledTick κ) : Bool := a.uid == b.uid && a.time == b.time

end ScheduledTick

/-- The pending ticks of a world. -/
structure WorldSchedule (κ : Type) where
  /-- The ticks in the order in which they come out. -/
  ticks : List (ScheduledTick κ) := []
  /-- The set of the keys that cannot be scheduled again. -/
  keys : List (TickKey κ) := []
  /-- The number of ticks accepted so far. -/
  nextUid : Nat := 0
  deriving Inhabited

namespace WorldSchedule

variable {κ : Type}

/-- The number of pending ticks. -/
def size (s : WorldSchedule κ) : Nat := s.ticks.length

/-- No tick is pending. -/
def isEmpty (s : WorldSchedule κ) : Bool := s.ticks.isEmpty

/-- Put a tick before the first that comes out after it, unless one that compares equal is there. -/
def place (tick : ScheduledTick κ) : List (ScheduledTick κ) → List (ScheduledTick κ)
  | [] => [tick]
  | t :: rest =>
    match tick.compare t with
    | .lt => tick :: t :: rest
    | .eq => t :: rest
    | .gt => t :: place tick rest

variable [DecidableEq κ]

/-- The target is scheduled at the position. -/
def isScheduled (s : WorldSchedule κ) (pos : BlockPos) (target : κ) : Bool :=
  s.keys.contains ⟨pos, target⟩

/-- Schedule a tick, unless the target is scheduled at the position already. -/
def schedule (s : WorldSchedule κ) (pos : BlockPos) (target : κ) (time : Nat)
    (priority : TickPriority) : Bool × WorldSchedule κ :=
  if s.isScheduled pos target then (false, s)
  else
    (true,
      { ticks := place ⟨s.nextUid, time, priority, ⟨pos, target⟩⟩ s.ticks
        keys := s.keys.insert ⟨pos, target⟩
        nextUid := s.nextUid + 1 })

/-- The first pending tick and the schedule without it, if it is due at the given time. -/
def popDue? (s : WorldSchedule κ) (time : Nat) : Option (ScheduledTick κ × WorldSchedule κ) :=
  match s.ticks with
  | [] => none
  | t :: rest =>
    if time < t.time then none
    else some (t, { s with ticks := rest, keys := s.keys.erase t.key })

theorem ticks_of_popDue? {s next : WorldSchedule κ} {time : Nat} {tick : ScheduledTick κ}
    (h : s.popDue? time = some (tick, next)) : s.ticks = tick :: next.ticks := by
  unfold popDue? at h
  split at h
  · simp at h
  next hticks =>
    split at h
    · simp at h
    · obtain ⟨rfl, rfl⟩ := by simpa using h
      exact hticks

/-- Take the first tick out until none is due: the ticks in the order in which they came out, and
what is left. -/
def popAllDue (s : WorldSchedule κ) (time : Nat) : List (ScheduledTick κ) × WorldSchedule κ :=
  match _h : s.popDue? time with
  | none => ([], s)
  | some (tick, next) =>
    let (ticks, left) := next.popAllDue time
    (tick :: ticks, left)
termination_by s.size
decreasing_by
  rw [size, size, ticks_of_popDue? _h]
  exact Nat.lt_succ_self _

/-- Take out the tick that compares equal to the given one, and its key. -/
def remove (s : WorldSchedule κ) (tick : ScheduledTick κ) : WorldSchedule κ :=
  { s with
    ticks := s.ticks.eraseP fun t => (tick.compare t).isEq
    keys := s.keys.erase tick.key }

/-- The pending ticks of a chunk, in the order in which they would come out, and the schedule
without them. -/
def drainChunk (s : WorldSchedule κ) (chunk : ChunkPos) :
    List (ScheduledTick κ) × WorldSchedule κ :=
  let drained := s.ticks.filter fun t => chunk.contains t.key.pos
  (drained, drained.foldl remove s)

end WorldSchedule

end VoxelChunk
