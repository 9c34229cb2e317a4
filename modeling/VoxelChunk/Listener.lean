import VoxelChunk.Map.Keyed
import VoxelChunk.Grid.Position

/-!
# Listeners to game events

A listener hears the events within its range. The listeners of a section stand in a dispatcher,
each source at most once, and the dispatchers of a chunk are kept by section coordinate. A
dispatcher that loses its last listener goes away.

## Main definitions

* `GameEvent`, `Listener` — events and those who hear them.
* `Dispatcher` — the listeners of a section, in the order in which they came.
* `Dispatchers` — the dispatchers of a chunk.
-/

namespace VoxelChunk

/-- Something that happens at a position and can be heard from afar. -/
structure GameEvent where
  id : String
  /-- How far around the position sections are searched for listeners. -/
  range : UInt32
  deriving DecidableEq, Repr

/-- One who hears events, known by the position of its block entity. -/
structure Listener where
  source : BlockPos
  /-- The greatest distance at which events are heard. -/
  range : UInt32
  deriving DecidableEq, Repr, Inhabited

/-- An event at the position is heard. -/
def Listener.accepts (l : Listener) (pos : BlockPos) : Bool :=
  (pos - l.source).lengthSq ≤ .ofNat l.range.toNat * .ofNat l.range.toNat

/-- The listeners of a section, in the order in which they came. -/
structure Dispatcher where
  listeners : List Listener := []
  deriving DecidableEq, Repr, Inhabited

namespace Dispatcher

/-- The number of listeners. -/
def size (d : Dispatcher) : Nat := d.listeners.length

/-- There are no listeners. -/
def isEmpty (d : Dispatcher) : Bool := d.listeners.isEmpty

/-- Add a listener, in the place of the one with the same source if there is one. -/
def add (d : Dispatcher) (l : Listener) : Dispatcher :=
  if d.listeners.any fun other => other.source == l.source then
    ⟨d.listeners.map fun other => if other.source = l.source then l else other⟩
  else ⟨d.listeners ++ [l]⟩

/-- Remove the listener with the given source. The outcome tells whether there was one. -/
def remove (d : Dispatcher) (source : BlockPos) : Bool × Dispatcher :=
  (d.listeners.any fun l => l.source == source, ⟨d.listeners.filter fun l => l.source != source⟩)

/-- The listeners that hear an event at the position. -/
def dispatch (d : Dispatcher) (pos : BlockPos) : List Listener :=
  d.listeners.filter fun l => l.accepts pos

end Dispatcher

/-- The dispatchers of a chunk, by the section coordinate. -/
abbrev Dispatchers := Keyed Int Dispatcher

namespace Dispatchers

/-- The dispatchers with one for the given section, and that one. -/
def ensure (ds : Dispatchers) (sectionY : Int) : Dispatcher × Dispatchers :=
  match ds.find? sectionY with
  | some d => (d, ds)
  | none => ({}, ds.insert sectionY {})

/-- Add a listener to the dispatcher of a section. -/
def addListener (ds : Dispatchers) (sectionY : Int) (l : Listener) : Dispatchers :=
  ds.insert sectionY (((ds.find? sectionY).getD {}).add l)

/-- Remove a listener from the dispatcher of a section, which goes away if it is left empty. The
outcome tells whether there was such a listener. -/
def removeListener (ds : Dispatchers) (sectionY : Int) (source : BlockPos) :
    Bool × Dispatchers :=
  match ds.find? sectionY with
  | none => (false, ds)
  | some d =>
    let (found, rest) := d.remove source
    (found, if rest.isEmpty then ds.erase sectionY else ds.insert sectionY rest)

end Dispatchers

end VoxelChunk
