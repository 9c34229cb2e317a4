import VoxelChunk.Chunk.Entities
import VoxelChunk.Chunk.Heights

/-!
# Writing blocks

A write to a block carries everything along that depends on it: the counters of its section, the
heightmaps, the events, the reactions of the blocks that go and come, and the block entity. A
reaction may write again. How deep such writes may be nested is limited by the configuration, and
a write beyond the limit is noted and not made.

## Main definitions

* `Reaction.run` — the edits of a reaction, given how a block is written.
* `Site.storeBlock` — the stored state, with heightmaps and the status of the section.
* `Site.writeBlock` — a write with a given limit for nested ones.
* `Site.setBlock`, `Site.fill` — a write, and writes to all blocks of a box.
-/

namespace VoxelChunk

variable {α τ : Type}

/-- How a reaction writes a block: position, state, and whether the block was moved. -/
abbrev BlockWriter (α τ : Type) :=
  Site α τ → BlockPos → BlockState → Bool → Option BlockState × Site α τ

/-- Make the edits of a reaction. -/
def Reaction.run (write : BlockWriter α τ) (cfg : Config α τ) :
    Reaction α τ → Site α τ → Site α τ
  | done, s => s
  | setBlock pos state moved next, s =>
    let (previous, s) := write s pos state moved
    run write cfg (next previous) s
  | removeEntity pos next, s =>
    let (removed, s) := s.removeEntity pos
    run write cfg (next removed) s
  | addEntity entity next, s => run write cfg next (s.addEntity cfg entity)
  | look next, s => run write cfg (next s) s

namespace Site

/-- Store a state in a section and carry along the counters, the heightmaps and the status of the
section. The outcome is the state before, if there was another one. Air is not stored in an absent
section. -/
def storeBlock (s : Site α τ) (cfg : Config α τ) (index : Nat) (pos : BlockPos)
    (state : BlockState) : Option BlockState × Site α τ :=
  let current := s.chunk.section? index
  if current.isNone && cfg.facts.isAir state then (none, s)
  else
    let before := current.getD (.empty cfg.globalBits)
    let (outcome, after) := before.set cfg.facts pos state
    let sections := s.chunk.sections.setIfInBounds index (some after)
    let s := { s with chunk := { s.chunk with sections } }
    match outcome with
    | .error cause => (none, s.note (.fault ⟨.writeBlock, s.chunk.pos, pos, cause⟩))
    | .ok previous =>
      if previous = state then (none, s)
      else
        let s := s.trackHeightmaps cfg pos state
        if before.isEmpty = after.isEmpty then (some previous, s)
        else
          (some previous, s.push
            (.sectionStatus s.chunk.pos (cfg.height.sectionCoordOf index) after.isEmpty))

/-- The block entity leaves with its block, or the block that was replaced reacts. On a client no
block reacts, and the entity leaves when the kind of block changes. -/
def replaceBlock (s : Site α τ) (write : BlockWriter α τ) (cfg : Config α τ) (pos : BlockPos)
    (old new : BlockState) (moved : Bool) : Site α τ :=
  if s.level.isClient then (cfg.facts.leaveWithBlock pos old new).run write cfg s
  else (cfg.registry.onReplaced pos old new moved).run write cfg s

/-- The kind of block at a position of a section, if it can be read. -/
def storedKind? (s : Site α τ) (cfg : Config α τ) (index : Nat) (pos : BlockPos) :
    Option BlockId :=
  (s.chunk.section? index).bind fun sec => (sec.get pos).toOption.map cfg.facts.blockOf

/-- The entity of a block that has got a new state: the one there is told, and without one the
block gets the entity that it gets by itself. -/
def attachEntity (s : Site α τ) (cfg : Config α τ) (pos : BlockPos) (state : BlockState) :
    Site α τ :=
  if cfg.facts.hasEntity state then
    let (found, s) := s.updateEntityState cfg pos state
    if found then s
    else
      match cfg.registry.create pos state with
      | some entity => s.addEntity cfg entity
      | none => s
  else s

/-- Write a block, given how reactions write. -/
def writeWith (s : Site α τ) (write : BlockWriter α τ) (cfg : Config α τ) (pos : BlockPos)
    (state : BlockState) (flags : SetFlags) : Option BlockState × Site α τ :=
  match cfg.height.sectionIndex? pos.y with
  | none => (none, s)
  | some index =>
    match s.storeBlock cfg index pos state with
    | (none, s) => (none, s)
    | (some previous, s) =>
      let s := s.replaceBlock write cfg pos previous state flags.moved
      -- the reaction may have put another kind of block there
      if s.storedKind? cfg index pos ≠ some (cfg.facts.blockOf state) then (none, s)
      else
        let s := if s.level.isClient then s
          else (cfg.registry.onAdded pos state previous flags.moved).run write cfg s
        let s := s.attachEntity cfg pos state
        let s := { s with chunk := { s.chunk with needsSaving := true } }
        (some previous, s.push (.block pos previous state flags))

/-- Write a block whose reactions may nest writes up to the given depth. -/
def writeBlock (cfg : Config α τ) : Nat → Site α τ → BlockPos → BlockState → SetFlags →
    Option BlockState × Site α τ
  | 0, s, pos, _, _ => (none, s.note (.nestedTooDeep pos))
  | depth + 1, s, pos, state, flags =>
    s.writeWith (fun s pos state moved => writeBlock cfg depth s pos state { moved })
      cfg pos state flags

/-- Write a block. The outcome is the state before, if the write was made and changed it. -/
def setBlock (s : Site α τ) (cfg : Config α τ) (pos : BlockPos) (state : BlockState)
    (flags : SetFlags) : Option BlockState × Site α τ :=
  writeBlock cfg (cfg.nesting + 1) s pos state flags

/-- Write all blocks of a box. The outcome is the number of blocks that changed. -/
def fill (s : Site α τ) (cfg : Config α τ) (lo hi : BlockPos) (state : BlockState)
    (flags : SetFlags) : Nat × Site α τ :=
  (BlockPos.box lo hi).foldl (fun (changed, s) pos =>
    match s.setBlock cfg pos state flags with
    | (some _, s) => (changed + 1, s)
    | (none, s) => (changed, s)) (0, s)

end Site

end VoxelChunk
