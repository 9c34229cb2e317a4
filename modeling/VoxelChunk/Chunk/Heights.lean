import VoxelChunk.Chunk.Registry

/-!
# Heightmaps of a chunk

Heightmaps follow every write to a block. They can also be found by scanning the columns from the
top, which passes over sections without blocks.

## Main definitions

* `scanColumn` — the height of a column as found by a scan.
* `Site.trackHeightmaps` — the heightmaps after a block has changed.
* `Chunk.populateHeightmaps`, `Chunk.highestPoint` — scans of all columns.
* `Chunk.sampleHeightmap`, `Chunk.setHeightmap` — one heightmap.
-/

namespace VoxelChunk

/-- The sections of a chunk, from the bottom up. -/
abbrev Sections := Array (Option Section)

/-- The state stored for a block, air if there is none or it cannot be read. -/
def columnState (sections : Sections) (limit : HeightLimit) (x y z : Int) : BlockState :=
  match (limit.sectionIndex? y).bind fun index => sections[index]?.join with
  | none => .air
  | some s => (s.get ⟨x, y, z⟩).toOption.getD .air

/-- The greatest of the lowest `n` layers of a section whose block at `x` and `z` counts. -/
def topLayer? (s : Section) (x z : Int) (counts : BlockState → Bool) : Nat → Option Nat
  | 0 => none
  | n + 1 =>
    match s.get ⟨x, n, z⟩ with
    | .ok state => if counts state then some n else topLayer? s x z counts n
    | .error _ => topLayer? s x z counts n

/-- The height just above the topmost block that counts in the lowest `n` sections, or the bottom
of the world. Sections without blocks are passed over. -/
def scanSections (sections : Sections) (limit : HeightLimit) (x z : Int)
    (counts : BlockState → Bool) : Nat → Int
  | 0 => limit.bottom
  | n + 1 =>
    match (sections[n]?.join.filter fun s => !s.isEmpty).bind fun s =>
        topLayer? s x z counts 16 with
    | some layer => wrap32 (limit.sectionCoordOf n * 16) + layer + 1
    | none => scanSections sections limit x z counts n

/-- The height of a column as found by a scan from the top. -/
def scanColumn (sections : Sections) (limit : HeightLimit) (x z : Int)
    (counts : BlockState → Bool) : Int :=
  scanSections sections limit x z counts sections.size

/-- The columns of a chunk, `z` fastest. -/
def columns : List (Int × Int) :=
  (span 0 15).flatMap fun x => (span 0 15).map fun z => (x, z)

namespace Chunk

variable {α τ : Type}

/-- The heightmap of a kind, if the chunk has one. -/
def heightmap? (c : Chunk α) (kind : Nat) : Option Heightmap := c.heightmaps[kind]?.join

/-- The height of a column in the heightmap of a kind; without one it is the bottom. -/
def sampleHeightmap (c : Chunk α) (cfg : Config α τ) (kind : Nat) (x z : Int) : Int :=
  match c.heightmap? kind with
  | some h => h.get x z
  | none => cfg.height.bottom

/-- The heights of a column for all kinds, in the order of their numbers. -/
def heightsAt (c : Chunk α) (cfg : Config α τ) (x z : Int) : List Int :=
  (List.range cfg.heightmaps.length).map fun kind => c.sampleHeightmap cfg kind x z

/-- The packed words of the heightmap of a kind. -/
def heightmapLongs? (c : Chunk α) (kind : Nat) : Option (List Int64) :=
  (c.heightmap? kind).map Heightmap.toLongs

/-- Put a heightmap in its place. -/
def putHeightmap (c : Chunk α) (kind : Nat) (h : Heightmap) : Chunk α :=
  { c with heightmaps := c.heightmaps.setIfInBounds kind (some h) }

/-- Replace the heightmap of a kind by packed words. A kind of the world that the chunk had no
heightmap of gets one, which stays flat if the words are not as many as needed. -/
def setHeightmap (c : Chunk α) (cfg : Config α τ) (kind : Nat) (longs : List Int64) :
    Except StorageError Unit × Chunk α :=
  if kind < c.heightmaps.size then
    let h := (c.heightmap? kind).getD (.flat cfg.height)
    match h.setLongs longs with
    | .ok replaced => (.ok (), c.putHeightmap kind replaced)
    | .error e => (.error e, c.putHeightmap kind h)
  else (.ok (), c)

/-- Scan all columns for every heightmap of the chunk. -/
def populateHeightmaps (c : Chunk α) (cfg : Config α τ) : Chunk α :=
  cfg.heightmaps.zipIdx.foldl (fun c (kind, number) =>
    match c.heightmap? number with
    | none => c
    | some h =>
      let counts := kind.counts cfg.facts
      c.putHeightmap number <| columns.foldl (fun h (x, z) =>
        h.set x z (scanColumn c.sections cfg.height x z counts)) h) c

/-- The greatest height of a column for a kind, as found by scanning all columns. -/
def highestPoint (c : Chunk α) (cfg : Config α τ) (kind : Nat) : Int :=
  match cfg.heightmaps[kind]? with
  | none => cfg.height.bottom
  | some k =>
    let counts := k.counts cfg.facts
    columns.foldl (fun highest (x, z) =>
      max highest (scanColumn c.sections cfg.height x z counts)) cfg.height.bottom

end Chunk

namespace Site

variable {α τ : Type}

/-- The heightmap of one kind after the block at `x`, `y` and `z` of the chunk has got a new
state. If heightmaps are verified, a difference from a scan is noted. -/
def trackHeightmap (s : Site α τ) (cfg : Config α τ) (x y z : Int) (state : BlockState)
    (kind : HeightmapKind) (number : Nat) : Site α τ :=
  match s.chunk.heightmap? number with
  | none => s
  | some h =>
    let sections := s.chunk.sections
    let counts := kind.counts cfg.facts
    let tracked := (h.track x y z (counts state) fun y =>
      counts (columnState sections cfg.height x y z)).2
    let s := { s with chunk := s.chunk.putHeightmap number tracked }
    let expected := scanColumn sections cfg.height x z counts
    if cfg.verifyHeightmaps && tracked.get x z != expected then
      s.note (.staleHeightmap kind.name s.chunk.pos x z (tracked.get x z) expected)
    else s

/-- All heightmaps after a block has got a new state. -/
def trackHeightmaps (s : Site α τ) (cfg : Config α τ) (pos : BlockPos) (state : BlockState) :
    Site α τ :=
  cfg.heightmaps.zipIdx.foldl (fun s (kind, number) =>
    s.trackHeightmap cfg (pos.x % 16) pos.y (pos.z % 16) state kind number) s

end Site

end VoxelChunk
