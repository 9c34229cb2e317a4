import VoxelChunk.Proofs.Chunk.Packet
import VoxelChunk.Proofs.Chunk.Rejected

/-!
# Heightmaps that are given as words

A heightmap of a chunk can be replaced by packed words, such as were saved or sent. Words that are
too many or too few are refused, and whoever gave them is told. A chunk that has a heightmap of the
kind then stays what it was. A chunk that has none, as for the kinds that are only used while the
world is generated, makes a flat one before it looks at the words, and is left with it.

## Main definitions

* `Chunk.AllOrNothing` — the words are taken and nothing else changes, or nothing changes at all.
* `Chunk.Strands` — words that are refused leave a flat heightmap behind.

## Main results

* `Chunk.setHeightmap_allOrNothing` — words are taken or change nothing exactly if they do not
  strand.
* `Chunk.stranded_stone` — a chunk with a heightmap that it should not have.
-/

namespace VoxelChunk

variable {α τ : Type}

namespace Chunk

/-- The words for a kind are taken as they are, or the chunk stays what it was. -/
structure AllOrNothing (c : Chunk α) (kind : Nat) (longs : List Int64)
    (outcome : Except StorageError Unit × Chunk α) : Prop where
  /-- Words that are refused change nothing. -/
  refused : ∀ e, outcome.1 = .error e → outcome.2 = c
  /-- Words for a kind that the chunk knows are read back once they are taken. -/
  taken : outcome.1 = .ok () → kind < c.heightmaps.size →
    outcome.2.heightmapLongs? kind = some longs
  /-- Heightmaps of other kinds stay as they are, -/
  others : ∀ other, other ≠ kind → outcome.2.heightmap? other = c.heightmap? other
  /-- and so does all the rest. -/
  rest : outcome.2 = { c with heightmaps := outcome.2.heightmaps }

/-- The chunk knows the kind but has no heightmap of it, and the words are too many or too few. -/
structure Strands (c : Chunk α) (cfg : Config α τ) (kind : Nat) (longs : List Int64) : Prop where
  known : kind < c.heightmaps.size
  absent : c.heightmap? kind = none
  misfit : longs.length ≠ cfg.height.heightmapWords

variable {c : Chunk α} {cfg : Config α τ} {kind : Nat} {longs : List Int64}

theorem setHeightmap_of_unknown (h : c.heightmaps.size ≤ kind) (cfg : Config α τ)
    (longs : List Int64) : c.setHeightmap cfg kind longs = (.ok (), c) :=
  if_neg (Nat.not_lt.2 h)

theorem setHeightmap_of_ok (hknown : kind < c.heightmaps.size) {h : Heightmap}
    (hset : ((c.heightmap? kind).getD (.flat cfg.height)).setLongs longs = .ok h) :
    c.setHeightmap cfg kind longs = (.ok (), c.putHeightmap kind h) := by
  rw [setHeightmap, if_pos hknown]
  simp only [hset]

theorem setHeightmap_of_error (hknown : kind < c.heightmaps.size) {e : StorageError}
    (hset : ((c.heightmap? kind).getD (.flat cfg.height)).setLongs longs = .error e) :
    c.setHeightmap cfg kind longs =
      (.error e, c.putHeightmap kind ((c.heightmap? kind).getD (.flat cfg.height))) := by
  rw [setHeightmap, if_pos hknown]
  simp only [hset]

/-- A heightmap that is put where it is changes nothing. -/
theorem putHeightmap_of_heightmap? {h : Heightmap} (hthere : c.heightmap? kind = some h) :
    c.putHeightmap kind h = c := by
  have hslots := setIfInBounds_join c.heightmaps kind
  rw [show c.heightmaps[kind]?.join = some h from hthere] at hslots
  rw [putHeightmap, hslots]

theorem allOrNothing_same (h : c.heightmaps.size ≤ kind) :
    c.AllOrNothing kind longs (.ok (), c) where
  refused _ he := by cases he
  taken _ hknown := absurd hknown (Nat.not_lt.2 h)
  others _ _ := rfl
  rest := rfl

theorem allOrNothing_error (e : StorageError) : c.AllOrNothing kind longs (.error e, c) where
  refused _ _ := rfl
  taken hok := by cases hok
  others _ _ := rfl
  rest := rfl

/-- A heightmap made of the words is put in its place. -/
theorem allOrNothing_putHeightmap (hknown : kind < c.heightmaps.size) {h : Heightmap}
    (hlongs : h.toLongs = longs) : c.AllOrNothing kind longs (.ok (), c.putHeightmap kind h) where
  refused _ he := by cases he
  taken _ _ := by
    rw [heightmapLongs?, heightmap?_putHeightmap hknown, if_pos rfl, Option.map_some, hlongs]
  others other hne := by rw [heightmap?_putHeightmap hknown, if_neg hne]
  rest := rfl

/-- Words that strand leave a flat heightmap, which was not there before. -/
theorem setHeightmap_of_strands (h : c.Strands cfg kind longs) :
    c.setHeightmap cfg kind longs =
      (.error (.invalidDataLength cfg.height.heightmapWords longs.length),
        c.putHeightmap kind (.flat cfg.height)) := by
  have hset := ((Heightmap.fits_flat cfg.height).setLongs longs).2 h.misfit
  rw [setHeightmap_of_error h.known (by rw [h.absent]; exact hset), h.absent, Option.getD_none]

theorem Strands.not_allOrNothing (h : c.Strands cfg kind longs) :
    ¬c.AllOrNothing kind longs (c.setHeightmap cfg kind longs) := by
  rw [setHeightmap_of_strands h]
  intro hall
  have hsame : c.putHeightmap kind (.flat cfg.height) = c := hall.refused _ rfl
  have hflat := heightmap?_putHeightmap h.known (.flat cfg.height) kind
  rw [hsame, h.absent, if_pos rfl] at hflat
  cases hflat

/-- Words that do not strand are taken, or change nothing. -/
theorem allOrNothing_of_not_strands (h : ¬c.Strands cfg kind longs) :
    c.AllOrNothing kind longs (c.setHeightmap cfg kind longs) := by
  by_cases hknown : kind < c.heightmaps.size
  · cases hset : ((c.heightmap? kind).getD (.flat cfg.height)).setLongs longs with
    | ok replaced =>
      rw [setHeightmap_of_ok hknown hset]
      exact allOrNothing_putHeightmap hknown (Heightmap.toLongs_of_setLongs hset)
    | error e =>
      cases hthere : c.heightmap? kind with
      | some present =>
        rw [setHeightmap_of_error hknown hset, hthere, Option.getD_some,
          putHeightmap_of_heightmap? hthere]
        exact allOrNothing_error e
      | none =>
        -- a flat heightmap takes all words that are as many as needed
        rw [hthere, Option.getD_none] at hset
        refine absurd ⟨hknown, hthere, fun hlength => ?_⟩ h
        obtain ⟨replaced, htaken, -⟩ :=
          ((Heightmap.fits_flat cfg.height).setLongs longs).1 hlength
        rw [htaken] at hset
        cases hset
  · rw [setHeightmap_of_unknown (Nat.le_of_not_lt hknown)]
    exact allOrNothing_same (Nat.le_of_not_lt hknown)

/-- **Words are taken, or change nothing, unless they strand**: unless the chunk knows the kind, has
no heightmap of it and the words are too many or too few. Then the chunk is left with a flat
heightmap, although the words are refused. -/
theorem setHeightmap_allOrNothing (c : Chunk α) (cfg : Config α τ) (kind : Nat)
    (longs : List Int64) :
    (c.AllOrNothing kind longs (c.setHeightmap cfg kind longs) ↔ ¬c.Strands cfg kind longs) ∧
      (c.Strands cfg kind longs → c.setHeightmap cfg kind longs =
        (.error (.invalidDataLength cfg.height.heightmapWords longs.length),
          c.putHeightmap kind (.flat cfg.height))) :=
  ⟨⟨fun hall h => h.not_allOrNothing hall, allOrNothing_of_not_strands⟩, setHeightmap_of_strands⟩

/-- Three words are too few for the surface that the world is generated with, which a new chunk has
no heightmap of. They leave one behind. -/
theorem stranded_stone :
    ((Chunk.new stoneWorld { pos := ⟨0, 0⟩ }).setHeightmap stoneWorld 0 [0, 0, 0]).2.heightmapLongs?
      0 ≠ (Chunk.new stoneWorld { pos := ⟨0, 0⟩ }).heightmapLongs? 0 := by
  have hstrands : (Chunk.new stoneWorld { pos := ⟨0, 0⟩ }).Strands stoneWorld 0 [0, 0, 0] :=
    ⟨by decide, by rfl, by decide⟩
  rw [setHeightmap_of_strands hstrands, heightmapLongs?, heightmapLongs?,
    heightmap?_putHeightmap hstrands.known, if_pos rfl, hstrands.absent]
  exact Option.some_ne_none _

end Chunk

end VoxelChunk
