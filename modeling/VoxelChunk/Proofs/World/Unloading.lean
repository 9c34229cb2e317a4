import VoxelChunk.Proofs.Chunk.Owners
import VoxelChunk.Proofs.Chunk.Saved
import VoxelChunk.World.Basic

/-!
# What can be saved of a chunk that has left its world

The entities of a chunk stay with it when it leaves its world, but they are marked as removed, and
what is to be saved for a position passes over those. So only the data that nobody has used yet can
be saved afterwards.

## Main results

* `World.saveEntity_removeChunk` — **what is saved for a position once the chunk has left.**
-/

namespace VoxelChunk

variable {α τ σ : Type}

namespace World

variable {w : World α τ σ} {column : ChunkPos} {c : Chunk α}

/-- What becomes of entities and saved data when a chunk leaves its world. -/
theorem removeChunk_eq (hc : w.chunk? column = some c) : ∃ c', (w.removeChunk column).1 = some c' ∧
    c'.entities = c.entities.mapValues (fun _ e => e.discard) ∧ c'.pending = c.pending := by
  have hsite : w.site? column = some ⟨c, w.level⟩ := by
    unfold site?
    rw [hc]
    rfl
  obtain ⟨dispatchers, heq⟩ := Site.discardEntities_eq (Site.mk c w.level)
  unfold removeChunk
  rw [hsite]
  simp only
  rw [heq]
  exact ⟨_, rfl, rfl, rfl⟩

/-- **What is saved for a position once the chunk has left** is the data that nobody has used. It is
what was saved before if no entity is installed there. An entity stays where it is installed, with
its data, but is not saved any more. -/
theorem saveEntity_removeChunk (hc : w.chunk? column = some c) (factory : EntityFactory α)
    (pos : BlockPos) : ∃ c', (w.removeChunk column).1 = some c' ∧
      c'.saveEntity factory pos =
        (c.pending.find? pos).map (Compound.insert · "keepPacked" (.byte 1)) ∧
      (∀ saved, c.saveEntity factory pos = some saved →
        (c'.saveEntity factory pos = some saved ↔ c.entityAt? pos = none)) ∧
      ∀ e, c.entityAt? pos = some e → c'.entities.find? pos = some e.discard := by
  obtain ⟨c', hremoved, hentities, hpending⟩ := removeChunk_eq hc
  have hfound : c'.entities.find? pos = (c.entities.find? pos).map BlockEntity.discard := by
    rw [hentities]
    exact Keyed.find?_mapValues ..
  have hdead : c'.entityAt? pos = none := by
    unfold Chunk.entityAt?
    rw [hfound]
    cases c.entities.find? pos <;> rfl
  have hsave : c'.saveEntity factory pos =
      (c.pending.find? pos).map (Compound.insert · "keepPacked" (.byte 1)) := by
    unfold Chunk.saveEntity
    rw [hdead, hpending]
  refine ⟨c', hremoved, hsave, fun saved hsaved => ?_, fun e he => ?_⟩
  · rw [hsave]
    cases he : c.entityAt? pos with
    | none =>
      unfold Chunk.saveEntity at hsaved
      rw [he] at hsaved
      exact ⟨fun _ => rfl, fun _ => hsaved⟩
    | some e =>
      -- the mark tells the data of an entity from data that nobody has used
      refine ⟨fun hsame => ?_, nofun⟩
      rw [Site.saveEntity_of_entity he, Option.some.injEq] at hsaved
      obtain ⟨fields, -, hfields⟩ := Option.map_eq_some_iff.1 hsame
      have hmark := congrArg (Compound.find? · "keepPacked") (hsaved.trans hfields.symm)
      unfold EntityFactory.saveInstalled at hmark
      simp only [Compound.find?_insert] at hmark
      cases hmark
  · rw [hfound, (Chunk.entityAt?_eq_some_iff.1 he).1]
    rfl

end World

/-- The chest of seven things, and one of three that nobody has asked for. -/
def twoCounts : Chunk Nat :=
  ((newCounts.edits countingChests sevenThings).edit countingChests (.addPending
    [("Count", .int 3), ("id", .string "chest"), ("x", .int 1), ("y", .int 2), ("z", .int 6)])).chunk

/-- A world with both chests. -/
def countsWorld : World Nat Unit Unit where
  level := newCounts.level
  chunks := (Keyed.empty : Keyed ChunkPos (Chunk Nat)).insert ⟨0, 0⟩ twoCounts
  owner := ()

/-- Once the chunk has left, the chest of three things is saved, and the one of seven is not. -/
theorem sevenChest_is_lost :
    countsWorld.chunk? ⟨0, 0⟩ = some twoCounts ∧
      (∃ saved, twoCounts.saveEntity countingChests.factory sevenChest.pos = some saved ∧
        ∃ c', (countsWorld.removeChunk ⟨0, 0⟩).1 = some c' ∧
          c'.saveEntity countingChests.factory sevenChest.pos ≠ some saved) ∧
      ∃ saved, twoCounts.saveEntity countingChests.factory ⟨1, 2, 6⟩ = some saved ∧
        ∃ c', (countsWorld.removeChunk ⟨0, 0⟩).1 = some c' ∧
          c'.saveEntity countingChests.factory ⟨1, 2, 6⟩ = some saved := by
  have hc : countsWorld.chunk? ⟨0, 0⟩ = some twoCounts := rfl
  have hsaves : ∀ pos, (twoCounts.saveEntity countingChests.factory pos).isSome →
      ∃ saved, twoCounts.saveEntity countingChests.factory pos = some saved ∧
        ∃ c', (countsWorld.removeChunk ⟨0, 0⟩).1 = some c' ∧
          (c'.saveEntity countingChests.factory pos = some saved ↔ twoCounts.entityAt? pos = none) := by
    intro pos hsome
    obtain ⟨saved, hsaved⟩ := Option.isSome_iff_exists.1 hsome
    obtain ⟨c', hremoved, -, hiff, -⟩ :=
      World.saveEntity_removeChunk hc countingChests.factory pos
    exact ⟨saved, hsaved, c', hremoved, hiff saved hsaved⟩
  refine ⟨hc, ?_, ?_⟩
  · obtain ⟨saved, hsaved, c', hremoved, hiff⟩ := hsaves sevenChest.pos (by decide +kernel)
    have hthere : twoCounts.entityAt? sevenChest.pos ≠ none := by decide +kernel
    exact ⟨saved, hsaved, c', hremoved, fun hsame => hthere (hiff.1 hsame)⟩
  · obtain ⟨saved, hsaved, c', hremoved, hiff⟩ := hsaves ⟨1, 2, 6⟩ (by decide +kernel)
    exact ⟨saved, hsaved, c', hremoved, hiff.2 (by decide +kernel)⟩

end VoxelChunk
