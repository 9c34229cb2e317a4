import VoxelChunk.Chunk.Write
import VoxelChunk.Proofs.Keyed

/-!
# Block entities of a chunk

Whatever block entities do, they leave the blocks alone.

## Main definitions

* `Site.blocks`, `Site.ground` — what block entities find and never change.
-/

namespace VoxelChunk

variable {α τ : Type}

/-- The sections and the heightmaps of a chunk. -/
def Site.blocks (s : Site α τ) : Sections × Array (Option Heightmap) :=
  (s.chunk.sections, s.chunk.heightmaps)

/-- The blocks of a chunk, whether it is in its world, whether that is a client's, and what is still
to be done when it first comes there: what block entities find and never change. -/
def Site.ground (s : Site α τ) : (Sections × Array (Option Heightmap)) × Bool × Bool ×
    Option (Column α → Column α) :=
  (s.blocks, s.chunk.loaded, s.level.isClient, s.chunk.onLoad)

namespace Site

theorem blocks_eq {s s' : Site α τ} (h : s'.ground = s.ground) : s'.blocks = s.blocks :=
  congrArg Prod.fst h

theorem isClient_eq {s s' : Site α τ} (h : s'.ground = s.ground) :
    s'.level.isClient = s.level.isClient :=
  congrArg (·.2.2.1) h

theorem canTick_eq {s s' : Site α τ} (h : s'.ground = s.ground) : s'.canTick = s.canTick := by
  have hloaded : s'.chunk.loaded = s.chunk.loaded := congrArg (·.2.1) h
  rw [canTick, canTick, hloaded, isClient_eq h]

variable {cfg : Config α τ} (s : Site α τ) (pos : BlockPos)

/-! ### Block entities leave the blocks alone -/

@[simp] theorem ground_push (event : Event) : (s.push event).ground = s.ground := rfl

@[simp] theorem ground_note (notice : Notice) : (s.note notice).ground = s.ground := rfl

@[simp] theorem ground_removeTicker : (s.removeTicker pos).ground = s.ground := by
  unfold removeTicker
  split <;> rfl

@[simp] theorem ground_registerTicker (ticker : ActiveTicker τ) :
    (s.registerTicker pos ticker).ground = s.ground := by
  unfold registerTicker
  simp only
  split <;> rfl

@[simp] theorem ground_updateTicker : (s.updateTicker cfg pos).ground = s.ground := by
  unfold updateTicker
  split
  · exact ground_removeTicker s pos
  · split
    · exact ground_removeTicker s pos
    · exact ground_registerTicker s pos _

@[simp] theorem ground_updateListener : (s.updateListener cfg pos).ground = s.ground := by
  unfold updateListener
  split
  · rfl
  · split <;> rfl

theorem ground_modifyLent (f : LentEntity → LentEntity) :
    ({ s with chunk := s.chunk.modifyLent pos f } : Site α τ).ground = s.ground := by
  unfold Chunk.modifyLent
  split <;> rfl

@[simp] theorem ground_addEntity (entity : BlockEntity α) :
    (s.addEntity cfg entity).ground = s.ground := by
  unfold addEntity
  simp only
  split
  · rw [ground_updateTicker, ground_updateListener, ground_push]
    exact ground_modifyLent s entity.pos _
  · exact ground_modifyLent s entity.pos _

@[simp] theorem ground_takeEntity : (s.takeEntity pos).2.ground = s.ground := by
  unfold takeEntity
  split
  · rfl
  · split
    · exact ground_modifyLent s pos _
    · rfl

@[simp] theorem ground_removeEntity : (s.removeEntity pos).2.ground = s.ground := by
  unfold removeEntity
  simp only [ground_removeTicker]
  split
  · exact ground_takeEntity s pos
  · rfl

@[simp] theorem ground_blockAt : (s.blockAt cfg pos).2.ground = s.ground := by
  unfold blockAt
  cases s.chunk.blockAt cfg pos <;> rfl

@[simp] theorem ground_evictRemoved : (s.evictRemoved pos).ground = s.ground := by
  unfold evictRemoved
  split
  · rfl
  · split
    · exact ground_removeTicker _ pos
    · rfl

theorem ground_install (made : Option (BlockEntity α) × Site α τ) (state : BlockState) :
    (match made.1 with
      | some entity => (true, made.2.addEntity cfg entity)
      | none => (false, made.2.note (.notLoaded pos state))).2.ground = made.2.ground := by
  split
  · exact ground_addEntity ..
  · rfl

@[simp] theorem ground_loadEntity (fields : Compound) :
    (s.loadEntity cfg pos fields).2.ground = s.ground := by
  unfold loadEntity
  generalize hread : s.blockAt cfg pos = read
  obtain ⟨state, s'⟩ := read
  have hs' : s'.ground = s.ground :=
    (congrArg (fun read => read.2.ground) hread).symm.trans (ground_blockAt s pos)
  simp only
  refine (ground_install pos _ state).trans ?_
  repeat' split
  all_goals exact hs'

@[simp] theorem ground_loadPending : (s.loadPending cfg pos).2.ground = s.ground := by
  unfold loadPending
  split
  · rfl
  · exact ground_loadEntity _ pos _

@[simp] theorem ground_createEntity : (s.createEntity cfg pos).2.ground = s.ground := by
  unfold createEntity
  simp only
  split
  · split
    · exact ground_blockAt s pos
    · rw [ground_addEntity, ground_blockAt]
  · exact ground_blockAt s pos

@[simp] theorem ground_getEntity (mode : CreationMode) :
    (s.getEntity cfg pos mode).2.ground = s.ground := by
  unfold getEntity
  split
  · rfl
  · split
    · rfl
    · simp only
      split
      · rw [ground_loadPending, ground_evictRemoved]
      · split
        · rw [ground_createEntity, ground_loadPending, ground_evictRemoved]
        · rw [ground_loadPending, ground_evictRemoved]

@[simp] theorem ground_updateEntityState (state : BlockState) :
    (s.updateEntityState cfg pos state).2.ground = s.ground := by
  unfold updateEntityState
  split
  · rw [ground_updateTicker]
    exact ground_modifyLent s pos _
  · have hget : (s.getEntity cfg pos .check).2.ground = s.ground := ground_getEntity s pos .check
    split
    · next heq => rw [← hget, heq]
    · next heq =>
      rw [ground_updateTicker, ← hget, heq]
      rfl

@[simp] theorem ground_attachEntity (state : BlockState) :
    (s.attachEntity cfg pos state).ground = s.ground := by
  unfold attachEntity
  split
  · simp only
    split
    · exact ground_updateEntityState s pos state
    · split
      · rw [ground_addEntity, ground_updateEntityState]
      · exact ground_updateEntityState s pos state
  · rfl

/-! ### Installed entities -/

variable {s : Site α τ} {pos : BlockPos}

@[simp] theorem entities_removeTicker :
    (s.removeTicker pos).chunk.entities = s.chunk.entities := by
  unfold removeTicker
  split <;> rfl

/-- What is installed once an entity has been taken out. -/
theorem find?_takeEntity (q : BlockPos) :
    (s.takeEntity pos).2.chunk.entities.find? q =
      if q = pos then none else s.chunk.entities.find? q := by
  unfold takeEntity
  split
  · exact Keyed.find?_swapErase ..
  · next habsent =>
    have hnone : s.chunk.entities.find? pos = none := by
      simpa [Keyed.contains] using habsent
    have hsame : ∀ c : Chunk α, c.entities = s.chunk.entities → c.entities.find? q =
        if q = pos then none else s.chunk.entities.find? q := by
      intro c hc
      rw [hc]
      split
      · next heq => rw [heq, hnone]
      · rfl
    split
    · apply hsame
      unfold Chunk.modifyLent
      split <;> rfl
    · exact hsame s.chunk rfl

/-- What is installed once an entity has been removed from a chunk that can tick it. -/
theorem find?_removeEntity (h : s.canTick) (q : BlockPos) :
    (s.removeEntity pos).2.chunk.entities.find? q =
      if q = pos then none else s.chunk.entities.find? q := by
  unfold removeEntity
  rw [if_pos h]
  simp only [entities_removeTicker]
  exact find?_takeEntity q

end Site

end VoxelChunk
