import VoxelChunk.Proofs.Chunk.Elsewhere
import VoxelChunk.Proofs.Chunk.Lending
import VoxelChunk.Proofs.Section.Received

/-!
# Settling a chunk

Settling a chunk empties the queue of one section after another while blocks are written. Where
blocks react as they do unless told otherwise, a write neither looks at what else is queued nor at
the entities of the chunk to tell what is stored, so the blocks become what they become when the
queued blocks are settled one after another.

## Main definitions

* `Chunk.queuedBlocks` — the queued blocks, in the order in which they are settled.
* `Site.settleBlocks` — blocks settled, one after another.
* `Site.terrain` — what block entities never change of a chunk.
* `Site.SameBlocks` — two chunks in one place with the same blocks.
* `Chunk.Settled` — nothing of a chunk waits to be settled.
* `Config.FittingSections` — the states of all blocks fit.

## Main results

* `Site.terrain_setBlock` — what a write stores is stored whatever becomes of entities.
* `Site.sameBlocks_settleAll`, `Site.settled_settleAll` — what settling a chunk comes to.
* `Site.settleAll_of_settled` — a chunk that is settled stays as it is.
* `Site.unchanged_settleBlocks` — blocks that are not settled stay as they are.
-/

namespace VoxelChunk

variable {α τ : Type}

/-- The queued blocks of a chunk: sections from the lowest up, and in each the blocks in the order of
its queue. -/
def Chunk.queuedBlocks (c : Chunk α) (cfg : Config α τ) : List BlockPos :=
  (List.range c.unsettled.size).flatMap fun index =>
    (c.unsettled.getD index []).map fun packed =>
      unpackLocal packed (cfg.height.sectionCoordOf index) c.pos

/-- Within range, the queued blocks lie in the column of the chunk. -/
theorem Chunk.contains_of_mem_queuedBlocks {c : Chunk α} (hrange : c.pos.InRange)
    {cfg : Config α τ} {pos : BlockPos} (h : pos ∈ c.queuedBlocks cfg) : c.pos.contains pos := by
  obtain ⟨index, -, h⟩ := List.mem_flatMap.1 h
  obtain ⟨packed, -, rfl⟩ := List.mem_map.1 h
  exact hrange.contains_unpackLocal packed _

/-- Nothing of the chunk waits to be settled. -/
structure Chunk.Settled (c : Chunk α) : Prop where
  unsettled : ∀ index, c.unsettled.getD index [] = []
  blockTicks : c.blockTicks = .handedOver
  fluidTicks : c.fluidTicks = .handedOver
  pending : c.pending = {}

/-- What is read depends on the sections and the place of the chunk. -/
theorem Chunk.blockAt_congr {c c' : Chunk α} (hpos : c'.pos = c.pos)
    (hsections : c'.sections = c.sections) (cfg : Config α τ) : c'.blockAt cfg = c.blockAt cfg := by
  funext pos
  unfold blockAt occupiedSection? section?
  rw [hpos, hsections]

/-! ### States that fit -/

namespace Config

/-- All blocks of the sections can be read, and their states fit. -/
def FittingSections (cfg : Config α τ) (sections : Sections) : Prop :=
  ∀ (index : Nat) (s : Section), sections[index]?.join = some s → s.Fitting cfg.globalBits

variable {cfg : Config α τ} {sections : Sections}

theorem SoundStates.fittingSections (h : cfg.SoundStates sections) : cfg.FittingSections sections :=
  fun index s hs => (h.sound index s hs).fitting

namespace FittingSections

/-- What is read of a block fits. -/
theorem fits_of_blockAt {c : Chunk α} (h : cfg.FittingSections c.sections) {pos : BlockPos}
    {state : BlockState} (hread : c.blockAt cfg pos = .ok state) : state.FitsIn cfg.globalBits := by
  rcases Chunk.eq_air_or_of_blockAt hread with rfl | ⟨index, s, hs, hget⟩
  · exact BlockState.air_fitsIn _
  · have hfitting := h index s hs
    rw [hfitting.get_eq] at hget
    cases hget
    exact hfitting.fits _ (hfitting.cellIndex_lt pos)

/-- A write of a state that fits leaves the states of other blocks as they are. -/
theorem set (h : cfg.FittingSections sections) {pos : BlockPos} {index : Nat}
    (hi : cfg.height.sectionIndex? pos.y = some index) {state : BlockState}
    (hs : state.FitsIn cfg.globalBits) :
    let after := sections.setIfInBounds index (some
      ((sections[index]?.join.getD (.empty cfg.globalBits)).set cfg.facts pos state).2)
    cfg.FittingSections after ∧ ∀ q : BlockPos, ¬q.SamePlace pos →
      columnState after cfg.height q.x q.y q.z = columnState sections cfg.height q.x q.y q.z := by
  intro after
  have hbefore : (sections[index]?.join.getD (.empty cfg.globalBits)).Fitting cfg.globalBits := by
    cases hjoin : sections[index]?.join with
    | none => exact (Section.soundStates_empty cfg.globalBits_le).fitting
    | some s => exact h index s hjoin
  obtain ⟨hafter, hstates⟩ := hbefore.set cfg.globalBits_le hs cfg.facts pos
  by_cases hlt : index < sections.size
  · have hreplaced := replaced_setIfInBounds hlt hi hstates
    refine ⟨fun j s hj => ?_, fun q hq => (hreplaced q.x q.y q.z).trans (if_neg hq)⟩
    rw [join_setIfInBounds hlt] at hj
    split at hj
    · cases hj
      exact hafter
    · exact h j s hj
  · have hsame : after = sections := Array.setIfInBounds_eq_of_size_le (Nat.not_lt.1 hlt)
    rw [hsame]
    exact ⟨h, fun _ _ => rfl⟩

end FittingSections

end Config

/-! ### Empty queues -/

theorem getD_setIfInBounds_nil (queues : Array (List UInt16)) (i j : Nat) :
    (queues.setIfInBounds i []).getD j [] = if j = i then [] else queues.getD j [] := by
  rw [Array.getD_eq_getD_getElem?, Array.getD_eq_getD_getElem?, Array.getElem?_setIfInBounds]
  by_cases h : j = i
  · rw [if_pos h, if_pos h.symm]
    split <;> rfl
  · rw [if_neg h, if_neg (Ne.symm h)]

/-- Emptying a queue changes nothing if all are empty. -/
theorem setIfInBounds_nil {queues : Array (List UInt16)} (h : ∀ j, queues.getD j [] = []) (i : Nat) :
    queues.setIfInBounds i [] = queues := by
  apply Array.ext_getElem?
  intro j
  rw [Array.getElem?_setIfInBounds]
  split
  · next hij =>
    subst hij
    split
    · next hi =>
      have hnil := h i
      rw [Array.getD_eq_getD_getElem?, Array.getElem?_eq_getElem hi, Option.getD_some] at hnil
      rw [Array.getElem?_eq_getElem hi, hnil]
    · next hi => rw [Array.getElem?_eq_none (Nat.le_of_not_lt hi)]
  · rfl

/-! ### Ticks that are handed over -/

namespace TickSlot

variable {κ : Type} [DecidableEq κ]

/-- Ticks that have been handed over stay so. -/
theorem promote_of_handedOver {slot : TickSlot κ} (h : slot = .handedOver) (world : WorldSchedule κ)
    (now : Nat) : slot.promote world now = (false, slot, world) := by
  rw [h]
  rfl

theorem snd_promote (slot : TickSlot κ) (world : WorldSchedule κ) (now : Nat) :
    (slot.promote world now).2.1 = .handedOver := by
  cases slot <;> rfl

end TickSlot

namespace Site

/-- Settle blocks, one after another. -/
def settleBlocks (cfg : Config α τ) (view : BlockPos → Except Fault BlockState) (s : Site α τ)
    (positions : List BlockPos) : Site α τ :=
  positions.foldl (fun s pos => s.settleBlock cfg view pos) s

theorem settleBlocks_append (cfg : Config α τ) (view : BlockPos → Except Fault BlockState)
    (s : Site α τ) (first rest : List BlockPos) : s.settleBlocks cfg view (first ++ rest) =
      (s.settleBlocks cfg view first).settleBlocks cfg view rest :=
  List.foldl_append

/-- What block entities never change of a chunk: its blocks, its place, what is queued, and its
ticks. -/
def terrain (s : Site α τ) : (Sections × Array (Option Heightmap)) × ChunkPos × Array (List UInt16) ×
    TickSlot BlockId × TickSlot FluidId :=
  (s.blocks, s.chunk.pos, s.chunk.unsettled, s.chunk.blockTicks, s.chunk.fluidTicks)

variable {cfg : Config α τ} {s t : Site α τ}

theorem blocks_of_terrain (h : t.terrain = s.terrain) : t.blocks = s.blocks :=
  congrArg Prod.fst h

theorem pos_of_terrain (h : t.terrain = s.terrain) : t.chunk.pos = s.chunk.pos :=
  congrArg (fun terrain => terrain.2.1) h

theorem unsettled_of_terrain (h : t.terrain = s.terrain) : t.chunk.unsettled = s.chunk.unsettled :=
  congrArg (fun terrain => terrain.2.2.1) h

/-! ### Block entities leave the terrain alone -/

variable (s) (pos : BlockPos)

@[simp] theorem terrain_removeTicker : (s.removeTicker pos).terrain = s.terrain := by
  obtain ⟨_, _, heq⟩ := removeTicker_eq s pos
  rw [heq]
  rfl

@[simp] theorem terrain_updateTicker : (s.updateTicker cfg pos).terrain = s.terrain := by
  obtain ⟨_, _, heq⟩ := updateTicker_eq s cfg pos
  rw [heq]
  rfl

@[simp] theorem terrain_updateListener : (s.updateListener cfg pos).terrain = s.terrain := by
  obtain ⟨_, heq⟩ := updateListener_eq s cfg pos
  rw [heq]
  rfl

theorem terrain_modifyLent (f : LentEntity → LentEntity) :
    ({ s with chunk := s.chunk.modifyLent pos f } : Site α τ).terrain = s.terrain := by
  unfold Chunk.modifyLent
  split <;> rfl

@[simp] theorem terrain_addEntity (e : BlockEntity α) :
    (s.addEntity cfg e).terrain = s.terrain := by
  have hinstalled : ((s.discardLent e.pos).withEntity e).terrain = s.terrain :=
    terrain_modifyLent s e.pos _
  rw [addEntity_eq_ite]
  split
  · rw [terrain_updateTicker, terrain_updateListener, hinstalled]
  · exact hinstalled

@[simp] theorem terrain_removeEntity : (s.removeEntity pos).2.terrain = s.terrain := by
  have htaken : (s.takeEntity pos).2.terrain = s.terrain := by
    unfold takeEntity
    split
    · rfl
    · split
      · exact terrain_modifyLent s pos _
      · rfl
  unfold removeEntity
  rw [terrain_removeTicker]
  split
  · exact htaken
  · rfl

variable {s pos}

theorem EntityStep.terrain {P Q : BlockPos → Prop} (h : EntityStep cfg P Q s t) :
    t.terrain = s.terrain := by
  cases h with
  | aside pending notices _ => rfl
  | add e _ => exact terrain_addEntity s e
  | remove pos _ => exact terrain_removeEntity s pos
  | evict pos _ =>
    obtain ⟨_, _, _, _, heq⟩ := evictRemoved_eq s pos
    rw [heq]
    rfl
  | tellLent pos state _ => exact (terrain_updateTicker _ pos).trans (terrain_modifyLent s pos _)
  | tell pos state _ => exact terrain_updateTicker _ pos

theorem EntitySteps.terrain {P Q : BlockPos → Prop} (h : EntitySteps cfg P Q s t) :
    t.terrain = s.terrain := by
  induction h with
  | refl => rfl
  | tail _ hstep ih => exact hstep.terrain.trans ih

theorem terrain_getEntity (s : Site α τ) (pos : BlockPos) (mode : CreationMode) :
    (s.getEntity cfg pos mode).2.terrain = s.terrain :=
  EntitySteps.terrain (steps_getEntity (cfg.makes_true fun _ => True) s trivial mode)

theorem terrain_attachEntity (s : Site α τ) (pos : BlockPos) (state : BlockState) :
    (s.attachEntity cfg pos state).terrain = s.terrain :=
  EntitySteps.terrain (steps_attachEntity (cfg.makes_true fun _ => True) s trivial state)

/-! ### Writes -/

/-- The chunk with a state stored for a block, if the block is within the height limit. -/
def stored (s : Site α τ) (cfg : Config α τ) (pos : BlockPos) (state : BlockState) : Site α τ :=
  match cfg.height.sectionIndex? pos.y with
  | none => s
  | some index => (s.storeBlock cfg index pos state).2

/-- **What a write stores is stored whatever becomes of entities.** -/
theorem terrain_setBlock (hdefault : cfg.DefaultReactions) (s : Site α τ) (pos : BlockPos)
    (state : BlockState) (flags : SetFlags) :
    (s.setBlock cfg pos state flags).2.terrain = (s.stored cfg pos state).terrain := by
  show (s.writeWith (nestedWriter cfg cfg.nesting) cfg pos state flags).2.terrain = _
  unfold writeWith stored
  cases cfg.height.sectionIndex? pos.y with
  | none => rfl
  | some index =>
    simp only
    generalize s.storeBlock cfg index pos state = out
    obtain ⟨outcome, t⟩ := out
    cases outcome with
    | none => rfl
    | some old =>
      have hreplaced : (t.replaceBlock (nestedWriter cfg cfg.nesting) cfg pos old state
          flags.moved).terrain = t.terrain := by
        rw [replaceBlock_default hdefault]
        split
        · exact terrain_removeEntity t pos
        · rfl
      simp only
      split
      · exact hreplaced
      · rw [hdefault.onAdded]
        simp only [Reaction.run, ite_self]
        exact (terrain_attachEntity _ pos state).trans hreplaced

/-- Storing a state changes blocks only. -/
theorem terrain_stored (s : Site α τ) (cfg : Config α τ) (pos : BlockPos) (state : BlockState) :
    (s.stored cfg pos state).terrain.2 = s.terrain.2 := by
  unfold stored
  split
  · rfl
  · next index _ =>
    obtain ⟨_, _, _, _, heq⟩ := storeBlock_frame s cfg index pos state
    rw [heq]
    rfl

/-- Which blocks and heightmaps come of storing a state depends on those that were there. -/
theorem blocks_storeBlock_congr (h : t.blocks = s.blocks) (cfg : Config α τ) (index : Nat)
    (pos : BlockPos) (state : BlockState) :
    (t.storeBlock cfg index pos state).2.blocks = (s.storeBlock cfg index pos state).2.blocks := by
  obtain ⟨hsections, hheightmaps⟩ := Prod.mk.inj h
  unfold storeBlock Chunk.section?
  simp only [hsections]
  split
  · exact h
  · generalize (s.chunk.sections[index]?.join.getD (.empty cfg.globalBits)).set cfg.facts pos state =
      written
    obtain ⟨outcome, after⟩ := written
    have hput : ∀ u : Site α τ, u.chunk.heightmaps = s.chunk.heightmaps →
        (Site.trackHeightmaps ({ u with chunk := { u.chunk with
          sections := s.chunk.sections.setIfInBounds index (some after) } }) cfg pos state).blocks =
        (s.chunk.sections.setIfInBounds index (some after), toldHeightmaps cfg
          (s.chunk.sections.setIfInBounds index (some after)) pos state s.chunk.heightmaps) := by
      intro u hu
      obtain ⟨notices, htrack⟩ := trackHeightmaps_eq ({ u with chunk := { u.chunk with
        sections := s.chunk.sections.setIfInBounds index (some after) } } : Site α τ) cfg pos state
      rw [htrack, ← hu]
      rfl
    cases outcome with
    | error cause => exact Prod.ext rfl hheightmaps
    | ok previous =>
      simp only
      split
      · exact Prod.ext rfl hheightmaps
      · have hboth := (hput t hheightmaps).trans (hput s rfl).symm
        split
        · exact hboth
        · exact hboth

theorem blocks_stored_congr (h : t.blocks = s.blocks) (cfg : Config α τ) (pos : BlockPos)
    (state : BlockState) : (t.stored cfg pos state).blocks = (s.stored cfg pos state).blocks := by
  unfold stored
  split
  · exact h
  · exact blocks_storeBlock_congr h ..

/-! ### Blocks that settle -/

/-- Two chunks are in one place and have the same blocks. -/
structure SameBlocks (s t : Site α τ) : Prop where
  pos : t.chunk.pos = s.chunk.pos
  blocks : t.blocks = s.blocks

theorem SameBlocks.of_terrain (h : t.terrain = s.terrain) : s.SameBlocks t :=
  ⟨pos_of_terrain h, blocks_of_terrain h⟩

theorem SameBlocks.trans {u : Site α τ} (h : s.SameBlocks t) (h' : t.SameBlocks u) :
    s.SameBlocks u :=
  ⟨h'.pos.trans h.pos, h'.blocks.trans h.blocks⟩

theorem SameBlocks.sections_eq (h : s.SameBlocks t) : t.chunk.sections = s.chunk.sections :=
  congrArg Prod.fst h.blocks

theorem SameBlocks.blockAt_eq (h : s.SameBlocks t) (cfg : Config α τ) :
    t.chunk.blockAt cfg = s.chunk.blockAt cfg :=
  Chunk.blockAt_congr h.pos h.sections_eq cfg

theorem SameBlocks.viewThrough_eq (h : s.SameBlocks t) (cfg : Config α τ)
    (view : BlockPos → Except Fault BlockState) :
    t.chunk.viewThrough cfg view = s.chunk.viewThrough cfg view := by
  funext pos
  unfold Chunk.viewThrough
  rw [h.pos, h.blockAt_eq]

section Settle

variable (hdefault : cfg.DefaultReactions) (view : BlockPos → Except Fault BlockState)
include hdefault

/-- A block that settles changes blocks only. -/
theorem terrain_settleBlock (s : Site α τ) (pos : BlockPos) :
    (s.settleBlock cfg view pos).terrain.2 = s.terrain.2 := by
  unfold settleBlock
  split
  · rw [terrain_setBlock hdefault]
    exact terrain_stored ..
  · rfl

/-- In chunks with the same blocks a block settles in the same way. -/
theorem SameBlocks.settleBlock (h : s.SameBlocks t) (pos : BlockPos) :
    (s.settleBlock cfg view pos).SameBlocks (t.settleBlock cfg view pos) where
  pos := by
    have hs := congrArg Prod.fst (terrain_settleBlock hdefault view s pos)
    have ht := congrArg Prod.fst (terrain_settleBlock hdefault view t pos)
    exact ht.trans (h.pos.trans hs.symm)
  blocks := by
    unfold Site.settleBlock
    rw [h.blockAt_eq, h.viewThrough_eq]
    split
    · rw [blocks_of_terrain (terrain_setBlock hdefault ..),
        blocks_of_terrain (terrain_setBlock hdefault ..)]
      exact blocks_stored_congr h.blocks ..
    · exact h.blocks

theorem terrain_settleBlocks (s : Site α τ) (positions : List BlockPos) :
    (s.settleBlocks cfg view positions).terrain.2 = s.terrain.2 := by
  induction positions generalizing s with
  | nil => rfl
  | cons pos positions ih => exact (ih _).trans (terrain_settleBlock hdefault view s pos)

theorem SameBlocks.settleBlocks (h : s.SameBlocks t) (positions : List BlockPos) :
    (s.settleBlocks cfg view positions).SameBlocks (t.settleBlocks cfg view positions) := by
  induction positions generalizing s t with
  | nil => exact h
  | cons pos positions ih => exact ih (h.settleBlock hdefault view pos)

/-! ### Queues -/

/-- The queue of a section is emptied, and its blocks are settled one after another. -/
theorem settleSection_eq (s : Site α τ) (index : Nat) : s.settleSection cfg view index =
    Site.settleBlocks cfg view
      { s with chunk := { s.chunk with unsettled := s.chunk.unsettled.setIfInBounds index [] } }
      ((s.chunk.unsettled.getD index []).map fun packed =>
        unpackLocal packed (cfg.height.sectionCoordOf index) s.chunk.pos) := by
  have hqueue : ∀ (queue : List UInt16) {t : Site α τ}, t.chunk.pos = s.chunk.pos →
      queue.foldl (fun t packed => t.settleBlock cfg view
        (unpackLocal packed (cfg.height.sectionCoordOf index) t.chunk.pos)) t =
      t.settleBlocks cfg view (queue.map fun packed =>
        unpackLocal packed (cfg.height.sectionCoordOf index) s.chunk.pos) := by
    intro queue
    induction queue with
    | nil => exact fun _ => rfl
    | cons packed queue ih =>
      intro t ht
      rw [List.foldl_cons, List.map_cons, ih]
      · rw [ht]
        rfl
      · exact (congrArg Prod.fst (terrain_settleBlock hdefault view t _)).trans ht
  exact hqueue _ rfl

/-- What becomes of a chunk when the queues of its lowest sections are emptied. -/
structure Emptied (cfg : Config α τ) (view : BlockPos → Except Fault BlockState) (s : Site α τ)
    (n : Nat) (t : Site α τ) : Prop where
  blocks : (s.settleBlocks cfg view ((List.range n).flatMap fun index =>
    (s.chunk.unsettled.getD index []).map fun packed =>
      unpackLocal packed (cfg.height.sectionCoordOf index) s.chunk.pos)).SameBlocks t
  size : t.chunk.unsettled.size = s.chunk.unsettled.size
  unsettled : ∀ index, t.chunk.unsettled.getD index [] =
    if index < n then [] else s.chunk.unsettled.getD index []

theorem emptied_settleSections (s : Site α τ) (n : Nat) : s.Emptied cfg view n
    ((List.range n).foldl (fun s index => s.settleSection cfg view index) s) := by
  induction n with
  | zero => exact ⟨⟨rfl, rfl⟩, rfl, fun index => (if_neg (Nat.not_lt_zero index)).symm⟩
  | succ n ih =>
    rw [List.range_succ, List.foldl_append, List.foldl_cons, List.foldl_nil]
    generalize (List.range n).foldl (fun s index => s.settleSection cfg view index) s = t at ih ⊢
    have hpos : t.chunk.pos = s.chunk.pos :=
      ih.blocks.pos.trans (congrArg Prod.fst (terrain_settleBlocks hdefault view s _))
    have hqueue := (ih.unsettled n).trans (if_neg (Nat.lt_irrefl n))
    have hleft : (t.settleSection cfg view n).chunk.unsettled =
        t.chunk.unsettled.setIfInBounds n [] := by
      rw [settleSection_eq hdefault]
      exact congrArg (fun terrain => terrain.2.1) (terrain_settleBlocks hdefault view _ _)
    refine ⟨?_, ?_, fun index => ?_⟩
    · rw [settleSection_eq hdefault, hqueue, hpos, List.range_succ, List.flatMap_append,
        List.flatMap_singleton, settleBlocks_append]
      refine SameBlocks.settleBlocks hdefault view ?_ _
      exact ih.blocks.trans ⟨rfl, rfl⟩
    · rw [hleft, Array.size_setIfInBounds, ih.size]
    · rw [hleft, getD_setIfInBounds_nil, ih.unsettled]
      split
      · next heq => rw [if_pos (by omega)]
      · next hne =>
        by_cases hlt : index < n
        · rw [if_pos hlt, if_pos (by omega)]
        · rw [if_neg hlt, if_neg (by omega)]

end Settle

/-! ### Ready chunks -/

theorem terrain_loadAllPending (s : Site α τ) (cfg : Config α τ) :
    (s.loadAllPending cfg).terrain = s.terrain := by
  have hloaded : ∀ (positions : List BlockPos) (t : Site α τ),
      (positions.foldl (fun t pos => (t.getEntity cfg pos .check).2) t).terrain = t.terrain := by
    intro positions
    induction positions with
    | nil => exact fun _ => rfl
    | cons pos positions ih => exact fun t => (ih _).trans (terrain_getEntity t pos .check)
  exact hloaded s.chunk.pending.keys s

/-- The queues are emptied. -/
theorem emptied_settleAll (hdefault : cfg.DefaultReactions)
    (view : BlockPos → Except Fault BlockState) (s : Site α τ) :
    s.Emptied cfg view s.chunk.unsettled.size (s.settleAll cfg view) := by
  have hsections := emptied_settleSections hdefault view s s.chunk.unsettled.size
  unfold settleAll
  generalize (List.range s.chunk.unsettled.size).foldl
    (fun s index => s.settleSection cfg view index) s = t at hsections ⊢
  have hpromoted : t.SameBlocks t.promoteTicks := ⟨rfl, rfl⟩
  have hrest := terrain_loadAllPending t.promoteTicks cfg
  have hunsettled : (t.promoteTicks.loadAllPending cfg).chunk.unsettled = t.chunk.unsettled :=
    (unsettled_of_terrain hrest).trans rfl
  refine ⟨hsections.blocks.trans (hpromoted.trans (.of_terrain hrest)), ?_, fun index => ?_⟩
  · exact (congrArg Array.size hunsettled).trans hsections.size
  · exact (congrArg (Array.getD · index []) hunsettled).trans (hsections.unsettled index)

/-- **Settling a chunk makes its blocks what they become when the queued blocks are settled one
after another.** -/
theorem sameBlocks_settleAll (hdefault : cfg.DefaultReactions)
    (view : BlockPos → Except Fault BlockState) (s : Site α τ) :
    (s.settleBlocks cfg view (s.chunk.queuedBlocks cfg)).SameBlocks (s.settleAll cfg view) :=
  (emptied_settleAll hdefault view s).blocks

/-- **Nothing of a chunk waits once it is settled.** -/
theorem settled_settleAll (hdefault : cfg.DefaultReactions)
    (view : BlockPos → Except Fault BlockState) (s : Site α τ) :
    (s.settleAll cfg view).chunk.Settled := by
  have hemptied := emptied_settleAll hdefault view s
  have hpromoted : ∀ t : Site α τ,
      (t.promoteTicks.loadAllPending cfg).chunk.blockTicks = .handedOver ∧
        (t.promoteTicks.loadAllPending cfg).chunk.fluidTicks = .handedOver := by
    intro t
    have hrest := congrArg (fun terrain => terrain.2.2.2) (terrain_loadAllPending t.promoteTicks cfg)
    obtain ⟨hblock, hfluid⟩ := Prod.mk.inj hrest
    exact ⟨hblock.trans (t.chunk.blockTicks.snd_promote ..),
      hfluid.trans (t.chunk.fluidTicks.snd_promote ..)⟩
  refine ⟨fun index => ?_, (hpromoted _).1, (hpromoted _).2, rfl⟩
  rw [hemptied.unsettled]
  by_cases hlt : index < s.chunk.unsettled.size
  · exact if_pos hlt
  · rw [if_neg hlt, Array.getD_eq_getD_getElem?, Array.getElem?_eq_none (Nat.le_of_not_lt hlt),
      Option.getD_none]

/-- **A chunk that is settled stays as it is** when it is settled again. -/
theorem settleAll_of_settled (h : s.chunk.Settled) (cfg : Config α τ)
    (view : BlockPos → Except Fault BlockState) : s.settleAll cfg view = s := by
  have hsection : ∀ index, s.settleSection cfg view index = s := by
    intro index
    unfold settleSection
    rw [h.unsettled, setIfInBounds_nil h.unsettled]
    rfl
  have hsections : ∀ indices : List Nat,
      indices.foldl (fun s index => s.settleSection cfg view index) s = s := by
    intro indices
    induction indices with
    | nil => rfl
    | cons index indices ih => rw [List.foldl_cons, hsection, ih]
  have hpromoted : s.promoteTicks = s := by
    unfold promoteTicks
    rw [TickSlot.promote_of_handedOver h.blockTicks, TickSlot.promote_of_handedOver h.fluidTicks]
  have hloaded : s.loadAllPending cfg = s := by
    have hkeys : s.chunk.pending.keys = [] := by
      rw [h.pending]
      rfl
    unfold loadAllPending
    rw [hkeys, List.foldl_nil, ← h.pending]
  unfold settleAll
  rw [hsections]
  show s.promoteTicks.loadAllPending cfg = s
  rw [hpromoted, hloaded]

/-! ### Blocks that do not settle -/

/-- A state that fits, stored for a block, leaves the states of the others as they are. -/
theorem unchanged_stored (h : cfg.FittingSections s.chunk.sections) {state : BlockState}
    (hs : state.FitsIn cfg.globalBits) (pos : BlockPos) :
    cfg.FittingSections (s.stored cfg pos state).chunk.sections ∧ ∀ q, ¬q.SamePlace pos →
      (s.stored cfg pos state).stateOf cfg q = s.stateOf cfg q := by
  unfold stored
  split
  · exact ⟨h, fun _ _ => rfl⟩
  · next index hindex =>
    have hput : cfg.FittingSections (s.putWritten cfg index pos state) ∧ ∀ q, ¬q.SamePlace pos →
        columnState (s.putWritten cfg index pos state) cfg.height q.x q.y q.z = s.stateOf cfg q :=
      h.set hindex hs
    have hstoring := storing s cfg index pos state
    generalize s.storeBlock cfg index pos state = out at hstoring ⊢
    cases hstoring with
    | skipped => exact ⟨h, fun _ _ => rfl⟩
    | failed => exact hput
    | same => exact hput
    | changed => exact hput

section Unchanged

variable (hdefault : cfg.DefaultReactions)
  (hfits : ∀ state face neighbor, state.FitsIn cfg.globalBits →
    (cfg.facts.neighborUpdate state face neighbor).FitsIn cfg.globalBits)
include hdefault hfits

theorem unchanged_settleBlock (h : cfg.FittingSections s.chunk.sections)
    (view : BlockPos → Except Fault BlockState) (pos : BlockPos) :
    cfg.FittingSections (s.settleBlock cfg view pos).chunk.sections ∧ ∀ q, ¬q.SamePlace pos →
      (s.settleBlock cfg view pos).stateOf cfg q = s.stateOf cfg q := by
  unfold settleBlock
  generalize hsettle : s.chunk.blockAt cfg pos >>=
    cfg.facts.settle (s.chunk.viewThrough cfg view) pos = outcome
  cases outcome with
  | error fault => exact ⟨h, fun _ _ => rfl⟩
  | ok settled =>
    cases hread : s.chunk.blockAt cfg pos with
    | error fault =>
      rw [hread] at hsettle
      cases hsettle
    | ok state =>
      rw [hread] at hsettle
      have hstored := unchanged_stored h
        (BlockFacts.settle_fits hfits (h.fits_of_blockAt hread) hsettle) pos
      have hsections : (s.setBlock cfg pos settled
          { noRedraw := true, force := true }).2.chunk.sections =
            (s.stored cfg pos settled).chunk.sections :=
        congrArg Prod.fst (blocks_of_terrain (terrain_setBlock hdefault ..))
      unfold stateOf at hstored ⊢
      rw [hsections]
      exact hstored

/-- **Blocks that are not settled stay as they are.** -/
theorem unchanged_settleBlocks (h : cfg.FittingSections s.chunk.sections)
    (view : BlockPos → Except Fault BlockState) (positions : List BlockPos) {q : BlockPos}
    (hq : ∀ pos ∈ positions, ¬q.SamePlace pos) :
    (s.settleBlocks cfg view positions).stateOf cfg q = s.stateOf cfg q := by
  induction positions generalizing s with
  | nil => rfl
  | cons pos positions ih =>
    obtain ⟨h', hsame⟩ := unchanged_settleBlock hdefault hfits h view pos
    exact (ih h' fun p hp => hq p (List.mem_cons_of_mem pos hp)).trans
      (hsame q (hq pos List.mem_cons_self))

end Unchanged

end Site

end VoxelChunk
