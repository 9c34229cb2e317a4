import VoxelChunk.Proofs.Chunk.Upkeep
import VoxelChunk.Proofs.Chunk.Write

/-!
# Block entities mirror the blocks

Where blocks react as they do unless told otherwise, the stored blocks alone decide which block
entities there are: after any run of writes each block has the entity that it gets by itself, with
the ticker and the listener that this entity asks for, and nothing is left of entities that were
there before.

## Main definitions

* `Config.ownType?`, `Config.OwnsByKind` — the entity that a block gets by itself.
* `Site.Mirrors` — what is kept for a position is what its block asks for.
* `Site.Renewed` — it has become so, and nothing else has changed.
* `Config.Mirrored` — the invariant of runs of writes.

## Main results

* `Site.attachEntity_mirrors` — a block that has just been written gets its entity.
* `Config.Mirrored.setBlock` — one write keeps the invariant.
* `Site.mirrors_setBlocks` — entities, tickers and listeners after a run of writes.
-/

namespace VoxelChunk

variable {α τ : Type}

namespace Config

/-- The type of the entity that a block gets by itself. -/
def ownType? (cfg : Config α τ) (pos : BlockPos) (state : BlockState) : Option EntityType :=
  if cfg.facts.hasEntity state then (cfg.registry.create pos state).map BlockEntity.type else none

/-- Whatever becomes of the entity, it has the same listener, if any, known by its position. -/
structure SteadyListener (cfg : Config α τ) (e : BlockEntity α) : Prop where
  source : ∀ l, cfg.registry.listener e = some l → l.source = e.pos
  steady : ∀ cachedState removed hasWorld serial,
    cfg.registry.listener { e with cachedState, removed, hasWorld, serial } =
      cfg.registry.listener e

/-- All states of a kind of block get the same type of entity, if any, and air gets none. -/
structure OwnsByKind (cfg : Config α τ) : Prop where
  air : ∀ state, cfg.facts.isAir state → cfg.facts.hasEntity state = false
  type : ∀ pos state state', cfg.facts.blockOf state = cfg.facts.blockOf state' →
    cfg.ownType? pos state = cfg.ownType? pos state'
  created : ∀ pos state e, cfg.facts.hasEntity state → cfg.registry.create pos state = some e →
    e.pos = pos ∧ e.cachedState = state ∧ cfg.SteadyListener e

variable {cfg : Config α τ}

theorem ownType?_eq_some_iff {pos : BlockPos} {state : BlockState} {type : EntityType} :
    cfg.ownType? pos state = some type ↔
      cfg.facts.hasEntity state ∧ ∃ made, cfg.registry.create pos state = some made ∧
        made.type = type := by
  unfold ownType?
  by_cases h : cfg.facts.hasEntity state <;> simp [h]

theorem isSome_ownType? {pos : BlockPos} {state : BlockState} :
    (cfg.ownType? pos state).isSome ↔
      cfg.facts.hasEntity state ∧ (cfg.registry.create pos state).isSome := by
  unfold ownType?
  by_cases h : cfg.facts.hasEntity state <;> simp [h]

theorem SteadyListener.update {e : BlockEntity α} (h : cfg.SteadyListener e)
    (cachedState : BlockState) (removed hasWorld : Bool) (serial : UInt32) :
    cfg.SteadyListener { e with cachedState, removed, hasWorld, serial } where
  source := by
    intro l hl
    rw [h.steady] at hl
    exact h.source l hl
  steady := by
    intro cachedState' removed' hasWorld' serial'
    exact (h.steady ..).trans (h.steady ..).symm

end Config

namespace Site

/-- What is kept for a position is what a block in the given state asks for. -/
inductive Mirrors (cfg : Config α τ) (s : Site α τ) (pos : BlockPos) (state : BlockState) : Prop
  | bare : cfg.ownType? pos state = none → s.upkeepAt pos = {} → Mirrors cfg s pos state
  | owner (e : BlockEntity α) : cfg.ownType? pos state = some e.type →
    e.pos = pos → e.cachedState = state → e.removed = false → cfg.SteadyListener e →
    s.upkeepAt pos = cfg.upkeepOf s.level.isClient e → Mirrors cfg s pos state

variable {cfg : Config α τ} {s s' : Site α τ} {pos : BlockPos} {state old new : BlockState}

namespace Mirrors

theorem congr (h : s.Mirrors cfg pos state) (hupkeep : s'.upkeepAt pos = s.upkeepAt pos)
    (hclient : s'.level.isClient = s.level.isClient) : s'.Mirrors cfg pos state := by
  cases h with
  | bare htype hempty => exact .bare htype (hupkeep.trans hempty)
  | owner e htype hpos hstate hr hl he =>
    exact .owner e htype hpos hstate hr hl (hupkeep.trans (hclient ▸ he))

theorem entityAt?_of_bare (hempty : s.upkeepAt pos = {}) : s.chunk.entityAt? pos = none := by
  unfold Chunk.entityAt?
  rw [show s.chunk.entities.find? pos = none from congrArg Upkeep.entity hempty]
  rfl

theorem entityAt?_of_owner {e : BlockEntity α} {client : Bool} (hr : e.removed = false)
    (he : s.upkeepAt pos = cfg.upkeepOf client e) : s.chunk.entityAt? pos = some e := by
  unfold Chunk.entityAt?
  rw [show s.chunk.entities.find? pos = some e from congrArg Upkeep.entity he, Option.filter_some,
    hr]
  rfl

/-- The entity there is, is of the type that the block gets by itself. -/
theorem type_entityAt? (h : s.Mirrors cfg pos state) :
    (s.chunk.entityAt? pos).map BlockEntity.type = cfg.ownType? pos state := by
  cases h with
  | bare htype hempty => rw [entityAt?_of_bare hempty, htype, Option.map_none]
  | owner e htype _ _ hr _ he => rw [entityAt?_of_owner hr he, htype, Option.map_some]

theorem cachedState_eq (h : s.Mirrors cfg pos state) {e : BlockEntity α}
    (he : s.chunk.entityAt? pos = some e) : e.cachedState = state := by
  cases h with
  | bare _ hempty =>
    rw [entityAt?_of_bare hempty] at he
    cases he
  | owner e' _ _ hstate hr _ he' =>
    rw [entityAt?_of_owner hr he'] at he
    cases he
    exact hstate

/-- The ticker there is, is the one that the entity and the block ask for. -/
theorem tickerAt?_eq (h : s.Mirrors cfg pos state) :
    s.tickerAt? pos = (s.chunk.entityAt? pos).bind fun e =>
      (cfg.registry.tickerFor s.level.isClient state e.type).map fun action =>
        { pos, serial := e.serial, type := e.type, action } := by
  cases h with
  | bare _ hempty =>
    rw [entityAt?_of_bare hempty]
    exact congrArg Upkeep.ticker hempty
  | owner e _ hpos hstate hr _ he =>
    rw [entityAt?_of_owner hr he, ← hstate]
    subst hpos
    exact congrArg Upkeep.ticker he

/-- The listener there is, is the one that the entity exposes. -/
theorem listenerAt?_eq (h : s.Mirrors cfg pos state) :
    s.chunk.listenerAt? pos =
      if s.level.isClient then none else (s.chunk.entityAt? pos).bind cfg.registry.listener := by
  cases h with
  | bare _ hempty =>
    rw [entityAt?_of_bare hempty, Option.bind_none, ite_self]
    exact congrArg Upkeep.listener hempty
  | owner e _ _ _ hr _ he =>
    rw [entityAt?_of_owner hr he]
    exact congrArg Upkeep.listener he

end Mirrors

/-! ### A block has been written -/

/-- An entity leaves with the last block of its kind. -/
theorem upkeepAt_replaceBlock (hdefault : cfg.DefaultReactions) (h : s.Quiet)
    (hm : s.Mirrors cfg pos old) (write : BlockWriter α τ) (new : BlockState) (moved : Bool) :
    let r := s.replaceBlock write cfg pos old new moved
    r.Quiet ∧ r.ground = s.ground ∧ (∀ q, q ≠ pos → r.upkeepAt q = s.upkeepAt q) ∧
      (r.upkeepAt pos = {} ∨
        cfg.facts.blockOf old = cfg.facts.blockOf new ∧ r.Mirrors cfg pos old) := by
  rw [replaceBlock_default hdefault]
  split
  · obtain ⟨hquiet, hupkeep⟩ := upkeepAt_removeEntity h pos
    refine ⟨hquiet, ground_removeEntity s pos, fun q hq => ?_, Or.inl ?_⟩
    · rw [hupkeep, if_neg hq]
    · rw [hupkeep, if_pos rfl]
  · next hstays =>
    refine ⟨h, rfl, fun _ _ => rfl, ?_⟩
    by_cases hkind : cfg.facts.blockOf old = cfg.facts.blockOf new
    · exact Or.inr ⟨hkind, hm⟩
    · -- the block that went had no entity
      cases hm with
      | bare _ hempty => exact Or.inl hempty
      | owner e htype =>
        obtain ⟨hold, -⟩ := Config.ownType?_eq_some_iff.1 htype
        exact absurd ⟨hold, hkind⟩ hstays

/-- What is kept for one position has become what its block asks for, and nothing else has
changed. -/
structure Renewed (cfg : Config α τ) (s : Site α τ) (pos : BlockPos) (state : BlockState)
    (s' : Site α τ) : Prop where
  quiet : s'.Quiet
  kept : ∀ q, q ≠ pos → s'.upkeepAt q = s.upkeepAt q
  mirrors : s'.Mirrors cfg pos state

section Attach

variable (h : s.Quiet)
include h

/-- Where nothing is kept, a block gets the entity that it gets by itself. -/
theorem attachEntity_of_empty (hown : cfg.OwnsByKind) (hempty : s.upkeepAt pos = {}) :
    s.Renewed cfg pos new (s.attachEntity cfg pos new) := by
  have hnone : s.chunk.entities.find? pos = none := congrArg Upkeep.entity hempty
  unfold attachEntity
  split
  · next hnew =>
    rw [updateEntityState_of_none h hnone]
    simp only [Bool.false_eq_true, if_false]
    cases hcreate : cfg.registry.create pos new with
    | none =>
      -- the block could have an entity but does not get one
      refine ⟨h, fun _ _ => rfl, .bare ?_ hempty⟩
      rw [Config.ownType?, if_pos hnew, hcreate, Option.map_none]
    | some e =>
      obtain ⟨hpos, hstate, hsteady⟩ := hown.created pos new e hnew hcreate
      have hsteady' : cfg.SteadyListener (s.installed e) := hsteady.update ..
      obtain ⟨hquiet, hupkeep⟩ := upkeepAt_addEntity h hsteady'.source
      refine ⟨hquiet, fun q hq => ?_, .owner (s.installed e) ?_ hpos hstate rfl hsteady' ?_⟩
      · rw [hupkeep, if_neg (fun heq => hq (heq.trans hpos))]
      · rw [Config.ownType?, if_pos hnew, hcreate]
        rfl
      · simp only
        rw [hupkeep, if_pos hpos.symm, isClient_eq (ground_addEntity s e)]
  · next hnew =>
    refine ⟨h, fun _ _ => rfl, .bare ?_ hempty⟩
    rw [Config.ownType?, if_neg hnew]

/-- An entity whose block takes another state of its kind is told, and stays. -/
theorem attachEntity_of_owner {e : BlockEntity α} (htype : cfg.ownType? pos new = some e.type)
    (hpos : e.pos = pos) (hr : e.removed = false) (hsteady : cfg.SteadyListener e)
    (he : s.upkeepAt pos = cfg.upkeepOf s.level.isClient e) :
    s.Renewed cfg pos new (s.attachEntity cfg pos new) := by
  obtain ⟨hnew, -⟩ := Config.ownType?_eq_some_iff.1 htype
  have hfound : s.chunk.entities.find? pos = some e := congrArg Upkeep.entity he
  have hlistener : s.chunk.listenerAt? pos = (cfg.upkeepOf s.level.isClient e).listener :=
    congrArg Upkeep.listener he
  have hground : (s.updateEntityState cfg pos new).2.ground = s.ground :=
    ground_updateEntityState s pos new
  obtain ⟨htold, hquiet, hupkeep⟩ := upkeepAt_updateEntityState cfg h hfound hr hpos new
  unfold attachEntity
  rw [if_pos hnew]
  simp only [htold, if_true]
  have hsteady' : cfg.SteadyListener { e with cachedState := new } := hsteady.update ..
  refine ⟨hquiet, fun q hq => ?_,
    .owner { e with cachedState := new } htype hpos rfl hr hsteady' ?_⟩
  · rw [hupkeep, if_neg hq]
  · rw [hupkeep, if_pos rfl, isClient_eq hground, hlistener]
    unfold Config.upkeepOf
    rw [hsteady.steady]

/-- **A block that has just been written gets its entity**: the one that stayed is told, and if
none did the block gets one by itself. -/
theorem attachEntity_mirrors (hown : cfg.OwnsByKind)
    (hm : s.upkeepAt pos = {} ∨
      cfg.facts.blockOf old = cfg.facts.blockOf new ∧ s.Mirrors cfg pos old) :
    s.Renewed cfg pos new (s.attachEntity cfg pos new) := by
  rcases hm with hempty | ⟨hkind, hm⟩
  · exact attachEntity_of_empty h hown hempty
  · cases hm with
    | bare _ hempty => exact attachEntity_of_empty h hown hempty
    | owner e htype hpos hstate hr hsteady he =>
      rw [hown.type pos old new hkind] at htype
      exact attachEntity_of_owner h htype hpos hr hsteady he

end Attach

/-! ### Runs of writes -/

/-- The kind of the block that is stored at a position. -/
theorem storedKind?_eq {index : Nat} (h : cfg.SoundSections s.chunk.sections)
    (hi : cfg.height.sectionIndex? pos.y = some index)
    (hthere : s.chunk.sections[index]?.join.isSome) :
    s.storedKind? cfg index pos =
      some (cfg.facts.blockOf (columnState s.chunk.sections cfg.height pos.x pos.y pos.z)) := by
  obtain ⟨sec, hsec⟩ := Option.isSome_iff_exists.1 hthere
  unfold storedKind? Chunk.section?
  rw [hsec, Option.bind_some, (h.sound index sec hsec).get_eq, columnState_of_section hi hsec]
  rfl

end Site

namespace Config

/-- For every position of the column, what is kept is what the stored block asks for. -/
structure Mirrored (cfg : Config α τ) (column : ChunkPos) (client : Bool) (s : Site α τ) :
    Prop where
  isClient : s.level.isClient = client
  sections : cfg.SoundSections s.chunk.sections
  quiet : s.Quiet
  mirrors : ∀ pos, ChunkPos.ofBlock pos = column →
    s.Mirrors cfg pos (columnState s.chunk.sections cfg.height pos.x pos.y pos.z)

namespace Mirrored

variable {cfg : Config α τ} {column : ChunkPos} {client : Bool} {s : Site α τ} {pos : BlockPos}
  {state : BlockState}

theorem congr {s' : Site α τ} (h : cfg.Mirrored column client s)
    (hsections : s'.chunk.sections = s.chunk.sections)
    (hclient : s'.level.isClient = s.level.isClient) (hquiet : s'.Quiet)
    (hupkeep : ∀ pos, s'.upkeepAt pos = s.upkeepAt pos) : cfg.Mirrored column client s' where
  isClient := hclient.trans h.isClient
  sections := by
    rw [hsections]
    exact h.sections
  quiet := hquiet
  mirrors := by
    intro q hq
    rw [hsections]
    exact (h.mirrors q hq).congr (hupkeep q) hclient

/-- The invariant does not ask for more than sound sections with the same blocks. -/
theorem withSections (h : cfg.Mirrored column client s) {sections : Sections}
    (hsound : cfg.SoundSections sections)
    (hsame : ∀ x y z, columnState sections cfg.height x y z =
      columnState s.chunk.sections cfg.height x y z) :
    cfg.Mirrored column client { s with chunk := { s.chunk with sections } } where
  isClient := h.isClient
  sections := hsound
  quiet := h.quiet.update h.quiet.deaf
  mirrors := by
    intro q hq
    show Site.Mirrors cfg _ q (columnState sections cfg.height q.x q.y q.z)
    rw [hsame]
    exact (h.mirrors q hq).congr rfl rfl

/-- Where a block has just been written, its entity restores the invariant. -/
theorem attachEntity (hown : cfg.OwnsByKind) {old : BlockState}
    (hclient : s.level.isClient = client) (hsections : cfg.SoundSections s.chunk.sections)
    (hquiet : s.Quiet)
    (hat : columnState s.chunk.sections cfg.height pos.x pos.y pos.z = state)
    (hleft : s.upkeepAt pos = {} ∨
      cfg.facts.blockOf old = cfg.facts.blockOf state ∧ s.Mirrors cfg pos old)
    (hothers : ∀ q, ChunkPos.ofBlock q = column → q ≠ pos →
      s.Mirrors cfg q (columnState s.chunk.sections cfg.height q.x q.y q.z)) :
    cfg.Mirrored column client (s.attachEntity cfg pos state) := by
  have hrenewed := Site.attachEntity_mirrors hquiet hown hleft
  have hground : (s.attachEntity cfg pos state).ground = s.ground :=
    Site.ground_attachEntity s pos state
  have hsame : (s.attachEntity cfg pos state).chunk.sections = s.chunk.sections :=
    congrArg Prod.fst (Site.blocks_eq hground)
  refine ⟨(Site.isClient_eq hground).trans hclient, by rwa [hsame], hrenewed.quiet,
    fun q hq => ?_⟩
  rw [hsame]
  by_cases heq : q = pos
  · rw [heq, hat]
    exact hrenewed.mirrors
  · exact (hothers q hq heq).congr (hrenewed.kept q heq) (Site.isClient_eq hground)

variable (hdefault : cfg.DefaultReactions) (hown : cfg.OwnsByKind)
include hdefault hown

/-- After a block has been stored, the old block's entity makes way and the new block's entity
restores the invariant. -/
theorem replaceBlock_attachEntity {old : BlockState} (hclient : s.level.isClient = client)
    (hsections : cfg.SoundSections s.chunk.sections) (hquiet : s.Quiet)
    (hat : columnState s.chunk.sections cfg.height pos.x pos.y pos.z = state)
    (hm : s.Mirrors cfg pos old)
    (hothers : ∀ q, ChunkPos.ofBlock q = column → q ≠ pos →
      s.Mirrors cfg q (columnState s.chunk.sections cfg.height q.x q.y q.z))
    (write : BlockWriter α τ) (moved : Bool) :
    let r := s.replaceBlock write cfg pos old state moved
    r.chunk.sections = s.chunk.sections ∧
      cfg.Mirrored column client (r.attachEntity cfg pos state) := by
  obtain ⟨hquiet', hground, hkept, hleft⟩ :=
    Site.upkeepAt_replaceBlock hdefault hquiet hm write state moved
  simp only
  generalize s.replaceBlock write cfg pos old state moved = r at hquiet' hground hkept hleft ⊢
  have hsame : r.chunk.sections = s.chunk.sections := congrArg Prod.fst (Site.blocks_eq hground)
  have hclient' : r.level.isClient = s.level.isClient := Site.isClient_eq hground
  refine ⟨hsame, attachEntity hown (hclient'.trans hclient) (by rwa [hsame]) hquiet'
    (by rwa [hsame]) hleft fun q hq hne => ?_⟩
  rw [hsame]
  exact (hothers q hq hne).congr (hkept q hne) hclient'

variable (hair : cfg.facts.isAir .air)
include hair

/-- One write keeps the invariant. -/
theorem writeBlock (h : cfg.Mirrored column client s) (hpos : ChunkPos.ofBlock pos = column)
    (hs : state.FitsIn cfg.globalBits) (depth : Nat) (flags : SetFlags) :
    cfg.Mirrored column client (Site.writeBlock cfg depth s pos state flags).2 := by
  cases depth with
  | zero => exact h.congr rfl rfl (h.quiet.update h.quiet.deaf) fun _ => rfl
  | succ depth =>
    show cfg.Mirrored column client
      (s.writeWith (Site.nestedWriter cfg depth) cfg pos state flags).2
    unfold Site.writeWith
    cases hi : cfg.height.sectionIndex? pos.y with
    | none => exact h
    | some index =>
      have hstored := Site.storeBlock_spec h.sections hair hi hs
      simp only
      generalize s.storeBlock cfg index pos state = out at hstored ⊢
      cases hstored with
      | skipped => exact h
      | same sections hsound hset heq => exact h.withSections hsound (hset.of_eq heq)
      | changed sections events notices hsound hset hne hthere =>
        have hothers : ∀ q, ChunkPos.ofBlock q = column → q ≠ pos →
            columnState sections cfg.height q.x q.y q.z =
              columnState s.chunk.sections cfg.height q.x q.y q.z := by
          intro q hq hne
          rw [hset, if_neg]
          rintro ⟨hx, hy, hz⟩
          exact hne (BlockPos.eq_of_ofBlock_eq (hq.trans hpos.symm) hx hy hz)
        simp only
        -- all that the stored site owes to the site before
        generalize hst : ({ chunk := { s.chunk with
                              sections
                              heightmaps := toldHeightmaps cfg sections pos state
                                s.chunk.heightmaps }
                            level := { s.level with events, notices } } : Site α τ) = stored
        have hblocks : stored.chunk.sections = sections := by
          rw [← hst]
        have hclient : stored.level.isClient = client := by
          rw [← hst]
          exact h.isClient
        have hquiet : stored.Quiet := by
          rw [← hst]
          exact h.quiet.update h.quiet.deaf
        have hkept : ∀ q state, s.Mirrors cfg q state → stored.Mirrors cfg q state := by
          intro q state hm
          rw [← hst]
          exact hm.congr rfl rfl
        obtain ⟨hsame, hattached⟩ := replaceBlock_attachEntity hdefault hown hclient
          (by rwa [hblocks]) hquiet (by rw [hblocks, hset.at_pos]) (hkept pos _ (h.mirrors pos hpos))
          (fun q hq hne => by
            rw [hblocks, hothers q hq hne]
            exact hkept q _ (h.mirrors q hq))
          (Site.nestedWriter cfg depth) flags.moved
        generalize stored.replaceBlock (Site.nestedWriter cfg depth) cfg pos _ state flags.moved =
          replaced at hsame hattached ⊢
        have hsections : replaced.chunk.sections = sections := hsame.trans hblocks
        have hkind : replaced.storedKind? cfg index pos = some (cfg.facts.blockOf state) := by
          rw [Site.storedKind?_eq (by rwa [hsections]) hi (by rwa [hsections]), hsections,
            hset.at_pos]
        have hdone : (if replaced.level.isClient = true then replaced
            else Reaction.run (Site.nestedWriter cfg depth) cfg .done replaced) = replaced :=
          ite_self replaced
        rw [if_neg (fun hne => hne hkind), hdefault.onAdded, hdone]
        exact hattached.congr rfl rfl (hattached.quiet.update hattached.quiet.deaf) fun _ => rfl

/-- A run of writes keeps the invariant. -/
theorem setBlocks (h : cfg.Mirrored column client s) (writes : List BlockWrite)
    (hw : ∀ w ∈ writes, ChunkPos.ofBlock w.pos = column ∧ w.state.FitsIn cfg.globalBits) :
    cfg.Mirrored column client (s.setBlocks cfg writes) := by
  induction writes generalizing s with
  | nil => exact h
  | cons w rest ih =>
    obtain ⟨hpos, hs⟩ := hw w List.mem_cons_self
    exact ih (h.writeBlock hdefault hown hair hpos hs _ w.flags) fun w hw' =>
      hw w (List.mem_cons_of_mem _ hw')

end Mirrored

end Config

/-! ### From bare chunks -/

/-- There are no blocks other than air, no block entities, installed, saved or out to be ticked, and
nothing that belongs to one. -/
structure Site.Bare (cfg : Config α τ) (s : Site α τ) : Prop where
  sections : cfg.SoundSections s.chunk.sections
  air : ∀ x y z, cfg.facts.isAir (columnState s.chunk.sections cfg.height x y z)
  entities : ∀ pos, s.chunk.entities.find? pos = none
  pending : ∀ pos, s.chunk.pending.find? pos = none
  tickers : ∀ pos, s.chunk.tickers.find? pos = none
  listeners : ∀ pos, s.chunk.listenerAt? pos = none
  lent : s.chunk.lent = none

namespace Site

variable {cfg : Config α τ} {s : Site α τ}

/-- A new chunk is bare, whether it is in its world or not. -/
theorem bare_new (hair : cfg.facts.isAir .air) {init : ChunkInit α} (hinit : init.sections = none)
    (loaded : Bool) (level : Level τ) :
    Bare cfg ⟨{ Chunk.new cfg init with loaded }, level⟩ := by
  have hsections : (Chunk.new cfg init).sections = Array.replicate cfg.height.sectionCount none :=
    Chunk.sections_new hinit
  refine ⟨?_, fun x y z => ?_, fun _ => rfl, fun _ => rfl, fun _ => rfl, fun _ => rfl, rfl⟩
  · show cfg.SoundSections (Chunk.new cfg init).sections
    rw [hsections]
    exact Config.soundSections_replicate cfg
  · show cfg.facts.isAir (columnState (Chunk.new cfg init).sections cfg.height x y z)
    rw [hsections, columnState_replicate]
    exact hair

/-- Bare chunks have what their blocks ask for, which is nothing. -/
theorem Bare.mirrored (h : s.Bare cfg) (hown : cfg.OwnsByKind) (hslots : s.level.tickers.Sound)
    (htick : s.canTick) (column : ChunkPos) : cfg.Mirrored column s.level.isClient s where
  isClient := rfl
  sections := h.sections
  quiet := by
    refine ⟨⟨hslots, fun pos name hname => ?_⟩, htick, h.pending, h.lent, fun _ => h.listeners⟩
    rw [h.tickers] at hname
    cases hname
  mirrors := by
    intro pos _
    refine .bare ?_ ?_
    · rw [Config.ownType?, if_neg]
      rw [hown.air _ (h.air ..)]
      exact Bool.false_ne_true
    · unfold upkeepAt tickerAt?
      rw [h.entities, h.tickers, h.listeners]
      rfl

/-- **Block entities mirror the blocks.** After any run of writes to a bare chunk there is an entity
where the stored block gets one by itself, of that type and told about the state; it has the ticker
that it asks for and, in a world that is not a client's, the listener that it exposes. -/
theorem mirrors_setBlocks (hair : cfg.facts.isAir .air) (hdefault : cfg.DefaultReactions)
    (hown : cfg.OwnsByKind) (hbare : s.Bare cfg) (hslots : s.level.tickers.Sound)
    (htick : s.canTick) {column : ChunkPos} (writes : List BlockWrite)
    (hw : ∀ w ∈ writes, ChunkPos.ofBlock w.pos = column ∧ w.state.FitsIn cfg.globalBits)
    (pos : BlockPos) (hpos : ChunkPos.ofBlock pos = column) :
    let t := s.setBlocks cfg writes
    let state := columnState t.chunk.sections cfg.height pos.x pos.y pos.z
    ((t.chunk.entityAt? pos).isSome ↔
        cfg.facts.hasEntity state ∧ (cfg.registry.create pos state).isSome) ∧
      (∀ e, t.chunk.entityAt? pos = some e → e.cachedState = state ∧
        ∃ made, cfg.registry.create pos state = some made ∧ e.type = made.type) ∧
      (t.chunk.hasTicker pos ↔ ∃ e, t.chunk.entityAt? pos = some e ∧
        (cfg.registry.tickerFor s.level.isClient state e.type).isSome) ∧
      (∀ name, t.chunk.tickers.find? pos = some name → ∃ e action,
        t.chunk.entityAt? pos = some e ∧
        cfg.registry.tickerFor s.level.isClient state e.type = some action ∧
        t.level.tickers.get? name = some { pos, serial := e.serial, type := e.type, action }) ∧
      t.chunk.listenerAt? pos =
        if s.level.isClient then none else (t.chunk.entityAt? pos).bind cfg.registry.listener := by
  intro t state
  -- the invariant at the end of the run, read off part by part
  have hmirrored : cfg.Mirrored column s.level.isClient t :=
    (hbare.mirrored hown hslots htick column).setBlocks hdefault hown hair writes hw
  have hm : t.Mirrors cfg pos state := hmirrored.mirrors pos hpos
  have htype := hm.type_entityAt?
  have hticker := hm.tickerAt?_eq
  have hlistener := hm.listenerAt?_eq
  rw [hmirrored.isClient] at hticker hlistener
  refine ⟨?_, fun e he => ⟨hm.cachedState_eq he, ?_⟩, ?_, fun name hname => ?_, hlistener⟩
  · rw [← Config.isSome_ownType?, ← htype, Option.isSome_map]
  · rw [he, Option.map_some] at htype
    obtain ⟨-, made, hmade, hsame⟩ := Config.ownType?_eq_some_iff.1 htype.symm
    exact ⟨made, hmade, hsame.symm⟩
  · rw [← hmirrored.quiet.wired.isSome_tickerAt?, hticker]
    cases t.chunk.entityAt? pos <;> simp
  · -- the name stands for a ticker, which is the one that is asked for
    obtain ⟨ticker, hget, -⟩ := hmirrored.quiet.wired.named pos name hname
    have hat : t.tickerAt? pos = some ticker := by
      unfold tickerAt?
      rw [hname, Option.bind_some, hget]
    rw [hticker] at hat
    obtain ⟨e, he, hmap⟩ := Option.bind_eq_some_iff.1 hat
    obtain ⟨action, haction, rfl⟩ := Option.map_eq_some_iff.1 hmap
    exact ⟨e, action, he, haction, hget⟩

end Site

/-- The world of stone with chests instead: each has an entity that is ticked and hears events. -/
def chestWorld : Config Unit Unit where
  registry :=
    { toBlockFacts := { stoneWorld.facts with hasEntity := fun s => s != .air }
      create := fun pos s => some { type := ⟨"chest"⟩, pos, cachedState := s, data := () }
      instantiate := fun _ _ _ => none
      supports := fun _ _ => true
      listener := fun e => some ⟨e.pos, 8⟩
      tickerFor := fun _ _ _ => some () }
  height := default

theorem chestWorld_default : chestWorld.DefaultReactions :=
  ⟨fun _ _ _ _ => rfl, fun _ _ _ _ => rfl⟩

theorem chestWorld_ownsByKind : chestWorld.OwnsByKind where
  air := by
    intro state hair
    have hair : state = .air := beq_iff_eq.1 hair
    rw [hair]
    rfl
  type := by
    rintro pos ⟨id⟩ ⟨id'⟩ hkind
    cases hkind
    rfl
  created := by
    rintro pos state e - ⟨⟩
    refine ⟨rfl, rfl, ?_, fun _ _ _ _ => rfl⟩
    rintro l ⟨⟩
    rfl

/-- A new chunk of the world of chests. -/
def newChests : Site Unit Unit :=
  ⟨{ Chunk.new chestWorld { pos := ⟨0, 0⟩ } with loaded := true }, { isClient := false }⟩

/-- Two chests are put side by side, and one of them is taken away. -/
def chestWrites : List BlockWrite :=
  [{ pos := ⟨3, 5, 4⟩, state := ⟨1⟩ }, { pos := ⟨3, 5, 5⟩, state := ⟨1⟩ },
    { pos := ⟨3, 5, 5⟩, state := .air }]

/-- What is kept for the chest that stays. -/
theorem mirrors_chests :
    let pos : BlockPos := ⟨3, 5, 4⟩
    let t := newChests.setBlocks chestWorld chestWrites
    let state := columnState t.chunk.sections chestWorld.height pos.x pos.y pos.z
    ((t.chunk.entityAt? pos).isSome ↔
        chestWorld.facts.hasEntity state ∧ (chestWorld.registry.create pos state).isSome) ∧
      (∀ e, t.chunk.entityAt? pos = some e → e.cachedState = state ∧
        ∃ made, chestWorld.registry.create pos state = some made ∧ e.type = made.type) ∧
      (t.chunk.hasTicker pos ↔ ∃ e, t.chunk.entityAt? pos = some e ∧
        (chestWorld.registry.tickerFor newChests.level.isClient state e.type).isSome) ∧
      (∀ name, t.chunk.tickers.find? pos = some name → ∃ e action,
        t.chunk.entityAt? pos = some e ∧
        chestWorld.registry.tickerFor newChests.level.isClient state e.type = some action ∧
        t.level.tickers.get? name = some { pos, serial := e.serial, type := e.type, action }) ∧
      t.chunk.listenerAt? pos =
        if newChests.level.isClient then none
        else (t.chunk.entityAt? pos).bind chestWorld.registry.listener := by
  intro pos
  have hair : chestWorld.facts.isAir .air := by decide
  have hbare : newChests.Bare chestWorld := Site.bare_new hair rfl true _
  have hslots : newChests.level.tickers.Sound := Tickers.sound_empty
  have htick : newChests.canTick := rfl
  have hw : ∀ w ∈ chestWrites,
      ChunkPos.ofBlock w.pos = ⟨0, 0⟩ ∧ w.state.FitsIn chestWorld.globalBits := by
    decide
  exact Site.mirrors_setBlocks hair chestWorld_default chestWorld_ownsByKind hbare hslots htick _ hw
    pos rfl

end VoxelChunk
