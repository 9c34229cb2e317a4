import VoxelChunk.Proofs.Chunk.Edits
import VoxelChunk.Proofs.Chunk.Mirror

/-!
# Chunks out of their world

A chunk of a server that is not in its world must not tick its block entities. Whatever is done with
it, it gets no listeners. It gets no tickers either, unless a write finds an entity at its position
and the entity is ticked in the new state: the entity is told about its block, and its ticker is
registered wherever the chunk is.

## Main definitions

* `Site.Unregistered` — the chunk has neither listeners nor tickers.
* `Site.Spares` — a write that finds no entity which is ticked in the new state.
* `Site.Deaf`, `Site.Dormant` — the invariants of runs.

## Main results

* `Site.Deaf.edits` — a chunk out of its world gets no listeners.
* `Site.Dormant.setBlock`, `Site.Dormant.settleAll` — writes that spare entities register nothing.
* `Site.unregistered_edits` — a chunk out of its world gets nothing by operations that spare
  entities.
-/

namespace VoxelChunk

variable {α τ : Type}

/-- A section without listeners stays so when one is removed. -/
theorem Chunk.listeners_removeListener {c : Chunk α}
    (h : ∀ sectionY d, c.dispatchers.find? sectionY = some d → d.listeners = []) (pos : BlockPos)
    {sectionY : Int} {d : Dispatcher}
    (hd : (c.removeListener pos).dispatchers.find? sectionY = some d) : d.listeners = [] := by
  unfold removeListener Dispatchers.removeListener at hd
  simp only at hd
  cases hfound : c.dispatchers.find? (sectionCoord pos.y) with
  | none =>
    rw [hfound] at hd
    exact h sectionY d hd
  | some found =>
    rw [hfound] at hd
    simp only at hd
    split at hd
    · rw [Keyed.find?_erase] at hd
      split at hd
      · cases hd
      · exact h sectionY d hd
    · rw [Keyed.find?_insert] at hd
      split at hd
      · cases hd
        show found.listeners.filter _ = []
        rw [h _ found hfound]
        rfl
      · exact h sectionY d hd

namespace Site

variable {cfg : Config α τ} {P Q : BlockPos → Prop} {s t : Site α τ} {pos : BlockPos}
  {state : BlockState} {column : ChunkPos} {tickers : Tickers τ}

/-! ### Listeners -/

/-- The chunk of a server at a column is not in its world and has no listeners. -/
structure Deaf (column : ChunkPos) (s : Site α τ) : Prop where
  place : s.holdings.1 = (column, false, false)
  listeners : ∀ sectionY d, s.chunk.dispatchers.find? sectionY = some d → d.listeners = []

theorem addEntity_of_unloaded (h : s.canTick = false) (cfg : Config α τ) (e : BlockEntity α) :
    s.addEntity cfg e = (s.discardLent e.pos).withEntity e := by
  rw [addEntity_eq_ite, if_neg (ne_true_of_eq_false h)]

theorem removeEntity_of_unloaded (h : s.canTick = false) (pos : BlockPos) :
    (s.removeEntity pos).2 =
      Site.removeTicker { s with chunk := s.chunk.removeListener pos } pos := by
  unfold removeEntity
  rw [h]
  rfl

namespace Deaf

theorem isClient (h : s.Deaf column) : s.level.isClient = false :=
  congrArg (fun place => place.2.2) h.place

theorem canTick (h : s.Deaf column) : s.canTick = false := by
  have hloaded : s.chunk.loaded = false := congrArg (fun place => place.2.1) h.place
  unfold Site.canTick
  rw [hloaded, h.isClient]
  rfl

theorem congr (h : s.Deaf column) (heq : t.belongings = s.belongings) : t.Deaf column where
  place := (congrArg Prod.fst (holdings_eq heq)).trans h.place
  listeners := by
    rw [dispatchers_eq heq]
    exact h.listeners

theorem removeTicker (h : s.Deaf column) (pos : BlockPos) : (s.removeTicker pos).Deaf column := by
  obtain ⟨names, slots, heq⟩ := removeTicker_eq s pos
  rw [heq]
  exact ⟨h.place, h.listeners⟩

theorem updateTicker (h : s.Deaf column) (cfg : Config α τ) (pos : BlockPos) :
    (s.updateTicker cfg pos).Deaf column := by
  obtain ⟨names, slots, heq⟩ := updateTicker_eq s cfg pos
  rw [heq]
  exact ⟨h.place, h.listeners⟩

theorem modifyLent (h : s.Deaf column) (pos : BlockPos) (f : LentEntity → LentEntity) :
    Deaf column { s with chunk := s.chunk.modifyLent pos f } := by
  unfold Chunk.modifyLent
  split
  · exact ⟨h.place, h.listeners⟩
  · exact h

theorem removeListener (h : s.Deaf column) (pos : BlockPos) :
    Deaf column { s with chunk := s.chunk.removeListener pos } :=
  ⟨h.place, fun _ _ => Chunk.listeners_removeListener h.listeners pos⟩

theorem addEntity (h : s.Deaf column) (cfg : Config α τ) (e : BlockEntity α) :
    (s.addEntity cfg e).Deaf column := by
  have hgone : (s.discardLent e.pos).Deaf column := h.modifyLent e.pos _
  rw [addEntity_of_unloaded h.canTick]
  exact ⟨hgone.place, hgone.listeners⟩

theorem removeEntity (h : s.Deaf column) (pos : BlockPos) :
    (s.removeEntity pos).2.Deaf column := by
  rw [removeEntity_of_unloaded h.canTick]
  exact (h.removeListener pos).removeTicker pos

theorem evictRemoved (h : s.Deaf column) (pos : BlockPos) : (s.evictRemoved pos).Deaf column := by
  unfold Site.evictRemoved
  split
  · exact h
  · split
    · exact (Deaf.removeListener (s := { s with chunk := { s.chunk with
        entities := s.chunk.entities.swapErase pos } }) ⟨h.place, h.listeners⟩ pos).removeTicker pos
    · exact h

end Deaf

/-- No step gives listeners to a chunk out of its world. -/
theorem EntityStep.deaf (hstep : EntityStep cfg P Q s t) (h : s.Deaf column) : t.Deaf column := by
  cases hstep with
  | aside pending notices _ => exact ⟨h.place, h.listeners⟩
  | add e _ => exact h.addEntity cfg e
  | remove pos _ => exact h.removeEntity pos
  | evict pos _ => exact h.evictRemoved pos
  | tellLent pos state _ => exact (h.modifyLent pos _).updateTicker cfg pos
  | tell pos state _ =>
    exact Deaf.updateTicker (s := { s with chunk := s.chunk.modifyEntity pos _ })
      ⟨h.place, h.listeners⟩ cfg pos

theorem EntitySteps.deaf (hsteps : EntitySteps cfg P Q s t) (h : s.Deaf column) :
    t.Deaf column := by
  induction hsteps with
  | refl => exact h
  | tail _ hstep ih => exact hstep.deaf ih

namespace Deaf

theorem getEntity (h : s.Deaf column) (cfg : Config α τ) (pos : BlockPos) (mode : CreationMode) :
    (s.getEntity cfg pos mode).2.Deaf column :=
  (steps_getEntity (cfg.makes_true fun _ => True) s trivial mode).deaf h

theorem setBlock (hdefault : cfg.DefaultReactions) (h : s.Deaf column) (pos : BlockPos)
    (state : BlockState) (flags : SetFlags) : (s.setBlock cfg pos state flags).2.Deaf column := by
  have hwritten := written_setBlock hdefault s pos state flags
  generalize s.setBlock cfg pos state flags = out at hwritten ⊢
  cases hwritten with
  | kept hsame => exact h.congr hsame
  | lost hsame => exact (h.congr hsame).removeEntity pos
  | @changed t r u old hsame hr hu =>
    have hleft : r.Deaf column := by
      rw [hr]
      split
      · exact (h.congr hsame).removeEntity pos
      · exact h.congr hsame
    exact ((steps_attachEntity (cfg.makes_true fun _ => True) r trivial state).deaf hleft).congr hu

/-- **A chunk out of its world gets no listeners**, whatever is done with it. -/
theorem edits (hdefault : cfg.DefaultReactions) (h : s.Deaf column) (es : List (SiteEdit α)) :
    (s.edits cfg es).Deaf column := by
  refine Along.foldl_keeps (I := Deaf column) (fun s e h _ => ?_) h
    (along_true _ s es)
  cases e with
  | setBlock pos state flags => exact h.setBlock hdefault pos state flags
  | getEntity pos mode change =>
    exact edit_getEntity_keeps (I := Deaf column) (h.getEntity cfg pos mode)
      fun h => ⟨h.place, h.listeners⟩
  | addEntity e => exact h.addEntity cfg e
  | removeEntity pos => exact h.removeEntity pos
  | addPending fields =>
    rw [edit_addPending]
    split
    · exact ⟨h.place, h.listeners⟩
    · exact h
  | settle view =>
    exact settleAll_keeps (I := Deaf column) (fun h heq => h.congr heq)
      (fun flags h _ => h.setBlock hdefault _ _ flags) (fun pos h => h.getEntity cfg pos .check)
      (fun h => ⟨h.place, h.listeners⟩) view h
      (settlesWhere_true cfg view s)

end Deaf

/-! ### Tickers -/

/-- The chunk has no listeners and no valid names of tickers, and none of its positions is
ticked. -/
structure Unregistered (s : Site α τ) : Prop where
  listeners : ∀ sectionY d, s.chunk.dispatchers.find? sectionY = some d → d.listeners = []
  names : ∀ pos name, s.chunk.tickers.find? pos = some name → s.level.tickers.get? name = none
  tickers : ∀ index ticker, s.level.tickers.activeAt? index = some ticker →
    s.chunk.pos.contains ticker.pos = false

/-- A new chunk has registered nothing. -/
theorem unregistered_new (cfg : Config α τ) (init : ChunkInit α) (level : Level τ)
    (h : level.tickers = {}) : Unregistered ⟨Chunk.new cfg init, level⟩ where
  listeners := nofun
  names := nofun
  tickers := by
    intro index ticker hat
    obtain ⟨generation, hget⟩ := Tickers.activeAt?_eq_some_iff.1 hat
    have hget : level.tickers.get? ⟨index, generation⟩ = some ticker := hget
    rw [h, Tickers.get?_eq_some_iff] at hget
    cases hget

/-- A write finds no entity that is ticked in the new state: none is out of the chunk from there,
and neither the one that is installed there nor, if none is, one that saved data may stand for is
ticked. -/
structure Spares (cfg : Config α τ) (s : Site α τ) (pos : BlockPos) (state : BlockState) :
    Prop where
  lent : s.chunk.lentAt? pos = none
  installed : ∀ e, s.chunk.entityAt? pos = some e →
    cfg.registry.tickerFor s.level.isClient state e.type = none
  saved : s.chunk.entityAt? pos = none → (s.chunk.pending.find? pos).isSome → ∀ type,
    cfg.registry.tickerFor s.level.isClient state type = none

/-- Blocks that have no entity may be written, and others where no entity is found that is ticked in
the new state. -/
def MaySpare (cfg : Config α τ) (s : Site α τ) (pos : BlockPos) (state : BlockState) : Prop :=
  cfg.facts.hasEntity state → s.Spares cfg pos state

/-- The chunk of a server is not in its world, and neither it nor anybody else has registered
anything since the tickers were as given. -/
structure Dormant (column : ChunkPos) (tickers : Tickers τ) (s : Site α τ) : Prop
    extends s.Deaf column where
  slots : s.level.tickers = tickers
  names : ∀ pos name, s.chunk.tickers.find? pos = some name → tickers.get? name = none

theorem updateTicker_of_unwanted (h : s.wantedTicker? cfg pos = none) :
    s.updateTicker cfg pos = s.removeTicker pos := by
  unfold wantedTicker? at h
  unfold updateTicker
  cases hticked : tickedAt? s.chunk pos with
  | none => rfl
  | some ticked =>
    obtain ⟨type, state, serial⟩ := ticked
    rw [hticked, Option.bind_some, Option.map_eq_none_iff] at h
    simp only [h]

/-- An entity that has been told the state of its block, and is not ticked in it, wants no
ticker. -/
theorem wantedTicker?_told {e : BlockEntity α} (he : s.chunk.entities.find? pos = some e)
    (hquiet : cfg.registry.tickerFor s.level.isClient state e.type = none) :
    wantedTicker? { s with chunk := s.chunk.modifyEntity pos fun e =>
      { e with cachedState := state } } cfg pos = none := by
  unfold wantedTicker? tickedAt? Chunk.modifyEntity
  rw [Keyed.find?_modify, if_pos rfl, he]
  simp only [Option.map_some]
  split
  · rfl
  · rw [Option.bind_some, hquiet]
    rfl

/-- An entity that is found, and was not installed before, was waiting as saved data. -/
theorem getEntity_check_of_none (hlent : s.chunk.lentAt? pos = none)
    (hnone : s.chunk.entityAt? pos = none) {e : BlockEntity α}
    (h : s.getEntity cfg pos .check = (some e, t)) :
    (s.chunk.pending.find? pos).isSome ∧ t.chunk.entities.find? pos = some e := by
  have hpending : (s.evictRemoved pos).chunk.pending = s.chunk.pending := by
    unfold evictRemoved
    split
    · rfl
    · split
      · obtain ⟨names, slots, heq⟩ := removeTicker_eq ({ s with chunk := { s.chunk with
          entities := s.chunk.entities.swapErase pos }.removeListener pos } : Site α τ) pos
        rw [heq]
        rfl
      · rfl
  unfold getEntity at h
  rw [hlent, hnone] at h
  simp only [Option.isSome_none, Bool.false_eq_true, reduceCtorEq, if_false] at h
  split at h
  · next hloaded =>
    obtain ⟨hfound, rfl⟩ := Prod.mk.inj h
    refine ⟨?_, hfound⟩
    unfold loadPending at hloaded
    rw [hpending] at hloaded
    split at hloaded
    · cases hloaded
    · next hfields =>
      rw [hfields]
      rfl
  · cases h

namespace Spares

theorem congr (h : s.Spares cfg pos state) (hentities : t.chunk.entities = s.chunk.entities)
    (hpending : t.chunk.pending = s.chunk.pending) (hlent : t.chunk.lent = s.chunk.lent)
    (hclient : t.level.isClient = s.level.isClient) : t.Spares cfg pos state := by
  obtain ⟨hout, hinstalled, hsaved⟩ := h
  constructor
  · unfold Chunk.lentAt?
    rw [hlent]
    exact hout
  · unfold Chunk.entityAt?
    rw [hentities, hclient]
    exact hinstalled
  · unfold Chunk.entityAt?
    rw [hentities, hpending, hclient]
    exact hsaved

theorem of_belongings (h : s.Spares cfg pos state) (heq : t.belongings = s.belongings) :
    t.Spares cfg pos state := by
  have hheld := holdings_eq heq
  exact h.congr (congrArg (fun held => held.2.1) hheld) (congrArg (fun held => held.2.2.1) hheld)
    (congrArg (fun held => held.2.2.2.1) hheld) (congrArg (fun held => held.1.2.2) hheld)

/-- Out of its world, a chunk keeps the entity of a block that is replaced. -/
theorem removeEntity (h : s.Spares cfg pos state) (htick : s.canTick = false) :
    (s.removeEntity pos).2.Spares cfg pos state := by
  rw [removeEntity_of_unloaded htick]
  obtain ⟨names, slots, heq⟩ := removeTicker_eq ({ s with
    chunk := s.chunk.removeListener pos } : Site α τ) pos
  rw [heq]
  exact h.congr rfl rfl rfl rfl

end Spares

namespace Dormant

theorem congr (h : s.Dormant column tickers) (heq : t.belongings = s.belongings) :
    t.Dormant column tickers where
  toDeaf := h.toDeaf.congr heq
  slots := (congrArg (fun held => held.2.2.2.2.2) (holdings_eq heq)).trans h.slots
  names := by
    rw [show t.chunk.tickers = s.chunk.tickers from
      congrArg (fun held => held.2.2.2.2.1) (holdings_eq heq)]
    exact h.names

/-- What a chunk holds may change as long as it keeps its names and gets no listeners. -/
theorem update (h : s.Dormant column tickers) {c : Chunk α} {level : Level τ}
    (hdeaf : Deaf column ⟨c, level⟩) (hnames : c.tickers = s.chunk.tickers)
    (hslots : level.tickers = s.level.tickers) : Dormant column tickers ⟨c, level⟩ where
  toDeaf := hdeaf
  slots := hslots.trans h.slots
  names := by
    intro pos name hname
    exact h.names pos name (hnames ▸ hname)

/-- To give up a name that is not valid is to do nothing else. -/
theorem removeTicker (h : s.Dormant column tickers) (pos : BlockPos) :
    (s.removeTicker pos).Dormant column tickers := by
  have hdeaf := h.toDeaf.removeTicker pos
  unfold Site.removeTicker at hdeaf ⊢
  cases hname : s.chunk.tickers.find? pos with
  | none => exact h
  | some name =>
    rw [hname] at hdeaf
    have hstale : s.level.tickers.get? name = none := by
      rw [h.slots]
      exact h.names pos name hname
    refine ⟨hdeaf, ?_, fun q other hq => ?_⟩
    · show (s.level.tickers.remove name).2 = tickers
      unfold Tickers.remove
      rw [hstale]
      exact h.slots
    · have hq : (s.chunk.tickers.erase pos).find? q = some other := hq
      rw [Keyed.find?_erase] at hq
      split at hq
      · cases hq
      · exact h.names q other hq

theorem discardLent (h : s.Dormant column tickers) (pos : BlockPos) :
    (s.discardLent pos).Dormant column tickers := by
  refine h.update (h.toDeaf.modifyLent pos _) ?_ rfl
  unfold Chunk.modifyLent
  split <;> rfl

theorem addEntity (h : s.Dormant column tickers) (cfg : Config α τ) (e : BlockEntity α) :
    (s.addEntity cfg e).Dormant column tickers := by
  have hdeaf := h.toDeaf.addEntity cfg e
  rw [addEntity_of_unloaded h.canTick] at hdeaf ⊢
  exact (h.discardLent e.pos).update hdeaf rfl rfl

theorem removeListener (h : s.Dormant column tickers) (pos : BlockPos) :
    Dormant column tickers { s with chunk := s.chunk.removeListener pos } :=
  h.update (h.toDeaf.removeListener pos) rfl rfl

theorem removeEntity (h : s.Dormant column tickers) (pos : BlockPos) :
    (s.removeEntity pos).2.Dormant column tickers := by
  rw [removeEntity_of_unloaded h.canTick]
  exact (h.removeListener pos).removeTicker pos

theorem evictRemoved (h : s.Dormant column tickers) (pos : BlockPos) :
    (s.evictRemoved pos).Dormant column tickers := by
  unfold Site.evictRemoved
  split
  · exact h
  · split
    · have htaken : Dormant column tickers { s with chunk := { s.chunk with
          entities := s.chunk.entities.swapErase pos } } := h.update ⟨h.place, h.listeners⟩ rfl rfl
      exact (htaken.removeListener pos).removeTicker pos
    · exact h

theorem getEntity (h : s.Dormant column tickers) (cfg : Config α τ) (pos : BlockPos)
    (mode : CreationMode) : (s.getEntity cfg pos mode).2.Dormant column tickers :=
  getEntity_keeps (I := Dormant column tickers)
    (fun _ _ _ h => h.update ⟨h.place, h.listeners⟩ rfl rfl)
    (fun _ h => h.addEntity cfg _) (fun h => h.evictRemoved pos) h mode

/-- An entity that is told about its block, and is not ticked in the new state, registers
nothing. -/
theorem tell (h : s.Dormant column tickers) {e : BlockEntity α}
    (he : s.chunk.entities.find? pos = some e)
    (hquiet : cfg.registry.tickerFor s.level.isClient state e.type = none) :
    (s.tell cfg pos state).Dormant column tickers := by
  unfold Site.tell
  rw [updateTicker_of_unwanted (wantedTicker?_told he hquiet)]
  exact (h.update (c := s.chunk.modifyEntity pos fun e => { e with cachedState := state })
    ⟨h.place, h.listeners⟩ rfl rfl).removeTicker pos

theorem updateEntityState (h : s.Dormant column tickers) (hspares : s.Spares cfg pos state) :
    (s.updateEntityState cfg pos state).2.Dormant column tickers := by
  have hget := h.getEntity cfg pos .check
  unfold Site.updateEntityState
  rw [hspares.lent]
  simp only [Option.isSome_none, Bool.false_eq_true, if_false]
  generalize hout : s.getEntity cfg pos .check = out at hget
  obtain ⟨found, t⟩ := out
  cases found with
  | none => exact hget
  | some e =>
    show (t.tell cfg pos state).Dormant column tickers
    have hclient : t.level.isClient = s.level.isClient := hget.isClient.trans h.isClient.symm
    cases hat : s.chunk.entityAt? pos with
    | some installed =>
      -- the entity was there
      have hsame : s.getEntity cfg pos .check = (some installed, s) := by
        unfold Site.getEntity
        rw [hspares.lent, hat]
        rfl
      cases hout.symm.trans hsame
      exact h.tell (Chunk.entityAt?_eq_some_iff.1 hat).1 (hspares.installed e hat)
    | none =>
      -- it was loaded from saved data
      obtain ⟨hpending, hfound⟩ := getEntity_check_of_none hspares.lent hat hout
      refine hget.tell hfound ?_
      rw [hclient]
      exact hspares.saved hat hpending e.type

theorem attachEntity (h : s.Dormant column tickers) (hspares : s.MaySpare cfg pos state) :
    (s.attachEntity cfg pos state).Dormant column tickers := by
  unfold Site.attachEntity
  split
  · next hentity =>
    have htold := h.updateEntityState (hspares hentity)
    simp only
    split
    · exact htold
    · split
      · exact htold.addEntity cfg _
      · exact htold
  · exact h

variable (hdefault : cfg.DefaultReactions)
include hdefault

/-- **A write that spares entities registers nothing.** -/
theorem setBlock (h : s.Dormant column tickers) (hspares : s.MaySpare cfg pos state)
    (flags : SetFlags) : (s.setBlock cfg pos state flags).2.Dormant column tickers := by
  have hwritten := written_setBlock hdefault s pos state flags
  generalize s.setBlock cfg pos state flags = out at hwritten ⊢
  cases hwritten with
  | kept hsame => exact h.congr hsame
  | lost hsame => exact (h.congr hsame).removeEntity pos
  | @changed t r u old hsame hr hu =>
    have hstored : t.Dormant column tickers := h.congr hsame
    have hleft : r.Dormant column tickers ∧ r.MaySpare cfg pos state := by
      rw [hr]
      split
      · exact ⟨hstored.removeEntity pos, fun hentity =>
          ((hspares hentity).of_belongings hsame).removeEntity hstored.canTick⟩
      · exact ⟨hstored, fun hentity => (hspares hentity).of_belongings hsame⟩
    exact (hleft.1.attachEntity hleft.2).congr hu

/-- **Settling a chunk by writes that spare entities registers nothing.** -/
theorem settleAll (h : s.Dormant column tickers) {view : BlockPos → Except Fault BlockState}
    (hspares : s.SettlesWhere (MaySpare cfg) cfg view) :
    (s.settleAll cfg view).Dormant column tickers :=
  settleAll_keeps (I := Dormant column tickers) (fun h heq => h.congr heq)
    (fun flags h hspares => h.setBlock hdefault hspares flags)
    (fun pos h => h.getEntity cfg pos .check)
    (fun h => h.update ⟨h.place, h.listeners⟩ rfl rfl) view h hspares

theorem edit (h : s.Dormant column tickers) {e : SiteEdit α}
    (hspares : s.WritesWhere (MaySpare cfg) cfg e) : (s.edit cfg e).Dormant column tickers := by
  cases e with
  | setBlock pos state flags => exact h.setBlock hdefault hspares flags
  | getEntity pos mode change =>
    exact edit_getEntity_keeps (I := Dormant column tickers) (h.getEntity cfg pos mode)
      fun h => h.update ⟨h.place, h.listeners⟩ rfl rfl
  | addEntity e => exact h.addEntity cfg e
  | removeEntity pos => exact h.removeEntity pos
  | addPending fields =>
    rw [edit_addPending]
    split
    · exact h.update ⟨h.place, h.listeners⟩ rfl rfl
    · exact h
  | settle view => exact h.settleAll hdefault hspares

end Dormant

/-- **A chunk out of its world registers nothing**, as long as no write finds an entity that is
ticked in the new state: after any run of operations neither the chunk has listeners nor the level
has tickers that were not there before. -/
theorem unregistered_edits (hdefault : cfg.DefaultReactions) (hserver : s.level.isClient = false)
    (hloaded : s.chunk.loaded = false) (h : s.Unregistered) {es : List (SiteEdit α)}
    (hspares : s.EditsWhere (MaySpare cfg) cfg es) :
    (s.edits cfg es).Unregistered ∧ (s.edits cfg es).level.tickers = s.level.tickers := by
  have hplace : s.holdings.1 = (s.chunk.pos, false, false) := by
    unfold holdings
    rw [hloaded, hserver]
  have hstart : s.Dormant s.chunk.pos s.level.tickers := ⟨⟨hplace, h.listeners⟩, rfl, h.names⟩
  have hend : (s.edits cfg es).Dormant s.chunk.pos s.level.tickers :=
    Along.foldl_keeps (fun _ _ h hspares => h.edit hdefault hspares) hstart hspares
  have hpos : (s.edits cfg es).chunk.pos = s.chunk.pos := congrArg Prod.fst hend.place
  refine ⟨⟨hend.listeners, ?_, ?_⟩, hend.slots⟩
  · rw [hend.slots]
    exact hend.names
  · rw [hend.slots, hpos]
    exact h.tickers

end Site

/-! ### Chests out of their world -/

/-- A new chunk of the world of chests that is not in its world yet. -/
def waitingChests : Site Unit Unit :=
  ⟨Chunk.new chestWorld { pos := ⟨0, 0⟩ }, { isClient := false }⟩

/-- A chest is put, another is added and asked for, and saved data is given to the chunk. -/
def waitingEdits : List (SiteEdit Unit) :=
  [.setBlock ⟨3, 5, 4⟩ ⟨1⟩ {},
    .addEntity { type := ⟨"chest"⟩, pos := ⟨3, 5, 5⟩, cachedState := ⟨1⟩, data := () },
    .getEntity ⟨3, 5, 5⟩ .immediate id, .removeEntity ⟨3, 5, 5⟩,
    .addPending [("x", .int 3), ("y", .int 6), ("z", .int 4)]]

theorem waitingEdits_spare :
    waitingChests.EditsWhere (Site.MaySpare chestWorld) chestWorld waitingEdits := by
  unfold Site.EditsWhere waitingEdits
  simp only [Along, Site.WritesWhere, and_true]
  -- nothing is there yet
  have hnone : waitingChests.chunk.entityAt? ⟨3, 5, 4⟩ = none := rfl
  have hsaved : waitingChests.chunk.pending.find? ⟨3, 5, 4⟩ = none := rfl
  refine fun _ => ⟨rfl, fun e he => ?_, fun _ hsome => ?_⟩
  · rw [hnone] at he
    cases he
  · rw [hsaved] at hsome
    cases hsome

/-- The chunk has both chests, and has registered nothing for them. -/
theorem unregistered_chests :
    let t := waitingChests.edits chestWorld waitingEdits
    (t.chunk.entityAt? ⟨3, 5, 4⟩).isSome ∧ (t.chunk.entityAt? ⟨3, 5, 5⟩).isSome ∧
      t.Unregistered ∧ t.level.tickers = waitingChests.level.tickers := by
  have hstart : waitingChests.Unregistered := Site.unregistered_new chestWorld _ _ rfl
  have hend := Site.unregistered_edits chestWorld_default rfl rfl hstart waitingEdits_spare
  exact ⟨by decide +kernel, by decide +kernel, hend⟩

/-- **An entity that is told about its block gets a ticker, wherever its chunk is**: a chest stays
when its block is taken away out of the world, and is told when a chest is put there again. -/
theorem not_unregistered_chests :
    ¬(waitingChests.edits chestWorld [.setBlock ⟨3, 5, 4⟩ ⟨1⟩ {}, .setBlock ⟨3, 5, 4⟩ .air {},
      .setBlock ⟨3, 5, 4⟩ ⟨1⟩ {}]).Unregistered := by
  intro h
  have hticker := h.tickers 0 ⟨⟨3, 5, 4⟩, 0, ⟨"chest"⟩, (), false⟩ (by decide +kernel)
  exact absurd hticker (by decide +kernel)

end VoxelChunk
