import VoxelChunk.Proofs.Chunk.Tickers
import VoxelChunk.Proofs.Listener

/-!
# What a chunk keeps for its block entities

For each position a chunk that can tick its block entities keeps an entity, a ticker and a listener,
or nothing. One equation for each operation tells what is kept for every position afterwards.

## Main definitions

* `Upkeep`, `Site.upkeepAt` — what is kept for a position.
* `Config.upkeepOf` — what an installed entity asks for.
* `Site.Quiet` — a chunk that ticks its entities, and has them all.

## Main results

* `Site.upkeepAt_removeEntity`, `Site.upkeepAt_addEntity`, `Site.upkeepAt_updateEntityState`.
-/

namespace VoxelChunk

variable {α τ : Type}

/-- What a chunk keeps for a position. -/
structure Upkeep (α τ : Type) where
  entity : Option (BlockEntity α) := none
  ticker : Option (ActiveTicker τ) := none
  listener : Option Listener := none

/-- What an installed entity asks for. On a client nothing listens. -/
def Config.upkeepOf (cfg : Config α τ) (isClient : Bool) (e : BlockEntity α) : Upkeep α τ where
  entity := some e
  ticker := (cfg.registry.tickerFor isClient e.cachedState e.type).map fun action =>
    { pos := e.pos, serial := e.serial, type := e.type, action }
  listener := if isClient then none else cfg.registry.listener e

/-! ### Listeners -/

namespace Chunk

/-- The listener registered for a position. -/
def listenerAt? (c : Chunk α) (pos : BlockPos) : Option Listener :=
  Dispatchers.listener? c.dispatchers (sectionCoord pos.y) pos

theorem listenerAt?_addListener (c : Chunk α) {l : Listener} {pos : BlockPos}
    (hl : l.source = pos) (q : BlockPos) :
    (c.addListener (sectionCoord pos.y) l).listenerAt? q =
      if q = pos then some l else c.listenerAt? q := by
  unfold listenerAt? addListener
  rw [Dispatchers.listener?_addListener, hl]
  by_cases h : q = pos
  · rw [if_pos h, if_pos ⟨by rw [h], h⟩]
  · rw [if_neg h, if_neg (fun hc => h hc.2)]

theorem listenerAt?_removeListener (c : Chunk α) (pos q : BlockPos) :
    (c.removeListener pos).listenerAt? q = if q = pos then none else c.listenerAt? q := by
  unfold listenerAt? removeListener
  rw [Dispatchers.listener?_removeListener]
  by_cases h : q = pos
  · rw [if_pos h, if_pos ⟨by rw [h], h⟩]
  · rw [if_neg h, if_neg (fun hc => h hc.2)]

theorem lentAt?_of_none {c : Chunk α} (h : c.lent = none) (pos : BlockPos) :
    c.lentAt? pos = none := by
  unfold lentAt?
  rw [h]
  rfl

theorem modifyLent_of_none {c : Chunk α} (h : c.lent = none) (pos : BlockPos)
    (f : LentEntity → LentEntity) : c.modifyLent pos f = c := by
  unfold modifyLent
  rw [lentAt?_of_none h]

end Chunk

namespace Site

/-- What is kept for a position. -/
def upkeepAt (s : Site α τ) (pos : BlockPos) : Upkeep α τ where
  entity := s.chunk.entities.find? pos
  ticker := s.tickerAt? pos
  listener := s.chunk.listenerAt? pos

/-- The chunk ticks its entities. None of them is out of it to be ticked or waits as saved data,
and on a client none has a listener. -/
structure Quiet (s : Site α τ) : Prop where
  wired : s.Wired
  canTick : s.canTick
  pending : ∀ pos, s.chunk.pending.find? pos = none
  lent : s.chunk.lent = none
  deaf : s.level.isClient → ∀ pos, s.chunk.listenerAt? pos = none

variable {s s' : Site α τ} {pos : BlockPos} {cfg : Config α τ}

/-- Blocks, entities, listeners and the record of what happens may change. -/
theorem Quiet.update (h : s.Quiet) {sections : Sections} {heightmaps : Array (Option Heightmap)}
    {entities : Keyed BlockPos (BlockEntity α)} {nextSerial : UInt32} {dispatchers : Dispatchers}
    {needsSaving : Bool} {events : Option (Array Event)} {notices : Array Notice}
    (hdeaf : s.level.isClient → ∀ pos,
      Dispatchers.listener? dispatchers (sectionCoord pos.y) pos = none) :
    Quiet ({ chunk := { s.chunk with
               sections, heightmaps, entities, nextSerial, dispatchers, needsSaving }
             level := { s.level with events, notices } } : Site α τ) :=
  ⟨⟨h.wired.sound, h.wired.named⟩, h.canTick, h.pending, h.lent, hdeaf⟩

/-! ### Tickers -/

theorem Reticked.quiet {ticker : Option (ActiveTicker τ)} (hr : s.Reticked pos ticker s')
    (h : s.Quiet) : s'.Quiet := by
  have hwired := hr.wired
  obtain ⟨names, tickers, rfl⟩ := hr.only
  exact ⟨hwired, h.canTick, h.pending, h.lent, h.deaf⟩

theorem Reticked.upkeepAt {ticker : Option (ActiveTicker τ)} (hr : s.Reticked pos ticker s')
    (q : BlockPos) :
    s'.upkeepAt q = if q = pos then { s.upkeepAt q with ticker } else s.upkeepAt q := by
  have hticker := hr.tickerAt? q
  obtain ⟨names, tickers, rfl⟩ := hr.only
  unfold Site.upkeepAt
  rw [hticker]
  split <;> rfl

/-! ### Removing an entity -/

theorem takeEntity_eq (h : s.chunk.lent = none) (pos : BlockPos) :
    ∃ entities events, (s.takeEntity pos).2 =
      { chunk := { s.chunk with entities }, level := { s.level with events } } := by
  unfold takeEntity
  rw [Chunk.lentAt?_of_none h]
  split
  · exact ⟨_, _, rfl⟩
  · exact ⟨s.chunk.entities, s.level.events, rfl⟩

/-- **A removed entity leaves nothing behind**, and what is kept for other positions stays. -/
theorem upkeepAt_removeEntity (h : s.Quiet) (pos : BlockPos) :
    (s.removeEntity pos).2.Quiet ∧ ∀ q, (s.removeEntity pos).2.upkeepAt q =
      if q = pos then {} else s.upkeepAt q := by
  unfold removeEntity
  rw [if_pos h.canTick]
  simp only
  have hentities : ∀ q, (s.takeEntity pos).2.chunk.entities.find? q =
      if q = pos then none else s.chunk.entities.find? q :=
    fun q => find?_takeEntity q
  obtain ⟨entities, events, htaken⟩ := takeEntity_eq h.lent pos
  rw [htaken] at hentities ⊢
  -- the site when the entity and its listener are gone
  generalize hleft : ({ chunk := Chunk.removeListener { s.chunk with entities } pos
                        level := { s.level with events } } : Site α τ) = left
  have hlistener : ∀ q, left.chunk.listenerAt? q =
      if q = pos then none else s.chunk.listenerAt? q := by
    rw [← hleft]
    exact Chunk.listenerAt?_removeListener _ pos
  have hquiet : left.Quiet := by
    rw [← hleft] at hlistener ⊢
    refine h.update fun hc q => (hlistener q).trans ?_
    rw [h.deaf hc]
    exact ite_self none
  have hupkeep : ∀ q, left.upkeepAt q =
      { entity := if q = pos then none else s.chunk.entities.find? q
        ticker := s.tickerAt? q
        listener := if q = pos then none else s.chunk.listenerAt? q } := by
    intro q
    rw [← hlistener, ← hentities, ← hleft]
    rfl
  have hspec : left.Reticked pos none (left.removeTicker pos) := removeTicker_spec hquiet.wired
  refine ⟨hspec.quiet hquiet, fun q => ?_⟩
  rw [hspec.upkeepAt, hupkeep]
  unfold Site.upkeepAt
  by_cases hq : q = pos
  · simp only [if_pos hq]
  · simp only [if_neg hq]

/-! ### What an installed entity asks for -/

@[simp] theorem entities_updateListener (s : Site α τ) (cfg : Config α τ) (pos : BlockPos) :
    (s.updateListener cfg pos).chunk.entities = s.chunk.entities := by
  unfold updateListener
  split
  · rfl
  · split <;> rfl

section Installed

variable {e : BlockEntity α} (h : s.Quiet) (he : s.chunk.entities.find? pos = some e)
  (hr : e.removed = false)
include h he hr

theorem upkeepAt_updateTicker (cfg : Config α τ) (hp : e.pos = pos) :
    (s.updateTicker cfg pos).Quiet ∧ ∀ q, (s.updateTicker cfg pos).upkeepAt q =
      if q = pos then
        { s.upkeepAt q with ticker := (cfg.upkeepOf s.level.isClient e).ticker }
      else s.upkeepAt q := by
  have hspec : s.Reticked pos (s.wantedTicker? cfg pos) (s.updateTicker cfg pos) :=
    updateTicker_spec h.wired
  refine ⟨hspec.quiet h, fun q => ?_⟩
  have hwanted : s.wantedTicker? cfg pos = (cfg.upkeepOf s.level.isClient e).ticker := by
    unfold wantedTicker? tickedAt?
    rw [he, ← hp]
    simp only [hr]
    rfl
  rw [hspec.upkeepAt, hwanted]

theorem upkeepAt_updateListener
    (hl : ∀ l, cfg.registry.listener e = some l → l.source = pos) :
    (s.updateListener cfg pos).Quiet ∧ ∀ q, (s.updateListener cfg pos).upkeepAt q =
      if q = pos then
        { s.upkeepAt q with listener := (cfg.upkeepOf s.level.isClient e).listener }
      else s.upkeepAt q := by
  have hat : s.chunk.entityAt? pos = some e := by
    unfold Chunk.entityAt?
    rw [he, Option.filter_some, hr]
    rfl
  unfold updateListener
  rw [hat, Option.bind_some]
  split
  · -- on a client nothing is done, and nothing is asked for
    next hc =>
    refine ⟨h, fun q => ?_⟩
    split
    · unfold Site.upkeepAt Config.upkeepOf
      rw [h.deaf hc, if_pos hc]
    · rfl
  · next hc =>
    have hown : (cfg.upkeepOf s.level.isClient e).listener = cfg.registry.listener e := if_neg hc
    rw [hown]
    -- either way only the listener of this position changes
    have hchanged : ∀ dispatchers : Dispatchers, (∀ q,
        Dispatchers.listener? dispatchers (sectionCoord q.y) q =
          if q = pos then cfg.registry.listener e else s.chunk.listenerAt? q) →
        Quiet ({ s with chunk := { s.chunk with dispatchers } } : Site α τ) ∧ ∀ q,
          upkeepAt ({ s with chunk := { s.chunk with dispatchers } } : Site α τ) q =
            if q = pos then { s.upkeepAt q with listener := cfg.registry.listener e }
            else s.upkeepAt q := by
      intro dispatchers hd
      refine ⟨h.update fun hclient => absurd hclient hc, fun q => ?_⟩
      unfold Site.upkeepAt
      rw [show Chunk.listenerAt? { s.chunk with dispatchers } q = _ from hd q]
      split <;> rfl
    cases hlistener : cfg.registry.listener e with
    | none =>
      rw [hlistener] at hchanged
      exact hchanged _ (Chunk.listenerAt?_removeListener s.chunk pos)
    | some l =>
      rw [hlistener] at hchanged
      exact hchanged _ (Chunk.listenerAt?_addListener s.chunk (hl l hlistener))

end Installed

/-! ### Installing an entity -/

/-- The entity as it is once it is installed. -/
def installed (s : Site α τ) (e : BlockEntity α) : BlockEntity α :=
  { e with hasWorld := true, removed := false, serial := s.chunk.nextSerial }

/-- The site with an entity installed, and nothing yet of what it asks for. -/
def withEntity (s : Site α τ) (e : BlockEntity α) : Site α τ :=
  Site.push { s with chunk := { s.chunk with
    nextSerial := s.chunk.nextSerial + 1
    entities := s.chunk.entities.insert e.pos (s.installed e) } } (.entitySet e.pos)

theorem addEntity_eq (h : s.Quiet) (e : BlockEntity α) :
    s.addEntity cfg e = ((s.withEntity e).updateListener cfg e.pos).updateTicker cfg e.pos := by
  unfold addEntity
  simp only [Chunk.modifyLent_of_none h.lent]
  exact if_pos h.canTick

theorem upkeepAt_withEntity (s : Site α τ) (e : BlockEntity α) (q : BlockPos) :
    (s.withEntity e).upkeepAt q =
      { s.upkeepAt q with
        entity := if q = e.pos then some (s.installed e) else s.chunk.entities.find? q } := by
  rw [← Keyed.find?_insert]
  rfl

/-- **An installed entity gets what it asks for**, and what is kept for other positions stays. -/
theorem upkeepAt_addEntity (h : s.Quiet) {e : BlockEntity α}
    (hl : ∀ l, cfg.registry.listener (s.installed e) = some l → l.source = e.pos) :
    (s.addEntity cfg e).Quiet ∧ ∀ q, (s.addEntity cfg e).upkeepAt q =
      if q = e.pos then cfg.upkeepOf s.level.isClient (s.installed e) else s.upkeepAt q := by
  -- first the entity, then its listener, then its ticker
  have hquiet : (s.withEntity e).Quiet := h.update h.deaf
  have hentity : (s.withEntity e).chunk.entities.find? e.pos = some (s.installed e) :=
    (Keyed.find?_insert ..).trans (if_pos rfl)
  obtain ⟨hquiet', hheard⟩ := upkeepAt_updateListener hquiet hentity rfl hl
  have hground : ((s.withEntity e).updateListener cfg e.pos).ground = (s.withEntity e).ground :=
    ground_updateListener ..
  have hentity' : ((s.withEntity e).updateListener cfg e.pos).chunk.entities.find? e.pos =
      some (s.installed e) := by
    rw [entities_updateListener, hentity]
  obtain ⟨hquiet'', hticked⟩ := upkeepAt_updateTicker hquiet' hentity' rfl cfg rfl
  rw [addEntity_eq h]
  refine ⟨hquiet'', fun q => (hticked q).trans ?_⟩
  rw [isClient_eq hground, hheard, upkeepAt_withEntity]
  by_cases hq : q = e.pos
  · simp only [if_pos hq]
    rfl
  · simp only [if_neg hq]
    rfl

/-! ### Telling an entity about its block -/

theorem updateEntityState_of_none (h : s.Quiet) (he : s.chunk.entities.find? pos = none)
    (state : BlockState) : s.updateEntityState cfg pos state = (false, s) := by
  have hat : s.chunk.entityAt? pos = none := by
    unfold Chunk.entityAt?
    rw [he]
    rfl
  have hget : s.getEntity cfg pos .check = (none, s) := by
    unfold getEntity evictRemoved loadPending
    rw [Chunk.lentAt?_of_none h.lent, hat, he]
    simp only [h.pending]
    rfl
  unfold updateEntityState
  rw [Chunk.lentAt?_of_none h.lent, hget]
  rfl

/-- **An entity that is told about its block gets the ticker that its new state asks for.** -/
theorem upkeepAt_updateEntityState (cfg : Config α τ) (h : s.Quiet) {e : BlockEntity α}
    (he : s.chunk.entities.find? pos = some e) (hr : e.removed = false) (hp : e.pos = pos)
    (state : BlockState) :
    let told : BlockEntity α := { e with cachedState := state }
    (s.updateEntityState cfg pos state).1 = true ∧
      (s.updateEntityState cfg pos state).2.Quiet ∧
      ∀ q, (s.updateEntityState cfg pos state).2.upkeepAt q =
        if q = pos then
          { cfg.upkeepOf s.level.isClient told with listener := s.chunk.listenerAt? pos }
        else s.upkeepAt q := by
  intro told
  have hat : s.chunk.entityAt? pos = some e := by
    unfold Chunk.entityAt?
    rw [he, Option.filter_some, hr]
    rfl
  have hget : s.getEntity cfg pos .check = (some e, s) := by
    unfold getEntity
    rw [Chunk.lentAt?_of_none h.lent, hat]
    rfl
  unfold updateEntityState
  rw [Chunk.lentAt?_of_none h.lent, hget]
  simp only [Option.isSome_none, Bool.false_eq_true, if_false]
  have hfound := fun q => Keyed.find?_modify s.chunk.entities pos
    (fun e => { e with cachedState := state }) q
  have hquiet : Quiet ({ s with chunk := s.chunk.modifyEntity pos fun e =>
      { e with cachedState := state } } : Site α τ) := h.update h.deaf
  have hentity := (hfound pos).trans (if_pos rfl)
  rw [he, Option.map_some] at hentity
  obtain ⟨hquiet', hticked⟩ := upkeepAt_updateTicker hquiet hentity hr cfg hp
  refine ⟨trivial, hquiet', fun q => (hticked q).trans ?_⟩
  unfold Site.upkeepAt
  by_cases hq : q = pos
  · rw [if_pos hq, if_pos hq, hq]
    exact congrArg (fun entity => (⟨entity, _, _⟩ : Upkeep α τ)) hentity
  · have hother := hfound q
    rw [if_neg hq] at hother
    rw [if_neg hq, if_neg hq]
    exact congrArg (fun entity => (⟨entity, _, _⟩ : Upkeep α τ)) hother

end Site

end VoxelChunk
