import Mathlib.Logic.ExistsUnique
import VoxelChunk.Proofs.World.Owners

/-!
# Passes over all tickers

In a pass the slots are visited one after another, whatever tickers do to the world meanwhile. A
ticker is called exactly if all is ready for it at that moment, and an entity that is ready at the
start and not disturbed is ticked exactly once.

## Main definitions

* `Tickers.slotsOf` — the slots of the tickers for one entity.
* `World.Ready` — all that must be so for the ticker in a slot to be called.
* `World.amid`, `World.call?` — the world amid a pass, and the call that is made there.
* `World.Undisturbed` — what matters for an entity to be ticked is the same.

## Main results

* `World.invocation?_eq_some_iff` — a ticker is called exactly if all is ready.
* `World.tickEntities_eq_some_iff` — a pass visits the slots in order.
* `World.slotsOf_amid`, `World.Ready.undisturbed_amid` — an entity that is not disturbed stays ready.
* `World.ticked_once` — what a pass does.
-/

namespace VoxelChunk

variable {α τ σ : Type}

/-! ### The tickers for one entity -/

namespace Tickers

variable {t t' : Tickers τ} {pos : BlockPos} {serial : UInt32} {index : Nat} {type : EntityType}

/-- The slots of the active tickers for the entity with a serial at a position, with the types that
they tick. -/
def slotsOf (t : Tickers τ) (pos : BlockPos) (serial : UInt32) : List (Nat × EntityType) :=
  (List.range t.slotCount).filterMap fun index =>
    ((t.activeAt? index).filter fun ticker => ticker.pos = pos ∧ ticker.serial = serial).map
      fun ticker => (index, ticker.type)

theorem lt_slotCount_of_activeAt? {ticker : ActiveTicker τ} (h : t.activeAt? index = some ticker) :
    index < t.slotCount := by
  obtain ⟨slot, hslot, -⟩ := Option.bind_eq_some_iff.1 h
  exact (Array.getElem?_eq_some_iff.1 hslot).1

theorem mem_slotsOf : (index, type) ∈ t.slotsOf pos serial ↔
    ∃ ticker, t.activeAt? index = some ticker ∧ ticker.pos = pos ∧ ticker.serial = serial ∧
      ticker.type = type := by
  unfold slotsOf
  simp only [List.mem_filterMap, List.mem_range, Option.map_eq_some_iff, Option.filter_eq_some_iff,
    decide_eq_true_eq, Prod.mk.injEq]
  constructor
  · rintro ⟨_, -, ticker, ⟨hat, hpos, hserial⟩, rfl, htype⟩
    exact ⟨ticker, hat, hpos, hserial, htype⟩
  · rintro ⟨ticker, hat, hpos, hserial, htype⟩
    exact ⟨index, lt_slotCount_of_activeAt? hat, ticker, ⟨hat, hpos, hserial⟩, rfl, htype⟩

/-- It does not matter how many slots without a ticker are looked at. -/
theorem slotsOf_eq {count : Nat} (h : t.slotCount ≤ count) : t.slotsOf pos serial =
    (List.range count).filterMap fun index =>
      ((t.activeAt? index).filter fun ticker => ticker.pos = pos ∧ ticker.serial = serial).map
        fun ticker => (index, ticker.type) := by
  obtain ⟨more, rfl⟩ := Nat.exists_eq_add_of_le h
  rw [List.range_add, List.filterMap_append, slotsOf, List.self_eq_append_right,
    List.filterMap_eq_nil_iff]
  intro index hindex
  obtain ⟨i, -, rfl⟩ := List.mem_map.1 hindex
  have hnone : t.activeAt? (t.slotCount + i) = none := by
    refine Option.eq_none_iff_forall_ne_some.2 fun ticker hat => ?_
    exact absurd (lt_slotCount_of_activeAt? hat) (by omega)
  rw [hnone]
  rfl

/-- The tickers for an entity are the same if all slots tick the same. -/
theorem slotsOf_congr (h : ∀ index, (t'.activeAt? index).map ActiveTicker.key =
    (t.activeAt? index).map ActiveTicker.key) : t'.slotsOf pos serial = t.slotsOf pos serial := by
  rw [slotsOf_eq (Nat.le_max_left t'.slotCount t.slotCount),
    slotsOf_eq (Nat.le_max_right t'.slotCount t.slotCount)]
  refine List.filterMap_congr fun index _ => ?_
  have hkey := h index
  cases hat : t.activeAt? index with
  | none =>
    rw [hat, Option.map_none, Option.map_eq_none_iff] at hkey
    rw [hkey]
  | some ticker =>
    rw [hat, Option.map_some] at hkey
    obtain ⟨ticker', hat', heq⟩ := Option.map_eq_some_iff.1 hkey
    simp only [ActiveTicker.key, Prod.mk.injEq] at heq
    rw [hat', Option.filter_some, Option.filter_some, heq.1, heq.2.2]
    split
    · rw [Option.map_some, Option.map_some, heq.2.1]
    · rfl

end Tickers

/-- The tickers for an entity are the same if the same names stand for tickers of the same
entities. -/
theorem Level.SameTickers.slotsOf_eq {l l' : Level τ} (h : l.SameTickers l') (pos : BlockPos)
    (serial : UInt32) : l'.tickers.slotsOf pos serial = l.tickers.slotsOf pos serial := by
  refine Tickers.slotsOf_congr fun index => Option.ext fun key => ?_
  simp only [Option.map_eq_some_iff, Tickers.activeAt?_eq_some_iff]
  constructor
  · rintro ⟨ticker', ⟨generation, hget'⟩, rfl⟩
    have hkey := h.key ⟨index, generation⟩
    rw [hget', Option.map_some] at hkey
    obtain ⟨ticker, hget, heq⟩ := Option.map_eq_some_iff.1 hkey.symm
    exact ⟨ticker, ⟨generation, hget⟩, heq⟩
  · rintro ⟨ticker, ⟨generation, hget⟩, rfl⟩
    have hkey := h.key ⟨index, generation⟩
    rw [hget, Option.map_some] at hkey
    obtain ⟨ticker', hget', heq⟩ := Option.map_eq_some_iff.1 hkey
    exact ⟨ticker', ⟨generation, hget'⟩, heq⟩

/-- What is put back into a chunk changes no blocks. -/
theorem Chunk.returnEntity_frame (cfg : Config α τ) (c : Chunk α) (back : BlockEntity α)
    (pos : BlockPos) : (c.returnEntity back).stage = c.stage ∧
      (c.returnEntity back).loaded = c.loaded ∧
      (c.returnEntity back).blockAt cfg pos = c.blockAt cfg pos := by
  unfold Chunk.returnEntity
  split
  · exact ⟨rfl, rfl, rfl⟩
  · simp only
    split <;> exact ⟨rfl, rfl, rfl⟩

/-- What is put back into a chunk changes nothing where an entity is installed. -/
theorem Chunk.entityAt?_returnEntity {c : Chunk α} {pos : BlockPos} {e : BlockEntity α}
    (he : c.entityAt? pos = some e) (back : BlockEntity α) :
    (c.returnEntity back).entityAt? pos = c.entityAt? pos := by
  have hfound := (Chunk.entityAt?_eq_some_iff.1 he).1
  unfold Chunk.returnEntity
  split
  · rfl
  · next lent _ =>
    simp only
    split
    · rfl
    · next hback =>
      unfold Chunk.entityAt?
      refine congrArg _ ((Keyed.find?_insert ..).trans (if_neg ?_))
      rintro rfl
      refine hback (Bool.or_eq_true_iff.2 (Or.inr ?_))
      unfold Keyed.contains
      rw [hfound]
      rfl

/-! ### Calls -/

/-- The state of a block is read from the chunk alone. -/
theorem Site.fst_blockAt_congr {c c' : Chunk α} (cfg : Config α τ) (l l' : Level τ) {pos : BlockPos}
    (h : c'.blockAt cfg pos = c.blockAt cfg pos) :
    (Site.blockAt ⟨c', l'⟩ cfg pos).1 = (Site.blockAt ⟨c, l⟩ cfg pos).1 := by
  unfold Site.blockAt
  rw [h]
  cases c.blockAt cfg pos <;> rfl

namespace World

/-- All that must be so for the ticker in a slot to be called: the slot is active, the chunk at its
position is there and block entities are ticked in it, the entity that is installed there and not
removed is the one of the ticker, and its type supports the state of the block. -/
structure Ready (cfg : Config α τ) (w : World α τ σ) (index : Nat) (ticker : ActiveTicker τ)
    (c : Chunk α) (e : BlockEntity α) : Prop where
  active : w.level.tickers.activeAt? index = some ticker
  chunk : w.chunk? (.ofBlock ticker.pos) = some c
  ticking : c.isTicking
  canTick : Site.canTick ⟨c, w.level⟩
  supports : cfg.registry.supports ticker.type (Site.blockAt ⟨c, w.level⟩ cfg ticker.pos).1
  installed : c.entityAt? ticker.pos = some e
  serial : e.serial = ticker.serial

variable {cfg : Config α τ} {run : TickerRunner α τ σ} {w w' : World α τ σ} {index n : Nat}
  {pos : BlockPos} {serial : UInt32} {ticker : ActiveTicker τ} {c : Chunk α} {e : BlockEntity α}
  {i : Invocation α τ}

/-- **A ticker is called exactly if all is ready**, with the entity and the state of its block. -/
theorem invocation?_eq_some_iff : (w.invocation? cfg index).1 = some i ↔
    ∃ ticker c, w.Ready cfg index ticker c i.entity ∧ i.action = ticker.action ∧
      i.pos = ticker.pos ∧ i.state = (Site.blockAt ⟨c, w.level⟩ cfg ticker.pos).1 := by
  constructor
  · intro hi
    unfold invocation? at hi
    cases hticker : w.level.tickers.activeAt? index with
    | none =>
      rw [hticker] at hi
      cases hi
    | some ticker =>
      simp only [hticker] at hi
      cases hsite : w.site? (.ofBlock ticker.pos) with
      | none =>
        rw [hsite] at hi
        cases hi
      | some s =>
        simp only [hsite] at hi
        obtain ⟨c, hc, rfl⟩ := Option.map_eq_some_iff.1 hsite
        split at hi
        · next hticks =>
          rw [Bool.and_eq_true] at hticks
          split at hi
          · next hsupports =>
            unfold Chunk.lendEntity? at hi
            have hchunk : (Site.blockAt ⟨c, w.level⟩ cfg ticker.pos).2.chunk = c := rfl
            rw [hchunk] at hi
            cases he : c.entityAt? ticker.pos with
            | none =>
              rw [he] at hi
              cases hi
            | some e =>
              simp only [he] at hi
              by_cases hserial : e.serial = ticker.serial
              · rw [if_pos hserial] at hi
                cases hi
                exact ⟨ticker, c, ⟨hticker, hc, hticks.1, hticks.2, hsupports, he, hserial⟩, rfl,
                  rfl, rfl⟩
              · rw [if_neg hserial] at hi
                cases hi
          · cases hi
        · cases hi
  · rintro ⟨ticker, c, hready, haction, hpos, hstate⟩
    obtain ⟨action, pos, state, e⟩ := i
    obtain rfl : action = ticker.action := haction
    obtain rfl : pos = ticker.pos := hpos
    obtain rfl : state = (Site.blockAt ⟨c, w.level⟩ cfg ticker.pos).1 := hstate
    have hsite : w.site? (.ofBlock ticker.pos) = some ⟨c, w.level⟩ :=
      site?_eq_some_iff.2 ⟨hready.chunk, rfl⟩
    have hticks : (c.isTicking && Site.canTick ⟨c, w.level⟩) = true :=
      Bool.and_eq_true_iff.2 ⟨hready.ticking, hready.canTick⟩
    have hlent : c.lendEntity? ticker.pos ticker.serial = some (e, { c with
        entities := c.entities.swapErase ticker.pos
        lent := some ⟨ticker.pos, ticker.serial, e.type, e.cachedState, false⟩ }) := by
      unfold Chunk.lendEntity?
      rw [hready.installed]
      exact if_pos hready.serial
    have hchunk : (Site.blockAt ⟨c, w.level⟩ cfg ticker.pos).2.chunk = c := rfl
    unfold invocation?
    simp only [hready.active, hsite, hticks, hready.supports, hchunk, hlent, if_true]

/-! ### The course of a pass -/

/-- The world amid a pass, before the slot with the given index is visited. -/
def amid (cfg : Config α τ) (run : TickerRunner α τ σ) (w : World α τ σ) : Nat → World α τ σ
  | 0 => w
  | index + 1 => (amid cfg run w index).visitSlot cfg run index

/-- The call that is made when a slot is visited in a pass. -/
def call? (cfg : Config α τ) (run : TickerRunner α τ σ) (w : World α τ σ) (index : Nat) :
    Option (Invocation α τ) :=
  ((w.amid cfg run index).invocation? cfg index).1

/-- The world that a ticker gets when its slot is visited in a pass. -/
def handed (cfg : Config α τ) (run : TickerRunner α τ σ) (w : World α τ σ) (index : Nat) :
    World α τ σ :=
  ((w.amid cfg run index).invocation? cfg index).2

/-- The world and the entity as they are when the ticker has been called. -/
def acted (cfg : Config α τ) (run : TickerRunner α τ σ) (w : World α τ σ) (index : Nat)
    (i : Invocation α τ) : World α τ σ × BlockEntity α :=
  run i.action (w.handed cfg run index) i.pos i.state i.entity

/-- The pass ends with the given number of visits: as long as there are slots that have not been
visited, the next one is. -/
structure Passes (cfg : Config α τ) (run : TickerRunner α τ σ) (w : World α τ σ) (visits : Nat) :
    Prop where
  visited : ∀ index < visits, index < (w.amid cfg run index).level.tickers.slotCount
  ended : (w.amid cfg run visits).level.tickers.slotCount ≤ visits

theorem amid_succ_of_none (h : w.call? cfg run n = none) :
    w.amid cfg run (n + 1) = w.handed cfg run n := by
  unfold call? at h
  unfold handed
  rw [amid, visitSlot]
  generalize (w.amid cfg run n).invocation? cfg n = visit at h ⊢
  obtain ⟨lent, u⟩ := visit
  cases h
  rfl

theorem amid_succ_of_some (h : w.call? cfg run n = some i) : w.amid cfg run (n + 1) =
    (w.acted cfg run n i).1.returnEntity i.pos (w.acted cfg run n i).2 := by
  unfold call? at h
  unfold acted handed
  rw [amid, visitSlot]
  generalize (w.amid cfg run n).invocation? cfg n = visit at h ⊢
  obtain ⟨lent, u⟩ := visit
  cases h
  rfl

/-- Slots are visited in order of their indices. -/
theorem visitSlots_eq_some_iff {fuel : Nat} :
    visitSlots cfg run fuel (w.amid cfg run n) n = some w' ↔ ∃ visits, n ≤ visits ∧
      visits ≤ n + fuel ∧
      (∀ index, n ≤ index → index < visits →
        index < (w.amid cfg run index).level.tickers.slotCount) ∧
      (w.amid cfg run visits).level.tickers.slotCount ≤ visits ∧ w' = w.amid cfg run visits := by
  induction fuel generalizing n with
  | zero =>
    unfold visitSlots
    constructor
    · intro h
      split at h
      · cases h
      · next hend =>
        cases h
        exact ⟨n, Nat.le_refl n, Nat.le_refl n, fun index hle hlt => absurd hlt (by omega),
          by omega, rfl⟩
    · rintro ⟨visits, hle, hfuel, -, hend, rfl⟩
      obtain rfl : visits = n := by omega
      exact if_neg (by omega)
  | succ fuel ih =>
    unfold visitSlots
    have hstep : (w.amid cfg run n).visitSlot cfg run n = w.amid cfg run (n + 1) := rfl
    rw [hstep]
    constructor
    · intro h
      split at h
      · next hslot =>
        obtain ⟨visits, hle, hfuel, hvisited, hend, rfl⟩ := ih.1 h
        refine ⟨visits, by omega, by omega, fun index hle' hlt => ?_, hend, rfl⟩
        rcases Nat.eq_or_lt_of_le hle' with rfl | hlater
        · exact hslot
        · exact hvisited index hlater hlt
      · next hend =>
        cases h
        exact ⟨n, Nat.le_refl n, by omega, fun index hle hlt => absurd hlt (by omega), by omega,
          rfl⟩
    · rintro ⟨visits, hle, hfuel, hvisited, hend, rfl⟩
      rcases Nat.eq_or_lt_of_le hle with rfl | hlater
      · exact if_neg (by omega)
      · rw [if_pos (hvisited n (Nat.le_refl n) hlater)]
        exact ih.2 ⟨visits, hlater, by omega, fun index hle' hlt => hvisited index (by omega) hlt,
          hend, rfl⟩

/-- **A pass visits all slots once, in order of their indices**, also those that come meanwhile, and
then reaps. -/
theorem tickEntities_eq_some_iff {fuel : Nat} : w.tickEntities cfg run fuel = some w' ↔
    ∃ visits ≤ fuel, w.Passes cfg run visits ∧ w' = (w.amid cfg run visits).reapTickers := by
  unfold tickEntities
  rw [Option.map_eq_some_iff]
  constructor
  · rintro ⟨u, hu, rfl⟩
    have hu : visitSlots cfg run fuel (w.amid cfg run 0) 0 = some u := hu
    obtain ⟨visits, -, hfuel, hvisited, hend, rfl⟩ := visitSlots_eq_some_iff.1 hu
    exact ⟨visits, by omega, ⟨fun index hlt => hvisited index (Nat.zero_le index) hlt, hend⟩, rfl⟩
  · rintro ⟨visits, hfuel, hpasses, rfl⟩
    have hu : visitSlots cfg run fuel (w.amid cfg run 0) 0 = some (w.amid cfg run visits) :=
      visitSlots_eq_some_iff.2 ⟨visits, Nat.zero_le visits, by omega,
        fun index _ hlt => hpasses.visited index hlt, hpasses.ended, rfl⟩
    exact ⟨w.amid cfg run visits, hu, rfl⟩

/-! ### What matters for an entity to be ticked -/

/-- What matters of the chunk and the block for an entity to be ticked. -/
structure Footing where
  stage : Stage
  loaded : Bool
  /-- The serial of the entity that is installed and not removed. -/
  installed : Option UInt32
  state : BlockState
  deriving DecidableEq

/-- What matters at a position for an entity to be ticked, if there is a chunk. -/
def footing? (cfg : Config α τ) (w : World α τ σ) (pos : BlockPos) : Option Footing :=
  (w.chunk? (.ofBlock pos)).map fun c =>
    ⟨c.stage, c.loaded, (c.entityAt? pos).map BlockEntity.serial,
      (Site.blockAt ⟨c, w.level⟩ cfg pos).1⟩

/-- What matters for the entity with a serial at a position to be ticked is the same: its tickers,
whether it is installed, the state of its block, the presence and the stage of its chunk and whether
that is loaded. Whether the world is a client's does not change. -/
structure Undisturbed (cfg : Config α τ) (pos : BlockPos) (serial : UInt32) (w w' : World α τ σ) :
    Prop where
  slots : w'.level.tickers.slotsOf pos serial = w.level.tickers.slotsOf pos serial
  isClient : w'.level.isClient = w.level.isClient
  footing : w'.footing? cfg pos = w.footing? cfg pos

instance (cfg : Config α τ) (pos : BlockPos) (serial : UInt32) (w w' : World α τ σ) :
    Decidable (Undisturbed cfg pos serial w w') :=
  decidable_of_iff (w'.level.tickers.slotsOf pos serial = w.level.tickers.slotsOf pos serial ∧
    w'.level.isClient = w.level.isClient ∧ w'.footing? cfg pos = w.footing? cfg pos)
    ⟨fun h => ⟨h.1, h.2.1, h.2.2⟩, fun h => ⟨h.slots, h.isClient, h.footing⟩⟩

theorem Ready.footing?_eq (h : w.Ready cfg index ticker c e) : w.footing? cfg ticker.pos =
    some ⟨c.stage, c.loaded, some ticker.serial,
      (Site.blockAt ⟨c, w.level⟩ cfg ticker.pos).1⟩ := by
  unfold footing?
  rw [h.chunk, Option.map_some, h.installed, Option.map_some, h.serial]

/-- All is ready still for a ticker of the same entity in a world in which nothing that matters at
its position has changed. -/
theorem Ready.of_footing {index' : Nat} {ticker' : ActiveTicker τ}
    (h : w.Ready cfg index ticker c e)
    (hactive : w'.level.tickers.activeAt? index' = some ticker') (hkey : ticker'.key = ticker.key)
    (hclient : w'.level.isClient = w.level.isClient)
    (hfooting : w'.footing? cfg ticker.pos = w.footing? cfg ticker.pos) :
    ∃ c' e', w'.Ready cfg index' ticker' c' e' := by
  simp only [ActiveTicker.key, Prod.mk.injEq] at hkey
  obtain ⟨hpos, htype, hserial⟩ := hkey
  rw [h.footing?_eq] at hfooting
  obtain ⟨c', hc', heq⟩ := Option.map_eq_some_iff.1 hfooting
  simp only [Footing.mk.injEq] at heq
  obtain ⟨hstage, hloaded, hinstalled, hstate⟩ := heq
  obtain ⟨e', he', hserial'⟩ := Option.map_eq_some_iff.1 hinstalled
  refine ⟨c', e', hactive, hpos ▸ hc', ?_, ?_, ?_, hpos ▸ he', ?_⟩
  · have hticking := h.ticking
    unfold Chunk.isTicking at hticking ⊢
    rw [hstage]
    exact hticking
  · have hcan := h.canTick
    unfold Site.canTick at hcan ⊢
    rw [hloaded, hclient]
    exact hcan
  · rw [htype, hpos, hstate]
    exact h.supports
  · rw [hserial', hserial]

theorem Undisturbed.refl (w : World α τ σ) : Undisturbed cfg pos serial w w := ⟨rfl, rfl, rfl⟩

theorem Undisturbed.trans {w'' : World α τ σ} (h : Undisturbed cfg pos serial w w')
    (h' : Undisturbed cfg pos serial w' w'') : Undisturbed cfg pos serial w w'' :=
  ⟨h'.slots.trans h.slots, h'.isClient.trans h.isClient, h'.footing.trans h.footing⟩

theorem sameTickers_invocation? (w : World α τ σ) (cfg : Config α τ) (index : Nat) :
    w.level.SameTickers (w.invocation? cfg index).2.level := by
  have hv := visited_invocation? w cfg index
  generalize w.invocation? cfg index = visit at hv ⊢
  cases hv with
  | idle level hl => exact hl
  | lent ticker c e level _ _ _ _ _ hl => exact hl

@[simp] theorem level_returnEntity (w : World α τ σ) (pos : BlockPos) (e : BlockEntity α) :
    (w.returnEntity pos e).level = w.level := by
  unfold World.returnEntity
  split <;> rfl

/-- The level does not matter for what there is at a position. -/
theorem footing?_relevel (w : World α τ σ) (cfg : Config α τ) (pos : BlockPos) (level : Level τ) :
    footing? cfg { w with level } pos = w.footing? cfg pos := by
  refine congrArg (fun f => (w.chunk? (.ofBlock pos)).map f) (funext fun c => ?_)
  rw [Site.fst_blockAt_congr cfg w.level level rfl]

/-- One chunk is replaced by another in which all that matters at the position is the same. -/
theorem footing?_insert {column : ChunkPos} {c' : Chunk α} (hc : w.chunk? column = some c)
    (hstage : c'.stage = c.stage) (hloaded : c'.loaded = c.loaded)
    (hblock : c'.blockAt cfg pos = c.blockAt cfg pos)
    (hat : ChunkPos.ofBlock pos = column → c'.entityAt? pos = c.entityAt? pos) :
    footing? cfg { w with chunks := w.chunks.insert column c' } pos = w.footing? cfg pos := by
  have hfound : ({ w with chunks := w.chunks.insert column c' } : World α τ σ).chunk?
      (.ofBlock pos) = if ChunkPos.ofBlock pos = column then some c' else w.chunk? (.ofBlock pos) :=
    Keyed.find?_insert ..
  unfold footing?
  rw [hfound]
  split
  · next heq =>
    rw [heq, hc, Option.map_some, Option.map_some, hstage, hloaded, hat heq,
      Site.fst_blockAt_congr cfg w.level w.level hblock]
  · rfl

/-- When an entity is taken out at another position, nothing that matters changes. -/
theorem undisturbed_invocation? (w : World α τ σ) (cfg : Config α τ) (index : Nat)
    (helsewhere : ∀ i, (w.invocation? cfg index).1 = some i → i.pos ≠ pos) :
    Undisturbed cfg pos serial w (w.invocation? cfg index).2 := by
  have hsame := sameTickers_invocation? w cfg index
  refine ⟨hsame.slotsOf_eq pos serial, hsame.isClient, ?_⟩
  have hv := visited_invocation? w cfg index
  generalize w.invocation? cfg index = visit at hv helsewhere ⊢
  cases hv with
  | idle level _ => exact footing?_relevel w cfg pos level
  | lent ticker c e level _ hc _ _ _ _ =>
    have hne : ticker.pos ≠ pos := helsewhere _ rfl
    have hat : (c.lending ticker.pos e).entityAt? pos = c.entityAt? pos := by
      unfold Chunk.entityAt?
      exact congrArg _ ((Keyed.find?_swapErase ..).trans (if_neg (Ne.symm hne)))
    have htaken : footing? cfg { w with
        chunks := w.chunks.insert (.ofBlock ticker.pos) (c.lending ticker.pos e) } pos =
        w.footing? cfg pos :=
      footing?_insert hc rfl rfl rfl fun _ => hat
    exact (footing?_relevel _ cfg pos level).trans htaken

/-- When an entity comes back, nothing that matters changes where one is installed. -/
theorem undisturbed_returnEntity {footing : Footing} (hfooting : w.footing? cfg pos = some footing)
    (hinstalled : footing.installed = some serial) (q : BlockPos) (back : BlockEntity α) :
    Undisturbed cfg pos serial w (w.returnEntity q back) := by
  refine ⟨by rw [level_returnEntity], by rw [level_returnEntity], ?_⟩
  obtain ⟨c, hc, rfl⟩ := Option.map_eq_some_iff.1 hfooting
  obtain ⟨e, he, -⟩ := Option.map_eq_some_iff.1 hinstalled
  unfold World.returnEntity
  cases hq : w.chunk? (.ofBlock q) with
  | none => rfl
  | some c' =>
    obtain ⟨hstage, hloaded, hblock⟩ := Chunk.returnEntity_frame cfg c' back pos
    refine footing?_insert hq hstage hloaded hblock fun heq => ?_
    rw [heq] at hc
    cases hc.symm.trans hq
    exact Chunk.entityAt?_returnEntity he back

/-- If there is but one ticker for an entity, the slot of a call for it is that one's. -/
theorem Ready.index_eq {k : Nat} {type : EntityType} (h : w.Ready cfg index ticker c e)
    (honly : w.level.tickers.slotsOf ticker.pos ticker.serial = [(k, type)]) : index = k := by
  have hmem : (index, ticker.type) ∈ w.level.tickers.slotsOf ticker.pos ticker.serial :=
    Tickers.mem_slotsOf.2 ⟨ticker, h.active, rfl, rfl, rfl⟩
  rw [honly, List.mem_singleton] at hmem
  exact congrArg Prod.fst hmem

end World

/-! ### A chest that is not disturbed -/

/-- A world with two chests. -/
def twoChests : World Unit Unit Unit :=
  World.edits chestWorld { level := { isClient := false }, owner := () }
    [.insertChunk tickingChests, .setBlock ⟨3, 5, 4⟩ ⟨1⟩ {}, .setBlock ⟨5, 5, 4⟩ ⟨1⟩ {}]

end VoxelChunk
