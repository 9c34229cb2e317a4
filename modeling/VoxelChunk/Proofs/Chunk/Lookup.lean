import VoxelChunk.Proofs.Chunk.Elsewhere
import VoxelChunk.Proofs.Chunk.Forgotten
import VoxelChunk.Proofs.Tag

/-!
# Looking up block entities

Who asks for the block entity at a position gets the one that is installed there. Where there is
none, what has been removed is taken out first, with its ticker and its listener. Then the chunk
comes up with an entity, from saved data or from the block, or with none, and nothing that concerns
another position changes.

## Main definitions

* `Config.StandsFor` — saved data stands for an entity.
* `Site.supplied?` — the entity that a chunk comes up with.
* `Site.Supplied` — all that becomes of a position for which the chunk comes up with an entity.

## Main results

* `Site.getEntity_of_none` — what asking for an entity comes to where there is none.
* `Site.getEntity_outcome` — **each situation has one outcome.**
-/

namespace VoxelChunk

variable {α τ : Type}

/-! ### What is made -/

namespace Config

/-- The entity that a block in the given state gets by itself, if one belongs to it. -/
def ownEntity? (cfg : Config α τ) (pos : BlockPos) (state : BlockState) : Option (BlockEntity α) :=
  if cfg.facts.hasEntity state then cfg.registry.create pos state else none

/-- The entity that saved fields stand for where the block has the given state: the one that the
block gets by itself, or one of the type that is asked for with the data that is read. -/
def savedEntity? (cfg : Config α τ) (pos : BlockPos) (state : BlockState) (fields : Compound) :
    Option (BlockEntity α) :=
  (fields.findString? "id").bind fun id =>
    if id = dummyId then cfg.ownEntity? pos state
    else
      (cfg.registry.instantiate id pos state).bind fun made =>
        (cfg.registry.readData made fields.walk).toOption.map fun data => { made with data }

/-- Saved fields stand for an entity where the block has the given state. -/
inductive StandsFor (cfg : Config α τ) (pos : BlockPos) (state : BlockState) (fields : Compound) :
    BlockEntity α → Prop
  /-- The entity that the block gets by itself is asked for, and the block gets one. -/
  | own {e : BlockEntity α} : fields.findString? "id" = some dummyId → cfg.facts.hasEntity state →
    cfg.registry.create pos state = some e → StandsFor cfg pos state fields e
  /-- A type that may stand there is asked for, and the data can be read. -/
  | typed {id : String} {made : BlockEntity α} {data : α} : fields.findString? "id" = some id →
    id ≠ dummyId → cfg.registry.instantiate id pos state = some made →
    cfg.registry.readData made fields.walk = .ok data →
      StandsFor cfg pos state fields { made with data }

variable {cfg : Config α τ} {pos : BlockPos} {state : BlockState} {fields : Compound}

theorem ownEntity?_eq_some_iff {e : BlockEntity α} : cfg.ownEntity? pos state = some e ↔
    cfg.facts.hasEntity state ∧ cfg.registry.create pos state = some e := by
  unfold ownEntity?
  split
  · next h => exact (and_iff_right h).symm
  · next h => exact ⟨nofun, fun hmade => absurd hmade.1 h⟩

theorem savedEntity?_eq_some_iff {e : BlockEntity α} :
    cfg.savedEntity? pos state fields = some e ↔ cfg.StandsFor pos state fields e := by
  unfold savedEntity?
  rw [Option.bind_eq_some_iff]
  constructor
  · rintro ⟨id, hid, he⟩
    split at he
    · next hdummy =>
      obtain ⟨hhas, hcreate⟩ := ownEntity?_eq_some_iff.1 he
      exact .own (hdummy ▸ hid) hhas hcreate
    · next hdummy =>
      obtain ⟨made, hmade, he⟩ := Option.bind_eq_some_iff.1 he
      cases hdata : cfg.registry.readData made fields.walk with
      | error cause =>
        rw [hdata] at he
        cases he
      | ok data =>
        rw [hdata] at he
        obtain rfl := Option.some.inj he
        exact .typed hid hdummy hmade hdata
  · rintro (⟨hid, hhas, hcreate⟩ | ⟨hid, hdummy, hmade, hdata⟩)
    · exact ⟨dummyId, hid, (if_pos rfl).trans (ownEntity?_eq_some_iff.2 ⟨hhas, hcreate⟩)⟩
    · refine ⟨_, hid, (if_neg hdummy).trans ?_⟩
      rw [hmade, Option.bind_some, hdata]
      rfl

/-- Apart from the entity of the block itself, saved data stands for what the factory loads. -/
theorem toOption_load (h : fields.findString? "id" ≠ some dummyId) :
    (cfg.factory.load pos state fields).toOption = cfg.savedEntity? pos state fields := by
  show (cfg.registry.toEntityFactory.load pos state fields).toOption = _
  unfold EntityFactory.load savedEntity?
  cases hid : fields.walk.getString "id" with
  | error cause =>
    cases hfound : fields.findString? "id" with
    | none => rfl
    | some id =>
      rw [CompoundAt.getString_eq_ok_iff.2 hfound] at hid
      cases hid
  | ok id =>
    have hfound : fields.findString? "id" = some id := CompoundAt.getString_eq_ok_iff.1 hid
    rw [hfound, Option.bind_some, if_neg (by rintro rfl; exact h hfound)]
    simp only
    cases cfg.registry.instantiate id pos state with
    | none => rfl
    | some made =>
      simp only [Option.bind_some]
      cases cfg.registry.readData made fields.walk <;> rfl

end Config

namespace Site

variable {cfg : Config α τ} {s t u : Site α τ} {pos : BlockPos} {mode : CreationMode}

/-- The entity that a chunk comes up with for a position at which it has none: the one that waits as
saved data, or else, if it is to be made at once, the one that the block gets by itself. -/
def supplied? (s : Site α τ) (cfg : Config α τ) (pos : BlockPos) (mode : CreationMode) :
    Option (BlockEntity α) :=
  let state := (s.blockAt cfg pos).1
  ((s.chunk.pending.find? pos).bind (cfg.savedEntity? pos state)).or
    (if mode = .immediate then cfg.ownEntity? pos state else none)

theorem note_eq (s : Site α τ) (notice : Notice) : s.note notice = s.noting #[notice] := rfl

theorem noting_empty (s : Site α τ) : s.noting #[] = s := by
  unfold noting
  rw [Array.append_empty]

theorem noting_noting (s : Site α τ) (news news' : Array Notice) :
    (s.noting news).noting news' = s.noting (news ++ news') := by
  unfold noting
  rw [Array.append_assoc]

/-- Reading a block may note a fault. -/
theorem blockAt_eq (s : Site α τ) (cfg : Config α τ) (pos : BlockPos) :
    ∃ news, s.blockAt cfg pos = ((s.blockAt cfg pos).1, s.noting news) := by
  unfold blockAt
  cases s.chunk.blockAt cfg pos with
  | ok state => exact ⟨#[], by rw [noting_empty]; rfl⟩
  | error fault => exact ⟨#[.fault fault], rfl⟩

/-- What is read depends on the sections only. -/
theorem fst_blockAt_eq (h : t.chunk.sections = s.chunk.sections) (cfg : Config α τ)
    (pos : BlockPos) : (t.blockAt cfg pos).1 = (s.blockAt cfg pos).1 := by
  have hoccupied : t.chunk.occupiedSection? cfg pos = s.chunk.occupiedSection? cfg pos := by
    unfold Chunk.occupiedSection? Chunk.section?
    rw [h]
  unfold blockAt Chunk.blockAt
  rw [hoccupied]
  cases s.chunk.occupiedSection? cfg pos with
  | none => rfl
  | some sec =>
    simp only
    cases sec.get pos <;> rfl

theorem loadEntity_eq (s : Site α τ) (cfg : Config α τ) (pos : BlockPos) (fields : Compound) :
    ∃ news, s.loadEntity cfg pos fields =
      match cfg.savedEntity? pos (s.blockAt cfg pos).1 fields with
      | some e => (true, (s.noting news).addEntity cfg e)
      | none => (false, s.noting news) := by
  obtain ⟨news, hread⟩ := blockAt_eq s cfg pos
  unfold loadEntity
  generalize (s.blockAt cfg pos).1 = state at hread ⊢
  rw [hread]
  simp only
  by_cases hdummy : fields.findString? "id" = some dummyId
  · have hsaved : cfg.savedEntity? pos state fields = cfg.ownEntity? pos state := by
      unfold Config.savedEntity?
      rw [hdummy, Option.bind_some, if_pos rfl]
    rw [if_pos hdummy, hsaved]
    unfold Config.ownEntity? Config.facts
    by_cases hhas : cfg.registry.hasEntity state
    · rw [if_pos hhas, if_pos hhas]
      cases cfg.registry.create pos state with
      | none => exact ⟨_, by rw [note_eq, noting_noting]⟩
      | some e => exact ⟨news, rfl⟩
    · rw [if_neg hhas, if_neg hhas]
      exact ⟨_, by simp only [note_eq, noting_noting]; rfl⟩
  · rw [if_neg hdummy, ← Config.toOption_load hdummy]
    cases cfg.factory.load pos state fields with
    | error cause => exact ⟨_, by simp only [note_eq, noting_noting]; rfl⟩
    | ok e => exact ⟨news, rfl⟩

theorem createEntity_eq (s : Site α τ) (cfg : Config α τ) (pos : BlockPos) :
    ∃ news, s.createEntity cfg pos =
      match cfg.ownEntity? pos (s.blockAt cfg pos).1 with
      | some e => (((s.noting news).addEntity cfg e).chunk.entities.find? pos,
          (s.noting news).addEntity cfg e)
      | none => (none, s.noting news) := by
  obtain ⟨news, hread⟩ := blockAt_eq s cfg pos
  refine ⟨news, ?_⟩
  unfold createEntity Config.ownEntity? Config.facts
  generalize (s.blockAt cfg pos).1 = state at hread ⊢
  rw [hread]
  simp only
  split
  · cases cfg.registry.create pos state <;> rfl
  · rfl

/-! ### Asking for an entity -/

/-- The site once an entity that has been removed has left a position, with its ticker and its
listener, and the saved data for that position is used up. -/
def vacated (s : Site α τ) (pos : BlockPos) : Site α τ := (s.evictRemoved pos).withoutPending pos

theorem withoutPending_of_none (h : s.chunk.pending.find? pos = none) : s.withoutPending pos = s := by
  unfold withoutPending
  rw [Keyed.swapErase_of_none h]

/-- **Asking for an entity where there is none** takes out what has been removed, uses up the saved
data, and installs what the chunk comes up with. -/
theorem getEntity_of_none (hout : s.chunk.lentAt? pos = none) (hnone : s.chunk.entityAt? pos = none)
    (cfg : Config α τ) (mode : CreationMode) : ∃ news, s.getEntity cfg pos mode =
      match s.supplied? cfg pos mode with
      | some e => ((((s.vacated pos).noting news).addEntity cfg e).chunk.entities.find? pos,
          ((s.vacated pos).noting news).addEntity cfg e)
      | none => (none, (s.vacated pos).noting news) := by
  obtain ⟨entities, names, dispatchers, tickers, hevicted⟩ := evictRemoved_eq s pos
  have hpending : (s.evictRemoved pos).chunk.pending = s.chunk.pending := by rw [hevicted]
  have hread : ∀ news, (((s.vacated pos).noting news).blockAt cfg pos).1 = (s.blockAt cfg pos).1 := by
    intro news
    apply fst_blockAt_eq
    unfold vacated
    rw [hevicted]
    rfl
  -- what is left to be done when no saved data has been loaded
  have hcreated : ∀ news, ∃ news', (if mode = .immediate then
      ((s.vacated pos).noting news).createEntity cfg pos else (none, (s.vacated pos).noting news)) =
      match if mode = .immediate then cfg.ownEntity? pos (s.blockAt cfg pos).1 else none with
      | some e => ((((s.vacated pos).noting news').addEntity cfg e).chunk.entities.find? pos,
          ((s.vacated pos).noting news').addEntity cfg e)
      | none => (none, (s.vacated pos).noting news') := by
    intro news
    split
    · obtain ⟨news', hcreate⟩ := createEntity_eq ((s.vacated pos).noting news) cfg pos
      rw [hread, noting_noting] at hcreate
      exact ⟨_, hcreate⟩
    · exact ⟨news, rfl⟩
  unfold getEntity loadPending supplied?
  rw [hout, hnone, hpending]
  simp only [Option.isSome_none, Bool.false_eq_true, if_false]
  cases hsaved : s.chunk.pending.find? pos with
  | none =>
    have hvacated : s.vacated pos = s.evictRemoved pos :=
      withoutPending_of_none (by rw [hpending, hsaved])
    obtain ⟨news, h⟩ := hcreated #[]
    rw [noting_empty] at h
    refine ⟨news, ?_⟩
    simp only [Bool.false_eq_true, if_false, Option.bind_none, Option.none_or]
    rw [← hvacated]
    exact h
  | some fields =>
    obtain ⟨news, hload⟩ := loadEntity_eq (s.vacated pos) cfg pos fields
    have hread' := hread #[]
    rw [noting_empty] at hread'
    rw [hread'] at hload
    have hvacated : (Site.mk { (s.evictRemoved pos).chunk with
        pending := s.chunk.pending.swapErase pos } (s.evictRemoved pos).level) = s.vacated pos := by
      unfold vacated withoutPending
      rw [hpending]
    simp only [hvacated, Option.bind_some]
    rw [hload]
    cases cfg.savedEntity? pos (s.blockAt cfg pos).1 fields with
    | some e => exact ⟨news, rfl⟩
    | none => exact hcreated news

/-! ### What is kept for the position -/

/-- What is kept for a position without an entity, once what has been removed there is gone. -/
def leftAt (s : Site α τ) (pos : BlockPos) : Upkeep α τ :=
  if s.chunk.entities.contains pos then {} else s.upkeepAt pos

/-- What is kept for a position once the chunk has come up with an entity for it, or with none: what
the entity asks for, if the chunk can tick its entities. On a client listeners are left alone. -/
def keptAt (s : Site α τ) (cfg : Config α τ) (pos : BlockPos) (made : Option (BlockEntity α)) :
    Upkeep α τ :=
  match made.map s.installed with
  | none => s.leftAt pos
  | some e =>
    if s.canTick then
      { cfg.upkeepOf s.level.isClient e with
        listener :=
          if s.level.isClient then (s.leftAt pos).listener else cfg.registry.listener e }
    else { s.leftAt pos with entity := some e }

/-- A chunk without an entity at a position has come up with one, or with none, and all that
concerned another position is as it was. -/
structure Supplied (cfg : Config α τ) (s : Site α τ) (pos : BlockPos)
    (made : Option (BlockEntity α)) (t : Site α τ) : Prop where
  elsewhere : s.Elsewhere pos (pos :: cfg.sourcesOf (made.map s.installed)) t
  entity : t.chunk.entities.find? pos = made.map s.installed
  pending : t.chunk.pending.find? pos = none
  ticker : s.Wired → t.tickerAt? pos = (s.keptAt cfg pos made).ticker
  listener : (∀ source ∈ cfg.sourcesOf (made.map s.installed), source = pos) →
    t.chunk.listenerAt? pos = (s.keptAt cfg pos made).listener
  serial : t.chunk.nextSerial = s.chunk.nextSerial + if made.isSome then 1 else 0
  adds : s.Adds t (if made.isSome then [.entitySet pos] else [])
  notices : ∃ news, t.level.notices = s.level.notices ++ news

theorem listenerAt?_evictRemoved (hnone : s.chunk.entityAt? pos = none) :
    (s.evictRemoved pos).chunk.listenerAt? pos = (s.leftAt pos).listener := by
  have hdispatchers : ∀ t : Site α τ, (t.removeTicker pos).chunk.listenerAt? pos =
      t.chunk.listenerAt? pos := by
    intro t
    obtain ⟨names, tickers, heq⟩ := removeTicker_eq t pos
    rw [heq]
    rfl
  unfold evictRemoved leftAt Keyed.contains
  cases he : s.chunk.entities.find? pos with
  | none => rfl
  | some e =>
    simp only [removed_of_entityAt?_eq_none hnone he, if_true]
    rw [hdispatchers, Chunk.listenerAt?_removeListener, if_pos rfl]
    rfl

/-- Where nothing is supplied, what has been removed is gone and the saved data is used up. -/
theorem supplied_none (hnone : s.chunk.entityAt? pos = none) (cfg : Config α τ)
    (news : Array Notice) : s.Supplied cfg pos none ((s.vacated pos).noting news) := by
  have hstripped := stripped_evictRemoved hnone
  have hlistener := listenerAt?_evictRemoved hnone
  have helsewhere : s.Elsewhere pos [pos] ((s.vacated pos).noting news) :=
    ((elsewhere_evictRemoved hnone List.mem_cons_self).trans
      (elsewhere_withoutPending _ pos [pos])).trans (elsewhere_noting _ pos [pos] news)
  have hentity : (s.evictRemoved pos).chunk.entities.find? pos = none := by
    rw [hstripped.entity]
    cases hfound : s.chunk.entities.find? pos with
    | none => exact ite_self none
    | some e => rw [if_pos (by unfold Keyed.contains; rw [hfound]; exact List.mem_cons_self)]
  have hticker : s.Wired → (s.evictRemoved pos).tickerAt? pos = (s.leftAt pos).ticker := by
    intro hwired
    rw [hstripped.tickerAt?_eq hwired]
    unfold leftAt
    split
    · exact if_pos List.mem_cons_self
    · exact if_neg List.not_mem_nil
  obtain ⟨entities, names, dispatchers, tickers, heq⟩ := evictRemoved_eq s pos
  unfold vacated at helsewhere ⊢
  rw [heq] at helsewhere hentity hticker hlistener ⊢
  exact
    { elsewhere := helsewhere
      entity := hentity
      pending := (Keyed.find?_swapErase _ pos pos).trans (if_pos rfl)
      ticker := hticker
      listener := fun _ => hlistener
      serial := (UInt32.add_zero _).symm
      adds := .refl s
      notices := ⟨news, rfl⟩ }

/-- Once what has been removed is gone and the saved data is used up, an entity is installed. -/
theorem Supplied.addEntity {e : BlockEntity α} (h : s.Supplied cfg e.pos none t)
    (hout : s.chunk.lentAt? e.pos = none) :
    s.Supplied cfg e.pos (some e) (t.addEntity cfg e) := by
  have hout' : t.chunk.lentAt? e.pos = none := (h.elsewhere.lentAt?_eq e.pos).trans hout
  have hserial : t.chunk.nextSerial = s.chunk.nextSerial := h.serial.trans (UInt32.add_zero _)
  have hinstalled : t.installed e = s.installed e := by
    unfold installed
    rw [hserial]
  have htick := h.elsewhere.canTick_eq
  have hclient : t.level.isClient = s.level.isClient := by rw [h.elsewhere.level]
  have hadded := elsewhere_addEntity hout' cfg
  have hentity := find?_addEntity t cfg e e.pos
  have hticker := tickerAt?_addEntity hout' cfg
  have hlistener := listenerAt?_addEntity hout' cfg
  rw [discardLent_of_none hout', if_pos rfl] at hentity
  rw [hinstalled] at hadded hentity hticker hlistener
  obtain ⟨names, dispatchers, tickers, hframe⟩ := addEntity_frame hout' cfg
  rw [hframe] at hadded hentity hticker hlistener ⊢
  refine
    { elsewhere := (h.elsewhere.mono (List.cons_subset_cons _ (List.nil_subset _))).trans hadded
      entity := hentity
      pending := h.pending
      ticker := fun hwired => ?_
      listener := fun hself => ?_
      serial := congrArg (· + 1) hserial
      adds := h.adds.trans (adds_push t _)
      notices := h.notices }
  · rw [hticker (h.elsewhere.ticker hwired).1, htick, hclient, h.ticker hwired]
    unfold keptAt
    simp only [Option.map_some, Option.map_none]
    split <;> rfl
  · rw [hlistener, htick, hclient, h.listener fun _ hmem => absurd hmem List.not_mem_nil]
    · unfold keptAt
      simp only [Option.map_some, Option.map_none]
      cases s.canTick <;> cases s.level.isClient <;> rfl
    · intro l hl
      refine hself l.source (Option.mem_toList.2 ?_)
      rw [Option.map_some, Option.bind_some, hl]
      rfl

/-- What the chunk comes up with is what the saved data stands for, or else what the block gets by
itself. -/
theorem supplied?_eq_some_iff {e : BlockEntity α} : s.supplied? cfg pos mode = some e ↔
    (∃ fields, s.chunk.pending.find? pos = some fields ∧
        cfg.StandsFor pos (s.blockAt cfg pos).1 fields e) ∨
      (∀ fields, s.chunk.pending.find? pos = some fields →
        ∀ e', ¬cfg.StandsFor pos (s.blockAt cfg pos).1 fields e') ∧
        mode = .immediate ∧ cfg.facts.hasEntity (s.blockAt cfg pos).1 ∧
          cfg.registry.create pos (s.blockAt cfg pos).1 = some e := by
  unfold supplied?
  simp only [← Config.savedEntity?_eq_some_iff, Option.or_eq_some_iff, Option.bind_eq_some_iff,
    Option.bind_eq_none_iff]
  refine or_congr Iff.rfl (and_congr ?_ ?_)
  · simp only [Option.eq_none_iff_forall_ne_some, ne_eq]
  · rw [← Config.ownEntity?_eq_some_iff]
    split
    · next h => exact (and_iff_right h).symm
    · next h => exact iff_of_false (Option.some_ne_none e).symm fun hmade => h hmade.1

/-- The entity that the chunk comes up with is made for the position. -/
theorem made_of_supplied {e : BlockEntity α} (h : s.supplied? cfg pos mode = some e) :
    cfg.Made pos e := by
  rcases supplied?_eq_some_iff.1 h with ⟨fields, -, hstands⟩ | ⟨-, -, -, hcreate⟩
  · cases hstands with
    | own hid hhas hcreate => exact .created _ hcreate
    | typed hid hdummy hmade hdata => exact .loaded _ _ _ hmade
  · exact .created _ hcreate

/-- Where there is no entity, what the chunk comes up with is returned and installed. -/
theorem supplied_getEntity (hout : s.chunk.lentAt? pos = none)
    (hnone : s.chunk.entityAt? pos = none)
    (hplace : ∀ e, s.supplied? cfg pos mode = some e → e.pos = pos) :
    (s.getEntity cfg pos mode).1 = (s.supplied? cfg pos mode).map s.installed ∧
      s.Supplied cfg pos (s.supplied? cfg pos mode) (s.getEntity cfg pos mode).2 := by
  obtain ⟨news, heq⟩ := getEntity_of_none hout hnone cfg mode
  rw [heq]
  cases hmade : s.supplied? cfg pos mode with
  | none => exact ⟨rfl, supplied_none hnone cfg news⟩
  | some e =>
    obtain rfl := hplace e hmade
    have hinstalled := (supplied_none hnone cfg news).addEntity hout
    exact ⟨hinstalled.entity, hinstalled⟩

/-- **Asking for an entity has one outcome in each situation.** One that is being ticked is not
returned, and one that is installed is returned; in both cases nothing changes. Otherwise what has
been removed goes with its ticker and its listener, the saved data is used up, and the entity that
it stands for is installed, or else, if one is to be made at once, the one that the block gets by
itself. What is returned is what is installed then, and nothing has changed elsewhere. -/
theorem getEntity_outcome (hplace : cfg.MakesOnly (· = pos)) (s : Site α τ)
    (mode : CreationMode) :
    (∀ lent, s.chunk.lentAt? pos = some lent → s.getEntity cfg pos mode = (none, s)) ∧
    (s.chunk.lentAt? pos = none → ∀ e, s.chunk.entityAt? pos = some e →
      s.getEntity cfg pos mode = (some e, s)) ∧
    (s.chunk.lentAt? pos = none → s.chunk.entityAt? pos = none →
      (s.getEntity cfg pos mode).1 = (s.supplied? cfg pos mode).map s.installed ∧
      s.Supplied cfg pos (s.supplied? cfg pos mode) (s.getEntity cfg pos mode).2) ∧
    (∀ e, s.supplied? cfg pos mode = some e ↔
      (∃ fields, s.chunk.pending.find? pos = some fields ∧
        cfg.StandsFor pos (s.blockAt cfg pos).1 fields e) ∨
      (∀ fields, s.chunk.pending.find? pos = some fields →
        ∀ e', ¬cfg.StandsFor pos (s.blockAt cfg pos).1 fields e') ∧
        mode = .immediate ∧ cfg.facts.hasEntity (s.blockAt cfg pos).1 ∧
          cfg.registry.create pos (s.blockAt cfg pos).1 = some e) ∧
    (s.chunk.lentAt? pos = none →
      (s.getEntity cfg pos mode).1 = (s.getEntity cfg pos mode).2.chunk.entityAt? pos) := by
  have hfound : s.chunk.lentAt? pos = none → ∀ e, s.chunk.entityAt? pos = some e →
      s.getEntity cfg pos mode = (some e, s) := by
    intro hout e he
    unfold getEntity
    rw [hout, he]
    rfl
  have hsupplied : s.chunk.lentAt? pos = none → s.chunk.entityAt? pos = none →
      (s.getEntity cfg pos mode).1 = (s.supplied? cfg pos mode).map s.installed ∧
      s.Supplied cfg pos (s.supplied? cfg pos mode) (s.getEntity cfg pos mode).2 :=
    fun hout hnone => supplied_getEntity hout hnone fun e hmade =>
      hplace.makes.made rfl (made_of_supplied hmade)
  refine ⟨?_, hfound, hsupplied, fun e => supplied?_eq_some_iff, fun hout => ?_⟩
  · intro lent hlent
    unfold getEntity
    rw [hlent]
    rfl
  · cases he : s.chunk.entityAt? pos with
    | some e => rw [hfound hout e he, he]
    | none =>
      obtain ⟨houtcome, hsup⟩ := hsupplied hout he
      rw [houtcome]
      unfold Chunk.entityAt?
      rw [hsup.entity]
      cases s.supplied? cfg pos mode <;> rfl

end Site

/-- A chest with seven things waits as saved data, and the one before it has been removed. -/
def waitingSeven : Site Nat Unit :=
  let pos : BlockPos := ⟨3, 5, 4⟩
  let s := newCounts.edits countingChests [.setBlock pos ⟨1⟩ {}, .addPending
    [("Count", .int 7), ("id", .string "chest"), ("x", .int 3), ("y", .int 5), ("z", .int 4)]]
  { s with chunk := s.chunk.modifyEntity pos BlockEntity.discard }

/-- The chest that has been removed gives way to the one with seven things. -/
theorem saved_chest_is_loaded :
    let pos : BlockPos := ⟨3, 5, 4⟩
    waitingSeven.chunk.entities.contains pos ∧ waitingSeven.chunk.lentAt? pos = none ∧
      waitingSeven.chunk.entityAt? pos = none ∧
      (waitingSeven.getEntity countingChests pos .check).1.map (·.data) = some 7 ∧
      (waitingSeven.getEntity countingChests pos .check).1 =
        (waitingSeven.getEntity countingChests pos .check).2.chunk.entityAt? pos ∧
      waitingSeven.Supplied countingChests pos
        (waitingSeven.supplied? countingChests pos .check)
        (waitingSeven.getEntity countingChests pos .check).2 := by
  intro pos
  have hplace : countingChests.MakesOnly (· = pos) := by
    refine ⟨?_, ?_⟩
    · rintro q state e hq ⟨⟩
      exact hq
    · rintro id q state e hq ⟨⟩
      exact hq
  have hout : waitingSeven.chunk.lentAt? pos = none := by decide +kernel
  have hnone : waitingSeven.chunk.entityAt? pos = none := by decide +kernel
  obtain ⟨-, -, hsupplied, -, hreturned⟩ := Site.getEntity_outcome hplace waitingSeven .check
  exact ⟨by decide +kernel, hout, hnone, by decide +kernel, hreturned hout,
    (hsupplied hout hnone).2⟩

end VoxelChunk
