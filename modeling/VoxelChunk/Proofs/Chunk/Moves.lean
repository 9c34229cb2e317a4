import VoxelChunk.Chunk.Settle
import VoxelChunk.Proofs.Chunk.Steps
import VoxelChunk.Proofs.Chunk.Stored
import VoxelChunk.Proofs.Chunk.Upkeep
import VoxelChunk.Proofs.Chunk.Write
import VoxelChunk.Proofs.Grid

/-!
# Moves of a chunk in its world

Whatever a world does with a chunk while blocks react as they do unless told otherwise, it does by
moves of few kinds, each at one position. Seen from any other position a move changes nothing.

## Main definitions

* `BlockEntity.Continues` — what the library knows of an entity has not changed.
* `Site.Move`, `Site.Moves` — one move, and chains of moves.
* `Site.Touched` — entities have changed at certain positions only.
* `Site.Moved` — all that can come of a move.
* `Chunk.Within` — all entities of a chunk are at certain positions.
* `Chunk.Sole` — an entity that is out of the chunk is not installed as well.

## Main results

* `Site.Move.moved` — what a move does, and where.
* `Site.moves_setBlock`, `Site.moves_settleAll`, `Site.moves_updateEntities` — operations are chains
  of moves.
-/

namespace VoxelChunk

variable {α τ : Type}

/-- What the library knows of an entity is as before, but for the state of its block. -/
structure BlockEntity.Continues (e' e : BlockEntity α) : Prop where
  type : e'.type = e.type
  pos : e'.pos = e.pos
  serial : e'.serial = e.serial
  removed : e'.removed = e.removed

/-- All entities of the chunk, installed or saved, are at positions at which `P` holds. -/
structure Chunk.Within (P : BlockPos → Prop) (c : Chunk α) : Prop where
  entities : ∀ pos e, c.entities.find? pos = some e → P pos
  pending : ∀ pos fields, c.pending.find? pos = some fields → P pos

/-- An entity that is out of the chunk is not installed as well. -/
def Chunk.Sole (c : Chunk α) : Prop :=
  ∀ pos, (c.lentAt? pos).isSome → c.entities.find? pos = none

theorem Chunk.lentAt?_eq_some_iff {c : Chunk α} {pos : BlockPos} {lent : LentEntity} :
    c.lentAt? pos = some lent ↔ c.lent = some lent ∧ lent.pos = pos ∧ lent.removed = false := by
  unfold lentAt?
  rw [Option.filter_eq_some_iff]
  simp

theorem Chunk.lentAt?_of_some {c : Chunk α} {lent : LentEntity} (h : c.lent = some lent)
    (pos : BlockPos) :
    c.lentAt? pos = if lent.pos = pos ∧ lent.removed = false then some lent else none := by
  unfold lentAt?
  rw [h, Option.filter_some]
  simp

theorem Chunk.entityAt?_eq_some_iff {c : Chunk α} {pos : BlockPos} {e : BlockEntity α} :
    c.entityAt? pos = some e ↔ c.entities.find? pos = some e ∧ e.removed = false := by
  unfold entityAt?
  rw [Option.filter_eq_some_iff]
  simp

namespace Site

variable {cfg : Config α τ} {P : BlockPos → Prop}

/-- One move of a chunk, at a position at which `P` holds. -/
inductive Move (cfg : Config α τ) (P : BlockPos → Prop) (s : Site α τ) : Site α τ → Prop
  | entity {s' : Site α τ} : EntityStep cfg P P s s' → Move cfg P s s'
  /-- What is held of block entities stays. -/
  | aside {s' : Site α τ} : s'.holdings = s.holdings → Move cfg P s s'
  /-- Listener and ticker are made anew. -/
  | renew (pos : BlockPos) : P pos → Move cfg P s ((s.updateListener cfg pos).updateTicker cfg pos)
  /-- Those who asked for an entity change it. -/
  | change (pos : BlockPos) (f : BlockEntity α → BlockEntity α) : P pos →
    (∀ e, (f e).Continues e) → Move cfg P s { s with chunk := s.chunk.modifyEntity pos f }

/-- Moves, one after another. -/
abbrev Moves (cfg : Config α τ) (P : BlockPos → Prop) : Site α τ → Site α τ → Prop :=
  Relation.ReflTransGen (Move cfg P)

theorem EntitySteps.moves {s s' : Site α τ} (h : EntitySteps cfg P P s s') : Moves cfg P s s' :=
  Relation.ReflTransGen.mono (fun _ _ => Move.entity) _ _ h

/-! ### What a move does -/

theorem removeTicker_eq (s : Site α τ) (pos : BlockPos) : ∃ names tickers, s.removeTicker pos =
    { chunk := { s.chunk with tickers := names }, level := { s.level with tickers } } := by
  unfold removeTicker
  split
  · exact ⟨_, _, rfl⟩
  · exact ⟨_, _, rfl⟩

theorem updateTicker_eq (s : Site α τ) (cfg : Config α τ) (pos : BlockPos) :
    ∃ names tickers, s.updateTicker cfg pos =
      { chunk := { s.chunk with tickers := names }, level := { s.level with tickers } } := by
  unfold updateTicker
  split
  · exact removeTicker_eq s pos
  · split
    · exact removeTicker_eq s pos
    · unfold registerTicker
      simp only
      split
      · exact ⟨_, _, rfl⟩
      · exact ⟨_, _, rfl⟩

theorem updateListener_eq (s : Site α τ) (cfg : Config α τ) (pos : BlockPos) :
    ∃ dispatchers, s.updateListener cfg pos =
      { s with chunk := { s.chunk with dispatchers } } := by
  unfold updateListener
  split
  · exact ⟨_, rfl⟩
  · split <;> exact ⟨_, rfl⟩

@[simp] theorem entities_updateTicker (s : Site α τ) (cfg : Config α τ) (pos : BlockPos) :
    (s.updateTicker cfg pos).chunk.entities = s.chunk.entities := by
  obtain ⟨names, tickers, heq⟩ := updateTicker_eq s cfg pos
  rw [heq]

/-- Which entity is ticked at a position: its type and its serial. -/
def selfAt? (c : Chunk α) (pos : BlockPos) : Option (EntityType × UInt32) :=
  (tickedAt? c pos).map fun ticked => (ticked.1, ticked.2.2)

/-- The entity at a position, installed or out of the chunk to be ticked, is the same. -/
def SameAt (pos : BlockPos) (s s' : Site α τ) : Prop :=
  s'.chunk.entities.find? pos = s.chunk.entities.find? pos ∧
    s'.chunk.lentAt? pos = s.chunk.lentAt? pos

/-- Entities have changed only at positions at which `P` holds, and no tickers have. Nothing more
waits as saved data or is out of the chunk to be ticked. -/
structure Touched (P : BlockPos → Prop) (s s' : Site α τ) : Prop where
  place : s'.holdings.1 = s.holdings.1
  names : s'.chunk.tickers = s.chunk.tickers
  slots : s'.level.tickers = s.level.tickers
  elsewhere : ∀ pos, ¬P pos → s.SameAt pos s'
  entities : ∀ pos e, s'.chunk.entities.find? pos = some e →
    P pos ∨ ∃ e', s.chunk.entities.find? pos = some e'
  pending : ∀ pos fields, s'.chunk.pending.find? pos = some fields →
    s.chunk.pending.find? pos = some fields
  lent : ∀ lent, s'.chunk.lent = some lent → lent.removed = false → ∃ lent',
    s.chunk.lent = some lent' ∧ lent'.removed = false ∧
      (lent'.pos, lent'.type, lent'.serial) = (lent.pos, lent.type, lent.serial)

/-- All that can come of a move. -/
inductive Moved (cfg : Config α τ) (P : BlockPos → Prop) (s : Site α τ) : Site α τ → Prop
  /-- The same entities are ticked as before, by the same tickers. -/
  | still {s' : Site α τ} : s.Touched P s' → (∀ pos, selfAt? s'.chunk pos = selfAt? s.chunk pos) →
    Moved cfg P s s'
  /-- Where entities have changed, the ticker is the one that is asked for. -/
  | updated (pos : BlockPos) (t : Site α τ) : P pos → s.Touched (· = pos) t →
    Moved cfg P s (t.updateTicker cfg pos)
  /-- Where entities have changed, there is no ticker. -/
  | removed (pos : BlockPos) (t : Site α τ) : P pos → s.Touched (· = pos) t →
    Moved cfg P s (t.removeTicker pos)

variable {s s' t : Site α τ} {pos : BlockPos}

theorem SameAt.selfAt?_eq (h : s.SameAt pos s') : selfAt? s'.chunk pos = selfAt? s.chunk pos := by
  unfold selfAt? tickedAt?
  rw [h.1, h.2]

theorem Touched.of_holdings (h : s'.holdings = s.holdings) : s.Touched P s' := by
  unfold holdings at h
  simp only [Prod.mk.injEq] at h
  obtain ⟨⟨hpos, hloaded, hclient⟩, hentities, hpending, hlent, hnames, hslots⟩ := h
  refine ⟨?_, hnames, hslots, fun pos _ => ?_, fun pos e he => ?_, fun pos fields hf => ?_,
    fun lent hl hr => ?_⟩
  · unfold holdings
    rw [hpos, hloaded, hclient]
  · unfold SameAt Chunk.lentAt?
    rw [hentities, hlent]
    exact ⟨rfl, rfl⟩
  · exact Or.inr ⟨e, hentities ▸ he⟩
  · exact hpending ▸ hf
  · exact ⟨lent, hlent ▸ hl, hr, rfl⟩

theorem Touched.refl (s : Site α τ) : s.Touched P s := .of_holdings rfl

theorem Touched.trans {s'' : Site α τ} (h : s.Touched P s') (h' : s'.Touched P s'') :
    s.Touched P s'' where
  place := h'.place.trans h.place
  names := h'.names.trans h.names
  slots := h'.slots.trans h.slots
  elsewhere := by
    intro pos hpos
    exact ⟨(h'.elsewhere pos hpos).1.trans (h.elsewhere pos hpos).1,
      (h'.elsewhere pos hpos).2.trans (h.elsewhere pos hpos).2⟩
  entities := by
    intro pos e he
    rcases h'.entities pos e he with hpos | ⟨e', he'⟩
    · exact Or.inl hpos
    · exact h.entities pos e' he'
  pending := fun pos fields hf => h.pending pos fields (h'.pending pos fields hf)
  lent := by
    intro lent hl hr
    obtain ⟨lent', hl', hr', heq'⟩ := h'.lent lent hl hr
    obtain ⟨lent'', hl'', hr'', heq''⟩ := h.lent lent' hl' hr'
    exact ⟨lent'', hl'', hr'', heq''.trans heq'⟩

/-- A change of the installed entity at a position. -/
theorem touched_entities {entities : Keyed BlockPos (BlockEntity α)}
    (h : ∀ q, q ≠ pos → entities.find? q = s.chunk.entities.find? q) :
    s.Touched (· = pos) { s with chunk := { s.chunk with entities } } where
  place := rfl
  names := rfl
  slots := rfl
  elsewhere := fun q hq => ⟨h q hq, rfl⟩
  entities := by
    intro q e he
    by_cases hq : q = pos
    · exact Or.inl hq
    · exact Or.inr ⟨e, (h q hq).symm.trans he⟩
  pending := fun _ _ hf => hf
  lent := fun lent hl hr => ⟨lent, hl, hr, rfl⟩

/-- A change of the entity that is out of the chunk from a position. -/
theorem touched_modifyLent (s : Site α τ) (pos : BlockPos) {f : LentEntity → LentEntity}
    (hf : ∀ lent, ((f lent).pos, (f lent).type, (f lent).serial) =
      (lent.pos, lent.type, lent.serial)) :
    s.Touched (· = pos) { s with chunk := s.chunk.modifyLent pos f } := by
  unfold Chunk.modifyLent
  cases hat : s.chunk.lentAt? pos with
  | none => exact .refl s
  | some lent =>
    obtain ⟨hlent, hpos, hlive⟩ := Chunk.lentAt?_eq_some_iff.1 hat
    have hpos' : (f lent).pos = pos := (congrArg Prod.fst (hf lent)).trans hpos
    refine ⟨rfl, rfl, rfl, fun q hq => ⟨rfl, ?_⟩, fun q e he => Or.inr ⟨e, he⟩, fun _ _ h => h, ?_⟩
    · have hlent' : ({ s.chunk with lent := some (f lent) } : Chunk α).lent = some (f lent) := rfl
      rw [Chunk.lentAt?_of_some hlent, Chunk.lentAt?_of_some hlent', hpos, hpos',
        if_neg (fun h => hq h.1.symm), if_neg (fun h => hq h.1.symm)]
    · rintro _ ⟨⟩ _
      exact ⟨lent, hlent, hlive, (hf lent).symm⟩

/-- The entity that is out of the chunk from a position is removed. -/
def discardLent (s : Site α τ) (pos : BlockPos) : Site α τ :=
  { s with chunk := s.chunk.modifyLent pos fun lent => { lent with removed := true } }

theorem touched_discardLent (s : Site α τ) (pos : BlockPos) :
    s.Touched (· = pos) (s.discardLent pos) :=
  touched_modifyLent s pos fun _ => rfl

theorem lentAt?_discardLent (s : Site α τ) (pos : BlockPos) :
    (s.discardLent pos).chunk.lentAt? pos = none := by
  unfold discardLent Chunk.modifyLent
  split
  · next lent _ =>
    have hlent : ({ s.chunk with lent := some { lent with removed := true } } : Chunk α).lent =
        some { lent with removed := true } := rfl
    rw [Chunk.lentAt?_of_some hlent, if_neg (fun h => nomatch h.2)]
  · next hnone => exact hnone

/-- Listeners are not looked at. -/
theorem touched_updateListener (s : Site α τ) (pos : BlockPos) :
    s.Touched P (s.updateListener cfg pos) := by
  unfold updateListener
  split
  · exact .refl s
  · split
    · exact .of_holdings rfl
    · exact .of_holdings rfl

theorem touched_removeListener (s : Site α τ) (pos : BlockPos) :
    s.Touched P { s with chunk := s.chunk.removeListener pos } :=
  .of_holdings rfl

theorem touched_takeEntity (s : Site α τ) (pos : BlockPos) :
    s.Touched (· = pos) (s.takeEntity pos).2 := by
  unfold takeEntity
  split
  · refine (touched_entities fun q hq => ?_).trans
      (.of_holdings rfl)
    rw [Keyed.find?_swapErase, if_neg hq]
  · split
    · exact (touched_discardLent s pos).trans (.of_holdings rfl)
    · exact .refl s

/-- When an entity has been taken out, none is out of the chunk from its position to be ticked. -/
theorem lentAt?_takeEntity (hs : s.chunk.Sole) (pos : BlockPos) :
    (s.takeEntity pos).2.chunk.lentAt? pos = none := by
  unfold takeEntity
  split
  · next hfound =>
    refine Option.not_isSome_iff_eq_none.1 fun hout => ?_
    have hout : (s.chunk.lentAt? pos).isSome := hout
    unfold Keyed.contains at hfound
    rw [hs pos hout] at hfound
    cases hfound
  · split
    · exact lentAt?_discardLent s pos
    · next hnone => exact Option.not_isSome_iff_eq_none.1 hnone

/-- Whatever happened to an entity, one that goes on as before is ticked as before. -/
theorem selfAt?_modifyEntity {f : BlockEntity α → BlockEntity α} (hf : ∀ e, (f e).Continues e)
    (c : Chunk α) (pos q : BlockPos) : selfAt? (c.modifyEntity pos f) q = selfAt? c q := by
  unfold selfAt? tickedAt? Chunk.modifyEntity
  simp only [Keyed.find?_modify]
  by_cases hq : q = pos
  · subst hq
    rw [if_pos rfl]
    cases c.entities.find? q with
    | none => rfl
    | some e =>
      simp only [Option.map_some, (hf e).removed, (hf e).type, (hf e).serial]
      split <;> rfl
  · rw [if_neg hq]
    rfl

theorem touched_modifyEntity (s : Site α τ) (pos : BlockPos) (f : BlockEntity α → BlockEntity α) :
    s.Touched (· = pos) { s with chunk := s.chunk.modifyEntity pos f } := by
  refine touched_entities fun q hq => ?_
  rw [Keyed.find?_modify, if_neg hq]

theorem Touched.mono {Q : BlockPos → Prop} (h : s.Touched P s') (hPQ : ∀ pos, P pos → Q pos) :
    s.Touched Q s' where
  place := h.place
  names := h.names
  slots := h.slots
  elsewhere := fun pos hpos => h.elsewhere pos fun hP => hpos (hPQ pos hP)
  entities := fun pos e he => (h.entities pos e he).imp_left (hPQ pos)
  pending := h.pending
  lent := h.lent

theorem canTick_of_loaded (h : s.chunk.loaded) : s.canTick := by
  unfold canTick
  rw [h, Bool.true_or]

/-- An entity that is added is installed in the place of any other, and if the chunk can tick its
entities, listener and ticker are made anew. -/
theorem addEntity_eq_ite (s : Site α τ) (cfg : Config α τ) (e : BlockEntity α) :
    s.addEntity cfg e =
      if s.canTick then
        (((s.discardLent e.pos).withEntity e).updateListener cfg e.pos).updateTicker cfg e.pos
      else (s.discardLent e.pos).withEntity e := by
  have hground : ((s.discardLent e.pos).withEntity e).ground = s.ground :=
    ground_modifyLent s e.pos _
  rw [← canTick_eq hground]
  rfl

theorem addEntity_of_loaded (hloaded : s.chunk.loaded) (e : BlockEntity α) :
    s.addEntity cfg e = (((s.discardLent e.pos).withEntity e).updateListener cfg e.pos).updateTicker
      cfg e.pos := by
  rw [addEntity_eq_ite, if_pos (canTick_of_loaded hloaded)]

theorem touched_withEntity (s : Site α τ) (e : BlockEntity α) :
    s.Touched (· = e.pos) (s.withEntity e) := by
  refine .trans (touched_entities fun q hq => ?_) (.of_holdings rfl)
  exact (Keyed.find?_insert ..).trans (if_neg hq)

/-- What is installed once an entity has been added. -/
theorem find?_addEntity (s : Site α τ) (cfg : Config α τ) (e : BlockEntity α) (q : BlockPos) :
    (s.addEntity cfg e).chunk.entities.find? q =
      if q = e.pos then some ((s.discardLent e.pos).installed e)
      else s.chunk.entities.find? q := by
  have hinstalled : ((s.discardLent e.pos).withEntity e).chunk.entities.find? q =
      if q = e.pos then some ((s.discardLent e.pos).installed e)
      else s.chunk.entities.find? q := by
    have hsame : (s.discardLent e.pos).chunk.entities = s.chunk.entities := by
      unfold discardLent Chunk.modifyLent
      split <;> rfl
    rw [← hsame]
    exact Keyed.find?_insert ..
  rw [addEntity_eq_ite]
  split
  · rw [entities_updateTicker, entities_updateListener, hinstalled]
  · exact hinstalled

/-- The site with other names and tickers: whatever has been touched, no more has been. -/
def Retouched (P : BlockPos → Prop) (s s' : Site α τ) : Prop :=
  ∃ t names tickers, s.Touched P t ∧
    s' = { chunk := { t.chunk with tickers := names }, level := { t.level with tickers } }

theorem Touched.updateTicker (h : s.Touched P t) (cfg : Config α τ) (pos : BlockPos) :
    s.Retouched P (t.updateTicker cfg pos) := by
  obtain ⟨names, tickers, heq⟩ := updateTicker_eq t cfg pos
  exact ⟨t, names, tickers, h, heq⟩

theorem Touched.removeTicker (h : s.Touched P t) (pos : BlockPos) :
    s.Retouched P (t.removeTicker pos) := by
  obtain ⟨names, tickers, heq⟩ := removeTicker_eq t pos
  exact ⟨t, names, tickers, h, heq⟩

theorem Touched.retouched (h : s.Touched P t) : s.Retouched P t := ⟨t, _, _, h, rfl⟩

theorem Retouched.mono {Q : BlockPos → Prop} (h : s.Retouched P t) (hPQ : ∀ pos, P pos → Q pos) :
    s.Retouched Q t := by
  obtain ⟨u, names, tickers, htouched, rfl⟩ := h
  exact ⟨u, names, tickers, htouched.mono hPQ, rfl⟩

/-- What a step of block entities does in a chunk that is in its world, and where. -/
theorem EntityStep.moved (hloaded : s.chunk.loaded) (h : EntityStep cfg P P s s') :
    Moved cfg P s s' := by
  have htick : s.canTick := canTick_of_loaded hloaded
  cases h with
  | aside pending notices hshrink =>
    refine .still ⟨rfl, rfl, rfl, fun _ _ => ⟨rfl, rfl⟩, fun pos e he => Or.inr ⟨e, he⟩, hshrink,
      fun lent hl hr => ⟨lent, hl, hr, rfl⟩⟩ fun _ => rfl
  | add e hpos =>
    rw [addEntity_of_loaded hloaded]
    exact .updated e.pos _ hpos (((touched_discardLent s e.pos).trans
      (touched_withEntity _ e)).trans (touched_updateListener _ e.pos))
  | remove pos hpos =>
    unfold removeEntity
    rw [if_pos htick]
    exact .removed pos _ hpos ((touched_takeEntity s pos).trans (.of_holdings rfl))
  | evict pos hpos =>
    unfold evictRemoved
    split
    · exact .still (.refl s) fun _ => rfl
    · split
      · refine .removed pos _ hpos ((touched_entities fun q hq => ?_).trans (.of_holdings rfl))
        exact (Keyed.find?_swapErase ..).trans (if_neg hq)
      · exact .still (.refl s) fun _ => rfl
  | tellLent pos state hpos => exact .updated pos _ hpos (touched_modifyLent s pos fun _ => rfl)
  | tell pos state hpos => exact .updated pos _ hpos (touched_modifyEntity s pos _)

/-- **What a move does in a chunk that is in its world**, and where. -/
theorem Move.moved (hloaded : s.chunk.loaded) (h : Move cfg P s s') : Moved cfg P s s' := by
  cases h with
  | entity hstep => exact hstep.moved hloaded
  | aside hheld =>
    have hsame : s.Touched (fun _ => False) s' := .of_holdings hheld
    exact .still (.of_holdings hheld) fun pos => (hsame.elsewhere pos id).selfAt?_eq
  | renew pos hpos => exact .updated pos _ hpos (touched_updateListener s pos)
  | change pos f hpos hf =>
    refine .still ((touched_modifyEntity s pos f).mono ?_) (selfAt?_modifyEntity hf s.chunk pos)
    rintro q rfl
    exact hpos

/-! ### What chains of moves keep -/

theorem Touched.within (h : s.Touched P s') (hs : s.chunk.Within P) : s'.chunk.Within P where
  entities := by
    intro pos e he
    rcases h.entities pos e he with hpos | ⟨e', he'⟩
    · exact hpos
    · exact hs.entities pos e' he'
  pending := fun pos fields hf => hs.pending pos fields (h.pending pos fields hf)

/-- Names and tickers are not looked at. -/
theorem Moved.touched (h : Moved cfg P s s') : s.Retouched P s' := by
  cases h with
  | still htouched _ => exact htouched.retouched
  | updated pos t hpos htouched =>
    exact (htouched.mono fun q hq => hq ▸ hpos).updateTicker cfg pos
  | removed pos t hpos htouched =>
    exact (htouched.mono fun q hq => hq ▸ hpos).removeTicker pos

/-! ### What is touched wherever the chunk is -/

theorem retouched_withPending {pending : Keyed BlockPos Compound} {notices : Array Notice}
    (h : ∀ pos fields, pending.find? pos = some fields → s.chunk.pending.find? pos = some fields) :
    s.Retouched P (s.withPending pending notices) :=
  Touched.retouched ⟨rfl, rfl, rfl, fun _ _ => ⟨rfl, rfl⟩, fun _ e he => Or.inr ⟨e, he⟩, h,
    fun lent hl hr => ⟨lent, hl, hr, rfl⟩⟩

theorem retouched_addEntity (s : Site α τ) (cfg : Config α τ) (e : BlockEntity α) :
    (s.discardLent e.pos).Retouched (· = e.pos) (s.addEntity cfg e) := by
  have hinstalled := touched_withEntity (s.discardLent e.pos) e
  rw [addEntity_eq_ite]
  split
  · exact (hinstalled.trans (touched_updateListener _ e.pos)).updateTicker cfg e.pos
  · exact hinstalled.retouched

theorem retouched_removeEntity (s : Site α τ) (pos : BlockPos) :
    s.Retouched (· = pos) (s.removeEntity pos).2 := by
  have htaken : s.Touched (· = pos) (if s.canTick then s.takeEntity pos else (false, s)).2 := by
    split
    · exact touched_takeEntity s pos
    · exact .refl s
  exact Touched.removeTicker (htaken.trans (touched_removeListener _ pos)) pos

theorem retouched_evictRemoved (s : Site α τ) (pos : BlockPos) :
    s.Retouched (· = pos) (s.evictRemoved pos) := by
  unfold evictRemoved
  split
  · exact (Touched.refl s).retouched
  · split
    · have htaken : s.Touched (· = pos) { s with chunk := { s.chunk with
          entities := s.chunk.entities.swapErase pos } } :=
        touched_entities fun q hq => (Keyed.find?_swapErase ..).trans (if_neg hq)
      exact Touched.removeTicker (htaken.trans (touched_removeListener _ pos)) pos
    · exact (Touched.refl s).retouched

theorem retouched_tellLent (s : Site α τ) (cfg : Config α τ) (pos : BlockPos)
    (state : BlockState) : s.Retouched (· = pos) (s.tellLent cfg pos state) := by
  have htold := touched_modifyLent s pos (f := fun lent => { lent with cachedState := state })
    fun _ => rfl
  exact htold.updateTicker cfg pos

theorem retouched_tell (s : Site α τ) (cfg : Config α τ) (pos : BlockPos) (state : BlockState) :
    s.Retouched (· = pos) (s.tell cfg pos state) :=
  (touched_modifyEntity s pos _).updateTicker cfg pos

/-- The chunk stays in its place. -/
theorem Moves.place (h : Moves cfg P s s') (hloaded : s.chunk.loaded) :
    s'.holdings.1 = s.holdings.1 := by
  induction h with
  | refl => rfl
  | tail _ hmove ih =>
    have hloaded' := (congrArg (fun place => place.2.1) ih).trans hloaded
    obtain ⟨t, names, tickers, htouched, rfl⟩ := (hmove.moved hloaded').touched
    exact htouched.place.trans ih

theorem Moves.loaded (h : Moves cfg P s s') (hloaded : s.chunk.loaded) : s'.chunk.loaded :=
  (congrArg (fun place => place.2.1) (h.place hloaded)).trans hloaded

theorem Moves.pos_eq (h : Moves cfg P s s') (hloaded : s.chunk.loaded) :
    s'.chunk.pos = s.chunk.pos :=
  congrArg (fun place => place.1) (h.place hloaded)

/-- The entities of the chunk stay within their bounds. -/
theorem Moves.within (h : Moves cfg P s s') (hloaded : s.chunk.loaded) (hs : s.chunk.Within P) :
    s'.chunk.Within P := by
  induction h with
  | refl => exact hs
  | tail hmoves hmove ih =>
    obtain ⟨t, names, tickers, htouched, rfl⟩ := (hmove.moved (Moves.loaded hmoves hloaded)).touched
    exact ⟨(htouched.within ih).entities, (htouched.within ih).pending⟩

/-! ### Operations are chains of moves -/

theorem Move.note (s : Site α τ) (notice : Notice) : Move cfg P s (s.note notice) := .aside rfl

section Write

variable (hdefault : cfg.DefaultReactions) (hmakes : cfg.MakesOnly P)
include hdefault hmakes

/-- A write stores a state, takes the old block's entity out if need be, and attaches the new
block's entity. -/
theorem moves_writeBlock (depth : Nat) (s : Site α τ) {pos : BlockPos} (hpos : P pos)
    (state : BlockState) (flags : SetFlags) :
    Moves cfg P s (writeBlock cfg depth s pos state flags).2 := by
  cases depth with
  | zero => exact .single (.note s _)
  | succ depth =>
    show Moves cfg P s (s.writeWith (nestedWriter cfg depth) cfg pos state flags).2
    unfold writeWith
    cases cfg.height.sectionIndex? pos.y with
    | none => exact .refl
    | some index =>
      have hstored : Moves cfg P s (s.storeBlock cfg index pos state).2 :=
        .single (.aside (holdings_storeBlock s cfg index pos state))
      simp only
      split
      · next heq => rwa [heq] at hstored
      · next previous stored heq =>
        rw [heq] at hstored
        have hreplaced : Moves cfg P s (stored.replaceBlock (nestedWriter cfg depth) cfg pos previous
            state flags.moved) := by
          rw [replaceBlock_default hdefault]
          split
          · exact hstored.tail (.entity (.remove pos hpos))
          · exact hstored
        split
        · exact hreplaced
        · rw [hdefault.onAdded]
          simp only [Reaction.run, ite_self]
          have hattached := hreplaced.trans (EntitySteps.moves
            (steps_attachEntity hmakes.makes (stored.replaceBlock (nestedWriter cfg depth) cfg pos previous
              state flags.moved) hpos state))
          exact hattached.tail (.aside rfl)

theorem moves_setBlock (s : Site α τ) {pos : BlockPos} (hpos : P pos) (state : BlockState)
    (flags : SetFlags) : Moves cfg P s (s.setBlock cfg pos state flags).2 :=
  moves_writeBlock hdefault hmakes _ s hpos state flags

theorem moves_settleBlock (s : Site α τ) (view : BlockPos → Except Fault BlockState)
    {pos : BlockPos} (hpos : P pos) : Moves cfg P s (s.settleBlock cfg view pos) := by
  unfold settleBlock
  split
  · exact moves_setBlock hdefault hmakes s hpos _ _
  · exact .single (.note s _)

theorem moves_settleSection {s : Site α τ} (hloaded : s.chunk.loaded)
    (hplaces : ∀ packed sectionY, P (unpackLocal packed sectionY s.chunk.pos))
    (view : BlockPos → Except Fault BlockState) (index : Nat) :
    Moves cfg P s (s.settleSection cfg view index) := by
  have hqueue : ∀ (queue : List UInt16) (sectionY : Int) {s : Site α τ}, s.chunk.loaded →
      (∀ packed sectionY, P (unpackLocal packed sectionY s.chunk.pos)) →
      Moves cfg P s (queue.foldl (fun s packed =>
        s.settleBlock cfg view (unpackLocal packed sectionY s.chunk.pos)) s) := by
    intro queue sectionY
    induction queue with
    | nil => exact fun _ _ => .refl
    | cons packed queue ih =>
      intro s hloaded hplaces
      have hfirst := moves_settleBlock hdefault hmakes s view (hplaces packed sectionY)
      refine hfirst.trans (ih (hfirst.loaded hloaded) ?_)
      rw [hfirst.pos_eq hloaded]
      exact hplaces
  unfold settleSection
  refine .head (.aside ?_) (hqueue _ _ ?_ ?_)
  · rfl
  · exact hloaded
  · exact hplaces

theorem moves_settleSections {s : Site α τ} (hloaded : s.chunk.loaded)
    (hplaces : ∀ packed sectionY, P (unpackLocal packed sectionY s.chunk.pos))
    (view : BlockPos → Except Fault BlockState) (indices : List Nat) :
    Moves cfg P s (indices.foldl (fun s index => s.settleSection cfg view index) s) := by
  induction indices generalizing s with
  | nil => exact .refl
  | cons index indices ih =>
    have hfirst := moves_settleSection hdefault hmakes hloaded hplaces view index
    refine hfirst.trans (ih (hfirst.loaded hloaded) ?_)
    rw [hfirst.pos_eq hloaded]
    exact hplaces

omit hdefault in
theorem moves_loadAllPending (s : Site α τ) (hs : s.chunk.Within P) :
    Moves cfg P s (s.loadAllPending cfg) := by
  have hfold : ∀ (positions : List BlockPos) (s : Site α τ), (∀ pos ∈ positions, P pos) →
      Moves cfg P s (positions.foldl (fun s pos => (s.getEntity cfg pos .check).2) s) := by
    intro positions
    induction positions with
    | nil => exact fun _ _ => .refl
    | cons pos positions ih =>
      intro s hP
      have hfirst := EntitySteps.moves (steps_getEntity hmakes.makes s (hP pos List.mem_cons_self) .check)
      exact hfirst.trans (ih _ fun q hq => hP q (List.mem_cons_of_mem pos hq))
  have hkeys : ∀ pos ∈ s.chunk.pending.keys, P pos := by
    intro pos hpos
    obtain ⟨fields, hfields⟩ := Option.isSome_iff_exists.1 (Keyed.contains_iff.2 hpos)
    exact hs.pending pos fields hfields
  have hloaded := hfold s.chunk.pending.keys s hkeys
  unfold loadAllPending
  generalize s.chunk.pending.keys.foldl (fun s pos => (s.getEntity cfg pos .check).2) s = t
    at hloaded ⊢
  exact hloaded.tail (.entity (.aside {} t.level.notices fun _ _ h => nomatch h))

/-- **Settling a chunk** is a chain of moves at positions of its queues and of its saved data. -/
theorem moves_settleAll {s : Site α τ} (hloaded : s.chunk.loaded) (hs : s.chunk.Within P)
    (hplaces : ∀ packed sectionY, P (unpackLocal packed sectionY s.chunk.pos))
    (view : BlockPos → Except Fault BlockState) : Moves cfg P s (s.settleAll cfg view) := by
  have hsettled := moves_settleSections hdefault hmakes hloaded hplaces view
    (List.range s.chunk.unsettled.size)
  unfold settleAll
  generalize (List.range s.chunk.unsettled.size).foldl
    (fun s index => s.settleSection cfg view index) s = t at hsettled ⊢
  have hpromoted : Moves cfg P s t.promoteTicks := hsettled.tail (.aside rfl)
  exact hpromoted.trans (moves_loadAllPending hmakes _ (hpromoted.within hloaded hs))

end Write

/-- When a chunk comes into its world, listeners and tickers of its entities are made. -/
theorem moves_updateEntities (s : Site α τ) (hs : s.chunk.Within P) :
    Moves cfg P s (s.updateEntities cfg) := by
  have hfold : ∀ (positions : List BlockPos) (s : Site α τ), (∀ pos ∈ positions, P pos) →
      Moves cfg P s (positions.foldl (fun s pos =>
        (s.updateListener cfg pos).updateTicker cfg pos) s) := by
    intro positions
    induction positions with
    | nil => exact fun _ _ => .refl
    | cons pos positions ih =>
      intro s hP
      exact .head (.renew pos (hP pos List.mem_cons_self))
        (ih _ fun q hq => hP q (List.mem_cons_of_mem pos hq))
  refine hfold _ s fun pos hpos => ?_
  obtain ⟨⟨_, e⟩, hmem, rfl⟩ := List.mem_map.1 hpos
  exact hs.entities _ e (Keyed.find?_eq_some_iff.2 (List.mem_filter.1 hmem).1)

end Site

end VoxelChunk
