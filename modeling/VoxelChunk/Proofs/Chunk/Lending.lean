import VoxelChunk.Proofs.Chunk.Owners

/-!
# A block entity away from its chunk

While a block entity is out of its chunk to be ticked, the chunk keeps a record of it. What is done
at the position that it is away from leaves marks: writes to its block, and that an entity was added
there or removed. As long as the marks are writes of one kind of block, the record stays and holds
the state written last; with any other mark the entity will not come back.

## Main definitions

* `Mark`, `Displaced`, `lastWritten` — what operations did at a position.
* `Chunk.Awaits`, `Chunk.Forsaken` — an entity of the chunk will come back, or none will.
* `Chunk.Fate` — which of both it is, as the marks tell.
* `Config.Hosts`, `Config.Lends` — what is expected of blocks and block entities.

## Main results

* `Chunk.Awaits.setBlock`, `Chunk.Awaits.getEntity`, `Chunk.Awaits.addEntity`,
  `Chunk.Awaits.removeEntity`, `Chunk.Awaits.settleAll` — the marks of each operation tell what
  becomes of the entity.
-/

namespace VoxelChunk

variable {α τ : Type}

/-! ### Marks -/

/-- What happened at the position of an entity that is out of its chunk. -/
inductive Mark where
  /-- The block there was written. -/
  | wrote (previous new : BlockState)
  /-- An entity was added or removed, or the chunk left or was replaced. -/
  | gone
  deriving DecidableEq, Repr

/-- The entity is not wanted any more: it is gone, or another kind of block is there. -/
def Mark.Parts (facts : BlockFacts) : Mark → Prop
  | wrote previous new => facts.blockOf previous ≠ facts.blockOf new
  | gone => True

/-- Some mark parts the entity from its position. -/
def Displaced (facts : BlockFacts) (marks : List Mark) : Prop := ∃ mark ∈ marks, mark.Parts facts

/-- The state that the last write has written, or the given one if there is none. -/
def lastWritten : List Mark → BlockState → BlockState
  | [], state => state
  | .wrote _ new :: marks, _ => lastWritten marks new
  | .gone :: marks, state => lastWritten marks state

/-- The record of an entity after the marks. -/
def LentEntity.after (lent : LentEntity) (marks : List Mark) : LentEntity :=
  { lent with cachedState := lastWritten marks lent.cachedState }

/-- The mark of a write on the position of the entity, given its outcome. -/
def writeMarks (home pos : BlockPos) (state : BlockState) (outcome : Option BlockState) :
    List Mark :=
  if pos = home then outcome.toList.map fun previous => .wrote previous state else []

/-- The marks that steps leave, one after another. -/
def marksAlong {β ι : Type} (step : β → ι → β) (marks : β → ι → List Mark) :
    β → List ι → List Mark
  | _, [] => []
  | b, i :: is => marks b i ++ marksAlong step marks (step b i) is

section Marks

variable {facts : BlockFacts} {marks marks' : List Mark}

theorem displaced_append :
    Displaced facts (marks ++ marks') ↔ Displaced facts marks ∨ Displaced facts marks' := by
  unfold Displaced
  simp only [List.mem_append, or_and_right, exists_or]

theorem not_displaced_nil : ¬Displaced facts [] := by
  rintro ⟨mark, hmem, -⟩
  cases hmem

theorem displaced_singleton {mark : Mark} : Displaced facts [mark] ↔ mark.Parts facts := by
  unfold Displaced
  simp

theorem lastWritten_append (marks marks' : List Mark) (state : BlockState) :
    lastWritten (marks ++ marks') state = lastWritten marks' (lastWritten marks state) := by
  induction marks generalizing state with
  | nil => rfl
  | cons mark marks ih =>
    cases mark with
    | wrote previous new => exact ih new
    | gone => exact ih state

theorem LentEntity.after_append (lent : LentEntity) (marks marks' : List Mark) :
    lent.after (marks ++ marks') = (lent.after marks).after marks' := by
  unfold after
  rw [lastWritten_append]

end Marks

/-! ### What becomes of the entity -/

/-- The chunk is in its world and in order, and the entity of which it keeps the record will come
back. -/
structure Chunk.Awaits (cfg : Config α τ) (lent : LentEntity) (c : Chunk α) : Prop where
  loaded : c.loaded
  column : c.pos = .ofBlock lent.pos
  sound : cfg.SoundStates c.sections
  record : c.lent = some lent
  live : lent.removed = false
  absent : c.entities.find? lent.pos = none
  block : cfg.facts.hasEntity (columnState c.sections cfg.height lent.pos.x lent.pos.y lent.pos.z)

theorem Chunk.Awaits.lentAt?_eq_some {cfg : Config α τ} {lent : LentEntity} {c : Chunk α}
    (h : c.Awaits cfg lent) : c.lentAt? lent.pos = some lent :=
  lentAt?_eq_some_iff.2 ⟨h.record, rfl, h.live⟩

/-- No entity that is out of the chunk will come back. -/
def Chunk.Forsaken (c : Chunk α) : Prop := ∀ lent, c.lent = some lent → lent.removed = true

/-- What becomes of the entity after the marks. -/
structure Chunk.Fate (cfg : Config α τ) (lent : LentEntity) (marks : List Mark) (c : Chunk α) :
    Prop where
  loaded : c.loaded
  awaits : ¬Displaced cfg.facts marks → c.Awaits cfg (lent.after marks)
  forsaken : Displaced cfg.facts marks → c.Forsaken

/-- A block that is stored in one state may be shown in it, or as plain air if it is some air. -/
def BlockFacts.ShowsAs (facts : BlockFacts) (stored shown : BlockState) : Prop :=
  shown = stored ∨ shown = .air ∧ facts.isAir stored

/-- Whether a block has an entity is a matter of its kind, and those that support some type of
entities have one. -/
structure Config.Hosts (cfg : Config α τ) : Prop where
  kind : ∀ state state', cfg.facts.blockOf state = cfg.facts.blockOf state' →
    cfg.facts.hasEntity state = cfg.facts.hasEntity state'
  supports : ∀ type state, cfg.registry.supports type state → cfg.facts.hasEntity state

/-- Blocks and block entities are as is expected of those that are ticked. -/
structure Config.Lends (cfg : Config α τ) : Prop extends Config.Hosts cfg where
  /-- Blocks react as they do unless told otherwise. -/
  default : cfg.DefaultReactions
  /-- Whatever is shown as plain air has an entity if plain air supports some type. -/
  airs : ∀ type state, cfg.registry.supports type .air → cfg.facts.isAir state →
    cfg.facts.hasEntity state
  /-- Blocks settle in states that there are. -/
  settles : ∀ state face neighbor, state.FitsIn cfg.globalBits →
    (cfg.facts.neighborUpdate state face neighbor).FitsIn cfg.globalBits

/-- A block that is shown in a state which supports some type of entities has one. -/
theorem Config.Lends.hasEntity_of_shown {cfg : Config α τ} (h : cfg.Lends) {type : EntityType}
    {stored shown : BlockState} (hshown : cfg.facts.ShowsAs stored shown)
    (hsupports : cfg.registry.supports type shown) : cfg.facts.hasEntity stored := by
  rcases hshown with rfl | ⟨rfl, hair⟩
  · exact h.supports type shown hsupports
  · exact h.airs type stored hsupports hair

namespace Site

variable {cfg : Config α τ} {P : BlockPos → Prop} {s s' t : Site α τ} {pos : BlockPos}
  {state : BlockState} {lent : LentEntity}

theorem Touched.forsaken (h : s.Touched P s') (hs : s.chunk.Forsaken) : s'.chunk.Forsaken := by
  intro lent hl
  cases hr : lent.removed with
  | true => rfl
  | false =>
    obtain ⟨lent', hl', hr', -⟩ := h.lent lent hl hr
    rw [hs lent' hl'] at hr'
    cases hr'

/-- An entity that is not to come back never will. -/
theorem Moves.forsaken (h : Moves cfg P s s') (hloaded : s.chunk.loaded)
    (hs : s.chunk.Forsaken) : s'.chunk.Forsaken := by
  induction h with
  | refl => exact hs
  | tail hmoves hmove ih =>
    obtain ⟨t, names, tickers, htouched, rfl⟩ := (hmove.moved (Moves.loaded hmoves hloaded)).touched
    exact htouched.forsaken ih

/-- Nothing has changed at a position at which no move was made. -/
theorem Moves.sameAt (h : Moves cfg P s s') (hloaded : s.chunk.loaded) (hpos : ¬P pos) :
    s.SameAt pos s' := by
  induction h with
  | refl => exact ⟨rfl, rfl⟩
  | tail hmoves hmove ih =>
    obtain ⟨t, names, tickers, htouched, rfl⟩ := (hmove.moved (Moves.loaded hmoves hloaded)).touched
    obtain ⟨hentity, hlent⟩ := htouched.elsewhere pos hpos
    exact ⟨hentity.trans ih.1, hlent.trans ih.2⟩

/-- Moves elsewhere leave an entity that will come back alone. -/
theorem awaits_of_moves (h : s.chunk.Awaits cfg lent) (hm : Moves cfg (· ≠ lent.pos) s s')
    (hsound : cfg.SoundStates s'.chunk.sections)
    (hblock : cfg.facts.hasEntity (s'.stateOf cfg lent.pos)) : s'.chunk.Awaits cfg lent := by
  obtain ⟨hentity, hlent⟩ := hm.sameAt h.loaded (fun hne => hne rfl)
  rw [h.lentAt?_eq_some] at hlent
  exact ⟨hm.loaded h.loaded, (hm.pos_eq h.loaded).trans h.column, hsound,
    (Chunk.lentAt?_eq_some_iff.1 hlent).1, h.live, hentity.trans h.absent, hblock⟩

/-- Steps elsewhere leave an entity that will come back alone. -/
theorem awaits_of_ground (h : s.chunk.Awaits cfg lent) (hm : Moves cfg (· ≠ lent.pos) s s')
    (hground : s'.ground = s.ground) : s'.chunk.Awaits cfg lent := by
  have hsections : s'.chunk.sections = s.chunk.sections := congrArg Prod.fst (blocks_eq hground)
  refine awaits_of_moves h hm (hsections ▸ h.sound) ?_
  unfold stateOf
  rw [hsections]
  exact h.block

/-! ### Writes -/

/-- All that can come of a write when blocks react by default. -/
inductive Wrote (cfg : Config α τ) (s : Site α τ) (pos : BlockPos) (state : BlockState)
    (flags : SetFlags) : Option BlockState × Site α τ → Prop
  | same (t : Site α τ) : t.holdings = s.holdings → cfg.SoundStates t.chunk.sections →
    (∀ q, t.stateOf cfg q = s.stateOf cfg q) → Wrote cfg s pos state flags (none, t)
  /-- The entity of the old block leaves if another kind of block comes, and the new block's entity
  is attached. -/
  | changed (t r : Site α τ) : t.holdings = s.holdings → cfg.SoundStates t.chunk.sections →
    (∀ q, t.stateOf cfg q = if q.SamePlace pos then state else s.stateOf cfg q) →
    r = (if cfg.facts.hasEntity (s.stateOf cfg pos) ∧
        cfg.facts.blockOf (s.stateOf cfg pos) ≠ cfg.facts.blockOf state then (t.removeEntity pos).2
      else t) →
    Wrote cfg s pos state flags (some (s.stateOf cfg pos), Site.push
      { r.attachEntity cfg pos state with
        chunk := { (r.attachEntity cfg pos state).chunk with needsSaving := true } }
      (.block pos (s.stateOf cfg pos) state flags))

theorem wrote_setBlock (hdefault : cfg.DefaultReactions) (h : cfg.SoundStates s.chunk.sections)
    (hs : state.FitsIn cfg.globalBits) (flags : SetFlags) :
    Wrote cfg s pos state flags (s.setBlock cfg pos state flags) := by
  show Wrote cfg s pos state flags (s.writeWith (nestedWriter cfg cfg.nesting) cfg pos state flags)
  unfold writeWith
  cases hi : cfg.height.sectionIndex? pos.y with
  | none => exact .same s rfl h fun _ => rfl
  | some index =>
    have hstored := storeBlock_states h hi hs
    have hheld := holdings_storeBlock s cfg index pos state
    simp only
    generalize s.storeBlock cfg index pos state = out at hstored hheld ⊢
    obtain ⟨outcome, t⟩ := out
    cases outcome with
    | none => exact .same t hheld hstored.sound (hstored.unchanged rfl)
    | some previous =>
      obtain ⟨rfl, -, hthere⟩ := hstored.previous previous rfl
      simp only
      generalize hr : t.replaceBlock (nestedWriter cfg cfg.nesting) cfg pos (s.stateOf cfg pos) state
        flags.moved = r
      rw [replaceBlock_default hdefault] at hr
      -- the entity may have left, but the block is the one that has been written
      have hground : r.ground = t.ground := by
        rw [← hr]
        split
        · exact ground_removeEntity t pos
        · rfl
      have hsections : r.chunk.sections = t.chunk.sections :=
        congrArg Prod.fst (blocks_eq hground)
      have hkind : r.storedKind? cfg index pos = some (cfg.facts.blockOf state) := by
        have hstate : r.stateOf cfg pos = state := by
          unfold stateOf
          rw [hsections]
          exact (hstored.changed rfl pos).trans (if_pos ⟨rfl, rfl, rfl⟩)
        rw [storedKind?_of_soundStates (hsections ▸ hstored.sound) hi (by rwa [hsections]), hstate]
      rw [if_neg (fun hne => hne hkind), hdefault.onAdded]
      simp only [Reaction.run, ite_self]
      exact .changed t r hheld hstored.sound (hstored.changed rfl) hr.symm

/-- When the removal of an entity that is away is noted, it will not come back. -/
theorem forsaken_removeEntity (hloaded : s.chunk.loaded) (hat : s.chunk.lentAt? pos = some lent)
    (hnone : s.chunk.entities.find? pos = none) : (s.removeEntity pos).2.chunk.Forsaken := by
  have habsent : s.chunk.entities.contains pos = false := by
    unfold Keyed.contains
    rw [hnone]
    rfl
  have htaken : (s.takeEntity pos).2.chunk.lent = some { lent with removed := true } := by
    unfold takeEntity Chunk.modifyLent
    rw [habsent, hat]
    rfl
  unfold removeEntity
  rw [if_pos (canTick_of_loaded hloaded)]
  obtain ⟨names, tickers, heq⟩ := removeTicker_eq ({ (s.takeEntity pos).2 with
    chunk := (s.takeEntity pos).2.chunk.removeListener pos } : Site α τ) pos
  simp only [heq]
  intro other hother
  have hother : (s.takeEntity pos).2.chunk.lent = some other := hother
  rw [htaken] at hother
  cases hother
  rfl

/-- An entity that is added takes the place of the one that is away. -/
theorem forsaken_addEntity (h : s.chunk.Awaits cfg lent) {e : BlockEntity α}
    (he : e.pos = lent.pos) :
    (s.addEntity cfg e).chunk.Forsaken := by
  have hgone : (s.discardLent e.pos).chunk.Forsaken := by
    unfold discardLent Chunk.modifyLent
    rw [he, h.lentAt?_eq_some]
    rintro other ⟨⟩
    rfl
  rw [addEntity_of_loaded h.loaded]
  obtain ⟨names, tickers, heq⟩ := updateTicker_eq
    (((s.discardLent e.pos).withEntity e).updateListener cfg e.pos) cfg e.pos
  rw [heq]
  exact ((touched_withEntity _ e).trans (touched_updateListener _ e.pos)).forsaken hgone

/-- An entity that is away is told when its block takes another state of its kind. -/
theorem awaits_attachEntity (h : s.chunk.Awaits cfg lent) (hstate : s.stateOf cfg lent.pos = state) :
    (s.attachEntity cfg lent.pos state).chunk.Awaits cfg { lent with cachedState := state } := by
  have hnew : cfg.facts.hasEntity state := by
    rw [← hstate]
    exact h.block
  have htold : s.attachEntity cfg lent.pos state = s.tellLent cfg lent.pos state := by
    unfold attachEntity updateEntityState
    rw [if_pos hnew, h.lentAt?_eq_some]
    rfl
  obtain ⟨names, tickers, heq⟩ := updateTicker_eq ({ s with
    chunk := s.chunk.modifyLent lent.pos fun lent => { lent with cachedState := state } } :
      Site α τ) cfg lent.pos
  rw [htold]
  unfold tellLent
  rw [heq]
  unfold Chunk.modifyLent
  rw [h.lentAt?_eq_some]
  exact ⟨h.loaded, h.column, h.sound, rfl, h.live, h.absent, h.block⟩

/-- A block of the same kind comes to the position of an entity that is away. -/
theorem awaits_rewrite (h : s.chunk.Awaits cfg lent) (hcfg : cfg.Lends)
    (hheld : t.holdings = s.holdings) (hsound : cfg.SoundStates t.chunk.sections)
    (hnew : t.stateOf cfg lent.pos = state)
    (hkind : cfg.facts.blockOf (s.stateOf cfg lent.pos) = cfg.facts.blockOf state) :
    (t.attachEntity cfg lent.pos state).chunk.Awaits cfg { lent with cachedState := state } := by
  have hblock : cfg.facts.hasEntity (t.stateOf cfg lent.pos) := by
    rw [hnew, ← hcfg.kind _ _ hkind]
    exact h.block
  exact awaits_attachEntity (awaits_of_moves h (.single (.aside hheld)) hsound hblock) hnew

/-- A block of another kind comes to the position of an entity that is away. -/
theorem forsaken_replace (h : s.chunk.Awaits cfg lent) (hheld : t.holdings = s.holdings) :
    ((t.removeEntity lent.pos).2.attachEntity cfg lent.pos state).chunk.Forsaken := by
  have hlent : t.chunk.lent = s.chunk.lent := congrArg (fun held => held.2.2.2.1) hheld
  have hentities : t.chunk.entities = s.chunk.entities := congrArg (fun held => held.2.1) hheld
  have hloaded : t.chunk.loaded := (congrArg (fun held => held.1.2.1) hheld).trans h.loaded
  have hat : t.chunk.lentAt? lent.pos = some lent :=
    Chunk.lentAt?_eq_some_iff.2 ⟨hlent.trans h.record, rfl, h.live⟩
  have hremoved := forsaken_removeEntity hloaded hat (hentities ▸ h.absent)
  have hstill : (t.removeEntity lent.pos).2.chunk.loaded :=
    (congrArg (fun ground => ground.2.1) (ground_removeEntity t lent.pos)).trans hloaded
  exact (steps_attachEntity cfg.makesOnly_true.makes _ trivial state).moves.forsaken hstill hremoved

end Site

/-! ### Marks tell what becomes of the entity -/

namespace Chunk

variable {cfg : Config α τ} {P : BlockPos → Prop} {s s' : Site α τ} {c : Chunk α}
  {lent : LentEntity} {marks marks' : List Mark}

theorem Awaits.fate (h : c.Awaits cfg lent) : c.Fate cfg lent [] where
  loaded := h.loaded
  awaits := fun _ => h
  forsaken := fun hd => absurd hd not_displaced_nil

theorem Forsaken.fate (hloaded : c.loaded) (h : c.Forsaken) {mark : Mark}
    (hmark : mark.Parts cfg.facts) : c.Fate cfg lent [mark] where
  loaded := hloaded
  awaits := fun hd => absurd (displaced_singleton.2 hmark) hd
  forsaken := fun _ => h

/-- What neither concerns the blocks nor the record of the entity does not matter. -/
theorem Fate.update (h : c.Fate cfg lent marks) {c' : Chunk α} (hloaded : c'.loaded = c.loaded)
    (hpos : c'.pos = c.pos) (hsections : c'.sections = c.sections) (hlent : c'.lent = c.lent)
    (hentities : c.entities.find? lent.pos = none → c'.entities.find? lent.pos = none) :
    c'.Fate cfg lent marks where
  loaded := hloaded.trans h.loaded
  awaits := by
    intro hd
    have ha := h.awaits hd
    exact ⟨hloaded.trans ha.loaded, hpos.trans ha.column, hsections ▸ ha.sound,
      hlent.trans ha.record, ha.live, hentities ha.absent, hsections ▸ ha.block⟩
  forsaken := by
    intro hd other hother
    exact h.forsaken hd other (hlent ▸ hother)

/-- Marks go on where others ended: an entity that does not come back stays away, and one that comes
back is seen by the next operation. -/
theorem Fate.trans (h : s.chunk.Fate cfg lent marks) (hm : Site.Moves cfg P s s')
    (hstep : ∀ lent' : LentEntity, lent'.pos = lent.pos → s.chunk.Awaits cfg lent' →
      s'.chunk.Fate cfg lent' marks') : s'.chunk.Fate cfg lent (marks ++ marks') where
  loaded := hm.loaded h.loaded
  awaits := by
    intro hd
    rw [displaced_append, not_or] at hd
    rw [LentEntity.after_append]
    exact (hstep (lent.after marks) rfl (h.awaits hd.1)).awaits hd.2
  forsaken := by
    intro hd
    by_cases hfirst : Displaced cfg.facts marks
    · exact hm.forsaken h.loaded (h.forsaken hfirst)
    · have hsecond := (displaced_append.1 hd).resolve_left hfirst
      exact (hstep (lent.after marks) rfl (h.awaits hfirst)).forsaken hsecond

/-- **The marks of steps, one after another**, tell what becomes of the entity if those of each step
do. -/
theorem Fate.along {ι : Type} {step : Site α τ → ι → Site α τ} {marksOf : Site α τ → ι → List Mark}
    (hmoves : ∀ (s : Site α τ) (i : ι), s.chunk.loaded →
      Site.Moves cfg (fun _ => True) s (step s i))
    (hstep : ∀ (s : Site α τ) (i : ι) (lent' : LentEntity), lent'.pos = lent.pos →
      s.chunk.Awaits cfg lent' → (step s i).chunk.Fate cfg lent' (marksOf s i))
    (h : s.chunk.Fate cfg lent marks) (is : List ι) :
    (is.foldl step s).chunk.Fate cfg lent (marks ++ marksAlong step marksOf s is) := by
  induction is generalizing s marks with
  | nil =>
    unfold marksAlong
    rw [List.append_nil]
    exact h
  | cons i is ih =>
    unfold marksAlong
    rw [← List.append_assoc]
    exact ih (h.trans (hmoves s i h.loaded) (hstep s i))

end Chunk

/-! ### Operations -/

namespace Chunk

variable {cfg : Config α τ} {s : Site α τ} {lent : LentEntity} {pos : BlockPos}
  {state : BlockState}

/-- An entity that is away is neither returned nor replaced by asking for one. -/
theorem Awaits.getEntity (h : s.chunk.Awaits cfg lent) (hmakes : cfg.MakesOnly (· ≠ lent.pos))
    (pos : BlockPos) (mode : CreationMode) :
    (s.getEntity cfg pos mode).2.chunk.Awaits cfg lent := by
  by_cases hhome : pos = lent.pos
  · have hsame : (s.getEntity cfg pos mode).2 = s := by
      rw [hhome]
      unfold Site.getEntity
      rw [h.lentAt?_eq_some]
      rfl
    rwa [hsame]
  · exact Site.awaits_of_ground h (Site.steps_getEntity hmakes.makes s hhome mode).moves
      (Site.ground_getEntity s pos mode)

theorem Awaits.addEntity (h : s.chunk.Awaits cfg lent) (e : BlockEntity α) :
    (s.addEntity cfg e).chunk.Fate cfg lent (if e.pos = lent.pos then [.gone] else []) := by
  by_cases hhome : e.pos = lent.pos
  · have hm : Site.Moves cfg (fun _ => True) s (s.addEntity cfg e) :=
      .single (.entity (.add e trivial))
    rw [if_pos hhome]
    exact (Site.forsaken_addEntity h hhome).fate (hm.loaded h.loaded) trivial
  · rw [if_neg hhome]
    exact (Site.awaits_of_ground h (.single (.entity (.add e hhome)))
      (Site.ground_addEntity s e)).fate

theorem Awaits.removeEntity (h : s.chunk.Awaits cfg lent) (pos : BlockPos) :
    (s.removeEntity pos).2.chunk.Fate cfg lent (if pos = lent.pos then [.gone] else []) := by
  by_cases hhome : pos = lent.pos
  · have hm : Site.Moves cfg (fun _ => True) s (s.removeEntity pos).2 :=
      .single (.entity (.remove pos trivial))
    have hgone := Site.forsaken_removeEntity h.loaded h.lentAt?_eq_some h.absent
    rw [if_pos hhome]
    rw [hhome] at hm ⊢
    exact hgone.fate (hm.loaded h.loaded) trivial
  · rw [if_neg hhome]
    exact (Site.awaits_of_ground h (.single (.entity (.remove pos hhome)))
      (Site.ground_removeEntity s pos)).fate

/-- A write at the position of the entity. -/
theorem Awaits.overwrite (h : s.chunk.Awaits cfg lent) (hcfg : cfg.Lends)
    (hs : state.FitsIn cfg.globalBits) (flags : SetFlags) :
    (s.setBlock cfg lent.pos state flags).2.chunk.Fate cfg lent
      (writeMarks lent.pos lent.pos state (s.setBlock cfg lent.pos state flags).1) := by
  have hwrote : Site.Wrote cfg s lent.pos state flags _ :=
    Site.wrote_setBlock hcfg.default h.sound hs flags
  have hloaded : (s.setBlock cfg lent.pos state flags).2.chunk.loaded :=
    (Site.moves_setBlock hcfg.default cfg.makesOnly_true s trivial state flags).loaded h.loaded
  unfold writeMarks
  rw [if_pos rfl]
  generalize s.setBlock cfg lent.pos state flags = out at hwrote hloaded ⊢
  cases hwrote with
  | same t hheld hsound hstate =>
    have hblock : cfg.facts.hasEntity (t.stateOf cfg lent.pos) := by
      rw [hstate]
      exact h.block
    exact (Site.awaits_of_moves h (.single (.aside hheld)) hsound hblock).fate
  | changed t r hheld hsound hstate hr =>
    have hnew : t.stateOf cfg lent.pos = state := (hstate lent.pos).trans (if_pos ⟨rfl, rfl, rfl⟩)
    by_cases hkind : cfg.facts.blockOf (s.stateOf cfg lent.pos) = cfg.facts.blockOf state
    · rw [if_neg (fun hother => hother.2 hkind)] at hr
      subst hr
      have htold := Site.awaits_rewrite h hcfg hheld hsound hnew hkind
      have hfate : (r.attachEntity cfg lent.pos state).chunk.Fate cfg lent
          [.wrote (s.stateOf cfg lent.pos) state] :=
        ⟨hloaded, fun _ => htold, fun hd => absurd hkind (displaced_singleton.1 hd)⟩
      exact hfate.update rfl rfl rfl rfl id
    · rw [if_pos ⟨h.block, hkind⟩] at hr
      subst hr
      have hgone : ((t.removeEntity lent.pos).2.attachEntity cfg lent.pos state).chunk.Forsaken :=
        Site.forsaken_replace h hheld
      exact Forsaken.fate hloaded hgone hkind

/-- A write elsewhere in the column. -/
theorem Awaits.setBlock_of_ne (h : s.chunk.Awaits cfg lent) (hcfg : cfg.Lends)
    (hmakes : cfg.MakesOnly (· ≠ lent.pos)) (hcolumn : ChunkPos.ofBlock pos = .ofBlock lent.pos)
    (hne : pos ≠ lent.pos) (hs : state.FitsIn cfg.globalBits) (flags : SetFlags) :
    (s.setBlock cfg pos state flags).2.chunk.Awaits cfg lent := by
  have hplace : ¬lent.pos.SamePlace pos := by
    rintro ⟨hx, hy, hz⟩
    exact hne (BlockPos.eq_of_ofBlock_eq hcolumn hx.symm hy.symm hz.symm)
  have hwrote : Site.Wrote cfg s pos state flags _ :=
    Site.wrote_setBlock hcfg.default h.sound hs flags
  generalize s.setBlock cfg pos state flags = out at hwrote ⊢
  -- the entity is where it was when the state has been stored
  have hstored : ∀ t : Site α τ, t.holdings = s.holdings → cfg.SoundStates t.chunk.sections →
      t.stateOf cfg lent.pos = s.stateOf cfg lent.pos → t.chunk.Awaits cfg lent := by
    intro t hheld hsound hstate
    refine Site.awaits_of_moves h (.single (.aside hheld)) hsound ?_
    rw [hstate]
    exact h.block
  cases hwrote with
  | same t hheld hsound hstate => exact hstored t hheld hsound (hstate lent.pos)
  | changed t r hheld hsound hstate hr =>
    have ht := hstored t hheld hsound ((hstate lent.pos).trans (if_neg hplace))
    have hremoved : r.chunk.Awaits cfg lent := by
      rw [hr]
      split
      · exact Site.awaits_of_ground ht (.single (.entity (.remove pos hne)))
          (Site.ground_removeEntity t pos)
      · exact ht
    have hattached := Site.awaits_of_ground hremoved
      (Site.steps_attachEntity hmakes.makes r hne state).moves (Site.ground_attachEntity r pos state)
    exact ⟨hattached.loaded, hattached.column, hattached.sound, hattached.record, hattached.live,
      hattached.absent, hattached.block⟩

/-- **What a write means for an entity that is away.** -/
theorem Awaits.setBlock (h : s.chunk.Awaits cfg lent) (hcfg : cfg.Lends)
    (hmakes : cfg.MakesOnly (· ≠ lent.pos)) (hcolumn : ChunkPos.ofBlock pos = .ofBlock lent.pos)
    (hs : state.FitsIn cfg.globalBits) (flags : SetFlags) :
    (s.setBlock cfg pos state flags).2.chunk.Fate cfg lent
      (writeMarks lent.pos pos state (s.setBlock cfg pos state flags).1) := by
  by_cases hhome : pos = lent.pos
  · subst hhome
    exact h.overwrite hcfg hs flags
  · unfold writeMarks
    rw [if_neg hhome]
    exact (h.setBlock_of_ne hcfg hmakes hcolumn hhome hs flags).fate

end Chunk

/-! ### Coming back -/

namespace Chunk

variable {cfg : Config α τ} {c : Chunk α} {lent : LentEntity}

/-- An entity that is awaited is installed where it was, with the state of its block as it is now. -/
theorem Awaits.find?_returnEntity (h : c.Awaits cfg lent) (e : BlockEntity α) (pos : BlockPos) :
    (c.returnEntity e).entities.find? pos =
      if pos = lent.pos then some { e with cachedState := lent.cachedState }
      else c.entities.find? pos := by
  have hfree : (lent.removed || c.entities.contains lent.pos) = false := by
    unfold Keyed.contains
    rw [h.live, h.absent]
    rfl
  unfold returnEntity
  rw [h.record]
  simp only [hfree]
  exact Keyed.find?_insert ..

/-- An entity that is not wanted any more is given up. -/
theorem Forsaken.entities_returnEntity (h : c.Forsaken) (e : BlockEntity α) :
    (c.returnEntity e).entities = c.entities := by
  unfold returnEntity
  cases hlent : c.lent with
  | none => rfl
  | some lent =>
    simp only [h lent hlent, Bool.true_or, if_true]

end Chunk

/-! ### Settling -/

/-- The marks of a block that settles. -/
def Site.settleBlockMarks (home : BlockPos) (cfg : Config α τ)
    (view : BlockPos → Except Fault BlockState) (s : Site α τ) (pos : BlockPos) : List Mark :=
  match s.chunk.blockAt cfg pos >>= cfg.facts.settle (s.chunk.viewThrough cfg view) pos with
  | .ok state =>
    writeMarks home pos state (s.setBlock cfg pos state { noRedraw := true, force := true }).1
  | .error _ => []

/-- The marks of the queued blocks of a section that settle. -/
def Site.settleSectionMarks (home : BlockPos) (cfg : Config α τ)
    (view : BlockPos → Except Fault BlockState) (s : Site α τ) (index : Nat) : List Mark :=
  let c := { s.chunk with unsettled := s.chunk.unsettled.setIfInBounds index [] }
  let place (s : Site α τ) (packed : UInt16) : BlockPos :=
    unpackLocal packed (cfg.height.sectionCoordOf index) s.chunk.pos
  marksAlong (fun s packed => s.settleBlock cfg view (place s packed))
    (fun s packed => s.settleBlockMarks home cfg view (place s packed)) { s with chunk := c }
    (s.chunk.unsettled.getD index [])

/-- The marks of all queued blocks that settle. -/
def Site.settleMarks (home : BlockPos) (cfg : Config α τ)
    (view : BlockPos → Except Fault BlockState) (s : Site α τ) : List Mark :=
  marksAlong (fun s index => s.settleSection cfg view index)
    (fun s index => s.settleSectionMarks home cfg view index) s (List.range s.chunk.unsettled.size)

theorem BlockFacts.settle_fits {ε : Type} {facts : BlockFacts} {globalBits : Nat}
    (hfits : ∀ state face neighbor, state.FitsIn globalBits →
      (facts.neighborUpdate state face neighbor).FitsIn globalBits)
    {view : BlockPos → Except ε BlockState} {pos : BlockPos} {state settled : BlockState}
    (hs : state.FitsIn globalBits) (h : facts.settle view pos state = .ok settled) :
    settled.FitsIn globalBits := by
  unfold settle at h
  generalize Face.all = faces at h
  induction faces generalizing state with
  | nil =>
    cases h
    exact hs
  | cons face faces ih =>
    rw [List.foldlM_cons] at h
    cases hread : view (pos + face.delta) with
    | error cause =>
      rw [hread] at h
      cases h
    | ok neighbor =>
      rw [hread] at h
      exact ih (hfits state face neighbor hs) h

namespace Chunk

variable {cfg : Config α τ} {s : Site α τ} {lent : LentEntity} {marks : List Mark}

theorem Awaits.settleBlock (h : s.chunk.Awaits cfg lent) (hcfg : cfg.Lends)
    (hmakes : cfg.MakesOnly (· ≠ lent.pos)) {pos : BlockPos}
    (hcolumn : ChunkPos.ofBlock pos = .ofBlock lent.pos)
    (view : BlockPos → Except Fault BlockState) :
    (s.settleBlock cfg view pos).chunk.Fate cfg lent (s.settleBlockMarks lent.pos cfg view pos) := by
  unfold Site.settleBlock Site.settleBlockMarks
  generalize hsettle : s.chunk.blockAt cfg pos >>=
    cfg.facts.settle (s.chunk.viewThrough cfg view) pos = outcome
  cases outcome with
  | error fault => exact h.fate.update rfl rfl rfl rfl id
  | ok settled =>
    cases hread : s.chunk.blockAt cfg pos with
    | error fault =>
      rw [hread] at hsettle
      cases hsettle
    | ok state =>
      rw [hread] at hsettle
      have hfits := BlockFacts.settle_fits hcfg.settles (fits_of_blockAt h.sound hread) hsettle
      exact h.setBlock hcfg hmakes hcolumn hfits _

theorem Awaits.settleSection (h : s.chunk.Awaits cfg lent) (hcfg : cfg.Lends)
    (hmakes : cfg.MakesOnly (· ≠ lent.pos)) (hrange : (ChunkPos.ofBlock lent.pos).InRange)
    (view : BlockPos → Except Fault BlockState) (index : Nat) :
    (s.settleSection cfg view index).chunk.Fate cfg lent
      (s.settleSectionMarks lent.pos cfg view index) := by
  have hstart : ({ s.chunk with unsettled := s.chunk.unsettled.setIfInBounds index [] } :
      Chunk α).Fate cfg lent [] := h.fate.update rfl rfl rfl rfl id
  refine Fate.along (s := ⟨_, s.level⟩) (fun s packed _ => ?_) (fun s packed lent' hpos ha => ?_)
    hstart (s.chunk.unsettled.getD index [])
  · exact Site.moves_settleBlock hcfg.default cfg.makesOnly_true s view trivial
  · have hcolumn : ChunkPos.ofBlock (unpackLocal packed (cfg.height.sectionCoordOf index)
        s.chunk.pos) = .ofBlock lent'.pos := by
      rw [ha.column, hpos]
      exact beq_iff_eq.1 (hrange.contains_unpackLocal packed _)
    rw [← hpos]
    exact ha.settleBlock hcfg (hpos ▸ hmakes) hcolumn view

/-- Loading all saved block entities, and giving up those that cannot be loaded. -/
theorem Awaits.loadAllPending (h : s.chunk.Awaits cfg lent)
    (hmakes : cfg.MakesOnly (· ≠ lent.pos)) : (s.loadAllPending cfg).chunk.Awaits cfg lent := by
  have hfold : ∀ (positions : List BlockPos) (s : Site α τ), s.chunk.Awaits cfg lent →
      (positions.foldl (fun s pos => (s.getEntity cfg pos .check).2) s).chunk.Awaits cfg lent := by
    intro positions
    induction positions with
    | nil => exact fun s hs => hs
    | cons pos positions ih => exact fun s hs => ih _ (hs.getEntity hmakes pos .check)
  have ha := hfold s.chunk.pending.keys s h
  exact ⟨ha.loaded, ha.column, ha.sound, ha.record, ha.live, ha.absent, ha.block⟩

/-- **What settling means for an entity that is away.** -/
theorem Awaits.settleAll (h : s.chunk.Awaits cfg lent) (hcfg : cfg.Lends)
    (hmakes : cfg.MakesOnly (· ≠ lent.pos)) (hrange : (ChunkPos.ofBlock lent.pos).InRange)
    (view : BlockPos → Except Fault BlockState) :
    (s.settleAll cfg view).chunk.Fate cfg lent (s.settleMarks lent.pos cfg view) := by
  have hsections : ((List.range s.chunk.unsettled.size).foldl
      (fun s index => s.settleSection cfg view index) s).chunk.Fate cfg lent _ := Fate.along
    (fun s index hloaded => Site.moves_settleSection hcfg.default cfg.makesOnly_true hloaded
      (fun _ _ => trivial) view index)
    (fun s index lent' hpos ha =>
      hpos ▸ ha.settleSection hcfg (hpos ▸ hmakes) (hpos ▸ hrange) view index)
    h.fate (List.range s.chunk.unsettled.size)
  unfold Site.settleMarks Site.settleAll
  generalize (List.range s.chunk.unsettled.size).foldl
    (fun s index => s.settleSection cfg view index) s = t at hsections ⊢
  have hpromoted : t.promoteTicks.chunk.Fate cfg lent _ := hsections.update rfl rfl rfl rfl id
  have hm : Site.Moves cfg (fun _ => True) t.promoteTicks (t.promoteTicks.loadAllPending cfg) :=
    Site.moves_loadAllPending cfg.makesOnly_true _ ⟨fun _ _ _ => trivial, fun _ _ _ => trivial⟩
  have hloaded : ∀ lent' : LentEntity, lent'.pos = lent.pos →
      t.promoteTicks.chunk.Awaits cfg lent' →
      (t.promoteTicks.loadAllPending cfg).chunk.Fate cfg lent' [] := fun lent' hpos ha =>
    (ha.loadAllPending (hpos ▸ hmakes)).fate
  have hfate := hpromoted.trans hm hloaded
  rwa [List.nil_append, List.append_nil] at hfate

end Chunk

end VoxelChunk
