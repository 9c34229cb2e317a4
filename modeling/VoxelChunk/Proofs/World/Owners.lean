import Mathlib.Logic.ExistsUnique
import VoxelChunk.Proofs.Chunk.Mirror
import VoxelChunk.Proofs.World.Edits

/-!
# Tickers and their owners

Each active ticker of a world belongs to one position of one chunk, and to the block entity there,
whatever the world and its tickers do, also while an entity is out of its chunk to be ticked.

## Main definitions

* `World.InOrder` — the invariant of all runs.
* `World.Matched` — tickers and owners belong together one by one.

## Main results

* `World.InOrder.edit`, `World.InOrder.visited`, `World.InOrder.returnEntity` — single steps.
* `World.InOrder.upheld`, `World.Reached.inOrder` — whole runs.
* `World.Reached.matched` — each active ticker has exactly one owner.
-/

namespace VoxelChunk

variable {α τ σ : Type}

/-- The chunk has no tickers, and no entity that is out of it comes back. -/
structure Chunk.Unticked (c : Chunk α) : Prop where
  tickers : ∀ pos, c.tickers.find? pos = none
  lent : ∀ lent, c.lent = some lent → lent.removed = true

/-- All entities of the chunk, and all blocks that its queues stand for, are at positions at which
`P` holds. -/
structure Chunk.Placed (P : BlockPos → Prop) (c : Chunk α) : Prop where
  within : c.Within P
  queued : ∀ packed sectionY, P (unpackLocal packed sectionY c.pos)

/-- A new chunk may be inserted, for example. -/
theorem Chunk.Unticked.of_none {c : Chunk α} (htickers : c.tickers = {}) (hlent : c.lent = none) :
    c.Unticked where
  tickers := by
    intro pos
    rw [htickers]
    rfl
  lent := by
    intro lent hl
    rw [hlent] at hl
    cases hl

theorem Chunk.Within.of_empty {c : Chunk α} {P : BlockPos → Prop} (hentities : c.entities = {})
    (hpending : c.pending = {}) : c.Within P where
  entities := by
    intro pos e he
    rw [hentities] at he
    cases he
  pending := by
    intro pos fields hf
    rw [hpending] at hf
    cases hf

/-- The chunk, once it is loaded, is still in its column, which is within range, and so are all its
entities. -/
structure Chunk.AtHome (c : Chunk α) : Prop where
  inRange : c.pos.InRange
  pos : c.load.2.pos = c.pos
  within : c.load.2.Within fun pos => c.pos.contains pos = true

theorem Chunk.AtHome.placed {c : Chunk α} (h : c.AtHome) :
    c.load.2.Placed fun pos => c.pos.contains pos = true where
  within := h.within
  queued := by
    rw [h.pos]
    exact h.inRange.contains_unpackLocal

/-- The level may change as long as the names that the chunk keeps stand for tickers of the same
entities. -/
theorem Site.Tended.relevel {c : Chunk α} {level level' : Level τ}
    {out : Option (BlockPos × EntityType × UInt32)} (h : Tended out ⟨c, level⟩)
    (hsound : level'.tickers.Sound)
    (hkept : ∀ pos name ticker, c.tickers.find? pos = some name →
      level.tickers.get? name = some ticker →
        ∃ ticker', level'.tickers.get? name = some ticker' ∧ ticker'.key = ticker.key) :
    Tended out ⟨c, level'⟩ where
  wired := by
    refine ⟨hsound, fun pos name hname => ?_⟩
    obtain ⟨ticker, hold, hpos⟩ := h.wired.named pos name hname
    obtain ⟨ticker', hnew, hkey⟩ := hkept pos name ticker hname hold
    exact ⟨ticker', hnew, (congrArg Prod.fst hkey).trans hpos⟩
  loaded := h.loaded
  fits := by
    intro pos ticker hat
    obtain ⟨name, hname, hnew⟩ := Option.bind_eq_some_iff.1 hat
    obtain ⟨old, hold, -⟩ := h.wired.named pos name hname
    obtain ⟨ticker', hnew', hkey⟩ := hkept pos name old hname hold
    cases hnew.symm.trans hnew'
    have hself := h.fits pos old (Option.bind_eq_some_iff.2 ⟨name, hname, hold⟩)
    have hpair : (ticker.type, ticker.serial) = (old.type, old.serial) := congrArg Prod.snd hkey
    exact hself.trans (congrArg some hpair.symm)
  lends := h.lends

namespace World

/-- The chunk at a column keeps the name of a ticker for a position. -/
def Owns (w : World α τ σ) (column : ChunkPos) (pos : BlockPos) (name : TickerHandle) : Prop :=
  ∃ c, w.chunk? column = some c ∧ c.tickers.find? pos = some name

/-- An active ticker that does not belong to the chunk at a column. -/
def Foreign (w : World α τ σ) (column : ChunkPos) (name : TickerHandle)
    (ticker : ActiveTicker τ) : Prop :=
  w.level.tickers.get? name = some ticker ∧ ∀ pos, ¬w.Owns column pos name

/-- The entity that is out of the chunk at a column to be ticked. -/
def outOf (lent : Option (Invocation α τ)) (column : ChunkPos) :
    Option (BlockPos × EntityType × UInt32) :=
  (lent.filter fun i => ChunkPos.ofBlock i.pos = column).map fun i =>
    (i.pos, i.entity.type, i.entity.serial)

/-- The tickers of each chunk are in order, each active ticker belongs to some chunk, and no two
chunks share one. The chunk at a column does nothing but at positions at which `P` holds. -/
structure InOrder (P : ChunkPos → BlockPos → Prop) (lent : Option (Invocation α τ))
    (w : World α τ σ) : Prop where
  sound : w.level.tickers.Sound
  sites : ∀ column s, w.site? column = some s → s.Tended (outOf lent column)
  placed : ∀ column c, w.chunk? column = some c → c.Placed (P column)
  covered : ∀ name ticker, w.level.tickers.get? name = some ticker →
    ∃ column pos, w.Owns column pos name
  apart : ∀ column column' pos pos' name, w.Owns column pos name → w.Owns column' pos' name →
    column = column'
  lives : ∀ i, lent = some i → i.entity.removed = false

variable {cfg : Config α τ} {P : ChunkPos → BlockPos → Prop} {lent lent' : Option (Invocation α τ)}
  {w w' : World α τ σ} {column : ChunkPos} {s s' : Site α τ} {name : TickerHandle}
  {ticker : ActiveTicker τ}

/-! ### Chunks and sites -/

theorem site?_eq_some_iff :
    w.site? column = some s ↔ w.chunk? column = some s.chunk ∧ s.level = w.level := by
  unfold site?
  rw [Option.map_eq_some_iff]
  constructor
  · rintro ⟨c, hc, rfl⟩
    exact ⟨hc, rfl⟩
  · rintro ⟨hc, hl⟩
    exact ⟨s.chunk, hc, by rw [← hl]⟩

theorem atChunk_of_site {β : Type} {missing : β} {f : Site α τ → β × Site α τ}
    (hs : w.site? column = some s) :
    w.atChunk column missing f = ((f s).1, w.putSite column (f s).2) := by
  unfold atChunk
  rw [hs]

theorem atChunk_of_none {β : Type} {missing : β} {f : Site α τ → β × Site α τ}
    (hs : w.site? column = none) : w.atChunk column missing f = (missing, w) := by
  unfold atChunk
  rw [hs]

theorem chunk?_putSite (w : World α τ σ) (column : ChunkPos) (s : Site α τ) (q : ChunkPos) :
    (w.putSite column s).chunk? q = if q = column then some s.chunk else w.chunk? q :=
  Keyed.find?_insert ..

theorem chunk?_removeChunk (w : World α τ σ) (column q : ChunkPos) :
    (w.removeChunk column).2.chunk? q = if q = column then none else w.chunk? q := by
  unfold removeChunk
  cases hs : w.site? column with
  | none =>
    have hnone : w.chunk? column = none := Option.map_eq_none_iff.1 hs
    by_cases hq : q = column
    · rw [if_pos hq, hq]
      exact hnone
    · rw [if_neg hq]
  | some s => exact Keyed.find?_erase ..

theorem chunk?_insertChunk (w : World α τ σ) (cfg : Config α τ) (c : Chunk α) (q : ChunkPos) :
    (w.insertChunk cfg c).2.chunk? q =
      if q = c.pos then some (Site.updateEntities
        ⟨{ c.load.2 with loaded := true }, (w.removeChunk c.pos).2.level⟩ cfg).chunk
      else w.chunk? q := by
  show ((w.removeChunk c.pos).2.putSite c.pos _).chunk? q = _
  rw [chunk?_putSite, chunk?_removeChunk]
  split
  · rfl
  · rfl

theorem chunk?_modifyEntity (w : World α τ σ) (pos : BlockPos) (f : BlockEntity α → BlockEntity α)
    (q : ChunkPos) : (w.modifyEntity pos f).chunk? q =
      if q = .ofBlock pos then (w.chunk? q).map fun c => c.modifyEntity pos f else w.chunk? q := by
  unfold World.modifyEntity
  cases hs : w.site? (.ofBlock pos) with
  | none =>
    rw [atChunk_of_none hs]
    have hnone : w.chunk? (.ofBlock pos) = none := Option.map_eq_none_iff.1 hs
    split
    · next hq => rw [hq, hnone]; rfl
    · rfl
  | some s =>
    rw [atChunk_of_site hs, chunk?_putSite]
    split
    · next hq => rw [hq, (site?_eq_some_iff.1 hs).1]; rfl
    · rfl

theorem owns_iff {c : Chunk α} (hc : w.chunk? column = some c) {pos : BlockPos} :
    w.Owns column pos name ↔ c.tickers.find? pos = some name := by
  unfold Owns
  rw [hc]
  simp

theorem not_owns (hnone : w.chunk? column = none) (pos : BlockPos) : ¬w.Owns column pos name := by
  rintro ⟨c, hc, -⟩
  rw [hnone] at hc
  cases hc

theorem foreign_iff (hs : w.site? column = some s) :
    w.Foreign column name ticker ↔ s.Foreign name ticker := by
  obtain ⟨hc, hl⟩ := site?_eq_some_iff.1 hs
  unfold Foreign Site.Foreign
  simp only [owns_iff hc, hl, ne_eq]

theorem foreign_iff_of_none (hnone : w.chunk? column = none) :
    w.Foreign column name ticker ↔ w.level.tickers.get? name = some ticker :=
  and_iff_left (not_owns hnone)

theorem outOf_of_ne {i : Invocation α τ} (h : column ≠ .ofBlock i.pos) :
    outOf (some i) column = none := by
  unfold outOf
  rw [Option.filter_some, if_neg (by simpa using Ne.symm h)]
  rfl

theorem outOf_eq_some_iff {out : BlockPos × EntityType × UInt32} :
    outOf lent column = some out ↔ ∃ i, lent = some i ∧ ChunkPos.ofBlock i.pos = column ∧
      (i.pos, i.entity.type, i.entity.serial) = out := by
  unfold outOf
  rw [Option.map_eq_some_iff]
  simp only [Option.filter_eq_some_iff, decide_eq_true_eq, and_assoc]

namespace InOrder

/-! ### One chunk changes -/

/-- **Only one chunk changes**, and the tickers of the others stay. -/
theorem exchange (h : w.InOrder P lent) (column : ChunkPos) (hsound : w'.level.tickers.Sound)
    (hothers : ∀ q, q ≠ column → w'.chunk? q = w.chunk? q)
    (hout : ∀ q, q ≠ column → outOf lent' q = outOf lent q)
    (hforeign : ∀ name ticker, w'.Foreign column name ticker ↔ w.Foreign column name ticker)
    (hsite : ∀ s, w'.site? column = some s → s.Tended (outOf lent' column))
    (hplaced : ∀ c, w'.chunk? column = some c → c.Placed (P column))
    (hlives : ∀ i, lent' = some i → i.entity.removed = false) : w'.InOrder P lent' := by
  have howns : ∀ q pos name, q ≠ column → (w'.Owns q pos name ↔ w.Owns q pos name) := by
    intro q pos name hq
    unfold Owns
    rw [hothers q hq]
  -- the names that other chunks keep stand for what they stood for
  have hkept : ∀ q pos name ticker, q ≠ column → w.Owns q pos name →
      w.level.tickers.get? name = some ticker → w'.Foreign column name ticker := by
    intro q pos name ticker hq hown hget
    exact (hforeign name ticker).2 ⟨hget, fun pos' hown' => hq (h.apart _ _ _ _ _ hown hown')⟩
  have hvalid : ∀ q pos name, w.Owns q pos name →
      ∃ ticker, w.level.tickers.get? name = some ticker := by
    rintro q pos name ⟨c, hc, hname⟩
    obtain ⟨ticker, hget, -⟩ := (h.sites q ⟨c, w.level⟩
      (site?_eq_some_iff.2 ⟨hc, rfl⟩)).wired.named pos name hname
    exact ⟨ticker, hget⟩
  have hapart : ∀ q pos pos' name, q ≠ column → w'.Owns q pos name → ¬w'.Owns column pos' name := by
    intro q pos pos' name hq hown hown'
    have hown := (howns q pos name hq).1 hown
    obtain ⟨ticker, hget⟩ := hvalid q pos name hown
    exact (hkept q pos name ticker hq hown hget).2 pos' hown'
  refine ⟨hsound, fun q s hs => ?_, fun q c hc => ?_, fun name ticker hget => ?_,
    fun q q' pos pos' name hown hown' => ?_, hlives⟩
  · by_cases hq : q = column
    · subst hq
      exact hsite s hs
    · obtain ⟨hc, hl⟩ := site?_eq_some_iff.1 hs
      rw [hothers q hq] at hc
      have htended := h.sites q ⟨s.chunk, w.level⟩ (site?_eq_some_iff.2 ⟨hc, rfl⟩)
      rw [← hout q hq] at htended
      refine htended.relevel (hl ▸ hsound) fun pos name ticker hname hget => ?_
      rw [hl]
      exact ⟨ticker, (hkept q pos name ticker hq ⟨_, hc, hname⟩ hget).1, rfl⟩
  · by_cases hq : q = column
    · subst hq
      exact hplaced c hc
    · exact h.placed q c ((hothers q hq).symm.trans hc)
  · by_cases hown : ∃ pos, w'.Owns column pos name
    · exact ⟨column, hown⟩
    · obtain ⟨hold, hnot⟩ := (hforeign name ticker).1 ⟨hget, not_exists.1 hown⟩
      obtain ⟨q, pos, hq⟩ := h.covered name ticker hold
      have hne : q ≠ column := fun heq => hnot pos (heq ▸ hq)
      exact ⟨q, pos, (howns q pos name hne).2 hq⟩
  · by_cases hq : q = column
    · by_cases hq' : q' = column
      · rw [hq, hq']
      · subst hq
        exact absurd hown (hapart q' pos' pos name hq' hown')
    · by_cases hq' : q' = column
      · subst hq'
        exact absurd hown' (hapart q pos pos' name hq hown)
      · exact h.apart q q' pos pos' name ((howns q pos name hq).1 hown)
          ((howns q' pos' name hq').1 hown')

/-- The site at a column is replaced by one of which the tickers are in order. -/
theorem putSite (h : w.InOrder P lent) (htended : s'.Tended (outOf lent' column))
    (hplaced : s'.chunk.Placed (P column))
    (hout : ∀ q, q ≠ column → outOf lent' q = outOf lent q)
    (hforeign : ∀ name ticker, s'.Foreign name ticker ↔ w.Foreign column name ticker)
    (hlives : ∀ i, lent' = some i → i.entity.removed = false) :
    (w.putSite column s').InOrder P lent' := by
  have hchunk : (w.putSite column s').chunk? column = some s'.chunk := by
    rw [chunk?_putSite, if_pos rfl]
  have hsite : (w.putSite column s').site? column = some s' :=
    site?_eq_some_iff.2 ⟨hchunk, rfl⟩
  refine h.exchange column htended.wired.sound (fun q hq => ?_) hout (fun name ticker => ?_)
    (fun s hs => ?_) (fun c hc => ?_) hlives
  · rw [chunk?_putSite, if_neg hq]
  · rw [foreign_iff hsite]
    exact hforeign name ticker
  · cases hsite.symm.trans hs
    exact htended
  · cases hchunk.symm.trans hc
    exact hplaced

/-- Moves of one chunk keep the order. -/
theorem moves (h : w.InOrder P lent) (hs : w.site? column = some s)
    (hm : Site.Moves cfg (P column) s s') : (w.putSite column s').InOrder P lent := by
  have htended := h.sites column s hs
  have hplaced := h.placed column s.chunk (site?_eq_some_iff.1 hs).1
  obtain ⟨htended', hforeign⟩ := hm.tended htended
  refine h.putSite htended' ⟨hm.within htended.loaded hplaced.within, ?_⟩ (fun _ _ => rfl)
    (fun name ticker => ?_) h.lives
  · rw [hm.pos_eq htended.loaded]
    exact hplaced.queued
  · rw [foreign_iff hs]
    exact hforeign name ticker

theorem atChunk {β : Type} {missing : β} {f : Site α τ → β × Site α τ} (h : w.InOrder P lent)
    (cfg : Config α τ) (hf : ∀ s, w.site? column = some s → Site.Moves cfg (P column) s (f s).2) :
    (w.atChunk column missing f).2.InOrder P lent := by
  unfold World.atChunk
  cases hs : w.site? column with
  | none => exact h
  | some s => exact h.moves hs (hf s hs)

/-- The level may change as long as the same names stand for tickers of the same entities. -/
theorem relevel (h : w.InOrder P lent) {level : Level τ} (hl : w.level.SameTickers level) :
    ({ w with level } : World α τ σ).InOrder P lent := by
  refine ⟨hl.sound h.sound, fun column s hs => ?_, h.placed, fun name ticker hnew => ?_, h.apart,
    h.lives⟩
  · obtain ⟨hc, hlevel⟩ := site?_eq_some_iff.1 hs
    have htended := h.sites column ⟨s.chunk, w.level⟩ (site?_eq_some_iff.2 ⟨hc, rfl⟩)
    have hlevel : s.level = level := hlevel
    refine htended.relevel (hlevel ▸ hl.sound h.sound) fun pos name ticker _ hget => ?_
    have hkey := hl.key name
    rw [hget, Option.map_some] at hkey
    rw [hlevel]
    exact Option.map_eq_some_iff.1 hkey
  · have hkey := hl.key name
    have hnew : level.tickers.get? name = some ticker := hnew
    rw [hnew, Option.map_some] at hkey
    obtain ⟨ticker', hold, -⟩ := Option.map_eq_some_iff.1 hkey.symm
    exact h.covered name ticker' hold

/-! ### Chunks come and go -/

theorem removeChunk (h : w.InOrder P lent) (column : ChunkPos) :
    (w.removeChunk column).2.InOrder P lent := by
  have hchunk := chunk?_removeChunk w column
  unfold World.removeChunk at hchunk ⊢
  cases hs : w.site? column with
  | none => exact h
  | some s =>
    rw [hs] at hchunk
    have hgone := (hchunk column).trans (if_pos rfl)
    have hsound : s.discardEntities.level.tickers.Sound := by
      obtain ⟨dispatchers, heq⟩ := Site.discardEntities_eq s
      rw [heq]
      exact Tickers.Sound.foldl_remove _ (h.sites column s hs).wired.sound
    refine h.exchange column hsound (fun q hq => (hchunk q).trans (if_neg hq)) (fun _ _ => rfl)
      (fun name ticker => ?_) (fun s' hs' => ?_) (fun c hc => ?_) h.lives
    · rw [foreign_iff_of_none hgone, foreign_iff hs]
      exact Site.get?_discardEntities s name ticker
    · have hc := (site?_eq_some_iff.1 hs').1
      rw [hgone] at hc
      cases hc
    · rw [hgone] at hc
      cases hc

/-- A chunk that is inserted gets tickers for its entities. -/
theorem insertChunk (h : w.InOrder P lent) (cfg : Config α τ) {c : Chunk α}
    (hunticked : c.load.2.Unticked) (hplaced : c.load.2.Placed (P c.pos)) :
    (w.insertChunk cfg c).2.InOrder P lent := by
  have hremoved := h.removeChunk c.pos
  have hgone : (w.removeChunk c.pos).2.chunk? c.pos = none := by
    rw [chunk?_removeChunk, if_pos rfl]
  show ((w.removeChunk c.pos).2.putSite c.pos (Site.updateEntities
    ⟨{ c.load.2 with loaded := true }, (w.removeChunk c.pos).2.level⟩ cfg)).InOrder P lent
  generalize (w.removeChunk c.pos).2 = w' at hremoved hgone ⊢
  -- nothing of the new chunk is ticked yet
  generalize hstart : (⟨{ c.load.2 with loaded := true }, w'.level⟩ : Site α τ) = start
  have htended : start.Tended (outOf lent c.pos) := by
    rw [← hstart]
    refine ⟨⟨hremoved.sound, fun pos name hname => ?_⟩, rfl, fun pos ticker hat => ?_,
      fun out hl hr => ?_⟩
    · have hname : c.load.2.tickers.find? pos = some name := hname
      rw [hunticked.tickers] at hname
      cases hname
    · obtain ⟨name, hname, -⟩ := Option.bind_eq_some_iff.1 hat
      have hname : c.load.2.tickers.find? pos = some name := hname
      rw [hunticked.tickers] at hname
      cases hname
    · rw [hunticked.lent out hl] at hr
      cases hr
  have hwithin : start.chunk.Within (P c.pos) := by
    rw [← hstart]
    exact ⟨hplaced.within.entities, hplaced.within.pending⟩
  have hm : Site.Moves cfg (P c.pos) start (start.updateEntities cfg) :=
    Site.moves_updateEntities start hwithin
  obtain ⟨htended', hforeign⟩ := hm.tended htended
  refine hremoved.putSite htended' ⟨hm.within htended.loaded hwithin, ?_⟩ (fun _ _ => rfl)
    (fun name ticker => (hforeign name ticker).trans ?_) hremoved.lives
  · rw [hm.pos_eq htended.loaded, ← hstart]
    exact hplaced.queued
  · rw [foreign_iff_of_none hgone, ← hstart]
    refine and_iff_left fun pos hname => ?_
    have hname : c.load.2.tickers.find? pos = some name := hname
    rw [hunticked.tickers] at hname
    cases hname

/-! ### An entity is lent and comes back -/

/-- **A visit to a slot keeps the order**, whether an entity is lent or not. -/
theorem visited (h : w.InOrder P none) {index : Nat} (hv : Visited cfg w index (lent, w')) :
    w'.InOrder P lent := by
  cases hv with
  | idle level hl => exact h.relevel hl
  | lent ticker c e level _ hc _ he _ hl =>
    have hlevel := h.relevel hl
    have hc' : ({ w with level } : World α τ σ).chunk? (.ofBlock ticker.pos) = some c := hc
    have hs : ({ w with level } : World α τ σ).site? (.ofBlock ticker.pos) = some ⟨c, level⟩ :=
      site?_eq_some_iff.2 ⟨hc', rfl⟩
    have htended := hlevel.sites _ _ hs
    have hplaced := hlevel.placed _ c hc'
    -- no other entity of the chunk is out of it
    have hnone : ∀ q, c.lentAt? q = none := by
      intro q
      apply Option.eq_none_iff_forall_ne_some.2
      intro out hout
      obtain ⟨hout, -, hr⟩ := Chunk.lentAt?_eq_some_iff.1 hout
      exact nomatch htended.lends out hout hr
    generalize (Site.blockAt ⟨c, w.level⟩ cfg ticker.pos).1 = state
    have hlent : Site.Tended
        (outOf (some ⟨ticker.action, ticker.pos, state, e⟩) (.ofBlock ticker.pos))
        ⟨c.lending ticker.pos e, level⟩ := by
      refine htended.congr rfl rfl (Site.selfAt?_lending he hnone) fun out hout _ => ?_
      cases hout
      exact outOf_eq_some_iff.2 ⟨_, rfl, rfl, rfl⟩
    refine hlevel.putSite hlent ⟨⟨fun q other hq => ?_, hplaced.within.pending⟩, hplaced.queued⟩
      (fun q hq => outOf_of_ne hq) (fun name other => (foreign_iff hs).symm) ?_
    · refine hplaced.within.entities q other ?_
      have hq : (c.entities.swapErase ticker.pos).find? q = some other := hq
      rw [Keyed.find?_swapErase] at hq
      split at hq
      · cases hq
      · exact hq
    · rintro _ ⟨⟩
      exact (Chunk.entityAt?_eq_some_iff.1 he).2

variable (hP : ∀ pos, P (.ofBlock pos) pos)
include hP

/-- **An entity that comes back keeps the order**, whatever has been done meanwhile. -/
theorem returnEntity {i : Invocation α τ} {e : BlockEntity α} (h : w.InOrder P (some i))
    (he : e.Continues i.entity) : (w.returnEntity i.pos e).InOrder P none := by
  have hlive : e.removed = false := he.removed.trans (h.lives i rfl)
  -- elsewhere no entity is out of its chunk
  have hout : ∀ q, q ≠ ChunkPos.ofBlock i.pos → outOf (none : Option (Invocation α τ)) q =
      outOf (some i) q := fun q hq => (outOf_of_ne hq).symm
  have hnobody : ∀ j : Invocation α τ, none = some j → j.entity.removed = false := by
    intro j hj
    cases hj
  unfold World.returnEntity
  cases hc : w.chunk? (.ofBlock i.pos) with
  | none =>
    refine h.exchange (.ofBlock i.pos) h.sound (fun _ _ => rfl) hout (fun _ _ => Iff.rfl)
      (fun s hs => ?_) (fun c hc' => ?_) hnobody
    · have hc' := (site?_eq_some_iff.1 hs).1
      rw [hc] at hc'
      cases hc'
    · rw [hc] at hc'
      cases hc'
  | some c =>
    have hs : w.site? (.ofBlock i.pos) = some ⟨c, w.level⟩ := site?_eq_some_iff.2 ⟨hc, rfl⟩
    have htended := h.sites _ _ hs
    have hplaced := h.placed _ c hc
    have hpair : ∀ lent, c.lent = some lent → lent.removed = false → lent.pos = i.pos ∧
        (e.type, e.serial) = (lent.type, lent.serial) := by
      intro lent hl hr
      obtain ⟨i', hi, -, heq⟩ := outOf_eq_some_iff.1 (htended.lends lent hl hr)
      cases hi
      rw [Prod.mk.injEq, Prod.mk.injEq] at heq
      rw [he.type, he.serial, heq.2.1, heq.2.2]
      exact ⟨heq.1.symm, rfl⟩
    have hframe := Site.returnEntity_frame c e
    simp only [Prod.mk.injEq] at hframe
    obtain ⟨hpos, hloaded, hnames, hpending, hnone⟩ := hframe
    have hreturned : Site.Tended (outOf (none : Option (Invocation α τ)) (.ofBlock i.pos))
        ⟨c.returnEntity e, w.level⟩ := by
      refine htended.congr hnames hloaded
        (Site.selfAt?_returnEntity hlive fun lent hl hr => (hpair lent hl hr).2) fun lent hl _ => ?_
      rw [hnone] at hl
      cases hl
    refine h.putSite hreturned ⟨⟨fun q other hq => ?_, hpending ▸ hplaced.within.pending⟩,
      hpos ▸ hplaced.queued⟩ hout (fun name ticker => ?_) hnobody
    · rcases Site.mem_returnEntity hq with hq | ⟨lent, hl, hr, rfl⟩
      · exact hplaced.within.entities q other hq
      · rw [(hpair lent hl hr).1]
        exact hP i.pos
    · rw [foreign_iff hs]
      unfold Site.Foreign
      rw [hnames]

/-! ### Operations -/

variable (hdefault : cfg.DefaultReactions) (hmakes : ∀ column, cfg.MakesOnly (P column))
  {fit : Chunk α → Prop} (hfit : ∀ c, fit c → c.load.2.Unticked ∧ c.load.2.Placed (P c.pos))
include hdefault hmakes hfit

/-- **An operation keeps the order.** -/
theorem edit (h : w.InOrder P lent) (e : WorldEdit α) (he : e.Admissible fit) :
    (w.edit cfg e).InOrder P lent := by
  cases e with
  | insertChunk c =>
    obtain ⟨hunticked, hplaced⟩ := hfit c he
    exact h.insertChunk cfg hunticked hplaced
  | removeChunk pos => exact h.removeChunk pos
  | setBlock pos state flags =>
    exact h.atChunk cfg fun s _ => Site.moves_setBlock hdefault (hmakes _) s (hP pos) state flags
  | getEntity pos mode change =>
    have hget : (w.getEntity cfg pos mode).2.InOrder P lent :=
      h.atChunk cfg fun s _ => (Site.steps_getEntity (hmakes _).makes s (hP pos) mode).moves
    unfold World.edit
    simp only
    split
    · next heq =>
      rw [heq] at hget
      exact hget.atChunk cfg fun s _ => .single (.change pos change (hP pos) he)
    · next heq => rwa [heq] at hget
  | addEntity entity =>
    unfold World.edit World.addEntity
    simp only
    split
    · exact h.relevel ⟨rfl, id, fun _ => rfl⟩
    · next s hs =>
      have hm : Site.Moves cfg (P (.ofBlock entity.pos)) s (s.addEntity cfg entity) :=
        .single (.entity (.add entity (hP entity.pos)))
      exact h.moves hs hm
  | removeEntity pos =>
    exact h.atChunk cfg fun s _ => .single (.entity (.remove pos (hP pos)))
  | settleChunk pos =>
    refine h.atChunk cfg fun s hs => ?_
    have hplaced := h.placed pos s.chunk (site?_eq_some_iff.1 hs).1
    exact Site.moves_settleAll hdefault (hmakes pos) (h.sites pos s hs).loaded hplaced.within
      hplaced.queued _

/-- **Each step of a tick keeps the order.** -/
theorem upheld : Upheld cfg (WorldEdit.Admissible fit) BlockEntity.Continues
    (InOrder P : Option (Invocation α τ) → World α τ σ → Prop) where
  edit := fun h he => h.edit hP hdefault hmakes hfit _ he
  hand := fun _ h => ⟨h.sound, h.sites, h.placed, h.covered, h.apart, h.lives⟩
  relevel := fun h hl => h.relevel hl
  visited := fun h hv => h.visited hv
  returned := fun h he => h.returnEntity hP he

end InOrder

/-! ### Whole runs -/

theorem inOrder_new (level : Level τ) (owner : σ) (h : level.tickers = {}) :
    ({ level, owner } : World α τ σ).InOrder P none := by
  have hnone : ∀ q, ({ level, owner } : World α τ σ).chunk? q = none := fun _ => rfl
  have hsound : level.tickers.Sound := h ▸ Tickers.sound_empty
  refine ⟨hsound, fun q s hs => ?_, fun q c hc => ?_, fun name ticker hget => ?_,
    fun q q' pos pos' name hown _ => ?_, fun i hi => ?_⟩
  · have hc := (site?_eq_some_iff.1 hs).1
    rw [hnone] at hc
    cases hc
  · rw [hnone] at hc
    cases hc
  · have hget : level.tickers.get? name = some ticker := hget
    rw [h, Tickers.get?_eq_some_iff] at hget
    cases hget
  · exact absurd hown (not_owns (hnone q) pos)
  · cases hi

/-- **Runs keep the order.** -/
theorem Reached.inOrder (hP : ∀ pos, P (.ofBlock pos) pos) (hdefault : cfg.DefaultReactions)
    (hmakes : ∀ column, cfg.MakesOnly (P column)) {fit : Chunk α → Prop}
    (hfit : ∀ c, fit c → c.load.2.Unticked ∧ c.load.2.Placed (P c.pos))
    (h : Reached cfg fit lent w) : w.InOrder P lent := by
  induction h with
  | new level owner hempty => exact inOrder_new level owner hempty
  | edit e _ he ih => exact ih.edit hP hdefault hmakes hfit e he
  | tick run fuel _ hrun hw ih =>
    exact (InOrder.upheld hP hdefault hmakes hfit).tick hrun.acts ih fuel hw
  | visit index _ hw ih => exact ih.visited (hw ▸ visited_invocation? _ cfg index)
  | giveBack e _ he ih => exact ih.returnEntity hP he

/-! ### One owner for each ticker -/

/-- The active tickers and the positions for which chunks keep names belong together one by one,
while the entity that is `lent` is out of its chunk to be ticked. -/
structure Matched (lent : Option (Invocation α τ)) (w : World α τ σ) : Prop where
  /-- Each name is valid, and its ticker carries the position, and the type and the serial of the
  entity that is installed there or out of the chunk from there. -/
  valid : ∀ column c pos name, w.chunk? column = some c → c.tickers.find? pos = some name →
    ∃ ticker, w.level.tickers.get? name = some ticker ∧ ticker.pos = pos ∧
      ((∃ e, c.entityAt? pos = some e ∧ e.type = ticker.type ∧ e.serial = ticker.serial) ∨
        c.entities.find? pos = none ∧ ∃ i, lent = some i ∧ i.pos = pos ∧
          ChunkPos.ofBlock pos = column ∧ i.entity.type = ticker.type ∧
          i.entity.serial = ticker.serial)
  owned : ∀ index ticker, w.level.tickers.activeAt? index = some ticker →
    ∃! owner : ChunkPos × BlockPos, ∃ c name, w.chunk? owner.1 = some c ∧
      c.tickers.find? owner.2 = some name ∧ name.index = index ∧
      w.level.tickers.get? name = some ticker

theorem InOrder.owners (h : w.InOrder P lent) : w.Matched lent where
  valid := by
    intro column c pos name hc hname
    have htended := h.sites column ⟨c, w.level⟩ (site?_eq_some_iff.2 ⟨hc, rfl⟩)
    obtain ⟨ticker, hget, hpos⟩ := htended.wired.named pos name hname
    have hself := htended.fits pos ticker (Option.bind_eq_some_iff.2 ⟨name, hname, hget⟩)
    refine ⟨ticker, hget, hpos, ?_⟩
    obtain ⟨⟨type, state, serial⟩, hticked, heq⟩ := Option.map_eq_some_iff.1 hself
    obtain ⟨rfl, rfl⟩ := Prod.mk.inj heq
    unfold Site.tickedAt? at hticked
    cases hfound : c.entities.find? pos with
    | some e =>
      simp only [hfound] at hticked
      split at hticked
      · cases hticked
      · next hlive =>
        simp only [Option.some.injEq, Prod.mk.injEq] at hticked
        exact Or.inl ⟨e, Chunk.entityAt?_eq_some_iff.2 ⟨hfound, by simpa using hlive⟩, hticked.1,
          hticked.2.2⟩
    | none =>
      simp only [hfound] at hticked
      obtain ⟨out, hout, heq⟩ := Option.map_eq_some_iff.1 hticked
      obtain ⟨hout, hat, hr⟩ := Chunk.lentAt?_eq_some_iff.1 hout
      obtain ⟨i, hi, hcolumn, hkey⟩ := outOf_eq_some_iff.1 (htended.lends out hout hr)
      simp only [Prod.mk.injEq] at hkey heq
      refine Or.inr ⟨rfl, i, hi, hkey.1.trans hat, ?_, hkey.2.1.trans heq.1,
        hkey.2.2.trans heq.2.2⟩
      rw [← hat, ← hkey.1]
      exact hcolumn
  owned := by
    intro index ticker hat
    obtain ⟨generation, hget⟩ := Tickers.activeAt?_eq_some_iff.1 hat
    obtain ⟨column, pos, c, hc, hname⟩ := h.covered _ ticker hget
    refine ⟨(column, pos), ⟨c, _, hc, hname, rfl, hget⟩, ?_⟩
    rintro ⟨column', pos'⟩ ⟨c', name', hc', hname', hindex, hget'⟩
    -- names of one slot that stand for a ticker are the same
    have hsame : name' = ⟨index, generation⟩ := by
      have hslot := Tickers.get?_eq_some_iff.1 hget
      have hslot' := Tickers.get?_eq_some_iff.1 hget'
      rw [hindex, hslot] at hslot'
      cases hslot'
      exact TickerHandle.eq_iff.2 ⟨hindex, rfl⟩
    subst hsame
    have hcolumn := h.apart column' column pos' pos _ ⟨c', hc', hname'⟩ ⟨c, hc, hname⟩
    subst hcolumn
    cases hc.symm.trans hc'
    have hwired := (h.sites column' ⟨c, w.level⟩ (site?_eq_some_iff.2 ⟨hc, rfl⟩)).wired
    exact Prod.ext rfl (hwired.eq_of_name_eq hname' hname)

/-- A ticker that belongs to a chunk in which all entities are in its column is of the column. -/
theorem InOrder.column_eq (h : w.InOrder (fun column pos => column.contains pos = true) lent)
    {pos : BlockPos} (hown : w.Owns column pos name) : ChunkPos.ofBlock pos = column := by
  obtain ⟨c, hc, hname⟩ := hown
  obtain ⟨ticker, -, -, ⟨e, he, -⟩ | ⟨-, i, -, -, hcolumn, -⟩⟩ :=
    h.owners.valid column c pos name hc hname
  · exact beq_iff_eq.1
      ((h.placed column c hc).within.entities pos e (Chunk.entityAt?_eq_some_iff.1 he).1)
  · exact hcolumn

variable {fit : Chunk α → Prop}

/-- **Each active ticker has exactly one owner**, and each position for which a chunk keeps a name
has exactly one ticker, which is that of the entity there, in all worlds that runs reach and also
while an entity is being ticked. If all chunks are at home in columns within range and entities are
made in the column of the block, then no ticker of a column is left when its chunk is removed. -/
theorem Reached.matched (hdefault : cfg.DefaultReactions)
    (hfit : ∀ c, fit c → c.load.2.Unticked) (h : Reached cfg fit lent w) :
    w.Matched lent ∧
      ((∀ column : ChunkPos, cfg.MakesOnly fun pos => column.contains pos = true) →
        (∀ c, fit c → c.AtHome) → ∀ column name ticker,
          (w.removeChunk column).2.level.tickers.get? name = some ticker →
          ChunkPos.ofBlock ticker.pos ≠ column) := by
  refine ⟨?_, fun hmakes hhome column name ticker hget heq => ?_⟩
  · have horder : w.InOrder (fun _ _ => True) lent := by
      refine h.inOrder (fun _ => trivial) hdefault (fun _ => cfg.makesOnly_true) fun c hc => ?_
      exact ⟨hfit c hc, ⟨fun _ _ _ => trivial, fun _ _ _ => trivial⟩, fun _ _ => trivial⟩
    exact horder.owners
  · have horder : w.InOrder (fun column pos => column.contains pos = true) lent := by
      refine h.inOrder (fun pos => beq_self_eq_true _) hdefault hmakes fun c hc => ?_
      exact ⟨hfit c hc, (hhome c hc).placed⟩
    have hremoved := horder.removeChunk column
    obtain ⟨column', pos, hown⟩ := hremoved.covered name ticker hget
    have hcolumn := hremoved.column_eq hown
    obtain ⟨c, hc, hname⟩ := hown
    obtain ⟨ticker', hget', hpos, -⟩ := hremoved.owners.valid column' c pos name hc hname
    -- the owner is a chunk that is still there
    cases hget.symm.trans hget'
    rw [chunk?_removeChunk, ← hcolumn, ← hpos, heq, if_pos rfl] at hc
    cases hc

/-- A chunk that has been removed may be inserted again. -/
theorem unticked_removeChunk {c : Chunk α} (h : (w.removeChunk column).1 = some c) :
    c.Unticked := by
  unfold removeChunk at h
  cases hs : w.site? column with
  | none =>
    rw [hs] at h
    cases h
  | some s =>
    rw [hs] at h
    cases h
    obtain ⟨dispatchers, heq⟩ := Site.discardEntities_eq s
    constructor
    · intro pos
      show s.discardEntities.chunk.tickers.find? pos = none
      rw [heq]
      rfl
    · intro lent hl
      have hl : s.discardEntities.chunk.lent = some lent := hl
      rw [heq] at hl
      obtain ⟨before, -, rfl⟩ := Option.map_eq_some_iff.1 hl
      rfl

end World

/-! ### Chests that tick -/

/-- A new chunk of the world of chests, in which block entities are ticked. -/
def tickingChests : Chunk Unit := { Chunk.new chestWorld { pos := ⟨0, 0⟩ } with stage := .ticking }

theorem chestWorld_makesOnly (P : BlockPos → Prop) : chestWorld.MakesOnly P where
  create := by
    rintro pos state e hpos ⟨⟩
    exact hpos
  instantiate := by
    rintro id pos state e - ⟨⟩

theorem tickingChests_unticked : tickingChests.load.2.Unticked := .of_none rfl rfl

theorem tickingChests_atHome : tickingChests.AtHome := by
  refine ⟨?_, rfl, .of_empty rfl rfl⟩
  unfold ChunkPos.InRange
  decide

/-- A world with one chest. -/
def oneChest : World Unit Unit Unit :=
  World.edits chestWorld { level := { isClient := false }, owner := () }
    [.insertChunk tickingChests, .setBlock ⟨3, 5, 4⟩ ⟨1⟩ {}]

/-- When it is ticked, a chest puts another one in its own place. -/
def renewChest : TickerRunner Unit Unit Unit := fun _ w pos state e =>
  let chest : BlockEntity Unit := { type := ⟨"chest"⟩, pos, cachedState := state, data := () }
  (w.edits chestWorld [.addEntity chest], e)

/-- The chest is replaced by another in a tick, and then that one is out to be ticked. -/
theorem matched_chests :
    ∃ w i w', oneChest.tick chestWorld renewChest 3 = some w ∧
      w.invocation? chestWorld 0 = (some i, w') ∧ w'.Matched (some i) ∧
      ∀ column name ticker, (w'.removeChunk column).2.level.tickers.get? name = some ticker →
        ChunkPos.ofBlock ticker.pos ≠ column := by
  obtain ⟨w, hw⟩ := Option.isSome_iff_exists.1
    (show (oneChest.tick chestWorld renewChest 3).isSome by decide +kernel)
  have hvisit : ((oneChest.tick chestWorld renewChest 3).bind fun w =>
      (w.invocation? chestWorld 0).1).isSome := by
    decide +kernel
  rw [hw, Option.bind_some] at hvisit
  obtain ⟨i, hi⟩ := Option.isSome_iff_exists.1 hvisit
  have hlent : w.invocation? chestWorld 0 = (some i, (w.invocation? chestWorld 0).2) :=
    Prod.ext hi rfl
  have hone : World.Reached chestWorld (fun c => c.load.2.Unticked ∧ c.AtHome) none oneChest := by
    refine (World.Reached.new _ () rfl).edits ?_
    simp [WorldEdit.Admissible, tickingChests_unticked, tickingChests_atHome]
  have hrun : renewChest.Performs chestWorld fun c => c.load.2.Unticked ∧ c.AtHome := by
    intro action w pos state e
    have hes : ∀ chest : BlockEntity Unit, ∀ x ∈ [WorldEdit.addEntity chest],
        x.Admissible fun c => c.load.2.Unticked ∧ c.AtHome := by
      intro chest x hx
      rw [List.mem_singleton.1 hx]
      trivial
    exact ⟨[.addEntity _], _, hes _, rfl, ⟨rfl, rfl, rfl, rfl⟩⟩
  have hreached := World.Reached.visit 0 (.tick renewChest 3 hone hrun hw) hlent
  obtain ⟨hmatched, hremoved⟩ :=
    World.Reached.matched chestWorld_default (fun _ hc => hc.1) hreached
  exact ⟨w, i, _, hw, hlent, hmatched,
    hremoved (fun _ => chestWorld_makesOnly _) fun _ hc => hc.2⟩

/-! ### A chunk out of range -/

/-- The world of chests in which each block that is settled becomes a chest. -/
def settlingChests : Config Unit Unit :=
  { chestWorld with
    registry := { chestWorld.registry with neighborUpdate := fun _ _ _ => ⟨1⟩ } }

/-- A chunk so far out that the coordinates of its blocks wrap around, with one block queued. -/
def farChests : Chunk Unit :=
  { Chunk.new settlingChests { pos := ⟨268435456, 0⟩ } with unsettled := #[[16]] }

/-- The far chunk has been settled. -/
def settledFar : World Unit Unit Unit :=
  World.edits settlingChests { level := { isClient := false }, owner := () }
    [.insertChunk (Chunk.new settlingChests { pos := ⟨0, 0⟩ }), .insertChunk farChests,
      .settleChunk ⟨268435456, 0⟩]

/-- **A chunk out of range has tickers in other columns**, and they stay when the chunks of those
columns are removed, although all blocks react by default, entities are made where they are asked
for, and all entities and saved data of the chunks lie in their own columns. -/
theorem not_removed_far :
    settlingChests.DefaultReactions ∧ (∀ P, settlingChests.MakesOnly P) ∧
      World.Reached settlingChests
        (fun c => c.load.2.Unticked ∧ c.load.2.Within fun pos => c.pos.contains pos = true) none
        settledFar ∧
      (settledFar.removeChunk ⟨0, 0⟩).1.isSome ∧
      ∃ name ticker,
        (settledFar.removeChunk ⟨0, 0⟩).2.level.tickers.get? name = some ticker ∧
          ChunkPos.ofBlock ticker.pos = ⟨0, 0⟩ := by
  refine ⟨⟨fun _ _ _ _ => rfl, fun _ _ _ _ => rfl⟩, fun P => ⟨?_, fun _ _ _ _ _ h => ?_⟩, ?_, ?_,
    ⟨0, 0⟩, ⟨⟨0, 1, 0⟩, 0, ⟨"chest"⟩, (), false⟩, ?_, rfl⟩
  · rintro pos state e hpos ⟨⟩
    exact hpos
  · cases h
  · refine (World.Reached.new _ () rfl).edits ?_
    rintro e he
    simp only [List.mem_cons, List.not_mem_nil, or_false] at he
    rcases he with rfl | rfl | rfl
    · exact ⟨.of_none rfl rfl, .of_empty rfl rfl⟩
    · exact ⟨.of_none rfl rfl, .of_empty rfl rfl⟩
    · trivial
  · decide +kernel
  · decide +kernel

end VoxelChunk
