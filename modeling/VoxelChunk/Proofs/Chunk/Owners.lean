import VoxelChunk.Proofs.Chunk.Moves

/-!
# Tickers that belong to a chunk

A chunk in its world keeps the names of its own tickers. Whatever is done with the chunk, its names
stay valid, each ticker stays the one of the entity at its position, and the tickers that the chunk
has no names of stay as they are.

## Main definitions

* `Site.Foreign` — an active ticker that is not the chunk's.
* `Site.Tended` — each name is valid, and its ticker is that of the entity at its position.

## Main results

* `Site.Moves.tended` — chains of moves keep tickers in order, and those of others alone.
* `Site.get?_discardEntities` — when a chunk leaves, no tickers are left but those of others.
-/

namespace VoxelChunk

variable {α τ : Type}

/-- The chunk when the entity at a position is out of it to be ticked. -/
def Chunk.lending (c : Chunk α) (pos : BlockPos) (e : BlockEntity α) : Chunk α :=
  { c with
    entities := c.entities.swapErase pos
    lent := some ⟨pos, e.serial, e.type, e.cachedState, false⟩ }

namespace Site

/-- An active ticker of the level that the chunk has no name of. -/
def Foreign (s : Site α τ) (name : TickerHandle) (ticker : ActiveTicker τ) : Prop :=
  s.level.tickers.get? name = some ticker ∧ ∀ pos, s.chunk.tickers.find? pos ≠ some name

/-- The tickers that the chunk has no names of are the same. -/
def SameForeign (s s' : Site α τ) : Prop :=
  ∀ name ticker, s'.Foreign name ticker ↔ s.Foreign name ticker

/-- Each name that the chunk keeps is valid, and its ticker is that of the entity at its position.
If an entity is out of the chunk and may come back, it is `out`. -/
structure Tended (out : Option (BlockPos × EntityType × UInt32)) (s : Site α τ) : Prop where
  wired : s.Wired
  loaded : s.chunk.loaded
  fits : ∀ pos ticker, s.tickerAt? pos = some ticker →
    selfAt? s.chunk pos = some (ticker.type, ticker.serial)
  lends : ∀ lent, s.chunk.lent = some lent → lent.removed = false →
    out = some (lent.pos, lent.type, lent.serial)

variable {cfg : Config α τ} {P : BlockPos → Prop} {s s' t : Site α τ} {pos : BlockPos}
  {out : Option (BlockPos × EntityType × UInt32)}

theorem SameForeign.refl (s : Site α τ) : s.SameForeign s := fun _ _ => Iff.rfl

theorem SameForeign.trans {s'' : Site α τ} (h : s.SameForeign s') (h' : s'.SameForeign s'') :
    s.SameForeign s'' :=
  fun name ticker => (h' name ticker).trans (h name ticker)

/-! ### Tickers of others -/

theorem sameForeign_removeTicker (s : Site α τ) (pos : BlockPos) :
    s.SameForeign (s.removeTicker pos) := by
  intro name ticker
  simp only [Foreign, get?_removeTicker, find?_removeTicker]
  by_cases hown : s.chunk.tickers.find? pos = some name
  · -- the name that is given up was the chunk's
    rw [if_pos hown]
    exact iff_of_false (fun h => by cases h.1) fun h => h.2 pos hown
  · rw [if_neg hown]
    refine and_congr_right fun _ => forall_congr' fun q => ?_
    by_cases hq : q = pos
    · rw [if_pos hq, hq]
      exact iff_of_true (fun heq => by cases heq) hown
    · rw [if_neg hq]

theorem sameForeign_registerTicker (h : s.Wired) (pos : BlockPos) (ticker : ActiveTicker τ) :
    s.SameForeign (s.registerTicker pos ticker) := by
  unfold registerTicker
  cases hown : s.chunk.tickers.find? pos with
  | none =>
    intro name other
    simp only [Option.bind_none, Foreign, Tickers.get?_register h.sound, Keyed.find?_insert]
    by_cases hname : name = (s.level.tickers.register ticker).1
    · -- the new name becomes the chunk's, and stood for nothing
      rw [if_pos hname, hname]
      refine iff_of_false (fun h => h.2 pos (if_pos rfl)) fun hold => ?_
      rw [Tickers.get?_fst_register h.sound] at hold
      cases hold.1
    · rw [if_neg hname]
      refine and_congr_right fun _ => forall_congr' fun q => ?_
      by_cases hq : q = pos
      · rw [if_pos hq, hq, hown]
        exact iff_of_true (fun heq => hname (Option.some.inj heq).symm) fun heq => by cases heq
      · rw [if_neg hq]
  | some own =>
    obtain ⟨old, hold, -⟩ := h.named pos own hown
    have hget := Tickers.get?_replace hold ticker
    rw [Tickers.replace_of_some hold] at hget
    rw [Option.bind_some, Tickers.replace_of_some hold]
    intro name other
    show ((s.level.tickers.setState own.index (.active ticker)).get? name = some other ∧
      ∀ q, s.chunk.tickers.find? q ≠ some name) ↔ s.Foreign name other
    rw [hget]
    by_cases hname : name = own
    · subst hname
      exact iff_of_false (fun h => h.2 pos hown) fun h => h.2 pos hown
    · rw [if_neg hname]
      rfl

theorem sameForeign_updateTicker (h : s.Wired) (pos : BlockPos) :
    s.SameForeign (s.updateTicker cfg pos) := by
  unfold updateTicker
  split
  · exact sameForeign_removeTicker s pos
  · split
    · exact sameForeign_removeTicker s pos
    · exact sameForeign_registerTicker h pos _

/-! ### Moves keep tickers in order -/

namespace Touched

theorem wired (h : s.Touched P t) (hs : s.Wired) : t.Wired where
  sound := h.slots ▸ hs.sound
  named := by
    rw [h.names, h.slots]
    exact hs.named

theorem tickerAt?_eq (h : s.Touched P t) (pos : BlockPos) : t.tickerAt? pos = s.tickerAt? pos := by
  unfold tickerAt?
  rw [h.names, h.slots]

theorem sameForeign (h : s.Touched P t) : s.SameForeign t := by
  intro name ticker
  unfold Foreign
  rw [h.names, h.slots]

theorem loaded (h : s.Touched P t) (hs : s.chunk.loaded) : t.chunk.loaded :=
  (congrArg (fun place => place.2.1) h.place).trans hs

theorem lends (h : s.Touched P t) (hs : s.Tended out) (lent : LentEntity)
    (hl : t.chunk.lent = some lent) (hr : lent.removed = false) :
    out = some (lent.pos, lent.type, lent.serial) := by
  obtain ⟨lent', hl', hr', heq⟩ := h.lent lent hl hr
  rw [hs.lends lent' hl' hr', heq]

/-- Where entities have changed at one position, its ticker restores the order. -/
theorem tended (h : s.Touched (· = pos) t) (hs : s.Tended out) {ticker : Option (ActiveTicker τ)}
    (hr : t.Reticked pos ticker s') (hself : ∀ wanted, ticker = some wanted →
      selfAt? t.chunk pos = some (wanted.type, wanted.serial)) : s'.Tended out := by
  have hwired := hr.wired
  have hat := hr.tickerAt?
  obtain ⟨names, tickers, rfl⟩ := hr.only
  refine ⟨hwired, h.loaded hs.loaded, fun q found hq => ?_, h.lends hs⟩
  show selfAt? t.chunk q = _
  rw [hat] at hq
  by_cases heq : q = pos
  · rw [if_pos heq] at hq
    rw [heq]
    exact hself found hq
  · rw [if_neg heq, h.tickerAt?_eq] at hq
    rw [(h.elsewhere q heq).selfAt?_eq]
    exact hs.fits q found hq

end Touched

theorem selfAt?_of_wanted {wanted : ActiveTicker τ} (h : s.wantedTicker? cfg pos = some wanted) :
    selfAt? s.chunk pos = some (wanted.type, wanted.serial) := by
  obtain ⟨⟨type, state, serial⟩, hticked, h⟩ := Option.bind_eq_some_iff.1 h
  obtain ⟨action, -, rfl⟩ := Option.map_eq_some_iff.1 h
  unfold selfAt?
  rw [hticked]
  rfl

/-- **A move keeps the chunk's tickers in order**, and those of others alone. -/
theorem Moved.tended (h : Moved cfg P s s') (hs : s.Tended out) :
    s'.Tended out ∧ s.SameForeign s' := by
  cases h with
  | still htouched hself =>
    refine ⟨⟨htouched.wired hs.wired, htouched.loaded hs.loaded, fun pos ticker hat => ?_,
      htouched.lends hs⟩, htouched.sameForeign⟩
    rw [htouched.tickerAt?_eq] at hat
    rw [hself]
    exact hs.fits pos ticker hat
  | updated pos t _ htouched =>
    have hwired := htouched.wired hs.wired
    exact ⟨htouched.tended hs (updateTicker_spec hwired) fun _ => selfAt?_of_wanted,
      htouched.sameForeign.trans (sameForeign_updateTicker hwired pos)⟩
  | removed pos t _ htouched =>
    have hwired := htouched.wired hs.wired
    exact ⟨htouched.tended hs (removeTicker_spec hwired) nofun,
      htouched.sameForeign.trans (sameForeign_removeTicker t pos)⟩

/-- **Chains of moves keep the chunk's tickers in order**, and those of others alone. -/
theorem Moves.tended (h : Moves cfg P s s') (hs : s.Tended out) :
    s'.Tended out ∧ s.SameForeign s' := by
  induction h with
  | refl => exact ⟨hs, .refl s⟩
  | tail _ hmove ih =>
    obtain ⟨htended, hforeign⟩ := ih
    obtain ⟨htended', hforeign'⟩ := (hmove.moved htended.loaded).tended htended
    exact ⟨htended', hforeign.trans hforeign'⟩

/-! ### An entity is lent and comes back -/

/-- The chunk may change as long as it keeps its names, and the same entities are ticked. -/
theorem Tended.congr {c c' : Chunk α} {level : Level τ}
    {out' : Option (BlockPos × EntityType × UInt32)} (h : Tended out ⟨c, level⟩)
    (hnames : c'.tickers = c.tickers) (hloaded : c'.loaded = c.loaded)
    (hself : ∀ pos, selfAt? c' pos = selfAt? c pos)
    (hlends : ∀ lent, c'.lent = some lent → lent.removed = false →
      out' = some (lent.pos, lent.type, lent.serial)) : Tended out' ⟨c', level⟩ where
  wired := by
    refine ⟨h.wired.sound, fun pos name hname => h.wired.named pos name ?_⟩
    rwa [← hnames]
  loaded := hloaded.trans h.loaded
  fits := by
    intro pos ticker hat
    unfold tickerAt? at hat
    simp only [hnames] at hat
    exact (hself pos).trans (h.fits pos ticker hat)
  lends := hlends

/-- While no other entity is out of the chunk, an entity that is lent is still the one that is
ticked at its position. -/
theorem selfAt?_lending {c : Chunk α} {e : BlockEntity α} (he : c.entityAt? pos = some e)
    (hnone : ∀ q, c.lentAt? q = none) (q : BlockPos) :
    selfAt? (c.lending pos e) q = selfAt? c q := by
  obtain ⟨hfound, hlive⟩ := Chunk.entityAt?_eq_some_iff.1 he
  have hentities : (c.lending pos e).entities.find? q =
      if q = pos then none else c.entities.find? q :=
    Keyed.find?_swapErase ..
  have hlent := Chunk.lentAt?_of_some
    (show (c.lending pos e).lent = some ⟨pos, e.serial, e.type, e.cachedState, false⟩ from rfl) q
  unfold selfAt? tickedAt?
  rw [hentities, hlent, hnone]
  by_cases hq : q = pos
  · subst hq
    simp [hfound, hlive]
  · rw [if_neg hq, if_neg (fun h => hq h.1.symm)]

/-- An entity that comes back is the one that was ticked at its position all the time. -/
theorem selfAt?_returnEntity {c : Chunk α} {e : BlockEntity α} (hr : e.removed = false)
    (he : ∀ lent, c.lent = some lent → lent.removed = false →
      (e.type, e.serial) = (lent.type, lent.serial)) (q : BlockPos) :
    selfAt? (c.returnEntity e) q = selfAt? c q := by
  unfold Chunk.returnEntity
  cases hlent : c.lent with
  | none => rfl
  | some lent =>
    simp only
    split
    · next hgone =>
      -- the entity was removed or replaced, so it was not ticked there
      unfold selfAt? tickedAt?
      rw [Chunk.lentAt?_of_some hlent, Chunk.lentAt?_of_none rfl]
      cases hfound : c.entities.find? q with
      | some other => rfl
      | none =>
        rw [if_neg]
        rintro ⟨rfl, hr⟩
        rw [hr, Bool.false_or, Keyed.contains, hfound] at hgone
        cases hgone
    · next hback =>
      rw [Bool.or_eq_true, not_or, Bool.not_eq_true, Bool.not_eq_true] at hback
      obtain ⟨hlive, habsent⟩ := hback
      have hpair := he lent hlent hlive
      unfold selfAt? tickedAt?
      rw [Keyed.find?_insert, Chunk.lentAt?_of_some hlent, Chunk.lentAt?_of_none rfl]
      by_cases hq : q = lent.pos
      · subst hq
        have hnone : c.entities.find? lent.pos = none := by
          simpa [Keyed.contains] using habsent
        rw [if_pos rfl, hnone]
        simpa [hr, hlive] using hpair
      · rw [if_neg hq, if_neg (fun h => hq h.1.symm)]

/-- What stays when an entity comes back. -/
theorem returnEntity_frame (c : Chunk α) (e : BlockEntity α) :
    ((c.returnEntity e).pos, (c.returnEntity e).loaded, (c.returnEntity e).tickers,
        (c.returnEntity e).pending, (c.returnEntity e).lent) =
      (c.pos, c.loaded, c.tickers, c.pending, none) := by
  unfold Chunk.returnEntity
  cases hlent : c.lent with
  | none => exact congrArg (fun lent => (c.pos, c.loaded, c.tickers, c.pending, lent)) hlent
  | some lent =>
    simp only
    split
    · rfl
    · rfl

theorem lentAt?_returnEntity (c : Chunk α) (e : BlockEntity α) (pos : BlockPos) :
    (c.returnEntity e).lentAt? pos = none :=
  Chunk.lentAt?_of_none (congrArg (fun frame => frame.2.2.2.2) (returnEntity_frame c e)) pos

/-- Where an entity is installed when one comes back. -/
theorem mem_returnEntity {c : Chunk α} {e e' : BlockEntity α}
    (h : (c.returnEntity e).entities.find? pos = some e') :
    c.entities.find? pos = some e' ∨
      ∃ lent, c.lent = some lent ∧ lent.removed = false ∧ pos = lent.pos := by
  unfold Chunk.returnEntity at h
  cases hlent : c.lent with
  | none =>
    rw [hlent] at h
    exact Or.inl h
  | some lent =>
    rw [hlent] at h
    simp only at h
    split at h
    · exact Or.inl h
    · next hback =>
      rw [Bool.or_eq_true, not_or, Bool.not_eq_true] at hback
      rw [Keyed.find?_insert] at h
      split at h
      · next heq => exact Or.inr ⟨lent, rfl, hback.1, heq⟩
      · exact Or.inl h

/-! ### A chunk leaves its world -/

theorem foldl_removeListener_eq (positions : List BlockPos) (c : Chunk α) :
    ∃ dispatchers, positions.foldl Chunk.removeListener c = { c with dispatchers } := by
  induction positions generalizing c with
  | nil => exact ⟨_, rfl⟩
  | cons pos positions ih =>
    obtain ⟨dispatchers, heq⟩ := ih (c.removeListener pos)
    exact ⟨dispatchers, heq⟩

/-- What becomes of a chunk that leaves its world: it has no names of tickers, and no entity that is
out of it comes back. -/
theorem discardEntities_eq (s : Site α τ) :
    ∃ dispatchers, s.discardEntities =
      { chunk := { s.chunk with
          entities := s.chunk.entities.mapValues fun _ e => e.discard
          lent := s.chunk.lent.map fun lent => { lent with removed := true }
          dispatchers
          tickers := {} }
        level := { s.level with
          tickers := s.chunk.tickers.values.foldl (fun tickers name => (tickers.remove name).2)
            s.level.tickers } } := by
  unfold discardEntities
  simp only
  obtain ⟨dispatchers, heq⟩ := foldl_removeListener_eq
    (s.chunk.entities.keys ++ (s.chunk.lent.map LentEntity.pos).toList)
    { s.chunk with
      entities := s.chunk.entities.mapValues fun _ e => e.discard
      lent := s.chunk.lent.map fun lent => { lent with removed := true } }
  rw [heq]
  exact ⟨dispatchers, rfl⟩

theorem lentAt?_discardEntities (s : Site α τ) (pos : BlockPos) :
    s.discardEntities.chunk.lentAt? pos = none := by
  obtain ⟨dispatchers, heq⟩ := discardEntities_eq s
  rw [heq]
  unfold Chunk.lentAt?
  cases s.chunk.lent with
  | none => rfl
  | some lent => simp

/-- What becomes of a chunk that comes into its world: it may have other listeners and tickers. -/
theorem updateEntities_eq (s : Site α τ) (cfg : Config α τ) :
    ∃ dispatchers names tickers, s.updateEntities cfg =
      { chunk := { s.chunk with dispatchers, tickers := names }
        level := { s.level with tickers } } := by
  unfold updateEntities
  simp only
  generalize (s.chunk.entities.entries.filter fun e => !e.2.removed).map Prod.fst = positions
  induction positions generalizing s with
  | nil => exact ⟨_, _, _, rfl⟩
  | cons pos positions ih =>
    obtain ⟨dispatchers, hheard⟩ := updateListener_eq s cfg pos
    obtain ⟨names, tickers, hticked⟩ := updateTicker_eq (s.updateListener cfg pos) cfg pos
    obtain ⟨dispatchers', names', tickers', heq⟩ := ih ((s.updateListener cfg pos).updateTicker cfg pos)
    refine ⟨dispatchers', names', tickers', ?_⟩
    rw [List.foldl_cons, heq, hticked, hheard]

/-- **When a chunk leaves, no tickers are left but those of others.** -/
theorem get?_discardEntities (s : Site α τ) (name : TickerHandle) (ticker : ActiveTicker τ) :
    s.discardEntities.level.tickers.get? name = some ticker ↔ s.Foreign name ticker := by
  obtain ⟨dispatchers, heq⟩ := discardEntities_eq s
  rw [heq]
  show (s.chunk.tickers.values.foldl _ s.level.tickers).get? name = some ticker ↔ _
  rw [Tickers.get?_foldl_remove, Foreign]
  by_cases hmem : name ∈ s.chunk.tickers.values
  · obtain ⟨pos, hpos⟩ := Keyed.mem_values_iff.1 hmem
    rw [if_pos hmem]
    exact iff_of_false nofun fun h => h.2 pos hpos
  · rw [if_neg hmem]
    refine (and_iff_left fun pos hpos => ?_).symm
    exact hmem (Keyed.mem_values_iff.2 ⟨pos, hpos⟩)

end Site

end VoxelChunk
