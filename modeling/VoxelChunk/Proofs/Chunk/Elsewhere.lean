import VoxelChunk.Proofs.Chunk.Removal

/-!
# What concerns other positions

A block entity comes or goes with its ticker and its listener. What a chunk keeps for the other
positions stays as it is, and so does all else but the record of what happens.

## Main definitions

* `Site.Elsewhere` — all that concerns other positions is as it was.

## Main results

* `Site.elsewhere_evictRemoved`, `Site.elsewhere_addEntity` — what goes and comes at one position
  does not concern the others.
* `Site.tickerAt?_addEntity`, `Site.listenerAt?_addEntity` — what is kept for an entity that comes.
-/

namespace VoxelChunk

variable {α τ : Type}

/-- Where the listener that an entity brings along hears. -/
def Config.sourcesOf (cfg : Config α τ) (e : Option (BlockEntity α)) : List BlockPos :=
  ((e.bind cfg.registry.listener).map Listener.source).toList

namespace Site

variable {cfg : Config α τ} {s t u : Site α τ} {pos : BlockPos} {sources : List BlockPos}

/-- The site with more notices. -/
def noting (s : Site α τ) (news : Array Notice) : Site α τ :=
  { s with level := { s.level with notices := s.level.notices ++ news } }

/-- The site without the saved data for a position. -/
def withoutPending (s : Site α τ) (pos : BlockPos) : Site α τ :=
  { s with chunk := { s.chunk with pending := s.chunk.pending.swapErase pos } }

/-! ### What is kept elsewhere -/

/-- Of block entities, saved data and tickers nothing has changed but at one position, and of
listeners nothing but of some sources. All else is as it was, but for the record of what happens. -/
structure Elsewhere (s : Site α τ) (pos : BlockPos) (sources : List BlockPos) (t : Site α τ) :
    Prop where
  entity : ∀ q, q ≠ pos → t.chunk.entities.find? q = s.chunk.entities.find? q
  pending : ∀ q, q ≠ pos → t.chunk.pending.find? q = s.chunk.pending.find? q
  name : ∀ q, q ≠ pos → t.chunk.tickers.find? q = s.chunk.tickers.find? q
  ticker : s.Wired → t.Wired ∧ ∀ q, q ≠ pos → t.tickerAt? q = s.tickerAt? q
  /-- In each section the other listeners are in the order they had. -/
  listeners : ∀ sectionY, (t.chunk.dispatchers.listenersOf sectionY).filter (·.source ∉ sources) =
    (s.chunk.dispatchers.listenersOf sectionY).filter (·.source ∉ sources)
  chunk : t.chunk = { s.chunk with
    entities := t.chunk.entities
    pending := t.chunk.pending
    tickers := t.chunk.tickers
    nextSerial := t.chunk.nextSerial
    dispatchers := t.chunk.dispatchers }
  level : t.level = { s.level with
    tickers := t.level.tickers
    events := t.level.events
    notices := t.level.notices }

theorem Elsewhere.trans (h : s.Elsewhere pos sources t) (h' : t.Elsewhere pos sources u) :
    s.Elsewhere pos sources u where
  entity := fun q hq => (h'.entity q hq).trans (h.entity q hq)
  pending := fun q hq => (h'.pending q hq).trans (h.pending q hq)
  name := fun q hq => (h'.name q hq).trans (h.name q hq)
  ticker := by
    intro hwired
    obtain ⟨hwired', htickers⟩ := h.ticker hwired
    obtain ⟨hwired'', htickers'⟩ := h'.ticker hwired'
    exact ⟨hwired'', fun q hq => (htickers' q hq).trans (htickers q hq)⟩
  listeners := fun sectionY => (h'.listeners sectionY).trans (h.listeners sectionY)
  chunk := by
    rw [h'.chunk, h.chunk]
  level := by
    rw [h'.level, h.level]

theorem Elsewhere.mono {sources' : List BlockPos} (h : s.Elsewhere pos sources t)
    (hsub : ∀ q ∈ sources, q ∈ sources') : s.Elsewhere pos sources' t where
  entity := h.entity
  pending := h.pending
  name := h.name
  ticker := h.ticker
  listeners := by
    intro sectionY
    have hfilter : ∀ ls : List Listener, ls.filter (·.source ∉ sources') =
        (ls.filter (·.source ∉ sources)).filter (·.source ∉ sources') := by
      intro ls
      rw [List.filter_filter]
      refine List.filter_congr fun l _ => ?_
      by_cases hl : l.source ∈ sources
      · simp [hl, hsub _ hl]
      · simp [hl]
    rw [hfilter, h.listeners, ← hfilter]
  chunk := h.chunk
  level := h.level

theorem Elsewhere.canTick_eq (h : s.Elsewhere pos sources t) : t.canTick = s.canTick := by
  unfold canTick
  rw [h.chunk, h.level]

theorem Elsewhere.lentAt?_eq (h : s.Elsewhere pos sources t) (q : BlockPos) :
    t.chunk.lentAt? q = s.chunk.lentAt? q := by
  unfold Chunk.lentAt?
  rw [h.chunk]

/-! ### What changes at one position -/

theorem elsewhere_noting (s : Site α τ) (pos : BlockPos) (sources : List BlockPos)
    (news : Array Notice) : s.Elsewhere pos sources (s.noting news) where
  entity := fun _ _ => rfl
  pending := fun _ _ => rfl
  name := fun _ _ => rfl
  ticker := fun hwired => ⟨⟨hwired.sound, hwired.named⟩, fun _ _ => rfl⟩
  listeners := fun _ => rfl
  chunk := rfl
  level := rfl

theorem elsewhere_withoutPending (s : Site α τ) (pos : BlockPos) (sources : List BlockPos) :
    s.Elsewhere pos sources (s.withoutPending pos) where
  entity := fun _ _ => rfl
  pending := fun q hq => (Keyed.find?_swapErase _ pos q).trans (if_neg hq)
  name := fun _ _ => rfl
  ticker := fun hwired => ⟨⟨hwired.sound, hwired.named⟩, fun _ _ => rfl⟩
  listeners := fun _ => rfl
  chunk := rfl
  level := rfl

theorem elsewhere_withEntity (s : Site α τ) (e : BlockEntity α) (sources : List BlockPos) :
    s.Elsewhere e.pos sources (s.withEntity e) where
  entity := fun q hq => (Keyed.find?_insert _ e.pos _ q).trans (if_neg hq)
  pending := fun _ _ => rfl
  name := fun _ _ => rfl
  ticker := fun hwired => ⟨⟨hwired.sound, hwired.named⟩, fun _ _ => rfl⟩
  listeners := fun _ => rfl
  chunk := rfl
  level := rfl

theorem name_updateTicker (s : Site α τ) (cfg : Config α τ) {pos q : BlockPos} (hq : q ≠ pos) :
    (s.updateTicker cfg pos).chunk.tickers.find? q = s.chunk.tickers.find? q := by
  have hremoved : (s.removeTicker pos).chunk.tickers.find? q = s.chunk.tickers.find? q := by
    rw [find?_removeTicker, if_neg hq]
  unfold updateTicker
  split
  · exact hremoved
  · split
    · exact hremoved
    · unfold registerTicker
      simp only
      split
      · rfl
      · exact (Keyed.find?_insert _ pos _ q).trans (if_neg hq)

theorem elsewhere_updateTicker (s : Site α τ) (cfg : Config α τ) (pos : BlockPos)
    (sources : List BlockPos) : s.Elsewhere pos sources (s.updateTicker cfg pos) := by
  have hname := fun q (hq : q ≠ pos) => name_updateTicker s cfg hq
  have hspec : s.Wired → s.Reticked pos (s.wantedTicker? cfg pos) (s.updateTicker cfg pos) :=
    updateTicker_spec
  obtain ⟨names, tickers, heq⟩ := updateTicker_eq s cfg pos
  rw [heq] at hname hspec ⊢
  exact
    { entity := fun _ _ => rfl
      pending := fun _ _ => rfl
      name := hname
      ticker := fun hwired => ⟨(hspec hwired).wired, fun q hq =>
        ((hspec hwired).tickerAt? q).trans (if_neg hq)⟩
      listeners := fun _ => rfl
      chunk := rfl
      level := rfl }

/-- Listeners may change that have certain sources. -/
theorem elsewhere_withDispatchers {dispatchers : Dispatchers}
    (h : ∀ sectionY, (dispatchers.listenersOf sectionY).filter (·.source ∉ sources) =
      (s.chunk.dispatchers.listenersOf sectionY).filter (·.source ∉ sources)) :
    s.Elsewhere pos sources { s with chunk := { s.chunk with dispatchers } } where
  entity := fun _ _ => rfl
  pending := fun _ _ => rfl
  name := fun _ _ => rfl
  ticker := fun hwired => ⟨⟨hwired.sound, hwired.named⟩, fun _ _ => rfl⟩
  listeners := h
  chunk := rfl
  level := rfl

theorem elsewhere_updateListener (s : Site α τ) (cfg : Config α τ) {pos : BlockPos}
    (hpos : pos ∈ sources) (hsources : ∀ l, (s.chunk.entityAt? pos).bind cfg.registry.listener =
      some l → l.source ∈ sources) : s.Elsewhere pos sources (s.updateListener cfg pos) := by
  unfold updateListener
  split
  · exact elsewhere_withDispatchers fun _ => rfl
  · split
    · next l hl => exact elsewhere_withDispatchers fun sectionY =>
        Dispatchers.filter_listenersOf_addListener _ _ (hsources l hl) sectionY
    · exact elsewhere_withDispatchers fun sectionY =>
        Dispatchers.filter_listenersOf_removeListener _ _ hpos sectionY

theorem evictRemoved_eq (s : Site α τ) (pos : BlockPos) :
    ∃ entities names dispatchers tickers, s.evictRemoved pos =
      { chunk := { s.chunk with entities, tickers := names, dispatchers }
        level := { s.level with tickers } } := by
  unfold evictRemoved
  split
  · exact ⟨_, _, _, _, rfl⟩
  · split
    · obtain ⟨names, tickers, heq⟩ := removeTicker_eq (Site.mk (Chunk.removeListener
        { s.chunk with entities := s.chunk.entities.swapErase pos } pos) s.level) pos
      exact ⟨_, names, _, tickers, heq⟩
    · exact ⟨_, _, _, _, rfl⟩

theorem removed_of_entityAt?_eq_none (hnone : s.chunk.entityAt? pos = none)
    {e : BlockEntity α} (he : s.chunk.entities.find? pos = some e) : e.removed = true := by
  unfold Chunk.entityAt? at hnone
  rw [he, Option.filter_some] at hnone
  cases hremoved : e.removed with
  | true => rfl
  | false =>
    rw [hremoved] at hnone
    cases hnone

/-- An entity that has been removed is taken out with its listener and its ticker. -/
theorem stripped_evictRemoved (hnone : s.chunk.entityAt? pos = none) :
    s.Stripped (if s.chunk.entities.contains pos then [pos] else []) (s.evictRemoved pos) := by
  unfold evictRemoved
  cases he : s.chunk.entities.find? pos with
  | none =>
    rw [if_neg (by unfold Keyed.contains; rw [he]; exact Bool.false_ne_true)]
    exact .refl s
  | some e =>
    simp only [removed_of_entityAt?_eq_none hnone he, if_true]
    rw [if_pos (by unfold Keyed.contains; rw [he]; rfl)]
    exact stripped_removeTicker s pos s.level.events

theorem Wired.evictRemoved (h : s.Wired) (pos : BlockPos) : (s.evictRemoved pos).Wired := by
  unfold Site.evictRemoved
  split
  · exact h
  · split
    · have hleft : Wired ({ s with chunk := Chunk.removeListener { s.chunk with
          entities := s.chunk.entities.swapErase pos } pos } : Site α τ) := ⟨h.sound, h.named⟩
      exact (removeTicker_spec hleft).wired
    · exact h

theorem elsewhere_evictRemoved (hnone : s.chunk.entityAt? pos = none) (hpos : pos ∈ sources) :
    s.Elsewhere pos sources (s.evictRemoved pos) := by
  have hstripped := stripped_evictRemoved hnone
  have hgone : ∀ q, q ≠ pos → q ∉ if s.chunk.entities.contains pos then [pos] else [] := by
    intro q hq
    split <;> simp [hq]
  have hwired := fun (h : s.Wired) => h.evictRemoved pos
  obtain ⟨entities, names, dispatchers, tickers, heq⟩ := evictRemoved_eq s pos
  rw [heq] at hstripped hwired ⊢
  exact
    { entity := fun q hq => (hstripped.entity q).trans (if_neg (hgone q hq))
      pending := fun _ _ => rfl
      name := fun q hq => (hstripped.ticker q).trans (if_neg (hgone q hq))
      ticker := fun h => ⟨hwired h, fun q hq =>
        (hstripped.tickerAt?_eq h q).trans (if_neg (hgone q hq))⟩
      listeners := by
        intro sectionY
        rw [hstripped.listeners, List.filter_filter]
        refine List.filter_congr fun l _ => ?_
        by_cases hl : l.source = pos
        · simp [hl, hpos]
        · simp [hgone l.source hl]
      chunk := rfl
      level := rfl }

theorem discardLent_of_none (hout : s.chunk.lentAt? pos = none) : s.discardLent pos = s := by
  unfold discardLent Chunk.modifyLent
  rw [hout]

theorem entityAt?_withEntity (s : Site α τ) (e : BlockEntity α) :
    (s.withEntity e).chunk.entityAt? e.pos = some (s.installed e) :=
  Chunk.entityAt?_eq_some_iff.2 ⟨(Keyed.find?_insert ..).trans (if_pos rfl), rfl⟩

/-- An entity that has just been installed gets its listener. -/
theorem elsewhere_heard (s : Site α τ) (cfg : Config α τ) (e : BlockEntity α) :
    (s.withEntity e).Elsewhere e.pos (e.pos :: cfg.sourcesOf (some (s.installed e)))
      ((s.withEntity e).updateListener cfg e.pos) := by
  refine elsewhere_updateListener _ cfg List.mem_cons_self fun l hl => ?_
  rw [entityAt?_withEntity] at hl
  refine List.mem_cons_of_mem _ (Option.mem_toList.2 ?_)
  rw [hl]
  rfl

theorem elsewhere_addEntity {e : BlockEntity α} (hout : s.chunk.lentAt? e.pos = none)
    (cfg : Config α τ) :
    s.Elsewhere e.pos (e.pos :: cfg.sourcesOf (some (s.installed e))) (s.addEntity cfg e) := by
  rw [addEntity_eq_ite, discardLent_of_none hout]
  have hinstalled := elsewhere_withEntity s e (e.pos :: cfg.sourcesOf (some (s.installed e)))
  split
  · exact (hinstalled.trans (elsewhere_heard s cfg e)).trans (elsewhere_updateTicker _ cfg e.pos _)
  · exact hinstalled

/-! ### What is kept for an entity that comes -/

/-- The ticker of an installed entity is the one that it asks for. -/
theorem wantedTicker?_of_entity {e : BlockEntity α} (he : s.chunk.entityAt? e.pos = some e)
    (cfg : Config α τ) :
    s.wantedTicker? cfg e.pos = (cfg.upkeepOf s.level.isClient e).ticker := by
  obtain ⟨hfound, hlive⟩ := Chunk.entityAt?_eq_some_iff.1 he
  unfold wantedTicker? tickedAt?
  rw [hfound]
  simp only [hlive]
  rfl

theorem tickerAt?_addEntity {e : BlockEntity α} (hout : s.chunk.lentAt? e.pos = none)
    (cfg : Config α τ) (hwired : s.Wired) : (s.addEntity cfg e).tickerAt? e.pos =
      if s.canTick then (cfg.upkeepOf s.level.isClient (s.installed e)).ticker
      else s.tickerAt? e.pos := by
  rw [addEntity_eq_ite, discardLent_of_none hout]
  split
  · have hheard : ((s.withEntity e).updateListener cfg e.pos).Wired :=
      ((elsewhere_heard s cfg e).ticker ⟨hwired.sound, hwired.named⟩).1
    rw [(updateTicker_spec hheard).tickerAt?, if_pos rfl]
    have hfound : ((s.withEntity e).updateListener cfg e.pos).chunk.entityAt? e.pos =
        some (s.installed e) := by
      unfold Chunk.entityAt?
      rw [entities_updateListener]
      exact entityAt?_withEntity s e
    exact (wantedTicker?_of_entity (e := s.installed e) hfound cfg).trans
      (by rw [isClient_eq (ground_updateListener (s.withEntity e) e.pos)]; rfl)
  · rfl

theorem listenerAt?_addEntity {e : BlockEntity α} (hout : s.chunk.lentAt? e.pos = none)
    (cfg : Config α τ) (hl : ∀ l, cfg.registry.listener (s.installed e) = some l → l.source = e.pos) :
    (s.addEntity cfg e).chunk.listenerAt? e.pos =
      if s.canTick ∧ ¬s.level.isClient then cfg.registry.listener (s.installed e)
      else s.chunk.listenerAt? e.pos := by
  rw [addEntity_eq_ite, discardLent_of_none hout]
  by_cases htick : s.canTick
  · rw [if_pos htick]
    have hdispatchers : ∀ t : Site α τ, (t.updateTicker cfg e.pos).chunk.listenerAt? e.pos =
        t.chunk.listenerAt? e.pos := by
      intro t
      obtain ⟨names, tickers, heq⟩ := updateTicker_eq t cfg e.pos
      rw [heq]
      rfl
    rw [hdispatchers]
    unfold updateListener
    have hsame : (s.withEntity e).level.isClient = s.level.isClient := rfl
    rw [entityAt?_withEntity, Option.bind_some, hsame]
    by_cases hclient : s.level.isClient
    · rw [if_pos hclient, if_neg (fun h => h.2 hclient)]
      rfl
    · rw [if_neg hclient, if_pos ⟨htick, hclient⟩]
      cases hlistener : cfg.registry.listener (s.installed e) with
      | none => exact (Chunk.listenerAt?_removeListener ..).trans (if_pos rfl)
      | some l =>
        exact (Chunk.listenerAt?_addListener _ (hl l hlistener) e.pos).trans (if_pos rfl)
  · rw [if_neg htick, if_neg (fun h => htick h.1)]
    rfl

/-- An entity is installed and gets its ticker and its listener. -/
theorem addEntity_frame {e : BlockEntity α} (hout : s.chunk.lentAt? e.pos = none)
    (cfg : Config α τ) : ∃ names dispatchers tickers, s.addEntity cfg e =
      { chunk := { (s.withEntity e).chunk with tickers := names, dispatchers }
        level := { (s.withEntity e).level with tickers } } := by
  rw [addEntity_eq_ite, discardLent_of_none hout]
  split
  · obtain ⟨names, tickers, hticked⟩ :=
      updateTicker_eq ((s.withEntity e).updateListener cfg e.pos) cfg e.pos
    obtain ⟨dispatchers, hheard⟩ := updateListener_eq (s.withEntity e) cfg e.pos
    rw [hticked, hheard]
    exact ⟨names, dispatchers, tickers, rfl⟩
  · exact ⟨_, _, _, rfl⟩

end Site

end VoxelChunk
