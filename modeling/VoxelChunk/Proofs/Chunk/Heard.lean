import Mathlib.Data.List.Nodup
import Mathlib.Data.List.Perm.Basic
import VoxelChunk.Proofs.Chunk.Edits
import VoxelChunk.Proofs.Chunk.Mirror
import VoxelChunk.Proofs.Chunk.Owners

/-!
# Listeners of a chunk

The listeners that stand in the dispatchers of a chunk are those of its block entities, each in the
section of its entity, as long as the chunk is in the world of a server. An entity that is out of
the chunk to be ticked goes on listening.

## Main definitions

* `Chunk.standingAt?` — the entity that is installed at a position, or out of the chunk from there.
* `Config.Keeps` — what is done to an entity leaves its listener alone.
* `Chunk.Attentive`, `Site.Attentive` — the chunk holds exactly the listeners of its entities.
* `Chunk.Unheard` — a chunk without listeners, which may come into a world.
* `Chunk.standing` — all entities that stand in the chunk.

## Main results

* `Site.EntitySteps.attentive` — chains of steps keep listeners in order.
* `Site.Attentive.setBlock`, `Site.Attentive.settleAll`, `Site.Attentive.modifyEntity` — and so do
  operations.
* `Chunk.Attentive.lending`, `Chunk.Attentive.returnEntity` — entities are lent and come back.
* `Site.attentive_updateEntities`, `Site.Attentive.unheard` — chunks come and go.
* `Chunk.Attentive.perm_dispatch` — what the dispatchers of some sections hear together.
-/

namespace VoxelChunk

variable {α τ : Type}

/-- What is done to an entity leaves alone what the library knows of it, and its listener. -/
structure Config.Keeps (cfg : Config α τ) (e' e : BlockEntity α) : Prop where
  continues : e'.Continues e
  listener : cfg.registry.listener e' = cfg.registry.listener e

namespace Chunk

/-- The entity that is installed at a position and not removed, or the one that is `out` of the chunk
to be ticked if it has left from there. -/
def standingAt? (out : Option (BlockEntity α)) (c : Chunk α) (pos : BlockPos) :
    Option (BlockEntity α) :=
  (c.entityAt? pos).or ((c.lentAt? pos).bind fun _ => out)

/-- The chunk is in its world, and holds exactly the listeners of its entities, each of which stands
at its own position. If an entity is out of the chunk and may come back, it is `out`. -/
structure Attentive (cfg : Config α τ) (out : Option (BlockEntity α)) (c : Chunk α) : Prop where
  loaded : c.loaded
  onLoad : c.onLoad = none
  seated : ∀ pos e, c.entities.find? pos = some e → e.pos = pos
  away : ∀ pos, (c.lentAt? pos).isSome → c.entities.find? pos = none ∧
    ∃ e, out = some e ∧ e.pos = pos ∧ e.removed = false
  heard : c.dispatchers.Hold fun pos => (c.standingAt? out pos).bind cfg.registry.listener

/-- The chunk has no listeners, no entity that is out of it comes back, and each entity stands at its
own position. -/
structure Unheard (c : Chunk α) : Prop where
  listeners : ∀ sectionY l, ¬c.dispatchers.Has sectionY l
  seated : ∀ pos e, c.entities.find? pos = some e → e.pos = pos
  lent : ∀ lent, c.lent = some lent → lent.removed = true

/-- A new chunk has no listeners, for example. -/
theorem Unheard.of_empty {c : Chunk α} (hdispatchers : c.dispatchers = {})
    (hentities : c.entities = {}) (hlent : c.lent = none) : c.Unheard where
  listeners := by
    rintro sectionY l ⟨d, hd, -⟩
    rw [hdispatchers] at hd
    cases hd
  seated := by
    intro pos e he
    rw [hentities] at he
    cases he
  lent := by
    intro lent hl
    rw [hlent] at hl
    cases hl

theorem Attentive.sole {cfg : Config α τ} {out : Option (BlockEntity α)} {c : Chunk α}
    (h : c.Attentive cfg out) : c.Sole :=
  fun pos hout => (h.away pos hout).1

theorem standingAt?_of_none {out : Option (BlockEntity α)} {c : Chunk α} {pos : BlockPos}
    (he : c.entities.find? pos = none) (hl : c.lentAt? pos = none) :
    c.standingAt? out pos = none := by
  unfold standingAt? entityAt?
  rw [he, hl]
  rfl

theorem standingAt?_of_live {out : Option (BlockEntity α)} {c : Chunk α} {pos : BlockPos}
    {e : BlockEntity α} (he : c.entityAt? pos = some e) : c.standingAt? out pos = some e := by
  unfold standingAt?
  rw [he]
  rfl

end Chunk

namespace Site

/-- The chunk is in the world of a server, and holds exactly the listeners of its entities. -/
structure Attentive (cfg : Config α τ) (out : Option (BlockEntity α)) (s : Site α τ) : Prop where
  server : s.level.isClient = false
  chunk : s.chunk.Attentive cfg out

variable {cfg : Config α τ} {out : Option (BlockEntity α)} {P Q : BlockPos → Prop}
  {s t : Site α τ} {pos : BlockPos} {wanted : BlockPos → Option Listener}

/-- An entity that stands the same way at a position is the same one. -/
theorem SameAt.standingAt?_eq (h : s.SameAt pos t) :
    t.chunk.standingAt? out pos = s.chunk.standingAt? out pos := by
  unfold Chunk.standingAt? Chunk.entityAt?
  rw [h.1, h.2]

/-- The listener of a position is made anew. -/
theorem hold_updateListener (hserver : s.level.isClient = false)
    (h : s.chunk.dispatchers.Hold wanted)
    (hsource : ∀ e l, s.chunk.entityAt? pos = some e → cfg.registry.listener e = some l →
      l.source = pos) :
    (s.updateListener cfg pos).chunk.dispatchers.Hold fun q =>
      if q = pos then (s.chunk.entityAt? pos).bind cfg.registry.listener else wanted q := by
  unfold updateListener
  rw [hserver]
  simp only [Bool.false_eq_true, if_false]
  cases hl : (s.chunk.entityAt? pos).bind cfg.registry.listener with
  | none => exact h.removeListener pos
  | some l =>
    obtain ⟨e, he, hlistener⟩ := Option.bind_eq_some_iff.1 hl
    have hheld := h.addListener l
    rw [hsource e l he hlistener] at hheld
    exact hheld

namespace Attentive

/-! ### What does not matter -/

theorem of_belongings (h : s.Attentive cfg out) (heq : t.belongings = s.belongings) :
    t.Attentive cfg out := by
  have hheld := holdings_eq heq
  have hdispatchers := dispatchers_eq heq
  have honLoad := onLoad_eq heq
  have hloaded : t.chunk.loaded = s.chunk.loaded := congrArg (fun held => held.1.2.1) hheld
  have hclient : t.level.isClient = s.level.isClient := congrArg (fun held => held.1.2.2) hheld
  have hentities : t.chunk.entities = s.chunk.entities := congrArg (fun held => held.2.1) hheld
  have hlent : t.chunk.lent = s.chunk.lent := congrArg (fun held => held.2.2.2.1) hheld
  have hlentAt : ∀ pos, t.chunk.lentAt? pos = s.chunk.lentAt? pos := by
    intro pos
    unfold Chunk.lentAt?
    rw [hlent]
  have hstanding : ∀ pos, t.chunk.standingAt? out pos = s.chunk.standingAt? out pos :=
    fun pos => SameAt.standingAt?_eq ⟨by rw [hentities], hlentAt pos⟩
  refine ⟨hclient.trans h.server, hloaded.trans h.chunk.loaded, honLoad.trans h.chunk.onLoad, ?_,
    fun pos hpos => ?_, ?_⟩
  · rw [hentities]
    exact h.chunk.seated
  · rw [hlentAt] at hpos
    rw [hentities]
    exact h.chunk.away pos hpos
  · simp only [hstanding]
    rw [hdispatchers]
    exact h.chunk.heard

theorem retick (h : s.Attentive cfg out) (names : Keyed BlockPos TickerHandle)
    (tickers : Tickers τ) :
    Attentive cfg out
      { chunk := { s.chunk with tickers := names }, level := { s.level with tickers } } :=
  ⟨h.server, h.chunk.loaded, h.chunk.onLoad, h.chunk.seated, h.chunk.away, h.chunk.heard⟩

theorem updateTicker (h : s.Attentive cfg out) (pos : BlockPos) :
    (s.updateTicker cfg pos).Attentive cfg out := by
  obtain ⟨names, tickers, heq⟩ := updateTicker_eq s cfg pos
  rw [heq]
  exact h.retick names tickers

theorem removeTicker (h : s.Attentive cfg out) (pos : BlockPos) :
    (s.removeTicker pos).Attentive cfg out := by
  obtain ⟨names, tickers, heq⟩ := removeTicker_eq s pos
  rw [heq]
  exact h.retick names tickers

/-! ### One position changes -/

/-- **Only one position changes**, and its listener is that of the entity which stands there now. -/
theorem replace (h : s.Attentive cfg out) (hground : t.ground = s.ground)
    (helsewhere : ∀ q, q ≠ pos → s.SameAt q t)
    (hseated : ∀ e, t.chunk.entities.find? pos = some e → e.pos = pos)
    (haway : (t.chunk.lentAt? pos).isSome →
      (s.chunk.lentAt? pos).isSome ∧ t.chunk.entities.find? pos = none)
    (hheard : t.chunk.dispatchers.Hold fun q =>
      if q = pos then (t.chunk.standingAt? out pos).bind cfg.registry.listener
      else (s.chunk.standingAt? out q).bind cfg.registry.listener) : t.Attentive cfg out := by
  have hloaded : t.chunk.loaded = s.chunk.loaded := congrArg (fun ground => ground.2.1) hground
  have honLoad : t.chunk.onLoad = s.chunk.onLoad := congrArg (fun ground => ground.2.2.2) hground
  refine ⟨(isClient_eq hground).trans h.server, hloaded.trans h.chunk.loaded,
    honLoad.trans h.chunk.onLoad, fun q e he => ?_, fun q hq => ?_, ?_⟩
  · by_cases heq : q = pos
    · subst heq
      exact hseated e he
    · exact h.chunk.seated q e ((helsewhere q heq).1.symm.trans he)
  · by_cases heq : q = pos
    · subst heq
      obtain ⟨hout, hnone⟩ := haway hq
      exact ⟨hnone, (h.chunk.away q hout).2⟩
    · obtain ⟨hentity, hlent⟩ := helsewhere q heq
      rw [hlent] at hq
      rw [hentity]
      exact h.chunk.away q hq
  · have hsame : (fun q => if q = pos then (t.chunk.standingAt? out pos).bind cfg.registry.listener
        else (s.chunk.standingAt? out q).bind cfg.registry.listener) =
        fun q => (t.chunk.standingAt? out q).bind cfg.registry.listener := by
      funext q
      split
      · next heq => rw [heq]
      · next hne => rw [(helsewhere q hne).standingAt?_eq]
    rw [← hsame]
    exact hheard

/-- The entity that stands at a position changes, but its listener does not. -/
theorem replace_same (h : s.Attentive cfg out) (hground : t.ground = s.ground)
    (helsewhere : ∀ q, q ≠ pos → s.SameAt q t)
    (hseated : ∀ e, t.chunk.entities.find? pos = some e → e.pos = pos)
    (haway : (t.chunk.lentAt? pos).isSome →
      (s.chunk.lentAt? pos).isSome ∧ t.chunk.entities.find? pos = none)
    (hdispatchers : t.chunk.dispatchers = s.chunk.dispatchers)
    (hlistener : (t.chunk.standingAt? out pos).bind cfg.registry.listener =
      (s.chunk.standingAt? out pos).bind cfg.registry.listener) : t.Attentive cfg out := by
  refine h.replace hground helsewhere hseated haway ?_
  have hsame : (fun q => if q = pos then (t.chunk.standingAt? out pos).bind cfg.registry.listener
      else (s.chunk.standingAt? out q).bind cfg.registry.listener) =
      fun q => (s.chunk.standingAt? out q).bind cfg.registry.listener := by
    funext q
    split
    · next heq => rw [hlistener, heq]
    · rfl
  rw [hsame, hdispatchers]
  exact h.chunk.heard

/-- No entity stands at a position any more. -/
theorem replace_none (h : s.Attentive cfg out) (hground : t.ground = s.ground)
    (helsewhere : ∀ q, q ≠ pos → s.SameAt q t) (hentity : t.chunk.entities.find? pos = none)
    (hlent : t.chunk.lentAt? pos = none) (hdispatchers : t.chunk.dispatchers =
      (s.chunk.removeListener pos).dispatchers) : t.Attentive cfg out := by
  refine h.replace hground helsewhere (fun e he => ?_) (fun hout => ?_) ?_
  · rw [hentity] at he
    cases he
  · rw [hlent] at hout
    cases hout
  · rw [Chunk.standingAt?_of_none hentity hlent, hdispatchers]
    exact h.chunk.heard.removeListener pos

/-! ### Steps -/

theorem removeEntity (h : s.Attentive cfg out) (pos : BlockPos) :
    (s.removeEntity pos).2.Attentive cfg out := by
  have htick : s.canTick := canTick_of_loaded h.chunk.loaded
  have hdispatchers : (s.takeEntity pos).2.chunk.dispatchers = s.chunk.dispatchers := by
    unfold takeEntity Chunk.modifyLent
    split
    · rfl
    · split
      · split <;> rfl
      · rfl
  unfold Site.removeEntity
  rw [if_pos htick]
  refine removeTicker ?_ pos
  refine h.replace_none (ground_takeEntity s pos) (touched_takeEntity s pos).elsewhere ?_ ?_ ?_
  · exact (find?_takeEntity pos).trans (if_pos rfl)
  · exact lentAt?_takeEntity h.chunk.sole pos
  · unfold Chunk.removeListener
    rw [hdispatchers]

theorem evictRemoved (h : s.Attentive cfg out) (pos : BlockPos) :
    (s.evictRemoved pos).Attentive cfg out := by
  unfold Site.evictRemoved
  split
  · exact h
  · next e he =>
    split
    · refine removeTicker ?_ pos
      refine h.replace_none rfl (fun q hq => ⟨?_, rfl⟩) ?_ ?_ rfl
      · exact (Keyed.find?_swapErase ..).trans (if_neg hq)
      · exact (Keyed.find?_swapErase ..).trans (if_pos rfl)
      · -- one that is out has not left from where another is installed
        refine Option.not_isSome_iff_eq_none.1 fun hout => ?_
        rw [(h.chunk.away pos hout).1] at he
        cases he
    · exact h

variable (hsteady : ∀ e, cfg.SteadyListener e)
include hsteady

theorem addEntity (h : s.Attentive cfg out) (e : BlockEntity α) :
    (s.addEntity cfg e).Attentive cfg out := by
  rw [addEntity_of_loaded h.chunk.loaded]
  refine updateTicker ?_ e.pos
  -- the entity is installed where none is out from
  have htouched : s.Touched (· = e.pos) ((s.discardLent e.pos).withEntity e) :=
    (touched_discardLent s e.pos).trans (touched_withEntity _ e)
  have hfound : ((s.discardLent e.pos).withEntity e).chunk.entities.find? e.pos =
      some ((s.discardLent e.pos).installed e) := (Keyed.find?_insert ..).trans (if_pos rfl)
  have hlive : ((s.discardLent e.pos).withEntity e).chunk.entityAt? e.pos =
      some ((s.discardLent e.pos).installed e) := Chunk.entityAt?_eq_some_iff.2 ⟨hfound, rfl⟩
  have hlent : ((s.discardLent e.pos).withEntity e).chunk.lentAt? e.pos = none :=
    lentAt?_discardLent s e.pos
  have hground : ((s.discardLent e.pos).withEntity e).ground = s.ground :=
    ground_modifyLent s e.pos _
  have hdispatchers : ((s.discardLent e.pos).withEntity e).chunk.dispatchers =
      s.chunk.dispatchers := by
    show (s.chunk.modifyLent e.pos _).dispatchers = s.chunk.dispatchers
    unfold Chunk.modifyLent
    split <;> rfl
  generalize hentered : (s.discardLent e.pos).withEntity e = u at *
  have hlistened : s.Touched (· = e.pos) (u.updateListener cfg e.pos) :=
    htouched.trans (touched_updateListener u e.pos)
  have hunmoved : u.Touched (fun _ => False) (u.updateListener cfg e.pos) :=
    touched_updateListener u e.pos
  have hsame := hunmoved.elsewhere e.pos id
  have hsource : ∀ e' l, u.chunk.entityAt? e.pos = some e' → cfg.registry.listener e' = some l →
      l.source = e.pos := by
    intro e' l he' hl
    cases hlive.symm.trans he'
    exact (hsteady ((s.discardLent e.pos).installed e)).source l hl
  have hheld := hold_updateListener ((isClient_eq hground).trans h.server)
    (hdispatchers ▸ h.chunk.heard) hsource
  refine h.replace ((ground_updateListener u e.pos).trans hground) hlistened.elsewhere
    (fun e' he' => ?_) (fun hout => ?_) ?_
  · rw [hsame.1, hfound] at he'
    cases he'
    rfl
  · rw [hsame.2, hlent] at hout
    cases hout
  · rw [hsame.standingAt?_eq, Chunk.standingAt?_of_live hlive, ← hlive]
    exact hheld

omit hsteady in
theorem tellLent (h : s.Attentive cfg out) (pos : BlockPos) (state : BlockState) :
    (s.tellLent cfg pos state).Attentive cfg out := by
  refine updateTicker ?_ pos
  have htouched := touched_modifyLent s pos (f := fun lent => { lent with cachedState := state })
    fun _ => rfl
  have hlent : (s.chunk.modifyLent pos fun lent => { lent with cachedState := state }).lentAt? pos =
      (s.chunk.lentAt? pos).map fun lent => { lent with cachedState := state } := by
    unfold Chunk.modifyLent
    cases hat : s.chunk.lentAt? pos with
    | none => exact hat
    | some lent =>
      obtain ⟨-, hpos, hlive⟩ := Chunk.lentAt?_eq_some_iff.1 hat
      exact Chunk.lentAt?_eq_some_iff.2 ⟨rfl, hpos, hlive⟩
  have hentities : (s.chunk.modifyLent pos fun lent =>
      { lent with cachedState := state }).entities = s.chunk.entities := by
    unfold Chunk.modifyLent
    split <;> rfl
  refine h.replace_same (ground_modifyLent s pos _) htouched.elsewhere (fun e he => ?_)
    (fun hout => ?_) ?_ ?_
  · rw [hentities] at he
    exact h.chunk.seated pos e he
  · rw [hlent, Option.isSome_map] at hout
    rw [hentities]
    exact ⟨hout, (h.chunk.away pos hout).1⟩
  · unfold Chunk.modifyLent
    split <;> rfl
  · unfold Chunk.standingAt? Chunk.entityAt?
    rw [hlent, hentities]
    cases s.chunk.lentAt? pos <;> rfl

omit hsteady in
/-- What is done to the entity that is installed at a position leaves its listener alone. -/
theorem modifyEntity (h : s.Attentive cfg out) (pos : BlockPos)
    {f : BlockEntity α → BlockEntity α}
    (hf : ∀ e, (f e).pos = e.pos ∧ (f e).removed = e.removed ∧
      cfg.registry.listener (f e) = cfg.registry.listener e) :
    Attentive cfg out { s with chunk := s.chunk.modifyEntity pos f } := by
  have hfound : (s.chunk.modifyEntity pos f).entities.find? pos =
      (s.chunk.entities.find? pos).map f := (Keyed.find?_modify ..).trans (if_pos rfl)
  have hat : (s.chunk.modifyEntity pos f).entityAt? pos = (s.chunk.entityAt? pos).map f := by
    unfold Chunk.entityAt?
    rw [hfound]
    cases s.chunk.entities.find? pos with
    | none => rfl
    | some e =>
      rw [Option.map_some, Option.filter_some, Option.filter_some, (hf e).2.1]
      split <;> rfl
  refine h.replace_same rfl (touched_modifyEntity s pos f).elsewhere (fun e he => ?_)
    (fun hout => ?_) rfl ?_
  · obtain ⟨e', he', rfl⟩ := Option.map_eq_some_iff.1 (hfound.symm.trans he)
    rw [(hf e').1]
    exact h.chunk.seated pos e' he'
  · refine ⟨hout, hfound.trans ?_⟩
    rw [(h.chunk.away pos hout).1]
    rfl
  · show ((s.chunk.modifyEntity pos f).standingAt? out pos).bind cfg.registry.listener = _
    unfold Chunk.standingAt?
    rw [hat]
    cases s.chunk.entityAt? pos with
    | none => rfl
    | some e => exact (hf e).2.2

theorem tell (h : s.Attentive cfg out) (pos : BlockPos) (state : BlockState) :
    (s.tell cfg pos state).Attentive cfg out := by
  have htold := h.modifyEntity pos (f := fun e => { e with cachedState := state }) fun e =>
    ⟨rfl, rfl, (hsteady e).steady state e.removed e.hasWorld e.serial⟩
  exact htold.updateTicker pos

end Attentive

/-- **Steps keep listeners in order.** -/
theorem EntityStep.attentive (hsteady : ∀ e, cfg.SteadyListener e) (hstep : EntityStep cfg P Q s t)
    (h : s.Attentive cfg out) : t.Attentive cfg out := by
  cases hstep with
  | aside pending notices _ =>
    exact ⟨h.server, h.chunk.loaded, h.chunk.onLoad, h.chunk.seated, h.chunk.away, h.chunk.heard⟩
  | add e _ => exact h.addEntity hsteady e
  | remove pos _ => exact h.removeEntity pos
  | evict pos _ => exact h.evictRemoved pos
  | tellLent pos state _ => exact h.tellLent pos state
  | tell pos state _ => exact h.tell hsteady pos state

theorem EntitySteps.attentive (hsteady : ∀ e, cfg.SteadyListener e)
    (hsteps : EntitySteps cfg P Q s t) (h : s.Attentive cfg out) : t.Attentive cfg out := by
  induction hsteps with
  | refl => exact h
  | tail _ hstep ih => exact hstep.attentive hsteady ih

namespace Attentive

/-! ### Operations -/

variable (hsteady : ∀ e, cfg.SteadyListener e)
include hsteady

theorem getEntity (h : s.Attentive cfg out) (pos : BlockPos) (mode : CreationMode) :
    (s.getEntity cfg pos mode).2.Attentive cfg out :=
  (steps_getEntity cfg.makesOnly_true.makes s trivial mode).attentive hsteady h

variable (hdefault : cfg.DefaultReactions)
include hdefault

theorem setBlock (h : s.Attentive cfg out) (pos : BlockPos) (state : BlockState)
    (flags : SetFlags) : (s.setBlock cfg pos state flags).2.Attentive cfg out := by
  have hwritten := written_setBlock hdefault s pos state flags
  generalize s.setBlock cfg pos state flags = written at hwritten ⊢
  cases hwritten with
  | kept hsame => exact h.of_belongings hsame
  | lost hsame => exact (h.of_belongings hsame).removeEntity pos
  | @changed t r u old hsame hr hu =>
    have hleft : r.Attentive cfg out := by
      rw [hr]
      split
      · exact (h.of_belongings hsame).removeEntity pos
      · exact h.of_belongings hsame
    have hattached : (r.attachEntity cfg pos state).Attentive cfg out :=
      (steps_attachEntity cfg.makesOnly_true.makes r trivial state).attentive hsteady hleft
    exact hattached.of_belongings hu

theorem settleAll (h : s.Attentive cfg out) (view : BlockPos → Except Fault BlockState) :
    (s.settleAll cfg view).Attentive cfg out :=
  settleAll_keeps (I := Attentive cfg out) (fun h hsame => h.of_belongings hsame)
    (fun flags h _ => h.setBlock hsteady hdefault _ _ flags)
    (fun pos h => h.getEntity hsteady pos .check)
    (fun h => ⟨h.server, h.chunk.loaded, h.chunk.onLoad, h.chunk.seated, h.chunk.away, h.chunk.heard⟩)
    view h (settlesWhere_true cfg view s)

end Attentive

end Site

/-! ### Entities are lent and come back -/

namespace Chunk

variable {cfg : Config α τ} {out : Option (BlockEntity α)} {c : Chunk α} {pos : BlockPos}
  {e e' : BlockEntity α}

/-- If none is out to be ticked, then no entity is out of the chunk. -/
theorem Attentive.lentAt?_eq_none (h : c.Attentive cfg none) (pos : BlockPos) :
    c.lentAt? pos = none := by
  refine Option.not_isSome_iff_eq_none.1 fun hout => ?_
  obtain ⟨-, e, he, -⟩ := h.away pos hout
  cases he

/-- While an entity is out to be ticked, it goes on listening. -/
theorem Attentive.lending (h : c.Attentive cfg none) (he : c.entityAt? pos = some e) :
    (c.lending pos e).Attentive cfg (some e) := by
  obtain ⟨hfound, hlive⟩ := entityAt?_eq_some_iff.1 he
  have hnone := h.lentAt?_eq_none
  have hentities : ∀ q, (c.lending pos e).entities.find? q =
      if q = pos then none else c.entities.find? q := Keyed.find?_swapErase _ _
  have hlent := lentAt?_of_some
    (show (c.lending pos e).lent = some ⟨pos, e.serial, e.type, e.cachedState, false⟩ from rfl)
  have hleft : ∀ q, (c.lending pos e).entityAt? q = if q = pos then none else c.entityAt? q := by
    intro q
    unfold entityAt?
    rw [hentities]
    split <;> rfl
  have hstanding : ∀ q, (c.lending pos e).standingAt? (some e) q = c.standingAt? none q := by
    intro q
    unfold standingAt?
    rw [hleft, hlent, hnone]
    by_cases hq : q = pos
    · rw [if_pos hq, if_pos ⟨hq.symm, rfl⟩, hq, he]
      rfl
    · rw [if_neg hq, if_neg (fun heq => hq heq.1.symm)]
      rfl
  refine ⟨h.loaded, h.onLoad, fun q e' he' => ?_, fun q hq => ?_, ?_⟩
  · rw [hentities] at he'
    split at he'
    · cases he'
    · exact h.seated q e' he'
  · rw [hlent] at hq
    split at hq
    · next heq =>
      obtain rfl : pos = q := heq.1
      exact ⟨(hentities pos).trans (if_pos rfl), e, rfl, h.seated pos e hfound, hlive⟩
    · cases hq
  · have hheard := h.heard
    simp only [← hstanding] at hheard
    exact hheard

/-- Where no entity is out of the chunk, it does not matter which one might be. -/
theorem Attentive.of_home (h : c.Attentive cfg none) : c.Attentive cfg out := by
  have hnone := h.lentAt?_eq_none
  have hstanding : ∀ q, c.standingAt? out q = c.standingAt? none q := by
    intro q
    unfold standingAt?
    rw [hnone]
    rfl
  refine ⟨h.loaded, h.onLoad, h.seated, fun q hq => ?_, ?_⟩
  · rw [hnone] at hq
    cases hq
  · simp only [hstanding]
    exact h.heard

/-- When no entity is out of the chunk, and what is installed listens as what stood there before. -/
theorem Attentive.restore (h : c.Attentive cfg out) {c' : Chunk α} (hloaded : c'.loaded = c.loaded)
    (honLoad : c'.onLoad = c.onLoad) (hdispatchers : c'.dispatchers = c.dispatchers)
    (hout : ∀ q, c'.lentAt? q = none) (hseated : ∀ q e, c'.entities.find? q = some e → e.pos = q)
    (hsame : ∀ q, (c'.entityAt? q).bind cfg.registry.listener =
      (c.standingAt? out q).bind cfg.registry.listener) : c'.Attentive cfg none := by
  have hstanding : ∀ q, c'.standingAt? none q = c'.entityAt? q := by
    intro q
    unfold standingAt?
    rw [hout, Option.bind_none, Option.or_none]
  refine ⟨hloaded.trans h.loaded, honLoad.trans h.onLoad, hseated, fun q hq => ?_, ?_⟩
  · rw [hout] at hq
    cases hq
  · simp only [hstanding, hsame]
    rw [hdispatchers]
    exact h.heard

/-- What stands in a chunk of which no entity is out is what is installed. -/
theorem standingAt?_of_home (hout : c.lentAt? pos = none) :
    c.standingAt? out pos = c.entityAt? pos := by
  unfold standingAt?
  rw [hout, Option.bind_none, Option.or_none]

/-- An entity that has been removed or replaced meanwhile does not stand where it was. -/
theorem Sole.lentAt?_of_given_up (h : c.Sole) {lent : LentEntity} (hlent : c.lent = some lent)
    (hgiven : (lent.removed || c.entities.contains lent.pos) = true) (q : BlockPos) :
    c.lentAt? q = none := by
  refine Option.not_isSome_iff_eq_none.1 fun hq => ?_
  have hnone := h q hq
  rw [lentAt?_of_some hlent] at hq
  split at hq
  · next heq =>
    obtain ⟨rfl, hlive⟩ := heq
    rw [hlive, Bool.false_or, Keyed.contains, hnone] at hgiven
    cases hgiven
  · cases hq

/-- An entity that comes back listens as it did before. -/
theorem Attentive.returnEntity (hsteady : ∀ e, cfg.SteadyListener e)
    (h : c.Attentive cfg (some e)) (he : cfg.Keeps e' e) :
    (c.returnEntity e').Attentive cfg none := by
  unfold Chunk.returnEntity
  cases hlent : c.lent with
  | none =>
    have hout := lentAt?_of_none hlent
    refine h.restore rfl rfl rfl hout h.seated fun q => ?_
    rw [standingAt?_of_home (hout q)]
  | some lent =>
    simp only
    split
    · next hgiven =>
      have hout := h.sole.lentAt?_of_given_up hlent hgiven
      refine h.restore rfl rfl rfl (lentAt?_of_none rfl) h.seated fun q => ?_
      rw [standingAt?_of_home (hout q)]
      rfl
    · next hback =>
      rw [Bool.or_eq_true, not_or, Bool.not_eq_true] at hback
      have hat := lentAt?_of_some hlent
      have hwas : c.lentAt? lent.pos = some lent := (hat lent.pos).trans (if_pos ⟨rfl, hback.1⟩)
      obtain ⟨habsent, e₀, heq, hpos, hstays⟩ := h.away lent.pos (hwas ▸ rfl)
      cases heq
      generalize hcome : ({ e' with cachedState := lent.cachedState } : BlockEntity α) = back
      have hlive : back.removed = false := by
        rw [← hcome]
        exact he.continues.removed.trans hstays
      have hlistener : cfg.registry.listener back = cfg.registry.listener e := by
        rw [← hcome, ← he.listener]
        exact (hsteady e').steady lent.cachedState e'.removed e'.hasWorld e'.serial
      have hfound : ∀ q, (c.entities.insert lent.pos back).find? q =
          if q = lent.pos then some back else c.entities.find? q := Keyed.find?_insert _ _ _
      refine h.restore rfl rfl rfl (lentAt?_of_none rfl) (fun q other hq => ?_) fun q => ?_
      · have hq : (c.entities.insert lent.pos back).find? q = some other := hq
        rw [hfound] at hq
        split at hq
        · next heq =>
          cases hq
          rw [heq, ← hcome]
          exact he.continues.pos.trans hpos
        · exact h.seated q other hq
      · unfold standingAt? entityAt?
        simp only [hfound, hat]
        by_cases hq : q = lent.pos
        · rw [if_pos hq, if_pos ⟨hq.symm, hback.1⟩, hq, habsent, Option.filter_some, hlive]
          exact hlistener
        · rw [if_neg hq, if_neg (fun heq => hq heq.1.symm), Option.bind_none, Option.or_none]

end Chunk

/-! ### Chunks come and go -/

namespace Site

variable {cfg : Config α τ} {out : Option (BlockEntity α)} {s t : Site α τ}
  {wanted : BlockPos → Option Listener}

theorem hold_foldl_removeListener {c : Chunk α} (h : c.dispatchers.Hold wanted)
    (positions : List BlockPos) :
    (positions.foldl Chunk.removeListener c).dispatchers.Hold fun q =>
      if q ∈ positions then none else wanted q := by
  induction positions generalizing c wanted with
  | nil => simpa using h
  | cons pos positions ih =>
    have hrest : (c.removeListener pos).dispatchers.Hold fun q => if q = pos then none else wanted q :=
      h.removeListener pos
    have hsame : (fun q => if q ∈ positions then none else if q = pos then none else wanted q) =
        fun q => if q ∈ pos :: positions then none else wanted q := by
      funext q
      by_cases hq : q = pos <;> simp [hq]
    rw [← hsame]
    exact ih hrest

/-- A chunk without listeners holds none. -/
theorem hold_of_unheard {c : Chunk α} (h : c.Unheard) : c.dispatchers.Hold fun _ => none where
  source := nofun
  has := fun sectionY l => iff_of_false (h.listeners sectionY l) nofun
  apart := by
    intro sectionY d hd
    have hnil : d.listeners = [] :=
      List.eq_nil_iff_forall_not_mem.2 fun l hl => h.listeners sectionY l ⟨d, hd, hl⟩
    rw [hnil]
    exact List.nodup_nil

/-- The listeners of positions are made anew, one after another. -/
theorem hold_foldl_updateListener (hsteady : ∀ e, cfg.SteadyListener e)
    (hserver : s.level.isClient = false) (h : s.chunk.dispatchers.Hold wanted)
    (hseated : ∀ pos e, s.chunk.entities.find? pos = some e → e.pos = pos)
    (positions : List BlockPos) :
    (positions.foldl (fun s pos => (s.updateListener cfg pos).updateTicker cfg pos)
        s).chunk.dispatchers.Hold fun q =>
      if q ∈ positions then (s.chunk.entityAt? q).bind cfg.registry.listener else wanted q := by
  induction positions generalizing s wanted with
  | nil => simpa using h
  | cons pos positions ih =>
    have hsource : ∀ e l, s.chunk.entityAt? pos = some e → cfg.registry.listener e = some l →
        l.source = pos := by
      intro e l he hl
      exact ((hsteady e).source l hl).trans (hseated pos e (Chunk.entityAt?_eq_some_iff.1 he).1)
    have hfirst := hold_updateListener hserver h hsource
    have hentities : ((s.updateListener cfg pos).updateTicker cfg pos).chunk.entities =
        s.chunk.entities := by
      rw [entities_updateTicker, entities_updateListener]
    have hat : ∀ q, ((s.updateListener cfg pos).updateTicker cfg pos).chunk.entityAt? q =
        s.chunk.entityAt? q := by
      intro q
      unfold Chunk.entityAt?
      rw [hentities]
    have hdispatchers : ((s.updateListener cfg pos).updateTicker cfg pos).chunk.dispatchers =
        (s.updateListener cfg pos).chunk.dispatchers := by
      obtain ⟨names, tickers, heq⟩ := updateTicker_eq (s.updateListener cfg pos) cfg pos
      rw [heq]
    have hserver' : ((s.updateListener cfg pos).updateTicker cfg pos).level.isClient = false :=
      (isClient_eq ((ground_updateTicker _ pos).trans (ground_updateListener s pos))).trans hserver
    have hrest := ih hserver' (hdispatchers ▸ hfirst) (hentities ▸ hseated)
    simp only [hat] at hrest
    have hsame : (fun q => if q ∈ positions then (s.chunk.entityAt? q).bind cfg.registry.listener
        else if q = pos then (s.chunk.entityAt? pos).bind cfg.registry.listener else wanted q) =
        fun q => if q ∈ pos :: positions then (s.chunk.entityAt? q).bind cfg.registry.listener
          else wanted q := by
      funext q
      by_cases hq : q = pos
      · subst hq
        simp
      · simp [hq]
    rw [← hsame]
    exact hrest

/-- **A chunk that comes into its world gets the listeners of its entities.** -/
theorem attentive_updateEntities (hsteady : ∀ e, cfg.SteadyListener e)
    (hserver : s.level.isClient = false) (hloaded : s.chunk.loaded) (honLoad : s.chunk.onLoad = none)
    (h : s.chunk.Unheard) : (s.updateEntities cfg).Attentive cfg none := by
  have hheld := hold_foldl_updateListener hsteady hserver (hold_of_unheard h) h.seated
    ((s.chunk.entities.entries.filter fun e => !e.2.removed).map Prod.fst)
  have hheld : (s.updateEntities cfg).chunk.dispatchers.Hold _ := hheld
  obtain ⟨dispatchers, names, tickers, heq⟩ := updateEntities_eq s cfg
  rw [heq] at hheld ⊢
  have hout : ∀ q, s.chunk.lentAt? q = none := by
    intro q
    refine Option.eq_none_iff_forall_ne_some.2 fun lent hlent => ?_
    obtain ⟨hlent, -, hlive⟩ := Chunk.lentAt?_eq_some_iff.1 hlent
    rw [h.lent lent hlent] at hlive
    cases hlive
  refine ⟨hserver, hloaded, honLoad, h.seated, fun q hq => ?_, ?_⟩
  · have hq : (s.chunk.lentAt? q).isSome := hq
    rw [hout] at hq
    cases hq
  · have hsame : (fun q => if q ∈ (s.chunk.entities.entries.filter fun e => !e.2.removed).map Prod.fst
        then (s.chunk.entityAt? q).bind cfg.registry.listener else none) =
        fun q => (s.chunk.standingAt? none q).bind cfg.registry.listener := by
      funext q
      rw [Chunk.standingAt?_of_home (hout q)]
      split
      · rfl
      · next hmem =>
        -- an entity that is not passed over has been removed
        cases he : s.chunk.entityAt? q with
        | none => rfl
        | some e =>
          obtain ⟨hfound, hlive⟩ := Chunk.entityAt?_eq_some_iff.1 he
          refine absurd (List.mem_map.2 ⟨(q, e), List.mem_filter.2 ⟨?_, by simp [hlive]⟩, rfl⟩) hmem
          exact Keyed.find?_eq_some_iff.1 hfound
    rw [hsame] at hheld
    exact hheld

/-- **A chunk that leaves its world is left without listeners**, so it may come into one again. -/
theorem Attentive.unheard (h : s.Attentive cfg out) : s.discardEntities.chunk.Unheard := by
  have hheld := hold_foldl_removeListener (c := { s.chunk with
    entities := s.chunk.entities.mapValues fun _ e => e.discard
    lent := s.chunk.lent.map fun lent => { lent with removed := true } }) h.chunk.heard
      (s.chunk.entities.keys ++ (s.chunk.lent.map LentEntity.pos).toList)
  refine ⟨fun sectionY l hl => ?_, fun pos e he => ?_, fun lent hl => ?_⟩
  · obtain ⟨-, hwanted⟩ := (hheld.has sectionY l).1 hl
    split at hwanted
    · cases hwanted
    · next hmem =>
      -- nothing stands at a position that has been passed over
      rw [List.mem_append, not_or] at hmem
      obtain ⟨e, hstands, -⟩ := Option.bind_eq_some_iff.1 hwanted
      rcases Option.or_eq_some_iff.1 hstands with he | ⟨-, hout⟩
      · refine hmem.1 (Keyed.contains_iff.1 ?_)
        unfold Keyed.contains
        rw [(Chunk.entityAt?_eq_some_iff.1 he).1]
        rfl
      · obtain ⟨lent, hlent, -⟩ := Option.bind_eq_some_iff.1 hout
        obtain ⟨hlent, hpos, -⟩ := Chunk.lentAt?_eq_some_iff.1 hlent
        refine hmem.2 ?_
        rw [hlent]
        simp [hpos]
  · obtain ⟨dispatchers, heq⟩ := discardEntities_eq s
    rw [heq] at he
    have he : (s.chunk.entities.mapValues fun _ e => e.discard).find? pos = some e := he
    rw [Keyed.find?_mapValues] at he
    obtain ⟨e', he', rfl⟩ := Option.map_eq_some_iff.1 he
    exact h.chunk.seated pos e' he'
  · obtain ⟨dispatchers, heq⟩ := discardEntities_eq s
    rw [heq] at hl
    obtain ⟨before, -, rfl⟩ := Option.map_eq_some_iff.1 hl
    rfl

end Site

/-! ### Who hears an event -/

theorem nodup_span (lo hi : Int) : (span lo hi).Nodup :=
  List.nodup_range.map fun i j heq => by
    have heq : lo + (i : Int) = lo + (j : Int) := heq
    omega

namespace Chunk

variable {cfg : Config α τ} {out : Option (BlockEntity α)} {c : Chunk α} {pos : BlockPos}
  {e : BlockEntity α}

/-- All entities that stand in the chunk, with their positions: those that are installed and not
removed, and the one that is `out` of the chunk to be ticked if it may come back. -/
def standing (out : Option (BlockEntity α)) (c : Chunk α) : List (BlockPos × BlockEntity α) :=
  (c.entities.entries.filter fun e => !e.2.removed) ++
    ((c.lent.filter fun lent => !lent.removed).bind fun lent =>
      out.map fun e => (lent.pos, e)).toList

theorem mem_standing (h : c.Sole) :
    (pos, e) ∈ c.standing out ↔ c.standingAt? out pos = some e := by
  unfold standing standingAt?
  have hinstalled : (pos, e) ∈ c.entities.entries.filter (fun e => !e.2.removed) ↔
      c.entityAt? pos = some e := by
    rw [List.mem_filter, entityAt?_eq_some_iff, Keyed.find?_eq_some_iff]
    simp
  have haway : (pos, e) ∈ ((c.lent.filter fun lent => !lent.removed).bind fun lent =>
      out.map fun e => (lent.pos, e)).toList ↔ (c.lentAt? pos).isSome ∧ out = some e := by
    rw [Option.mem_toList, Option.isSome_iff_exists]
    simp only [Option.bind_eq_some_iff, Option.filter_eq_some_iff, Option.map_eq_some_iff,
      lentAt?_eq_some_iff, Prod.mk.injEq, Bool.not_eq_true']
    constructor
    · rintro ⟨lent, ⟨hlent, hlive⟩, e', hout, hpos, rfl⟩
      exact ⟨⟨lent, hlent, hpos, hlive⟩, hout⟩
    · rintro ⟨⟨lent, hlent, hpos, hlive⟩, hout⟩
      exact ⟨lent, ⟨hlent, hlive⟩, e, hout, hpos, rfl⟩
  rw [List.mem_append, hinstalled, haway, Option.or_eq_some_iff, Option.isSome_iff_exists,
    Option.bind_eq_some_iff]
  refine or_congr_right ⟨?_, ?_⟩
  · rintro ⟨⟨lent, hlent⟩, hout⟩
    -- where an entity has left, none is installed
    have habsent : c.entityAt? pos = none := by
      unfold entityAt?
      rw [h pos (hlent ▸ rfl)]
      rfl
    exact ⟨habsent, lent, hlent, hout⟩
  · rintro ⟨-, lent, hlent, hout⟩
    exact ⟨⟨lent, hlent⟩, hout⟩

theorem nodup_standing (h : c.Sole) : (c.standing out).Nodup := by
  unfold standing
  have hentries : c.entities.entries.Nodup := c.entities.nodup.of_map
  rw [List.nodup_append]
  refine ⟨hentries.filter _, ?_, ?_⟩
  · cases (c.lent.filter fun lent => !lent.removed).bind fun lent =>
      out.map fun e => (lent.pos, e) with
    | none => exact List.nodup_nil
    | some e => exact List.nodup_singleton e
  · rintro ⟨q, e⟩ he _ hout rfl
    rw [Option.mem_toList] at hout
    obtain ⟨lent, hlent, hout⟩ := Option.bind_eq_some_iff.1 hout
    obtain ⟨e', -, heq⟩ := Option.map_eq_some_iff.1 hout
    obtain ⟨hlent, hlive⟩ := Option.filter_eq_some_iff.1 hlent
    have hat : (c.lentAt? lent.pos).isSome := by
      rw [lentAt?_eq_some_iff.2 ⟨hlent, rfl, by simpa using hlive⟩]
      rfl
    have hfound := Keyed.find?_eq_some_iff.2 (List.mem_filter.1 he).1
    have hpos : lent.pos = q := congrArg Prod.fst heq
    rw [← hpos, h lent.pos hat] at hfound
    cases hfound

/-- The listeners to an event at a position that the dispatchers of the sections from one height to
another find. -/
def dispatch (c : Chunk α) (lo hi : Int) (pos : BlockPos) : List Listener :=
  (span lo hi).flatMap fun y =>
    match c.dispatchers.find? y with
    | some d => d.dispatch pos
    | none => []

theorem mem_dispatch {lo hi : Int} {l : Listener} : l ∈ c.dispatch lo hi pos ↔
    ∃ y, (lo ≤ y ∧ y ≤ hi) ∧ c.dispatchers.Has y l ∧ l.accepts pos := by
  unfold dispatch Dispatchers.Has
  simp only [List.mem_flatMap, mem_span]
  refine exists_congr fun y => and_congr_right fun _ => ?_
  cases hd : Keyed.find? c.dispatchers y with
  | none => simp
  | some d => simp [Dispatcher.dispatch]

namespace Attentive

/-- The listener of an entity that stands in the chunk has its source there. -/
theorem source_eq {l : Listener} (h : c.Attentive cfg out) (he : (pos, e) ∈ c.standing out)
    (hl : cfg.registry.listener e = some l) : l.source = pos :=
  h.heard.source pos l (Option.bind_eq_some_iff.2 ⟨e, (mem_standing h.sole).1 he, hl⟩)

/-- No listener is found twice. -/
theorem nodup_dispatch (h : c.Attentive cfg out) (lo hi : Int) (pos : BlockPos) :
    (c.dispatch lo hi pos).Nodup := by
  have hmem : ∀ y l, (l ∈ match c.dispatchers.find? y with
      | some d => d.dispatch pos
      | none => []) → c.dispatchers.Has y l := by
    intro y l hl
    split at hl
    · next d hd => exact ⟨d, hd, (List.mem_filter.1 hl).1⟩
    · cases hl
  refine List.nodup_flatMap.2 ⟨fun y _ => ?_, (nodup_span lo hi).imp fun {y y'} hne l hl hl' => ?_⟩
  · split
    · next d hd => exact (List.Nodup.of_map _ (h.heard.apart y d hd)).filter _
    · exact List.nodup_nil
  · -- a listener stands in the section of its source only
    have hy := ((h.heard.has y l).1 (hmem y l hl)).1
    have hy' := ((h.heard.has y' l).1 (hmem y' l hl')).1
    exact hne (hy.trans hy'.symm)

/-- No two entities that stand in the chunk have the same listener, whichever of them hear. -/
theorem nodup_listeners (h : c.Attentive cfg out)
    {hears : BlockPos × BlockEntity α → Option Listener}
    (hhears : ∀ e l, hears e = some l → cfg.registry.listener e.2 = some l) :
    ((c.standing out).filterMap hears).Nodup := by
  refine List.pairwise_filterMap.2 ((nodup_standing h.sole).imp_of_mem ?_)
  rintro ⟨p, e⟩ ⟨p', e'⟩ he he' hne l hl l' hl' rfl
  -- a listener is that of the one entity that stands at its source
  obtain rfl := h.source_eq he (hhears (p, e) l hl)
  obtain rfl := h.source_eq he' (hhears (p', e') l hl')
  exact hne (congrArg (Prod.mk _) (Option.some.inj
    (((mem_standing h.sole).1 he).symm.trans ((mem_standing h.sole).1 he'))))

/-- **What the dispatchers of some sections find** is what the entities that stand there hear, each
once. -/
theorem perm_dispatch (h : c.Attentive cfg out) (lo hi : Int) (pos : BlockPos) :
    (c.dispatch lo hi pos).Perm ((c.standing out).filterMap fun e =>
      if lo ≤ sectionCoord e.1.y ∧ sectionCoord e.1.y ≤ hi then
        (cfg.registry.listener e.2).filter fun l => l.accepts pos
      else none) := by
  have hheard : ∀ (e : BlockPos × BlockEntity α) l,
      (if lo ≤ sectionCoord e.1.y ∧ sectionCoord e.1.y ≤ hi then
        (cfg.registry.listener e.2).filter fun l => l.accepts pos
      else none) = some l ↔ (lo ≤ sectionCoord e.1.y ∧ sectionCoord e.1.y ≤ hi) ∧
        cfg.registry.listener e.2 = some l ∧ l.accepts pos := by
    intro e l
    split
    · next hin =>
      rw [Option.filter_eq_some_iff]
      exact (and_iff_right hin).symm
    · next hin => exact iff_of_false nofun fun h => hin h.1
  refine (List.perm_ext_iff_of_nodup (h.nodup_dispatch lo hi pos)
    (h.nodup_listeners fun e l hl => ((hheard e l).1 hl).2.1)).2 fun l => ?_
  rw [mem_dispatch, List.mem_filterMap]
  simp only [hheard, h.heard.has]
  constructor
  · rintro ⟨y, hy, ⟨rfl, hwanted⟩, hl⟩
    obtain ⟨e, hstands, hlistener⟩ := Option.bind_eq_some_iff.1 hwanted
    exact ⟨(l.source, e), (mem_standing h.sole).2 hstands, hy, hlistener, hl⟩
  · rintro ⟨⟨p, e⟩, he, hy, hlistener, hl⟩
    obtain rfl := h.source_eq he hlistener
    refine ⟨_, hy, ⟨rfl, Option.bind_eq_some_iff.2 ⟨e, ?_, hlistener⟩⟩, hl⟩
    exact (mem_standing h.sole).1 he

end Attentive

end Chunk

end VoxelChunk
