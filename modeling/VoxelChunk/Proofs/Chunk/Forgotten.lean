import VoxelChunk.Proofs.Chunk.Edits
import VoxelChunk.Proofs.Chunk.Owners

/-!
# Data of block entities that are gone

When a block is replaced by one of another kind, the data of its entity goes with it, as long as
none of it waits as saved data: whatever is done later, all data at the position comes from
entities that have been made by default or were added, and from changes of these. Saved data that
waits at the position stays, and the next entity is loaded from it.

## Main definitions

* `Site.Shrinks` — no entity comes, and none gets other data.
* `Chunk.Clean` — all data at a position is of a given kind, and none is saved.
* `Config.MakesFresh` — entities made for a position start with such data, and others are made
  elsewhere.
* `Site.Turn` — what can become of a chunk, also while entities are out of it to be ticked.

## Main results

* `Site.clean_setBlock`, `Site.clean_getEntity`, `Site.clean_edit` — operations keep data clean.
* `Site.clean_replaced` — a block that is replaced leaves nothing behind.
* `Site.setBlock_forgets` — the data of a block entity does not come back.
-/

namespace VoxelChunk

variable {α τ : Type}

/-- No data is saved for a position, and the data of the entity that is installed there is `good`.
One that is out of the chunk may come back only if `back` holds. -/
structure Chunk.Clean (good : α → Prop) (back : Prop) (pos : BlockPos) (c : Chunk α) : Prop where
  saved : c.pending.find? pos = none
  installed : ∀ e, c.entities.find? pos = some e → good e.data
  lent : (c.lentAt? pos).isSome → back

/-- The entities that blocks at a position get by themselves start with `good` data, and those made
for other positions are made elsewhere. -/
structure Config.MakesFresh (cfg : Config α τ) (good : α → Prop) (pos : BlockPos) : Prop where
  fresh : ∀ state e, cfg.registry.create pos state = some e → good e.data
  elsewhere : cfg.MakesOnly (· ≠ pos)

/-- What a block gets by itself is clean wherever it is made. -/
theorem Config.MakesFresh.created {cfg : Config α τ} {good : α → Prop} {pos q : BlockPos}
    (h : cfg.MakesFresh good pos) {state : BlockState} {e : BlockEntity α}
    (he : cfg.registry.create q state = some e) (hpos : e.pos = pos) : good e.data := by
  by_cases hq : q = pos
  · subst hq
    exact h.fresh state e he
  · exact absurd hpos (h.elsewhere.create q state e hq he)

/-- The operation leaves the data at a position `good`: an entity that is added there has such data,
one that is changed there keeps it, and nothing is saved for it. -/
def SiteEdit.Leaves (good : α → Prop) (pos : BlockPos) : SiteEdit α → Prop
  | .getEntity q _ change => q = pos → ∀ e, good e.data → good (change e).data
  | .addEntity e => e.pos = pos → good e.data
  | .addPending fields => savedPos fields ≠ .ok pos
  | _ => True

namespace Site

variable {cfg : Config α τ} {P Q : BlockPos → Prop} {good : α → Prop} {back : Prop}
  {s t : Site α τ} {pos : BlockPos}

/-! ### No entity comes -/

/-- No entity comes, no data is saved, and what is still installed has the data that it had. -/
structure Shrinks (s t : Site α τ) : Prop where
  touched : s.Retouched (fun _ => True) t
  left : ∀ q e, t.chunk.entities.find? q = some e →
    ∃ e', s.chunk.entities.find? q = some e' ∧ e.data = e'.data

theorem Retouched.saved (h : s.Retouched P t) (hs : s.chunk.pending.find? pos = none) :
    t.chunk.pending.find? pos = none := by
  obtain ⟨u, names, tickers, htouched, rfl⟩ := h
  refine Option.eq_none_iff_forall_ne_some.2 fun fields hf => ?_
  rw [htouched.pending pos fields hf] at hs
  cases hs

/-- No step takes an entity out of the chunk. -/
theorem Retouched.isSome_lentAt? (h : s.Retouched P t) (ht : (t.chunk.lentAt? pos).isSome) :
    (s.chunk.lentAt? pos).isSome := by
  obtain ⟨u, names, tickers, htouched, rfl⟩ := h
  obtain ⟨lent, hlent⟩ := Option.isSome_iff_exists.1 ht
  obtain ⟨hout, hat, hlive⟩ := Chunk.lentAt?_eq_some_iff.1 hlent
  obtain ⟨before, hbefore, hlive', heq⟩ := htouched.lent lent hout hlive
  have hat' : before.pos = pos := (congrArg Prod.fst heq).trans hat
  rw [Chunk.lentAt?_eq_some_iff.2 ⟨hbefore, hat', hlive'⟩]
  rfl

theorem shrinks_of_holdings (h : t.holdings = s.holdings) : s.Shrinks t := by
  have htouched : s.Touched (fun _ => True) t := .of_holdings h
  refine ⟨htouched.retouched, fun q e he => ⟨e, ?_, rfl⟩⟩
  rwa [show t.chunk.entities = s.chunk.entities from congrArg (fun held => held.2.1) h] at he

/-- What is left when the entity at a position may have been taken out. -/
theorem left_of_find? {c : Chunk α} {taken : Keyed BlockPos (BlockEntity α)} {q : BlockPos}
    {e : BlockEntity α} (h : ∀ q, taken.find? q = if q = pos then none else c.entities.find? q)
    (he : taken.find? q = some e) : c.entities.find? q = some e := by
  rw [h] at he
  split at he
  · cases he
  · exact he

theorem shrinks_of_retouched (h : s.Retouched P t)
    (hleft : ∀ q e, t.chunk.entities.find? q = some e →
      ∃ e', s.chunk.entities.find? q = some e' ∧ e.data = e'.data) : s.Shrinks t :=
  ⟨h.mono fun _ _ => trivial, hleft⟩

theorem shrinks_withPending {pending : Keyed BlockPos Compound} {notices : Array Notice}
    (h : ∀ q fields, pending.find? q = some fields → s.chunk.pending.find? q = some fields) :
    s.Shrinks (s.withPending pending notices) :=
  ⟨retouched_withPending h, fun _ e he => ⟨e, he, rfl⟩⟩

theorem shrinks_removeEntity (s : Site α τ) (pos : BlockPos) :
    s.Shrinks (s.removeEntity pos).2 := by
  refine shrinks_of_retouched (retouched_removeEntity s pos) fun q e he => ⟨e, ?_, rfl⟩
  unfold removeEntity at he
  simp only [entities_removeTicker] at he
  split at he
  · exact left_of_find? find?_takeEntity he
  · exact he

theorem shrinks_evictRemoved (s : Site α τ) (pos : BlockPos) : s.Shrinks (s.evictRemoved pos) := by
  refine shrinks_of_retouched (retouched_evictRemoved s pos) fun q e he => ⟨e, ?_, rfl⟩
  unfold evictRemoved at he
  split at he
  · exact he
  · split at he
    · simp only [entities_removeTicker] at he
      exact left_of_find? (Keyed.find?_swapErase _ _) he
    · exact he

theorem shrinks_tellLent (s : Site α τ) (cfg : Config α τ) (pos : BlockPos) (state : BlockState) :
    s.Shrinks (s.tellLent cfg pos state) := by
  refine shrinks_of_retouched (retouched_tellLent s cfg pos state) fun q e he => ⟨e, ?_, rfl⟩
  unfold tellLent at he
  rw [entities_updateTicker] at he
  unfold Chunk.modifyLent at he
  split at he <;> exact he

theorem shrinks_tell (s : Site α τ) (cfg : Config α τ) (pos : BlockPos) (state : BlockState) :
    s.Shrinks (s.tell cfg pos state) := by
  refine shrinks_of_retouched (retouched_tell s cfg pos state) fun q e he => ?_
  unfold tell at he
  rw [entities_updateTicker] at he
  unfold Chunk.modifyEntity at he
  rw [Keyed.find?_modify] at he
  split at he
  · obtain ⟨e', he', rfl⟩ := Option.map_eq_some_iff.1 he
    exact ⟨e', he', rfl⟩
  · exact ⟨e, he, rfl⟩

/-- A step adds an entity, or none comes. -/
theorem EntityStep.add_or_shrinks (h : EntityStep cfg P Q s t) :
    (∃ e, t = s.addEntity cfg e) ∨ s.Shrinks t := by
  cases h with
  | aside pending notices hshrink => exact Or.inr (shrinks_withPending hshrink)
  | add e _ => exact Or.inl ⟨e, rfl⟩
  | remove pos _ => exact Or.inr (shrinks_removeEntity s pos)
  | evict pos _ => exact Or.inr (shrinks_evictRemoved s pos)
  | tellLent pos state _ => exact Or.inr (shrinks_tellLent s cfg pos state)
  | tell pos state _ => exact Or.inr (shrinks_tell s cfg pos state)

/-! ### An entity that is out is not installed -/

theorem sole_of_shrinks (h : s.Shrinks t) (hs : s.chunk.Sole) : t.chunk.Sole := by
  intro q hq
  refine Option.eq_none_iff_forall_ne_some.2 fun e he => ?_
  obtain ⟨e', he', -⟩ := h.left q e he
  rw [hs q (h.touched.isSome_lentAt? hq)] at he'
  cases he'

theorem sole_addEntity (hs : s.chunk.Sole) (e : BlockEntity α) :
    (s.addEntity cfg e).chunk.Sole := by
  intro q hq
  have hout : ((s.discardLent e.pos).chunk.lentAt? q).isSome :=
    (retouched_addEntity s cfg e).isSome_lentAt? hq
  have hne : q ≠ e.pos := by
    rintro rfl
    rw [lentAt?_discardLent] at hout
    cases hout
  have hbefore : (s.chunk.lentAt? q).isSome :=
    (touched_discardLent s e.pos).retouched.isSome_lentAt? hout
  rw [find?_addEntity, if_neg hne]
  exact hs q hbefore

theorem EntitySteps.sole (h : EntitySteps cfg P Q s t) (hs : s.chunk.Sole) : t.chunk.Sole := by
  induction h with
  | refl => exact hs
  | tail _ hstep ih =>
    rcases hstep.add_or_shrinks with ⟨e, rfl⟩ | hshrinks
    · exact sole_addEntity ih e
    · exact sole_of_shrinks hshrinks ih

/-- When an entity is removed, none is out of the chunk from its position any more. -/
theorem not_lentAt?_removeEntity (hs : s.chunk.Sole) (htick : s.canTick) :
    ¬((s.removeEntity pos).2.chunk.lentAt? pos).isSome := by
  intro hlent
  have htaken : (s.takeEntity pos).2.Retouched (· = pos) (s.removeEntity pos).2 := by
    unfold removeEntity
    rw [if_pos htick]
    exact (touched_removeListener _ pos).removeTicker pos
  have hout := htaken.isSome_lentAt? hlent
  rw [lentAt?_takeEntity hs pos] at hout
  cases hout

theorem sole_getEntity (hs : s.chunk.Sole) (q : BlockPos) (mode : CreationMode) :
    (s.getEntity cfg q mode).2.chunk.Sole :=
  (steps_getEntity cfg.makesOnly_true.makes s trivial mode).sole hs

section Default

variable (hdefault : cfg.DefaultReactions)
include hdefault

theorem sole_setBlock (hs : s.chunk.Sole) (q : BlockPos) (state : BlockState) (flags : SetFlags) :
    (s.setBlock cfg q state flags).2.chunk.Sole := by
  have hwritten := written_setBlock hdefault s q state flags
  generalize s.setBlock cfg q state flags = out at hwritten ⊢
  have hstored : ∀ {t : Site α τ}, t.belongings = s.belongings → t.chunk.Sole := fun hsame =>
    sole_of_shrinks (shrinks_of_holdings (holdings_eq hsame)) hs
  cases hwritten with
  | kept hsame => exact hstored hsame
  | lost hsame => exact sole_of_shrinks (shrinks_removeEntity _ q) (hstored hsame)
  | @changed t r u old hsame hr hu =>
    have hleft : r.chunk.Sole := by
      rw [hr]
      split
      · exact sole_of_shrinks (shrinks_removeEntity _ q) (hstored hsame)
      · exact hstored hsame
    have hattached : (r.attachEntity cfg q state).chunk.Sole :=
      (steps_attachEntity cfg.makesOnly_true.makes r trivial state).sole hleft
    exact sole_of_shrinks (shrinks_of_holdings (holdings_eq hu)) hattached

/-- **An entity that is out of the chunk is not installed as well**, whatever is done. -/
theorem sole_edit (hs : s.chunk.Sole) (edit : SiteEdit α) : (s.edit cfg edit).chunk.Sole := by
  cases edit with
  | setBlock q state flags => exact sole_setBlock hdefault hs q state flags
  | getEntity q mode change =>
    refine edit_getEntity_keeps (I := fun s => s.chunk.Sole) (sole_getEntity hs q mode)
      fun {t} ht q' hq' => ?_
    show (t.chunk.entities.modify q change).find? q' = none
    rw [Keyed.find?_modify, ht q' hq', Option.map_none, ite_self]
  | addEntity e => exact sole_addEntity hs e
  | removeEntity q => exact sole_of_shrinks (shrinks_removeEntity s q) hs
  | addPending fields =>
    rw [edit_addPending]
    split
    · exact hs
    · exact hs
  | settle view =>
    exact settleAll_keeps (I := fun s => s.chunk.Sole)
      (fun hs hsame => sole_of_shrinks (shrinks_of_holdings (holdings_eq hsame)) hs)
      (fun flags hs _ => sole_setBlock hdefault hs _ _ flags)
      (fun q hs => sole_getEntity hs q .check) (fun hs => hs) view hs (settlesWhere_true cfg view s)

end Default

/-! ### Operations keep data clean -/

theorem clean_of_shrinks (h : s.chunk.Clean good back pos) (ht : s.Shrinks t) :
    t.chunk.Clean good back pos := by
  refine ⟨ht.touched.saved h.saved, fun e he => ?_, fun hlent => h.lent (ht.touched.isSome_lentAt? hlent)⟩
  obtain ⟨e', he', hdata⟩ := ht.left pos e he
  rw [hdata]
  exact h.installed e' he'

theorem clean_addEntity (h : s.chunk.Clean good back pos) (cfg : Config α τ) {e : BlockEntity α}
    (he : e.pos = pos → good e.data) : (s.addEntity cfg e).chunk.Clean good back pos := by
  have htouched := retouched_addEntity s cfg e
  have hdiscarded := (touched_discardLent s e.pos).retouched
  refine ⟨htouched.saved (hdiscarded.saved h.saved), fun e' he' => ?_, fun hlent =>
    h.lent (hdiscarded.isSome_lentAt? (htouched.isSome_lentAt? hlent))⟩
  rw [find?_addEntity] at he'
  split at he'
  · next heq =>
    cases he'
    exact he heq.symm
  · exact h.installed e' he'

section Operations

variable (hfresh : cfg.MakesFresh good pos)
include hfresh

theorem clean_createEntity (h : s.chunk.Clean good back pos) (q : BlockPos) :
    (s.createEntity cfg q).2.chunk.Clean good back pos :=
  createEntity_keeps (I := fun s => s.chunk.Clean good back pos)
    (fun _ _ hshrink h => clean_of_shrinks h (shrinks_withPending hshrink))
    (fun he h => clean_addEntity h cfg (hfresh.created he)) h

/-- Nothing is saved for the position, so an entity that comes there has been made by default. -/
theorem clean_getEntity (h : s.chunk.Clean good back pos) (q : BlockPos) (mode : CreationMode) :
    (s.getEntity cfg q mode).2.chunk.Clean good back pos := by
  by_cases hq : q = pos
  · subst hq
    have hevicted := clean_of_shrinks h (shrinks_evictRemoved s q)
    have hunsaved : (s.evictRemoved q).loadPending cfg q = (false, s.evictRemoved q) := by
      unfold loadPending
      rw [hevicted.saved]
    unfold getEntity
    rw [hunsaved]
    split
    · exact h
    · split
      · exact h
      · simp only [Bool.false_eq_true, if_false]
        split
        · exact clean_createEntity hfresh hevicted q
        · exact hevicted
  · -- whatever is loaded or made, is so elsewhere
    refine getEntity_keeps (I := fun s => s.chunk.Clean good back pos)
      (fun _ _ hshrink h => clean_of_shrinks h (shrinks_withPending hshrink))
      (fun he h => clean_addEntity h cfg fun hpos => ?_)
      (fun h => clean_of_shrinks h (shrinks_evictRemoved _ q)) h mode
    exact absurd hpos (hfresh.elsewhere.makes.made hq he)

theorem clean_updateEntityState (h : s.chunk.Clean good back pos) (q : BlockPos)
    (state : BlockState) : (s.updateEntityState cfg q state).2.chunk.Clean good back pos := by
  have hget := clean_getEntity hfresh h q .check
  unfold updateEntityState
  split
  · exact clean_of_shrinks h (shrinks_tellLent s cfg q state)
  · split
    · next heq => rwa [heq] at hget
    · next heq =>
      rw [heq] at hget
      exact clean_of_shrinks hget (shrinks_tell _ cfg q state)

theorem clean_attachEntity (h : s.chunk.Clean good back pos) (q : BlockPos) (state : BlockState) :
    (s.attachEntity cfg q state).chunk.Clean good back pos := by
  have htold := clean_updateEntityState hfresh h q state
  unfold attachEntity
  split
  · simp only
    split
    · exact htold
    · split
      · next e he => exact clean_addEntity htold cfg (hfresh.created he)
      · exact htold
  · exact h

variable (hdefault : cfg.DefaultReactions)
include hdefault

theorem clean_setBlock (h : s.chunk.Clean good back pos) (q : BlockPos) (state : BlockState)
    (flags : SetFlags) : (s.setBlock cfg q state flags).2.chunk.Clean good back pos := by
  have hwritten := written_setBlock hdefault s q state flags
  generalize s.setBlock cfg q state flags = out at hwritten ⊢
  have hstored : ∀ {t : Site α τ}, t.belongings = s.belongings → t.chunk.Clean good back pos :=
    fun hsame => clean_of_shrinks h (shrinks_of_holdings (holdings_eq hsame))
  cases hwritten with
  | kept hsame => exact hstored hsame
  | lost hsame => exact clean_of_shrinks (hstored hsame) (shrinks_removeEntity _ q)
  | @changed t r u old hsame hr hu =>
    have hleft : r.chunk.Clean good back pos := by
      rw [hr]
      split
      · exact clean_of_shrinks (hstored hsame) (shrinks_removeEntity _ q)
      · exact hstored hsame
    exact clean_of_shrinks (clean_attachEntity hfresh hleft q state)
      (shrinks_of_holdings (holdings_eq hu))

theorem clean_edit (h : s.chunk.Clean good back pos) {edit : SiteEdit α}
    (hedit : edit.Leaves good pos) : (s.edit cfg edit).chunk.Clean good back pos := by
  cases edit with
  | setBlock q state flags => exact clean_setBlock hfresh hdefault h q state flags
  | getEntity q mode change =>
    refine edit_getEntity_keeps (I := fun s => s.chunk.Clean good back pos)
      (clean_getEntity hfresh h q mode) fun {t} ht => ⟨ht.saved, fun e he => ?_, ht.lent⟩
    have he : (t.chunk.entities.modify q change).find? pos = some e := he
    rw [Keyed.find?_modify] at he
    split at he
    · next heq =>
      obtain ⟨e', he', rfl⟩ := Option.map_eq_some_iff.1 he
      exact hedit heq.symm e' (ht.installed e' he')
    · exact ht.installed e he
  | addEntity e => exact clean_addEntity h cfg hedit
  | removeEntity q => exact clean_of_shrinks h (shrinks_removeEntity s q)
  | addPending fields =>
    rw [edit_addPending]
    split
    · next q hq =>
      refine ⟨?_, h.installed, h.lent⟩
      rw [Keyed.find?_insert, if_neg]
      · exact h.saved
      · rintro rfl
        exact hedit hq
    · exact h
  | settle view =>
    exact settleAll_keeps (I := fun s => s.chunk.Clean good back pos)
      (fun h hsame => clean_of_shrinks h (shrinks_of_holdings (holdings_eq hsame)))
      (fun flags h _ => clean_setBlock hfresh hdefault h _ _ flags)
      (fun q h => clean_getEntity hfresh h q .check)
      (fun h => ⟨Keyed.find?_empty, h.installed, h.lent⟩) view h (settlesWhere_true cfg view s)

/-- **A block that is replaced leaves nothing behind**: the entity at its position, installed or out
of the chunk, is gone, and if no data was saved for it, all that is there is new. -/
theorem clean_replaced (hs : s.chunk.Sole) (htick : s.canTick)
    (hsaved : s.chunk.pending.find? pos = none) {state old : BlockState} {flags : SetFlags}
    (hwrite : s.setBlock cfg pos state flags = (some old, t)) (hentity : cfg.facts.hasEntity old)
    (hkind : cfg.facts.blockOf old ≠ cfg.facts.blockOf state) :
    t.chunk.Clean good False pos := by
  have hwritten := written_setBlock hdefault s pos state flags
  rw [hwrite] at hwritten
  cases hwritten with
  | @changed t' r _ _ hsame hr hu =>
    rw [if_pos ⟨hentity, hkind⟩] at hr
    have hshrinks := shrinks_of_holdings (holdings_eq hsame)
    have htick' : t'.canTick := by
      have hplace : t'.holdings.1 = s.holdings.1 := congrArg Prod.fst (holdings_eq hsame)
      unfold holdings at hplace
      simp only [Prod.mk.injEq] at hplace
      unfold canTick
      rw [hplace.2.1, hplace.2.2]
      exact htick
    have hgone : r.chunk.Clean good False pos := by
      rw [hr]
      refine ⟨?_, fun e he => ?_, fun hlent => ?_⟩
      · exact (shrinks_removeEntity t' pos).touched.saved (hshrinks.touched.saved hsaved)
      · rw [find?_removeEntity htick', if_pos rfl] at he
        cases he
      · exact not_lentAt?_removeEntity (sole_of_shrinks hshrinks hs) htick' hlent
    exact clean_of_shrinks (clean_attachEntity hfresh hgone pos state)
      (shrinks_of_holdings (holdings_eq hu))

end Operations

/-! ### What becomes of a chunk -/

/-- What can become of a chunk, and of the entities that are out of it to be ticked, each with the
position that it has left, the latest first. Operations and what tickers make of data may be
restricted. -/
inductive Turn (cfg : Config α τ) (may : SiteEdit α → Prop) (ticks : BlockPos → α → α → Prop) :
    List (BlockPos × BlockEntity α) × Site α τ → List (BlockPos × BlockEntity α) × Site α τ → Prop
  | edit {outs : List (BlockPos × BlockEntity α)} {s : Site α τ} (edit : SiteEdit α) : may edit →
    Turn cfg may ticks (outs, s) (outs, s.edit cfg edit)
  /-- The rest of the world goes on. -/
  | relevel {outs : List (BlockPos × BlockEntity α)} {s : Site α τ} (level : Level τ) :
    Turn cfg may ticks (outs, s) (outs, { s with level })
  | lend {outs : List (BlockPos × BlockEntity α)} {s : Site α τ} {q : BlockPos}
    {e : BlockEntity α} : s.chunk.entityAt? q = some e →
    Turn cfg may ticks (outs, s) ((q, e) :: outs, { s with chunk := s.chunk.lending q e })
  /-- The latest entity comes back from its ticker. -/
  | giveBack {outs : List (BlockPos × BlockEntity α)} {s : Site α τ} {q : BlockPos}
    {e : BlockEntity α} (e' : BlockEntity α) : ticks q e.data e'.data →
    Turn cfg may ticks ((q, e) :: outs, s) (outs, { s with chunk := s.chunk.returnEntity e' })
  /-- The chunk leaves its world. -/
  | leave {outs : List (BlockPos × BlockEntity α)} {s : Site α τ} :
    Turn cfg may ticks (outs, s)
      (outs, { s.discardEntities with chunk := { s.discardEntities.chunk with loaded := false } })
  /-- The chunk comes into its world. -/
  | enter {outs : List (BlockPos × BlockEntity α)} {s : Site α τ} :
    Turn cfg may ticks (outs, s)
      (outs, Site.updateEntities { s with chunk := { s.chunk with loaded := true } } cfg)

/-- What can become of a chunk in the course of time. -/
abbrev Turns (cfg : Config α τ) (may : SiteEdit α → Prop) (ticks : BlockPos → α → α → Prop) :
    List (BlockPos × BlockEntity α) × Site α τ → List (BlockPos × BlockEntity α) × Site α τ → Prop :=
  Relation.ReflTransGen (Turn cfg may ticks)

variable {may : SiteEdit α → Prop} {ticks : BlockPos → α → α → Prop}
  {x y : List (BlockPos × BlockEntity α) × Site α τ}

theorem Turns.edits {outs : List (BlockPos × BlockEntity α)} {es : List (SiteEdit α)}
    (h : ∀ e ∈ es, may e) (s : Site α τ) :
    Turns cfg may ticks (outs, s) (outs, s.edits cfg es) := by
  induction es generalizing s with
  | nil => exact .refl
  | cons e es ih =>
    have hfirst : Turn cfg may ticks (outs, s) (outs, s.edit cfg e) :=
      .edit e (h e List.mem_cons_self)
    exact .head hfirst (ih (fun e' he' => h e' (List.mem_cons_of_mem e he')) (s.edit cfg e))

theorem isSome_lentAt?_lending {c : Chunk α} {q p : BlockPos} {e : BlockEntity α}
    (h : ((c.lending q e).lentAt? p).isSome) : q = p := by
  have hlent : (c.lending q e).lent = some ⟨q, e.serial, e.type, e.cachedState, false⟩ := rfl
  rw [Chunk.lentAt?_of_some hlent] at h
  split at h
  · next heq => exact heq.1
  · cases h

/-- What is installed when an entity comes back. -/
theorem left_returnEntity {c : Chunk α} {e e' : BlockEntity α}
    (h : (c.returnEntity e).entities.find? pos = some e') :
    c.entities.find? pos = some e' ∨ (c.lentAt? pos).isSome ∧ e'.data = e.data := by
  unfold Chunk.returnEntity at h
  cases hlent : c.lent with
  | none =>
    rw [hlent] at h
    exact Or.inl h
  | some lent =>
    rw [hlent] at h
    simp only at h
    split at h
    · exact Or.inl h
    · next hback =>
      rw [Bool.or_eq_true, not_or, Bool.not_eq_true] at hback
      rw [Keyed.find?_insert] at h
      split at h
      · next heq =>
        cases h
        rw [Chunk.lentAt?_of_some hlent, if_pos ⟨heq.symm, hback.1⟩]
        exact Or.inr ⟨rfl, rfl⟩
      · exact Or.inl h

theorem Turn.sole (hdefault : cfg.DefaultReactions) (h : Turn cfg may ticks x y)
    (hx : x.2.chunk.Sole) : y.2.chunk.Sole := by
  cases h with
  | edit edit _ => exact sole_edit hdefault hx edit
  | relevel level => exact hx
  | @lend outs s q e he =>
    intro p hp
    rw [← isSome_lentAt?_lending hp]
    exact (Keyed.find?_swapErase ..).trans (if_pos rfl)
  | giveBack e' _ =>
    intro p hp
    rw [lentAt?_returnEntity] at hp
    cases hp
  | leave =>
    intro p hp
    have hp : ((discardEntities _).chunk.lentAt? p).isSome := hp
    rw [lentAt?_discardEntities] at hp
    cases hp
  | @enter outs s =>
    obtain ⟨dispatchers, names, tickers, heq⟩ :=
      updateEntities_eq { s with chunk := { s.chunk with loaded := true } } cfg
    rw [heq]
    exact hx

/-- If an entity is to come back to the position, its data is `good`. -/
def Returns (good : α → Prop) (pos : BlockPos) (outs : List (BlockPos × BlockEntity α)) : Prop :=
  ∃ e rest, outs = (pos, e) :: rest ∧ good e.data

/-- Whatever becomes of the chunk, data stays clean as long as operations and tickers leave it
clean. -/
theorem Turn.clean (hfresh : cfg.MakesFresh good pos) (hdefault : cfg.DefaultReactions)
    (h : Turn cfg (SiteEdit.Leaves good pos) (fun q d d' => q = pos → good d → good d') x y)
    (hx : x.2.chunk.Clean good (Returns good pos x.1) pos) :
    y.2.chunk.Clean good (Returns good pos y.1) pos := by
  cases h with
  | edit edit hedit => exact clean_edit hfresh hdefault hx hedit
  | relevel level => exact hx
  | @lend outs s q e he =>
    have hfound := (Chunk.entityAt?_eq_some_iff.1 he).1
    refine ⟨hx.saved, fun e' he' => ?_, fun hlent => ?_⟩
    · exact hx.installed e' (left_of_find? (Keyed.find?_swapErase _ _) he')
    · obtain rfl := isSome_lentAt?_lending hlent
      exact ⟨e, outs, rfl, hx.installed e hfound⟩
  | @giveBack outs s q e e' hticks =>
    refine ⟨?_, fun e'' he'' => ?_, fun hlent => ?_⟩
    · exact (congrArg (fun frame => frame.2.2.2.1.find? pos) (returnEntity_frame _ e')).trans hx.saved
    · rcases left_returnEntity he'' with hstayed | ⟨hcomes, hdata⟩
      · exact hx.installed e'' hstayed
      · -- the entity that comes back is the one that has left the position
        obtain ⟨lent, rest, heq, hgood⟩ := hx.lent hcomes
        cases heq
        rw [hdata]
        exact hticks rfl hgood
    · rw [lentAt?_returnEntity] at hlent
      cases hlent
  | @leave outs s =>
    refine ⟨?_, fun e he => ?_, fun hlent => ?_⟩
    · obtain ⟨dispatchers, heq⟩ := discardEntities_eq s
      rw [heq]
      exact hx.saved
    · obtain ⟨dispatchers, heq⟩ := discardEntities_eq s
      rw [heq] at he
      have he : (s.chunk.entities.mapValues fun _ e => e.discard).find? pos = some e := he
      rw [Keyed.find?_mapValues] at he
      obtain ⟨e', he', rfl⟩ := Option.map_eq_some_iff.1 he
      exact hx.installed e' he'
    · have hlent : (s.discardEntities.chunk.lentAt? pos).isSome := hlent
      rw [lentAt?_discardEntities] at hlent
      cases hlent
  | @enter outs s =>
    obtain ⟨dispatchers, names, tickers, heq⟩ :=
      updateEntities_eq { s with chunk := { s.chunk with loaded := true } } cfg
    rw [heq]
    exact ⟨hx.saved, hx.installed, hx.lent⟩

/-- The data at a position afterwards is that of the entity which was there, or what a block gets by
itself. -/
def Renews (cfg : Config α τ) (pos : BlockPos) (s t : Site α τ) : Prop :=
  ∀ e, t.chunk.entities.find? pos = some e →
    (∃ e', s.chunk.entities.find? pos = some e' ∧ e.data = e'.data) ∨
      ∃ state made, cfg.registry.create pos state = some made ∧ e.data = made.data

/-- **The data of a block entity does not come back** once its block has been replaced by one of
another kind: what is saved for the position later is data of an entity that is there then, and this
has come from defaults and additions, and from changes of these. An entity that comes there when a
block is written or an entity is asked for starts with the data that a block gets by itself. This is
so if nothing waits as saved data for the position when the block is replaced; what waits there stays,
and the next entity is loaded from it. -/
theorem setBlock_forgets {good : α → Prop} {pos : BlockPos} (hdefault : cfg.DefaultReactions)
    (hfresh : cfg.MakesFresh good pos) {start s t u : Site α τ}
    {outs outs' : List (BlockPos × BlockEntity α)} (hstart : start.chunk.lent = none)
    (hs : Turns cfg (fun _ => True) (fun _ _ _ => True) ([], start) (outs, s))
    (htick : s.canTick) (hsaved : s.chunk.pending.find? pos = none)
    {state old : BlockState} {flags : SetFlags}
    (hwrite : s.setBlock cfg pos state flags = (some old, t)) (hentity : cfg.facts.hasEntity old)
    (hkind : cfg.facts.blockOf old ≠ cfg.facts.blockOf state)
    (hu : Turns cfg (SiteEdit.Leaves good pos) (fun q d d' => q = pos → good d → good d')
      (outs, t) (outs', u)) :
    (∀ fields, u.chunk.saveEntity cfg.factory pos = some fields → ∃ e,
      u.chunk.entityAt? pos = some e ∧ good e.data ∧
        fields = (cfg.factory.save e).insert "keepPacked" (.byte 0)) ∧
    (∀ q state flags, u.Renews cfg pos (u.setBlock cfg q state flags).2) ∧
    ∀ q mode, u.Renews cfg pos (u.getEntity cfg q mode).2 := by
  have hsole : ∀ {x y}, Turns cfg (fun _ => True) (fun _ _ _ => True) x y → x.2.chunk.Sole →
      y.2.chunk.Sole := by
    intro x y hxy hx
    induction hxy with
    | refl => exact hx
    | tail _ hturn ih => exact hturn.sole hdefault ih
  have hnone : start.chunk.Sole := fun p hp => by
    rw [Chunk.lentAt?_of_none hstart] at hp
    cases hp
  have hreplaced : t.chunk.Clean good False pos :=
    clean_replaced hfresh hdefault (hsole hs hnone) htick hsaved hwrite hentity hkind
  have hclean : ∀ {y}, Turns cfg (SiteEdit.Leaves good pos)
      (fun q d d' => q = pos → good d → good d') (outs, t) y →
      y.2.chunk.Clean good (Returns good pos y.1) pos := by
    intro y hy
    induction hy with
    | refl => exact ⟨hreplaced.saved, hreplaced.installed, fun hlent => (hreplaced.lent hlent).elim⟩
    | tail _ hturn ih => exact hturn.clean hfresh hdefault ih
  have hlater := hclean hu
  -- what is there before, and what blocks get by themselves
  have hknown : u.chunk.Clean (fun d => (∃ e', u.chunk.entities.find? pos = some e' ∧ d = e'.data) ∨
      ∃ state made, cfg.registry.create pos state = some made ∧ d = made.data) True pos :=
    ⟨hlater.saved, fun e he => Or.inl ⟨e, he, rfl⟩, fun _ => trivial⟩
  have hmade : cfg.MakesFresh (fun d => (∃ e', u.chunk.entities.find? pos = some e' ∧ d = e'.data) ∨
      ∃ state made, cfg.registry.create pos state = some made ∧ d = made.data) pos :=
    ⟨fun state e he => Or.inr ⟨state, e, he, rfl⟩, hfresh.elsewhere⟩
  refine ⟨fun fields hfields => ?_, fun q state flags => ?_, fun q mode => ?_⟩
  · unfold Chunk.saveEntity at hfields
    cases he : u.chunk.entityAt? pos with
    | some e =>
      rw [he] at hfields
      exact ⟨e, rfl, hlater.installed e (Chunk.entityAt?_eq_some_iff.1 he).1,
        (Option.some.inj hfields).symm⟩
    | none =>
      rw [he] at hfields
      simp only [hlater.saved] at hfields
      cases hfields
  · exact (clean_setBlock hmade hdefault hknown q state flags).installed
  · exact (clean_getEntity hmade hknown q mode).installed

end Site

/-! ### Chests that count -/

/-- The world of stone with chests instead, each with a number of things in it. -/
def countingChests : Config Nat Unit where
  registry :=
    { toBlockFacts := { stoneWorld.facts with hasEntity := fun s => s != .air }
      create := fun pos s => some { type := ⟨"chest"⟩, pos, cachedState := s, data := 0 }
      instantiate := fun _ pos s => some { type := ⟨"chest"⟩, pos, cachedState := s, data := 0 }
      supports := fun _ _ => true
      readData := fun _ fields => (fields.getInt "Count").map fun count => count.toInt.toNat
      writeData := fun e fields => fields.insert "Count" (.int (Int32.ofNat e.data)) }
  height := default

theorem countingChests_default : countingChests.DefaultReactions :=
  ⟨fun _ _ _ _ => rfl, fun _ _ _ _ => rfl⟩

theorem countingChests_makesFresh (pos : BlockPos) : countingChests.MakesFresh (· = 0) pos where
  fresh := by
    rintro state e ⟨⟩
    rfl
  elsewhere := by
    refine ⟨?_, ?_⟩
    · rintro q state e hq ⟨⟩
      exact hq
    · rintro id q state e hq ⟨⟩
      exact hq

/-- A new chunk of that world. -/
def newCounts : Site Nat Unit :=
  ⟨{ Chunk.new countingChests { pos := ⟨0, 0⟩ } with loaded := true }, { isClient := false }⟩

/-- A chest is put, and filled with seven things. -/
def sevenThings : List (SiteEdit Nat) :=
  [.setBlock ⟨3, 5, 4⟩ ⟨1⟩ {}, .getEntity ⟨3, 5, 4⟩ .immediate fun e => { e with data := 7 }]

/-- The chest with seven things is taken away, and the one that is put there next is empty. -/
theorem chest_forgets :
    let pos : BlockPos := ⟨3, 5, 4⟩
    let s := newCounts.edits countingChests sevenThings
    let t := (s.setBlock countingChests pos .air {}).2
    let u := t.edits countingChests [.setBlock pos ⟨1⟩ {}]
    (s.chunk.entityAt? pos).map (·.data) = some 7 ∧
      (u.chunk.saveEntity countingChests.factory pos).isSome ∧
      (∀ fields, u.chunk.saveEntity countingChests.factory pos = some fields → ∃ e,
        u.chunk.entityAt? pos = some e ∧ e.data = 0 ∧
          fields = (countingChests.factory.save e).insert "keepPacked" (.byte 0)) ∧
      (∀ q state flags, u.Renews countingChests pos (u.setBlock countingChests q state flags).2) ∧
      ∀ q mode, u.Renews countingChests pos (u.getEntity countingChests q mode).2 := by
  intro pos s t u
  have hs : Site.Turns countingChests (fun _ => True) (fun _ _ _ => True) ([], newCounts) ([], s) :=
    Site.Turns.edits (fun _ _ => trivial) newCounts
  have hsaved : s.chunk.pending.find? pos = none := by decide +kernel
  have hreplaced : (s.setBlock countingChests pos .air {}).1 = some ⟨1⟩ := by decide +kernel
  have hwrite : s.setBlock countingChests pos .air {} = (some ⟨1⟩, t) := by rw [← hreplaced]
  have hu : Site.Turns countingChests (SiteEdit.Leaves (· = 0) pos)
      (fun q d d' => q = pos → d = 0 → d' = 0) ([], t) ([], u) :=
    Site.Turns.edits (by simp [SiteEdit.Leaves]) t
  have hforgotten := Site.setBlock_forgets countingChests_default (countingChests_makesFresh pos) rfl
    hs (by decide +kernel) hsaved hwrite (by decide) (by decide) hu
  exact ⟨by decide +kernel, by decide +kernel, hforgotten⟩

/-- **What waits as saved data for a position comes back when its block has been replaced**: the
next chest has the seven things of which the saved data tells. -/
theorem saved_chest_returns :
    let pos : BlockPos := ⟨3, 5, 4⟩
    let saved : Compound := [("Count", .int 7), ("id", .string "chest"), ("x", .int 3),
      ("y", .int 5), ("z", .int 4)]
    let s := newCounts.edits countingChests
      [.setBlock pos ⟨1⟩ {}, .removeEntity pos, .addPending saved]
    let t := (s.setBlock countingChests pos .air {}).2
    let u := (t.setBlock countingChests pos ⟨1⟩ {}).2
    (t.chunk.saveEntity countingChests.factory pos).isSome ∧
      (u.chunk.entityAt? pos).map (·.data) = some 7 := by
  decide +kernel

end VoxelChunk
