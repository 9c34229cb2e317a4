import VoxelChunk.Proofs.Chunk.Steps
import VoxelChunk.Proofs.Chunk.Stored
import VoxelChunk.Proofs.Chunk.Write

/-!
# Events tell what is stored

Those who watch a world learn of the blocks from events. A write adds its event last, after all
that the blocks have done in reaction to it. As long as the block then still has the state that was
written, the last event for a block tells its state, however writes are nested.

## Main definitions

* `lastState?` — what the last event for a block says.
* `Site.Truthful` — no write is announced that has been overwritten in reaction.
* `Site.EventsReplay` — at the end of a run of writes the last events tell what is stored.

## Main results

* `Site.Replays.writeBlock` — one write, with all that it leads to.
* `Site.eventsReplay_setBlocks` — runs of writes.
-/

namespace VoxelChunk

variable {α τ : Type}

/-- The state that an event says a block has. -/
def Event.stateAt? (pos : BlockPos) : Event → Option BlockState
  | .block p _ new _ => if p = pos then some new else none
  | _ => none

/-- The state that the last event for a block says it has. -/
def lastState? (events : List Event) (pos : BlockPos) : Option BlockState :=
  (events.filterMap (Event.stateAt? pos)).getLast?

@[simp] theorem lastState?_nil (pos : BlockPos) : lastState? [] pos = none := rfl

@[simp] theorem lastState?_append (events events' : List Event) (pos : BlockPos) :
    lastState? (events ++ events') pos = (lastState? events' pos).or (lastState? events pos) := by
  rw [lastState?, List.filterMap_append, List.getLast?_append]
  rfl

theorem lastState?_block (pos : BlockPos) (previous new : BlockState) (flags : SetFlags)
    (q : BlockPos) :
    lastState? [.block pos previous new flags] q = if pos = q then some new else none := by
  unfold lastState?
  by_cases h : pos = q <;> simp [Event.stateAt?, h]

/-- The event tells of a block entity. -/
def Event.OfEntity : Event → Prop
  | .entitySet _ => True
  | .entityRemoved _ => True
  | _ => False

theorem Event.OfEntity.stateAt?_eq {event : Event} (h : event.OfEntity) (pos : BlockPos) :
    event.stateAt? pos = none := by
  cases event with
  | entitySet _ => rfl
  | entityRemoved _ => rfl
  | block => cases h
  | sectionStatus => cases h

/-- What is written along the run of a reaction can be followed. -/
instance Reaction.decidableWritesOnly {write : BlockWriter α τ} {cfg : Config α τ}
    {fine : Site α τ → BlockPos → BlockState → Bool → Prop}
    [inst : ∀ s pos state moved, Decidable (fine s pos state moved)] :
    ∀ (r : Reaction α τ) (s : Site α τ), Decidable (r.WritesOnly write cfg fine s)
  | .done, _ => .isTrue trivial
  | .setBlock pos state moved next, s =>
    @instDecidableAnd _ _ (inst s pos state moved)
      (decidableWritesOnly (next (write s pos state moved).1) (write s pos state moved).2)
  | .removeEntity pos next, s =>
    decidableWritesOnly (next (s.removeEntity pos).1) (s.removeEntity pos).2
  | .addEntity entity next, s => decidableWritesOnly next (s.addEntity cfg entity)
  | .look next, s => decidableWritesOnly (next s) s

namespace Site

variable {cfg : Config α τ} {s s' s'' : Site α τ}

/-- The events that have been added, if events are kept. -/
def Adds (s s' : Site α τ) (news : List Event) : Prop :=
  s'.level.events = s.level.events.map (· ++ news.toArray)

theorem Adds.refl (s : Site α τ) : s.Adds s [] := by
  simp [Adds]

theorem Adds.trans {news news' : List Event} (h : s.Adds s' news) (h' : s'.Adds s'' news') :
    s.Adds s'' (news ++ news') := by
  unfold Adds at h h' ⊢
  rw [h', h, Option.map_map]
  congr 1
  funext events
  simp

theorem Adds.of_eq (h : s'.level.events = s.level.events) : s.Adds s' [] := by
  simpa [Adds] using h

theorem adds_push (s : Site α τ) (event : Event) : s.Adds (s.push event) [event] := by
  simp [Adds, push, Level.push]

/-! ### What block entities say -/

/-- Neither blocks nor what events say about them have changed. -/
structure Silent (s s' : Site α τ) : Prop where
  blocks : s'.blocks = s.blocks
  adds : ∃ news, s.Adds s' news ∧ ∀ pos, lastState? news pos = none

theorem Silent.refl (s : Site α τ) : s.Silent s := ⟨rfl, [], .refl s, fun _ => rfl⟩

theorem Silent.trans (h : s.Silent s') (h' : s'.Silent s'') : s.Silent s'' := by
  obtain ⟨news, hadds, hnone⟩ := h.adds
  obtain ⟨news', hadds', hnone'⟩ := h'.adds
  refine ⟨h'.blocks.trans h.blocks, news ++ news', hadds.trans hadds', fun pos => ?_⟩
  rw [lastState?_append, hnone, hnone', Option.or_none]

theorem Silent.stateOf_eq (h : s.Silent s') (pos : BlockPos) :
    s'.stateOf cfg pos = s.stateOf cfg pos := by
  unfold stateOf
  rw [show s'.chunk.sections = s.chunk.sections from congrArg Prod.fst h.blocks]

theorem Silent.of_eq (hblocks : s'.blocks = s.blocks) (hevents : s'.level.events = s.level.events) :
    s.Silent s' :=
  ⟨hblocks, [], .of_eq hevents, fun _ => rfl⟩

@[simp] theorem events_removeTicker (s : Site α τ) (pos : BlockPos) :
    (s.removeTicker pos).level.events = s.level.events := by
  unfold removeTicker
  split <;> rfl

@[simp] theorem events_updateTicker (s : Site α τ) (pos : BlockPos) :
    (s.updateTicker cfg pos).level.events = s.level.events := by
  unfold updateTicker
  split
  · exact events_removeTicker s pos
  · split
    · exact events_removeTicker s pos
    · unfold registerTicker
      simp only
      split <;> rfl

@[simp] theorem events_updateListener (s : Site α τ) (pos : BlockPos) :
    (s.updateListener cfg pos).level.events = s.level.events := by
  unfold updateListener
  split
  · rfl
  · split <;> rfl

/-- All that has been said meanwhile is of block entities. -/
def Utters (s s' : Site α τ) : Prop := ∃ news, s.Adds s' news ∧ ∀ event ∈ news, event.OfEntity

theorem Utters.of_eq (h : s'.level.events = s.level.events) : s.Utters s' :=
  ⟨[], .of_eq h, fun _ hmem => absurd hmem List.not_mem_nil⟩

theorem Utters.trans (h : s.Utters s') (h' : s'.Utters s'') : s.Utters s'' := by
  obtain ⟨news, hadds, hof⟩ := h
  obtain ⟨news', hadds', hof'⟩ := h'
  exact ⟨news ++ news', hadds.trans hadds', fun event hmem =>
    (List.mem_append.1 hmem).elim (hof event) (hof' event)⟩

theorem utters_push (s : Site α τ) (event : Event) (h : event.OfEntity) :
    s.Utters (s.push event) :=
  ⟨[event], adds_push s event, fun _ hmem => (List.mem_singleton.1 hmem).symm ▸ h⟩

theorem utters_addEntity (s : Site α τ) (e : BlockEntity α) : s.Utters (s.addEntity cfg e) := by
  refine (utters_push s (.entitySet e.pos) trivial).trans (.of_eq ?_)
  unfold addEntity
  simp only
  split
  · rw [events_updateTicker, events_updateListener]
    rfl
  · rfl

theorem utters_takeEntity (s : Site α τ) (pos : BlockPos) : s.Utters (s.takeEntity pos).2 := by
  unfold takeEntity
  split
  · exact utters_push s (.entityRemoved pos) trivial
  · split
    · exact utters_push s (.entityRemoved pos) trivial
    · exact .of_eq rfl

theorem utters_removeEntity (s : Site α τ) (pos : BlockPos) :
    s.Utters (s.removeEntity pos).2 := by
  have htaken : s.Utters (if s.canTick then s.takeEntity pos else (false, s)).2 := by
    split
    · exact utters_takeEntity s pos
    · exact .of_eq rfl
  exact htaken.trans (.of_eq (events_removeTicker _ pos))

theorem events_evictRemoved (s : Site α τ) (pos : BlockPos) :
    (s.evictRemoved pos).level.events = s.level.events := by
  unfold evictRemoved
  split
  · rfl
  · split
    · rw [events_removeTicker]
    · rfl

/-- A step of block entities says nothing but of them. -/
theorem EntityStep.utters {P Q : BlockPos → Prop} (h : EntityStep cfg P Q s s') : s.Utters s' := by
  cases h with
  | aside pending notices _ => exact .of_eq rfl
  | add e _ => exact utters_addEntity s e
  | remove pos _ => exact utters_removeEntity s pos
  | evict pos _ => exact .of_eq (events_evictRemoved s pos)
  | tellLent pos state _ => exact .of_eq (events_updateTicker _ pos)
  | tell pos state _ => exact .of_eq (events_updateTicker _ pos)

theorem Silent.of_utters (hground : s'.ground = s.ground) (h : s.Utters s') : s.Silent s' := by
  obtain ⟨news, hadds, hof⟩ := h
  refine ⟨blocks_eq hground, news, hadds, fun pos => ?_⟩
  unfold lastState?
  rw [List.getLast?_eq_none_iff, List.filterMap_eq_nil_iff]
  exact fun event hmem => (hof event hmem).stateAt?_eq pos

theorem silent_addEntity (s : Site α τ) (e : BlockEntity α) : s.Silent (s.addEntity cfg e) :=
  .of_utters (ground_addEntity s e) (utters_addEntity s e)

theorem silent_removeEntity (s : Site α τ) (pos : BlockPos) : s.Silent (s.removeEntity pos).2 :=
  .of_utters (ground_removeEntity s pos) (utters_removeEntity s pos)

/-- Block entities leave the blocks alone and say nothing about them. -/
theorem EntityStep.silent {P Q : BlockPos → Prop} (h : EntityStep cfg P Q s s') : s.Silent s' :=
  .of_utters h.ground h.utters

theorem EntitySteps.silent {P Q : BlockPos → Prop} (h : EntitySteps cfg P Q s s') :
    s.Silent s' := by
  induction h with
  | refl => exact .refl s
  | tail _ hstep ih => exact ih.trans hstep.silent

/-! ### Replaying -/

/-- What is stored now follows from what was stored before and the last of the events that have
been added, which are all of the column. -/
structure Replays (cfg : Config α τ) (column : ChunkPos) (s s' : Site α τ) : Prop where
  sound : cfg.SoundStates s'.chunk.sections
  present : ∀ i : Nat, s.chunk.sections[i]?.join.isSome → s'.chunk.sections[i]?.join.isSome
  adds : ∃ news, s.Adds s' news ∧
    (∀ pos, column.contains pos →
      s'.stateOf cfg pos = (lastState? news pos).getD (s.stateOf cfg pos)) ∧
    ∀ pos, (lastState? news pos).isSome → column.contains pos

namespace Replays

variable {column : ChunkPos}

theorem of_silent (hsound : cfg.SoundStates s.chunk.sections) (h : s.Silent s') :
    Replays cfg column s s' := by
  have hsections : s'.chunk.sections = s.chunk.sections := congrArg Prod.fst h.blocks
  obtain ⟨news, hadds, hnone⟩ := h.adds
  refine ⟨hsections ▸ hsound, fun i hi => hsections ▸ hi, news, hadds, fun pos _ => ?_,
    fun pos hsome => ?_⟩
  · rw [hnone, Option.getD_none, h.stateOf_eq]
  · rw [hnone] at hsome
    cases hsome

theorem refl (hsound : cfg.SoundStates s.chunk.sections) : Replays cfg column s s :=
  of_silent hsound (.refl s)

theorem trans (h : Replays cfg column s s') (h' : Replays cfg column s' s'') :
    Replays cfg column s s'' := by
  obtain ⟨news, hadds, hstate, hcolumn⟩ := h.adds
  obtain ⟨news', hadds', hstate', hcolumn'⟩ := h'.adds
  refine ⟨h'.sound, fun i hi => h'.present i (h.present i hi), news ++ news', hadds.trans hadds',
    fun pos hpos => ?_, fun pos hsome => ?_⟩
  · rw [hstate' pos hpos, hstate pos hpos, lastState?_append]
    cases lastState? news' pos <;> rfl
  · rw [lastState?_append] at hsome
    cases hlast : lastState? news' pos with
    | some state => exact hcolumn' pos (by rw [hlast]; rfl)
    | none =>
      rw [hlast, Option.none_or] at hsome
      exact hcolumn pos hsome

/-- What every write made in reaction satisfies, the reaction does. -/
theorem run {write : BlockWriter α τ} {fine : Site α τ → BlockPos → BlockState → Bool → Prop}
    (hwrite : ∀ s pos state moved, cfg.SoundStates s.chunk.sections → fine s pos state moved →
      Replays cfg column s (write s pos state moved).2)
    (r : Reaction α τ) {s : Site α τ} (hsound : cfg.SoundStates s.chunk.sections)
    (hr : r.WritesOnly write cfg fine s) : Replays cfg column s (r.run write cfg s) := by
  induction r generalizing s with
  | done => exact .refl hsound
  | setBlock pos state moved next ih =>
    have hfirst := hwrite s pos state moved hsound hr.1
    exact hfirst.trans (ih _ hfirst.sound hr.2)
  | removeEntity pos next ih =>
    have hfirst : Replays cfg column s (s.removeEntity pos).2 :=
      .of_silent hsound (silent_removeEntity s pos)
    exact hfirst.trans (ih _ hfirst.sound hr)
  | addEntity entity next ih =>
    have hfirst : Replays cfg column s (s.addEntity cfg entity) :=
      .of_silent hsound (silent_addEntity s entity)
    exact hfirst.trans (ih hfirst.sound hr)
  | look next ih => exact ih s hsound hr

end Replays

/-- The site once a block that has been added has reacted. On a client no block reacts. -/
def reactAdded (s : Site α τ) (write : BlockWriter α τ) (cfg : Config α τ) (pos : BlockPos)
    (state previous : BlockState) (moved : Bool) : Site α τ :=
  if s.level.isClient then s else (cfg.registry.onAdded pos state previous moved).run write cfg s

/-- The write and all writes that are made in reaction to it are of states that fit to blocks of the
column, and when one of them is announced the block has the state that was written. -/
def Truthful (cfg : Config α τ) (column : ChunkPos) :
    Nat → Site α τ → BlockPos → BlockState → SetFlags → Prop
  | 0, _, _, _, _ => True
  | depth + 1, s, pos, state, flags =>
    let fine (s : Site α τ) (pos : BlockPos) (state : BlockState) (moved : Bool) : Prop :=
      Truthful cfg column depth s pos state { moved }
    column.contains pos ∧ state.FitsIn cfg.globalBits ∧
      ∀ index ∈ cfg.height.sectionIndex? pos.y,
        ∀ previous ∈ (s.storeBlock cfg index pos state).1,
          let stored := (s.storeBlock cfg index pos state).2
          let replaced :=
            stored.replaceBlock (nestedWriter cfg depth) cfg pos previous state flags.moved
          (¬stored.level.isClient → (cfg.registry.onReplaced pos previous state
            flags.moved).WritesOnly (nestedWriter cfg depth) cfg fine stored) ∧
          (replaced.storedKind? cfg index pos = some (cfg.facts.blockOf state) →
            (¬replaced.level.isClient → (cfg.registry.onAdded pos state previous
              flags.moved).WritesOnly (nestedWriter cfg depth) cfg fine replaced) ∧
            (replaced.reactAdded (nestedWriter cfg depth) cfg pos state previous
              flags.moved).stateOf cfg pos = state)

instance decidableTruthful (cfg : Config α τ) (column : ChunkPos) :
    ∀ (depth : Nat) (s : Site α τ) (pos : BlockPos) (state : BlockState) (flags : SetFlags),
      Decidable (s.Truthful cfg column depth pos state flags)
  | 0, _, _, _, _ => .isTrue trivial
  | depth + 1, s, pos, state, _ =>
    have : ∀ (s : Site α τ) (pos : BlockPos) (state : BlockState) (moved : Bool),
        Decidable (Truthful cfg column depth s pos state { moved }) :=
      fun s pos state moved => decidableTruthful cfg column depth s pos state { moved }
    inferInstanceAs (Decidable (_ ∧ _ ∧ ∀ index ∈ cfg.height.sectionIndex? pos.y,
      ∀ previous ∈ (s.storeBlock cfg index pos state).1,
        (_ → Reaction.WritesOnly ..) ∧ (_ → (_ → Reaction.WritesOnly ..) ∧ _ = _)))

variable {column : ChunkPos}

theorem adds_storeBlock (s : Site α τ) (cfg : Config α τ) (index : Nat) (pos : BlockPos)
    (state : BlockState) : ∃ news, s.Adds (s.storeBlock cfg index pos state).2 news ∧
      ∀ pos, lastState? news pos = none := by
  have hstoring := storing s cfg index pos state
  generalize s.storeBlock cfg index pos state = out at hstoring ⊢
  cases hstoring with
  | skipped => exact ⟨[], .refl s, fun _ => rfl⟩
  | failed => exact ⟨[], .of_eq rfl, fun _ => rfl⟩
  | same => exact ⟨[], .of_eq rfl, fun _ => rfl⟩
  | changed previous events notices _ _ hevents =>
    rw [hevents]
    split
    · exact ⟨[], .of_eq rfl, fun _ => rfl⟩
    · exact ⟨[_], adds_push s _, fun _ => rfl⟩

section Write

variable {s stored t : Site α τ} {pos : BlockPos} {state previous : BlockState} {index : Nat}
  {news : List Event}

/-- Storing a state changes one block of the column. -/
theorem StoresState.stateOf_eq
    (hstored : StoresState cfg s index pos state (some previous, stored))
    (hpos : column.contains pos = true) {q : BlockPos} (hq : column.contains q = true) :
    stored.stateOf cfg q = if q = pos then state else s.stateOf cfg q := by
  rw [hstored.changed rfl]
  by_cases heq : q = pos
  · rw [if_pos heq, heq, if_pos ⟨rfl, rfl, rfl⟩]
  · rw [if_neg heq, if_neg fun hplace => heq (ChunkPos.eq_of_samePlace hq hpos hplace)]

namespace Replays

variable (hpos : column.contains pos = true)
  (hstored : StoresState cfg s index pos state (some previous, stored))
  (hadds : s.Adds stored news) (hnone : ∀ q, lastState? news q = none)
  (h : Replays cfg column stored t)
include hpos hstored hadds hnone h

/-- A write that is given up, as another block is there by then, was overwritten by one that has
been announced. -/
theorem overwritten (hother : t.stateOf cfg pos ≠ state) : Replays cfg column s t := by
  obtain ⟨news', hadds', hstate, hcolumn⟩ := h.adds
  refine ⟨h.sound, fun i hi => h.present i (hstored.present i hi), news ++ news',
    hadds.trans hadds', fun q hq => ?_, fun q hsome => ?_⟩
  · rw [lastState?_append, hnone, Option.or_none, hstate q hq, hstored.stateOf_eq hpos hq]
    by_cases heq : q = pos
    · subst heq
      -- without an event of its own the position would still have the state
      cases hlast : lastState? news' q with
      | some last => rfl
      | none =>
        rw [hstate q hq, hlast, Option.getD_none, hstored.stateOf_eq hpos hq, if_pos rfl] at hother
        exact absurd rfl hother
    · rw [if_neg heq]
  · rw [lastState?_append, hnone, Option.or_none] at hsome
    exact hcolumn q hsome

/-- A write is announced by an event that says what is stored. -/
theorem announced (hstate : t.stateOf cfg pos = state) (flags : SetFlags) :
    Replays cfg column s (t.push (.block pos previous state flags)) := by
  obtain ⟨news', hadds', hstates, hcolumn⟩ := h.adds
  refine ⟨h.sound, fun i hi => h.present i (hstored.present i hi),
    news ++ news' ++ [.block pos previous state flags],
    (hadds.trans hadds').trans (adds_push t _), fun q hq => ?_, fun q hsome => ?_⟩
  · show t.stateOf cfg q = _
    rw [lastState?_append, lastState?_append, hnone, Option.or_none, lastState?_block]
    by_cases heq : pos = q
    · subst heq
      rw [if_pos rfl, hstate]
      rfl
    · rw [if_neg heq, Option.none_or, hstates q hq, hstored.stateOf_eq hpos hq,
        if_neg (Ne.symm heq)]
  · rw [lastState?_append, lastState?_append, hnone, Option.or_none, lastState?_block] at hsome
    by_cases heq : pos = q
    · exact heq ▸ hpos
    · rw [if_neg heq, Option.none_or] at hsome
      exact hcolumn q hsome

/-- The entity of the block that was written says nothing about blocks, and then the write is
announced. -/
theorem attached (hstate : t.stateOf cfg pos = state) (flags : SetFlags) :
    Replays cfg column s (Site.push ({ t.attachEntity cfg pos state with
      chunk := { (t.attachEntity cfg pos state).chunk with needsSaving := true } } : Site α τ)
        (.block pos previous state flags)) := by
  have hattach : EntitySteps cfg (fun _ => True) (fun _ => True) t (t.attachEntity cfg pos state) :=
    steps_attachEntity (cfg.makes_true _) t trivial state
  have hsilent := hattach.silent
  have hsaved : t.Silent ({ t.attachEntity cfg pos state with
      chunk := { (t.attachEntity cfg pos state).chunk with needsSaving := true } } : Site α τ) :=
    hsilent.trans (.of_eq rfl rfl)
  exact announced hpos hstored hadds hnone (h.trans (.of_silent h.sound hsaved))
    ((hsaved.stateOf_eq pos).trans hstate) flags

end Replays

end Write

/-- **The events of a write tell what is stored**, with all that it leads to. -/
theorem Replays.writeBlock (depth : Nat) {s : Site α τ} {pos : BlockPos} {state : BlockState}
    {flags : SetFlags} (hsound : cfg.SoundStates s.chunk.sections)
    (ht : s.Truthful cfg column depth pos state flags) :
    Replays cfg column s (writeBlock cfg depth s pos state flags).2 := by
  induction depth generalizing s pos state flags with
  | zero => exact .of_silent hsound (.of_eq rfl rfl)
  | succ depth ih =>
    obtain ⟨hpos, hfits, ht⟩ := ht
    -- reactions write with the depth that is left, where the induction hypothesis holds
    have hrun : ∀ (r : Reaction α τ) {s : Site α τ}, cfg.SoundStates s.chunk.sections →
        r.WritesOnly (nestedWriter cfg depth) cfg (fun s pos state moved =>
          s.Truthful cfg column depth pos state { moved }) s →
        Replays cfg column s (r.run (nestedWriter cfg depth) cfg s) :=
      fun r _ => .run (fun _ _ _ _ hsound ht => ih hsound ht) r
    show Replays cfg column s (s.writeWith (nestedWriter cfg depth) cfg pos state flags).2
    unfold writeWith
    cases hi : cfg.height.sectionIndex? pos.y with
    | none => exact .refl hsound
    | some index =>
      have hstored := storeBlock_states hsound hi hfits
      obtain ⟨news, hadds, hnone⟩ := adds_storeBlock s cfg index pos state
      replace ht := ht index hi
      simp only
      generalize s.storeBlock cfg index pos state = out at hstored hadds ht ⊢
      obtain ⟨outcome, stored⟩ := out
      cases outcome with
      | none =>
        refine ⟨hstored.sound, hstored.present, news, hadds, fun q _ => ?_, fun q hq => ?_⟩
        · rw [hnone, Option.getD_none, hstored.unchanged rfl]
        · rw [hnone] at hq
          cases hq
      | some previous =>
        obtain ⟨hreplace, hadd⟩ := ht previous rfl
        have hreplaced : Replays cfg column stored
            (stored.replaceBlock (nestedWriter cfg depth) cfg pos previous state flags.moved) := by
          unfold replaceBlock
          split
          · exact hrun _ hstored.sound (BlockFacts.leaveWithBlock_writesOnly ..)
          · next hserver => exact hrun _ hstored.sound (hreplace hserver)
        simp only
        generalize stored.replaceBlock (nestedWriter cfg depth) cfg pos previous state flags.moved =
          replaced at hreplaced hadd ⊢
        have hthere := hreplaced.present index (hstored.previous previous rfl).2.2
        have hkind := storedKind?_of_soundStates hreplaced.sound hi hthere
        split
        · next hother =>
          refine hreplaced.overwritten hpos hstored hadds hnone fun hsame => hother ?_
          rw [hkind, hsame]
        · next hsame =>
          obtain ⟨hadd, hfinal⟩ := hadd (Decidable.not_not.1 hsame)
          have hadded : Replays cfg column replaced (replaced.reactAdded (nestedWriter cfg depth) cfg
              pos state previous flags.moved) := by
            unfold reactAdded
            split
            · exact .refl hreplaced.sound
            · next hserver => exact hrun _ hreplaced.sound (hadd hserver)
          exact (hreplaced.trans hadded).attached hpos hstored hadds hnone hfinal flags

/-! ### Runs of writes -/

/-- All writes of a run are truthful. -/
def AllTruthful (cfg : Config α τ) (column : ChunkPos) : Site α τ → List BlockWrite → Prop
  | _, [] => True
  | s, w :: rest =>
    s.Truthful cfg column (cfg.nesting + 1) w.pos w.state w.flags ∧
      AllTruthful cfg column (s.setBlock cfg w.pos w.state w.flags).2 rest

instance decidableAllTruthful (cfg : Config α τ) (column : ChunkPos) :
    ∀ (s : Site α τ) (writes : List BlockWrite), Decidable (s.AllTruthful cfg column writes)
  | _, [] => .isTrue trivial
  | s, w :: rest =>
    @instDecidableAnd _ _ inferInstance
      (decidableAllTruthful cfg column (s.setBlock cfg w.pos w.state w.flags).2 rest)

/-- For each block that the run of writes adds an event for, the last of them tells the state that
is stored at the end. -/
def EventsReplay (cfg : Config α τ) (s : Site α τ) (writes : List BlockWrite) : Prop :=
  ∀ before, s.level.events = some before →
    ∃ news : List Event,
      (s.setBlocks cfg writes).level.events = some (before ++ news.toArray) ∧
      ∀ pos state, lastState? news pos = some state →
        (s.setBlocks cfg writes).stateOf cfg pos = state

theorem Replays.setBlocks {s : Site α τ} (hsound : cfg.SoundStates s.chunk.sections)
    (writes : List BlockWrite) (ht : s.AllTruthful cfg column writes) :
    Replays cfg column s (s.setBlocks cfg writes) := by
  induction writes generalizing s with
  | nil => exact .refl hsound
  | cons w rest ih =>
    have hfirst := Replays.writeBlock _ hsound ht.1
    exact hfirst.trans (ih hfirst.sound ht.2)

/-- **Events replay to the stored blocks**, whatever the blocks do in reaction, as long as no write
is announced that has been overwritten. -/
theorem eventsReplay_setBlocks {s : Site α τ} (hsound : cfg.SoundStates s.chunk.sections)
    (column : ChunkPos) (writes : List BlockWrite) (ht : s.AllTruthful cfg column writes) :
    s.EventsReplay cfg writes := by
  intro before hbefore
  obtain ⟨news, hadds, hstate, hcolumn⟩ := (Replays.setBlocks hsound writes ht).adds
  refine ⟨news, ?_, fun pos state hlast => ?_⟩
  · rw [hadds, hbefore, Option.map_some]
  · rw [hstate pos (hcolumn pos (by rw [hlast]; rfl)), hlast, Option.getD_some]

/-- The events of a run do not replay to the stored blocks when the last of them for some block
tells another state. -/
theorem not_eventsReplay {s : Site α τ} {writes : List BlockWrite} (pos : BlockPos)
    (state : BlockState) (hnone : s.level.events = some #[])
    (hlast : (s.setBlocks cfg writes).level.events.map (fun events => lastState? events.toList pos) =
      some (some state))
    (hstored : (s.setBlocks cfg writes).stateOf cfg pos ≠ state) : ¬s.EventsReplay cfg writes := by
  intro h
  obtain ⟨news, hevents, hreplay⟩ := h #[] hnone
  rw [hevents, Option.map_some, Option.some.injEq] at hlast
  exact hstored (hreplay pos state (by simpa using hlast))

end Site

/-! ### A restless world -/

/-- A world of blocks that write when they come and go: a block in state 1 vanishes as soon as it
is added, one in state 5 puts another on top, and what is replaced by a block in state 2 or 4 makes
it another one, of the same kind or of a different one. -/
def restlessWorld : Config Unit Unit where
  registry :=
    { toBlockFacts := { stoneWorld.facts with stateCount := 6, blockOf := fun s => ⟨s.id / 2⟩ }
      create := fun _ _ => none
      instantiate := fun _ _ _ => none
      supports := fun _ _ => false
      onReplaced := fun pos _ new _ =>
        if new = ⟨2⟩ then .setBlock pos ⟨3⟩ false fun _ => .done
        else if new = ⟨4⟩ then .setBlock pos .air false fun _ => .done
        else .done
      onAdded := fun pos new _ _ =>
        if new = ⟨1⟩ then .setBlock pos .air false fun _ => .done
        else if new = ⟨5⟩ then .setBlock (pos + ⟨0, 1, 0⟩) ⟨3⟩ false fun _ => .done
        else .done }
  height := default

/-- A new chunk of the restless world, whose events are kept. -/
def newRestless : Site Unit Unit :=
  ⟨Chunk.new restlessWorld { pos := ⟨0, 0⟩ }, { isClient := false, events := some #[] }⟩

/-- A block that puts another on top, and one that is made air when it replaces that. -/
theorem eventsReplay_restless :
    newRestless.EventsReplay restlessWorld
      [{ pos := ⟨3, 5, 4⟩, state := ⟨5⟩ }, { pos := ⟨3, 6, 4⟩, state := ⟨4⟩ }] := by
  have hsound : restlessWorld.SoundStates newRestless.chunk.sections := by
    have hsections : newRestless.chunk.sections =
        Array.replicate restlessWorld.height.sectionCount none := Chunk.sections_new rfl
    rw [hsections]
    exact (Config.soundSections_replicate restlessWorld).soundStates
  exact Site.eventsReplay_setBlocks hsound ⟨0, 0⟩ _ (by decide +kernel)

/-- A block that vanishes as soon as it is added, one that is made another of its kind, and two
writes to one place of the chunk under different positions: each time the last event tells a state
that is not stored. -/
theorem not_eventsReplay_restless :
    ¬newRestless.EventsReplay restlessWorld [{ pos := ⟨3, 5, 4⟩, state := ⟨1⟩ }] ∧
      ¬newRestless.EventsReplay restlessWorld [{ pos := ⟨3, 5, 4⟩, state := ⟨2⟩ }] ∧
      ¬newRestless.EventsReplay restlessWorld
        [{ pos := ⟨0, 0, 0⟩, state := ⟨3⟩ }, { pos := ⟨16, 0, 0⟩, state := .air }] := by
  refine ⟨?_, ?_, ?_⟩
  · exact Site.not_eventsReplay ⟨3, 5, 4⟩ ⟨1⟩ rfl (by decide +kernel) (by decide +kernel)
  · exact Site.not_eventsReplay ⟨3, 5, 4⟩ ⟨2⟩ rfl (by decide +kernel) (by decide +kernel)
  · exact Site.not_eventsReplay ⟨0, 0, 0⟩ ⟨3⟩ rfl (by decide +kernel) (by decide +kernel)

end VoxelChunk
