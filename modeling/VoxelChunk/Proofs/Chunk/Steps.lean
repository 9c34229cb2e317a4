import Mathlib.Logic.Relation
import VoxelChunk.Proofs.Chunk.Entities

/-!
# Steps of block entities

All that is ever done to the block entities of a chunk is a chain of a few kinds of steps. What
each step keeps, every operation keeps.

## Main definitions

* `Config.Makes`, `Config.MakesOnly` — entities are made only at certain positions.
* `Config.Made` — an entity that is made for a position.
* `Site.EntityStep`, `Site.EntitySteps` — one step, and chains of steps.

## Main results

* `Site.getEntity_keeps` — what asking for an entity keeps.
* `Site.steps_getEntity`, `Site.steps_updateEntityState`, `Site.steps_attachEntity` — operations
  are chains of steps.
* `Site.EntityStep.ground` — no step changes the blocks.
-/

namespace VoxelChunk

variable {α τ : Type}

/-- An entity that is made for a position at which `P` holds is made at one at which `Q` holds. -/
structure Config.Makes (cfg : Config α τ) (P Q : BlockPos → Prop) : Prop where
  create : ∀ pos state e, P pos → cfg.registry.create pos state = some e → Q e.pos
  instantiate : ∀ id pos state e, P pos →
    cfg.registry.instantiate id pos state = some e → Q e.pos

/-- An entity that is made for a position at which `P` holds is made at such a position. -/
structure Config.MakesOnly (cfg : Config α τ) (P : BlockPos → Prop) : Prop where
  create : ∀ pos state e, P pos → cfg.registry.create pos state = some e → P e.pos
  instantiate : ∀ id pos state e, P pos →
    cfg.registry.instantiate id pos state = some e → P e.pos

theorem Config.MakesOnly.makes {cfg : Config α τ} {P : BlockPos → Prop} (h : cfg.MakesOnly P) :
    cfg.Makes P P :=
  ⟨h.create, h.instantiate⟩

theorem Config.makesOnly_true (cfg : Config α τ) : cfg.MakesOnly fun _ => True :=
  ⟨fun _ _ _ _ _ => trivial, fun _ _ _ _ _ _ => trivial⟩

theorem Config.makes_true (cfg : Config α τ) (P : BlockPos → Prop) :
    cfg.Makes P fun _ => True :=
  ⟨fun _ _ _ _ _ => trivial, fun _ _ _ _ _ _ => trivial⟩

/-- The entity is made for a position: the block there gets it by itself, or saved data stands for
it. -/
inductive Config.Made (cfg : Config α τ) (pos : BlockPos) : BlockEntity α → Prop
  | created (state : BlockState) {e : BlockEntity α} :
    cfg.registry.create pos state = some e → cfg.Made pos e
  | loaded (id : String) (state : BlockState) {made : BlockEntity α} (data : α) :
    cfg.registry.instantiate id pos state = some made → cfg.Made pos { made with data }

theorem Config.Makes.made {cfg : Config α τ} {P Q : BlockPos → Prop} (h : cfg.Makes P Q)
    {pos : BlockPos} (hpos : P pos) {e : BlockEntity α} (he : cfg.Made pos e) : Q e.pos := by
  cases he with
  | created state hmade => exact h.create pos state e hpos hmade
  | @loaded id state made data hmade => exact h.instantiate id pos state made hpos hmade

/-- An entity that saved data stands for is of the type that it asks for, with other data. -/
theorem EntityFactory.load_eq_ok {factory : EntityFactory α} {pos : BlockPos} {state : BlockState}
    {fields : Compound} {e : BlockEntity α} (h : factory.load pos state fields = .ok e) :
    ∃ id made, factory.instantiate id pos state = some made ∧ e = { made with data := e.data } := by
  unfold load at h
  cases hid : fields.walk.getString "id" with
  | error cause => simp [hid] at h
  | ok id =>
    cases hmade : factory.instantiate id pos state with
    | none => simp [hid, hmade] at h
    | some made =>
      cases hdata : factory.readData made fields.walk with
      | error cause => simp [hid, hmade, hdata] at h
      | ok data =>
        obtain rfl : { made with data } = e := by simpa [hid, hmade, hdata] using h
        exact ⟨id, made, hmade, rfl⟩

namespace Site

/-- The site with other saved data and notices. -/
def withPending (s : Site α τ) (pending : Keyed BlockPos Compound) (notices : Array Notice) :
    Site α τ :=
  { chunk := { s.chunk with pending }, level := { s.level with notices } }

/-- The state of the block of the entity that is out of the chunk from a position changes. -/
def tellLent (s : Site α τ) (cfg : Config α τ) (pos : BlockPos) (state : BlockState) : Site α τ :=
  Site.updateTicker { s with
    chunk := s.chunk.modifyLent pos fun lent => { lent with cachedState := state } } cfg pos

/-- The state of the block of the entity that is installed at a position changes. -/
def tell (s : Site α τ) (cfg : Config α τ) (pos : BlockPos) (state : BlockState) : Site α τ :=
  Site.updateTicker { s with
    chunk := s.chunk.modifyEntity pos fun e => { e with cachedState := state } } cfg pos

/-- One step of what is done to the block entities of a chunk, at a position at which `P` holds, or
at one at which `Q` holds if an entity is added. -/
inductive EntityStep (cfg : Config α τ) (P Q : BlockPos → Prop) (s : Site α τ) : Site α τ → Prop
  /-- Saved data is used up, or something is noted. -/
  | aside (pending : Keyed BlockPos Compound) (notices : Array Notice) :
    (∀ pos fields, pending.find? pos = some fields → s.chunk.pending.find? pos = some fields) →
      EntityStep cfg P Q s (s.withPending pending notices)
  | add (e : BlockEntity α) : Q e.pos → EntityStep cfg P Q s (s.addEntity cfg e)
  | remove (pos : BlockPos) : P pos → EntityStep cfg P Q s (s.removeEntity pos).2
  | evict (pos : BlockPos) : P pos → EntityStep cfg P Q s (s.evictRemoved pos)
  | tellLent (pos : BlockPos) (state : BlockState) : P pos →
    EntityStep cfg P Q s (s.tellLent cfg pos state)
  | tell (pos : BlockPos) (state : BlockState) : P pos → EntityStep cfg P Q s (s.tell cfg pos state)

/-- Steps, one after another. -/
abbrev EntitySteps (cfg : Config α τ) (P Q : BlockPos → Prop) : Site α τ → Site α τ → Prop :=
  Relation.ReflTransGen (EntityStep cfg P Q)

variable {cfg : Config α τ} {P Q : BlockPos → Prop}

/-- No step changes the blocks. -/
theorem EntityStep.ground {s s' : Site α τ} (h : EntityStep cfg P Q s s') : s'.ground = s.ground := by
  cases h with
  | aside pending notices _ => rfl
  | add e _ => exact ground_addEntity s e
  | remove pos _ => exact ground_removeEntity s pos
  | evict pos _ => exact ground_evictRemoved s pos
  | tellLent pos state _ => exact (ground_updateTicker _ pos).trans (ground_modifyLent s pos _)
  | tell pos state _ => exact ground_updateTicker _ pos

/-! ### How entities come -/

section Coming

variable {I : Site α τ → Prop} {pos : BlockPos}
  (haside : ∀ {s : Site α τ} (pending : Keyed BlockPos Compound) (notices : Array Notice),
    (∀ q fields, pending.find? q = some fields → s.chunk.pending.find? q = some fields) →
      I s → I (s.withPending pending notices))
  (hadd : ∀ {s : Site α τ} {e : BlockEntity α}, cfg.Made pos e → I s → I (s.addEntity cfg e))

include haside

theorem note_keeps {s : Site α τ} (h : I s) (notice : Notice) : I (s.note notice) :=
  haside s.chunk.pending (s.level.notices.push notice) (fun _ _ hf => hf) h

theorem blockAt_keeps {s : Site α τ} (h : I s) : I (s.blockAt cfg pos).2 := by
  unfold blockAt
  cases s.chunk.blockAt cfg pos with
  | ok state => exact h
  | error fault => exact note_keeps haside h (.fault fault)

include hadd

/-- What has been made, if anything, is added. -/
theorem install_keeps (state : BlockState) {made : Option (BlockEntity α) × Site α τ}
    (h : I made.2) (hmade : ∀ e, made.1 = some e → cfg.Made pos e) :
    I (match made.1 with
      | some entity => (true, made.2.addEntity cfg entity)
      | none => (false, made.2.note (.notLoaded pos state))).2 := by
  split
  · next e he => exact hadd (hmade e he) h
  · exact note_keeps haside h _

omit hadd in
theorem createEntity_keeps (hcreate : ∀ {s : Site α τ} {state : BlockState} {e : BlockEntity α},
      cfg.registry.create pos state = some e → I s → I (s.addEntity cfg e))
    {s : Site α τ} (h : I s) : I (s.createEntity cfg pos).2 := by
  have hread : I (s.blockAt cfg pos).2 := blockAt_keeps haside h
  unfold createEntity
  simp only
  split
  · split
    · exact hread
    · next e he => exact hcreate he hread
  · exact hread

theorem loadEntity_keeps {s : Site α τ} (h : I s) (fields : Compound) :
    I (s.loadEntity cfg pos fields).2 := by
  have hread : I (s.blockAt cfg pos).2 := blockAt_keeps haside h
  unfold loadEntity
  generalize s.blockAt cfg pos = read at hread ⊢
  obtain ⟨state, s'⟩ := read
  simp only at hread ⊢
  refine install_keeps haside hadd state ?_ ?_
  · split
    · split
      · exact hread
      · exact note_keeps haside hread _
    · split
      · exact hread
      · exact note_keeps haside hread _
  · intro e he
    split at he
    · split at he
      · exact .created state he
      · cases he
    · split at he
      · next loaded hloaded =>
        obtain rfl := Option.some.inj he
        obtain ⟨id, made, hmade, heq⟩ := EntityFactory.load_eq_ok hloaded
        rw [heq]
        exact .loaded id state _ hmade
      · cases he

theorem loadPending_keeps {s : Site α τ} (h : I s) : I (s.loadPending cfg pos).2 := by
  unfold loadPending
  split
  · exact h
  · next fields _ =>
    refine loadEntity_keeps haside hadd ?_ fields
    refine haside (s.chunk.pending.swapErase pos) s.level.notices (fun q f hq => ?_) h
    rw [Keyed.find?_swapErase] at hq
    split at hq
    · cases hq
    · exact hq

/-- **Asking for an entity** comes down to few things: entities that have been removed are taken
out, saved data is used up, and what is made for the position is added. What these keep is kept. -/
theorem getEntity_keeps (hevict : ∀ {s : Site α τ}, I s → I (s.evictRemoved pos)) {s : Site α τ}
    (h : I s) (mode : CreationMode) : I (s.getEntity cfg pos mode).2 := by
  have hloaded : I ((s.evictRemoved pos).loadPending cfg pos).2 :=
    loadPending_keeps haside hadd (hevict h)
  unfold getEntity
  split
  · exact h
  · split
    · exact h
    · simp only
      split
      · exact hloaded
      · split
        · exact createEntity_keeps haside (fun he => hadd (.created _ he)) hloaded
        · exact hloaded

end Coming

/-! ### Operations are chains of steps -/

variable (hmakes : cfg.Makes P Q)
include hmakes

theorem steps_getEntity (s : Site α τ) {pos : BlockPos} (hpos : P pos) (mode : CreationMode) :
    EntitySteps cfg P Q s (s.getEntity cfg pos mode).2 := by
  refine getEntity_keeps (I := EntitySteps cfg P Q s) ?_ ?_ ?_ .refl mode
  · intro t pending notices hshrink h
    exact h.tail (.aside pending notices hshrink)
  · intro t e he h
    exact h.tail (.add e (hmakes.made hpos he))
  · intro t h
    exact h.tail (.evict pos hpos)

theorem steps_updateEntityState (s : Site α τ) {pos : BlockPos} (hpos : P pos)
    (state : BlockState) : EntitySteps cfg P Q s (s.updateEntityState cfg pos state).2 := by
  have hget : EntitySteps cfg P Q s (s.getEntity cfg pos .check).2 :=
    steps_getEntity hmakes s hpos .check
  unfold updateEntityState
  split
  · exact .single (.tellLent pos state hpos)
  · split
    · next heq => rwa [heq] at hget
    · next heq =>
      rw [heq] at hget
      exact hget.tail (.tell pos state hpos)

theorem steps_attachEntity (s : Site α τ) {pos : BlockPos} (hpos : P pos) (state : BlockState) :
    EntitySteps cfg P Q s (s.attachEntity cfg pos state) := by
  have htold : EntitySteps cfg P Q s (s.updateEntityState cfg pos state).2 :=
    steps_updateEntityState hmakes s hpos state
  unfold attachEntity
  split
  · simp only
    split
    · exact htold
    · split
      · next e he => exact htold.tail (.add e (hmakes.create _ _ _ hpos he))
      · exact htold
  · exact .refl

end Site

end VoxelChunk
