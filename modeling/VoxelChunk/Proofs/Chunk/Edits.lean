import VoxelChunk.Proofs.Chunk.Moves

/-!
# Runs of operations on a chunk

A chunk is changed by operations, whether it is in its world or not. Where blocks react as they do
unless told otherwise, a write stores a state, takes the old block's entity out and attaches the
new block's, and settling a chunk is a run of writes that ends with all saved data used up.

## Main definitions

* `Site.belongings` — what a chunk holds of block entities, listeners included.
* `Site.Written` — all that can come of a write, whatever is stored.
* `SiteEdit`, `Site.edit`, `Site.edits` — the operations of a chunk.
* `Along` — each step of a run is made where it may be made.
* `Site.WritesWhere`, `Site.EditsWhere` — all writes of a run are made where they may be made.

## Main results

* `Site.written_setBlock` — what a write comes to.
* `Site.settleAll_keeps` — what settling a chunk keeps.
-/

namespace VoxelChunk

variable {α τ : Type}

namespace Site

variable {cfg : Config α τ} {s t : Site α τ} {pos : BlockPos} {state : BlockState}

/-- What a chunk holds of block entities and what they depend on, their listeners, and what is still
to be done when it first comes into its world. -/
def belongings (s : Site α τ) := (s.holdings, s.chunk.dispatchers, s.chunk.onLoad)

theorem holdings_eq (h : t.belongings = s.belongings) : t.holdings = s.holdings :=
  congrArg Prod.fst h

theorem dispatchers_eq (h : t.belongings = s.belongings) :
    t.chunk.dispatchers = s.chunk.dispatchers :=
  congrArg (fun held => held.2.1) h

theorem onLoad_eq (h : t.belongings = s.belongings) : t.chunk.onLoad = s.chunk.onLoad :=
  congrArg (fun held => held.2.2) h

theorem belongings_storeBlock (s : Site α τ) (cfg : Config α τ) (index : Nat) (pos : BlockPos)
    (state : BlockState) : (s.storeBlock cfg index pos state).2.belongings = s.belongings := by
  obtain ⟨sections, heightmaps, events, notices, heq⟩ := storeBlock_frame s cfg index pos state
  rw [heq]
  rfl

/-! ### Writes -/

/-- All that can come of a write when blocks react by default, whatever is stored. -/
inductive Written (cfg : Config α τ) (s : Site α τ) (pos : BlockPos) (state : BlockState) :
    Option BlockState × Site α τ → Prop
  | kept {t : Site α τ} : t.belongings = s.belongings → Written cfg s pos state (none, t)
  /-- The old block's entity has left, but the new block cannot be read. -/
  | lost {t : Site α τ} : t.belongings = s.belongings →
    Written cfg s pos state (none, (t.removeEntity pos).2)
  /-- The old block's entity leaves if another kind of block comes, and the new block's entity is
  attached. -/
  | changed {t r u : Site α τ} (old : BlockState) : t.belongings = s.belongings →
    r = (if cfg.facts.hasEntity old ∧ cfg.facts.blockOf old ≠ cfg.facts.blockOf state then
      (t.removeEntity pos).2 else t) →
    u.belongings = (r.attachEntity cfg pos state).belongings →
    Written cfg s pos state (some old, u)

/-- **What a write comes to**: nothing but the entity of the block is concerned. -/
theorem written_setBlock (hdefault : cfg.DefaultReactions) (s : Site α τ) (pos : BlockPos)
    (state : BlockState) (flags : SetFlags) :
    Written cfg s pos state (s.setBlock cfg pos state flags) := by
  show Written cfg s pos state (s.writeWith (nestedWriter cfg cfg.nesting) cfg pos state flags)
  unfold writeWith
  cases cfg.height.sectionIndex? pos.y with
  | none => exact .kept rfl
  | some index =>
    have hstored := belongings_storeBlock s cfg index pos state
    simp only
    generalize s.storeBlock cfg index pos state = out at hstored ⊢
    obtain ⟨outcome, t⟩ := out
    cases outcome with
    | none => exact .kept hstored
    | some old =>
      simp only [replaceBlock_default hdefault, hdefault.onAdded, Reaction.run, ite_self]
      generalize hr : (if cfg.facts.hasEntity old ∧
        cfg.facts.blockOf old ≠ cfg.facts.blockOf state then (t.removeEntity pos).2 else t) = r
      split
      · rw [← hr]
        split
        · exact .lost hstored
        · exact .kept hstored
      · exact .changed old hstored hr.symm rfl

end Site

/-! ### Steps where they may be made -/

/-- Along a run, each step is made where it may be made. -/
def Along {β ι : Type} (step : β → ι → β) (may : β → ι → Prop) : β → List ι → Prop
  | _, [] => True
  | b, i :: is => may b i ∧ Along step may (step b i) is

/-- What each step keeps that may be made, a run of such steps keeps. -/
theorem Along.foldl_keeps {β ι : Type} {step : β → ι → β} {may : β → ι → Prop} {I : β → Prop}
    (hstep : ∀ b i, I b → may b i → I (step b i)) {b : β} {is : List ι} (h : I b)
    (his : Along step may b is) : I (is.foldl step b) := by
  induction is generalizing b with
  | nil => exact h
  | cons i is ih => exact ih (hstep b i h his.1) his.2

theorem along_true {β ι : Type} (step : β → ι → β) (b : β) (is : List ι) :
    Along step (fun _ _ => True) b is := by
  induction is generalizing b with
  | nil => trivial
  | cons i is ih => exact ⟨trivial, ih _⟩

/-! ### Settling -/

namespace Site

/-- The write that settles a block is made where it may be made. -/
def SettlesBlockWhere (may : Site α τ → BlockPos → BlockState → Prop) (cfg : Config α τ)
    (view : BlockPos → Except Fault BlockState) (s : Site α τ) (pos : BlockPos) : Prop :=
  ∀ state, s.chunk.blockAt cfg pos >>= cfg.facts.settle (s.chunk.viewThrough cfg view) pos =
    .ok state → may s pos state

/-- All writes that settle a section are made where they may be made. -/
def SettlesSectionWhere (may : Site α τ → BlockPos → BlockState → Prop) (cfg : Config α τ)
    (view : BlockPos → Except Fault BlockState) (s : Site α τ) (index : Nat) : Prop :=
  let place (s : Site α τ) (packed : UInt16) : BlockPos :=
    unpackLocal packed (cfg.height.sectionCoordOf index) s.chunk.pos
  Along (fun s packed => s.settleBlock cfg view (place s packed))
    (fun s packed => s.SettlesBlockWhere may cfg view (place s packed))
    { s with chunk := { s.chunk with unsettled := s.chunk.unsettled.setIfInBounds index [] } }
    (s.chunk.unsettled.getD index [])

/-- All writes that settle a chunk are made where they may be made. -/
def SettlesWhere (may : Site α τ → BlockPos → BlockState → Prop) (cfg : Config α τ)
    (view : BlockPos → Except Fault BlockState) (s : Site α τ) : Prop :=
  Along (fun s index => s.settleSection cfg view index)
    (fun s index => s.SettlesSectionWhere may cfg view index) s (List.range s.chunk.unsettled.size)

/-- When all writes may be made, settling may be done. -/
theorem settlesWhere_true (cfg : Config α τ) (view : BlockPos → Except Fault BlockState)
    (s : Site α τ) : s.SettlesWhere (fun _ _ _ => True) cfg view := by
  have hsection : ∀ (s : Site α τ) (index : Nat),
      s.SettlesSectionWhere (fun _ _ _ => True) cfg view index := by
    intro s index
    unfold SettlesSectionWhere SettlesBlockWhere
    simp only [implies_true]
    exact along_true _ _ _
  unfold SettlesWhere
  simp only [hsection]
  exact along_true _ s _

section Settle

variable {cfg : Config α τ} {I : Site α τ → Prop} {may : Site α τ → BlockPos → BlockState → Prop}
  (haside : ∀ {s t : Site α τ}, I s → t.belongings = s.belongings → I t)
  (hwrite : ∀ {s : Site α τ} {pos : BlockPos} {state : BlockState} (flags : SetFlags),
    I s → may s pos state → I (s.setBlock cfg pos state flags).2)
include haside hwrite

theorem settleBlock_keeps (view : BlockPos → Except Fault BlockState) {s : Site α τ}
    {pos : BlockPos} (h : I s) (hmay : s.SettlesBlockWhere may cfg view pos) :
    I (s.settleBlock cfg view pos) := by
  unfold settleBlock
  split
  · next state hstate => exact hwrite _ h (hmay state hstate)
  · exact haside h rfl

theorem settleSection_keeps (view : BlockPos → Except Fault BlockState) {s : Site α τ}
    {index : Nat} (h : I s) (hmay : s.SettlesSectionWhere may cfg view index) :
    I (s.settleSection cfg view index) :=
  Along.foldl_keeps (fun _ _ h hmay => settleBlock_keeps haside hwrite view h hmay)
    (haside h rfl) hmay

/-- **What settling a chunk keeps**: whatever is kept by its writes, by loading saved data, and by
giving up what is left of it. -/
theorem settleAll_keeps
    (hget : ∀ {s : Site α τ} (pos : BlockPos), I s → I (s.getEntity cfg pos .check).2)
    (hclear : ∀ {s : Site α τ}, I s → I { s with chunk := { s.chunk with pending := {} } })
    (view : BlockPos → Except Fault BlockState) {s : Site α τ} (h : I s)
    (hmay : s.SettlesWhere may cfg view) : I (s.settleAll cfg view) := by
  have hsettled : I ((List.range s.chunk.unsettled.size).foldl
      (fun s index => s.settleSection cfg view index) s) :=
    Along.foldl_keeps (fun _ _ h hmay => settleSection_keeps haside hwrite view h hmay) h hmay
  have hloaded : ∀ (positions : List BlockPos) {s : Site α τ}, I s →
      I (positions.foldl (fun s pos => (s.getEntity cfg pos .check).2) s) := by
    intro positions
    induction positions with
    | nil => exact fun h => h
    | cons pos positions ih => exact fun h => ih (hget pos h)
  exact hclear (hloaded _ (haside hsettled rfl))

end Settle

end Site

/-! ### Operations -/

/-- One operation of a chunk. -/
inductive SiteEdit (α : Type) where
  | setBlock (pos : BlockPos) (state : BlockState) (flags : SetFlags)
  /-- The entity at a position is asked for and, if there is one, changed. -/
  | getEntity (pos : BlockPos) (mode : CreationMode) (change : BlockEntity α → BlockEntity α)
  | addEntity (entity : BlockEntity α)
  | removeEntity (pos : BlockPos)
  /-- Saved data is given to the chunk. -/
  | addPending (fields : Compound)
  /-- The queued blocks are settled, seeing the blocks of other chunks. -/
  | settle (view : BlockPos → Except Fault BlockState)

namespace Site

/-- The chunk after an operation. -/
def edit (cfg : Config α τ) (s : Site α τ) : SiteEdit α → Site α τ
  | .setBlock pos state flags => (s.setBlock cfg pos state flags).2
  | .getEntity pos mode change =>
    match s.getEntity cfg pos mode with
    | (some _, s) => { s with chunk := s.chunk.modifyEntity pos change }
    | (none, s) => s
  | .addEntity entity => s.addEntity cfg entity
  | .removeEntity pos => (s.removeEntity pos).2
  | .addPending fields =>
    match s.chunk.addPending fields with
    | .ok chunk => { s with chunk }
    | .error _ => s
  | .settle view => s.settleAll cfg view

/-- Saved data without a position is not kept. -/
theorem edit_addPending (cfg : Config α τ) (s : Site α τ) (fields : Compound) :
    s.edit cfg (.addPending fields) =
      match savedPos fields with
      | .ok pos =>
        { s with chunk := { s.chunk with pending := s.chunk.pending.insert pos fields } }
      | .error _ => s := by
  simp only [edit, Chunk.addPending]
  cases savedPos fields <;> rfl

theorem edit_getEntity_keeps {cfg : Config α τ} {I : Site α τ → Prop} {s : Site α τ}
    {pos : BlockPos} {mode : CreationMode} {change : BlockEntity α → BlockEntity α}
    (hget : I (s.getEntity cfg pos mode).2)
    (hchange : ∀ {t : Site α τ}, I t → I { t with chunk := t.chunk.modifyEntity pos change }) :
    I (s.edit cfg (.getEntity pos mode change)) := by
  unfold edit
  simp only
  split
  · next heq =>
    rw [heq] at hget
    exact hchange hget
  · next heq => rwa [heq] at hget

/-- The chunk after operations, one after another. -/
def edits (cfg : Config α τ) (s : Site α τ) (es : List (SiteEdit α)) : Site α τ :=
  es.foldl (fun s e => s.edit cfg e) s

/-- All writes of an operation are made where they may be made. -/
def WritesWhere (may : Site α τ → BlockPos → BlockState → Prop) (cfg : Config α τ)
    (s : Site α τ) : SiteEdit α → Prop
  | .setBlock pos state _ => may s pos state
  | .settle view => s.SettlesWhere may cfg view
  | _ => True

/-- All writes of a run of operations are made where they may be made. -/
def EditsWhere (may : Site α τ → BlockPos → BlockState → Prop) (cfg : Config α τ)
    (s : Site α τ) (es : List (SiteEdit α)) : Prop :=
  Along (fun s e => s.edit cfg e) (fun s e => s.WritesWhere may cfg e) s es


end Site

end VoxelChunk
