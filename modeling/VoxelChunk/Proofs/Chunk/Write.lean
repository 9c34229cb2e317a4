import VoxelChunk.Proofs.Chunk.Entities
import VoxelChunk.Proofs.Chunk.Heights
import VoxelChunk.Proofs.Chunk.Stored

/-!
# Runs of writes

A write stores a state and tells the heightmaps, and then blocks react, possibly by further writes,
and block entities come and go. Whatever holds of blocks and heightmaps and is kept when a state is
stored holds after any number of writes, however they are nested.

## Main definitions

* `Config.DefaultReactions` — blocks react as they do unless told otherwise.
* `BlockWrite`, `Site.setBlocks` — writes, one after another.
* `Site.WritesOnly`, `Site.OnlyWrites` — all writes of a run, those made in reaction included, are
  of a given kind.

## Main results

* `Site.storeBlock_spec` — what is stored, and what becomes of the heightmaps.
* `Site.writeBlock_keeps`, `Site.setBlocks_keeps` — what a stored state keeps, a run keeps.
* `Site.onlyWrites_of_default` — blocks that react by default write nothing.
-/

namespace VoxelChunk

variable {α τ : Type}

namespace Site

variable {cfg : Config α τ}

/-! ### What is stored -/

/-- All that can come of storing a state: outcome, chunk and level. -/
inductive Stored (cfg : Config α τ) (s : Site α τ) (index : Nat) (pos : BlockPos)
    (state : BlockState) : Option BlockState × Site α τ → Prop
  /-- Air is not stored in an absent section. -/
  | skipped : s.chunk.section? index = none → cfg.facts.isAir state →
    Stored cfg s index pos state (none, s)
  /-- The same state was there already, but the section may have been made. -/
  | same (sections : Sections) : cfg.SoundSections sections →
    Sections.Replaced cfg.height s.chunk.sections pos state sections →
    columnState s.chunk.sections cfg.height pos.x pos.y pos.z = state →
    Stored cfg s index pos state (none, { s with chunk := { s.chunk with sections } })
  /-- Another state was there. -/
  | changed (sections : Sections) (events : Option (Array Event)) (notices : Array Notice) :
    cfg.SoundSections sections →
    Sections.Replaced cfg.height s.chunk.sections pos state sections →
    columnState s.chunk.sections cfg.height pos.x pos.y pos.z ≠ state →
    sections[index]?.join.isSome →
    Stored cfg s index pos state
      (some (columnState s.chunk.sections cfg.height pos.x pos.y pos.z),
        { chunk := { s.chunk with
            sections
            heightmaps := toldHeightmaps cfg sections pos state s.chunk.heightmaps }
          level := { s.level with events, notices } })

/-- **What is stored, and what becomes of the heightmaps.** -/
theorem storeBlock_spec {s : Site α τ} {pos : BlockPos} {state : BlockState} {index : Nat}
    (h : cfg.SoundSections s.chunk.sections) (hair : cfg.facts.isAir .air)
    (hi : cfg.height.sectionIndex? pos.y = some index) (hs : state.FitsIn cfg.globalBits) :
    Stored cfg s index pos state (s.storeBlock cfg index pos state) := by
  obtain ⟨hout, -, hset⟩ := h.soundStates.set_spec hi hs
  have hsound := h.set hair hi hs
  change cfg.SoundSections (s.putWritten cfg index pos state) at hsound
  change Sections.Replaced _ _ _ _ (s.putWritten cfg index pos state) at hset
  have hlt : index < s.chunk.sections.size := by
    rw [h.size]
    exact (HeightLimit.sectionIndex?_eq_some_iff.1 hi).1
  have hread : ∀ previous, (s.written cfg index pos state).1 = .ok previous →
      columnState s.chunk.sections cfg.height pos.x pos.y pos.z = previous :=
    fun previous hread => Except.ok.inj (hout.symm.trans hread)
  have hthere : (s.putWritten cfg index pos state)[index]?.join.isSome := by
    rw [join_putWritten hlt, if_pos rfl]
    rfl
  have hstoring := storing s cfg index pos state
  generalize s.storeBlock cfg index pos state = out at hstoring ⊢
  cases hstoring with
  | skipped habsent hskip => exact .skipped habsent hskip
  | failed cause notices hfailed => exact nomatch hout.symm.trans hfailed
  | same hsame => exact .same _ hsound hset (hread state hsame)
  | changed previous events notices hprevious hne =>
    rw [← hread previous hprevious] at hne ⊢
    exact .changed _ _ _ hsound hset hne hthere

end Site

/-- Blocks react as they do unless told otherwise. -/
structure Config.DefaultReactions (cfg : Config α τ) : Prop where
  onReplaced : ∀ pos old new moved,
    cfg.registry.onReplaced pos old new moved = cfg.facts.leaveWithBlock pos old new
  onAdded : ∀ pos new old moved, cfg.registry.onAdded pos new old moved = .done

/-! ### Writes and those made in reaction -/

/-- Along the run of a reaction, all blocks are written as `fine` allows. -/
def Reaction.WritesOnly (write : BlockWriter α τ) (cfg : Config α τ)
    (fine : Site α τ → BlockPos → BlockState → Bool → Prop) : Reaction α τ → Site α τ → Prop
  | done, _ => True
  | setBlock pos state moved next, s =>
    fine s pos state moved ∧
      WritesOnly write cfg fine (next (write s pos state moved).1) (write s pos state moved).2
  | removeEntity pos next, s =>
    WritesOnly write cfg fine (next (s.removeEntity pos).1) (s.removeEntity pos).2
  | addEntity entity next, s => WritesOnly write cfg fine next (s.addEntity cfg entity)
  | look next, s => WritesOnly write cfg fine (next s) s

theorem Reaction.run_keeps {P : Sections × Array (Option Heightmap) → Prop}
    {write : BlockWriter α τ} {cfg : Config α τ}
    {fine : Site α τ → BlockPos → BlockState → Bool → Prop}
    (hwrite : ∀ s pos state moved, P s.blocks → fine s pos state moved →
      P (write s pos state moved).2.blocks) (r : Reaction α τ) {s : Site α τ} (h : P s.blocks)
    (hr : r.WritesOnly write cfg fine s) : P (r.run write cfg s).blocks := by
  induction r generalizing s with
  | done => exact h
  | setBlock pos state moved next ih => exact ih _ (hwrite s pos state moved h hr.1) hr.2
  | removeEntity pos next ih =>
    have hremoved : P (s.removeEntity pos).2.blocks := by
      rwa [Site.blocks_eq (Site.ground_removeEntity s pos)]
    exact ih _ hremoved hr
  | addEntity entity next ih =>
    have hadded : P (s.addEntity cfg entity).blocks := by
      rwa [Site.blocks_eq (Site.ground_addEntity s entity)]
    exact ih hadded hr
  | look next ih => exact ih s h hr

/-- Blocks that only take their entities along write nothing. -/
theorem BlockFacts.leaveWithBlock_writesOnly (facts : BlockFacts) (write : BlockWriter α τ)
    (cfg : Config α τ) (fine : Site α τ → BlockPos → BlockState → Bool → Prop) (pos : BlockPos)
    (old new : BlockState) (s : Site α τ) :
    (facts.leaveWithBlock pos old new).WritesOnly write cfg fine s := by
  unfold leaveWithBlock
  split <;> trivial

namespace Site

variable {cfg : Config α τ}

/-- How reactions write while a write with the given limit for nested ones is made. -/
def nestedWriter (cfg : Config α τ) (depth : Nat) : BlockWriter α τ :=
  fun s pos state moved => writeBlock cfg depth s pos state { moved }

/-- The write, and all writes that are made in reaction to it, are of positions and states that
are `ok`. -/
def WritesOnly (ok : BlockPos → BlockState → Prop) (cfg : Config α τ) :
    Nat → Site α τ → BlockPos → BlockState → SetFlags → Prop
  | 0, _, _, _, _ => True
  | depth + 1, s, pos, state, flags =>
    let fine (s : Site α τ) (pos : BlockPos) (state : BlockState) (moved : Bool) : Prop :=
      WritesOnly ok cfg depth s pos state { moved }
    ok pos state ∧
      ∀ index previous stored, cfg.height.sectionIndex? pos.y = some index →
        s.storeBlock cfg index pos state = (some previous, stored) →
          (¬stored.level.isClient → (cfg.registry.onReplaced pos previous state
            flags.moved).WritesOnly (nestedWriter cfg depth) cfg fine stored) ∧
          ∀ replaced, stored.replaceBlock (nestedWriter cfg depth) cfg pos previous state
              flags.moved = replaced →
            replaced.storedKind? cfg index pos = some (cfg.facts.blockOf state) →
              ¬replaced.level.isClient → (cfg.registry.onAdded pos state previous
                flags.moved).WritesOnly (nestedWriter cfg depth) cfg fine replaced

/-- **What a stored state keeps, a write keeps**, however deep the writes made in reaction are
nested. -/
theorem writeBlock_keeps {P : Sections × Array (Option Heightmap) → Prop}
    {ok : BlockPos → BlockState → Prop}
    (hstore : ∀ (s : Site α τ) index pos state, P s.blocks → ok pos state →
      cfg.height.sectionIndex? pos.y = some index →
        P (s.storeBlock cfg index pos state).2.blocks)
    (depth : Nat) {s : Site α τ} {pos : BlockPos} {state : BlockState} {flags : SetFlags}
    (h : P s.blocks) (hw : s.WritesOnly ok cfg depth pos state flags) :
    P (writeBlock cfg depth s pos state flags).2.blocks := by
  induction depth generalizing s pos state flags with
  | zero => exact h
  | succ depth ih =>
    obtain ⟨hok, hreact⟩ := hw
    -- reactions write with the depth that is left, where the induction hypothesis holds
    have hrun : ∀ (r : Reaction α τ) {s : Site α τ}, P s.blocks →
        r.WritesOnly (nestedWriter cfg depth) cfg
          (fun s pos state moved => s.WritesOnly ok cfg depth pos state { moved }) s →
            P (r.run (nestedWriter cfg depth) cfg s).blocks :=
      Reaction.run_keeps fun _ _ _ _ h hw => ih h hw
    show P (s.writeWith (nestedWriter cfg depth) cfg pos state flags).2.blocks
    unfold writeWith
    cases hi : cfg.height.sectionIndex? pos.y with
    | none => exact h
    | some index =>
      have hstored := hstore s index pos state h hok hi
      simp only
      split
      · next heq => rwa [heq] at hstored
      · next previous stored heq =>
        rw [heq] at hstored
        obtain ⟨hreplace, hadd⟩ := hreact index previous stored hi heq
        have hreplaced : P (stored.replaceBlock (nestedWriter cfg depth) cfg pos previous state
            flags.moved).blocks := by
          unfold replaceBlock
          split
          · exact hrun _ hstored (BlockFacts.leaveWithBlock_writesOnly ..)
          · next hserver => exact hrun _ hstored (hreplace hserver)
        split
        · exact hreplaced
        · next hkind =>
          show P (Site.attachEntity _ cfg pos state).blocks
          rw [blocks_eq (ground_attachEntity _ pos state)]
          split
          · exact hreplaced
          · next hserver =>
            exact hrun _ hreplaced (hadd _ rfl (Decidable.not_not.1 hkind) hserver)

end Site

/-! ### One write after another -/

/-- A write, as it is asked for. -/
structure BlockWrite where
  pos : BlockPos
  state : BlockState
  flags : SetFlags := {}

namespace Site

variable {cfg : Config α τ}

/-- Make writes, one after another. -/
def setBlocks (cfg : Config α τ) (s : Site α τ) (writes : List BlockWrite) : Site α τ :=
  writes.foldl (fun s w => (s.setBlock cfg w.pos w.state w.flags).2) s

/-- The writes, and all writes that are made in reaction to them, are of positions and states that
are `ok`. -/
def OnlyWrites (ok : BlockPos → BlockState → Prop) (cfg : Config α τ) :
    Site α τ → List BlockWrite → Prop
  | _, [] => True
  | s, w :: rest =>
    s.WritesOnly ok cfg (cfg.nesting + 1) w.pos w.state w.flags ∧
      OnlyWrites ok cfg (s.setBlock cfg w.pos w.state w.flags).2 rest

/-- **What a stored state keeps, a run of writes keeps.** -/
theorem setBlocks_keeps {P : Sections × Array (Option Heightmap) → Prop}
    {ok : BlockPos → BlockState → Prop}
    (hstore : ∀ (s : Site α τ) index pos state, P s.blocks → ok pos state →
      cfg.height.sectionIndex? pos.y = some index →
        P (s.storeBlock cfg index pos state).2.blocks)
    (writes : List BlockWrite) {s : Site α τ} (h : P s.blocks) (hw : s.OnlyWrites ok cfg writes) :
    P (s.setBlocks cfg writes).blocks := by
  induction writes generalizing s with
  | nil => exact h
  | cons w rest ih => exact ih (writeBlock_keeps hstore _ h hw.1) hw.2

/-- Writes keep the sections sound, those made in reaction included. -/
theorem soundSections_setBlocks (hair : cfg.facts.isAir .air) {s : Site α τ}
    (h : cfg.SoundSections s.chunk.sections) (writes : List BlockWrite)
    (hw : s.OnlyWrites (fun _ state => state.FitsIn cfg.globalBits) cfg writes) :
    cfg.SoundSections (s.setBlocks cfg writes).chunk.sections := by
  refine setBlocks_keeps (P := fun blocks => cfg.SoundSections blocks.1)
    (fun s index pos state h hs hi => ?_) writes h hw
  have hstored := storeBlock_spec h hair hi hs
  generalize s.storeBlock cfg index pos state = out at hstored ⊢
  cases hstored with
  | skipped _ _ => exact h
  | same _ hsound _ _ => exact hsound
  | changed _ _ _ hsound _ _ _ => exact hsound

/-- Unless told otherwise, a block that is replaced takes its entity along if another kind of block
comes. -/
theorem replaceBlock_default (hdefault : cfg.DefaultReactions) (write : BlockWriter α τ)
    (s : Site α τ) (pos : BlockPos) (old new : BlockState) (moved : Bool) :
    s.replaceBlock write cfg pos old new moved =
      if cfg.facts.hasEntity old ∧ cfg.facts.blockOf old ≠ cfg.facts.blockOf new then
        (s.removeEntity pos).2
      else s := by
  unfold replaceBlock
  rw [hdefault.onReplaced, ite_self]
  unfold BlockFacts.leaveWithBlock
  split <;> rfl

/-- When blocks react as they do unless told otherwise, a write makes no other writes. -/
theorem writesOnly_of_default {ok : BlockPos → BlockState → Prop} (hdefault : cfg.DefaultReactions)
    (depth : Nat) {s : Site α τ} {pos : BlockPos} {state : BlockState} {flags : SetFlags}
    (h : ok pos state) : s.WritesOnly ok cfg depth pos state flags := by
  cases depth with
  | zero => trivial
  | succ depth =>
    refine ⟨h, fun index previous stored _ _ => ⟨fun _ => ?_, fun replaced _ _ _ => ?_⟩⟩
    · rw [hdefault.onReplaced]
      exact BlockFacts.leaveWithBlock_writesOnly ..
    · rw [hdefault.onAdded]
      trivial

/-- When all positions and states are `ok`, writes may do as they please. -/
theorem writesOnly_of_all {ok : BlockPos → BlockState → Prop} (h : ∀ pos state, ok pos state)
    (depth : Nat) (s : Site α τ) (pos : BlockPos) (state : BlockState) (flags : SetFlags) :
    s.WritesOnly ok cfg depth pos state flags := by
  induction depth generalizing s pos state flags with
  | zero => trivial
  | succ depth ih =>
    have hreaction : ∀ (r : Reaction α τ) s, r.WritesOnly (nestedWriter cfg depth) cfg
        (fun s pos state moved => s.WritesOnly ok cfg depth pos state { moved }) s := by
      intro r
      induction r with
      | done => intro _; trivial
      | setBlock pos state moved next ihr => exact fun s => ⟨ih s pos state _, ihr _ _⟩
      | removeEntity pos next ihr => exact fun s => ihr _ _
      | addEntity entity next ihr => exact fun s => ihr _
      | look next ihr => exact fun s => ihr _ _
    exact ⟨h pos state, fun _ _ _ _ _ => ⟨fun _ => hreaction _ _, fun _ _ _ _ => hreaction _ _⟩⟩

theorem onlyWrites_of_all {ok : BlockPos → BlockState → Prop} (h : ∀ pos state, ok pos state)
    (writes : List BlockWrite) (s : Site α τ) : s.OnlyWrites ok cfg writes := by
  induction writes generalizing s with
  | nil => trivial
  | cons w rest ih => exact ⟨writesOnly_of_all h .., ih _⟩

theorem onlyWrites_of_default {ok : BlockPos → BlockState → Prop} (hdefault : cfg.DefaultReactions)
    (writes : List BlockWrite) (h : ∀ w ∈ writes, ok w.pos w.state) {s : Site α τ} :
    s.OnlyWrites ok cfg writes := by
  induction writes generalizing s with
  | nil => trivial
  | cons w rest ih =>
    exact ⟨writesOnly_of_default hdefault _ (h w List.mem_cons_self),
      ih fun w hw => h w (List.mem_cons_of_mem _ hw)⟩

end Site

/-! ### A small world -/

/-- A world of one section, with air and stone that do nothing by themselves. -/
def stoneWorld : Config Unit Unit where
  registry :=
    { stateCount := 2
      blockOf := fun s => ⟨s.id⟩
      isAir := fun s => s == .air
      fluidState := fun _ => .empty
      fluidOf := fun _ => ⟨0⟩
      blocksMovement := fun s => s != .air
      hasEntity := fun _ => false
      create := fun _ _ => none
      instantiate := fun _ _ _ => none
      supports := fun _ _ => false }
  height := default

theorem stoneWorld_default : stoneWorld.DefaultReactions :=
  ⟨fun _ _ _ _ => rfl, fun _ _ _ _ => rfl⟩

end VoxelChunk
