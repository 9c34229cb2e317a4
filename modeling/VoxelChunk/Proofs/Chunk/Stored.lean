import VoxelChunk.Chunk.Write
import VoxelChunk.Proofs.Chunk.Heights

/-!
# Storing a state

What is stored for blocks follows from the states in the sections alone, whatever the counters
say. One equation tells what is stored for every block once a state has been stored for one.

## Main definitions

* `Site.stateOf` — the state stored for a block.
* `Site.Storing` — all that can come of storing a state.
* `Site.holdings` — what a chunk holds of block entities.

## Main results

* `Site.storing` — what can come of storing a state.
* `Site.storeBlock_states` — what is stored for every block afterwards.
* `Site.storeBlock_frame`, `Site.holdings_storeBlock` — block entities are not concerned.
-/

namespace VoxelChunk

variable {α τ : Type}

/-- What is read of a block is air, or it is read in a section. -/
theorem Chunk.eq_air_or_of_blockAt {cfg : Config α τ} {c : Chunk α} {pos : BlockPos}
    {state : BlockState} (hread : c.blockAt cfg pos = .ok state) :
    state = .air ∨ ∃ (index : Nat) (s : Section),
      c.sections[index]?.join = some s ∧ s.get pos = .ok state := by
  unfold blockAt at hread
  cases hs : c.occupiedSection? cfg pos with
  | none =>
    rw [hs] at hread
    cases hread
    exact .inl rfl
  | some s =>
    rw [hs] at hread
    obtain ⟨index, -, hindex⟩ := Option.bind_eq_some_iff.1 (Option.filter_eq_some_iff.1 hs).1
    refine .inr ⟨index, s, hindex, ?_⟩
    simp only at hread
    cases hget : s.get pos with
    | error cause =>
      rw [hget] at hread
      cases hread
    | ok found =>
      rw [hget] at hread
      cases hread
      rfl

/-- Whatever the counters say, the state that is shown for a block fits the cells. -/
theorem Chunk.fits_of_blockAt {cfg : Config α τ} {c : Chunk α} (h : cfg.SoundStates c.sections)
    {pos : BlockPos} {state : BlockState} (hread : c.blockAt cfg pos = .ok state) :
    state.FitsIn cfg.globalBits := by
  rcases eq_air_or_of_blockAt hread with rfl | ⟨index, s, hs, hget⟩
  · exact BlockState.air_fitsIn _
  · have hsound := h.sound index s hs
    rw [hsound.get_eq] at hget
    cases hget
    exact hsound.stateAt_fits pos

/-! ### One block -/

/-- Two positions are of one block of a chunk, whatever chunks they lie in. -/
def BlockPos.SamePlace (p q : BlockPos) : Prop :=
  p.x % 16 = q.x % 16 ∧ p.y = q.y ∧ p.z % 16 = q.z % 16

instance (p q : BlockPos) : Decidable (p.SamePlace q) :=
  inferInstanceAs (Decidable (p.x % 16 = q.x % 16 ∧ p.y = q.y ∧ p.z % 16 = q.z % 16))

/-- A place in a column is one block. -/
theorem ChunkPos.eq_of_samePlace {column : ChunkPos} {p q : BlockPos}
    (hp : column.contains p = true) (hq : column.contains q = true) (h : p.SamePlace q) :
    p = q := by
  obtain ⟨hx, hy, hz⟩ := h
  rw [contains, beq_iff_eq] at hp hq
  exact BlockPos.eq_of_ofBlock_eq (hp.trans hq.symm) hx hy hz

namespace Site

variable {cfg : Config α τ} {s : Site α τ} {pos : BlockPos} {state : BlockState} {index : Nat}

/-- The state stored for a block, of which only the place in the chunk matters. -/
def stateOf (s : Site α τ) (cfg : Config α τ) (pos : BlockPos) : BlockState :=
  columnState s.chunk.sections cfg.height pos.x pos.y pos.z

/-! ### What can come of it -/

/-- The outcome and the section when a state is written to the one with an index, or to one of air
if it is absent. -/
def written (s : Site α τ) (cfg : Config α τ) (index : Nat) (pos : BlockPos) (state : BlockState) :
    Except StorageError BlockState × Section :=
  (s.chunk.sections[index]?.join.getD (.empty cfg.globalBits)).set cfg.facts pos state

/-- The sections with the written one in its place. -/
def putWritten (s : Site α τ) (cfg : Config α τ) (index : Nat) (pos : BlockPos)
    (state : BlockState) : Sections :=
  s.chunk.sections.setIfInBounds index (some (s.written cfg index pos state).2)

theorem join_putWritten {s : Site α τ} {index : Nat} (h : index < s.chunk.sections.size)
    (cfg : Config α τ) (pos : BlockPos) (state : BlockState) (i : Nat) :
    (s.putWritten cfg index pos state)[i]?.join =
      if i = index then some (s.written cfg index pos state).2 else s.chunk.sections[i]?.join :=
  join_setIfInBounds h

/-- All that can come of storing a state, whatever is there: outcome, chunk and level. -/
inductive Storing (cfg : Config α τ) (s : Site α τ) (index : Nat) (pos : BlockPos)
    (state : BlockState) : Option BlockState × Site α τ → Prop
  /-- Air is not stored in an absent section. -/
  | skipped : s.chunk.sections[index]?.join = none → cfg.facts.isAir state →
    Storing cfg s index pos state (none, s)
  /-- The state before cannot be read. -/
  | failed (cause : StorageError) (notices : Array Notice) :
    (s.written cfg index pos state).1 = .error cause →
    Storing cfg s index pos state (none,
      { chunk := { s.chunk with sections := s.putWritten cfg index pos state }
        level := { s.level with notices } })
  /-- The same state was there already, but the section may have been made. -/
  | same : (s.written cfg index pos state).1 = .ok state →
    Storing cfg s index pos state (none,
      { s with chunk := { s.chunk with sections := s.putWritten cfg index pos state } })
  /-- Another state was there. It is told if the section is empty unlike before. -/
  | changed (previous : BlockState) (events : Option (Array Event)) (notices : Array Notice) :
    (s.written cfg index pos state).1 = .ok previous → previous ≠ state →
    events = (if (s.chunk.sections[index]?.join.getD (.empty cfg.globalBits)).isEmpty =
        (s.written cfg index pos state).2.isEmpty then s
      else s.push (.sectionStatus s.chunk.pos (cfg.height.sectionCoordOf index)
        (s.written cfg index pos state).2.isEmpty)).level.events →
    Storing cfg s index pos state (some previous,
      { chunk := { s.chunk with
          sections := s.putWritten cfg index pos state
          heightmaps := toldHeightmaps cfg (s.putWritten cfg index pos state) pos state
            s.chunk.heightmaps }
        level := { s.level with events, notices } })

/-- **What can come of storing a state.** -/
theorem storing (s : Site α τ) (cfg : Config α τ) (index : Nat) (pos : BlockPos)
    (state : BlockState) : Storing cfg s index pos state (s.storeBlock cfg index pos state) := by
  unfold storeBlock Chunk.section?
  simp only
  split
  · next hskip =>
    rw [Bool.and_eq_true, Option.isNone_iff_eq_none] at hskip
    exact .skipped hskip.1 hskip.2
  · rw [show (s.chunk.sections[index]?.join.getD (.empty cfg.globalBits)).set cfg.facts pos state =
      s.written cfg index pos state from rfl]
    rcases hwritten : s.written cfg index pos state with ⟨outcome, after⟩
    have hread : (s.written cfg index pos state).1 = outcome := by rw [hwritten]
    have hafter : (s.written cfg index pos state).2 = after := by rw [hwritten]
    have hput : s.chunk.sections.setIfInBounds index (some after) =
        s.putWritten cfg index pos state := by
      unfold putWritten
      rw [hafter]
    simp only [hput]
    cases outcome with
    | error cause => exact .failed cause _ hread
    | ok previous =>
      simp only
      split
      · next heq => exact .same (heq ▸ hread)
      · next hne =>
        obtain ⟨notices, htrack⟩ := trackHeightmaps_eq ({ s with chunk := { s.chunk with
          sections := s.putWritten cfg index pos state } } : Site α τ) cfg pos state
        simp only [htrack]
        split
        · next hempty =>
          exact .changed previous _ notices hread hne (by rw [hafter, if_pos hempty])
        · next hempty =>
          refine .changed previous _ notices hread hne ?_
          rw [hafter, if_neg hempty]
          rfl

/-! ### What is stored -/

/-- What becomes of the stored states when a state is stored. -/
structure StoresState (cfg : Config α τ) (s : Site α τ) (index : Nat) (pos : BlockPos)
    (state : BlockState) (out : Option BlockState × Site α τ) : Prop where
  sound : cfg.SoundStates out.2.chunk.sections
  /-- Sections never become absent. -/
  present : ∀ i : Nat, s.chunk.sections[i]?.join.isSome → out.2.chunk.sections[i]?.join.isSome
  unchanged : out.1 = none → ∀ q, out.2.stateOf cfg q = s.stateOf cfg q
  previous : ∀ previous, out.1 = some previous →
    previous = s.stateOf cfg pos ∧ previous ≠ state ∧ out.2.chunk.sections[index]?.join.isSome
  changed : out.1.isSome → ∀ q,
    out.2.stateOf cfg q = if q.SamePlace pos then state else s.stateOf cfg q

/-- **What is stored for every block** once a state has been stored for one. -/
theorem storeBlock_states (h : cfg.SoundStates s.chunk.sections)
    (hi : cfg.height.sectionIndex? pos.y = some index) (hs : state.FitsIn cfg.globalBits) :
    StoresState cfg s index pos state (s.storeBlock cfg index pos state) := by
  obtain ⟨hout, hsound, hset⟩ := h.set_spec hi hs
  change cfg.SoundStates (s.putWritten cfg index pos state) at hsound
  change Sections.Replaced _ _ _ _ (s.putWritten cfg index pos state) at hset
  have hlt : index < s.chunk.sections.size := by
    rw [h.size]
    exact (HeightLimit.sectionIndex?_eq_some_iff.1 hi).1
  have hpresent : ∀ i : Nat, s.chunk.sections[i]?.join.isSome →
      (s.putWritten cfg index pos state)[i]?.join.isSome := by
    intro i hi
    rw [join_putWritten hlt]
    split
    · rfl
    · exact hi
  have hread : ∀ previous, (s.written cfg index pos state).1 = .ok previous →
      previous = s.stateOf cfg pos :=
    fun previous hread => Except.ok.inj (hread.symm.trans hout)
  have hstoring := storing s cfg index pos state
  generalize s.storeBlock cfg index pos state = out at hstoring ⊢
  cases hstoring with
  | skipped => exact ⟨h, fun _ hi => hi, fun _ _ => rfl, nofun, nofun⟩
  | failed cause notices hfailed => exact nomatch hout.symm.trans hfailed
  | same hsame =>
    exact ⟨hsound, hpresent, fun _ q => hset.of_eq (hread state hsame).symm q.x q.y q.z, nofun,
      nofun⟩
  | changed previous events notices hprevious hne =>
    refine ⟨hsound, hpresent, nofun, ?_, fun _ q => hset q.x q.y q.z⟩
    rintro _ ⟨⟩
    refine ⟨hread previous hprevious, hne, ?_⟩
    rw [join_putWritten hlt, if_pos rfl]
    rfl

/-- The kind of the block that is stored at a position. -/
theorem storedKind?_of_soundStates (h : cfg.SoundStates s.chunk.sections)
    (hi : cfg.height.sectionIndex? pos.y = some index)
    (hthere : s.chunk.sections[index]?.join.isSome) :
    s.storedKind? cfg index pos = some (cfg.facts.blockOf (s.stateOf cfg pos)) := by
  obtain ⟨sec, hsec⟩ := Option.isSome_iff_exists.1 hthere
  unfold storedKind? Chunk.section? stateOf
  rw [hsec, Option.bind_some, (h.sound index sec hsec).get_eq, columnState_of_section hi hsec]
  rfl

/-! ### Block entities are not concerned -/

/-- What a chunk holds of block entities and what they depend on, apart from the blocks. -/
def holdings (s : Site α τ) : (ChunkPos × Bool × Bool) ×
    Keyed BlockPos (BlockEntity α) × Keyed BlockPos Compound × Option LentEntity ×
      Keyed BlockPos TickerHandle × Tickers τ :=
  ((s.chunk.pos, s.chunk.loaded, s.level.isClient), s.chunk.entities, s.chunk.pending,
    s.chunk.lent, s.chunk.tickers, s.level.tickers)

/-- Storing a state concerns blocks and heightmaps, and what is told about it. -/
theorem storeBlock_frame (s : Site α τ) (cfg : Config α τ) (index : Nat) (pos : BlockPos)
    (state : BlockState) : ∃ sections heightmaps events notices,
      (s.storeBlock cfg index pos state).2 =
        { chunk := { s.chunk with sections, heightmaps }
          level := { s.level with events, notices } } := by
  have hstoring := storing s cfg index pos state
  generalize s.storeBlock cfg index pos state = out at hstoring ⊢
  cases hstoring <;> exact ⟨_, _, _, _, rfl⟩

/-- Storing a state leaves the block entities alone. -/
theorem holdings_storeBlock (s : Site α τ) (cfg : Config α τ) (index : Nat) (pos : BlockPos)
    (state : BlockState) : (s.storeBlock cfg index pos state).2.holdings = s.holdings := by
  obtain ⟨sections, heightmaps, events, notices, heq⟩ := storeBlock_frame s cfg index pos state
  rw [heq]
  rfl

end Site

end VoxelChunk
