import VoxelChunk.Proofs.Chunk.Replay

/-!
# A write changes one block or nothing

Where blocks react by default, a write to a chunk is a change of the stored state of one block. It
is refused outside the height limit, where the state is stored already, and where air would be put
into an absent section, and a write that is refused leaves chunk and level exactly as they were.
What is shown for a block also depends on the other blocks of its section, as sections that hold
only air show plain air.

## Main definitions

* `Site.Refuses` — why a write may be refused.
* `Site.PointWrite` — what comes of a write.
* `Site.Occupied` — some block of the section is not air.

## Main results

* `Site.storeBlock_of_refuses` — storing a state that is refused changes nothing.
* `Site.blockAt_spec` — what is shown for a block.
* `Site.setBlock_pointwise` — writes to a chunk that was made by such writes.
-/

namespace VoxelChunk

variable {α τ : Type}

namespace Site

variable {cfg : Config α τ} {s : Site α τ} {pos : BlockPos} {state : BlockState} {index : Nat}

/-! ### Writes that are refused -/

/-- The block is outside the height limit, or has the state already, or is in an absent section and
the state is air. -/
def Refuses (s : Site α τ) (cfg : Config α τ) (pos : BlockPos) (state : BlockState) : Prop :=
  ¬(cfg.height.bottom ≤ pos.y ∧ pos.y < cfg.height.bottom + cfg.height.height) ∨
    s.stateOf cfg pos = state ∨
      (cfg.height.sectionIndex? pos.y).bind s.chunk.section? = none ∧ cfg.facts.isAir state

/-- **Storing a state that is refused changes nothing.** -/
theorem storeBlock_of_refuses (h : cfg.SoundStates s.chunk.sections) (hair : cfg.facts.isAir .air)
    (hi : cfg.height.sectionIndex? pos.y = some index) (hrefuses : s.Refuses cfg pos state) :
    s.storeBlock cfg index pos state = (none, s) := by
  unfold Refuses at hrefuses
  rw [hi, Option.bind_some] at hrefuses
  have hinside := HeightLimit.exists_sectionIndex?_iff.1 ⟨index, hi⟩
  replace hrefuses := hrefuses.resolve_left (not_not_intro hinside)
  unfold storeBlock
  cases hsec : s.chunk.section? index with
  | none =>
    -- plain air is all that an absent section holds
    have hskip : cfg.facts.isAir state := by
      rcases hrefuses with hsame | ⟨-, hskip⟩
      · rw [← hsame, stateOf, columnState_of_absent hi hsec]
        exact hair
      · exact hskip
    simp [hskip]
  | some sec =>
    have hsame : sec.stateAt pos = state := by
      rcases hrefuses with hsame | ⟨habsent, -⟩
      · rwa [stateOf, columnState_of_section hi hsec] at hsame
      · simp [hsec] at habsent
    have hset := (h.sound index sec hsec).set_stateAt cfg.facts pos
    rw [hsame] at hset
    simp only [Option.isNone_some, Bool.false_and, Bool.false_eq_true, if_false, Option.getD_some,
      hset, if_true]
    rw [← hsec, Chunk.section?, setIfInBounds_join]

/-- A state that is not refused is stored. -/
theorem storeBlock_of_not_refuses (h : cfg.SoundSections s.chunk.sections)
    (hair : cfg.facts.isAir .air) (hi : cfg.height.sectionIndex? pos.y = some index)
    (hs : state.FitsIn cfg.globalBits) (haccepts : ¬s.Refuses cfg pos state) :
    (s.storeBlock cfg index pos state).1 = some (s.stateOf cfg pos) := by
  unfold Refuses at haccepts
  rw [hi, Option.bind_some] at haccepts
  have hstored := storeBlock_spec h hair hi hs
  generalize s.storeBlock cfg index pos state = out at hstored ⊢
  cases hstored with
  | skipped habsent hskip => exact absurd (.inr (.inr ⟨habsent, hskip⟩)) haccepts
  | same _ _ _ hsame => exact absurd (.inr (.inl hsame)) haccepts
  | changed _ _ _ _ _ _ _ => rfl

/-! ### Writes -/

/-- The events do not tell of a write to a block. -/
def TellsNoWrite (events : List Event) : Prop :=
  ∀ pos previous new flags, Event.block pos previous new flags ∉ events

/-- What comes of a write: it is refused and changes nothing, or the stored state of one block
changes, which is told last. -/
structure PointWrite (cfg : Config α τ) (s : Site α τ) (pos : BlockPos) (state : BlockState)
    (flags : SetFlags) (out : Option BlockState × Site α τ) : Prop where
  none_iff : out.1 = none ↔ s.Refuses cfg pos state
  unchanged : out.1 = none → out.2 = s
  previous : ∀ previous, out.1 = some previous → previous = s.stateOf cfg pos
  stateOf : out.1.isSome → ∀ q, ChunkPos.ofBlock q = ChunkPos.ofBlock pos →
    out.2.stateOf cfg q = if q = pos then state else s.stateOf cfg q
  needsSaving : out.1.isSome → out.2.chunk.needsSaving
  events : out.1.isSome → ∃ others, TellsNoWrite others ∧
    s.Adds out.2 (others ++ [.block pos (s.stateOf cfg pos) state flags])

theorem tellsNoWrite_of_lastState? {events : List Event}
    (h : ∀ pos, lastState? events pos = none) : TellsNoWrite events := by
  intro pos previous new flags hmem
  have hnone := h pos
  rw [lastState?, List.getLast?_eq_none_iff, List.filterMap_eq_nil_iff] at hnone
  have htold := hnone _ hmem
  rw [Event.stateAt?, if_pos rfl] at htold
  cases htold

/-- The block that is replaced, and then the entity of the new one, say nothing about blocks. -/
theorem silent_replaceBlock (hdefault : cfg.DefaultReactions) (write : BlockWriter α τ)
    (s : Site α τ) (pos : BlockPos) (old new : BlockState) (moved : Bool) :
    s.Silent (s.replaceBlock write cfg pos old new moved) := by
  rw [replaceBlock_default hdefault]
  split
  · exact silent_removeEntity s pos
  · exact .refl s

theorem silent_attachEntity (cfg : Config α τ) (s : Site α τ) (pos : BlockPos)
    (state : BlockState) :
    s.Silent (s.attachEntity cfg pos state) := by
  have hsteps : EntitySteps cfg (fun _ => True) (fun _ => True) s (s.attachEntity cfg pos state) :=
    steps_attachEntity (cfg.makes_true _) s trivial state
  exact hsteps.silent

/-- A write that is stored is announced, and meanwhile nothing else is stored. -/
theorem writeWith_of_stored (hdefault : cfg.DefaultReactions) (write : BlockWriter α τ)
    (hi : cfg.height.sectionIndex? pos.y = some index) {previous : BlockState} {stored : Site α τ}
    (hstored : StoresState cfg s index pos state (some previous, stored))
    (heq : s.storeBlock cfg index pos state = (some previous, stored)) (flags : SetFlags) :
    ∃ t, stored.Silent t ∧ s.writeWith write cfg pos state flags =
      (some previous, ({ t with chunk := { t.chunk with needsSaving := true } } : Site α τ).push
        (.block pos previous state flags)) := by
  have hreplaced := silent_replaceBlock hdefault write stored pos previous state flags.moved
  -- the kind of block is as written, as nothing has been stored meanwhile
  have hsections : (stored.replaceBlock write cfg pos previous state flags.moved).chunk.sections =
      stored.chunk.sections := congrArg Prod.fst hreplaced.blocks
  have hkind : (stored.replaceBlock write cfg pos previous state flags.moved).storedKind? cfg index
      pos = some (cfg.facts.blockOf state) := by
    rw [storedKind?_of_soundStates (hsections ▸ hstored.sound) hi
      (hsections ▸ (hstored.previous previous rfl).2.2), hreplaced.stateOf_eq,
      hstored.changed rfl, if_pos ⟨rfl, rfl, rfl⟩]
  refine ⟨_, hreplaced.trans (silent_attachEntity cfg _ pos state), ?_⟩
  unfold writeWith
  rw [hi]
  simp only [heq]
  rw [if_neg (not_not_intro hkind), hdefault.onAdded]
  simp only [Reaction.run, ite_self]

/-- **A write changes one block or nothing.** -/
theorem pointWrite_writeWith (hdefault : cfg.DefaultReactions) (hair : cfg.facts.isAir .air)
    (h : cfg.SoundSections s.chunk.sections) (hs : state.FitsIn cfg.globalBits)
    (write : BlockWriter α τ) (flags : SetFlags) :
    PointWrite cfg s pos state flags (s.writeWith write cfg pos state flags) := by
  by_cases hrefuses : s.Refuses cfg pos state
  · have hnothing : s.writeWith write cfg pos state flags = (none, s) := by
      unfold writeWith
      cases hi : cfg.height.sectionIndex? pos.y with
      | none => rfl
      | some index => simp only [storeBlock_of_refuses h.soundStates hair hi hrefuses]
    rw [hnothing]
    exact ⟨iff_of_true rfl hrefuses, fun _ => rfl, nofun, nofun, nofun, nofun⟩
  · have hinside : ∃ index, cfg.height.sectionIndex? pos.y = some index :=
      HeightLimit.exists_sectionIndex?_iff.2 (Decidable.not_not.1 fun h => hrefuses (.inl h))
    obtain ⟨index, hi⟩ := hinside
    have hout := storeBlock_of_not_refuses h hair hi hs hrefuses
    have hstored := storeBlock_states h.soundStates hi hs
    obtain ⟨news, hadds, hnone⟩ := adds_storeBlock s cfg index pos state
    generalize hstore : s.storeBlock cfg index pos state = out at hout hstored hadds
    obtain ⟨_, stored⟩ := out
    cases hout
    obtain ⟨t, hsilent, hwrite⟩ := writeWith_of_stored hdefault write hi hstored hstore flags
    obtain ⟨news', hadds', hnone'⟩ := hsilent.adds
    rw [hwrite]
    refine ⟨iff_of_false nofun hrefuses, nofun, fun _ heq => (Option.some.inj heq).symm,
      fun _ q hq => ?_, fun _ => rfl, fun _ => ⟨news ++ news', ?_, ?_⟩⟩
    · show t.stateOf cfg q = _
      rw [hsilent.stateOf_eq]
      have hcolumn : (ChunkPos.ofBlock pos).contains pos = true := beq_self_eq_true _
      exact hstored.stateOf_eq hcolumn (beq_iff_eq.2 hq)
    · refine tellsNoWrite_of_lastState? fun q => ?_
      rw [lastState?_append, hnone, hnone', Option.or_none]
    · exact (hadds.trans hadds').trans (adds_push _ _)

/-! ### Shown blocks -/

/-- Some block of the section is not air. -/
def Occupied (s : Site α τ) (cfg : Config α τ) (pos : BlockPos) : Prop :=
  ∃ q, ChunkPos.ofBlock q = ChunkPos.ofBlock pos ∧ q.y / 16 = pos.y / 16 ∧
    ¬cfg.facts.isAir (s.stateOf cfg q)

/-- A block at a place of the section of another. -/
private def shiftedTo (pos q : BlockPos) : BlockPos :=
  ⟨pos.x / 16 * 16 + q.x % 16, pos.y / 16 * 16 + q.y % 16, pos.z / 16 * 16 + q.z % 16⟩

/-- A section that is present is occupied if its counters say that it is not empty. -/
theorem occupied_iff_of_section (h : cfg.SoundSections s.chunk.sections)
    (hi : cfg.height.sectionIndex? pos.y = some index) {sec : Section}
    (hsec : s.chunk.section? index = some sec) : s.Occupied cfg pos ↔ ¬sec.isEmpty := by
  have hstate : ∀ q : BlockPos, q.y / 16 = pos.y / 16 → s.stateOf cfg q = sec.stateAt q := by
    intro q hq
    have hqi : cfg.height.sectionIndex? q.y = some index := by
      rw [HeightLimit.sectionIndex?_eq_some_iff] at hi ⊢
      rwa [hq]
    exact columnState_of_section hqi hsec
  rw [(h.sound index sec hsec).isEmpty_iff, not_forall]
  constructor
  · rintro ⟨q, -, hq, hstored⟩
    exact ⟨q, hstate q hq ▸ hstored⟩
  · rintro ⟨q, hstored⟩
    have hcell : cellIndex (shiftedTo pos q) = cellIndex q := by
      rw [cellIndex_eq_iff]
      simp only [shiftedTo]
      omega
    have hlayer : (shiftedTo pos q).y / 16 = pos.y / 16 := by
      simp only [shiftedTo]
      omega
    refine ⟨shiftedTo pos q, ?_, hlayer, ?_⟩
    · simp only [ChunkPos.ofBlock, ChunkPos.mk.injEq, shiftedTo]
      omega
    · rw [hstate _ hlayer, Section.stateAt, hcell]
      exact hstored

/-- Without a section there is only air. -/
theorem not_occupied (hair : cfg.facts.isAir .air)
    (habsent : (cfg.height.sectionIndex? pos.y).bind s.chunk.section? = none) :
    ¬s.Occupied cfg pos := by
  rintro ⟨q, -, hq, hstored⟩
  have hindex : cfg.height.sectionIndex? q.y = cfg.height.sectionIndex? pos.y := by
    unfold HeightLimit.sectionIndex? sectionCoord
    rw [hq]
  have hplain : s.stateOf cfg q = .air := by
    cases hi : cfg.height.sectionIndex? q.y with
    | none => exact columnState_of_none hi
    | some index =>
      rw [← hindex, hi, Option.bind_some] at habsent
      exact columnState_of_absent hi habsent
  exact hstored (hplain ▸ hair)

/-- **What is shown for a block** is what is stored in an occupied section, and plain air in any
other and outside the height limit. -/
theorem blockAt_spec (h : cfg.SoundSections s.chunk.sections) (hair : cfg.facts.isAir .air)
    (pos : BlockPos) :
    (s.Occupied cfg pos → s.chunk.blockAt cfg pos = .ok (s.stateOf cfg pos)) ∧
      (¬s.Occupied cfg pos → s.chunk.blockAt cfg pos = .ok .air) := by
  unfold Chunk.blockAt Chunk.occupiedSection?
  cases hi : cfg.height.sectionIndex? pos.y with
  | none =>
    have hnot : ¬s.Occupied cfg pos := not_occupied hair (by rw [hi]; rfl)
    exact ⟨fun hoccupied => absurd hoccupied hnot, fun _ => rfl⟩
  | some index =>
    rw [Option.bind_some]
    cases hsec : s.chunk.section? index with
    | none =>
      have hnot : ¬s.Occupied cfg pos := not_occupied hair (by rw [hi]; exact hsec)
      exact ⟨fun hoccupied => absurd hoccupied hnot, fun _ => rfl⟩
    | some sec =>
      rw [occupied_iff_of_section h hi hsec, stateOf, columnState_of_section hi hsec]
      cases hempty : sec.isEmpty with
      | true =>
        rw [Option.filter_some, hempty]
        exact ⟨fun hne => absurd rfl hne, fun _ => rfl⟩
      | false =>
        rw [Option.filter_some, hempty]
        refine ⟨fun _ => ?_, fun hne => absurd nofun hne⟩
        simp only [Bool.not_false, if_true, (h.sound index sec hsec).get_eq]
        rfl

/-! ### Runs of writes -/

/-- **A write is a change of one block or nothing at all**, in a chunk that was made by such writes,
and what is shown for a block is what is stored unless its section holds only air. -/
theorem setBlock_pointwise (hdefault : cfg.DefaultReactions) (hair : cfg.facts.isAir .air)
    {init : ChunkInit α} (hinit : init.sections = none)
    (hs : s.chunk.sections = (Chunk.new cfg init).sections) (writes : List BlockWrite)
    (hw : ∀ w ∈ writes, w.state.FitsIn cfg.globalBits) :
    (∀ pos state flags, state.FitsIn cfg.globalBits →
        PointWrite cfg (s.setBlocks cfg writes) pos state flags
          ((s.setBlocks cfg writes).setBlock cfg pos state flags)) ∧
      ∀ q, ((s.setBlocks cfg writes).Occupied cfg q → (s.setBlocks cfg writes).chunk.blockAt cfg q =
          .ok ((s.setBlocks cfg writes).stateOf cfg q)) ∧
        (¬(s.setBlocks cfg writes).Occupied cfg q →
          (s.setBlocks cfg writes).chunk.blockAt cfg q = .ok .air) := by
  have hnew : cfg.SoundSections s.chunk.sections := by
    rw [hs, Chunk.sections_new hinit]
    exact Config.soundSections_replicate cfg
  have hsound := soundSections_setBlocks hair hnew writes (onlyWrites_of_default hdefault writes hw)
  exact ⟨fun pos state flags hstate => pointWrite_writeWith hdefault hair hsound hstate _ flags,
    blockAt_spec hsound hair⟩

end Site

/-- A world with stone and two kinds of air. -/
def caveWorld : Config Unit Unit where
  registry :=
    { toBlockFacts := { stoneWorld.facts with stateCount := 3, isAir := fun s => s != ⟨1⟩ }
      create := fun _ _ => none
      instantiate := fun _ _ _ => none
      supports := fun _ _ => false }
  height := default

/-- A new chunk of that world, whose events are kept. -/
def newCave : Site Unit Unit :=
  ⟨Chunk.new caveWorld { pos := ⟨0, 0⟩ }, { isClient := false, events := some #[] }⟩

/-- Stone, and the other kind of air beside it. -/
def caveWrites : List BlockWrite :=
  [{ pos := ⟨1, 2, 3⟩, state := ⟨1⟩ }, { pos := ⟨2, 2, 3⟩, state := ⟨2⟩ }]

/-- The other kind of air is shown beside stone, and in its place it is not written once more. -/
theorem setBlock_cave : (∀ w ∈ caveWrites, w.state.FitsIn caveWorld.globalBits) ∧
    (newCave.setBlocks caveWorld caveWrites).chunk.blockAt caveWorld ⟨2, 2, 3⟩ = .ok ⟨2⟩ ∧
      ((newCave.setBlocks caveWorld caveWrites).setBlock caveWorld ⟨2, 2, 3⟩ ⟨2⟩ {}).1 = none ∧
        ((newCave.setBlocks caveWorld caveWrites).setBlock caveWorld ⟨2, 2, 3⟩ ⟨2⟩ {}).2 =
          newCave.setBlocks caveWorld caveWrites := by
  have hfits : ∀ w ∈ caveWrites, w.state.FitsIn caveWorld.globalBits := by decide
  have hdefault : caveWorld.DefaultReactions := ⟨fun _ _ _ _ => rfl, fun _ _ _ _ => rfl⟩
  have hnew : newCave.chunk.sections = (Chunk.new caveWorld { pos := ⟨0, 0⟩ }).sections := rfl
  obtain ⟨hwrite, hshown⟩ := Site.setBlock_pointwise hdefault rfl rfl hnew caveWrites hfits
  have hstone : (newCave.setBlocks caveWorld caveWrites).stateOf caveWorld ⟨1, 2, 3⟩ = ⟨1⟩ := by
    decide +kernel
  have hair : (newCave.setBlocks caveWorld caveWrites).stateOf caveWorld ⟨2, 2, 3⟩ = ⟨2⟩ := by
    decide +kernel
  have hpoint := hwrite ⟨2, 2, 3⟩ ⟨2⟩ {} (by decide)
  have hnone := hpoint.none_iff.2 (.inr (.inl hair))
  have hread := (hshown ⟨2, 2, 3⟩).1 ⟨⟨1, 2, 3⟩, rfl, rfl, by rw [hstone]; decide⟩
  exact ⟨hfits, hair ▸ hread, hnone, hpoint.unchanged hnone⟩

end VoxelChunk
