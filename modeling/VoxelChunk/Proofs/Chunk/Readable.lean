import VoxelChunk.Chunk.Packet
import VoxelChunk.Chunk.Settle
import VoxelChunk.Proofs.Chunk.Moves
import VoxelChunk.Proofs.Chunk.Packet
import VoxelChunk.Proofs.Section.Received

/-!
# Chunks that can always be read

A section comes to a chunk in one of three ways: it is made of air, it is received, or blocks of it
are written. All blocks of such sections can be read. So no operation on a chunk ever meets a state
that cannot be, whatever the blocks do in reaction to writes and whatever bytes are received.

## Main definitions

* `Section.Formed` — the sections that can be had.
* `Sections.Readable` — all blocks of all sections can be read.
* `Level.faults` — the reported accesses to states that cannot be read.
* `Site.Safely` — an operation keeps blocks readable and reports no fault.
* `Site.Run` — what can be done with a chunk.

## Main results

* `Section.Formed.readable` — all blocks of sections that can be had can be read.
* `Site.safely_setBlock`, `Site.safely_loadPacket`, `Site.safely_settleAll`,
  `Site.safely_getEntity` — operations are safe.
* `Site.Run.no_fault` — a chunk can always be read, and no fault is ever reported.
-/

namespace VoxelChunk

/-! ### Sections -/

namespace Section

/-- The sections that can be had: made of air, received from any bytes, or written. -/
inductive Formed : Section → Prop
  | empty (globalBits : Nat) : Formed (.empty globalBits)
  | received {facts : BlockFacts} {globalBits : Nat} {bytes rest : List UInt8} {s : Section} :
    (decoder facts globalBits).decode bytes = (.ok s, rest) → Formed s
  | set {s : Section} (facts : BlockFacts) (pos : BlockPos) (state : BlockState) :
    Formed s → Formed (s.set facts pos state).2

/-- **All blocks of sections that can be had can be read.** -/
theorem Formed.readable {s : Section} (h : s.Formed) : s.Readable := by
  induction h with
  | empty globalBits => exact readable_empty globalBits
  | received hread => exact (decode_counted hread).toReadable
  | set facts pos state _ ih => exact (ih.set facts pos state).2

end Section

/-- All blocks of all sections can be read. -/
def Sections.Readable (sections : Sections) : Prop :=
  ∀ (index : Nat) (s : Section), sections[index]?.join = some s → s.Readable

theorem Sections.Readable.setIfInBounds {sections : Sections} (h : sections.Readable) (index : Nat)
    {new : Option Section} (hnew : ∀ s, new = some s → s.Readable) :
    Sections.Readable (sections.setIfInBounds index new) := by
  intro j s hs
  by_cases hlt : index < sections.size
  · rw [join_setIfInBounds hlt] at hs
    split at hs
    · exact hnew s hs
    · exact h j s hs
  · rw [Array.setIfInBounds_eq_of_size_le (Nat.not_lt.1 hlt)] at hs
    exact h j s hs

/-- All sections that are read are readable. -/
theorem readable_of_readSections {facts : BlockFacts} {globalBits first : Nat} {mask : List Bool}
    {bytes rest : List UInt8} {sections : List (Nat × Section)}
    (h : (readSections facts globalBits first mask).decode bytes = (.ok sections, rest)) :
    ∀ entry ∈ sections, entry.2.Readable := by
  induction mask generalizing first bytes rest sections with
  | nil =>
    obtain ⟨rfl, -⟩ : [] = sections ∧ bytes = rest := by simpa [readSections] using h
    simp
  | cons present mask ih =>
    cases present with
    | false => exact ih h
    | true =>
      obtain ⟨s, mid, others, hs, hothers, rfl⟩ := readSections_cons_eq_ok.1 h
      intro entry hmem
      rcases List.mem_cons.1 hmem with rfl | hmem
      · exact (Section.decode_counted hs).toReadable
      · exact ih hothers entry hmem

variable {α τ : Type}

/-! ### Reading -/

namespace Chunk

variable {c : Chunk α} {cfg : Config α τ}

theorem readable_occupiedSection? (h : Sections.Readable c.sections) {pos : BlockPos} {s : Section}
    (hs : c.occupiedSection? cfg pos = some s) : s.Readable := by
  unfold occupiedSection? at hs
  obtain ⟨hs, -⟩ := Option.filter_eq_some_iff.1 hs
  obtain ⟨index, -, hs⟩ := Option.bind_eq_some_iff.1 hs
  exact h index s hs

/-- All blocks can be read. -/
theorem exists_blockAt (h : Sections.Readable c.sections) (cfg : Config α τ) (pos : BlockPos) :
    ∃ state, c.blockAt cfg pos = .ok state := by
  unfold blockAt
  cases hs : c.occupiedSection? cfg pos with
  | none => exact ⟨.air, rfl⟩
  | some s =>
    have hget := (readable_occupiedSection? h hs).get_eq pos
    exact ⟨s.stateAt pos, by simp only [hget]; rfl⟩

/-- All fluids can be read. -/
theorem exists_fluidAt (h : Sections.Readable c.sections) (cfg : Config α τ) (pos : BlockPos) :
    ∃ fluid, c.fluidAt cfg pos = .ok fluid := by
  unfold fluidAt
  cases hs : c.occupiedSection? cfg pos with
  | none => exact ⟨.empty, rfl⟩
  | some s =>
    have hget := (readable_occupiedSection? h hs).get_eq pos
    exact ⟨cfg.facts.fluidState (s.stateAt pos), by simp only [Section.fluidAt, hget]; rfl⟩

end Chunk

/-- If all neighbours can be read, a block can be settled. -/
theorem BlockFacts.exists_settle {ε : Type} (facts : BlockFacts)
    {view : BlockPos → Except ε BlockState} (h : ∀ pos, ∃ state, view pos = .ok state)
    (pos : BlockPos) (state : BlockState) :
    ∃ settled, facts.settle view pos state = .ok settled := by
  unfold settle
  induction Face.all generalizing state with
  | nil => exact ⟨state, rfl⟩
  | cons face faces ih =>
    obtain ⟨neighbor, hneighbor⟩ := h (pos + face.delta)
    obtain ⟨settled, hsettled⟩ := ih (facts.neighborUpdate state face neighbor)
    refine ⟨settled, ?_⟩
    rw [List.foldlM_cons, hneighbor]
    exact hsettled

/-! ### Faults -/

/-- The fault that a notice is about. -/
def Notice.fault? : Notice → Option Fault
  | .fault cause => some cause
  | _ => none

/-- The faults that have been reported. -/
def Level.faults (l : Level τ) : List Fault := l.notices.toList.filterMap Notice.fault?

namespace Site

/-- What can be read, and what could not be. -/
def scene (s : Site α τ) : Sections × List Fault := (s.chunk.sections, s.level.faults)

/-- If all blocks can be read in `s`, they can in `s'`, and no fault was reported in between. -/
def Safely (s s' : Site α τ) : Prop :=
  Sections.Readable s.chunk.sections →
    Sections.Readable s'.chunk.sections ∧ s'.level.faults = s.level.faults

variable {cfg : Config α τ} {s s' s'' : Site α τ}

theorem Safely.refl (s : Site α τ) : s.Safely s := fun h => ⟨h, rfl⟩

theorem Safely.trans (h : s.Safely s') (h' : s'.Safely s'') : s.Safely s'' := by
  intro hs
  obtain ⟨hs', hfaults⟩ := h hs
  obtain ⟨hs'', hfaults'⟩ := h' hs'
  exact ⟨hs'', hfaults'.trans hfaults⟩

theorem Safely.of_scene (h : s'.scene = s.scene) : s.Safely s' := by
  intro hs
  have hsections : s'.chunk.sections = s.chunk.sections := congrArg Prod.fst h
  exact ⟨hsections ▸ hs, congrArg Prod.snd h⟩

/-- It may be supposed that all blocks can be read. -/
theorem Safely.of_readable (h : Sections.Readable s.chunk.sections → s.Safely s') : s.Safely s' :=
  fun hs => h hs hs

/-- Safe operations, one after another. -/
theorem safely_foldl {β : Type} {f : Site α τ → β → Site α τ}
    (hf : ∀ (s : Site α τ) b, s.Safely (f s b)) (l : List β) (s : Site α τ) :
    s.Safely (l.foldl f s) := by
  induction l generalizing s with
  | nil => exact .refl s
  | cons b l ih => exact (hf s b).trans (ih (f s b))

/-! ### Block entities -/

variable (s) (pos : BlockPos)

@[simp] theorem scene_push (event : Event) : (s.push event).scene = s.scene := rfl

theorem scene_note (notice : Notice) (h : notice.fault? = none) :
    (s.note notice).scene = s.scene := by
  simp [scene, note, Level.note, Level.faults, h]

@[simp] theorem scene_removeTicker : (s.removeTicker pos).scene = s.scene := by
  obtain ⟨_, _, h⟩ := removeTicker_eq s pos
  rw [h]
  rfl

@[simp] theorem scene_updateTicker : (s.updateTicker cfg pos).scene = s.scene := by
  obtain ⟨_, _, h⟩ := updateTicker_eq s cfg pos
  rw [h]
  rfl

@[simp] theorem scene_updateListener : (s.updateListener cfg pos).scene = s.scene := by
  unfold updateListener
  split
  · rfl
  · split <;> rfl

theorem scene_modifyLent (f : LentEntity → LentEntity) :
    ({ s with chunk := s.chunk.modifyLent pos f } : Site α τ).scene = s.scene := by
  unfold Chunk.modifyLent
  split <;> rfl

@[simp] theorem scene_addEntity (entity : BlockEntity α) :
    (s.addEntity cfg entity).scene = s.scene := by
  unfold addEntity
  simp only
  split
  · rw [scene_updateTicker, scene_updateListener, scene_push]
    exact scene_modifyLent s entity.pos _
  · exact scene_modifyLent s entity.pos _

@[simp] theorem scene_takeEntity : (s.takeEntity pos).2.scene = s.scene := by
  unfold takeEntity
  split
  · rfl
  · split
    · exact scene_modifyLent s pos _
    · rfl

@[simp] theorem scene_removeEntity : (s.removeEntity pos).2.scene = s.scene := by
  unfold removeEntity
  simp only [scene_removeTicker]
  split
  · exact scene_takeEntity s pos
  · rfl

@[simp] theorem scene_evictRemoved : (s.evictRemoved pos).scene = s.scene := by
  unfold evictRemoved
  split
  · rfl
  · split
    · exact scene_removeTicker _ pos
    · rfl

/-- A block that can be read is read without a notice. -/
theorem safely_blockAt : s.Safely (s.blockAt cfg pos).2 := by
  intro hs
  obtain ⟨state, hstate⟩ := Chunk.exists_blockAt hs cfg pos
  rw [blockAt, hstate]
  exact Safely.refl s hs

theorem safely_createEntity : s.Safely (s.createEntity cfg pos).2 := by
  have hread : s.Safely (s.blockAt cfg pos).2 := safely_blockAt s pos
  unfold createEntity
  simp only
  split
  · split
    · exact hread
    · exact hread.trans (.of_scene (scene_addEntity ..))
  · exact hread

/-- Whatever has been made, no fault is noted when it is installed. -/
theorem safely_install (made : Option (BlockEntity α) × Site α τ) (hmade : s.Safely made.2)
    (state : BlockState) :
    s.Safely (match made.1 with
      | some entity => (true, made.2.addEntity cfg entity)
      | none => (false, made.2.note (.notLoaded pos state))).2 := by
  split
  · next entity _ => exact hmade.trans (.of_scene (scene_addEntity made.2 entity))
  · exact hmade.trans (.of_scene (scene_note made.2 (.notLoaded pos state) rfl))

theorem safely_loadEntity (fields : Compound) : s.Safely (s.loadEntity cfg pos fields).2 := by
  have hread : s.Safely (s.blockAt cfg pos).2 := safely_blockAt s pos
  unfold loadEntity
  generalize s.blockAt cfg pos = read at hread ⊢
  rcases read with ⟨state, s'⟩
  simp only at hread ⊢
  refine safely_install s pos _ ?_ state
  split
  · split
    · exact hread
    · exact hread.trans (.of_scene (scene_note s' (.dummyWithoutEntity pos state) rfl))
  · split
    · exact hread
    · next cause _ => exact hread.trans (.of_scene (scene_note s' (.loadFailed pos cause) rfl))

theorem safely_loadPending : s.Safely (s.loadPending cfg pos).2 := by
  unfold loadPending
  split
  · exact .refl s
  · refine Safely.trans ?_ (safely_loadEntity _ pos _)
    exact .of_scene rfl

theorem safely_getEntity (mode : CreationMode) : s.Safely (s.getEntity cfg pos mode).2 := by
  have hloaded : s.Safely ((s.evictRemoved pos).loadPending cfg pos).2 :=
    .trans (.of_scene (scene_evictRemoved s pos)) (safely_loadPending _ pos)
  unfold getEntity
  split
  · exact .refl s
  · split
    · exact .refl s
    · simp only
      split
      · exact hloaded
      · split
        · exact hloaded.trans (safely_createEntity _ pos)
        · exact hloaded

theorem safely_updateEntityState (state : BlockState) :
    s.Safely (s.updateEntityState cfg pos state).2 := by
  have hget : s.Safely (s.getEntity cfg pos .check).2 := safely_getEntity s pos .check
  unfold updateEntityState
  split
  · exact .of_scene ((scene_updateTicker _ pos).trans (scene_modifyLent s pos _))
  · split
    · next heq => rwa [heq] at hget
    · next heq =>
      rw [heq] at hget
      exact hget.trans (.of_scene (scene_updateTicker _ pos))

theorem safely_attachEntity (state : BlockState) :
    s.Safely (s.attachEntity cfg pos state) := by
  have htold : s.Safely (s.updateEntityState cfg pos state).2 :=
    safely_updateEntityState s pos state
  unfold attachEntity
  split
  · simp only
    split
    · exact htold
    · split
      · exact htold.trans (.of_scene (scene_addEntity ..))
      · exact htold
  · exact .refl s

/-! ### Writes -/

@[simp] theorem scene_trackHeightmap (x y z : Int) (state : BlockState) (kind : HeightmapKind)
    (number : Nat) : (s.trackHeightmap cfg x y z state kind number).scene = s.scene := by
  unfold trackHeightmap
  split
  · rfl
  · simp only
    split
    · exact scene_note _ (.staleHeightmap ..) rfl
    · rfl

theorem scene_trackHeightmaps (state : BlockState) :
    (s.trackHeightmaps cfg pos state).scene = s.scene := by
  unfold trackHeightmaps
  induction cfg.heightmaps.zipIdx generalizing s with
  | nil => rfl
  | cons kind kinds ih => rw [List.foldl_cons, ih, scene_trackHeightmap]

theorem safely_storeBlock (index : Nat) (state : BlockState) :
    s.Safely (s.storeBlock cfg index pos state).2 := by
  refine .of_readable fun hs => ?_
  unfold storeBlock
  simp only
  split
  · exact .refl s
  · have hbefore : ((s.chunk.section? index).getD (.empty cfg.globalBits)).Readable := by
      cases hsec : s.chunk.section? index with
      | none => exact Section.readable_empty _
      | some sec => exact hs index sec hsec
    obtain ⟨hout, hafter⟩ := hbefore.set cfg.facts pos state
    -- the write cannot fail
    generalize Section.set _ cfg.facts pos state = written at hout hafter ⊢
    rcases written with ⟨outcome, after⟩
    cases hout
    have hstored : s.Safely { s with chunk := { s.chunk with
        sections := s.chunk.sections.setIfInBounds index (some after) } } := by
      refine fun _ => ⟨hs.setIfInBounds index ?_, rfl⟩
      rintro _ ⟨⟩
      exact hafter
    simp only
    split
    · exact hstored
    · have hscene : ∀ t : Site α τ, (t.trackHeightmaps cfg pos state).scene = t.scene :=
        fun t => scene_trackHeightmaps t pos state
      have htracked := hstored.trans (.of_scene (hscene _))
      split
      · exact htracked
      · exact htracked.trans (.of_scene (scene_push _ _))

/-- Reactions are safe if their writes are. -/
theorem safely_run {write : BlockWriter α τ}
    (hwrite : ∀ (s : Site α τ) pos state moved, s.Safely (write s pos state moved).2)
    (r : Reaction α τ) (s : Site α τ) : s.Safely (r.run write cfg s) := by
  induction r generalizing s with
  | done => exact .refl s
  | setBlock pos state moved next ih => exact (hwrite s pos state moved).trans (ih _ _)
  | removeEntity pos next ih => exact .trans (.of_scene (scene_removeEntity s pos)) (ih _ _)
  | addEntity entity next ih => exact .trans (.of_scene (scene_addEntity s entity)) (ih _)
  | look next ih => exact ih s s

theorem safely_writeWith {write : BlockWriter α τ}
    (hwrite : ∀ (s : Site α τ) pos state moved, s.Safely (write s pos state moved).2)
    (state : BlockState) (flags : SetFlags) : s.Safely (s.writeWith write cfg pos state flags).2 := by
  unfold writeWith
  split
  · exact .refl s
  · next index _ =>
    have hstored : s.Safely (s.storeBlock cfg index pos state).2 :=
      safely_storeBlock s pos index state
    split
    · next heq => rwa [heq] at hstored
    · next previous stored heq =>
      rw [heq] at hstored
      simp only
      have hreplaced : s.Safely (stored.replaceBlock write cfg pos previous state flags.moved) := by
        refine hstored.trans ?_
        unfold replaceBlock
        split <;> exact safely_run hwrite _ _
      split
      · exact hreplaced
      · refine hreplaced.trans ?_
        refine .trans ?_ (.trans (safely_attachEntity _ pos state) (.of_scene rfl))
        split
        · exact .refl _
        · exact safely_run hwrite _ _

/-- Writes are safe, however deep they are nested. -/
theorem safely_writeBlock (depth : Nat) (state : BlockState) (flags : SetFlags) :
    s.Safely (writeBlock cfg depth s pos state flags).2 := by
  induction depth generalizing s pos state flags with
  | zero => exact .of_scene (scene_note s (.nestedTooDeep pos) rfl)
  | succ depth ih =>
    exact safely_writeWith s pos (fun s pos state moved => ih s pos state { moved }) state flags

/-- **Writing a block is safe**, whatever blocks do in reaction. -/
theorem safely_setBlock (state : BlockState) (flags : SetFlags) :
    s.Safely (s.setBlock cfg pos state flags).2 :=
  safely_writeBlock s pos _ state flags

/-! ### Settling blocks -/

theorem safely_settleBlock (view : BlockPos → BlockState) :
    s.Safely (s.settleBlock cfg (fun q => .ok (view q)) pos) := by
  refine .of_readable fun hs => ?_
  -- neighbours in the chunk can be read as well as those outside
  have hview : ∀ q, ∃ state, s.chunk.viewThrough cfg (fun q => .ok (view q)) q = .ok state := by
    intro q
    unfold Chunk.viewThrough
    split
    · exact Chunk.exists_blockAt hs cfg q
    · exact ⟨view q, rfl⟩
  obtain ⟨state, hstate⟩ := Chunk.exists_blockAt hs cfg pos
  obtain ⟨settled, hsettled⟩ := cfg.facts.exists_settle hview pos state
  have hsettle : (s.chunk.blockAt cfg pos >>=
      cfg.facts.settle (s.chunk.viewThrough cfg fun q => .ok (view q)) pos) = .ok settled := by
    rw [hstate]
    exact hsettled
  unfold settleBlock
  rw [hsettle]
  exact safely_setBlock s pos settled _

theorem safely_settleSection (view : BlockPos → BlockState) (index : Nat) :
    s.Safely (s.settleSection cfg (fun q => .ok (view q)) index) := by
  unfold settleSection
  simp only
  refine Safely.trans ?_ (safely_foldl (fun s _ => safely_settleBlock s _ view) _ _)
  exact .of_scene rfl

theorem safely_loadAllPending : s.Safely (s.loadAllPending cfg) := by
  have hloaded : s.Safely (s.chunk.pending.keys.foldl (fun s pos =>
      (s.getEntity cfg pos .check).2) s) :=
    safely_foldl (fun s pos => safely_getEntity s pos .check) _ s
  exact hloaded.trans (.of_scene rfl)

/-- **Settling all queued blocks is safe.** -/
theorem safely_settleAll (view : BlockPos → BlockState) :
    s.Safely (s.settleAll cfg fun q => .ok (view q)) := by
  have hsettled : s.Safely ((List.range s.chunk.unsettled.size).foldl (fun s index =>
      s.settleSection cfg (fun q => .ok (view q)) index) s) :=
    safely_foldl (fun s index => safely_settleSection s view index) _ s
  exact hsettled.trans (.trans (.of_scene rfl) (safely_loadAllPending (promoteTicks _)))

/-! ### Packets -/

theorem safely_replaceSection (index : Nat) {new : Option Section}
    (hnew : ∀ sec, new = some sec → sec.Readable) :
    s.Safely (s.replaceSection cfg index new) := by
  have hplaced : s.Safely { s with chunk := { s.chunk with
      sections := s.chunk.sections.setIfInBounds index new } } :=
    fun hs => ⟨hs.setIfInBounds index hnew, rfl⟩
  unfold replaceSection
  simp only
  split
  · exact hplaced
  · exact hplaced.trans (.of_scene (scene_push _ _))

theorem safely_replaceSections {sections : List (Nat × Section)}
    (hascending : sections.Pairwise fun a b => a.1 < b.1)
    (hsections : ∀ entry ∈ sections, entry.2.Readable) (full : Bool) :
    s.Safely (s.replaceSections cfg sections full) := by
  rw [replaceSections_eq_foldl s cfg hascending]
  refine safely_foldl (fun s index => ?_) _ s
  unfold placeSection
  split
  · next index' new hfound =>
    apply safely_replaceSection
    rintro _ ⟨⟩
    exact hsections _ (List.mem_of_find?_eq_some hfound)
  · split
    · exact safely_replaceSection s index nofun
    · exact .refl s

theorem safely_removeCovered (mask : List Bool) (full : Bool) :
    s.Safely (s.removeCovered cfg mask full) :=
  safely_foldl (fun s pos => .of_scene (scene_removeEntity s pos)) _ s

theorem sections_putHeightmaps (c : Chunk α) (heightmaps : List (Nat × Heightmap)) :
    (heightmaps.foldl (fun c (number, h) => c.putHeightmap number h) c).sections = c.sections := by
  induction heightmaps generalizing c with
  | nil => rfl
  | cons entry rest ih => exact ih (c.putHeightmap entry.1 entry.2)

/-- The sections of a packet that can be read are readable. -/
theorem readable_of_readPacket {packet : SectionsPacket} {contents : PacketContents}
    (h : readPacket cfg packet = .ok contents) :
    ∀ entry ∈ contents.sections, entry.2.Readable := by
  obtain ⟨-, hread, -⟩ := of_readPacket h
  exact readable_of_readSections (Prod.ext hread rfl)

/-- **Loading a packet is safe**, whatever bytes it holds. -/
theorem safely_loadPacket (biomes : Option Biomes) (packet : SectionsPacket) :
    s.Safely (s.loadPacket cfg biomes packet).2 := by
  unfold loadPacket
  split
  · exact .refl s
  · next contents hread =>
    have hcovered : s.Safely (s.removeCovered cfg packet.mask biomes.isSome) :=
      safely_removeCovered s packet.mask biomes.isSome
    simp only
    generalize s.removeCovered cfg packet.mask biomes.isSome = t at hcovered ⊢
    have hplaced : t.Safely (Site.replaceSections
        { t with chunk := { t.chunk with biomes := biomes.getD t.chunk.biomes } }
        cfg contents.sections biomes.isSome) := by
      refine Safely.trans ?_
        (safely_replaceSections _ (ascending_of_readPacket hread) (readable_of_readPacket hread)
          biomes.isSome)
      exact .of_scene rfl
    generalize Site.replaceSections _ cfg contents.sections biomes.isSome = placed at hplaced ⊢
    refine hcovered.trans (hplaced.trans (.of_scene ?_))
    rw [scene, sections_putHeightmaps]
    rfl

/-! ### Runs -/

variable {s}

/-- What can be done with a chunk, besides what leaves sections and notices alone. -/
inductive Run (cfg : Config α τ) (s : Site α τ) : Site α τ → Prop
  | start : Run cfg s s
  | setBlock {t : Site α τ} (pos : BlockPos) (state : BlockState) (flags : SetFlags) :
    Run cfg s t → Run cfg s (t.setBlock cfg pos state flags).2
  | loadPacket {t : Site α τ} (biomes : Option Biomes) (packet : SectionsPacket) :
    Run cfg s t → Run cfg s (t.loadPacket cfg biomes packet).2
  | settleAll {t : Site α τ} (view : BlockPos → BlockState) :
    Run cfg s t → Run cfg s (t.settleAll cfg fun q => .ok (view q))
  | getEntity {t : Site α τ} (pos : BlockPos) (mode : CreationMode) :
    Run cfg s t → Run cfg s (t.getEntity cfg pos mode).2
  | aside {t t' : Site α τ} : Run cfg s t → t'.chunk.sections = t.chunk.sections →
    t'.level.notices = t.level.notices → Run cfg s t'

theorem Run.safely {t : Site α τ} (h : Run cfg s t) : s.Safely t := by
  induction h with
  | start => exact .refl s
  | setBlock pos state flags _ ih => exact ih.trans (safely_setBlock _ pos state flags)
  | loadPacket biomes packet _ ih => exact ih.trans (safely_loadPacket _ biomes packet)
  | settleAll view _ ih => exact ih.trans (safely_settleAll _ view)
  | getEntity pos mode _ ih => exact ih.trans (safely_getEntity _ pos mode)
  | aside _ hsections hnotices ih =>
    refine ih.trans (.of_scene ?_)
    rw [scene, scene, hsections, Level.faults, Level.faults, hnotices]

/-- New chunks hold the sections that they are given. -/
theorem readable_new {init : ChunkInit α}
    (hinit : ∀ sections, init.sections = some sections → ∀ sec, some sec ∈ sections → sec.Formed) :
    Sections.Readable (Chunk.new cfg init).sections := by
  intro index sec hsec
  rw [Option.join_eq_some_iff, Chunk.new, Array.getElem?_ofFn] at hsec
  split at hsec
  · rw [Option.some.injEq, Option.join_eq_some_iff, List.getElem?_toArray] at hsec
    have hmem := List.mem_of_getElem? hsec
    cases hgiven : init.sections with
    | none => simp [hgiven] at hmem
    | some sections =>
      rw [hgiven] at hmem
      exact (hinit sections hgiven sec hmem).readable
  · cases hsec

/-- **A chunk can always be read.** A new chunk gets sections that can be had; then any number of
operations is made. All blocks and fluids can be read, and no fault has been reported. -/
theorem Run.no_fault {init : ChunkInit α}
    (hinit : ∀ sections, init.sections = some sections → ∀ sec, some sec ∈ sections → sec.Formed)
    {level : Level τ} {t : Site α τ} (h : Run cfg ⟨Chunk.new cfg init, level⟩ t) :
    (∀ pos, ∃ state, t.chunk.blockAt cfg pos = .ok state) ∧
      (∀ pos, ∃ fluid, t.chunk.fluidAt cfg pos = .ok fluid) ∧
        t.level.faults = level.faults := by
  obtain ⟨hreadable, hfaults⟩ := h.safely (readable_new hinit)
  exact ⟨Chunk.exists_blockAt hreadable cfg, Chunk.exists_fluidAt hreadable cfg, hfaults⟩

end Site

/-- A section with one stone. -/
def stoneSection : Section := ((Section.empty 1).set stoneWorld.facts ⟨3, 5, 4⟩ ⟨1⟩).2

theorem formed_stoneSection : stoneSection.Formed := .set _ _ _ (.empty 1)

/-- A chunk of this section. -/
def stoneInit : ChunkInit Unit := { pos := ⟨0, 0⟩, sections := some [some stoneSection] }

/-- The stone is taken away, a packet comes that cannot be read, and queued blocks are settled. -/
theorem readable_stone :
    (∀ sections, stoneInit.sections = some sections →
      ∀ sec, some sec ∈ sections → sec.Formed) ∧
    ∃ t : Site Unit Unit, Site.Run stoneWorld ⟨.new stoneWorld stoneInit, { isClient := false }⟩ t ∧
      (∀ pos, ∃ state, t.chunk.blockAt stoneWorld pos = .ok state) ∧ t.level.faults = [] := by
  have hinit : ∀ sections, stoneInit.sections = some sections →
      ∀ sec, some sec ∈ sections → sec.Formed := by
    intro sections hgiven sec hmem
    rw [← Option.some.inj hgiven, List.mem_singleton, Option.some.injEq] at hmem
    rw [hmem]
    exact formed_stoneSection
  have hstart : Site.Run stoneWorld ⟨.new stoneWorld stoneInit, { isClient := false }⟩
      ⟨.new stoneWorld stoneInit, { isClient := false }⟩ := .start
  have hrun := ((hstart.setBlock ⟨3, 5, 4⟩ .air {}).loadPacket none
    ⟨[true], [0, 0, 33], []⟩).settleAll fun _ => .air
  obtain ⟨hblocks, -, hfaults⟩ := Site.Run.no_fault hinit hrun
  exact ⟨hinit, _, hrun, hblocks, hfaults⟩

end VoxelChunk
