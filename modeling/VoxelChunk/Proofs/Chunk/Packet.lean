import Mathlib.Data.List.Induction
import VoxelChunk.Chunk.Packet
import VoxelChunk.Proofs.Chunk.Removal
import VoxelChunk.Proofs.Chunk.Write
import VoxelChunk.Proofs.Keyed
import VoxelChunk.Proofs.Tag
import VoxelChunk.Proofs.Wire.Forms

/-!
# A chunk is received as it was sent

Sections that hold only air are not sent, and the others stand one after another in the data. A
chunk that gets the packet of another one together with biomes shows the same blocks afterwards,
has the same heightmaps for clients, and no block entities.

## Main definitions

* `Config.Sendable` — blocks and heightmaps as any run of writes leaves them.
* `Chunk.sentSection?` — the section that is sent for an index.
* `Config.Sized` — as many sections and places for heightmaps as the world asks for.
* `SectionsPacket.Covers` — the positions whose block entities a packet takes away.
* `Chunk.placed?`, `Chunk.statusChange?` — the section at an index once a packet has come, and the
  event that tells of it.

## Main results

* `readPacket_sectionsPacket` — a packet is read as it was written.
* `Config.Sized.setBlocks` — a chunk keeps its size.
* `Site.replaceSections_eq`, `Chunk.heightmap?_foldl_kinds` — sections and heightmaps are put in
  their places.
* `Site.loadPacket_of_sendable`, `Site.loadPacket_sectionsPacket` — what becomes of the chunk that
  gets the packet.
-/

namespace VoxelChunk

variable {α τ : Type}

/-! ### What is sent -/

/-- Blocks and heightmaps as any run of writes leaves them. -/
structure Config.Sendable (cfg : Config α τ) (blocks : Sections × Array (Option Heightmap)) :
    Prop where
  sections : cfg.SoundSections blocks.1
  heightmaps : cfg.FittingHeightmaps blocks.2

namespace Config

variable {cfg : Config α τ}

theorem sendable_new {init : ChunkInit α} (h : init.sections = none) :
    cfg.Sendable ((Chunk.new cfg init).sections, (Chunk.new cfg init).heightmaps) where
  sections := by
    rw [Chunk.sections_new h]
    exact soundSections_replicate cfg
  heightmaps := Chunk.fittingHeightmaps_new init

theorem Sendable.storeBlock (hair : cfg.facts.isAir .air) {s : Site α τ} {pos : BlockPos}
    {state : BlockState} {index : Nat} (h : cfg.Sendable s.blocks)
    (hi : cfg.height.sectionIndex? pos.y = some index) (hs : state.FitsIn cfg.globalBits) :
    cfg.Sendable (s.storeBlock cfg index pos state).2.blocks := by
  have hstored := Site.storeBlock_spec h.sections hair hi hs
  generalize s.storeBlock cfg index pos state = out at hstored ⊢
  cases hstored with
  | skipped => exact h
  | same sections hsound => exact ⟨hsound, h.heightmaps⟩
  | changed sections events notices hsound => exact ⟨hsound, h.heightmaps.told sections pos state⟩

/-- Numbers of states take less than 32 bits when there are at most `2 ^ 31` states. -/
theorem globalBits_lt (h : cfg.facts.stateCount.toNat ≤ 2147483648) : cfg.globalBits ≤ 31 := by
  have := ceilLog2_le (k := 31) h
  unfold globalBits
  omega

end Config

namespace Chunk

/-- The section that is sent for an index: the one there is, unless it holds only air. -/
def sentSection? (c : Chunk α) (index : Nat) : Option Section :=
  (c.section? index).filter fun s => !s.isEmpty

theorem isSome_sentSection? (c : Chunk α) (index : Nat) :
    (c.sentSection? index).isSome = !c.isSectionEmpty index := by
  unfold sentSection? isSectionEmpty
  cases c.section? index with
  | none => rfl
  | some s => cases h : s.isEmpty <;> simp [h, Option.filter_some]

end Chunk

/-! ### Sections -/

theorem readSections_reads {facts : BlockFacts} {globalBits : Nat} {sent : Nat → Option Section}
    (h : ∀ index s, sent index = some s → s.Sound facts globalBits ∧ s.states.Writable)
    (first n : Nat) :
    (readSections facts globalBits first
        ((List.range' first n).map fun index => (sent index).isSome)).Reads
      ((List.range' first n).flatMap fun index => (sent index).elim [] Section.encode)
      ((List.range' first n).filterMap fun index =>
        (sent index).map fun s => (index, s.recounted facts)) := by
  induction n generalizing first with
  | zero => exact Decoder.Reads.pure []
  | succ n ih =>
    rw [List.range'_succ, List.map_cons, List.flatMap_cons, List.filterMap_cons]
    cases hs : sent first with
    | none => exact ih (first + 1)
    | some s =>
      obtain ⟨hsound, hwritable⟩ := h first s hs
      exact ((Section.decoder_reads hsound hwritable).mapError _).bind ((ih (first + 1)).bind_pure _)

/-- A section that is read from the data stands before those that are read from what it leaves. -/
theorem readSections_cons_eq_ok {facts : BlockFacts} {globalBits first : Nat} {mask : List Bool}
    {bytes rest : List UInt8} {found : List (Nat × Section)} :
    (readSections facts globalBits first (true :: mask)).decode bytes = (.ok found, rest) ↔
      ∃ sec mid others, (Section.decoder facts globalBits).decode bytes = (.ok sec, mid) ∧
        (readSections facts globalBits (first + 1) mask).decode mid = (.ok others, rest) ∧
        found = (first, sec) :: others := by
  rw [readSections, Decoder.decode_bind_eq_ok]
  constructor
  · rintro ⟨sec, mid, hsec, h⟩
    obtain ⟨others, mid', hothers, h⟩ := Decoder.decode_bind_eq_ok.1 h
    obtain ⟨rfl, rfl⟩ : (first, sec) :: others = found ∧ mid' = rest := by simpa using h
    exact ⟨sec, mid, others, Decoder.decode_mapError_eq_ok.1 hsec, hothers, rfl⟩
  · rintro ⟨sec, mid, others, hsec, hothers, rfl⟩
    exact ⟨sec, mid, Decoder.decode_mapError_eq_ok.2 hsec,
      Decoder.decode_bind_eq_ok.2 ⟨others, rest, hothers, rfl⟩⟩

/-- Sections are read in the order of their indices. -/
theorem ascending_of_readSections {facts : BlockFacts} {globalBits first : Nat} {mask : List Bool}
    {bytes rest : List UInt8} {found : List (Nat × Section)}
    (h : (readSections facts globalBits first mask).decode bytes = (.ok found, rest)) :
    (∀ entry ∈ found, first ≤ entry.1) ∧ found.Pairwise fun a b => a.1 < b.1 := by
  induction mask generalizing first bytes found with
  | nil =>
    obtain ⟨rfl, -⟩ : [] = found ∧ bytes = rest := by simpa [readSections] using h
    exact ⟨nofun, .nil⟩
  | cons bit mask ih =>
    cases bit with
    | false =>
      obtain ⟨hfirst, hascending⟩ := ih h
      exact ⟨fun entry hmem => Nat.le_of_succ_le (hfirst entry hmem), hascending⟩
    | true =>
      obtain ⟨sec, mid, others, -, hothers, rfl⟩ := readSections_cons_eq_ok.1 h
      obtain ⟨hfirst, hascending⟩ := ih hothers
      refine ⟨List.forall_mem_cons.2 ⟨Nat.le_refl _, fun entry hmem => ?_⟩,
        List.pairwise_cons.2 ⟨hfirst, hascending⟩⟩
      exact Nat.le_of_succ_le (hfirst entry hmem)

/-! ### Heightmaps -/

/-- The heightmap that is sent for a kind and its number. -/
def Chunk.sentHeightmap? (c : Chunk α) (entry : HeightmapKind × Nat) : Option Heightmap :=
  if entry.1.isSent then c.heightmap? entry.2 else none

/-- The fields with the heightmap that is sent for a kind, under the name of the kind. -/
def sentField (c : Chunk α) (fields : Compound) (entry : HeightmapKind × Nat) : Compound :=
  match c.sentHeightmap? entry with
  | some h => fields.insert entry.1.name (.longArray h.toLongs)
  | none => fields

theorem find?_sentField (c : Chunk α) (fields : Compound) (entry : HeightmapKind × Nat)
    (name : String) :
    (sentField c fields entry).find? name =
      if name = entry.1.name then
        ((c.sentHeightmap? entry).map fun h => .longArray h.toLongs).or (fields.find? name)
      else fields.find? name := by
  unfold sentField
  cases c.sentHeightmap? entry with
  | none => simp
  | some h => rw [Compound.find?_insert]; rfl

theorem find?_foldl_sentField (c : Chunk α) {entries : List (HeightmapKind × Nat)} {name : String}
    (h : name ∉ entries.map fun entry => entry.1.name) (fields : Compound) :
    (entries.foldl (sentField c) fields).find? name = fields.find? name := by
  induction entries generalizing fields with
  | nil => rfl
  | cons entry entries ih =>
    rw [List.map_cons, List.mem_cons, not_or] at h
    rw [List.foldl_cons, ih h.2, find?_sentField, if_neg h.1]

/-- Under the name of each kind stands what is sent for it. -/
theorem findLongArray?_foldl_sentField (c : Chunk α) {entries : List (HeightmapKind × Nat)}
    (hn : (entries.map fun entry => entry.1.name).Nodup) {entry : HeightmapKind × Nat}
    (hmem : entry ∈ entries) {fields : Compound} (hnew : fields.find? entry.1.name = none) :
    Compound.findLongArray? (entries.foldl (sentField c) fields) entry.1.name =
      (c.sentHeightmap? entry).map Heightmap.toLongs := by
  induction entries generalizing fields with
  | nil => exact absurd hmem List.not_mem_nil
  | cons first entries ih =>
    rw [List.map_cons, List.nodup_cons] at hn
    obtain ⟨hfirst, hrest⟩ := hn
    rw [List.foldl_cons]
    rcases List.mem_cons.1 hmem with rfl | hmem
    · unfold Compound.findLongArray?
      rw [find?_foldl_sentField c hfirst, find?_sentField, if_pos rfl, hnew]
      cases c.sentHeightmap? entry <;> rfl
    · refine ih hrest hmem ?_
      have hne : entry.1.name ≠ first.1.name := by
        intro heq
        rw [← heq] at hfirst
        exact hfirst (List.mem_map.2 ⟨entry, hmem, rfl⟩)
      rw [find?_sentField, if_neg hne, hnew]

section ReadHeightmaps

/-- The heightmap of a kind as it stands among the fields, if it can be read. -/
def readHeightmap? (limit : HeightLimit) (fields : Compound) (kind : HeightmapKind) :
    Option Heightmap :=
  (fields.findLongArray? kind.name).bind fun longs =>
    ((Heightmap.flat limit).setLongs longs).toOption

variable {limit : HeightLimit} {fields : Compound} {entries : List (HeightmapKind × Nat)}
  (hread : ∀ entry ∈ entries, ∀ longs, fields.findLongArray? entry.1.name = some longs →
    ∃ h, (Heightmap.flat limit).setLongs longs = .ok h)
include hread

/-- Heightmaps are read one after another, behind those that have been found. -/
theorem foldlM_readHeightmap (found : List (Nat × Heightmap)) :
    entries.foldlM (fun found (kind, number) =>
        match fields.findLongArray? kind.name with
        | none => return found
        | some longs => do
          let h ← ((Heightmap.flat limit).setLongs longs).mapError
            (PacketError.badHeightmap kind.name)
          return found ++ [(number, h)]) found =
      (.ok (found ++ entries.filterMap fun entry => (readHeightmap? limit fields entry.1).map
        fun h => (entry.2, h)) : Except PacketError _) := by
  induction entries generalizing found with
  | nil =>
    rw [List.filterMap_nil, List.append_nil]
    rfl
  | cons entry entries ih =>
    have ih := ih fun e he => hread e (List.mem_cons_of_mem _ he)
    have hfirst := hread entry List.mem_cons_self
    obtain ⟨kind, number⟩ := entry
    rw [List.foldlM_cons, List.filterMap_cons]
    have hkind : readHeightmap? limit fields kind = (fields.findLongArray? kind.name).bind
        fun longs => ((Heightmap.flat limit).setLongs longs).toOption := rfl
    simp only [hkind]
    cases hfield : fields.findLongArray? kind.name with
    | none => exact ih found
    | some longs =>
      obtain ⟨h, hset⟩ := hfirst longs hfield
      simp only [Option.bind_some, hset]
      have hnext := ih (found ++ [(number, h)])
      rw [List.append_assoc] at hnext
      exact hnext

/-- Heightmaps are read if each of them can be read. -/
theorem readHeightmaps_eq : readHeightmaps limit fields entries =
    .ok (entries.filterMap fun entry =>
      (readHeightmap? limit fields entry.1).map fun h => (entry.2, h)) :=
  foldlM_readHeightmap hread []

end ReadHeightmaps

/-! ### Whole packets -/

/-- What is read from the packet of a chunk. -/
def Chunk.sentContents (c : Chunk α) (cfg : Config α τ) : PacketContents where
  sections := (List.range cfg.height.sectionCount).filterMap fun index =>
    (c.sentSection? index).map fun s => (index, s.recounted cfg.facts)
  heightmaps := cfg.heightmaps.zipIdx.filterMap fun entry =>
    (c.sentHeightmap? entry).map fun h => (entry.2, h)

/-- The names of numbered kinds are those of the kinds. -/
theorem map_name_zipIdx (kinds : List HeightmapKind) :
    (kinds.zipIdx.map fun entry => entry.1.name) = kinds.map HeightmapKind.name := by
  rw [show (fun entry : HeightmapKind × Nat => entry.1.name) = HeightmapKind.name ∘ Prod.fst from rfl,
    ← List.map_map, List.zipIdx_map_fst]

theorem HeightmapKind.isLive_of_isSent {kind : HeightmapKind} (h : kind.isSent) : kind.isLive := by
  unfold isSent at h
  unfold isLive
  rw [beq_iff_eq] at h
  rw [h]
  rfl

theorem Chunk.fits_of_sentHeightmap? {c : Chunk α} {cfg : Config α τ}
    (hc : cfg.FittingHeightmaps c.heightmaps) {entry : HeightmapKind × Nat}
    (hentry : entry ∈ cfg.heightmaps.zipIdx) {h : Heightmap}
    (hs : c.sentHeightmap? entry = some h) : h.Fits cfg.height := by
  obtain ⟨kind, number⟩ := entry
  unfold sentHeightmap? at hs
  split at hs
  · next hsent =>
    obtain ⟨h', hslot, hf⟩ := hc number kind (List.mem_zipIdx_iff_getElem?.1 hentry)
      (HeightmapKind.isLive_of_isSent hsent)
    rw [show c.heightmap? number = some h' from hslot] at hs
    cases hs
    exact hf
  · cases hs

section SectionsPacket

variable (c : Chunk α) (cfg : Config α τ)

theorem mask_sectionsPacket :
    (c.sectionsPacket cfg).mask =
      (List.range c.sections.size).map fun index => (c.sentSection? index).isSome := by
  simp only [Chunk.sectionsPacket, Chunk.isSome_sentSection?]

theorem data_sectionsPacket :
    (c.sectionsPacket cfg).data = (List.range c.sections.size).flatMap fun index =>
      (c.sentSection? index).elim [] Section.encode := by
  unfold Chunk.sectionsPacket
  simp only
  congr 1
  funext index
  unfold Chunk.sentSection?
  cases (c.section? index).filter fun s => !s.isEmpty <;> rfl

theorem heightmaps_sectionsPacket :
    (c.sectionsPacket cfg).heightmaps = cfg.heightmaps.zipIdx.foldl (sentField c) [] := by
  unfold Chunk.sectionsPacket
  simp only
  congr 1
  funext fields entry
  unfold sentField Chunk.sentHeightmap? Chunk.heightmapLongs?
  cases entry.1.isSent <;> cases c.heightmap? entry.2 <;> rfl

end SectionsPacket

/-- All sections that are sent can be written. -/
theorem Config.SoundSections.writable {cfg : Config α τ} {c : Chunk α}
    (h : cfg.SoundSections c.sections) (hcount : cfg.facts.stateCount.toNat ≤ 2147483648)
    {index : Nat} {s : Section} (hs : c.sentSection? index = some s) :
    s.Sound cfg.facts cfg.globalBits ∧ s.states.Writable := by
  have hsound := h.sound index s (Option.eq_some_of_filter_eq_some hs)
  refine ⟨hsound, fun states hp state hmem => ?_⟩
  have hfits := hsound.states.fits states hp state hmem
  rw [hsound.globalBits] at hfits
  exact Nat.lt_of_lt_of_le hfits (Nat.pow_le_pow_right (by decide) (Config.globalBits_lt hcount))

/-- What is read from a packet is what its parts hold. -/
theorem of_readPacket {cfg : Config α τ} {packet : SectionsPacket} {contents : PacketContents}
    (h : readPacket cfg packet = .ok contents) :
    packet.mask.length = cfg.height.sectionCount ∧
      ((readSections cfg.facts cfg.globalBits 0 packet.mask).decode packet.data).1 =
        .ok contents.sections ∧
      readHeightmaps cfg.height packet.heightmaps cfg.heightmaps.zipIdx =
        .ok contents.heightmaps := by
  by_cases hlength : packet.mask.length = cfg.height.sectionCount
  · cases hread : ((readSections cfg.facts cfg.globalBits 0 packet.mask).decode packet.data).1 with
    | error e => simp [readPacket, hlength, hread, bind, Except.bind] at h
    | ok sections =>
      cases hmaps : readHeightmaps cfg.height packet.heightmaps cfg.heightmaps.zipIdx with
      | error e => simp [readPacket, hlength, hread, hmaps, bind, Except.bind] at h
      | ok heightmaps =>
        obtain rfl : ⟨sections, heightmaps⟩ = contents := by
          simpa [readPacket, hlength, hread, hmaps, bind, Except.bind, pure, Except.pure] using h
        exact ⟨hlength, rfl, rfl⟩
  · simp [readPacket, hlength, bind, Except.bind] at h

theorem ascending_of_readPacket {cfg : Config α τ} {packet : SectionsPacket}
    {contents : PacketContents} (h : readPacket cfg packet = .ok contents) :
    contents.sections.Pairwise fun a b => a.1 < b.1 :=
  (ascending_of_readSections (Prod.ext (of_readPacket h).2.1 rfl)).2

/-- **A packet is read as it was written.** -/
theorem readPacket_sectionsPacket {c : Chunk α} {cfg : Config α τ}
    (hcount : cfg.facts.stateCount.toNat ≤ 2147483648)
    (hnames : (cfg.heightmaps.map HeightmapKind.name).Nodup)
    (hc : cfg.Sendable (c.sections, c.heightmaps)) :
    readPacket cfg (c.sectionsPacket cfg) = .ok (c.sentContents cfg) := by
  have hsize : c.sections.size = cfg.height.sectionCount := hc.sections.size
  have hwritable : ∀ index s, c.sentSection? index = some s →
      s.Sound cfg.facts cfg.globalBits ∧ s.states.Writable :=
    fun _ _ hs => hc.sections.writable hcount hs
  -- nothing is left of the data
  have hsections := readSections_reads hwritable 0 cfg.height.sectionCount []
  rw [List.append_nil, ← List.range_eq_range'] at hsections
  have hsent : ∀ entry ∈ cfg.heightmaps.zipIdx,
      (c.sectionsPacket cfg).heightmaps.findLongArray? entry.1.name =
        (c.sentHeightmap? entry).map Heightmap.toLongs := by
    intro entry hentry
    rw [heightmaps_sectionsPacket]
    exact findLongArray?_foldl_sentField c (by rwa [map_name_zipIdx]) hentry rfl
  have hset : ∀ entry ∈ cfg.heightmaps.zipIdx, ∀ h, c.sentHeightmap? entry = some h →
      (Heightmap.flat cfg.height).setLongs h.toLongs = .ok h :=
    fun entry hentry h hs =>
      Heightmap.setLongs_toLongs (Chunk.fits_of_sentHeightmap? hc.heightmaps hentry hs)
  have hheightmaps : readHeightmaps cfg.height (c.sectionsPacket cfg).heightmaps
      cfg.heightmaps.zipIdx = .ok (c.sentContents cfg).heightmaps := by
    rw [readHeightmaps_eq]
    · refine congrArg Except.ok (List.filterMap_congr fun entry hentry => ?_)
      unfold readHeightmap?
      rw [hsent entry hentry]
      cases hs : c.sentHeightmap? entry with
      | none => rfl
      | some h =>
        rw [Option.map_some, Option.bind_some, hset entry hentry h hs]
        rfl
    · intro entry hentry longs hfield
      rw [hsent entry hentry, Option.map_eq_some_iff] at hfield
      obtain ⟨h, hs, rfl⟩ := hfield
      exact ⟨h, hset entry hentry h hs⟩
  unfold readPacket
  rw [mask_sectionsPacket, data_sectionsPacket, hsize, hsections, hheightmaps]
  simp only [List.length_map, List.length_range, ne_eq, not_true_eq_false, if_false]
  rfl

/-! ### The chunk that gets the packet -/

/-- There are as many sections and as many places for heightmaps as the world asks for. -/
structure Config.Sized (cfg : Config α τ) (blocks : Sections × Array (Option Heightmap)) :
    Prop where
  sections : blocks.1.size = cfg.height.sectionCount
  heightmaps : blocks.2.size = cfg.heightmaps.length

namespace Config

variable {cfg : Config α τ}

theorem sized_new (init : ChunkInit α) (level : Level τ) :
    cfg.Sized (Site.blocks ⟨.new cfg init, level⟩) where
  sections := by simp [Site.blocks, Chunk.new]
  heightmaps := by simp [Site.blocks, Chunk.new]

theorem Sized.storeBlock {s : Site α τ} (h : cfg.Sized s.blocks) (index : Nat) (pos : BlockPos)
    (state : BlockState) : cfg.Sized (s.storeBlock cfg index pos state).2.blocks := by
  have hput : (s.putWritten cfg index pos state).size = cfg.height.sectionCount :=
    Array.size_setIfInBounds.trans h.sections
  have hstoring := Site.storing s cfg index pos state
  generalize s.storeBlock cfg index pos state = out at hstoring ⊢
  cases hstoring with
  | skipped => exact h
  | failed => exact ⟨hput, h.heightmaps⟩
  | same => exact ⟨hput, h.heightmaps⟩
  | changed => exact ⟨hput, (size_toldHeightmaps ..).trans h.heightmaps⟩

/-- Whatever is written, a chunk keeps its size. -/
theorem Sized.setBlocks {s : Site α τ} (h : cfg.Sized s.blocks) (writes : List BlockWrite) :
    cfg.Sized (s.setBlocks cfg writes).blocks := by
  have hall : s.OnlyWrites (fun _ _ => True) cfg writes :=
    Site.onlyWrites_of_all (fun _ _ => trivial) writes s
  exact Site.setBlocks_keeps (fun _ index pos state h _ _ => h.storeBlock index pos state)
    writes h hall

end Config

namespace Chunk

/-- The section at an index once a packet has come: the one that was found, or else none if the
packet stands for the whole chunk. -/
def placed? (c : Chunk α) (found : List (Nat × Section)) (full : Bool) (index : Nat) :
    Option Section :=
  match found.find? fun entry => entry.1 = index with
  | some (_, new) => some new
  | none => if full then none else c.section? index

theorem placed?_full (c : Chunk α) (found : List (Nat × Section)) (index : Nat) :
    c.placed? found true index = (found.find? fun entry => entry.1 = index).map Prod.snd := by
  unfold placed?
  cases found.find? fun entry => entry.1 = index <;> rfl

/-- The event that tells whether a section is empty, if it is so unlike before. -/
def statusChange? (c : Chunk α) (cfg : Config α τ) (index : Nat) (new : Option Section) :
    Option Event :=
  if c.isSectionEmpty index = new.all Section.isEmpty then none
  else some (.sectionStatus c.pos (cfg.height.sectionCoordOf index) (new.all Section.isEmpty))

end Chunk

namespace SectionsPacket

/-- The packet takes away the block entity at a position: every one if it stands for the whole
chunk, and else those in its sections. -/
def Covers (packet : SectionsPacket) (limit : HeightLimit) (full : Bool) (pos : BlockPos) : Prop :=
  full ∨ ∃ index, limit.sectionIndex? pos.y = some index ∧ packet.mask[index]? = some true

end SectionsPacket

namespace Site

/-- A site with other sections, after some more events. -/
def withSections (s : Site α τ) (sections : Sections) (news : List Event) : Site α τ where
  chunk := { s.chunk with sections }
  level := { s.level with events := s.level.events.map (· ++ news.toArray) }

variable {cfg : Config α τ} {s : Site α τ}

/-- The block entities that a packet covers go. -/
theorem cleared_removeCovered (cfg : Config α τ) (htick : s.canTick) (packet : SectionsPacket)
    (full : Bool) :
    ∃ gone, gone.Nodup ∧ (∀ pos, pos ∈ gone ↔ (s.chunk.entities.find? pos).isSome ∧
      packet.Covers cfg.height full pos) ∧
      s.Cleared gone (s.removeCovered cfg packet.mask full) := by
  refine ⟨_, s.chunk.entities.nodup.filter _, fun pos => ?_,
    cleared_foldl htick (s.chunk.entities.nodup.filter _) fun pos hpos =>
      Keyed.contains_iff.2 (List.mem_filter.1 hpos).1⟩
  rw [List.mem_filter, ← Keyed.contains_iff]
  refine and_congr_right fun _ => ?_
  unfold SectionsPacket.Covers
  rw [Bool.or_eq_true]
  refine or_congr_right ?_
  cases cfg.height.sectionIndex? pos.y with
  | none => simp
  | some index =>
    simp only [Option.map_some, Option.getD_some, Option.some.injEq, exists_eq_left']
    rw [List.getD_eq_getElem?_getD]
    cases packet.mask[index]? <;> simp

/-- A packet for the whole chunk takes away all block entities. -/
theorem removeCovered_full (cfg : Config α τ) (h : s.canTick) (packet : SectionsPacket) :
    (s.removeCovered cfg packet.mask true).ground = s.ground ∧
      (s.removeCovered cfg packet.mask true).chunk.entities.entries = [] := by
  obtain ⟨gone, -, hgone, hcleared⟩ := cleared_removeCovered cfg h packet true
  refine ⟨hcleared.ground_eq, Keyed.entries_eq_nil fun pos => ?_⟩
  rw [hcleared.entity]
  split
  · rfl
  · next hpos =>
    cases hthere : s.chunk.entities.find? pos with
    | none => rfl
    | some e => exact absurd ((hgone pos).2 ⟨by rw [hthere]; rfl, .inl rfl⟩) hpos

theorem withSections_self (s : Site α τ) : s.withSections s.chunk.sections [] = s := by
  simp [withSections]

theorem withSections_withSections (s : Site α τ) (sections sections' : Sections)
    (news news' : List Event) : (s.withSections sections news).withSections sections' news' =
      s.withSections sections' (news ++ news') := by
  have hevents : (s.level.events.map (· ++ news.toArray)).map (· ++ news'.toArray) =
      s.level.events.map (· ++ (news ++ news').toArray) := by
    rw [Option.map_map]
    congr 1
    funext events
    simp
  unfold withSections
  rw [hevents]

/-- A section is put in its place, and it is told if it is empty unlike the one before. -/
theorem replaceSection_eq (s : Site α τ) (cfg : Config α τ) {index : Nat}
    (hindex : index < s.chunk.sections.size) (new : Option Section) :
    s.replaceSection cfg index new = s.withSections (s.chunk.sections.setIfInBounds index new)
      (s.chunk.statusChange? cfg index new).toList := by
  have hafter : ({ s.chunk with sections := s.chunk.sections.setIfInBounds index new } :
      Chunk α).isSectionEmpty index = new.all Section.isEmpty := by
    unfold Chunk.isSectionEmpty Chunk.section?
    rw [join_setIfInBounds hindex, if_pos rfl]
  unfold replaceSection Chunk.statusChange? withSections
  simp only [hafter]
  split
  · simp
  · simp [push, Level.push]

/-- What a packet does in one place. -/
def placeSection (cfg : Config α τ) (found : List (Nat × Section)) (full : Bool) (s : Site α τ)
    (index : Nat) : Site α τ :=
  match found.find? fun entry => entry.1 = index with
  | some (_, new) => s.replaceSection cfg index (some new)
  | none => if full then s.replaceSection cfg index none else s

theorem placeSection_eq (s : Site α τ) (cfg : Config α τ) (found : List (Nat × Section))
    (full : Bool) {index : Nat} (hindex : index < s.chunk.sections.size) :
    s.placeSection cfg found full index =
      s.withSections (s.chunk.sections.setIfInBounds index (s.chunk.placed? found full index))
        (s.chunk.statusChange? cfg index (s.chunk.placed? found full index)).toList := by
  unfold placeSection Chunk.placed?
  cases found.find? fun entry => entry.1 = index with
  | some entry => exact replaceSection_eq s cfg hindex (some entry.2)
  | none =>
    cases full with
    | true => exact replaceSection_eq s cfg hindex none
    | false =>
      -- the place keeps the section it has
      have hnone : s.chunk.statusChange? cfg index (s.chunk.section? index) = none :=
        if_pos rfl
      simp only [Bool.false_eq_true, if_false, hnone]
      unfold Chunk.section?
      rw [setIfInBounds_join]
      exact s.withSections_self.symm

/-- **Sections are put in their places one after another**, and of each it is told if it is empty
unlike before. -/
theorem foldl_placeSection (s : Site α τ) (cfg : Config α τ) (found : List (Nat × Section))
    (full : Bool) {n : Nat} (hn : n ≤ s.chunk.sections.size) :
    ∃ sections, (List.range n).foldl (placeSection cfg found full) s =
        s.withSections sections ((List.range n).filterMap fun index =>
          s.chunk.statusChange? cfg index (s.chunk.placed? found full index)) ∧
      sections.size = s.chunk.sections.size ∧
      ∀ index, sections[index]?.join =
        if index < n then s.chunk.placed? found full index else s.chunk.section? index := by
  induction n with
  | zero => exact ⟨s.chunk.sections, s.withSections_self.symm, rfl, fun index => rfl⟩
  | succ n ih =>
    obtain ⟨sections, hfold, hsize, hsections⟩ := ih (Nat.le_of_succ_le hn)
    have hlt : n < sections.size := Nat.lt_of_lt_of_eq hn hsize.symm
    rw [List.range_succ, List.foldl_append, hfold, List.foldl_cons, List.foldl_nil,
      List.filterMap_append]
    generalize (List.range n).filterMap (fun index => s.chunk.statusChange? cfg index
      (s.chunk.placed? found full index)) = told
    -- the place of the step still holds what it held at first
    have hold : (s.withSections sections told).chunk.section? n = s.chunk.section? n := by
      have hn := hsections n
      rwa [if_neg (Nat.lt_irrefl n)] at hn
    have hplaced : (s.withSections sections told).chunk.placed? found full n =
        s.chunk.placed? found full n := by
      unfold Chunk.placed?
      rw [hold]
    have hstatus : (s.withSections sections told).chunk.statusChange? cfg n =
        s.chunk.statusChange? cfg n := by
      funext new
      unfold Chunk.statusChange? Chunk.isSectionEmpty
      rw [hold]
      rfl
    refine ⟨sections.setIfInBounds n (s.chunk.placed? found full n), ?_,
      Array.size_setIfInBounds.trans hsize, fun index => ?_⟩
    · rw [placeSection_eq _ cfg found full hlt, hplaced, hstatus, withSections_withSections,
        List.filterMap_cons]
      cases s.chunk.statusChange? cfg n (s.chunk.placed? found full n) <;> rfl
    · rw [join_setIfInBounds hlt, hsections]
      by_cases heq : index = n
      · rw [if_pos heq, if_pos (heq ▸ Nat.lt_succ_self n), heq]
      · rw [if_neg heq]
        exact if_congr (by omega) rfl rfl

/-- A place that no section is for is passed by all that wait. -/
theorem filter_succ_le_of_find? {found : List (Nat × Section)} {n : Nat}
    (h : (found.find? fun entry => entry.1 = n) = none) :
    (found.filter fun entry => n ≤ entry.1) = found.filter fun entry => n + 1 ≤ entry.1 := by
  refine List.filter_congr fun entry hmem => ?_
  have hne : entry.1 ≠ n := by simpa using List.find?_eq_none.1 h entry hmem
  exact decide_eq_decide.2 (by omega)

/-- Of the sections that are for a place or one above it, the first is taken if it is for that
place. -/
theorem takeSection?_filter {found : List (Nat × Section)}
    (h : found.Pairwise fun a b => a.1 < b.1) (n : Nat) :
    takeSection? n (found.filter fun entry => n ≤ entry.1) =
      (found.find? fun entry => entry.1 = n).map fun entry =>
        (entry.2, found.filter fun entry => n + 1 ≤ entry.1) := by
  induction found with
  | nil => rfl
  | cons entry rest ih =>
    obtain ⟨hlater, hrest⟩ := List.pairwise_cons.1 h
    rcases Nat.lt_trichotomy entry.1 n with hlt | heq | hgt
    · rw [List.filter_cons_of_neg (by simpa using hlt), ih hrest,
        List.find?_cons_of_neg (by simpa using Nat.ne_of_lt hlt),
        List.filter_cons_of_neg (by simpa using Nat.lt_succ_of_lt hlt)]
    · have hpassed : (rest.find? fun entry => entry.1 = n) = none :=
        List.find?_eq_none.2 fun later hmem => by
          have := hlater later hmem
          simpa using by omega
      rw [List.filter_cons_of_pos (by simpa using Nat.le_of_eq heq.symm),
        List.find?_cons_of_pos (by simpa using heq),
        List.filter_cons_of_neg (by simpa using by omega), filter_succ_le_of_find? hpassed]
      exact if_pos heq
    · have hpassed : ((entry :: rest).find? fun entry => entry.1 = n) = none :=
        List.find?_eq_none.2 fun later hmem => by
          have : n < later.1 := by
            rcases List.mem_cons.1 hmem with rfl | hmem
            · exact hgt
            · exact hgt.trans (hlater later hmem)
          simpa using by omega
      rw [hpassed, List.filter_cons_of_pos (by simpa using Nat.le_of_lt hgt)]
      exact if_neg (Nat.ne_of_gt hgt)

/-- Places and sections that are gone through in step meet: each section finds its place. -/
theorem replaceSections_eq_foldl (s : Site α τ) (cfg : Config α τ) {found : List (Nat × Section)}
    (hfound : found.Pairwise fun a b => a.1 < b.1) (full : Bool) :
    s.replaceSections cfg found full =
      (List.range cfg.height.sectionCount).foldl (placeSection cfg found full) s := by
  -- the sections for the places that are still to come wait
  suffices h : ∀ n, (List.range n).foldl (placeNext cfg full) (s, found) =
      ((List.range n).foldl (placeSection cfg found full) s,
        found.filter fun entry => n ≤ entry.1) from
    congrArg Prod.fst (h cfg.height.sectionCount)
  intro n
  induction n with
  | zero => simp
  | succ n ih =>
    rw [List.range_succ, List.foldl_append, ih, List.foldl_append]
    simp only [List.foldl_cons, List.foldl_nil, placeNext, takeSection?_filter hfound, placeSection]
    cases hnext : found.find? fun entry => entry.1 = n with
    | some entry => rfl
    | none =>
      rw [filter_succ_le_of_find? hnext]
      rfl

/-- **The sections of a packet stand in their places**, and of each it has been told if it is empty
unlike before. -/
theorem replaceSections_eq (s : Site α τ) (cfg : Config α τ) {found : List (Nat × Section)}
    (hfound : found.Pairwise fun a b => a.1 < b.1) (full : Bool)
    (hsize : s.chunk.sections.size = cfg.height.sectionCount) :
    ∃ sections, s.replaceSections cfg found full =
        s.withSections sections ((List.range cfg.height.sectionCount).filterMap fun index =>
          s.chunk.statusChange? cfg index (s.chunk.placed? found full index)) ∧
      sections.size = cfg.height.sectionCount ∧
      ∀ index < cfg.height.sectionCount,
        sections[index]?.join = s.chunk.placed? found full index := by
  obtain ⟨sections, hfold, hplaces, hsections⟩ :=
    foldl_placeSection s cfg found full (Nat.le_of_eq hsize.symm)
  rw [hsize] at hplaces
  exact ⟨sections, (replaceSections_eq_foldl s cfg hfound full).trans hfold, hplaces,
    fun index hindex => by rw [hsections, if_pos hindex]⟩

end Site

/-! ### What has come -/

/-- Each section is found under its index. -/
theorem find?_filterMap_range {β : Type} (f : Nat → Option β) {index n : Nat} (h : index < n) :
    (((List.range n).filterMap fun i => (f i).map fun b => (i, b)).find?
      fun entry => entry.1 = index).map Prod.snd = f index := by
  induction n with
  | zero => exact absurd h (Nat.not_lt_zero _)
  | succ n ih =>
    rw [List.range_succ, List.filterMap_append, List.find?_append]
    rcases Nat.lt_succ_iff_lt_or_eq.1 h with hlt | rfl
    · -- the last one is not the one that is looked for
      have hn : ¬n = index := Nat.ne_of_gt hlt
      have hlast : ([n].filterMap fun i => (f i).map fun b => (i, b)).find?
          (fun entry => entry.1 = index) = none := by
        cases hf : f n <;> simp [hf, hn]
      rw [hlast, Option.or_none]
      exact ih hlt
    · -- none of those before it is
      have hfirst : ((List.range index).filterMap fun i => (f i).map fun b => (i, b)).find?
          (fun entry => entry.1 = index) = none := by
        rw [List.find?_eq_none]
        intro entry hmem
        obtain ⟨i, hi, hentry⟩ := List.mem_filterMap.1 hmem
        obtain ⟨b, -, rfl⟩ := Option.map_eq_some_iff.1 hentry
        have := List.mem_range.1 hi
        simp only [decide_eq_true_eq]
        omega
      rw [hfirst, Option.none_or]
      cases hf : f index <;> simp [hf]

theorem find?_sentContents {c : Chunk α} {cfg : Config α τ} {index : Nat}
    (h : index < cfg.height.sectionCount) :
    ((c.sentContents cfg).sections.find? fun entry => entry.1 = index).map Prod.snd =
      (c.sentSection? index).map (Section.recounted cfg.facts) := by
  have hfound := find?_filterMap_range (fun index =>
    (c.sentSection? index).map (Section.recounted cfg.facts)) h
  simp only [Option.map_map] at hfound
  exact hfound

namespace Chunk

variable {c : Chunk α}

theorem heightmap?_putHeightmap {kind : Nat} (hsize : kind < c.heightmaps.size) (h : Heightmap)
    (number : Nat) : (c.putHeightmap kind h).heightmap? number =
      if number = kind then some h else c.heightmap? number :=
  join_setIfInBounds hsize

/-- Heightmaps are all that putting them changes. -/
theorem foldl_putHeightmap_eq (found : List (Nat × Heightmap)) (c : Chunk α) :
    ∃ heightmaps, found.foldl (fun c (number, h) => c.putHeightmap number h) c =
      { c with heightmaps } ∧ heightmaps.size = c.heightmaps.size := by
  induction found generalizing c with
  | nil => exact ⟨c.heightmaps, rfl, rfl⟩
  | cons entry found ih =>
    obtain ⟨heightmaps, heq, hsize⟩ := ih (c.putHeightmap entry.1 entry.2)
    exact ⟨heightmaps, heq, hsize.trans Array.size_setIfInBounds⟩

/-- **Heightmaps of numbered kinds are put in their places**, and the others stay as they are. -/
theorem heightmap?_foldl_kinds (kinds : List HeightmapKind)
    (f : HeightmapKind × Nat → Option Heightmap) (hsize : kinds.length ≤ c.heightmaps.size)
    (number : Nat) :
    ((kinds.zipIdx.filterMap fun entry => (f entry).map fun h => (entry.2, h)).foldl
        (fun c (number, h) => c.putHeightmap number h) c).heightmap? number =
      (kinds[number]?.bind fun kind => f (kind, number)).or (c.heightmap? number) := by
  induction kinds using List.reverseRecOn with
  | nil => rfl
  | append_singleton kinds kind ih =>
    -- the last kind has the greatest number
    obtain ⟨slots, hslots, hslots_size⟩ := foldl_putHeightmap_eq
      (kinds.zipIdx.filterMap fun entry => (f entry).map fun h => (entry.2, h)) c
    rw [List.length_append] at hsize
    have hplace : kinds.length < ({ c with heightmaps := slots } : Chunk α).heightmaps.size :=
      hslots_size.symm ▸ hsize
    have ih := ih (Nat.le_of_lt hsize)
    rw [hslots] at ih
    rw [List.zipIdx_append, List.filterMap_append, List.foldl_append, hslots, List.zipIdx_singleton,
      Nat.zero_add, List.filterMap_cons, List.filterMap_nil]
    by_cases hlast : number = kinds.length
    · rw [hlast, List.getElem?_concat_length, Option.bind_some]
      rw [hlast, List.getElem?_eq_none (Nat.le_refl _)] at ih
      cases hf : f (kind, kinds.length) with
      | none => exact ih
      | some h => exact (heightmap?_putHeightmap hplace h _).trans (if_pos rfl)
    · have hkinds : (kinds ++ [kind])[number]? = kinds[number]? := by
        rcases Nat.lt_or_gt_of_ne hlast with hlt | hgt
        · exact List.getElem?_append_left hlt
        · rw [List.getElem?_eq_none (by rw [List.length_append]; exact hgt),
            List.getElem?_eq_none (Nat.le_of_lt hgt)]
      rw [hkinds, ← ih]
      cases f (kind, kinds.length) with
      | none => rfl
      | some h => exact (heightmap?_putHeightmap hplace h _).trans (if_neg hlast)

/-- What is shown depends on the sections that are sent, and not on their counters. -/
theorem blockAt_of_sent {cfg : Config α τ} {c received : Chunk α}
    (hc : cfg.SoundSections c.sections)
    (hreceived : ∀ index < cfg.height.sectionCount, received.section? index =
      (c.sentSection? index).map (Section.recounted cfg.facts)) (pos : BlockPos) :
    ∃ state, c.blockAt cfg pos = .ok state ∧ received.blockAt cfg pos = .ok state := by
  unfold blockAt occupiedSection?
  cases hi : cfg.height.sectionIndex? pos.y with
  | none => exact ⟨.air, rfl, rfl⟩
  | some index =>
    have hlt := (HeightLimit.sectionIndex?_eq_some_iff.1 hi).1
    rw [Option.bind_some, Option.bind_some, hreceived index hlt, ← sentSection?]
    cases hs : c.sentSection? index with
    | none => exact ⟨.air, rfl, rfl⟩
    | some s =>
      obtain ⟨hsection, hfull⟩ := Option.filter_eq_some_iff.1 hs
      have hsound := hc.sound index s hsection
      refine ⟨s.stateAt pos, ?_, ?_⟩
      · simp only [hsound.get_eq]
        rfl
      · rw [Option.map_some, Option.filter_some, hsound.isEmpty_recounted, if_pos hfull]
        simp only [hsound.recounted.get_eq, Section.stateAt_recounted]
        rfl

end Chunk

/-- **What becomes of a chunk that gets the packet of another one**: it takes the packet, shows the
same blocks and sends the same heightmaps, and its block entities are gone. -/
theorem Site.loadPacket_of_sendable {cfg : Config α τ} {c : Chunk α} {t : Site α τ}
    (hcount : cfg.facts.stateCount.toNat ≤ 2147483648)
    (hnames : (cfg.heightmaps.map HeightmapKind.name).Nodup)
    (hc : cfg.Sendable (c.sections, c.heightmaps)) (ht : cfg.Sized t.blocks) (htick : t.canTick)
    (biomes : Biomes) :
    let out := t.loadPacket cfg (some biomes) (c.sectionsPacket cfg)
    out.1 = .ok () ∧
      (∀ pos, ∃ state, c.blockAt cfg pos = .ok state ∧ out.2.chunk.blockAt cfg pos = .ok state) ∧
      (∀ (number : Nat) (kind : HeightmapKind), cfg.heightmaps[number]? = some kind →
        kind.isSent → out.2.chunk.heightmapLongs? number = c.heightmapLongs? number) ∧
      out.2.chunk.biomes = biomes ∧ out.2.chunk.entities.entries = [] ∧ cfg.Sized out.2.blocks := by
  obtain ⟨hground, hentities⟩ := removeCovered_full cfg htick (c.sectionsPacket cfg)
  have hread := readPacket_sectionsPacket hcount hnames hc
  unfold loadPacket
  rw [hread]
  simp only [Option.isSome_some, Option.getD_some]
  generalize t.removeCovered cfg (c.sectionsPacket cfg).mask true = cleared at hground hentities ⊢
  obtain ⟨hsections, hheightmaps⟩ := Prod.mk.inj (blocks_eq hground)
  obtain ⟨sections, hreplaced, hsize, hfound⟩ := replaceSections_eq
    { cleared with chunk := { cleared.chunk with biomes } } cfg (ascending_of_readPacket hread) true
    ((congrArg Array.size hsections).trans ht.sections)
  rw [hreplaced]
  simp only
  have hplaces : cleared.chunk.heightmaps.size = cfg.heightmaps.length :=
    (congrArg Array.size hheightmaps).trans ht.heightmaps
  obtain ⟨heightmaps, hput, hput_size⟩ := Chunk.foldl_putHeightmap_eq
    (c.sentContents cfg).heightmaps { cleared.chunk with biomes, sections }
  have hslots : ∀ (number : Nat) (kind : HeightmapKind), cfg.heightmaps[number]? = some kind →
      kind.isSent → ∀ h, c.heightmap? number = some h → heightmaps[number]?.join = some h := by
    intro number kind hkind hsent h hslot
    have hkinds := Chunk.heightmap?_foldl_kinds (c := { cleared.chunk with biomes, sections })
      cfg.heightmaps c.sentHeightmap? (Nat.le_of_eq hplaces.symm) number
    rw [hkind, Option.bind_some, Chunk.sentHeightmap?, if_pos hsent, hslot] at hkinds
    exact (congrArg (Chunk.heightmap? · number) hput).symm.trans hkinds
  unfold withSections
  simp only
  rw [hput]
  refine ⟨trivial, fun pos => ?_, fun number kind hkind hsent => ?_, rfl, hentities, hsize, ?_⟩
  · refine Chunk.blockAt_of_sent hc.sections (fun index hindex => ?_) pos
    rw [← find?_sentContents hindex, ← Chunk.placed?_full cleared.chunk]
    exact hfound index hindex
  · obtain ⟨h, hslot, -⟩ := hc.heightmaps number kind hkind (HeightmapKind.isLive_of_isSent hsent)
    unfold Chunk.heightmapLongs? Chunk.heightmap?
    rw [hslots number kind hkind hsent h hslot, show c.heightmaps[number]?.join = some h from hslot]
  · exact hput_size.trans hplaces

/-- **A chunk is received as it was sent.** After any run of writes to a new chunk its packet is
taken, together with biomes, by any chunk that can tick its block entities. Both show the same
blocks then and have the same heightmaps for clients. -/
theorem Site.loadPacket_sectionsPacket {cfg : Config α τ} (hair : cfg.facts.isAir .air)
    (hcount : cfg.facts.stateCount.toNat ≤ 2147483648)
    (hnames : (cfg.heightmaps.map HeightmapKind.name).Nodup)
    (init : ChunkInit α) (hinit : init.sections = none)
    {s : Site α τ} (hs : s.chunk = .new cfg init) (writes : List BlockWrite)
    (hw : s.OnlyWrites (fun _ state => state.FitsIn cfg.globalBits) cfg writes)
    {t : Site α τ} (ht : cfg.Sized t.blocks) (htick : t.canTick) (biomes : Biomes) :
    let c := (s.setBlocks cfg writes).chunk
    let out := t.loadPacket cfg (some biomes) (c.sectionsPacket cfg)
    out.1 = .ok () ∧
      (∀ pos, ∃ state, c.blockAt cfg pos = .ok state ∧ out.2.chunk.blockAt cfg pos = .ok state) ∧
      (∀ (number : Nat) (kind : HeightmapKind), cfg.heightmaps[number]? = some kind →
        kind.isSent → out.2.chunk.heightmapLongs? number = c.heightmapLongs? number) ∧
      out.2.chunk.biomes = biomes ∧ out.2.chunk.entities.entries = [] := by
  intro c out
  have hstart : cfg.Sendable s.blocks := by
    unfold blocks
    rw [hs]
    exact Config.sendable_new hinit
  have hc : cfg.Sendable (s.setBlocks cfg writes).blocks :=
    setBlocks_keeps (fun s index pos state h hs hi => h.storeBlock hair hi hs) writes hstart hw
  obtain ⟨hok, hblocks, hheights, hbiomes, hentities, -⟩ :=
    loadPacket_of_sendable hcount hnames hc ht htick biomes
  exact ⟨hok, hblocks, hheights, hbiomes, hentities⟩

/-- A client gets one stone from a new chunk of the world of stone. -/
theorem loadPacket_stone :
    let c := (Site.setBlocks stoneWorld ⟨.new stoneWorld { pos := ⟨0, 0⟩ }, { isClient := false }⟩
      [{ pos := ⟨3, 5, 4⟩, state := ⟨1⟩ }]).chunk
    let out := Site.loadPacket ⟨.new stoneWorld { pos := ⟨0, 0⟩ }, { isClient := true }⟩ stoneWorld
      (some (.filled stoneWorld.height ⟨0⟩)) (c.sectionsPacket stoneWorld)
    out.1 = .ok () ∧
      (∀ pos, ∃ state, c.blockAt stoneWorld pos = .ok state ∧
        out.2.chunk.blockAt stoneWorld pos = .ok state) ∧
      (∀ (number : Nat) (kind : HeightmapKind), stoneWorld.heightmaps[number]? = some kind →
        kind.isSent → out.2.chunk.heightmapLongs? number = c.heightmapLongs? number) ∧
      out.2.chunk.biomes = .filled stoneWorld.height ⟨0⟩ ∧ out.2.chunk.entities.entries = [] :=
  Site.loadPacket_sectionsPacket (by decide) (by decide) (by decide)
    { pos := ⟨0, 0⟩ } rfl rfl _
    (Site.onlyWrites_of_default stoneWorld_default _ (by decide))
    (Config.sized_new _ _) rfl _

end VoxelChunk
