import VoxelChunk.Proofs.Chunk.Mirror
import VoxelChunk.Proofs.Chunk.Packet
import VoxelChunk.Proofs.Chunk.Rejected

/-!
# Packets that are accepted

A packet that can be read changes what it covers and nothing else. It covers the sections whose bits
are set, with the block entities in them and the tickers and listeners of those, and the heightmaps
that it has. A packet that stands for the whole chunk covers all sections and all block entities,
also those above and below the world.

## Main definitions

* `SectionsPacket.Decodes` — a section as it is read from a packet.
* `Site.Accepted` — what there is after a packet, part by part.

## Main results

* `readSections_found` — which sections are read from a packet.
* `Site.place_contents` — what the sections and heightmaps of a packet do.
* `Site.accepted_loadPacket` — an accepted packet changes exactly what it covers.
-/

namespace VoxelChunk

variable {α τ : Type}

/-! ### What a packet covers -/

namespace SectionsPacket

/-- A section is in the packet, all before it can be read, and it is read from what they leave. -/
def Decodes (packet : SectionsPacket) (facts : BlockFacts) (globalBits index : Nat)
    (sec : Section) : Prop :=
  packet.mask[index]? = some true ∧ ∃ rest,
    unread? facts globalBits (packet.mask.take index) packet.data = some rest ∧
      ((Section.decoder facts globalBits).decode rest).1 = .ok sec

end SectionsPacket

namespace Site

/-- What there is once a packet has been accepted, by which the block entities at some positions
are gone. -/
structure Accepted (cfg : Config α τ) (biomes : Option Biomes) (packet : SectionsPacket)
    (gone : List BlockPos) (s t : Site α τ) : Prop where
  mask : packet.mask.length = cfg.height.sectionCount
  /-- A section whose bit is set is the one that has been decoded for it. -/
  set : ∀ index, packet.mask[index]? = some true → ∃ sec,
    packet.Decodes cfg.facts cfg.globalBits index sec ∧ t.chunk.section? index = some sec
  /-- The other sections are absent if there are biomes, and as they were if there are none. -/
  unset : ∀ index, packet.mask[index]? = some false →
    t.chunk.section? index = if biomes.isSome then none else s.chunk.section? index
  mem_gone : ∀ pos, pos ∈ gone ↔ (s.chunk.entities.find? pos).isSome ∧
    packet.Covers cfg.height biomes.isSome pos
  nodup : gone.Nodup
  stripped : s.Stripped gone t
  /-- Where each name stands for a ticker of its position, the other positions keep theirs. -/
  tickerAt : s.Wired → ∀ pos, t.tickerAt? pos = if pos ∈ gone then none else s.tickerAt? pos
  biomes_eq : t.chunk.biomes = biomes.getD s.chunk.biomes
  /-- A heightmap that the packet has is made of exactly its words. -/
  heightmap : ∀ number kind longs, cfg.heightmaps[number]? = some kind →
    packet.heightmaps.findLongArray? kind.name = some longs → ∃ h,
      (Heightmap.flat cfg.height).setLongs longs = .ok h ∧ h.toLongs = longs ∧
        t.chunk.heightmap? number = some h
  /-- The other heightmaps are as they were. -/
  other_heightmap : ∀ number, (∀ kind, cfg.heightmaps[number]? = some kind →
    packet.heightmaps.findLongArray? kind.name = none) →
      t.chunk.heightmap? number = s.chunk.heightmap? number
  /-- Events tell which block entities are gone, and then, from the bottom up, of each section that
  is empty unlike before whether it is so. -/
  adds : s.Adds t (gone.map .entityRemoved ++
    (List.range cfg.height.sectionCount).filterMap fun index =>
      s.chunk.statusChange? cfg index (t.chunk.section? index))
  sized : cfg.Sized t.blocks
  /-- Nothing else of the chunk has changed. -/
  chunk : t.chunk = { s.chunk with
    sections := t.chunk.sections
    heightmaps := t.chunk.heightmaps
    biomes := t.chunk.biomes
    entities := t.chunk.entities
    tickers := t.chunk.tickers
    dispatchers := t.chunk.dispatchers }
  /-- Nothing else of the level has changed. -/
  level : t.level = { s.level with tickers := t.level.tickers, events := t.level.events }

end Site

/-! ### Sections that are read -/

/-- **Which sections are read**: those whose bits are set, each from what the ones before it leave
of the data. -/
theorem readSections_found {facts : BlockFacts} {globalBits first : Nat} {mask : List Bool}
    {data rest : List UInt8} {found : List (Nat × Section)}
    (h : (readSections facts globalBits first mask).decode data = (.ok found, rest)) :
    (∀ index, mask[index]? = some true → ∃ rest sec,
      unread? facts globalBits (mask.take index) data = some rest ∧
        ((Section.decoder facts globalBits).decode rest).1 = .ok sec ∧
        found.find? (fun entry => entry.1 = first + index) = some (first + index, sec)) ∧
      ∀ number, (∀ index, number = first + index → mask[index]? ≠ some true) →
        found.find? (fun entry => entry.1 = number) = none := by
  induction mask generalizing first data found with
  | nil =>
    cases h
    exact ⟨nofun, fun _ _ => rfl⟩
  | cons present mask ih =>
    -- the sections above are those of the rest of the mask
    have hshift : ∀ index, first + 1 + index = first + (index + 1) := by omega
    cases present with
    | false =>
      obtain ⟨hset, hunset⟩ := ih h
      refine ⟨fun index hbit => ?_, fun number hnumber => hunset number fun index heq => ?_⟩
      · cases index with
        | zero => cases hbit
        | succ index =>
          rw [← hshift]
          exact hset index hbit
      · exact hnumber (index + 1) (heq.trans (hshift index))
    | true =>
      obtain ⟨sec, left, others, hread, hothers, rfl⟩ := readSections_cons_eq_ok.1 h
      obtain ⟨hset, hunset⟩ := ih hothers
      refine ⟨fun index hbit => ?_, fun number hnumber => ?_⟩
      · cases index with
        | zero =>
          exact ⟨data, sec, rfl, congrArg Prod.fst hread,
            List.find?_cons_of_pos (decide_eq_true rfl)⟩
        | succ index =>
          obtain ⟨rest', sec', hunread, hdecoded, hfound⟩ := hset index hbit
          refine ⟨rest', sec', ?_, hdecoded, ?_⟩
          · rw [List.take_succ_cons, unread?, hread]
            exact hunread
          · rw [← hshift, List.find?_cons_of_neg (by simp; omega)]
            exact hfound
      · have hne : first ≠ number := fun heq => hnumber 0 heq.symm rfl
        rw [List.find?_cons_of_neg (by simpa using hne)]
        exact hunset number fun index heq => hnumber (index + 1) (heq.trans (hshift index))

section

variable {packet : SectionsPacket} {facts : BlockFacts} {globalBits index : Nat}
  {found : List (Nat × Section)}
  (h : ((readSections facts globalBits 0 packet.mask).decode packet.data).1 = .ok found)
include h

/-- The section that comes to an index whose bit is set. -/
theorem Chunk.placed?_of_set (c : Chunk α) (full : Bool)
    (hbit : packet.mask[index]? = some true) :
    ∃ sec, packet.Decodes facts globalBits index sec ∧ c.placed? found full index = some sec := by
  obtain ⟨rest, sec, hunread, hdecoded, hfound⟩ :=
    (readSections_found (Prod.ext h rfl)).1 index hbit
  rw [Nat.zero_add] at hfound
  refine ⟨sec, ⟨hbit, rest, hunread, hdecoded⟩, ?_⟩
  unfold placed?
  rw [hfound]

/-- What comes to an index whose bit is not set. -/
theorem Chunk.placed?_of_unset (c : Chunk α) (full : Bool)
    (hbit : packet.mask[index]? = some false) :
    c.placed? found full index = if full then none else c.section? index := by
  have hnone := (readSections_found (Prod.ext h rfl)).2 index fun other heq hother => by
    rw [Nat.zero_add] at heq
    rw [← heq, hbit] at hother
    cases hother
  unfold placed?
  rw [hnone]

end

/-! ### Heightmaps that are read -/

/-- The heightmaps of an accepted packet have as many words as needed. -/
theorem SectionsPacket.not_misfits {cfg : Config α τ} {packet : SectionsPacket}
    {contents : PacketContents} (h : readPacket cfg packet = .ok contents) {kind : HeightmapKind}
    (hkind : kind ∈ cfg.heightmaps) (words : Nat) : ¬packet.Misfits cfg.height kind words := by
  intro hmisfits
  obtain ⟨e, he⟩ := exists_rejectedFor_iff.2 (.inr (.inr ⟨kind, hkind, words, hmisfits⟩))
  rw [readPacket_eq_error_iff.2 he] at h
  cases h

theorem SectionsPacket.exists_setLongs {cfg : Config α τ} {packet : SectionsPacket}
    {contents : PacketContents} (h : readPacket cfg packet = .ok contents) {kind : HeightmapKind}
    (hkind : kind ∈ cfg.heightmaps) {longs : List Int64}
    (hfield : packet.heightmaps.findLongArray? kind.name = some longs) :
    ∃ map, (Heightmap.flat cfg.height).setLongs longs = .ok map := by
  by_cases hlength : longs.length = cfg.height.heightmapWords
  · obtain ⟨map, hset, -⟩ := ((Heightmap.fits_flat cfg.height).setLongs longs).1 hlength
    exact ⟨map, hset⟩
  · exact absurd ⟨longs, hfield, rfl, hlength⟩ (not_misfits h hkind longs.length)

/-! ### Whole packets -/

namespace Site

variable {cfg : Config α τ} {s : Site α τ}

/-- **Sections and heightmaps of a packet stand in their places**, and of each section it has been
told if it is empty unlike before. Block entities do not matter for it. -/
theorem place_contents (hsized : cfg.Sized s.blocks) {packet : SectionsPacket}
    {contents : PacketContents} (hread : readPacket cfg packet = .ok contents) (full : Bool) :
    ∃ sections slots,
      (let placed := s.replaceSections cfg contents.sections full
        let c := contents.heightmaps.foldl (fun c (number, h) => c.putHeightmap number h)
          placed.chunk
        ({ placed with chunk := c } : Site α τ)) =
      Site.withSections { s with chunk := { s.chunk with heightmaps := slots } } sections
        ((List.range cfg.height.sectionCount).filterMap fun index =>
          s.chunk.statusChange? cfg index sections[index]?.join) ∧
      cfg.Sized (sections, slots) ∧
      (∀ index < cfg.height.sectionCount,
        sections[index]?.join = s.chunk.placed? contents.sections full index) ∧
      ∀ number, slots[number]?.join =
        (cfg.heightmaps[number]?.bind (readHeightmap? cfg.height packet.heightmaps)).or
          (s.chunk.heightmap? number) := by
  obtain ⟨-, -, hmaps⟩ := of_readPacket hread
  have hfound : contents.heightmaps = cfg.heightmaps.zipIdx.filterMap fun entry =>
      (readHeightmap? cfg.height packet.heightmaps entry.1).map fun h => (entry.2, h) := by
    rw [readHeightmaps_eq fun entry hentry longs =>
      SectionsPacket.exists_setLongs hread (List.fst_mem_of_mem_zipIdx hentry)] at hmaps
    exact (Except.ok.inj hmaps).symm
  obtain ⟨sections, hreplaced, hsize, hplaced⟩ :=
    replaceSections_eq s cfg (ascending_of_readPacket hread) full hsized.sections
  have hslots := Chunk.heightmap?_foldl_kinds (c := { s.chunk with sections }) cfg.heightmaps
    (fun entry => readHeightmap? cfg.height packet.heightmaps entry.1)
    (Nat.le_of_eq hsized.heightmaps.symm)
  obtain ⟨slots, hput, hput_size⟩ :=
    Chunk.foldl_putHeightmap_eq contents.heightmaps { s.chunk with sections }
  rw [← hfound, hput] at hslots
  -- what is told is how the sections are now
  have hnews : (List.range cfg.height.sectionCount).filterMap (fun index =>
      s.chunk.statusChange? cfg index (s.chunk.placed? contents.sections full index)) =
      (List.range cfg.height.sectionCount).filterMap fun index =>
        s.chunk.statusChange? cfg index sections[index]?.join :=
    List.filterMap_congr fun index hindex => by rw [hplaced index (List.mem_range.1 hindex)]
  refine ⟨sections, slots, ?_, ⟨hsize, hput_size.trans hsized.heightmaps⟩, hplaced, hslots⟩
  simp only [hreplaced, withSections, hput, hnews]

/-- A packet that can be read is accepted. -/
theorem loadPacket_of_readPacket {biomes : Option Biomes} {packet : SectionsPacket}
    {contents : PacketContents} (h : readPacket cfg packet = .ok contents) :
    (s.loadPacket cfg biomes packet).1 = .ok () := by
  unfold loadPacket
  rw [h]

/-- **An accepted packet changes exactly what it covers.** The chunk can tick its block entities.
The sections of the packet are as they have been decoded, and the others are absent if there are
biomes and else as they were. The block entities that the packet covers are gone with their tickers
and listeners, the biomes are those given, heightmaps have the words of the packet, and events tell
of each section that is empty unlike before. All else is as it was. -/
theorem accepted_loadPacket (hsized : cfg.Sized s.blocks) (htick : s.canTick)
    (biomes : Option Biomes) (packet : SectionsPacket)
    (hok : (s.loadPacket cfg biomes packet).1 = .ok ()) :
    ∃ gone, Accepted cfg biomes packet gone s (s.loadPacket cfg biomes packet).2 := by
  unfold loadPacket at hok ⊢
  cases hread : readPacket cfg packet with
  | error e =>
    rw [hread] at hok
    cases hok
  | ok contents =>
    obtain ⟨hmask, hsections, -⟩ := of_readPacket hread
    have hbound : ∀ {index bit}, packet.mask[index]? = some bit →
        index < cfg.height.sectionCount := by
      intro index bit hbit
      obtain ⟨hlt, -⟩ := List.getElem?_eq_some_iff.1 hbit
      rwa [hmask] at hlt
    obtain ⟨gone, hnodup, hgone, hcleared⟩ :=
      cleared_removeCovered cfg htick packet biomes.isSome
    simp only
    generalize s.removeCovered cfg packet.mask biomes.isSome = cleared at hcleared ⊢
    obtain ⟨entities, names, dispatchers, tickers, events, rfl⟩ := hcleared.exists_eq
    have hblocks : cfg.Sized (Site.blocks
      { chunk := { s.chunk with
          entities, tickers := names, dispatchers, biomes := biomes.getD s.chunk.biomes }
        level := { s.level with tickers, events } }) := hsized
    obtain ⟨sections, slots, heq, hsized', hplaced, hslots⟩ :=
      place_contents hblocks hread biomes.isSome
    simp only at heq
    rw [heq]
    refine ⟨gone, ?_⟩
    exact
      { mask := hmask
        set := by
          intro index hbit
          obtain ⟨sec, hdecodes, hsec⟩ := Chunk.placed?_of_set hsections _ biomes.isSome hbit
          exact ⟨sec, hdecodes, (hplaced index (hbound hbit)).trans hsec⟩
        unset := by
          intro index hbit
          exact (hplaced index (hbound hbit)).trans
            (Chunk.placed?_of_unset hsections _ biomes.isSome hbit)
        mem_gone := hgone
        nodup := hnodup
        stripped := ⟨hcleared.entity, hcleared.ticker, hcleared.active, hcleared.listeners⟩
        tickerAt := hcleared.tickerAt?_eq
        biomes_eq := rfl
        heightmap := by
          intro number kind longs hkind hfield
          obtain ⟨h, hset⟩ :=
            SectionsPacket.exists_setLongs hread (List.mem_of_getElem? hkind) hfield
          refine ⟨h, hset, Heightmap.toLongs_of_setLongs hset, (hslots number).trans ?_⟩
          rw [hkind, Option.bind_some, readHeightmap?, hfield, Option.bind_some, hset]
          rfl
        other_heightmap := by
          intro number hnone
          refine (hslots number).trans ?_
          cases hkind : cfg.heightmaps[number]? with
          | none => rfl
          | some kind =>
            rw [Option.bind_some, readHeightmap?, hnone kind hkind]
            rfl
        adds := hcleared.adds.trans rfl
        sized := hsized'
        chunk := rfl
        level := rfl }

end Site

/-! ### A chest that is taken away by a packet -/

/-- The world of chests with one more section, below zero. -/
def tallChests : Config Unit Unit :=
  { chestWorld with height := ⟨-16, 32, by decide, by decide, by decide, by decide⟩ }

/-- A new chunk of that world, whose events are kept. -/
def newTall : Site Unit Unit :=
  ⟨{ Chunk.new tallChests { pos := ⟨0, 0⟩ } with loaded := true },
    { isClient := false, events := some #[] }⟩

/-- A chunk with a chest in each section. -/
def stackedChests : Site Unit Unit :=
  newTall.setBlocks tallChests
    [{ pos := ⟨3, -5, 4⟩, state := ⟨1⟩ }, { pos := ⟨3, 5, 4⟩, state := ⟨1⟩ }]

/-- A chunk with a chest in the lower section. -/
def lowerChest : Site Unit Unit :=
  newTall.setBlocks tallChests [{ pos := ⟨9, -9, 9⟩, state := ⟨1⟩ }]

/-- The packet of that chunk, which has the lower section. -/
def lowerPacket : SectionsPacket := lowerChest.chunk.sectionsPacket tallChests

theorem sendable_lowerChest : tallChests.Sendable lowerChest.blocks := by
  have hnew : tallChests.Sendable newTall.blocks := Config.sendable_new rfl
  exact Site.setBlocks_keeps (fun _ _ _ _ h hs hi => h.storeBlock (by decide) hi hs) _ hnew
    (Site.onlyWrites_of_default ⟨fun _ _ _ _ => rfl, fun _ _ _ _ => rfl⟩ _ (by decide))

/-- The packet comes without biomes: the chest that was in the lower section goes, and the upper one
stays, in a section that is as it was. -/
theorem accepted_lowerPacket :
    (stackedChests.loadPacket tallChests none lowerPacket).1 = .ok () ∧
      (stackedChests.loadPacket tallChests none lowerPacket).2.chunk.entities.find? ⟨3, -5, 4⟩ =
        none ∧
      (stackedChests.loadPacket tallChests none lowerPacket).2.chunk.entities.find? ⟨3, 5, 4⟩ =
        stackedChests.chunk.entities.find? ⟨3, 5, 4⟩ ∧
      (stackedChests.loadPacket tallChests none lowerPacket).2.chunk.section? 1 =
        stackedChests.chunk.section? 1 := by
  have hnew : tallChests.Sized newTall.blocks := Config.sized_new { pos := ⟨0, 0⟩ } newTall.level
  have hsized : tallChests.Sized stackedChests.blocks := hnew.setBlocks _
  have htick : stackedChests.canTick := by decide +kernel
  have hok : (stackedChests.loadPacket tallChests none lowerPacket).1 = .ok () :=
    Site.loadPacket_of_readPacket
      (readPacket_sectionsPacket (by decide) (by decide) sendable_lowerChest)
  have hmask : lowerPacket.mask = [true, false] := by decide +kernel
  have hthere : (stackedChests.chunk.entities.find? ⟨3, -5, 4⟩).isSome := by decide +kernel
  refine ⟨hok, ?_⟩
  obtain ⟨gone, haccepted⟩ := Site.accepted_loadPacket hsized htick none lowerPacket hok
  generalize (stackedChests.loadPacket tallChests none lowerPacket).2 = t at haccepted ⊢
  generalize lowerPacket = packet at haccepted hmask
  have hlower : (⟨3, -5, 4⟩ : BlockPos) ∈ gone :=
    (haccepted.mem_gone _).2 ⟨hthere, .inr ⟨0, by decide, by rw [hmask]; rfl⟩⟩
  have hupper : (⟨3, 5, 4⟩ : BlockPos) ∉ gone := by
    intro hgone
    obtain ⟨-, hfull | ⟨index, hindex, hbit⟩⟩ := (haccepted.mem_gone _).1 hgone
    · cases hfull
    · have hone : tallChests.height.sectionIndex? 5 = some 1 := by decide
      rw [hone] at hindex
      cases hindex
      rw [hmask] at hbit
      cases hbit
  have hunset : packet.mask[1]? = some false := by
    rw [hmask]
    rfl
  refine ⟨?_, ?_, ?_⟩
  · rw [haccepted.stripped.entity, if_pos hlower]
  · rw [haccepted.stripped.entity, if_neg hupper]
  · rw [haccepted.unset 1 hunset, if_neg (by simp)]

end VoxelChunk
