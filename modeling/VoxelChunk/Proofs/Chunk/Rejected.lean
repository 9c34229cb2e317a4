import VoxelChunk.Chunk.Packet
import VoxelChunk.Proofs.Chunk.Write
import VoxelChunk.Proofs.Storage.Packed
import VoxelChunk.Proofs.Wire

/-!
# Packets that are rejected

A packet is rejected for one of three causes: its mask has the wrong length, one of its sections
cannot be read from what those before it have left of the data, or one of its heightmaps has the
wrong number of words. The first cause, in this order, is the one that is told, and the chunk and
its level stay as they are.

## Main definitions

* `unread?` — what sections leave of the data.
* `SectionsPacket.FailsAt`, `SectionsPacket.Misfits` — a section or a heightmap that cannot be read.
* `SectionsPacket.RejectedFor` — the first cause for which a packet is rejected.

## Main results

* `readSections_eq_error_iff`, `readHeightmaps_eq_error_iff` — which section and which heightmap.
* `readPacket_eq_error_iff` — a packet cannot be read exactly for its first cause.
* `Site.loadPacket_rejects` — what becomes of a chunk that gets such a packet.
-/

namespace VoxelChunk

variable {α τ : Type}

/-! ### What is wrong with a packet -/

/-- What is left of the data when the sections whose bits are set have been read, if they can be
read one after another. -/
def unread? (facts : BlockFacts) (globalBits : Nat) :
    List Bool → List UInt8 → Option (List UInt8)
  | [], data => some data
  | false :: mask, data => unread? facts globalBits mask data
  | true :: mask, data =>
    match (Section.decoder facts globalBits).decode data with
    | (.ok _, rest) => unread? facts globalBits mask rest
    | (.error _, _) => none

namespace SectionsPacket

/-- A section is in the packet and all before it can be read, but not this one. -/
def FailsAt (packet : SectionsPacket) (facts : BlockFacts) (globalBits index : Nat)
    (cause : StorageError) : Prop :=
  packet.mask[index]? = some true ∧ ∃ rest,
    unread? facts globalBits (packet.mask.take index) packet.data = some rest ∧
      ((Section.decoder facts globalBits).decode rest).1 = .error cause

/-- The heightmap of a kind is in the packet, with another number of words than the height asks
for. -/
def Misfits (packet : SectionsPacket) (limit : HeightLimit) (kind : HeightmapKind) (words : Nat) :
    Prop :=
  ∃ longs, packet.heightmaps.findLongArray? kind.name = some longs ∧ longs.length = words ∧
    words ≠ limit.heightmapWords

/-- The first cause for which a packet is rejected: its mask, then its sections from the bottom up,
then its heightmaps in the order of their kinds. -/
inductive RejectedFor (packet : SectionsPacket) (cfg : Config α τ) : PacketError → Prop
  | maskLength : packet.mask.length ≠ cfg.height.sectionCount →
    RejectedFor packet cfg (.maskLength cfg.height.sectionCount packet.mask.length)
  | badSection (index : Nat) (cause : StorageError) :
    packet.mask.length = cfg.height.sectionCount →
    packet.FailsAt cfg.facts cfg.globalBits index cause →
    RejectedFor packet cfg (.badSection index cause)
  | badHeightmap (before after : List HeightmapKind) (kind : HeightmapKind) (words : Nat) :
    packet.mask.length = cfg.height.sectionCount →
    (∀ index cause, ¬packet.FailsAt cfg.facts cfg.globalBits index cause) →
    cfg.heightmaps = before ++ kind :: after →
    (∀ earlier ∈ before, ∀ words, ¬packet.Misfits cfg.height earlier words) →
    packet.Misfits cfg.height kind words →
    RejectedFor packet cfg
      (.badHeightmap kind.name (.invalidDataLength cfg.height.heightmapWords words))

end SectionsPacket

/-! ### Sections -/

/-- What is made of the value that is read does not matter for the error. -/
theorem Decoder.fst_decode_bind_pure_eq_error {ε β γ : Type} {d : Decoder ε β} {f : β → γ}
    {bytes : List UInt8} {e : ε} :
    ((d >>= fun b => pure (f b)).decode bytes).1 = .error e ↔ (d.decode bytes).1 = .error e := by
  rw [decode_bind]
  generalize d.decode bytes = out
  obtain ⟨_ | b, rest⟩ := out
  · constructor <;> (rintro ⟨⟩; rfl)
  · constructor <;> rintro ⟨⟩

/-- **Sections cannot be read exactly if one of them cannot**, and then the first such one is
told. -/
theorem readSections_eq_error_iff {facts : BlockFacts} {globalBits first : Nat} {mask : List Bool}
    {data : List UInt8} {e : PacketError} :
    ((readSections facts globalBits first mask).decode data).1 = .error e ↔
      ∃ index cause rest, mask[index]? = some true ∧
        unread? facts globalBits (mask.take index) data = some rest ∧
        ((Section.decoder facts globalBits).decode rest).1 = .error cause ∧
        e = .badSection (first + index) cause := by
  induction mask generalizing first data with
  | nil =>
    constructor
    · rintro ⟨⟩
    · rintro ⟨index, cause, rest, ⟨⟩, -⟩
  | cons present mask ih =>
    -- the sections above are those of the rest of the mask
    have hshift : ∀ index, first + 1 + index = first + (index + 1) := by omega
    cases present with
    | false =>
      rw [readSections, ih]
      constructor
      · rintro ⟨index, cause, rest, hbit, hunread, hcause, rfl⟩
        exact ⟨index + 1, cause, rest, hbit, hunread, hcause, by rw [hshift]⟩
      · rintro ⟨_ | index, cause, rest, hbit, hunread, hcause, rfl⟩
        · cases hbit
        · exact ⟨index, cause, rest, hbit, hunread, hcause, by rw [hshift]⟩
    | true =>
      rw [readSections, Decoder.decode_bind, Decoder.decode_mapError]
      cases hread : (Section.decoder facts globalBits).decode data with
      | mk outcome rest =>
        cases outcome with
        | error cause =>
          constructor
          · rintro ⟨⟩
            exact ⟨0, cause, data, rfl, rfl, congrArg Prod.fst hread, rfl⟩
          · rintro ⟨_ | index, cause', rest', hbit, hunread, hcause, rfl⟩
            · cases hunread
              rw [hread] at hcause
              cases hcause
              rfl
            · rw [List.take_succ_cons, unread?, hread] at hunread
              cases hunread
        | ok sec =>
          show ((readSections facts globalBits (first + 1) mask >>= fun others =>
            pure ((first, sec) :: others)).decode rest).1 = .error e ↔ _
          rw [Decoder.fst_decode_bind_pure_eq_error, ih]
          constructor
          · rintro ⟨index, cause, rest', hbit, hunread, hcause, rfl⟩
            refine ⟨index + 1, cause, rest', hbit, ?_, hcause, by rw [hshift]⟩
            rw [List.take_succ_cons, unread?, hread]
            exact hunread
          · rintro ⟨_ | index, cause, rest', hbit, hunread, hcause, rfl⟩
            · cases hunread
              rw [hread] at hcause
              cases hcause
            · rw [List.take_succ_cons, unread?, hread] at hunread
              exact ⟨index, cause, rest', hbit, hunread, hcause, by rw [hshift]⟩

/-! ### The first of a list -/

/-- A list with a member of a kind has a first one. -/
theorem exists_first {β : Type} {P : β → Prop} {xs : List β} (h : ∃ x ∈ xs, P x) :
    ∃ before x after, xs = before ++ x :: after ∧ (∀ y ∈ before, ¬P y) ∧ P x := by
  induction xs with
  | nil =>
    obtain ⟨x, hx, -⟩ := h
    exact absurd hx List.not_mem_nil
  | cons x xs ih =>
    by_cases hx : P x
    · exact ⟨[], x, xs, rfl, List.forall_mem_nil _, hx⟩
    · have hrest : ∃ y ∈ xs, P y := by simpa [hx] using h
      obtain ⟨before, y, after, rfl, hbefore, hy⟩ := ih hrest
      exact ⟨x :: before, y, after, rfl, List.forall_mem_cons.mpr ⟨hx, hbefore⟩, hy⟩

/-- A fold whose steps fail for what they are given alone fails for the first that does. -/
theorem foldlM_eq_error_iff {β γ ε : Type} {f : β → γ → Except ε β} {P : γ → ε → Prop}
    (hf : ∀ b x e, f b x = .error e ↔ P x e) {xs : List γ} {b : β} {e : ε} :
    xs.foldlM f b = .error e ↔
      ∃ before x after, xs = before ++ x :: after ∧ (∀ y ∈ before, ∀ e, ¬P y e) ∧ P x e := by
  induction xs generalizing b with
  | nil =>
    constructor
    · rintro ⟨⟩
    · rintro ⟨before, x, after, hsplit, -⟩
      exact absurd hsplit.symm (List.append_ne_nil_of_right_ne_nil before (List.cons_ne_nil _ _))
  | cons x xs ih =>
    rw [List.foldlM_cons]
    cases hstep : f b x with
    | error e' =>
      have hx : P x e' := (hf b x e').mp hstep
      constructor
      · rintro ⟨⟩
        exact ⟨[], x, xs, rfl, List.forall_mem_nil _, hx⟩
      · rintro ⟨_ | ⟨y, before⟩, z, after, hsplit, hbefore, hz⟩
        · cases hsplit
          exact hstep.symm.trans ((hf b x e).mpr hz)
        · cases hsplit
          exact absurd hx (hbefore x List.mem_cons_self e')
    | ok b' =>
      have hx : ∀ e, ¬P x e := by
        intro e' hP
        rw [(hf b x e').mpr hP] at hstep
        cases hstep
      show xs.foldlM f b' = .error e ↔ _
      rw [ih]
      constructor
      · rintro ⟨before, z, after, rfl, hbefore, hz⟩
        exact ⟨x :: before, z, after, rfl, List.forall_mem_cons.mpr ⟨hx, hbefore⟩, hz⟩
      · rintro ⟨_ | ⟨y, before⟩, z, after, hsplit, hbefore, hz⟩
        · cases hsplit
          exact absurd hz (hx e)
        · cases hsplit
          exact ⟨before, z, after, rfl, (List.forall_mem_cons.mp hbefore).2, hz⟩

/-! ### Heightmaps -/

theorem SectionsPacket.misfits_iff {packet : SectionsPacket} {limit : HeightLimit}
    {kind : HeightmapKind} {longs : List Int64} {words : Nat}
    (h : packet.heightmaps.findLongArray? kind.name = some longs) :
    packet.Misfits limit kind words ↔ longs.length = words ∧ words ≠ limit.heightmapWords := by
  constructor
  · rintro ⟨longs', hlongs, hwords⟩
    rw [h] at hlongs
    cases hlongs
    exact hwords
  · intro hwords
    exact ⟨longs, h, hwords⟩

/-- **Heightmaps cannot be read exactly if one of them has the wrong number of words**, and then the
first such one is told. -/
theorem readHeightmaps_eq_error_iff {packet : SectionsPacket} {limit : HeightLimit}
    {kinds : List HeightmapKind} {e : PacketError} :
    readHeightmaps limit packet.heightmaps kinds.zipIdx = .error e ↔
      ∃ before kind after, kinds = before ++ kind :: after ∧
        (∀ earlier ∈ before, ∀ words, ¬packet.Misfits limit earlier words) ∧
        ∃ words, packet.Misfits limit kind words ∧
          e = .badHeightmap kind.name (.invalidDataLength limit.heightmapWords words) := by
  unfold readHeightmaps
  refine (foldlM_eq_error_iff (P := fun entry e => ∃ words, packet.Misfits limit entry.1 words ∧
    e = .badHeightmap entry.1.name (.invalidDataLength limit.heightmapWords words)) ?_).trans ?_
  · rintro found ⟨kind, number⟩ e
    dsimp only
    cases hfield : packet.heightmaps.findLongArray? kind.name with
    | none =>
      constructor
      · rintro ⟨⟩
      · rintro ⟨words, ⟨longs, hlongs, -⟩, -⟩
        rw [hfield] at hlongs
        cases hlongs
    | some longs =>
      dsimp only
      simp only [SectionsPacket.misfits_iff hfield]
      obtain ⟨hfits, hmisfits⟩ := (Heightmap.fits_flat limit).setLongs longs
      by_cases hlength : longs.length = limit.heightmapWords
      · obtain ⟨h, hset, -⟩ := hfits hlength
        rw [hset]
        constructor
        · rintro ⟨⟩
        · rintro ⟨words, ⟨rfl, hwords⟩, -⟩
          exact absurd hlength hwords
      · rw [hmisfits hlength]
        constructor
        · rintro ⟨⟩
          exact ⟨longs.length, ⟨rfl, hlength⟩, rfl⟩
        · rintro ⟨words, ⟨rfl, -⟩, rfl⟩
          rfl
  · -- the numbers of the kinds do not matter
    constructor
    · rintro ⟨before, entry, after, hsplit, hbefore, hentry⟩
      refine ⟨before.map Prod.fst, entry.1, after.map Prod.fst, ?_, ?_, hentry⟩
      · rw [← List.zipIdx_map_fst 0 kinds, hsplit, List.map_append, List.map_cons]
      · intro earlier hearlier words hwords
        obtain ⟨entry', hentry', rfl⟩ := List.mem_map.mp hearlier
        exact hbefore entry' hentry' _ ⟨words, hwords, rfl⟩
    · rintro ⟨before, kind, after, rfl, hbefore, hkind⟩
      refine ⟨before.zipIdx, (kind, before.length), after.zipIdx (before.length + 1), ?_, ?_, hkind⟩
      · rw [List.zipIdx_append, List.zipIdx_cons, Nat.zero_add]
      · rintro ⟨earlier, number⟩ hearlier e ⟨words, hwords, -⟩
        exact hbefore earlier (List.fst_mem_of_mem_zipIdx hearlier) words hwords

/-! ### Packets -/

section

variable {cfg : Config α τ} {packet : SectionsPacket}

/-- Sections cannot be read exactly if one of the packet fails, and then it is told which. -/
theorem SectionsPacket.readSections_eq_error_iff {e : PacketError} :
    ((readSections cfg.facts cfg.globalBits 0 packet.mask).decode packet.data).1 = .error e ↔
      ∃ index cause, packet.FailsAt cfg.facts cfg.globalBits index cause ∧
        e = .badSection index cause := by
  rw [VoxelChunk.readSections_eq_error_iff]
  constructor
  · rintro ⟨index, cause, rest, hbit, hunread, hcause, rfl⟩
    exact ⟨index, cause, ⟨hbit, rest, hunread, hcause⟩, by rw [Nat.zero_add]⟩
  · rintro ⟨index, cause, ⟨hbit, rest, hunread, hcause⟩, rfl⟩
    exact ⟨index, cause, rest, hbit, hunread, hcause, by rw [Nat.zero_add]⟩

/-- No section fails if all are read. -/
theorem SectionsPacket.not_failsAt_of_readSections {sections : List (Nat × Section)}
    (h : ((readSections cfg.facts cfg.globalBits 0 packet.mask).decode packet.data).1 =
      .ok sections) (index : Nat) (cause : StorageError) :
    ¬packet.FailsAt cfg.facts cfg.globalBits index cause := by
  intro hfails
  have hread := SectionsPacket.readSections_eq_error_iff.mpr ⟨index, cause, hfails, rfl⟩
  rw [h] at hread
  cases hread

/-- **A packet cannot be read exactly if there is a cause for which it is rejected**, which is the
first. -/
theorem readPacket_eq_error_iff {e : PacketError} :
    readPacket cfg packet = .error e ↔ packet.RejectedFor cfg e := by
  constructor
  · intro h
    by_cases hlength : packet.mask.length = cfg.height.sectionCount
    · cases hread : ((readSections cfg.facts cfg.globalBits 0 packet.mask).decode
          packet.data).1 with
      | error cause =>
        obtain rfl : cause = e := by
          simpa [readPacket, hlength, hread, bind, Except.bind] using h
        obtain ⟨index, cause, hfails, rfl⟩ := SectionsPacket.readSections_eq_error_iff.mp hread
        exact .badSection index cause hlength hfails
      | ok sections =>
        have hmaps : readHeightmaps cfg.height packet.heightmaps cfg.heightmaps.zipIdx =
            .error e := by
          cases hmaps : readHeightmaps cfg.height packet.heightmaps cfg.heightmaps.zipIdx with
          | error cause => simpa [readPacket, hlength, hread, hmaps, bind, Except.bind] using h
          | ok heightmaps =>
            simp [readPacket, hlength, hread, hmaps, bind, Except.bind, pure, Except.pure] at h
        obtain ⟨before, kind, after, hsplit, hbefore, words, hwords, rfl⟩ :=
          readHeightmaps_eq_error_iff.mp hmaps
        exact .badHeightmap before after kind words hlength
          (SectionsPacket.not_failsAt_of_readSections hread) hsplit hbefore hwords
    · obtain rfl : .maskLength cfg.height.sectionCount packet.mask.length = e := by
        simpa [readPacket, hlength, bind, Except.bind, throw, throwThe,
          MonadExceptOf.throw] using h
      exact .maskLength hlength
  · rintro (hlength | ⟨index, cause, hlength, hfails⟩ | ⟨before, after, kind, words, hlength,
      hreadable, hsplit, hbefore, hwords⟩)
    · simp [readPacket, hlength, bind, Except.bind, throw, throwThe, MonadExceptOf.throw]
    · have hread := SectionsPacket.readSections_eq_error_iff.mpr ⟨index, cause, hfails, rfl⟩
      simp [readPacket, hlength, hread, bind, Except.bind]
    · have hmaps := readHeightmaps_eq_error_iff.mpr
        ⟨before, kind, after, hsplit, hbefore, words, hwords, rfl⟩
      cases hread : ((readSections cfg.facts cfg.globalBits 0 packet.mask).decode
          packet.data).1 with
      | error e =>
        obtain ⟨index, cause, hfails, -⟩ := SectionsPacket.readSections_eq_error_iff.mp hread
        exact absurd hfails (hreadable index cause)
      | ok sections => simp [readPacket, hlength, hread, hmaps, bind, Except.bind]

/-- The only section breaks off and a heightmap has one word: it is the section that is told. -/
example : (readPacket stoneWorld
    { mask := [true], data := [0, 1, 4]
      heightmaps := [("WORLD_SURFACE", .longArray [7])] }).map (fun _ => ()) =
    .error (.badSection 0 (.wire .endOfInput)) := by
  decide +kernel

/-- A packet is rejected for some cause exactly if something is wrong with it. -/
theorem SectionsPacket.exists_rejectedFor_iff :
    (∃ e, packet.RejectedFor cfg e) ↔
      packet.mask.length ≠ cfg.height.sectionCount ∨
      (∃ index cause, packet.FailsAt cfg.facts cfg.globalBits index cause) ∨
      ∃ kind ∈ cfg.heightmaps, ∃ words, packet.Misfits cfg.height kind words := by
  constructor
  · rintro ⟨_, hmask | ⟨index, cause, -, hfails⟩ | ⟨before, after, kind, words, -, -, hsplit, -,
      hwords⟩⟩
    · exact .inl hmask
    · exact .inr (.inl ⟨index, cause, hfails⟩)
    · have hkind : kind ∈ cfg.heightmaps := by
        rw [hsplit]
        exact List.mem_append_right before List.mem_cons_self
      exact .inr (.inr ⟨kind, hkind, words, hwords⟩)
  · intro hwrong
    by_cases hlength : packet.mask.length = cfg.height.sectionCount
    · by_cases hfails : ∃ index cause, packet.FailsAt cfg.facts cfg.globalBits index cause
      · obtain ⟨index, cause, hfails⟩ := hfails
        exact ⟨_, .badSection index cause hlength hfails⟩
      · -- mask and sections are in order, so it is a heightmap, and there is a first one
        have hreadable : ∀ index cause, ¬packet.FailsAt cfg.facts cfg.globalBits index cause :=
          fun index cause h => hfails ⟨index, cause, h⟩
        obtain ⟨before, kind, after, hsplit, hbefore, words, hwords⟩ :=
          exists_first ((hwrong.resolve_left (not_not_intro hlength)).resolve_left hfails)
        exact ⟨_, .badHeightmap before after kind words hlength hreadable hsplit
          (fun earlier hearlier words h => hbefore earlier hearlier ⟨words, h⟩) hwords⟩
    · exact ⟨_, .maskLength hlength⟩

end

namespace Site

/-- **A packet is rejected exactly if something is wrong with it**: its mask has the wrong length,
one of its sections cannot be read from what those before it have left, or one of its heightmaps
has the wrong number of words. The first such cause is told, and the site stays as it is. -/
theorem loadPacket_rejects (s : Site α τ) (cfg : Config α τ) (biomes : Option Biomes)
    (packet : SectionsPacket) :
    (∀ e, (s.loadPacket cfg biomes packet).1 = .error e ↔ packet.RejectedFor cfg e) ∧
      ((∃ e, (s.loadPacket cfg biomes packet).1 = .error e) ↔
        packet.mask.length ≠ cfg.height.sectionCount ∨
        (∃ index cause, packet.FailsAt cfg.facts cfg.globalBits index cause) ∨
        ∃ kind ∈ cfg.heightmaps, ∃ words, packet.Misfits cfg.height kind words) ∧
      ∀ e, (s.loadPacket cfg biomes packet).1 = .error e →
        (s.loadPacket cfg biomes packet).2 = s := by
  have hfirst : ∀ e, (s.loadPacket cfg biomes packet).1 = .error e ↔
      packet.RejectedFor cfg e := by
    intro e
    rw [← readPacket_eq_error_iff]
    unfold loadPacket
    cases readPacket cfg packet with
    | error e' => constructor <;> (rintro ⟨⟩; rfl)
    | ok contents => constructor <;> rintro ⟨⟩
  refine ⟨hfirst, ?_, ?_⟩
  · simp only [hfirst]
    exact SectionsPacket.exists_rejectedFor_iff
  · intro e he
    rw [hfirst, ← readPacket_eq_error_iff] at he
    unfold loadPacket
    rw [he]

end Site

end VoxelChunk
