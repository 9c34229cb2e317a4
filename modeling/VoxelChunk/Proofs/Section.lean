import VoxelChunk.Proofs.Storage.Codec
import VoxelChunk.Section

/-!
# Sections that were made by writing blocks

The counters of a section are carried along by every write. They stay as far from a fresh count as
they were, so a section that starts out as air always tells correctly whether it holds only air.

## Main definitions

* `Section.stateAt` — the state of a block, for blocks that can be read.
* `Section.SoundStates`, `Section.Sound` — what every write keeps, without and with the counters.
* `Section.Built` — the sections that can be made from air by writing blocks.
* `Section.recounted` — a section with its counters counted anew.

## Main results

* `Section.SoundStates.set_spec` — a write tells the state before and changes one block.
* `Section.Sound.set` — a write keeps the counters right.
* `Section.Sound.isEmpty_iff` — a section is empty when all its blocks are air.
* `Section.Built.sound` — what is made by writing blocks is sound.
* `Section.decoder_reads` — a section is read as it was written, with new counters.
-/

namespace VoxelChunk

/-! ### Counters -/

namespace Counters

variable {facts : BlockFacts}

@[ext]
theorem ext {a b : Counters} (h₁ : a.nonAir = b.nonAir) (h₂ : a.randomTicks = b.randomTicks)
    (h₃ : a.fluids = b.fluids) : a = b := by
  cases a; cases b; simp_all

@[simp] theorem add_nonAir (a b : Counters) : (a + b).nonAir = a.nonAir + b.nonAir := rfl
@[simp] theorem add_randomTicks (a b : Counters) :
    (a + b).randomTicks = a.randomTicks + b.randomTicks := rfl
@[simp] theorem add_fluids (a b : Counters) : (a + b).fluids = a.fluids + b.fluids := rfl
@[simp] theorem sub_nonAir (a b : Counters) : (a - b).nonAir = a.nonAir - b.nonAir := rfl
@[simp] theorem sub_randomTicks (a b : Counters) :
    (a - b).randomTicks = a.randomTicks - b.randomTicks := rfl
@[simp] theorem sub_fluids (a b : Counters) : (a - b).fluids = a.fluids - b.fluids := rfl

theorem add_assoc (a b c : Counters) : a + b + c = a + (b + c) := by
  ext <;> simp [UInt16.add_assoc]

theorem add_comm (a b : Counters) : a + b = b + a := by
  ext <;> simp [UInt16.add_comm]

theorem zero_add (a : Counters) : {} + a = a := by
  ext <;> simp

theorem sub_add_cancel (a b : Counters) : a - b + b = a := by
  ext <;> simp

@[simp] theorem tally_nil : tally facts [] = {} := rfl

theorem foldl_ofState (states : List BlockState) (a : Counters) :
    states.foldl (fun counters state => counters + ofState facts state) a =
      a + tally facts states := by
  unfold tally
  induction states generalizing a with
  | nil => rw [List.foldl_nil, List.foldl_nil, add_comm, zero_add]
  | cons s rest ih => rw [List.foldl_cons, List.foldl_cons, ih, ih ({} + _), zero_add, add_assoc]

@[simp] theorem tally_cons (s : BlockState) (rest : List BlockState) :
    tally facts (s :: rest) = ofState facts s + tally facts rest := by
  unfold tally
  rw [List.foldl_cons, zero_add, foldl_ofState]
  rfl

/-- A count follows the change of one state as the counters of a section do. -/
theorem tally_set (facts : BlockFacts) (states : List BlockState) (new : BlockState) {i : Nat}
    (h : i < states.length) :
    tally facts (states.set i new) + ofState facts states[i] =
      tally facts states + ofState facts new := by
  induction states generalizing i with
  | nil => exact absurd h (Nat.not_lt_zero i)
  | cons s rest ih =>
    cases i with
    | zero =>
      rw [List.set_cons_zero, tally_cons, tally_cons, List.getElem_cons_zero, add_comm _ (ofState _ s),
        add_comm _ (tally facts rest), add_assoc]
    | succ i =>
      rw [List.set_cons_succ, tally_cons, tally_cons, List.getElem_cons_succ, add_assoc, add_assoc,
        ih (Nat.lt_of_succ_lt_succ h)]

theorem nonAir_tally (states : List BlockState) :
    (tally facts states).nonAir = UInt16.ofNat (states.countP fun s => !facts.isAir s) := by
  induction states with
  | nil => rfl
  | cons s rest ih =>
    rw [tally_cons, add_nonAir, ih, List.countP_cons, UInt16.ofNat_add, UInt16.add_comm]
    cases h : facts.isAir s <;> simp [ofState, h]

end Counters

/-! ### Reading and writing -/

namespace Container

/-- The states of all cells. -/
def allStates (c : Container) : List BlockState := (List.range c.length).map c.stateAt

@[simp] theorem length_allStates (c : Container) : c.allStates.length = c.length := by
  simp [allStates]

theorem getElem_allStates {c : Container} {i : Nat} (h : i < c.allStates.length) :
    c.allStates[i] = c.stateAt i := by
  simp [allStates]

/-- A container that only changed in one cell. -/
theorem allStates_set {c d : Container} {i : Nat} {state : BlockState} (hlength : d.length = c.length)
    (hstate : ∀ j < c.length, d.stateAt j = if j = i then state else c.stateAt j) :
    d.allStates = c.allStates.set i state := by
  apply List.ext_getElem
  · simp [hlength]
  · intro j hj _
    rw [length_allStates, hlength] at hj
    rw [getElem_allStates, hstate j hj, List.getElem_set, getElem_allStates]
    simp only [eq_comm]

theorem Written.allStates {c d : Container} {i : Nat} {state : BlockState}
    (h : Written c i state d) : d.allStates = c.allStates.set i state :=
  allStates_set h.length h.stateAt

end Container

namespace Section

variable {facts : BlockFacts} {globalBits : Nat} {s : Section} {pos : BlockPos} {state : BlockState}

/-- The state of a block, air if it cannot be read. -/
def stateAt (s : Section) (pos : BlockPos) : BlockState := s.states.stateAt (cellIndex pos)

/-- The states of the section were made by writing states that fit. -/
structure SoundStates (globalBits : Nat) (s : Section) : Prop where
  states : s.states.Sound
  length : s.states.length = cellCount
  globalBits : s.states.globalBits = globalBits

/-- What holds of all sections that were made from air by writing states that fit. -/
structure Sound (facts : BlockFacts) (globalBits : Nat) (s : Section) : Prop where
  states : s.states.Sound
  length : s.states.length = cellCount
  globalBits : s.states.globalBits = globalBits
  nonAir : s.counters.nonAir = (Counters.tally facts s.states.allStates).nonAir

theorem Sound.soundStates (h : s.Sound facts globalBits) : s.SoundStates globalBits :=
  ⟨h.states, h.length, h.globalBits⟩

/-- The effect of a write that succeeds on counters and states. -/
theorem set_of_ok (facts : BlockFacts) {old : BlockState}
    (hout : (s.states.set (cellIndex pos) state).1 = .ok old) :
    ∃ t, s.set facts pos state = (.ok old, t) ∧
      t.states = (s.states.set (cellIndex pos) state).2 ∧
      t.counters + Counters.ofState facts old = s.counters + Counters.ofState facts state := by
  unfold set
  generalize s.states.set (cellIndex pos) state = written at hout
  obtain ⟨outcome, states⟩ := written
  cases hout
  by_cases heq : old = state
  · exact ⟨⟨s.counters, states⟩, if_pos heq, rfl, by rw [heq]⟩
  · refine ⟨_, if_neg heq, rfl, ?_⟩
    rw [Counters.add_assoc, Counters.add_comm (.ofState facts state), ← Counters.add_assoc,
      Counters.sub_add_cancel]

namespace SoundStates

theorem cellIndex_lt (h : s.SoundStates globalBits) (pos : BlockPos) :
    cellIndex pos < s.states.length := by
  rw [h.length]
  exact VoxelChunk.cellIndex_lt pos

/-- All blocks can be read. -/
theorem get_eq (h : s.SoundStates globalBits) (pos : BlockPos) : s.get pos = .ok (s.stateAt pos) :=
  h.states.get_eq (h.cellIndex_lt pos)

/-- Stored states fit the cells. -/
theorem stateAt_fits (h : s.SoundStates globalBits) (pos : BlockPos) :
    (s.stateAt pos).FitsIn globalBits := by
  have hfits := h.states.stateAt_fits (h.cellIndex_lt pos)
  rwa [h.globalBits] at hfits

/-- **A write tells the state before and changes one block**, whatever the counters say. -/
theorem set_spec (h : s.SoundStates globalBits) (hs : state.FitsIn globalBits) (facts : BlockFacts)
    (pos : BlockPos) :
    (s.set facts pos state).1 = .ok (s.stateAt pos) ∧
      (s.set facts pos state).2.SoundStates globalBits ∧
      ∀ q, (s.set facts pos state).2.stateAt q =
        if cellIndex q = cellIndex pos then state else s.stateAt q := by
  obtain ⟨hout, hwritten⟩ := Container.set_spec h.states (h.globalBits ▸ hs) (h.cellIndex_lt pos)
  obtain ⟨t, hset, hstates, -⟩ := set_of_ok facts hout
  rw [hset]
  refine ⟨rfl, ⟨?_, ?_, ?_⟩, fun q => ?_⟩
  · rw [hstates]
    exact hwritten.sound
  · rw [hstates, hwritten.length, h.length]
  · rw [hstates, hwritten.globalBits, h.globalBits]
  · unfold stateAt
    rw [hstates, hwritten.stateAt _ (h.cellIndex_lt q)]

/-- A state that is written where it stands changes nothing. -/
theorem set_stateAt (h : s.SoundStates globalBits) (facts : BlockFacts) (pos : BlockPos) :
    s.set facts pos (s.stateAt pos) = (.ok (s.stateAt pos), s) := by
  unfold set stateAt
  rw [h.states.canonical.set_stateAt h.states.global_le (h.cellIndex_lt pos)]
  exact if_pos rfl

end SoundStates

theorem Sound.cellIndex_lt (h : s.Sound facts globalBits) (pos : BlockPos) :
    cellIndex pos < s.states.length :=
  h.soundStates.cellIndex_lt pos

theorem Sound.get_eq (h : s.Sound facts globalBits) (pos : BlockPos) :
    s.get pos = .ok (s.stateAt pos) :=
  h.soundStates.get_eq pos

/-- The counters follow a write. -/
theorem Sound.nonAir_set (h : s.Sound facts globalBits) (hs : state.FitsIn globalBits)
    (pos : BlockPos) : (s.set facts pos state).2.counters.nonAir =
      (Counters.tally facts (s.set facts pos state).2.states.allStates).nonAir := by
  have hlt := h.cellIndex_lt pos
  obtain ⟨hout, hwritten⟩ := Container.set_spec h.states (h.globalBits ▸ hs) hlt
  obtain ⟨t, hset, hstates, hcounters⟩ := set_of_ok facts hout
  rw [hset]
  -- counters wrap around, so the new count follows from the sums on both sides
  have hlen : cellIndex pos < s.states.allStates.length := by simpa using hlt
  have htally := Counters.tally_set facts s.states.allStates state hlen
  rw [Container.getElem_allStates, ← hwritten.allStates, ← hstates] at htally
  have hnonAir := congrArg Counters.nonAir hcounters
  rw [Counters.add_nonAir, Counters.add_nonAir, h.nonAir, ← Counters.add_nonAir (.tally ..),
    ← htally, Counters.add_nonAir] at hnonAir
  exact (UInt16.add_left_inj _).1 hnonAir

/-- A write keeps the counters right. -/
theorem Sound.set (h : s.Sound facts globalBits) (hs : state.FitsIn globalBits) (pos : BlockPos) :
    (s.set facts pos state).2.Sound facts globalBits := by
  obtain ⟨-, hstates, -⟩ := h.soundStates.set_spec hs facts pos
  exact ⟨hstates.states, hstates.length, hstates.globalBits, h.nonAir_set hs pos⟩

/-! ### Empty sections -/

/-- **A section is empty when all its blocks are air.** -/
theorem Sound.isEmpty_iff (h : s.Sound facts globalBits) :
    s.isEmpty ↔ ∀ pos, facts.isAir (s.stateAt pos) := by
  have hcount : s.states.allStates.countP (fun st => !facts.isAir st) ≤ cellCount := by
    rw [← h.length, ← Container.length_allStates]
    exact List.countP_le_length
  -- there are too few cells for the counter to wrap around to zero
  have hzero : s.isEmpty ↔ s.states.allStates.countP (fun st => !facts.isAir st) = 0 := by
    rw [isEmpty, h.nonAir, Counters.nonAir_tally, beq_iff_eq, ← UInt16.toNat_inj,
      UInt16.toNat_ofNat', UInt16.toNat_zero, Nat.mod_eq_of_lt (by unfold cellCount at hcount; omega)]
  rw [hzero, List.countP_eq_zero]
  constructor
  · intro hall pos
    have hmem : s.stateAt pos ∈ s.states.allStates :=
      List.mem_map.2 ⟨cellIndex pos, List.mem_range.2 (h.cellIndex_lt pos), rfl⟩
    simpa using hall _ hmem
  · intro hall st hmem
    obtain ⟨i, hi, rfl⟩ := List.mem_map.1 hmem
    rw [List.mem_range, h.length] at hi
    have hair := hall (cellPos i)
    rw [stateAt, cellIndex_cellPos hi] at hair
    simp [hair]

theorem Sound.stateAt_of_isEmpty (h : s.Sound facts globalBits) (he : s.isEmpty) (pos : BlockPos) :
    facts.isAir (s.stateAt pos) :=
  h.isEmpty_iff.1 he pos

/-! ### Sections made from air -/

@[simp] theorem stateAt_empty (globalBits : Nat) (pos : BlockPos) :
    (empty globalBits).stateAt pos = .air :=
  Container.stateAt_filled ..

theorem soundStates_empty (hg : globalBits ≤ 32) : (empty globalBits).SoundStates globalBits :=
  ⟨Container.sound_filled _ hg (BlockState.air_fitsIn _), rfl, rfl⟩

theorem sound_empty (hg : globalBits ≤ 32) (hair : facts.isAir .air) :
    (empty globalBits).Sound facts globalBits where
  states := Container.sound_filled _ hg (BlockState.air_fitsIn _)
  length := rfl
  globalBits := rfl
  nonAir := by
    have hnone : (empty globalBits).states.allStates.countP (fun st => !facts.isAir st) = 0 := by
      rw [List.countP_eq_zero]
      intro st hmem
      obtain ⟨i, -, rfl⟩ := List.mem_map.1 hmem
      rw [show (empty globalBits).states = .filled cellCount .air globalBits from rfl,
        Container.stateAt_filled]
      simp [hair]
    rw [Counters.nonAir_tally, hnone]
    rfl

/-- The sections that can be made from air by writing states that fit. -/
inductive Built (facts : BlockFacts) (globalBits : Nat) : Section → Prop
  | empty : Built facts globalBits (.empty globalBits)
  | set {s : Section} (pos : BlockPos) (state : BlockState) :
    Built facts globalBits s → state.FitsIn globalBits →
      Built facts globalBits (s.set facts pos state).2

/-- What is made from air by writing blocks is sound. -/
theorem Built.sound (hg : globalBits ≤ 32) (hair : facts.isAir .air)
    (h : Built facts globalBits s) : s.Sound facts globalBits := by
  induction h with
  | empty => exact sound_empty hg hair
  | set pos state _ hs ih => exact ih.set hs pos

/-! ### Bytes -/

/-- The section with its counters counted anew. -/
def recounted (facts : BlockFacts) (s : Section) : Section :=
  ⟨Counters.tally facts s.states.allStates, s.states⟩

theorem Sound.recounted (h : s.Sound facts globalBits) :
    (s.recounted facts).Sound facts globalBits :=
  ⟨h.states, h.length, h.globalBits, rfl⟩

@[simp] theorem states_recounted (facts : BlockFacts) (s : Section) :
    (s.recounted facts).states = s.states :=
  rfl

@[simp] theorem stateAt_recounted (facts : BlockFacts) (s : Section) (pos : BlockPos) :
    (s.recounted facts).stateAt pos = s.stateAt pos :=
  rfl

/-- Counting anew does not change whether a section is empty. -/
theorem Sound.isEmpty_recounted (h : s.Sound facts globalBits) :
    (s.recounted facts).isEmpty = s.isEmpty := by
  rw [isEmpty, isEmpty, h.nonAir]
  rfl

/-- A section whose blocks can be read is read as it was written, with new counters. -/
theorem decoder_reads_canonical (facts : BlockFacts) (h : s.states.Canonical) (hr : s.states.Regular)
    (hlength : s.states.length = cellCount) (hg : s.states.globalBits ≤ 32)
    (hw : s.states.Writable) :
    (decoder facts s.states.globalBits).Reads s.encode (s.recounted facts) := by
  have hwords : s.states.cells.words.size ≤ 2048 := by
    have hlength : s.states.cells.length = cellCount := hlength
    rw [s.states.cells.size_words, hlength]
    exact wordsFor_le cellCount (hr.bits_le hg)
  have hstates := Container.decoder_reads hr hg hw (by omega)
  rw [hlength] at hstates
  have hrecount : recount ⟨{}, s.states⟩ facts = .ok (s.recounted facts) := by
    unfold recount
    rw [h.toList?_eq]
    rfl
  unfold decoder encode
  refine ((readShort_reads s.counters.nonAir).mapError _).bind ?_
  intro rest
  rw [Decoder.decode_bind, hstates]
  simp only [hrecount]
  rfl

/-- **A section is read as it was written**, with new counters. -/
theorem decoder_reads (h : s.Sound facts globalBits) (hw : s.states.Writable) :
    (decoder facts globalBits).Reads s.encode (s.recounted facts) := by
  have hread := decoder_reads_canonical facts h.states.canonical h.states.regular h.length
    h.states.global_le hw
  rwa [h.globalBits] at hread

end Section

end VoxelChunk
