import VoxelChunk.Proofs.Section
import VoxelChunk.Proofs.Storage.Reread

/-!
# Received sections

The blocks of a section that was received can all be read, and its counters count them. Writing
blocks afterwards changes these blocks and carries the counters along, and no other block changes,
as long as the palette is kept. The states of a received palette need not fit the registry, though:
once writes make the palette give way to the numbers of the states, those that do not fit are cut.

## Main definitions

* `Section.Readable` — sections whose blocks can all be read.
* `Section.Counted` — sections with readable blocks and right counters.
* `Section.Fitting` — sections with readable blocks in states that fit.
* `Section.setAll` — any number of writes.
* `Container.Keeps` — no state is cut between two containers.

## Main results

* `Section.Readable.set` — a write leaves all blocks readable.
* `Section.decode_counted` — what is received is counted.
* `Section.Fitting.set` — where all states fit, a write changes one block.
* `Section.Counted.setChecked` — checks stop the writes that would cut states.
* `Section.Counted.setAll` — counters stay right unless states are cut.
* `Section.setAll_received` — what a received section holds after any writes.
-/

namespace VoxelChunk

/-- If a function maps a list without failure, it fails on no member. -/
theorem ok_of_mapM {ε α β : Type} {f : α → Except ε β} {l : List α} {images : List β}
    (h : l.mapM f = .ok images) : ∀ a ∈ l, ∃ b, f a = .ok b := by
  induction l generalizing images with
  | nil => simp
  | cons a l ih =>
    rw [List.mapM_cons] at h
    cases ha : f a with
    | error e => simp [ha, bind, Except.bind] at h
    | ok b =>
      cases hl : l.mapM f with
      | error e => simp [ha, hl, bind, Except.bind] at h
      | ok rest =>
        intro x hx
        rcases List.mem_cons.1 hx with rfl | hx
        · exact ⟨b, ha⟩
        · exact ih hl x hx

namespace Container

variable {c d : Container} {i : Nat} {state : BlockState}

/-- A container whose cells can all be read stores its states in one of the two ways. -/
theorem Regular.canonical (h : c.Regular) {states : List BlockState}
    (hread : c.toList? = .ok states) : c.Canonical := by
  cases hp : c.palette with
  | direct => exact (canonical_direct hp).2 (h.direct hp).1
  | indexed entries =>
    obtain ⟨hnodup, hrange, -, hsize⟩ := h.indexed entries hp
    refine (canonical_indexed hp).2 ⟨hnodup, hrange, hsize, fun i hi => ?_⟩
    obtain ⟨state, hstate⟩ := ok_of_mapM hread i (List.mem_range.2 hi)
    rw [get, hp] at hstate
    exact lt_size_of_state hstate

/-- No state of `c` is cut in `d`: all states fit, or no palette is given up. -/
def Keeps (c d : Container) : Prop :=
  (∀ i < c.length, (c.stateAt i).FitsIn c.globalBits) ∨ ¬c.Drops d

theorem Edited.stateAt_of_keeps (h : Edited c i state d) (hk : c.Keeps d) {j : Nat}
    (hj : j < c.length) : d.stateAt j = if j = i then state else c.stateAt j := by
  rw [h.stateAt j hj]
  rcases hk with hfits | hkept
  · rw [BlockState.cut_of_fits (hfits j hj), ite_self]
  · rw [if_neg hkept]

/-- If no state is cut in the course of writes, none is by the first of them, and none later. -/
theorem Edited.keeps (h : Edited c i state d) (hs : state.FitsIn c.globalBits) {e : Container}
    (hdirect : d.palette = .direct → e.palette = .direct) (hk : c.Keeps e) :
    c.Keeps d ∧ d.Keeps e := by
  rcases hk with hfits | hkept
  · have hk : c.Keeps d := .inl hfits
    refine ⟨hk, .inl fun j hj => ?_⟩
    rw [h.length] at hj
    rw [h.globalBits, h.stateAt_of_keeps hk hj]
    split
    · exact hs
    · exact hfits j hj
  · refine ⟨.inr fun hdrop => hkept ⟨hdrop.1, hdirect hdrop.2⟩, .inr fun hdrop => ?_⟩
    exact hkept ⟨fun hp => hdrop.1 (h.direct hp), hdrop.2⟩

/-! ### Checked writes -/

theorem fitsCell_eq_true_iff : c.fitsCell state = true ↔ state.FitsIn c.globalBits := by
  rw [fitsCell, decide_eq_true_iff, Nat.one_shiftLeft]
  exact Iff.rfl

/-- The cells pass the check if all their states fit. -/
theorem Canonical.failedCellCheck?_eq_none_iff (h : c.Canonical)
    (hs : state.FitsIn c.globalBits) :
    c.failedCellCheck? state = none ↔ ∀ i < c.length, (c.stateAt i).FitsIn c.globalBits := by
  unfold failedCellCheck?
  simp only [if_pos (fitsCell_eq_true_iff.2 hs)]
  generalize hfind : List.findSome? _ _ = failed
  cases failed with
  | none =>
    rw [List.findSome?_eq_none_iff] at hfind
    refine iff_of_true rfl fun i hi => ?_
    have hcell := hfind i (List.mem_range.2 hi)
    rw [h.get_eq hi] at hcell
    simpa [fitsCell_eq_true_iff] using hcell
  | some failure =>
    obtain ⟨i, hmem, hcell⟩ := List.exists_of_findSome?_eq_some hfind
    have hi := List.mem_range.1 hmem
    rw [h.get_eq hi] at hcell
    obtain ⟨hcut, hcheck⟩ := Option.ite_none_left_eq_some.1 hcell
    obtain rfl := Option.some.inj hcheck
    exact iff_of_false nofun fun hall => hcut (fitsCell_eq_true_iff.2 (hall i hi))

/-- **A check fails just when a state would be cut**, for states that fit. -/
theorem Canonical.failedCheck?_eq_none_iff (h : c.Canonical) (hs : state.FitsIn c.globalBits)
    (hi : i < c.length) : c.failedCheck? i state = none ↔ c.Keeps (c.set i state).2 := by
  obtain ⟨raw, d, hn, hset⟩ := h.set_eq state hi
  have hpalette : (c.set i state).2.palette = d.palette := by rw [hset]
  unfold failedCheck?
  rw [h.get_eq hi]
  cases hn with
  | direct hp =>
    simp only [hp, if_pos (fitsCell_eq_true_iff.2 hs), true_iff]
    exact .inr fun hdrop => hdrop.1 hp
  | @known states index hp hindex =>
    have hmem : state ∈ states := Array.mem_of_getElem? hindex
    simp only [hp, if_pos (Or.inl hmem), true_iff]
    exact .inr fun hdrop => hdrop.1 (hpalette ▸ hdrop.2)
  | @pushed states cells hp hnew _ _ _ hmax hroom =>
    obtain ⟨-, -, hsize, -⟩ := (canonical_indexed hp).1 h
    have hwide : states.size < 1 <<< c.bits ∨ c.bits + 1 ≤ maxIndexBits := by
      by_cases hgrow : c.bits + 1 ≤ maxIndexBits
      · exact .inr hgrow
      · -- these cells are as wide as any, so they have not been widened
        refine .inl (Nat.lt_of_lt_of_le hroom ?_)
        rw [Nat.one_shiftLeft]
        refine Nat.pow_le_pow_right (by decide) (hmax.trans ?_)
        exact Nat.le_of_lt_succ (Nat.lt_of_not_le hgrow)
    simp only [hp, if_pos (Or.inr hwide), true_iff]
    exact .inr fun hdrop => nomatch hpalette.symm.trans hdrop.2
  | @dropped states d hp hnew hfull hd =>
    obtain ⟨-, ⟨-, hmax⟩, hsize, -⟩ := (canonical_indexed hp).1 h
    have hnarrow : ¬(state ∈ states ∨ states.size < 1 <<< c.bits ∨ c.bits + 1 ≤ maxIndexBits) := by
      have hpow : 2 ^ 8 ≤ 2 ^ c.bits := hfull.trans hsize
      have hbits : c.bits = 8 :=
        Nat.le_antisymm hmax ((Nat.pow_le_pow_iff_right (by decide)).1 hpow)
      rw [hbits]
      rintro (hmem | hroom | hgrow)
      · exact hnew (Array.mem_toList_iff.2 hmem)
      · exact Nat.not_le_of_lt hroom hfull
      · exact absurd hgrow (by decide)
    have hdrop : c.Drops (c.set i state).2 := by
      refine ⟨?_, hpalette.trans hd.palette⟩
      simp [hp]
    simp only [hp, if_neg hnarrow]
    rw [h.failedCellCheck?_eq_none_iff hs, Keeps]
    exact (or_iff_left (not_not_intro hdrop)).symm

end Container

namespace Counters

theorem add_right_cancel {a b c : Counters} (h : a + c = b + c) : a = b := by
  have hnonAir := congrArg nonAir h
  have hticks := congrArg randomTicks h
  have hfluids := congrArg fluids h
  simp only [add_nonAir, add_randomTicks, add_fluids, UInt16.add_left_inj] at hnonAir hticks hfluids
  exact ext hnonAir hticks hfluids

end Counters

namespace Section

variable {facts : BlockFacts} {globalBits : Nat} {s : Section} {state : BlockState}

/-! ### Readable sections -/

/-- All blocks can be read, and whatever is written next, they stay readable. -/
structure Readable (s : Section) : Prop where
  states : s.states.Canonical
  length : s.states.length = cellCount

theorem Readable.cellIndex_lt (h : s.Readable) (pos : BlockPos) :
    cellIndex pos < s.states.length :=
  h.length ▸ VoxelChunk.cellIndex_lt pos

theorem Readable.get_eq (h : s.Readable) (pos : BlockPos) : s.get pos = .ok (s.stateAt pos) :=
  h.states.get_eq (h.cellIndex_lt pos)

/-- All cells are listed. -/
theorem Readable.toList_eq (h : s.Readable) :
    s.toList = (List.range cellCount).map fun i => (cellPos i, s.states.stateAt i) := by
  unfold toList
  rw [← List.filterMap_eq_map]
  refine List.filterMap_congr fun i hi => ?_
  rw [h.states.get_eq (h.length ▸ List.mem_range.1 hi)]
  rfl

theorem readable_empty (globalBits : Nat) : (empty globalBits).Readable :=
  ⟨Container.canonical_filled .., rfl⟩

theorem states_set (facts : BlockFacts) (s : Section) (pos : BlockPos) (state : BlockState) :
    (s.set facts pos state).2.states = (s.states.set (cellIndex pos) state).2 := by
  unfold set
  rcases s.states.set (cellIndex pos) state with ⟨_ | previous, states⟩
  · rfl
  · simp only
    split <;> rfl

/-- **A write succeeds and leaves all blocks readable**, whatever state is written. -/
theorem Readable.set (h : s.Readable) (facts : BlockFacts) (pos : BlockPos) (state : BlockState) :
    (s.set facts pos state).1 = .ok (s.stateAt pos) ∧ (s.set facts pos state).2.Readable := by
  obtain ⟨hout, hcanonical, hlength, -⟩ := h.states.set state (h.cellIndex_lt pos)
  constructor
  · obtain ⟨t, hset, -⟩ := set_of_ok facts hout
    rw [hset]
    rfl
  · refine ⟨?_, ?_⟩
    · rw [states_set]
      exact hcanonical
    · rw [states_set, hlength, h.length]

/-! ### Received sections -/

/-- All blocks can be read, and the counters count them. -/
structure Counted (facts : BlockFacts) (globalBits : Nat) (s : Section) : Prop extends
    s.Readable where
  globalBits : s.states.globalBits = globalBits
  counters : s.counters = Counters.tally facts s.states.allStates

/-- A count of the blocks gives the counters. -/
theorem Counted.recount (h : s.Counted facts globalBits) : s.recount facts = .ok s := by
  rw [Section.recount, h.states.toList?_eq]
  exact congrArg Except.ok (congrArg (Section.mk · s.states) h.counters.symm)

/-- **What is received is counted.** -/
theorem decode_counted {bytes rest : List UInt8}
    (hread : (decoder facts globalBits).decode bytes = (.ok s, rest)) :
    s.Counted facts globalBits := by
  unfold decoder at hread
  obtain ⟨_, mid, -, hread⟩ := Decoder.decode_bind_eq_ok.1 hread
  obtain ⟨states, mid', hstates, hread⟩ := Decoder.decode_bind_eq_ok.1 hread
  obtain ⟨hregular, -, hlength, hglobal⟩ := Container.decode_regular hstates
  -- sections with cells that cannot be read are refused
  cases hlist : states.toList? with
  | error e => simp [Section.recount, hlist, Except.map] at hread
  | ok list =>
    have hcanonical := hregular.canonical hlist
    rw [hcanonical.toList?_eq] at hlist
    simp only [Section.recount, hcanonical.toList?_eq, Except.map] at hread
    obtain ⟨rfl, -⟩ : (⟨_, states⟩ : Section) = s ∧ mid' = rest := by simpa using hread
    exact ⟨⟨hcanonical, hlength⟩, hglobal, rfl⟩

/-! ### Writes -/

theorem Counted.edited (h : s.Counted facts globalBits) (hg : globalBits ≤ 32)
    (hs : state.FitsIn globalBits) (pos : BlockPos) :
    Container.Edited s.states (cellIndex pos) state (s.set facts pos state).2.states := by
  rw [states_set]
  exact (h.states.set_spec (h.globalBits ▸ hg) (h.globalBits ▸ hs) (h.cellIndex_lt pos)).2

/-- The counters follow a write that cuts no states. -/
theorem Counted.set (h : s.Counted facts globalBits) (hg : globalBits ≤ 32)
    (hs : state.FitsIn globalBits) (pos : BlockPos)
    (hk : s.states.Keeps (s.set facts pos state).2.states) :
    (s.set facts pos state).2.Counted facts globalBits := by
  have hlt := h.cellIndex_lt pos
  have hedited := h.edited hg hs pos
  obtain ⟨t, hset, -, hcounters⟩ := set_of_ok facts (h.states.set state hlt).1
  rw [hset] at hk hedited ⊢
  refine ⟨⟨hedited.canonical, hedited.length.trans h.length⟩,
    hedited.globalBits.trans h.globalBits, ?_⟩
  -- counters wrap around, so the new count follows from the sums on both sides
  have hlen : cellIndex pos < s.states.allStates.length := by simpa using hlt
  have htally := Counters.tally_set facts s.states.allStates state hlen
  rw [Container.getElem_allStates, ← Container.allStates_set hedited.length
    fun j hj => hedited.stateAt_of_keeps hk hj] at htally
  rw [h.counters, ← htally] at hcounters
  exact Counters.add_right_cancel hcounters

/-- All blocks can be read, and their states fit. -/
structure Fitting (globalBits : Nat) (s : Section) : Prop extends s.Readable where
  fits : ∀ i < s.states.length, (s.states.stateAt i).FitsIn globalBits
  globalBits : s.states.globalBits = globalBits

theorem SoundStates.fitting (h : s.SoundStates globalBits) : s.Fitting globalBits :=
  ⟨⟨h.states.canonical, h.length⟩, fun _ hi => h.globalBits ▸ h.states.stateAt_fits hi,
    h.globalBits⟩

/-- **Where all states fit, a write of one that fits changes one block**, whatever else the palette
lists. -/
theorem Fitting.set (h : s.Fitting globalBits) (hg : globalBits ≤ 32) (hs : state.FitsIn globalBits)
    (facts : BlockFacts) (pos : BlockPos) :
    (s.set facts pos state).2.Fitting globalBits ∧
      ∀ other, (s.set facts pos state).2.stateAt other =
        if cellIndex other = cellIndex pos then state else s.stateAt other := by
  have hedited :
      Container.Edited s.states (cellIndex pos) state (s.set facts pos state).2.states := by
    rw [states_set]
    exact (h.states.set_spec (h.globalBits ▸ hg) (h.globalBits ▸ hs) (h.cellIndex_lt pos)).2
  have hcell : ∀ i < s.states.length, (s.set facts pos state).2.states.stateAt i =
      if i = cellIndex pos then state else s.states.stateAt i := fun i hi =>
    hedited.stateAt_of_keeps (.inl fun j hj => h.globalBits ▸ h.fits j hj) hi
  refine ⟨⟨⟨hedited.canonical, hedited.length.trans h.length⟩, fun i hi => ?_,
    hedited.globalBits.trans h.globalBits⟩, fun other => hcell _ (h.cellIndex_lt other)⟩
  rw [hedited.length] at hi
  rw [hcell i hi]
  split
  · exact hs
  · exact h.fits i hi

/-- **Checks stop all writes that would cut states**: a write fails a check and leaves the section
as it is, or it changes one block and the counters follow. -/
theorem Counted.setChecked (h : s.Counted facts globalBits) (hg : globalBits ≤ 32)
    (hs : state.FitsIn globalBits) (pos : BlockPos) :
    (∃ check, s.setChecked facts pos state = (.error check, s)) ∨
      (s.setChecked facts pos state).1 = .ok (.ok (s.stateAt pos)) ∧
        (s.setChecked facts pos state).2.Counted facts globalBits ∧
        ∀ other, (s.setChecked facts pos state).2.stateAt other =
          if cellIndex other = cellIndex pos then state else s.stateAt other := by
  unfold Section.setChecked
  cases hcheck : s.states.failedCheck? (cellIndex pos) state with
  | some check => exact .inl ⟨check, rfl⟩
  | none =>
    have hk : s.states.Keeps (s.set facts pos state).2.states := by
      rw [states_set]
      exact (h.states.failedCheck?_eq_none_iff (h.globalBits ▸ hs) (h.cellIndex_lt pos)).1 hcheck
    refine .inr ⟨congrArg Except.ok (h.toReadable.set facts pos state).1, h.set hg hs pos hk,
      fun other => ?_⟩
    exact (h.edited hg hs pos).stateAt_of_keeps hk (h.cellIndex_lt other)

/-- Write states, one after another. -/
def setAll (facts : BlockFacts) (s : Section) : List (BlockPos × BlockState) → Section
  | [] => s
  | (pos, state) :: rest => (s.set facts pos state).2.setAll facts rest

@[simp] theorem setAll_singleton (facts : BlockFacts) (s : Section) (pos : BlockPos)
    (state : BlockState) : s.setAll facts [(pos, state)] = (s.set facts pos state).2 :=
  rfl

/-- Writes to blocks as writes to cells. -/
def cellWrites (writes : List (BlockPos × BlockState)) : List (Nat × BlockState) :=
  writes.map fun w => (cellIndex w.1, w.2)

theorem states_setAll (facts : BlockFacts) (s : Section) (writes : List (BlockPos × BlockState)) :
    (s.setAll facts writes).states = (s.states.setAll (cellWrites writes)).2 := by
  induction writes generalizing s with
  | nil => rfl
  | cons w rest ih =>
    rcases w with ⟨pos, state⟩
    rw [setAll, ih, states_set]
    rfl

theorem rewritten_setAll (h : s.states.Canonical) (hlength : s.states.length = cellCount)
    (hg : s.states.globalBits ≤ 32) (facts : BlockFacts) (writes : List (BlockPos × BlockState))
    (hw : ∀ w ∈ writes, w.2.FitsIn s.states.globalBits) :
    Container.Rewritten s.states (cellWrites writes) (s.setAll facts writes).states := by
  rw [states_setAll]
  refine h.setAll_spec hg _ fun w hmem => ?_
  obtain ⟨⟨pos, state⟩, hin, rfl⟩ := List.mem_map.1 hmem
  exact ⟨hlength ▸ cellIndex_lt pos, hw (pos, state) hin⟩

/-- **The counters stay right** unless states are cut. -/
theorem Counted.setAll (h : s.Counted facts globalBits) (hg : globalBits ≤ 32)
    (writes : List (BlockPos × BlockState)) (hw : ∀ w ∈ writes, w.2.FitsIn globalBits)
    (hk : s.states.Keeps (s.setAll facts writes).states) :
    (s.setAll facts writes).Counted facts globalBits := by
  induction writes generalizing s with
  | nil => exact h
  | cons w rest ih =>
    rcases w with ⟨pos, state⟩
    have hs := hw (pos, state) List.mem_cons_self
    have hrest : ∀ w ∈ rest, w.2.FitsIn globalBits := fun w hmem =>
      hw w (List.mem_cons_of_mem _ hmem)
    have hedited := h.edited hg hs pos
    have hlength := hedited.length.trans h.length
    have hglobal := hedited.globalBits.trans h.globalBits
    have hrun := rewritten_setAll hedited.canonical hlength (hglobal ▸ hg) facts rest
      (hglobal ▸ hrest)
    obtain ⟨hfirst, hlater⟩ := hedited.keeps (h.globalBits ▸ hs) hrun.direct hk
    exact ih (h.set hg hs pos hfirst) hrest hlater

/-- **What a received section holds after any writes.** All blocks can be read before and after.
A block that was written holds the state that was written last, and any other block the received
state, cut to the width of the registry if the palette was given up. If no state was cut, the
counters are those of a new count. -/
theorem setAll_received (hg : globalBits ≤ 32) {bytes rest : List UInt8}
    (hread : (decoder facts globalBits).decode bytes = (.ok s, rest))
    (writes : List (BlockPos × BlockState)) (hw : ∀ w ∈ writes, w.2.FitsIn globalBits) :
    (∀ pos, s.get pos = .ok (s.stateAt pos)) ∧
      (∀ pos, (s.setAll facts writes).get pos = .ok ((writePlain
        (fun i =>
          if s.states.Drops (s.setAll facts writes).states then
            (s.states.stateAt i).cut globalBits
          else s.states.stateAt i)
        (cellWrites writes)).2 (cellIndex pos))) ∧
      (s.states.Keeps (s.setAll facts writes).states →
        (s.setAll facts writes).recount facts = .ok (s.setAll facts writes)) := by
  have h := decode_counted hread
  have hrun := rewritten_setAll h.states h.length (h.globalBits ▸ hg) facts writes
    (h.globalBits ▸ hw)
  refine ⟨h.get_eq, fun pos => ?_, fun hk => (h.setAll hg writes hw hk).recount⟩
  have hlt := h.cellIndex_lt pos
  rw [get, hrun.canonical.get_eq (Nat.lt_of_lt_of_eq hlt hrun.length.symm), hrun.stateAt _ hlt,
    h.globalBits]

/-! ### States that are cut -/

/-- The answers about air and solid blocks. -/
def solidFacts : BlockFacts where
  stateCount := 64
  blockOf := fun s => ⟨s.id⟩
  isAir := fun s => s == .air
  fluidState := fun _ => .empty
  fluidOf := fun _ => ⟨0⟩
  blocksMovement := fun s => s != .air
  hasEntity := fun _ => false

/-- A full palette of states that do not fit six bits. Only the first of them is used. -/
def crowded : Section :=
  ⟨{}, 6, .indexed (Container.statesFrom 1000 256).toArray, .zero 8 cellCount⟩

theorem regular_crowded : crowded.states.Regular where
  indexed := by
    rintro _ ⟨⟩
    have hbits : crowded.states.bits = 8 := rfl
    refine ⟨Container.nodup_statesFrom (by decide), by omega, ?_, ?_⟩ <;> simp [hbits]
  direct := nofun

theorem canonical_crowded : crowded.states.Canonical := by
  obtain ⟨hnodup, hrange, hpos, hsize⟩ := regular_crowded.indexed _ rfl
  refine (Container.canonical_indexed rfl).2 ⟨hnodup, hrange, hsize, fun i _ => ?_⟩
  show (PackedArray.zero 8 cellCount).get i < _
  rw [PackedArray.get_zero]
  exact hpos

theorem stateAt_crowded (i : Nat) : crowded.states.stateAt i = ⟨1000⟩ := by
  apply Container.stateAt_of_get
  show (Palette.indexed (Container.statesFrom 1000 256).toArray).state
    ((PackedArray.zero 8 cellCount).get i) = _
  rw [PackedArray.get_zero, Container.state_indexed (by simp)]
  simp [Container.statesFrom]

theorem decode_crowded :
    (decoder solidFacts 6).decode crowded.encode = (.ok (crowded.recounted solidFacts), []) := by
  have hwritable : crowded.states.Writable := by
    rintro _ ⟨⟩ s hs
    have := (Container.mem_statesFrom (by decide)).1 hs
    omega
  have hread := decoder_reads_canonical solidFacts canonical_crowded regular_crowded rfl
    (show 6 ≤ 32 by decide) hwritable []
  rwa [List.append_nil] at hread

/-- A state that fits is one too many for the palette. -/
theorem drops_crowded (pos : BlockPos) :
    crowded.states.Drops (crowded.states.set (cellIndex pos) ⟨1⟩).2 := by
  refine ⟨nofun, canonical_crowded.palette_set_of_full rfl ?_ ?_ (cellIndex_lt pos)⟩
  · rw [Container.mem_statesFrom (by decide)]
    decide
  · simp

/-- After such a write another block holds 40 and no longer 1000. -/
theorem stateAt_set_crowded (facts : BlockFacts) :
    ((crowded.recounted solidFacts).set facts ⟨0, 0, 0⟩ ⟨1⟩).2.stateAt ⟨1, 0, 0⟩ = ⟨40⟩ := by
  have hedited := (canonical_crowded.set_spec (show 6 ≤ 32 by decide)
    (show BlockState.FitsIn ⟨1⟩ 6 by decide) (cellIndex_lt ⟨0, 0, 0⟩)).2
  have hother : cellIndex ⟨1, 0, 0⟩ ≠ cellIndex ⟨0, 0, 0⟩ := by decide
  unfold stateAt
  rw [states_set, states_recounted, hedited.stateAt _ (cellIndex_lt _), if_neg hother,
    if_pos (drops_crowded _), stateAt_crowded]
  rfl

/-- After one write of a state that fits, another block reads 40 and no longer 1000. -/
theorem setAll_received_crowded :
    6 ≤ 32 ∧
      (decoder solidFacts 6).decode crowded.encode = (.ok (crowded.recounted solidFacts), []) ∧
      (∀ w ∈ [((⟨0, 0, 0⟩ : BlockPos), (⟨1⟩ : BlockState))], w.2.FitsIn 6) ∧
      (crowded.recounted solidFacts).get ⟨1, 0, 0⟩ = .ok ⟨1000⟩ ∧
      ((crowded.recounted solidFacts).setAll solidFacts [(⟨0, 0, 0⟩, ⟨1⟩)]).get ⟨0, 0, 0⟩ =
        .ok ⟨1⟩ ∧
      ((crowded.recounted solidFacts).setAll solidFacts [(⟨0, 0, 0⟩, ⟨1⟩)]).get ⟨1, 0, 0⟩ =
        .ok ⟨40⟩ := by
  have hw : ∀ w ∈ [((⟨0, 0, 0⟩ : BlockPos), (⟨1⟩ : BlockState))], w.2.FitsIn 6 := by decide
  obtain ⟨hbefore, hafter, -⟩ := setAll_received (show 6 ≤ 32 by decide) decode_crowded
    [(⟨0, 0, 0⟩, ⟨1⟩)] hw
  have hdrops : (crowded.recounted solidFacts).states.Drops
      ((crowded.recounted solidFacts).setAll solidFacts [(⟨0, 0, 0⟩, ⟨1⟩)]).states := by
    rw [setAll_singleton, states_set, states_recounted]
    exact drops_crowded _
  have hwritten : ∀ f : Nat → BlockState, (writePlain f (cellWrites [(⟨0, 0, 0⟩, ⟨1⟩)])).2
      (cellIndex ⟨0, 0, 0⟩) = ⟨1⟩ := fun _ => rfl
  have hother : ∀ f : Nat → BlockState, (writePlain f (cellWrites [(⟨0, 0, 0⟩, ⟨1⟩)])).2
      (cellIndex ⟨1, 0, 0⟩) = f (cellIndex ⟨1, 0, 0⟩) := fun _ => rfl
  refine ⟨by decide, decode_crowded, hw, ?_, ?_, ?_⟩
  · rw [hbefore, stateAt_recounted, stateAt, stateAt_crowded]
  · rw [hafter, hwritten]
  · rw [hafter, hother, if_pos hdrops, states_recounted, stateAt_crowded]
    rfl

end Section

end VoxelChunk
