import VoxelChunk.Chunk.Blocks
import VoxelChunk.Chunk.Heights
import VoxelChunk.Proofs.Grid
import VoxelChunk.Proofs.Section

/-!
# The blocks of a chunk

A chunk stores blocks in sections, of which some may be absent. Seen from outside there is one
state for every block: `columnState` tells what is stored, and `Chunk.blockAt` shows the same, but
plain air in sections that hold only air.

## Main definitions

* `Sections.Replaced` — one block differs.
* `Config.SoundStates`, `Config.SoundSections` — as many sections as the world has, all made by
  writing blocks, with any counters or with the right ones.

## Main results

* `Config.SoundStates.set_spec` — a write to a section is a write to one block.
* `Config.SoundSections.set` — it keeps the counters right.
* `Chunk.blockAt_eq` — what is shown for a block.
-/

namespace VoxelChunk

/-! ### Stored blocks -/

section ColumnState

variable {sections : Sections} {limit : HeightLimit} {x y z : Int}

theorem columnState_of_none (h : limit.sectionIndex? y = none) :
    columnState sections limit x y z = .air := by
  unfold columnState
  rw [h]
  rfl

theorem columnState_of_absent {index : Nat} (h : limit.sectionIndex? y = some index)
    (hs : sections[index]?.join = none) : columnState sections limit x y z = .air := by
  unfold columnState
  rw [h, Option.bind_some, hs]

theorem columnState_of_section {index : Nat} {s : Section} (h : limit.sectionIndex? y = some index)
    (hs : sections[index]?.join = some s) :
    columnState sections limit x y z = s.stateAt ⟨x, y, z⟩ := by
  unfold columnState
  rw [h, Option.bind_some, hs]
  rfl

/-- Where all sections are absent, there is only air. -/
theorem columnState_replicate (n : Nat) :
    columnState (Array.replicate n none) limit x y z = .air := by
  cases hi : limit.sectionIndex? y with
  | none => exact columnState_of_none hi
  | some index =>
    apply columnState_of_absent hi
    rw [Array.getElem?_replicate]
    split <;> rfl

/-- Only the place in the chunk matters. -/
theorem columnState_congr {x' z' : Int} (hx : x % 16 = x' % 16) (hz : z % 16 = z' % 16) :
    columnState sections limit x y z = columnState sections limit x' y z' := by
  have hcell : cellIndex ⟨x, y, z⟩ = cellIndex ⟨x', y, z'⟩ := cellIndex_eq_iff.2 ⟨hx, rfl, hz⟩
  unfold columnState Section.get
  rw [hcell]

end ColumnState

theorem join_setIfInBounds {β : Type} {slots : Array (Option β)} {i j : Nat} {b : Option β}
    (hi : i < slots.size) :
    (slots.setIfInBounds i b)[j]?.join = if j = i then b else slots[j]?.join := by
  by_cases h : j = i
  · rw [if_pos h, h, Array.getElem?_setIfInBounds_self_of_lt hi, Option.join_some]
  · rw [if_neg h, Array.getElem?_setIfInBounds_ne (Ne.symm h)]

/-- A slot that is filled with what it holds stays as it is. -/
theorem setIfInBounds_join {β : Type} (slots : Array (Option β)) (i : Nat) :
    slots.setIfInBounds i slots[i]?.join = slots := by
  apply Array.ext_getElem?
  intro j
  rw [Array.getElem?_setIfInBounds]
  split
  · next hij =>
    subst hij
    split
    · next hi => rw [Array.getElem?_eq_getElem hi, Option.join_some]
    · next hi => rw [Array.getElem?_eq_none (Nat.le_of_not_lt hi)]
  · rfl

/-- The stored blocks `after` are those `before` with the one at a position in the given state. -/
def Sections.Replaced (limit : HeightLimit) (before : Sections) (pos : BlockPos)
    (state : BlockState) (after : Sections) : Prop :=
  ∀ x y z, columnState after limit x y z =
    if x % 16 = pos.x % 16 ∧ y = pos.y ∧ z % 16 = pos.z % 16 then state
    else columnState before limit x y z

theorem Sections.Replaced.at_pos {limit : HeightLimit} {before after : Sections} {pos : BlockPos}
    {state : BlockState} (h : Replaced limit before pos state after) :
    columnState after limit pos.x pos.y pos.z = state := by
  rw [h, if_pos ⟨rfl, rfl, rfl⟩]

/-- A block that is replaced by itself changes nothing. -/
theorem Sections.Replaced.of_eq {limit : HeightLimit} {before after : Sections} {pos : BlockPos}
    {state : BlockState} (h : Replaced limit before pos state after)
    (heq : columnState before limit pos.x pos.y pos.z = state) (x y z : Int) :
    columnState after limit x y z = columnState before limit x y z := by
  rw [h]
  split
  · next hc =>
    obtain ⟨hx, rfl, hz⟩ := hc
    rw [columnState_congr hx hz, heq]
  · rfl

namespace Config

variable {α τ : Type} {cfg : Config α τ} {sections : Sections}

theorem globalBits_le (cfg : Config α τ) : cfg.globalBits ≤ 32 := by
  have h := ceilLog2_le (k := 32) (Nat.le_of_lt cfg.facts.stateCount.toNat_lt)
  unfold globalBits
  omega

/-- The sections are as many as the world has, and those that are present were made by writing
blocks. -/
structure SoundSections (cfg : Config α τ) (sections : Sections) : Prop where
  size : sections.size = cfg.height.sectionCount
  sound : ∀ index : Nat, ∀ s : Section,
    sections[index]?.join = some s → s.Sound cfg.facts cfg.globalBits

/-- The sections are as many as the world has, and the states in those that are present were made
by writing states that fit. -/
structure SoundStates (cfg : Config α τ) (sections : Sections) : Prop where
  size : sections.size = cfg.height.sectionCount
  sound : ∀ index : Nat, ∀ s : Section,
    sections[index]?.join = some s → s.SoundStates cfg.globalBits

theorem SoundSections.soundStates (h : cfg.SoundSections sections) : cfg.SoundStates sections :=
  ⟨h.size, fun index s hs => (h.sound index s hs).soundStates⟩

theorem soundSections_replicate (cfg : Config α τ) :
    cfg.SoundSections (Array.replicate cfg.height.sectionCount none) where
  size := Array.size_replicate
  sound := by
    intro index s hs
    rw [Array.getElem?_replicate] at hs
    split at hs <;> cases hs

/-- A block is read in its section, and as air if the section is absent. -/
theorem columnState_eq {limit : HeightLimit} {index : Nat} {x y z : Int}
    (hi : limit.sectionIndex? y = some index) (globalBits : Nat) :
    columnState sections limit x y z =
      (sections[index]?.join.getD (.empty globalBits)).stateAt ⟨x, y, z⟩ := by
  cases hs : sections[index]?.join with
  | none => rw [columnState_of_absent hi hs, Option.getD_none, Section.stateAt_empty]
  | some s => rw [columnState_of_section hi hs, Option.getD_some]

/-- Blocks in other sections are other blocks, and within a section cells tell them apart. -/
theorem replaced_setIfInBounds {pos : BlockPos} {index : Nat} (hlt : index < sections.size)
    (hi : cfg.height.sectionIndex? pos.y = some index) {state : BlockState} {after : Section}
    (hafter : ∀ q, after.stateAt q = if cellIndex q = cellIndex pos then state
      else (sections[index]?.join.getD (.empty cfg.globalBits)).stateAt q) :
    sections.Replaced cfg.height pos state (sections.setIfInBounds index (some after)) := by
  intro x y z
  cases hj : cfg.height.sectionIndex? y with
  | none =>
    rw [columnState_of_none hj, columnState_of_none hj, if_neg]
    rintro ⟨-, rfl, -⟩
    rw [hi] at hj
    cases hj
  | some j =>
    rw [columnState_eq hj cfg.globalBits, join_setIfInBounds hlt]
    by_cases hji : j = index
    · subst hji
      rw [if_pos rfl, Option.getD_some, hafter, columnState_eq hj cfg.globalBits]
      have hcell : cellIndex ⟨x, y, z⟩ = cellIndex pos ↔
          x % 16 = pos.x % 16 ∧ y = pos.y ∧ z % 16 = pos.z % 16 := by
        obtain ⟨-, hy⟩ := HeightLimit.sectionIndex?_eq_some_iff.1 hi
        obtain ⟨-, hy'⟩ := HeightLimit.sectionIndex?_eq_some_iff.1 hj
        simp only [cellIndex_eq_iff]
        omega
      simp only [hcell]
    · rw [if_neg hji, ← columnState_eq hj, if_neg]
      rintro ⟨-, rfl, -⟩
      rw [hi] at hj
      cases hj
      exact hji rfl

namespace SoundStates

/-- The section a write goes to, which is made if it is absent. -/
theorem getD_empty (h : cfg.SoundStates sections) (index : Nat) :
    (sections[index]?.join.getD (.empty cfg.globalBits)).SoundStates cfg.globalBits := by
  cases hs : sections[index]?.join with
  | none => exact Section.soundStates_empty cfg.globalBits_le
  | some s => exact h.sound index s hs

/-- **A write to a section is a write to one block**, whatever the counters say. -/
theorem set_spec (h : cfg.SoundStates sections) {pos : BlockPos} {index : Nat}
    (hi : cfg.height.sectionIndex? pos.y = some index) {state : BlockState}
    (hs : state.FitsIn cfg.globalBits) :
    let before := sections[index]?.join.getD (.empty cfg.globalBits)
    let after := sections.setIfInBounds index (some (before.set cfg.facts pos state).2)
    (before.set cfg.facts pos state).1 =
        .ok (columnState sections cfg.height pos.x pos.y pos.z) ∧
      cfg.SoundStates after ∧ sections.Replaced cfg.height pos state after := by
  intro before after
  have hlt : index < sections.size := by
    rw [h.size]
    exact (HeightLimit.sectionIndex?_eq_some_iff.1 hi).1
  obtain ⟨hout, hsound, hstate⟩ := (h.getD_empty index).set_spec hs cfg.facts pos
  refine ⟨?_, ⟨?_, ?_⟩, replaced_setIfInBounds hlt hi hstate⟩
  · rw [hout, columnState_eq hi cfg.globalBits]
  · rw [Array.size_setIfInBounds, h.size]
  · intro j s hj
    rw [join_setIfInBounds hlt] at hj
    split at hj
    · cases hj
      exact hsound
    · exact h.sound j s hj

end SoundStates

namespace SoundSections

theorem getD_empty (h : cfg.SoundSections sections) (hair : cfg.facts.isAir .air) (index : Nat) :
    (sections[index]?.join.getD (.empty cfg.globalBits)).Sound cfg.facts cfg.globalBits := by
  cases hs : sections[index]?.join with
  | none => exact Section.sound_empty cfg.globalBits_le hair
  | some s => exact h.sound index s hs

/-- A write to a section keeps the counters right. -/
theorem set (h : cfg.SoundSections sections) (hair : cfg.facts.isAir .air) {pos : BlockPos}
    {index : Nat} (hi : cfg.height.sectionIndex? pos.y = some index) {state : BlockState}
    (hs : state.FitsIn cfg.globalBits) :
    cfg.SoundSections (sections.setIfInBounds index
      (some ((sections[index]?.join.getD (.empty cfg.globalBits)).set cfg.facts pos state).2)) := by
  have hlt : index < sections.size := by
    rw [h.size]
    exact (HeightLimit.sectionIndex?_eq_some_iff.1 hi).1
  constructor
  · rw [Array.size_setIfInBounds, h.size]
  · intro j s hj
    rw [join_setIfInBounds hlt] at hj
    split at hj
    · cases hj
      exact (h.getD_empty hair index).set hs pos
    · exact h.sound j s hj

end SoundSections

end Config

/-! ### Shown blocks -/

namespace Chunk

variable {α τ : Type} {c : Chunk α} {cfg : Config α τ}

/-- **What is shown for a block** is what is stored, or plain air for any air. -/
theorem blockAt_eq (h : cfg.SoundSections c.sections) (pos : BlockPos) :
    ∃ state, c.blockAt cfg pos = .ok state ∧
      (state = columnState c.sections cfg.height pos.x pos.y pos.z ∨
        state = .air ∧ cfg.facts.isAir (columnState c.sections cfg.height pos.x pos.y pos.z)) := by
  unfold blockAt occupiedSection?
  cases hi : cfg.height.sectionIndex? pos.y with
  | none => exact ⟨.air, rfl, Or.inl (columnState_of_none hi).symm⟩
  | some index =>
    rw [Option.bind_some, section?]
    cases hs : c.sections[index]?.join with
    | none => exact ⟨.air, rfl, Or.inl (columnState_of_absent hi hs).symm⟩
    | some s =>
      have hsound := h.sound index s hs
      rw [columnState_of_section hi hs]
      cases he : s.isEmpty with
      | true =>
        rw [Option.filter_some, he]
        exact ⟨.air, rfl, Or.inr ⟨rfl, hsound.stateAt_of_isEmpty he pos⟩⟩
      | false =>
        rw [Option.filter_some, he]
        refine ⟨s.stateAt pos, ?_, Or.inl rfl⟩
        simp only [Bool.not_false, if_true, hsound.get_eq]
        rfl

end Chunk

end VoxelChunk
