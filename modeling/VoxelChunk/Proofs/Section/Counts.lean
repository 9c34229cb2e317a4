import Mathlib.Algebra.Order.BigOperators.Group.List
import VoxelChunk.Proofs.Section.Received

/-!
# The counters of a section are exact

Every write takes what the state before adds to the counters off, and puts what the new state adds
on. A section has so few blocks that none of this wraps around, so that the counters of a section
that was made from air are numbers of its blocks. Counting anew, state by state, gives the same
numbers, whether the cells store places of the palette or the numbers of the states.

## Main definitions

* `Counters.Kind`, `Counters.count` — one of the counters as a number.
* `Counters.weight`, `Counters.total` — what blocks add to a counter.
* `Container.tallied` — the states with their numbers of cells, without looking each cell up.
* `Section.Exact` — counters that are numbers of blocks.

## Main results

* `Counters.count_tally` — few blocks do not make a counter wrap around.
* `Section.recount_eq` — counting cell by cell and counting state by state agree.
* `Section.Counted.exact` — right counters are exact.
* `Section.exact_setAll` — the counters of a section that was made from air are exact.
-/

namespace VoxelChunk

/-! ### Counters as numbers -/

namespace Counters

/-- The names of the counters. -/
inductive Kind where
  | nonAir
  | randomTicks
  | fluids
  deriving DecidableEq, Repr

variable {facts : BlockFacts} {k : Kind}

/-- A counter as a number. -/
def count (c : Counters) : Kind → Nat
  | .nonAir => c.nonAir.toNat
  | .randomTicks => c.randomTicks.toNat
  | .fluids => c.fluids.toNat

/-- The counters that hold given numbers, as far as they can. -/
def ofNat (f : Kind → Nat) : Counters :=
  ⟨UInt16.ofNat (f .nonAir), UInt16.ofNat (f .randomTicks), UInt16.ofNat (f .fluids)⟩

theorem ext_count {a b : Counters} (h : ∀ k, a.count k = b.count k) : a = b :=
  ext (UInt16.toNat_inj.1 (h .nonAir)) (UInt16.toNat_inj.1 (h .randomTicks))
    (UInt16.toNat_inj.1 (h .fluids))

theorem count_ofNat (f : Kind → Nat) (k : Kind) : (ofNat f).count k = f k % 65536 := by
  cases k <;> exact UInt16.toNat_ofNat'

theorem count_add (a b : Counters) (k : Kind) :
    (a + b).count k = (a.count k + b.count k) % 65536 := by
  cases k <;> exact UInt16.toNat_add ..

theorem count_lt (c : Counters) (k : Kind) : c.count k < 65536 := by
  cases k <;> exact UInt16.toNat_lt _

/-- What a block in the given state adds to a counter. -/
def weight (facts : BlockFacts) (k : Kind) (state : BlockState) : Nat := (ofState facts state).count k

/-- What blocks add to a counter together. -/
def total (facts : BlockFacts) (k : Kind) (states : List BlockState) : Nat :=
  (states.map (weight facts k)).sum

@[simp] theorem total_nil (facts : BlockFacts) (k : Kind) : total facts k [] = 0 := rfl

@[simp] theorem total_cons (facts : BlockFacts) (k : Kind) (state : BlockState)
    (rest : List BlockState) :
    total facts k (state :: rest) = weight facts k state + total facts k rest :=
  rfl

theorem weight_nonAir (facts : BlockFacts) (state : BlockState) :
    weight facts .nonAir state = (!facts.isAir state).toNat := by
  unfold weight count ofState
  cases facts.isAir state <;> rfl

theorem weight_fluids (facts : BlockFacts) (state : BlockState) :
    weight facts .fluids state = (!(facts.fluidState state).isEmpty).toNat := by
  unfold weight count ofState
  simp only
  cases (facts.fluidState state).isEmpty <;> rfl

theorem weight_randomTicks (facts : BlockFacts) (state : BlockState) :
    weight facts .randomTicks state =
      (!facts.isAir state && facts.ticksRandomly state).toNat +
        (!(facts.fluidState state).isEmpty &&
          facts.fluidTicksRandomly (facts.fluidState state)).toNat := by
  unfold weight count ofState
  simp only
  cases (!facts.isAir state && facts.ticksRandomly state) <;>
    cases (!(facts.fluidState state).isEmpty &&
      facts.fluidTicksRandomly (facts.fluidState state)) <;> rfl

/-- A block counts at most twice. -/
theorem weight_le (facts : BlockFacts) (k : Kind) (state : BlockState) : weight facts k state ≤ 2 := by
  cases k with
  | nonAir => exact weight_nonAir facts state ▸ Nat.le_succ_of_le (Bool.toNat_le _)
  | fluids => exact weight_fluids facts state ▸ Nat.le_succ_of_le (Bool.toNat_le _)
  | randomTicks =>
    exact weight_randomTicks facts state ▸ Nat.add_le_add (Bool.toNat_le _) (Bool.toNat_le _)

/-- Air without a fluid does not count. -/
theorem weight_air (hair : facts.isAir .air) (hdry : facts.fluidState .air = .empty) (k : Kind) :
    weight facts k .air = 0 := by
  cases k with
  | nonAir => simp [weight_nonAir, hair]
  | fluids => simp [weight_fluids, hdry, FluidState.isEmpty]
  | randomTicks => simp [weight_randomTicks, hair, hdry, FluidState.isEmpty]

theorem tally_eq (facts : BlockFacts) (states : List BlockState) :
    tally facts states = ofNat fun k => total facts k states := by
  induction states with
  | nil => rfl
  | cons state rest ih =>
    apply ext_count
    intro k
    rw [tally_cons, ih, count_add, count_ofNat, count_ofNat, Nat.add_mod_mod]
    rfl

theorem total_le (facts : BlockFacts) (k : Kind) (states : List BlockState) :
    total facts k states ≤ 2 * states.length := by
  induction states with
  | nil => exact Nat.le_refl 0
  | cons state rest ih =>
    have hstate := weight_le facts k state
    rw [total_cons, List.length_cons]
    omega

theorem weight_le_total {states : List BlockState} {state : BlockState} (h : state ∈ states) :
    weight facts k state ≤ total facts k states :=
  List.le_sum_of_mem (List.mem_map_of_mem h)

/-- **Few blocks do not make a counter wrap around.** -/
theorem count_tally {states : List BlockState} (h : states.length ≤ cellCount) :
    (tally facts states).count k = total facts k states := by
  have hle := total_le facts k states
  rw [tally_eq, count_ofNat, Nat.mod_eq_of_lt]
  unfold cellCount at h
  omega

theorem total_ne_zero_iff {states : List BlockState} :
    total facts k states ≠ 0 ↔ ∃ state ∈ states, weight facts k state ≠ 0 := by
  simp [total, List.sum_eq_zero_iff]

theorem total_nonAir (facts : BlockFacts) (states : List BlockState) :
    total facts .nonAir states = states.countP fun state => !facts.isAir state := by
  induction states with
  | nil => rfl
  | cons state rest ih =>
    rw [total_cons, ih, weight_nonAir, List.countP_cons, Nat.add_comm]
    cases facts.isAir state <;> rfl

/-! ### Counting state by state -/

/-- What states with given numbers of blocks add to a counter. -/
def weigh (facts : BlockFacts) (k : Kind) (counts : List (BlockState × Nat)) : Nat :=
  (counts.map fun entry => entry.2 * weight facts k entry.1).sum

/-- The counters of states with given numbers of blocks. -/
def ofCounts (facts : BlockFacts) (counts : List (BlockState × Nat)) : Counters :=
  ofNat fun k => weigh facts k counts

/-- The order in which states are counted does not matter. -/
theorem ofCounts_perm {counts order : List (BlockState × Nat)} (h : order.Perm counts) :
    ofCounts facts order = ofCounts facts counts :=
  congrArg ofNat (funext fun _ => (h.map _).sum_nat)

/-- Counting state by state gives the counters of the blocks. -/
theorem ofCounts_eq_tally (facts : BlockFacts) (counts : List (BlockState × Nat)) :
    ofCounts facts counts = tally facts (expand counts) := by
  rw [tally_eq]
  refine congrArg ofNat (funext fun k => ?_)
  unfold weigh total
  induction counts with
  | nil => rfl
  | cons entry rest ih =>
    rw [List.map_cons, List.sum_cons, ih, expand_cons, List.map_append, List.sum_append,
      List.map_replicate, List.sum_replicate_nat]

/-- States that no block has need not be listed. -/
theorem ofCounts_filter (facts : BlockFacts) (counts : List (BlockState × Nat)) :
    ofCounts facts (counts.filter fun entry => entry.2 ≠ 0) = ofCounts facts counts := by
  refine congrArg ofNat (funext fun k => ?_)
  unfold weigh
  induction counts with
  | nil => rfl
  | cons entry rest ih =>
    by_cases hzero : entry.2 = 0
    · simp [hzero, ← ih]
    · simp [hzero, ← ih]

theorem weigh_zip_modify (facts : BlockFacts) (k : Kind) {states : List BlockState}
    {counts : List Nat} (hlength : counts.length = states.length) {raw : Nat}
    (h : raw < states.length) :
    weigh facts k (states.zip (counts.modify raw (· + 1))) =
      weigh facts k (states.zip counts) + weight facts k states[raw] := by
  unfold weigh
  induction states generalizing counts raw with
  | nil => exact absurd h (Nat.not_lt_zero raw)
  | cons state rest ih =>
    obtain ⟨n, counts, rfl⟩ := List.exists_cons_of_length_eq_add_one hlength
    cases raw with
    | zero =>
      simp only [List.modify_zero_cons, List.zip_cons_cons, List.map_cons, List.sum_cons,
        List.getElem_cons_zero, Nat.add_mul, Nat.one_mul]
      exact Nat.add_right_comm ..
    | succ raw =>
      have hrest := ih (Nat.succ.inj hlength) (Nat.lt_of_succ_lt_succ h)
      simp only [List.modify_succ_cons, List.zip_cons_cons, List.map_cons, List.sum_cons,
        List.getElem_cons_succ, hrest]
      exact (Nat.add_assoc ..).symm

/-- One more block of the state at a place of the palette. -/
theorem ofCounts_zip_modify (facts : BlockFacts) {states : List BlockState} {counts : List Nat}
    (hlength : counts.length = states.length) {raw : Nat} (h : raw < states.length) :
    ofCounts facts (states.zip (counts.modify raw (· + 1))) =
      ofCounts facts (states.zip counts) + ofState facts states[raw] := by
  apply ext_count
  intro k
  rw [ofCounts, count_ofNat, count_add, ofCounts, count_ofNat, weigh_zip_modify facts k hlength h,
    Nat.mod_add_mod]
  rfl

theorem ofCounts_zip_zero (facts : BlockFacts) (states : List BlockState) (n : Nat) :
    ofCounts facts (states.zip (List.replicate n 0)) = {} := by
  refine congrArg ofNat (funext fun k => ?_ : _ = fun _ => 0)
  refine List.sum_eq_zero_iff_forall_eq_nat.2 fun m hm => ?_
  obtain ⟨entry, hentry, rfl⟩ := List.mem_map.1 hm
  rw [List.eq_of_mem_replicate (List.of_mem_zip hentry).2, Nat.zero_mul]

end Counters

/-! ### Counting by the palette -/

namespace Container

open Counters

variable {c : Container} {facts : BlockFacts}

/-- One more cell for a place of a palette. -/
def countPlace (counts : List Nat) (raw : Nat) : Except StorageError (List Nat) :=
  if raw < counts.length then .ok (counts.modify raw (· + 1)) else .error (.missingEntry raw)

/-- The different states with their numbers of cells. The cells are counted by what they store, the
place of a state in the palette or the number of a state, and no state is looked up. -/
def tallied (c : Container) : Except StorageError (List (BlockState × Nat)) :=
  match c.palette with
  | .indexed states =>
    (c.cells.toList.foldlM countPlace (List.replicate states.size 0)).map fun counts =>
      (states.toList.zip counts).filter fun entry => entry.2 ≠ 0
  | .direct =>
    .ok ((runs (c.cells.toList.mergeSort (· ≤ ·))).map fun run => (⟨UInt32.ofNat run.1⟩, run.2))

theorem toList?_eq_mapM (c : Container) : c.toList? = c.cells.toList.mapM c.palette.state := by
  rw [PackedArray.toList, List.mapM_map]
  rfl

/-- Counting the places of a palette amounts to looking up all states. It fails at the same cell. -/
theorem foldlM_countPlace (facts : BlockFacts) (states : Array BlockState) (raws : List Nat)
    {counts : List Nat} (hlength : counts.length = states.size) :
    (raws.foldlM countPlace counts).map (fun after => ofCounts facts (states.toList.zip after)) =
      (raws.mapM (Palette.indexed states).state).map fun found =>
        ofCounts facts (states.toList.zip counts) + tally facts found := by
  induction raws generalizing counts with
  | nil => exact congrArg Except.ok ((add_comm _ _).trans (zero_add _)).symm
  | cons raw rest ih =>
    rw [List.foldlM_cons, List.mapM_cons]
    by_cases hraw : raw < states.size
    · have hplace : countPlace counts raw = .ok (counts.modify raw (· + 1)) := by
        rw [countPlace, if_pos (hlength ▸ hraw)]
      have hmore : ofCounts facts (states.toList.zip (counts.modify raw (· + 1))) =
          ofCounts facts (states.toList.zip counts) + ofState facts states[raw] :=
        ofCounts_zip_modify facts (by simpa using hlength) (by simpa using hraw)
      have hmodified : (counts.modify raw (· + 1)).length = states.size := by simpa using hlength
      rw [hplace, state_indexed hraw]
      simp only [bind, Except.bind, ih hmodified, hmore]
      cases rest.mapM (Palette.indexed states).state with
      | error e => rfl
      | ok found =>
        refine congrArg Except.ok ?_
        simp only [tally_cons, add_assoc]
    · have hplace : countPlace counts raw = .error (.missingEntry raw) := by
        rw [countPlace, if_neg (hlength ▸ hraw)]
      have hstate : (Palette.indexed states).state raw = .error (.missingEntry raw) := by
        rw [Palette.state, Array.getElem?_eq_none (Nat.le_of_not_lt hraw)]
      rw [hplace, hstate]
      rfl

theorem tally_perm {states order : List BlockState} (h : order.Perm states) :
    tally facts order = tally facts states := by
  rw [tally_eq, tally_eq]
  exact congrArg ofNat (funext fun _ => (h.map _).sum_nat)

/-- Numbers of states are the same numbers when the states are listed. -/
theorem expand_map {α β : Type} (f : α → β) (rs : List (α × Nat)) :
    expand (rs.map fun run => (f run.1, run.2)) = (expand rs).map f := by
  induction rs with
  | nil => rfl
  | cons run rest ih =>
    rw [List.map_cons, expand_cons, expand_cons, List.map_append, List.map_replicate, ih]

/-- **Counting by the palette gives the counters of the states**, and fails where a cell cannot be
read. -/
theorem map_tallied (facts : BlockFacts) (c : Container) :
    c.tallied.map (ofCounts facts) = c.toList?.map (tally facts) := by
  rw [toList?_eq_mapM, tallied]
  cases c.palette with
  | indexed states =>
    have hzero : (List.replicate states.size 0).length = states.size := List.length_replicate
    have hfold := foldlM_countPlace facts states c.cells.toList hzero
    simp only [ofCounts_zip_zero, zero_add] at hfold
    simp only
    rw [show tally facts = fun found => tally facts found from rfl, ← hfold]
    cases c.cells.toList.foldlM countPlace (List.replicate states.size 0) with
    | error e => rfl
    | ok counts => exact congrArg Except.ok (ofCounts_filter facts _)
  | direct =>
    have hall : c.cells.toList.mapM Palette.direct.state =
        .ok (c.cells.toList.map fun raw => ⟨UInt32.ofNat raw⟩) := mapM_eq_ok fun _ _ => rfl
    rw [hall]
    refine congrArg Except.ok ((ofCounts_eq_tally facts _).trans ?_)
    rw [expand_map (fun raw => (⟨UInt32.ofNat raw⟩ : BlockState)), expand_runs]
    exact tally_perm ((List.mergeSort_perm ..).map _)

end Container

namespace Section

open Counters

variable {facts : BlockFacts} {globalBits : Nat} {s : Section}

/-- **Counting cell by cell and counting state by state agree.** -/
theorem recount_eq (facts : BlockFacts) (s : Section) :
    s.recount facts =
      s.states.tallied.map fun counts => { s with counters := ofCounts facts counts } := by
  have htallied := Container.map_tallied facts s.states
  unfold recount
  cases hcounts : s.states.tallied <;> cases hlist : s.states.toList? <;>
    simp_all [Except.map]

/-! ### Exact counters -/

theorem Readable.allStates_eq (h : s.Readable) :
    s.states.allStates = (List.range cellCount).map fun i => s.stateAt (cellPos i) := by
  rw [Container.allStates, h.length]
  refine List.map_congr_left fun i hi => ?_
  rw [stateAt, cellIndex_cellPos (List.mem_range.1 hi)]

theorem Readable.mem_allStates (h : s.Readable) {state : BlockState} :
    state ∈ s.states.allStates ↔ ∃ pos, s.stateAt pos = state := by
  constructor
  · rw [h.allStates_eq, List.mem_map]
    rintro ⟨i, -, hi⟩
    exact ⟨cellPos i, hi⟩
  · rintro ⟨pos, rfl⟩
    exact List.mem_map.2 ⟨cellIndex pos, List.mem_range.2 (h.cellIndex_lt pos), rfl⟩

/-- The counters are numbers of blocks. -/
structure Exact (facts : BlockFacts) (s : Section) : Prop where
  get : ∀ pos, s.get pos = .ok (s.stateAt pos)
  count : ∀ k, s.counters.count k =
    total facts k ((List.range cellCount).map fun i => s.stateAt (cellPos i))
  nonAir : s.counters.nonAir.toNat =
    (List.range cellCount).countP fun i => !facts.isAir (s.stateAt (cellPos i))
  isEmpty : s.isEmpty ↔ ∀ pos, facts.isAir (s.stateAt pos)
  hasFluids : s.hasFluids ↔ ∃ pos, facts.fluidState (s.stateAt pos) ≠ .empty
  hasRandomTicks : s.hasRandomTicks ↔
    (∃ pos, ¬facts.isAir (s.stateAt pos) ∧ facts.ticksRandomly (s.stateAt pos)) ∨
      ∃ pos, facts.fluidState (s.stateAt pos) ≠ .empty ∧
        facts.fluidTicksRandomly (facts.fluidState (s.stateAt pos))
  /-- A write neither takes off more than there is nor puts on more than there is room for. -/
  set : ∀ pos state, (s.set facts pos state).1 = .ok (s.stateAt pos) ∧
    ∀ k, weight facts k (s.stateAt pos) ≤ s.counters.count k ∧
      s.counters.count k - weight facts k (s.stateAt pos) + weight facts k state < 65536 ∧
        (s.set facts pos state).2.counters.count k =
          s.counters.count k - weight facts k (s.stateAt pos) + weight facts k state
  recount : s.recount facts = .ok s
  /-- The states may be counted in any order. -/
  tallied : ∃ counts, s.states.tallied = .ok counts ∧
    ∀ order, order.Perm counts → ofCounts facts order = s.counters

namespace Counted

theorem count_eq (h : s.Counted facts globalBits) (k : Kind) :
    s.counters.count k = total facts k s.states.allStates := by
  rw [h.counters, count_tally]
  rw [Container.length_allStates, h.length]

theorem count_ne_zero_iff (h : s.Counted facts globalBits) (k : Kind) :
    s.counters.count k ≠ 0 ↔ ∃ pos, weight facts k (s.stateAt pos) ≠ 0 := by
  rw [h.count_eq, total_ne_zero_iff]
  constructor
  · rintro ⟨state, hmem, hweight⟩
    obtain ⟨pos, rfl⟩ := h.mem_allStates.1 hmem
    exact ⟨pos, hweight⟩
  · rintro ⟨pos, hweight⟩
    exact ⟨_, h.mem_allStates.2 ⟨pos, rfl⟩, hweight⟩

theorem isEmpty_iff (h : s.Counted facts globalBits) :
    s.isEmpty ↔ ∀ pos, facts.isAir (s.stateAt pos) := by
  have hzero : s.isEmpty ↔ ¬s.counters.count .nonAir ≠ 0 := by
    rw [isEmpty, beq_iff_eq, ← UInt16.toNat_inj, not_not]
    rfl
  rw [hzero, h.count_ne_zero_iff]
  simp [weight_nonAir]

theorem hasFluids_iff (h : s.Counted facts globalBits) :
    s.hasFluids ↔ ∃ pos, facts.fluidState (s.stateAt pos) ≠ .empty := by
  have hcount : s.hasFluids ↔ s.counters.count .fluids ≠ 0 := by
    rw [hasFluids, bne_iff_ne, ne_eq, ← UInt16.toNat_inj]
    rfl
  rw [hcount, h.count_ne_zero_iff]
  simp [weight_fluids, FluidState.isEmpty]

theorem hasRandomTicks_iff (h : s.Counted facts globalBits) :
    s.hasRandomTicks ↔
      (∃ pos, ¬facts.isAir (s.stateAt pos) ∧ facts.ticksRandomly (s.stateAt pos)) ∨
        ∃ pos, facts.fluidState (s.stateAt pos) ≠ .empty ∧
          facts.fluidTicksRandomly (facts.fluidState (s.stateAt pos)) := by
  have hcount : s.hasRandomTicks ↔ s.counters.count .randomTicks ≠ 0 := by
    rw [hasRandomTicks, bne_iff_ne, ne_eq, ← UInt16.toNat_inj]
    rfl
  rw [hcount, h.count_ne_zero_iff, ← exists_or]
  refine exists_congr fun pos => ?_
  rw [weight_randomTicks, ne_eq, Nat.add_eq_zero_iff, not_and_or]
  simp [FluidState.isEmpty]

/-- No counter wraps around in a write. -/
theorem count_set (h : s.Counted facts globalBits) (pos : BlockPos) (state : BlockState)
    (k : Kind) :
    weight facts k (s.stateAt pos) ≤ s.counters.count k ∧
      s.counters.count k - weight facts k (s.stateAt pos) + weight facts k state < 65536 ∧
        (s.set facts pos state).2.counters.count k =
          s.counters.count k - weight facts k (s.stateAt pos) + weight facts k state := by
  have hold : weight facts k (s.stateAt pos) ≤ s.counters.count k := by
    rw [h.count_eq]
    exact weight_le_total (h.mem_allStates.2 ⟨pos, rfl⟩)
  have hfew : s.counters.count k ≤ 2 * 4096 := by
    have hle := total_le facts k s.states.allStates
    rwa [← h.count_eq, Container.length_allStates, h.length] at hle
  have hnew := weight_le facts k state
  obtain ⟨t, hset, -, hcounters⟩ := set_of_ok facts (h.states.set state (h.cellIndex_lt pos)).1
  have hsum := congrArg (count · k) hcounters
  have hlt := t.counters.count_lt k
  simp only [count_add] at hsum
  change (t.counters.count k + weight facts k (s.stateAt pos)) % 65536 =
    (s.counters.count k + weight facts k state) % 65536 at hsum
  rw [hset]
  -- the sums on both sides wrap around alike, and neither is large
  refine ⟨hold, by omega, ?_⟩
  show t.counters.count k = _
  omega

/-- **Right counters are exact.** -/
theorem exact (h : s.Counted facts globalBits) : s.Exact facts where
  get := h.get_eq
  count := fun k => h.allStates_eq ▸ h.count_eq k
  nonAir := by
    have hcount := h.count_eq .nonAir
    rw [total_nonAir, h.allStates_eq, List.countP_map] at hcount
    exact hcount
  isEmpty := h.isEmpty_iff
  hasFluids := h.hasFluids_iff
  hasRandomTicks := h.hasRandomTicks_iff
  set := fun pos state => ⟨(h.toReadable.set facts pos state).1, h.count_set pos state⟩
  recount := h.recount
  tallied := by
    have htallied := Container.map_tallied facts s.states
    rw [h.states.toList?_eq] at htallied
    cases hcounts : s.states.tallied with
    | error e => simp [hcounts, Except.map] at htallied
    | ok counts =>
      rw [hcounts] at htallied
      refine ⟨counts, rfl, fun order hperm => ?_⟩
      rw [ofCounts_perm hperm, h.counters]
      exact Except.ok.inj htallied

end Counted

/-- A section of air without fluids is counted. -/
theorem counted_empty (globalBits : Nat) (hair : facts.isAir .air)
    (hdry : facts.fluidState .air = .empty) : (empty globalBits).Counted facts globalBits where
  toReadable := readable_empty globalBits
  globalBits := rfl
  counters := by
    apply ext_count
    intro k
    have hzero : ∀ state ∈ (empty globalBits).states.allStates, weight facts k state = 0 := by
      intro state hmem
      obtain ⟨pos, rfl⟩ := (readable_empty globalBits).mem_allStates.1 hmem
      rw [stateAt_empty, weight_air hair hdry]
    have htotal : total facts k (empty globalBits).states.allStates = 0 :=
      Decidable.byContradiction fun hne => by
        obtain ⟨state, hmem, hweight⟩ := total_ne_zero_iff.1 hne
        exact hweight (hzero state hmem)
    rw [tally_eq, count_ofNat, htotal]
    cases k <;> rfl

/-- **The counters of a section that was made from air are exact**: each is the number of the blocks
that it is for, it never wraps around, and counting anew changes nothing. -/
theorem exact_setAll (hg : globalBits ≤ 32) (hair : facts.isAir .air)
    (hdry : facts.fluidState .air = .empty) (writes : List (BlockPos × BlockState))
    (hw : ∀ w ∈ writes, w.2.FitsIn globalBits) :
    ((empty globalBits).setAll facts writes).Exact facts := by
  have hfits : ∀ i < (empty globalBits).states.length,
      ((empty globalBits).states.stateAt i).FitsIn globalBits := by
    intro i _
    rw [show (empty globalBits).states = .filled cellCount .air globalBits from rfl,
      Container.stateAt_filled]
    exact BlockState.air_fitsIn globalBits
  exact ((counted_empty globalBits hair hdry).setAll hg writes hw (.inl hfits)).exact

/-- Facts about air, a solid block and a wet one that is ticked at random, as is its fluid. -/
def wetFacts : BlockFacts where
  stateCount := 3
  blockOf := fun s => ⟨s.id⟩
  isAir := fun s => s == .air
  fluidState := fun s => if s == ⟨2⟩ then ⟨1⟩ else .empty
  fluidOf := fun f => ⟨f.id⟩
  ticksRandomly := fun s => s == ⟨2⟩
  fluidTicksRandomly := fun f => f == ⟨1⟩
  blocksMovement := fun s => s == ⟨1⟩
  hasEntity := fun _ => false

/-- Writes that leave one block of the two that they make. -/
def wetWrites : List (BlockPos × BlockState) :=
  [(⟨3, 4, 5⟩, ⟨1⟩), (⟨0, 0, 0⟩, ⟨2⟩), (⟨3, 4, 5⟩, .air)]

/-- The wet block is counted twice for random ticks. -/
theorem exact_wet : 2 ≤ 32 ∧ wetFacts.isAir .air ∧ wetFacts.fluidState .air = .empty ∧
    (∀ w ∈ wetWrites, w.2.FitsIn 2) ∧ ((empty 2).setAll wetFacts wetWrites).Exact wetFacts ∧
      ((empty 2).setAll wetFacts wetWrites).counters = ⟨1, 2, 1⟩ :=
  ⟨by decide, by decide, by decide, by decide,
    exact_setAll (by decide) (by decide) (by decide) wetWrites (by decide), by decide +kernel⟩

end Section

end VoxelChunk
