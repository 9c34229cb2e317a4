import Mathlib.Algebra.Group.Nat.Defs
import VoxelChunk.Proofs.Storage.Packed
import VoxelChunk.Storage.Container

/-!
# Containers as arrays of states

A write may add a state to the palette, widen all cells by one bit, or rewrite all cells to store
the numbers of their states. As long as all states fit the cells, none of this shows: the container
reads like a plain array of states. States that do not fit, which may come from outside, are cut
when the palette is given up.

## Main definitions

* `Container.stateAt` — the state of a cell, for cells that can be read.
* `Container.Canonical` — the two ways in which a container stores its states.
* `Container.Numbered` — all that can come of giving a state a number.
* `Container.Sound` — what holds of containers whose states all fit.

## Main results

* `Container.Canonical.numbered` — a state always gets a number.
* `Container.Canonical.set` — all cells of a canonical container stay readable.
* `Container.Canonical.set_stateAt` — a state that is written where it stands changes nothing.
* `Container.Canonical.set_spec` — a write changes one cell, and may cut the others.
* `Container.set_spec` — where all states fit, a write changes one cell.
* `Container.setAll_filled` — after any writes the container reads like a plain array.
-/

namespace VoxelChunk

/-- The number of the state takes no more than the given number of bits. -/
def BlockState.FitsIn (s : BlockState) (bits : Nat) : Prop := s.id.toNat < 2 ^ bits

instance (s : BlockState) (bits : Nat) : Decidable (s.FitsIn bits) :=
  inferInstanceAs (Decidable (_ < _))

theorem BlockState.air_fitsIn (bits : Nat) : BlockState.air.FitsIn bits := Nat.two_pow_pos bits

theorem BlockState.ofNat_id (s : BlockState) : (⟨UInt32.ofNat s.id.toNat⟩ : BlockState) = s := by
  rw [UInt32.ofNat_toNat]

/-- The state whose number is made of the lowest bits of the state's. -/
def BlockState.cut (s : BlockState) (bits : Nat) : BlockState :=
  ⟨UInt32.ofNat (s.id.toNat % 2 ^ bits)⟩

theorem BlockState.cut_of_fits {s : BlockState} {bits : Nat} (h : s.FitsIn bits) :
    s.cut bits = s := by
  rw [cut, Nat.mod_eq_of_lt h, s.ofNat_id]

/-- Different states that take few bits are few. -/
theorem length_le_of_fitsIn {states : List BlockState} (hn : states.Nodup) {bits : Nat}
    (h : ∀ s ∈ states, s.FitsIn bits) : states.length ≤ 2 ^ bits := by
  have hinj : ∀ s t : BlockState, s.id.toNat = t.id.toNat → s = t := by
    intro s t hst
    rw [← s.ofNat_id, ← t.ofNat_id, hst]
  have hnodup : (states.map fun s => s.id.toNat).Nodup :=
    List.Pairwise.map _ (fun s t hst he => hst (hinj s t he)) hn
  have hsub : (states.map fun s => s.id.toNat) ⊆ List.range (2 ^ bits) := by
    intro n hmem
    obtain ⟨s, hs, rfl⟩ := List.mem_map.1 hmem
    exact List.mem_range.2 (h s hs)
  simpa using List.Nodup.length_le_of_subset hnodup hsub

/-- A function that always succeeds maps a list without failure. -/
theorem mapM_eq_ok {ε α β : Type} {f : α → Except ε β} {g : α → β} :
    ∀ {l : List α}, (∀ a ∈ l, f a = .ok (g a)) → l.mapM f = .ok (l.map g) := by
  intro l
  induction l with
  | nil => intro _; rfl
  | cons a l ih =>
    intro h
    rw [List.mapM_cons, h a List.mem_cons_self, ih fun b hb => h b (List.mem_cons_of_mem a hb)]
    rfl

namespace Container

variable {c d : Container} {state : BlockState}

/-- The state of a cell, air if it cannot be read. -/
def stateAt (c : Container) (i : Nat) : BlockState := (c.get i).toOption.getD .air

theorem stateAt_of_get {i : Nat} (h : c.get i = .ok state) : c.stateAt i = state := by
  rw [stateAt, h]
  rfl

/-- The two ways in which a container stores its states: by their places in a palette of different
states, which all cells respect and whose places take four to eight bits, or by their numbers. -/
def Canonical (c : Container) : Prop :=
  match c.palette with
  | .indexed states =>
    states.toList.Nodup ∧ (4 ≤ c.bits ∧ c.bits ≤ 8) ∧ states.size ≤ 2 ^ c.bits ∧
      ∀ i < c.length, c.cells.get i < states.size
  | .direct => c.bits = c.globalBits

theorem canonical_indexed {states : Array BlockState} (hp : c.palette = .indexed states) :
    c.Canonical ↔ states.toList.Nodup ∧ (4 ≤ c.bits ∧ c.bits ≤ 8) ∧ states.size ≤ 2 ^ c.bits ∧
      ∀ i < c.length, c.cells.get i < states.size := by
  rw [Canonical, hp]

theorem canonical_direct (hp : c.palette = .direct) : c.Canonical ↔ c.bits = c.globalBits := by
  rw [Canonical, hp]

/-! ### Reading -/

/-- A number below the length of the palette stands for the state at that place. -/
theorem state_indexed {states : Array BlockState} {raw : Nat} (h : raw < states.size) :
    (Palette.indexed states).state raw = .ok states[raw] := by
  simp [Palette.state, Array.getElem?_eq_getElem h]

theorem lt_size_of_state {states : Array BlockState} {raw : Nat}
    (h : (Palette.indexed states).state raw = .ok state) : raw < states.size := by
  by_cases hlt : raw < states.size
  · exact hlt
  · rw [Palette.state, Array.getElem?_eq_none (by omega)] at h
    cases h

theorem getElem?_of_idxOf? {states : Array BlockState} {i : Nat}
    (h : states.idxOf? state = some i) : states[i]? = some state := by
  obtain ⟨states⟩ := states
  rw [List.idxOf?_toArray, List.idxOf?_eq_some_iff] at h
  obtain ⟨hlt, hget, -⟩ := h
  simp [hlt, hget]

/-- In a palette of different states each is found at its place. -/
theorem idxOf?_getElem {states : Array BlockState} (hn : states.toList.Nodup) {i : Nat}
    (hi : i < states.size) : states.idxOf? states[i] = some i := by
  obtain ⟨states⟩ := states
  rw [List.idxOf?_toArray, List.idxOf?_eq_some_iff]
  exact ⟨hi, rfl, fun j hj => List.pairwise_iff_getElem.1 hn j i (Nat.lt_trans hj hi) hi hj⟩

/-- A new state makes a longer palette of different states. -/
theorem nodup_push {states : Array BlockState} (hn : states.toList.Nodup)
    (hnew : state ∉ states.toList) : (states.push state).toList.Nodup := by
  rw [Array.toList_push, List.nodup_append]
  refine ⟨hn, by simp, ?_⟩
  intro a ha b hb hab
  rw [List.mem_singleton] at hb
  exact hnew (hb ▸ hab ▸ ha)

theorem state_push {states : Array BlockState} {raw : Nat} (h : raw < states.size) :
    (Palette.indexed (states.push state)).state raw = (Palette.indexed states).state raw := by
  rw [state_indexed (by rw [Array.size_push]; omega), state_indexed h, Array.getElem_push_lt h]

/-- All cells can be read. -/
theorem Canonical.get_eq (h : c.Canonical) {i : Nat} (hi : i < c.length) :
    c.get i = .ok (c.stateAt i) := by
  have hget : ∃ s, c.get i = .ok s := by
    unfold get
    cases hp : c.palette with
    | indexed states =>
      obtain ⟨-, -, -, hraw⟩ := (canonical_indexed hp).1 h
      exact ⟨_, state_indexed (hraw i hi)⟩
    | direct => exact ⟨_, rfl⟩
  obtain ⟨s, hs⟩ := hget
  rw [hs, stateAt_of_get hs]

theorem Canonical.toList?_eq (h : c.Canonical) :
    c.toList? = .ok ((List.range c.length).map c.stateAt) :=
  mapM_eq_ok fun _ hi => h.get_eq (List.mem_range.1 hi)

/-! ### Numbers for states -/

/-- The palette with one more state; no cell refers to it yet. -/
def withState (c : Container) (states : Array BlockState) (state : BlockState) : Container :=
  { c with palette := .indexed (states.push state) }

theorem get_withState {states : Array BlockState} (hp : c.palette = .indexed states) {i : Nat}
    (h : c.cells.get i < states.size) : (c.withState states state).get i = c.get i := by
  rw [get, get, hp]
  exact state_push h

/-- The cells of `d` store the numbers of the states of `c`, cut to the bits that there are. -/
structure Dropped (c d : Container) : Prop where
  palette : d.palette = .direct
  bits : d.bits = c.globalBits
  length : d.length = c.length
  globalBits : d.globalBits = c.globalBits
  stateAt : c.globalBits ≤ 32 → ∀ i < c.length, d.stateAt i = (c.stateAt i).cut c.globalBits

/-- A container that can be read can give up its palette. -/
theorem dropped_toDirect (hget : ∀ i < c.length, c.get i = .ok (c.stateAt i)) :
    ∃ d, c.toDirect = .ok d ∧ Dropped c d := by
  -- all states are read before anything is written
  have hall : c.toList? = .ok ((List.range c.length).map c.stateAt) :=
    mapM_eq_ok fun i hi => hget i (List.mem_range.1 hi)
  unfold toDirect
  rw [hall]
  refine ⟨_, rfl, rfl, PackedArray.bits_ofFn .., PackedArray.length_ofFn .., rfl, ?_⟩
  intro hg i hi
  apply stateAt_of_get
  have hid : (((List.range c.length).map c.stateAt).toArray.map fun s => s.id.toNat).getD i 0 =
      (c.stateAt i).id.toNat := by
    simp [Array.getD_eq_getD_getElem?, hi]
  rw [get]
  simp only
  rw [PackedArray.get_ofFn_mod hg hi, hid]
  rfl

/-- All that can come of giving a state a number: the number, and the container then. -/
inductive Numbered (c : Container) (state : BlockState) : Nat → Container → Prop
  /-- Cells that store states themselves need nothing. -/
  | direct : c.palette = .direct → Numbered c state state.id.toNat c
  /-- The state stands in the palette. -/
  | known {states : Array BlockState} {index : Nat} : c.palette = .indexed states →
    states[index]? = some state → Numbered c state index c
  /-- The palette gets the state, in cells that have been widened if they were too narrow. -/
  | pushed {states : Array BlockState} {cells : PackedArray} : c.palette = .indexed states →
    state ∉ states.toList → cells.length = c.length →
      (∀ i < c.length, cells.get i = c.cells.get i) → 4 ≤ cells.bits → cells.bits ≤ 8 →
        states.size < 2 ^ cells.bits →
          Numbered c state states.size { c.withState states state with cells }
  /-- The palette is full and is given up. -/
  | dropped {states : Array BlockState} {d : Container} : c.palette = .indexed states →
    state ∉ states.toList → 2 ^ 8 ≤ states.size → Dropped c d →
      Numbered c state state.id.toNat d

/-- A palette that is full is given up, all cells being readable. -/
theorem Canonical.dropped (h : c.Canonical) {states : Array BlockState}
    (hp : c.palette = .indexed states) (state : BlockState) :
    ∃ d, (c.withState states state).toDirect = .ok d ∧ Dropped c d := by
  obtain ⟨-, -, -, hraw⟩ := (canonical_indexed hp).1 h
  have hget : ∀ i < c.length, (c.withState states state).get i = .ok (c.stateAt i) := by
    intro i hi
    rw [get_withState hp (hraw i hi), h.get_eq hi]
  have hstate : ∀ i < c.length, (c.withState states state).stateAt i = c.stateAt i :=
    fun i hi => stateAt_of_get (hget i hi)
  obtain ⟨d, hd, hpal, hbits, hlen, hglobal, hcut⟩ :=
    dropped_toDirect (c := c.withState states state) fun i hi => by rw [hget i hi, hstate i hi]
  refine ⟨d, hd, hpal, hbits, hlen, hglobal, fun hg i hi => ?_⟩
  rw [hcut hg i hi, hstate i hi]
  rfl

/-- Cells too narrow for one more state get one more bit, or the palette is given up. -/
theorem Canonical.grow_withState (h : c.Canonical) {states : Array BlockState}
    (hp : c.palette = .indexed states) (hnew : state ∉ states.toList)
    (hfull : states.size = 2 ^ c.bits) :
    ∃ grown, (c.withState states state).grow = .ok grown ∧
      ((grown.palette = .indexed (states.push state) ∧ Numbered c state states.size grown) ∨
        (grown.palette = .direct ∧ Numbered c state state.id.toNat grown)) := by
  obtain ⟨-, ⟨hmin, -⟩, -, hraw⟩ := (canonical_indexed hp).1 h
  by_cases hle : c.bits + 1 ≤ 8
  · -- the cells are written anew, one bit wider
    have hpow : 2 ^ (c.bits + 1) = 2 * 2 ^ c.bits := Nat.pow_succ'
    have hgrow : (c.withState states state).grow =
        .ok { c.withState states state with cells := c.cells.repack (c.bits + 1) } := if_pos hle
    refine ⟨_, hgrow, Or.inl ⟨rfl, ?_⟩⟩
    apply Numbered.pushed hp hnew (PackedArray.length_repack ..)
    · intro i hi
      apply PackedArray.get_repack (by omega) _ hi
      intro j hj
      have := hraw j hj
      omega
    · rw [PackedArray.bits_repack]
      omega
    · rw [PackedArray.bits_repack]
      exact hle
    · rw [PackedArray.bits_repack]
      have := Nat.two_pow_pos c.bits
      omega
  · -- nine bits are too many: the palette is full
    have hgrow : (c.withState states state).grow = (c.withState states state).toDirect := if_neg hle
    have hmany : 2 ^ 8 ≤ states.size := by
      rw [hfull]
      exact Nat.pow_le_pow_right (by decide) (by omega)
    obtain ⟨d, hd, hdropped⟩ := h.dropped hp state
    exact ⟨d, hgrow.trans hd, Or.inr ⟨hdropped.palette, .dropped hp hnew hmany hdropped⟩⟩

theorem intern_direct (hp : c.palette = .direct) (state : BlockState) :
    c.intern state = (.ok state.id.toNat, c) := by
  rw [intern, hp]

/-- A palette that is not full has a number for each state. -/
theorem numbered_of_room {states : Array BlockState} (hp : c.palette = .indexed states)
    (hmin : 4 ≤ c.bits) (hmax : c.bits ≤ 8) (hroom : states.size < 2 ^ c.bits)
    (state : BlockState) :
    ∃ raw d, c.intern state = (.ok raw, d) ∧ Numbered c state raw d := by
  unfold intern
  rw [hp]
  simp only
  cases hidx : states.idxOf? state with
  | some index => exact ⟨_, _, rfl, .known hp (getElem?_of_idxOf? hidx)⟩
  | none =>
    have hnew : state ∉ states.toList := by simpa using hidx
    have hroom' : states.size < 1 <<< c.bits := by rwa [Nat.one_shiftLeft]
    simp only
    rw [show bits { c with palette := .indexed (states.push state) } = c.bits from rfl,
      if_pos hroom']
    exact ⟨_, _, rfl, .pushed hp hnew rfl (fun _ _ => rfl) hmin hmax hroom⟩

/-- A full palette of which all places are numbers that the cells may store has a number for each
state, or is given up for it. -/
theorem Canonical.numbered_of_full (h : c.Canonical) {states : Array BlockState}
    (hp : c.palette = .indexed states) (hfull : states.size = 2 ^ c.bits) (state : BlockState) :
    ∃ raw d, c.intern state = (.ok raw, d) ∧ Numbered c state raw d := by
  unfold intern
  rw [hp]
  simp only
  cases hidx : states.idxOf? state with
  | some index => exact ⟨_, _, rfl, .known hp (getElem?_of_idxOf? hidx)⟩
  | none =>
    have hnew : state ∉ states.toList := by simpa using hidx
    have hfull' : ¬states.size < 1 <<< c.bits := by
      rw [Nat.one_shiftLeft]
      omega
    obtain ⟨grown, hgrow, hgrown⟩ := h.grow_withState hp hnew hfull
    unfold withState at hgrow
    simp only
    rw [show bits { c with palette := .indexed (states.push state) } = c.bits from rfl,
      if_neg hfull', hgrow]
    rcases hgrown with ⟨hpal, hnum⟩ | ⟨hpal, hnum⟩
    · simp only [hpal]
      exact ⟨_, _, rfl, hnum⟩
    · simp only [hpal]
      exact ⟨_, _, rfl, hnum⟩

/-- **A state always gets a number.** -/
theorem Canonical.numbered (h : c.Canonical) (state : BlockState) :
    ∃ raw d, c.intern state = (.ok raw, d) ∧ Numbered c state raw d := by
  cases hp : c.palette with
  | direct => exact ⟨_, _, intern_direct hp state, .direct hp⟩
  | indexed states =>
    obtain ⟨-, ⟨hmin, hmax⟩, hsize, -⟩ := (canonical_indexed hp).1 h
    rcases Nat.lt_or_eq_of_le hsize with hroom | hfull
    · exact numbered_of_room hp hmin hmax hroom state
    · exact h.numbered_of_full hp hfull state

namespace Numbered

variable {raw : Nat}

theorem length_eq (hn : Numbered c state raw d) : d.length = c.length := by
  cases hn with
  | direct _ => rfl
  | known _ _ => rfl
  | pushed _ _ hlen _ _ _ _ => exact hlen
  | dropped _ _ _ hd => exact hd.length

theorem globalBits_eq (hn : Numbered c state raw d) : d.globalBits = c.globalBits := by
  cases hn with
  | direct _ => rfl
  | known _ _ => rfl
  | pushed _ _ _ _ _ _ _ => rfl
  | dropped _ _ _ hd => exact hd.globalBits

theorem canonical (hn : Numbered c state raw d) (h : c.Canonical) : d.Canonical := by
  cases hn with
  | direct _ => exact h
  | known _ _ => exact h
  | @pushed states cells hp hnew hlen hget hmin hmax hroom =>
    obtain ⟨hnodup, -, -, hraw⟩ := (canonical_indexed hp).1 h
    refine ⟨?_, ⟨hmin, hmax⟩, ?_, fun i hi => ?_⟩
    · exact nodup_push hnodup hnew
    · rw [Array.size_push]
      exact hroom
    · -- no cell refers to the new place
      have hi' : i < c.length := Nat.lt_of_lt_of_eq hi hlen
      show cells.get i < (states.push state).size
      rw [hget i hi', Array.size_push]
      exact Nat.lt_succ_of_lt (hraw i hi')
  | dropped _ _ _ hd => exact (canonical_direct hd.palette).2 (hd.bits.trans hd.globalBits.symm)

/-- A place in the palette is one that it has. -/
theorem lt_size (hn : Numbered c state raw d) {states : Array BlockState}
    (hp : d.palette = .indexed states) : raw < states.size := by
  cases hn with
  | direct hp' => simp [hp'] at hp
  | @known before index hp' hi =>
    obtain rfl : before = states := by simpa [hp'] using hp
    exact (Array.getElem?_eq_some_iff.1 hi).1
  | pushed _ _ _ _ _ _ _ =>
    cases hp
    rw [Array.size_push]
    exact Nat.lt_succ_self _
  | dropped _ _ _ hd => simp [hd.palette] at hp

end Numbered

/-! ### Cells that get a number -/

/-- A cell may get any number that the palette knows. -/
theorem Canonical.setCell (h : c.Canonical) {raw i : Nat} (hi : i < c.length)
    (hraw : ∀ states, c.palette = .indexed states → raw < states.size) :
    Canonical { c with cells := c.cells.set i raw } := by
  have hbits : (c.cells.set i raw).bits = c.bits := PackedArray.bits_set ..
  cases hp : c.palette with
  | direct => exact hbits.trans ((canonical_direct hp).1 h)
  | indexed states =>
    obtain ⟨hnodup, hrange, hsize, hall⟩ := (canonical_indexed hp).1 h
    refine ⟨hnodup, ?_, ?_, fun j hj => ?_⟩
    · show 4 ≤ (c.cells.set i raw).bits ∧ (c.cells.set i raw).bits ≤ 8
      rwa [hbits]
    · show states.size ≤ 2 ^ (c.cells.set i raw).bits
      rwa [hbits]
    · have hj : j < c.length := Nat.lt_of_lt_of_eq hj (PackedArray.length_set ..)
      have hle : c.cells.bits ≤ 32 := by
        have := hrange.2
        show c.bits ≤ 32
        omega
      show (c.cells.set i raw).get j < states.size
      rw [PackedArray.get_set hle hi hj (Nat.lt_of_lt_of_le (hraw states hp) hsize)]
      split
      · exact hraw states hp
      · exact hall j hj

/-- A write gives the state a number, and the number to the cell. -/
theorem Canonical.set_eq (h : c.Canonical) (state : BlockState) {i : Nat} (hi : i < c.length) :
    ∃ raw d, Numbered c state raw d ∧
      c.set i state = (.ok (c.stateAt i), { d with cells := d.cells.set i raw }) := by
  obtain ⟨raw, d, hint, hn⟩ := h.numbered state
  refine ⟨raw, d, hn, ?_⟩
  rw [Container.set, h.get_eq hi]
  simp only [hint]

/-- **All cells stay readable**, whatever states are written. -/
theorem Canonical.set (h : c.Canonical) (state : BlockState) {i : Nat} (hi : i < c.length) :
    (c.set i state).1 = .ok (c.stateAt i) ∧ (c.set i state).2.Canonical ∧
      (c.set i state).2.length = c.length ∧ (c.set i state).2.globalBits = c.globalBits := by
  obtain ⟨raw, d, hn, hset⟩ := h.set_eq state hi
  rw [hset]
  refine ⟨rfl, (hn.canonical h).setCell (Nat.lt_of_lt_of_eq hi hn.length_eq.symm)
    fun states hp => hn.lt_size hp, ?_, hn.globalBits_eq⟩
  exact (PackedArray.length_set ..).trans hn.length_eq

theorem Canonical.bits_le (h : c.Canonical) (hg : c.globalBits ≤ 32) : c.cells.bits ≤ 32 := by
  show c.bits ≤ 32
  cases hp : c.palette with
  | indexed states =>
    obtain ⟨-, ⟨-, hmax⟩, -⟩ := (canonical_indexed hp).1 h
    omega
  | direct =>
    rw [(canonical_direct hp).1 h]
    exact hg

/-- The state of a cell has the number that the cell stores. -/
theorem Canonical.intern_stateAt (h : c.Canonical) (hg : c.globalBits ≤ 32) {i : Nat}
    (hi : i < c.length) : c.intern (c.stateAt i) = (.ok (c.cells.get i), c) := by
  have hget := h.get_eq hi
  rw [get] at hget
  cases hp : c.palette with
  | direct =>
    rw [hp] at hget
    have hlt : c.cells.get i < 2 ^ 32 :=
      Nat.lt_of_lt_of_le (PackedArray.get_lt (h.bits_le hg) i)
        (Nat.pow_le_pow_right (by decide) (h.bits_le hg))
    rw [intern_direct hp, ← Except.ok.inj hget]
    exact congrArg (fun raw => (Except.ok raw, c)) (UInt32.toNat_ofNat_of_lt' hlt)
  | indexed states =>
    obtain ⟨hnodup, -, -, hraw⟩ := (canonical_indexed hp).1 h
    rw [hp, state_indexed (hraw i hi)] at hget
    have hindex : states.idxOf? (c.stateAt i) = some (c.cells.get i) := by
      rw [← Except.ok.inj hget]
      exact idxOf?_getElem hnodup (hraw i hi)
    unfold intern
    rw [hp]
    simp only [hindex]

/-- **A state that is written where it stands changes nothing.** -/
theorem Canonical.set_stateAt (h : c.Canonical) (hg : c.globalBits ≤ 32) {i : Nat}
    (hi : i < c.length) : c.set i (c.stateAt i) = (.ok (c.stateAt i), c) := by
  rw [Container.set, h.get_eq hi]
  simp only [h.intern_stateAt hg hi, PackedArray.set_get (h.bits_le hg)]

/-! ### States that fit -/

/-- A palette that `c` has is given up in `d`. -/
def Drops (c d : Container) : Prop := c.palette ≠ .direct ∧ d.palette = .direct

instance (c d : Container) : Decidable (c.Drops d) := inferInstanceAs (Decidable (_ ∧ _))

namespace Numbered

variable {raw : Nat}

/-- The number of a state that fits is one that a cell can store. -/
theorem raw_lt (hn : Numbered c state raw d) (h : c.Canonical) (hs : state.FitsIn c.globalBits) :
    raw < 2 ^ d.bits := by
  cases hn with
  | direct hp =>
    rw [(canonical_direct hp).1 h]
    exact hs
  | known hp hi =>
    obtain ⟨-, -, hsize, -⟩ := (canonical_indexed hp).1 h
    obtain ⟨hlt, -⟩ := Array.getElem?_eq_some_iff.1 hi
    exact Nat.lt_of_lt_of_le hlt hsize
  | pushed _ _ _ _ _ _ hroom => exact hroom
  | dropped _ _ _ hd =>
    rw [hd.bits]
    exact hs

/-- The number stands for the state. -/
theorem state_raw (hn : Numbered c state raw d) : d.palette.state raw = .ok state := by
  cases hn with
  | direct hp =>
    rw [hp]
    exact congrArg Except.ok state.ofNat_id
  | known hp hi =>
    obtain ⟨hlt, hst⟩ := Array.getElem?_eq_some_iff.1 hi
    rw [hp, state_indexed hlt, hst]
  | @pushed states cells hp _ _ _ _ _ _ =>
    have hlast : states.size < (states.push state).size := by
      rw [Array.size_push]
      exact Nat.lt_succ_self _
    have hstate := state_indexed hlast
    rwa [Array.getElem_push_eq] at hstate
  | dropped _ _ _ hd =>
    rw [hd.palette]
    exact congrArg Except.ok state.ofNat_id

/-- Giving a state a number only changes what cells read if the palette is given up. -/
theorem stateAt (hn : Numbered c state raw d) (h : c.Canonical) (hg : c.globalBits ≤ 32) {j : Nat}
    (hj : j < c.length) :
    d.stateAt j = if c.Drops d then (c.stateAt j).cut c.globalBits else c.stateAt j := by
  cases hn with
  | direct hp => rw [if_neg fun hdrop => hdrop.1 hp]
  | known hp _ => rw [if_neg fun hdrop => hdrop.1 hdrop.2]
  | @pushed states cells hp _ _ hget _ _ _ =>
    obtain ⟨-, -, -, hraw⟩ := (canonical_indexed hp).1 h
    -- old places stand for the same states in the longer palette
    have hsame : get { c.withState states state with cells } j = c.get j := by
      have hkept : (c.withState states state).get j = c.get j := get_withState hp (hraw j hj)
      rw [← hkept]
      unfold get
      simp only [hget j hj]
      rfl
    rw [if_neg fun hdrop => nomatch hdrop.2]
    apply stateAt_of_get
    rw [hsame, h.get_eq hj]
  | dropped hp _ _ hd =>
    have hdrop : c.Drops d := by
      refine ⟨?_, hd.palette⟩
      simp [hp]
    rw [if_pos hdrop, hd.stateAt hg j hj]

end Numbered

/-- The effect of a write of a state that fits. -/
structure Edited (c : Container) (i : Nat) (state : BlockState) (d : Container) : Prop where
  canonical : d.Canonical
  length : d.length = c.length
  globalBits : d.globalBits = c.globalBits
  /-- A palette that was given up does not come back. -/
  direct : c.palette = .direct → d.palette = .direct
  stateAt : ∀ j < c.length, d.stateAt j =
    if j = i then state
    else if c.Drops d then (c.stateAt j).cut c.globalBits else c.stateAt j

/-- **A write changes one cell**, and cuts the states of the others if the palette is given up. -/
theorem Canonical.set_spec (h : c.Canonical) (hg : c.globalBits ≤ 32)
    (hs : state.FitsIn c.globalBits) {i : Nat} (hi : i < c.length) :
    (c.set i state).1 = .ok (c.stateAt i) ∧ Edited c i state (c.set i state).2 := by
  obtain ⟨raw, d, hn, hset⟩ := h.set_eq state hi
  obtain ⟨hout, hcanonical, hlength, hglobal⟩ := h.set state hi
  refine ⟨hout, hcanonical, hlength, hglobal, ?_, ?_⟩
  · intro hp
    rw [hset]
    cases hn with
    | direct hp' => exact hp'
    | known hp' _ => exact hp
    | pushed hp' _ _ _ _ _ _ => simp [hp] at hp'
    | dropped hp' _ _ _ => simp [hp] at hp'
  · intro j hj
    have hlen : d.length = c.length := hn.length_eq
    have hbits := (hn.canonical h).bits_le (hn.globalBits_eq ▸ hg)
    have hget := PackedArray.get_set hbits (Nat.lt_of_lt_of_eq hi hlen.symm)
      (Nat.lt_of_lt_of_eq hj hlen.symm) (hn.raw_lt h hs)
    have hdrops : c.Drops { d with cells := d.cells.set i raw } ↔ c.Drops d := Iff.rfl
    simp only [hset, hdrops, ← hn.stateAt h hg hj]
    split
    · next hji =>
      apply stateAt_of_get
      rw [get]
      simp only [hget, if_pos hji]
      exact hn.state_raw
    · next hji =>
      unfold Container.stateAt get
      simp only [hget, if_neg hji]

/-- A new state is one too many for a full palette. -/
theorem Canonical.palette_set_of_full (h : c.Canonical) {states : Array BlockState}
    (hp : c.palette = .indexed states) (hnew : state ∉ states.toList) (hfull : 2 ^ 8 ≤ states.size)
    {i : Nat} (hi : i < c.length) : (c.set i state).2.palette = .direct := by
  obtain ⟨raw, d, hn, hset⟩ := h.set_eq state hi
  rw [hset]
  cases hn with
  | direct hp' => simp [hp] at hp'
  | @known states' _ hp' hi' =>
    obtain rfl : states = states' := by simpa [hp] using hp'
    obtain ⟨hlt, hstate⟩ := Array.getElem?_eq_some_iff.1 hi'
    exact absurd (by simp [← hstate]) hnew
  | @pushed states' cells hp' _ _ _ _ hmax hroom =>
    obtain rfl : states = states' := by simpa [hp] using hp'
    have hpow : 2 ^ cells.bits ≤ 2 ^ 8 := Nat.pow_le_pow_right (by decide) hmax
    omega
  | dropped _ _ _ hd => exact hd.palette

/-! ### Containers of states that fit -/

/-- What holds of all containers that were made by writing states. -/
structure Sound (c : Container) : Prop where
  canonical : c.Canonical
  global_le : c.globalBits ≤ 32
  /-- All states of the palette can also be stored by their numbers. -/
  fits : ∀ states, c.palette = .indexed states → ∀ s ∈ states.toList, s.FitsIn c.globalBits
  nonempty : ∀ states, c.palette = .indexed states → 0 < states.size
  /-- The palette is only given up when its places need more than eight bits. -/
  wide : c.palette = .direct → 8 < c.globalBits

theorem Sound.bits_le (h : c.Sound) : c.cells.bits ≤ 32 := h.canonical.bits_le h.global_le

/-- All cells can be read. -/
theorem Sound.get_eq (h : c.Sound) {i : Nat} (hi : i < c.length) : c.get i = .ok (c.stateAt i) :=
  h.canonical.get_eq hi

/-- All cells hold states that can be stored by their numbers. -/
theorem Sound.stateAt_fits (h : c.Sound) {i : Nat} (hi : i < c.length) :
    (c.stateAt i).FitsIn c.globalBits := by
  cases hp : c.palette with
  | indexed states =>
    obtain ⟨-, -, -, hall⟩ := (canonical_indexed hp).1 h.canonical
    have hraw := hall i hi
    have hs : c.stateAt i = states[c.cells.get i] := by
      apply stateAt_of_get
      rw [get, hp, state_indexed hraw]
    rw [hs]
    exact h.fits states hp _ (by simp)
  | direct =>
    have hbits : c.cells.bits = c.globalBits := (canonical_direct hp).1 h.canonical
    have hlt := PackedArray.get_lt h.bits_le i
    have hs : c.stateAt i = ⟨UInt32.ofNat (c.cells.get i)⟩ := by
      apply stateAt_of_get
      rw [get, hp]
      rfl
    rw [hs, BlockState.FitsIn, UInt32.toNat_ofNat']
    rw [hbits] at hlt
    exact Nat.lt_of_le_of_lt (Nat.mod_le _ _) hlt

theorem Sound.toList?_eq (h : c.Sound) :
    c.toList? = .ok ((List.range c.length).map c.stateAt) :=
  h.canonical.toList?_eq

/-- A palette of more different states than eight bits tell apart. -/
theorem Sound.wide_of_full (h : c.Sound) {states : Array BlockState}
    (hp : c.palette = .indexed states) (hnew : state ∉ states.toList)
    (hs : state.FitsIn c.globalBits) (hfull : 2 ^ 8 ≤ states.size) : 8 < c.globalBits := by
  obtain ⟨hnodup, -⟩ := (canonical_indexed hp).1 h.canonical
  have hmany : (state :: states.toList).length ≤ 2 ^ c.globalBits := by
    apply length_le_of_fitsIn (List.nodup_cons.2 ⟨hnew, hnodup⟩)
    intro s hmem
    rcases List.mem_cons.1 hmem with rfl | hmem
    · exact hs
    · exact h.fits states hp s hmem
  rw [List.length_cons, Array.length_toList] at hmany
  exact (Nat.pow_lt_pow_iff_right (by decide : 1 < 2)).1 (by omega)

/-- What holds of the states of the palette and of the new one holds of them afterwards. -/
theorem Numbered.forall_palette {raw : Nat} (hn : Numbered c state raw d) {P : BlockState → Prop}
    (hall : ∀ states, c.palette = .indexed states → ∀ s ∈ states.toList, P s) (hstate : P state) :
    ∀ states, d.palette = .indexed states → ∀ s ∈ states.toList, P s := by
  intro states hp s hmem
  cases hn with
  | direct _ => exact hall states hp s hmem
  | known _ _ => exact hall states hp s hmem
  | pushed hp' _ _ _ _ _ _ =>
    cases hp
    rw [Array.toList_push, List.mem_append, List.mem_singleton] at hmem
    rcases hmem with hmem | rfl
    · exact hall _ hp' s hmem
    · exact hstate
  | dropped _ _ _ hd => simp [hd.palette] at hp

/-- A sound container gives numbers to states that fit. -/
theorem Numbered.sound {raw : Nat} (hn : Numbered c state raw d) (h : c.Sound)
    (hs : state.FitsIn c.globalBits) : d.Sound where
  canonical := hn.canonical h.canonical
  global_le := hn.globalBits_eq ▸ h.global_le
  fits := by
    rw [hn.globalBits_eq]
    exact hn.forall_palette h.fits hs
  nonempty := fun states hp => Nat.lt_of_le_of_lt (Nat.zero_le _) (hn.lt_size hp)
  wide := by
    intro hp
    rw [hn.globalBits_eq]
    cases hn with
    | direct _ => exact h.wide hp
    | known _ _ => exact h.wide hp
    | pushed _ _ _ _ _ _ _ => cases hp
    | dropped hp' hnew hfull _ => exact h.wide_of_full hp' hnew hs hfull

/-- The effect of a write to a cell where all states fit. -/
structure Written (c : Container) (i : Nat) (state : BlockState) (d : Container) : Prop where
  sound : d.Sound
  length : d.length = c.length
  globalBits : d.globalBits = c.globalBits
  stateAt : ∀ j < c.length, d.stateAt j = if j = i then state else c.stateAt j

/-- **A write tells the state before and changes one cell.** -/
theorem set_spec (h : c.Sound) (hs : state.FitsIn c.globalBits) {i : Nat} (hi : i < c.length) :
    (c.set i state).1 = .ok (c.stateAt i) ∧ Written c i state (c.set i state).2 := by
  obtain ⟨hout, hedited⟩ := h.canonical.set_spec h.global_le hs hi
  obtain ⟨raw, d, hn, hset⟩ := h.canonical.set_eq state hi
  have hd := hn.sound h hs
  refine ⟨hout, ⟨hedited.canonical, ?_, ?_, ?_, ?_⟩, hedited.length, hedited.globalBits, ?_⟩
  · exact hedited.globalBits ▸ h.global_le
  · rw [hset]
    exact hd.fits
  · rw [hset]
    exact hd.nonempty
  · rw [hset]
    exact hd.wide
  · -- cutting changes no state
    intro j hj
    rw [hedited.stateAt j hj, BlockState.cut_of_fits (h.stateAt_fits hj), ite_self]

/-! ### New containers -/

theorem canonical_filled (length globalBits : Nat) (state : BlockState) :
    (filled length state globalBits).Canonical := by
  have hbits : (filled length state globalBits).bits = 4 := rfl
  refine ⟨List.nodup_cons.2 ⟨List.not_mem_nil, List.nodup_nil⟩, ?_, ?_, ?_⟩
  · rw [hbits]
    decide
  · rw [hbits]
    show 1 ≤ 2 ^ 4
    decide
  · intro i _
    rw [show (filled length state globalBits).cells = .zero minIndexBits length from rfl,
      PackedArray.get_zero]
    exact Nat.zero_lt_one

theorem sound_filled (length : Nat) {globalBits : Nat} (hg : globalBits ≤ 32)
    (hs : state.FitsIn globalBits) : (filled length state globalBits).Sound where
  canonical := canonical_filled ..
  global_le := hg
  fits := by
    intro states hp s hmem
    cases hp
    rw [List.mem_singleton.1 hmem]
    exact hs
  nonempty := by
    intro states hp
    cases hp
    exact Nat.zero_lt_one
  wide := by
    intro hp
    cases hp

theorem stateAt_filled (length globalBits i : Nat) :
    (filled length state globalBits).stateAt i = state := by
  apply stateAt_of_get
  unfold get filled
  rw [PackedArray.get_zero]
  rfl

/-! ### Any number of writes -/

/-- Write states to cells, one after another. The outcomes come in the same order. -/
def setAll (c : Container) :
    List (Nat × BlockState) → List (Except StorageError BlockState) × Container
  | [] => ([], c)
  | (i, state) :: rest =>
    ((c.set i state).1 :: ((c.set i state).2.setAll rest).1, ((c.set i state).2.setAll rest).2)

end Container

/-- Writes to a plain array of states, given as a function: what stood in each cell when it was
written, and the array afterwards. -/
def writePlain (f : Nat → BlockState) :
    List (Nat × BlockState) → List BlockState × (Nat → BlockState)
  | [] => ([], f)
  | (i, state) :: rest =>
    let g := fun j => if j = i then state else f j
    (f i :: (writePlain g rest).1, (writePlain g rest).2)

/-- What a cell holds after writes only depends on what it held itself. -/
theorem writePlain_congr {f g : Nat → BlockState} {i : Nat} (h : f i = g i)
    (writes : List (Nat × BlockState)) : (writePlain f writes).2 i = (writePlain g writes).2 i := by
  induction writes generalizing f g with
  | nil => exact h
  | cons w rest ih =>
    apply ih
    simp only [h]

namespace Container

/-- The effect of writes of states that fit. -/
structure Rewritten (c : Container) (writes : List (Nat × BlockState)) (d : Container) : Prop where
  canonical : d.Canonical
  length : d.length = c.length
  globalBits : d.globalBits = c.globalBits
  /-- A palette that was given up does not come back. -/
  direct : c.palette = .direct → d.palette = .direct
  stateAt : ∀ j < c.length, d.stateAt j = (writePlain
    (fun j => if c.Drops d then (c.stateAt j).cut c.globalBits else c.stateAt j) writes).2 j

/-- **Writes change the cells that they are for**, and cut the states of the others if the palette
is given up. -/
theorem Canonical.setAll_spec {c : Container} (h : c.Canonical) (hg : c.globalBits ≤ 32)
    (writes : List (Nat × BlockState))
    (hw : ∀ w ∈ writes, w.1 < c.length ∧ w.2.FitsIn c.globalBits) :
    Rewritten c writes (c.setAll writes).2 := by
  induction writes generalizing c with
  | nil =>
    have hkept : ¬c.Drops c := fun hdrop => hdrop.1 hdrop.2
    refine ⟨h, rfl, rfl, id, fun j _ => ?_⟩
    exact (if_neg hkept).symm
  | cons w rest ih =>
    rcases w with ⟨i, state⟩
    obtain ⟨hi, hs⟩ := hw (i, state) List.mem_cons_self
    obtain ⟨-, hstep⟩ := h.set_spec hg hs hi
    have hrun := ih hstep.canonical (hstep.globalBits ▸ hg) fun w hmem => by
      rw [hstep.length, hstep.globalBits]
      exact hw w (List.mem_cons_of_mem _ hmem)
    show Rewritten c ((i, state) :: rest) ((c.set i state).2.setAll rest).2
    generalize (c.set i state).2 = c' at hstep hrun
    generalize (c'.setAll rest).2 = d at hrun
    refine ⟨hrun.canonical, hrun.length.trans hstep.length, hrun.globalBits.trans hstep.globalBits,
      fun hp => hrun.direct (hstep.direct hp), fun j hj => ?_⟩
    rw [hrun.stateAt j (Nat.lt_of_lt_of_eq hj hstep.length.symm), writePlain]
    apply writePlain_congr
    simp only [hstep.globalBits, hstep.stateAt j hj]
    -- the palette is given up by this write, or by a later one, or not at all
    by_cases hji : j = i
    · simp only [if_pos hji, BlockState.cut_of_fits hs, ite_self]
    · simp only [if_neg hji]
      by_cases hnow : c.Drops c'
      · rw [if_pos hnow, if_pos (show c.Drops d from ⟨hnow.1, hrun.direct hnow.2⟩),
          if_neg fun hlater : c'.Drops d => hlater.1 hnow.2]
      · have hlater : c'.Drops d ↔ c.Drops d := by
          refine and_congr_left fun _ => not_congr ⟨fun hp => ?_, hstep.direct⟩
          exact Decidable.byContradiction fun hne => hnow ⟨hne, hp⟩
        simp only [if_neg hnow, hlater]

/-- Writes keep a container sound, and it goes on reading like the plain array it reads like. -/
theorem setAll_spec {c : Container} (h : c.Sound) {f : Nat → BlockState}
    (hf : ∀ i < c.length, c.stateAt i = f i) (writes : List (Nat × BlockState))
    (hw : ∀ w ∈ writes, w.1 < c.length ∧ w.2.FitsIn c.globalBits) :
    (c.setAll writes).1 = (writePlain f writes).1.map .ok ∧ (c.setAll writes).2.Sound ∧
      (c.setAll writes).2.length = c.length ∧ (c.setAll writes).2.globalBits = c.globalBits ∧
      ∀ i < c.length, (c.setAll writes).2.stateAt i = (writePlain f writes).2 i := by
  induction writes generalizing c f with
  | nil => exact ⟨rfl, h, rfl, rfl, hf⟩
  | cons w rest ih =>
    obtain ⟨i, state⟩ := w
    obtain ⟨hi, hs⟩ := hw (i, state) List.mem_cons_self
    obtain ⟨hout, hd⟩ := set_spec h hs hi
    have hlen := hd.length
    obtain ⟨ih₁, ih₂, ih₃, ih₄, ih₅⟩ := ih hd.sound (f := fun j => if j = i then state else f j)
      (fun j hj => by
        rw [hlen] at hj
        rw [hd.stateAt j hj, hf j hj])
      (fun w hmem => by
        rw [hlen, hd.globalBits]
        exact hw w (List.mem_cons_of_mem _ hmem))
    refine ⟨?_, ih₂, ih₃.trans hlen, ih₄.trans hd.globalBits, ?_⟩
    · rw [setAll, writePlain, ih₁, hout, hf i hi]
      rfl
    · intro j hj
      exact ih₅ j (by rw [hlen]; exact hj)

/-- **A container behaves like a plain array of states.** Each write tells the state before, all
cells read what was written to them last, and the states are always stored in one of the two
ways. -/
theorem setAll_filled (length : Nat) {globalBits : Nat} (hle : globalBits ≤ 32)
    {fill : BlockState} (hfill : fill.FitsIn globalBits) (writes : List (Nat × BlockState))
    (hw : ∀ w ∈ writes, w.1 < length ∧ w.2.FitsIn globalBits) :
    ((filled length fill globalBits).setAll writes).1 =
        (writePlain (fun _ => fill) writes).1.map .ok ∧
      (∀ i < length, ((filled length fill globalBits).setAll writes).2.get i =
        .ok ((writePlain (fun _ => fill) writes).2 i)) ∧
      ((filled length fill globalBits).setAll writes).2.Canonical ∧
      ((filled length fill globalBits).setAll writes).2.globalBits = globalBits := by
  obtain ⟨h₁, h₂, h₃, h₄, h₅⟩ := setAll_spec (sound_filled length hle hfill) (f := fun _ => fill)
    (fun i _ => stateAt_filled length globalBits i) writes hw
  refine ⟨h₁, ?_, h₂.canonical, h₄⟩
  intro i hi
  rw [h₂.get_eq (by rw [h₃]; exact hi), h₅ i hi]

/-- Two writes to a cell of three. -/
theorem setAll_filled_twice :
    ((filled 3 .air 1).setAll [(2, ⟨1⟩), (2, .air)]).1 = [.ok .air, .ok ⟨1⟩] ∧
      (∀ i < 3, ((filled 3 .air 1).setAll [(2, ⟨1⟩), (2, .air)]).2.get i = .ok .air) ∧
      ((filled 3 .air 1).setAll [(2, ⟨1⟩), (2, .air)]).2.Canonical := by
  obtain ⟨h₁, h₂, h₃, -⟩ := setAll_filled 3 (show 1 ≤ 32 by decide) (BlockState.air_fitsIn 1)
    [(2, ⟨1⟩), (2, .air)] (by decide)
  refine ⟨h₁, ?_, h₃⟩
  intro i hi
  rw [h₂ i hi]
  by_cases hi₂ : i = 2 <;> simp [writePlain, hi₂]

end Container

end VoxelChunk
