import VoxelChunk.Proofs.Storage.Reread
import VoxelChunk.Storage.Checked

/-!
# Containers with cells that cannot be read

Bytes may come with cells that store a number beyond the end of the palette. Such a cell cannot be
read, and as a write tells the state before, it cannot be written either. All other writes succeed,
although cells are read when the palette is given up: that only happens to a palette that has as
many states as its cells can number, and then no number is left that stands for no state.

## Main definitions

* `Container.Consistent` — palettes and widths that go together, whatever the cells store.
* `Container.Reached` — the containers that can be had by any writes.

## Main results

* `Container.Consistent.canonical_of_full` — a full palette makes all cells readable.
* `Container.Consistent.numbered` — a state always gets a number.
* `Container.Reached.set_eq_error_iff` — a write fails if the cell cannot be read, and then nothing
  changes.
-/

namespace VoxelChunk

namespace Container

variable {c d : Container} {globalBits : Nat} {state : BlockState} {i : Nat}

/-- The palette and the width of the cells go together. The cells may store any numbers. -/
structure Consistent (c : Container) : Prop where
  indexed : ∀ states, c.palette = .indexed states →
    states.toList.Nodup ∧ (4 ≤ c.bits ∧ c.bits ≤ 8) ∧ states.size ≤ 2 ^ c.bits
  direct : c.palette = .direct → c.bits = c.globalBits

theorem Canonical.consistent (h : c.Canonical) : c.Consistent where
  indexed := by
    intro states hp
    obtain ⟨hnodup, hrange, hsize, -⟩ := (canonical_indexed hp).1 h
    exact ⟨hnodup, hrange, hsize⟩
  direct := fun hp => (canonical_direct hp).1 h

theorem Regular.consistent (h : c.Regular) : c.Consistent where
  indexed := by
    intro states hp
    obtain ⟨hnodup, hrange, -, hsize⟩ := h.indexed states hp
    exact ⟨hnodup, hrange, hsize⟩
  direct := fun hp => (h.direct hp).1

/-! ### Numbers for states -/

/-- **A full palette makes all cells readable**, as each number that a cell can store is the place
of a state. -/
theorem Consistent.canonical_of_full (h : c.Consistent) {states : Array BlockState}
    (hp : c.palette = .indexed states) (hfull : states.size = 2 ^ c.bits) : c.Canonical := by
  obtain ⟨hnodup, ⟨hmin, hmax⟩, hsize⟩ := h.indexed states hp
  refine (canonical_indexed hp).2 ⟨hnodup, ⟨hmin, hmax⟩, hsize, fun i _ => ?_⟩
  have hbits : c.cells.bits ≤ 32 := by
    show c.bits ≤ 32
    omega
  rw [hfull]
  exact PackedArray.get_lt hbits i

/-- **A state always gets a number**, whatever the cells store. -/
theorem Consistent.numbered (h : c.Consistent) (state : BlockState) :
    ∃ raw d, c.intern state = (.ok raw, d) ∧ Numbered c state raw d := by
  cases hp : c.palette with
  | direct => exact ⟨_, _, intern_direct hp state, .direct hp⟩
  | indexed states =>
    obtain ⟨-, ⟨hmin, hmax⟩, hsize⟩ := h.indexed states hp
    rcases Nat.lt_or_eq_of_le hsize with hroom | hfull
    · exact numbered_of_room hp hmin hmax hroom state
    · exact (h.canonical_of_full hp hfull).numbered state

/-- **Cells can always grow** when there is no room for one more state. -/
theorem Consistent.exists_grow (h : c.Consistent) {states : Array BlockState}
    (hp : c.palette = .indexed states) (hnew : state ∉ states.toList)
    (hfull : 2 ^ c.bits ≤ states.size) : ∃ grown, (c.withState states state).grow = .ok grown := by
  obtain ⟨-, -, hsize⟩ := h.indexed states hp
  have hfull' : states.size = 2 ^ c.bits := Nat.le_antisymm hsize hfull
  obtain ⟨grown, hgrow, -⟩ := (h.canonical_of_full hp hfull').grow_withState hp hnew hfull'
  exact ⟨grown, hgrow⟩

theorem Numbered.consistent {raw : Nat} (hn : Numbered c state raw d) (h : c.Consistent) :
    d.Consistent := by
  cases hn with
  | direct _ => exact h
  | known _ _ => exact h
  | pushed hp hnew _ _ hmin hmax hroom =>
    obtain ⟨hnodup, -, -⟩ := h.indexed _ hp
    refine ⟨?_, nofun⟩
    rintro _ ⟨⟩
    refine ⟨nodup_push hnodup hnew, ⟨hmin, hmax⟩, ?_⟩
    rw [Array.size_push]
    exact hroom
  | dropped _ _ _ hd =>
    refine ⟨fun states hp => ?_, fun _ => hd.bits.trans hd.globalBits.symm⟩
    simp [hd.palette] at hp

/-- What a cell stores does not matter. -/
theorem Consistent.setCell (h : c.Consistent) (i raw : Nat) :
    Consistent { c with cells := c.cells.set i raw } := by
  have hbits : bits { c with cells := c.cells.set i raw } = c.bits := PackedArray.bits_set ..
  refine ⟨fun states hp => ?_, fun hp => hbits.trans (h.direct hp)⟩
  rw [hbits]
  exact h.indexed states hp

/-! ### Writing -/

/-- A cell that cannot be read stores a number beyond the palette. -/
theorem eq_missingEntry {e : StorageError} (h : c.get i = .error e) :
    e = .missingEntry (c.cells.get i) := by
  unfold get Palette.state at h
  cases hp : c.palette with
  | direct => simp [hp] at h
  | indexed states =>
    simp only [hp] at h
    cases hget : states[c.cells.get i]? with
    | some state => simp [hget] at h
    | none => simpa [hget] using h.symm

theorem set_of_error {e : StorageError} (h : c.get i = .error e) (state : BlockState) :
    c.set i state = (.error e, c) := by
  rw [set, h]

/-- A write to a cell that can be read gives the state a number, and the number to the cell. -/
theorem Consistent.set_of_ok (h : c.Consistent) {previous : BlockState}
    (hget : c.get i = .ok previous) (state : BlockState) :
    ∃ raw d, Numbered c state raw d ∧
      c.set i state = (.ok previous, { d with cells := d.cells.set i raw }) := by
  obtain ⟨raw, d, hintern, hn⟩ := h.numbered state
  refine ⟨raw, d, hn, ?_⟩
  rw [Container.set, hget]
  simp only [hintern]

theorem Consistent.set (h : c.Consistent) (i : Nat) (state : BlockState) :
    (c.set i state).2.Consistent := by
  cases hget : c.get i with
  | error e =>
    rw [set_of_error hget]
    exact h
  | ok previous =>
    obtain ⟨raw, d, hn, hset⟩ := h.set_of_ok hget state
    rw [hset]
    exact (hn.consistent h).setCell i raw

/-- A write fails as reading the cell fails. -/
theorem Consistent.set_fst (h : c.Consistent) (i : Nat) (state : BlockState) :
    (c.set i state).1 = c.get i := by
  cases hget : c.get i with
  | error e => rw [set_of_error hget]
  | ok previous =>
    obtain ⟨raw, d, -, hset⟩ := h.set_of_ok hget state
    rw [hset]

/-- A cell that cannot be read makes a write fail before anything else is checked. -/
theorem setChecked_of_error {e : StorageError} (h : c.get i = .error e) (state : BlockState) :
    c.setChecked i state = (.ok (.error e), c) := by
  have hcheck : c.failedCheck? i state = none := by rw [failedCheck?, h]
  rw [setChecked, hcheck]
  simp only [set_of_error h]

/-- A write that is not stopped by a check tells what the plain write tells. -/
theorem setChecked_fst {outcome : Except StorageError BlockState}
    (h : (c.setChecked i state).1 = .ok outcome) : outcome = (c.set i state).1 := by
  unfold setChecked at h
  split at h
  · cases h
  · exact (Except.ok.inj h).symm

/-! ### All containers -/

/-- The containers of states with numbers of the given width: those with one state in all cells,
those that were read from any bytes, and those after a write to any of them, also if it failed. -/
inductive Reached (globalBits : Nat) : Container → Prop
  | filled (length : Nat) (fill : BlockState) : Reached globalBits (filled length fill globalBits)
  | read {length : Nat} {c : Container} {bytes rest : List UInt8} :
    (decoder length globalBits).decode bytes = (.ok c, rest) → Reached globalBits c
  | written {c : Container} (i : Nat) (state : BlockState) :
    Reached globalBits c → Reached globalBits (c.set i state).2

theorem Reached.consistent (h : Reached globalBits c) : c.Consistent := by
  induction h with
  | filled length fill => exact (canonical_filled length globalBits fill).consistent
  | read hread =>
    obtain ⟨hregular, -⟩ := decode_regular hread
    exact hregular.consistent
  | written i state _ ih => exact ih.set i state

/-- **A write fails exactly if the cell cannot be read, and then nothing changes.** It is the number
of the cell that is reported as missing, whether the program checks its writes or not. Widening the
cells and giving up the palette never fail, whatever other cells store. -/
theorem Reached.set_eq_error_iff (h : Reached globalBits c) (i : Nat) (state : BlockState) :
    (∀ e, (c.set i state).1 = .error e ↔ c.get i = .error e) ∧
      (∀ e, (c.setChecked i state).1 = .ok (.error e) ↔ c.get i = .error e) ∧
      (∀ e, c.get i = .error e → e = .missingEntry (c.cells.get i) ∧
        (c.set i state).2 = c ∧ (c.setChecked i state).2 = c) ∧
      (∃ raw d, c.intern state = (.ok raw, d)) ∧
      ∀ states, c.palette = .indexed states → state ∉ states.toList →
        2 ^ c.bits ≤ states.size → ∃ grown, (c.withState states state).grow = .ok grown := by
  have hc := h.consistent
  have hfst := hc.set_fst i state
  refine ⟨fun e => by rw [hfst], fun e => ⟨fun herror => ?_, fun hget => ?_⟩,
    fun e hget => ⟨eq_missingEntry hget, ?_, ?_⟩, ?_, fun states hp => hc.exists_grow hp⟩
  · rw [← hfst, ← setChecked_fst herror]
  · rw [setChecked_of_error hget]
  · rw [set_of_error hget]
  · rw [setChecked_of_error hget]
  · obtain ⟨raw, d, hintern, -⟩ := hc.numbered state
    exact ⟨raw, d, hintern⟩

/-- A container of two cells, one of which stores a number that is not in the palette. -/
def halfReadable : Container := ⟨4, .indexed #[⟨5⟩], ⟨4, 2, #[0xF0], rfl⟩⟩

/-- It can be received, and its second cell can be neither read nor written, also after a write to
the first. -/
theorem set_halfReadable :
    (decoder 2 4).decode [4, 1, 5, 1, 0, 0, 0, 0, 0, 0, 0, 0xF0] = (.ok halfReadable, []) ∧
      (halfReadable.set 0 ⟨3⟩).2.get 1 = .error (.missingEntry 15) ∧
        ((halfReadable.set 0 ⟨3⟩).2.set 1 ⟨9⟩).1 = .error (.missingEntry 15) ∧
          ((halfReadable.set 0 ⟨3⟩).2.set 1 ⟨9⟩).2 = (halfReadable.set 0 ⟨3⟩).2 := by
  have hread : (decoder 2 4).decode [4, 1, 5, 1, 0, 0, 0, 0, 0, 0, 0, 0xF0] =
      (.ok halfReadable, []) := by decide +kernel
  have hget : (halfReadable.set 0 ⟨3⟩).2.get 1 = .error (.missingEntry 15) := by decide +kernel
  have hreached : Reached 4 (halfReadable.set 0 ⟨3⟩).2 := .written 0 ⟨3⟩ (.read hread)
  obtain ⟨hiff, -, hsame, -⟩ := hreached.set_eq_error_iff 1 ⟨9⟩
  obtain ⟨-, hkept, -⟩ := hsame _ hget
  exact ⟨hread, hget, (hiff _).2 hget, hkept⟩

end Container

end VoxelChunk
