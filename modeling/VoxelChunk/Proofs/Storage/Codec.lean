import Mathlib.Algebra.Group.Nat.Defs
import VoxelChunk.Proofs.Storage.Container
import VoxelChunk.Proofs.Wire
import VoxelChunk.Storage.Codec

/-!
# Containers are read as they were written

A container whose palette and width go together is read back from its bytes exactly as it was: with
the same palette, the same width of cells and the same words. Cells that refer to no state of the
palette are read back as well.

## Main definitions

* `Container.Regular` — palettes and widths that go together.
* `Container.Writable` — palettes whose states can be written.

## Main results

* `Container.readPalette_reads`, `Container.readCells_reads` — the two parts of the bytes.
* `Container.decoder_reads` — whole containers.
-/

namespace VoxelChunk

open Decoder

/-- The number of words grows with the width of the cells. -/
theorem wordsFor_le (length : Nat) {bits : Nat} (h : bits ≤ 32) :
    wordsFor bits length ≤ wordsFor 32 length := by
  unfold wordsFor
  split
  · exact Nat.zero_le _
  · next h₀ =>
    have hper : 2 ≤ 64 / bits := (Nat.le_div_iff_mul_le (by omega)).2 (by omega)
    -- a ceiling of a quotient falls when the divisor grows
    rw [if_neg (by decide), show (64 : Nat) / 32 = 2 from rfl,
      show length + 2 - 1 = length + 1 from rfl]
    have hlen : length ≤ (length + 1) / 2 * (64 / bits) := by
      have := Nat.mul_le_mul_left ((length + 1) / 2) hper
      omega
    refine Nat.le_of_lt_succ ((Nat.div_lt_iff_lt_mul (by omega)).2 ?_)
    rw [Nat.succ_mul]
    omega

namespace Container

variable {c : Container}

/-! ### Numbers and states -/

theorem toInt_ofNat {n : Nat} (h : n < 2147483648) : (UInt32.ofNat n).toInt32.toInt = n := by
  have hn : (UInt32.ofNat n).toNat = n := by
    rw [UInt32.toNat_ofNat', Nat.mod_eq_of_lt (by omega)]
  show (UInt32.ofNat n).toBitVec.toInt = n
  rw [BitVec.toInt_eq_toNat_of_lt (by rw [UInt32.toNat_toBitVec, hn]; omega),
    UInt32.toNat_toBitVec, hn]

theorem readNat_reads {n : Nat} (h : n < 2147483648) : readNat.Reads (putNat n) n := by
  have hint := toInt_ofNat h
  have hpos : ¬(UInt32.ofNat n).toInt32 < 0 := by
    rw [Int32.lt_iff_toInt_lt, hint]
    exact Int.not_lt.2 (Int.natCast_nonneg n)
  intro rest
  unfold readNat putNat
  rw [decode_bind, (readVarInt_reads _).mapError StorageError.wire]
  simp only
  rw [if_neg hpos, hint]
  rfl

theorem readState_reads {state : BlockState} (h : state.id.toNat < 2147483648) :
    readState.Reads (putNat state.id.toNat) state := by
  have hread := (readNat_reads h).bind_pure fun n => (⟨UInt32.ofNat n⟩ : BlockState)
  rwa [state.ofNat_id] at hread

/-- Different states are read behind others that they differ from. -/
theorem readStates_reads {states : List BlockState} {before : Array BlockState}
    (hn : (before.toList ++ states).Nodup)
    (h : ∀ state ∈ states, state.id.toNat < 2147483648) :
    (readStates states.length before).Reads (states.flatMap fun state => putNat state.id.toNat)
      (before ++ states.toArray) := by
  induction states generalizing before with
  | nil =>
    rw [List.flatMap_nil, show before ++ ([] : List BlockState).toArray = before by simp]
    exact Reads.pure before
  | cons state rest ih =>
    -- a state that was read before is refused
    have hnew : ¬before.contains state = true := by
      intro hmem
      rw [Array.contains_iff_mem, ← Array.mem_toList_iff] at hmem
      exact (List.nodup_append.1 hn).2.2 _ hmem _ List.mem_cons_self rfl
    have hpush : ((before.push state).toList ++ rest).Nodup := by
      rwa [Array.toList_push, List.append_assoc]
    have hrest := ih hpush fun s hs => h s (List.mem_cons_of_mem state hs)
    rw [show before ++ (state :: rest).toArray = before.push state ++ rest.toArray by simp,
      List.flatMap_cons]
    refine (readState_reads (h state List.mem_cons_self)).bind ?_
    rw [if_neg hnew]
    exact hrest

theorem readWords_reads (words : List UInt64) (before : Array UInt64) :
    (readWords words.length before).Reads (words.flatMap putLong) (before ++ words.toArray) := by
  induction words generalizing before with
  | nil =>
    rw [List.flatMap_nil, show before ++ ([] : List UInt64).toArray = before by simp]
    exact Reads.pure before
  | cons word rest ih =>
    rw [show before ++ (word :: rest).toArray = before.push word ++ rest.toArray by simp,
      List.flatMap_cons]
    exact ((readLong_reads word).mapError _).bind (ih (before.push word))

/-! ### The parts of a container -/

/-- States of the palette have numbers that can be written. -/
def Writable (c : Container) : Prop :=
  ∀ states, c.palette = .indexed states → ∀ s ∈ states.toList, s.id.toNat < 2147483648

/-- The palette and the width of the cells go together. -/
structure Regular (c : Container) : Prop where
  indexed : ∀ states, c.palette = .indexed states →
    states.toList.Nodup ∧ (4 ≤ c.bits ∧ c.bits ≤ 8) ∧ 0 < states.size ∧ states.size ≤ 2 ^ c.bits
  direct : c.palette = .direct → c.bits = c.globalBits ∧ 8 < c.globalBits

theorem Regular.bits_le (h : c.Regular) (hg : c.globalBits ≤ 32) : c.cells.bits ≤ 32 := by
  show c.bits ≤ 32
  cases hp : c.palette with
  | indexed states =>
    obtain ⟨-, ⟨-, hmax⟩, -⟩ := h.indexed states hp
    omega
  | direct =>
    rw [(h.direct hp).1]
    exact hg

theorem Sound.regular (h : c.Sound) : c.Regular where
  indexed := by
    intro states hp
    obtain ⟨hnodup, hrange, hsize, -⟩ := (canonical_indexed hp).1 h.canonical
    exact ⟨hnodup, hrange, h.nonempty states hp, hsize⟩
  direct := fun hp => ⟨(canonical_direct hp).1 h.canonical, h.wide hp⟩

/-- The palette is read, and the cells keep their width. -/
theorem readPalette_reads (h : c.Regular) (hw : c.Writable) :
    (readPalette c.bits c.globalBits).Reads (encodePalette c.palette) (c.palette, c.bits) := by
  cases hp : c.palette with
  | indexed states =>
    obtain ⟨hnodup, ⟨hmin, hmax⟩, hnonempty, hsize⟩ := h.indexed states hp
    have hpow : 2 ^ c.bits ≤ 2 ^ 8 := Nat.pow_le_pow_right (by decide) hmax
    have hmaxBits : max c.bits minIndexBits = c.bits := Nat.max_eq_left hmin
    have hdistinct : ((#[] : Array BlockState).toList ++ states.toList).Nodup := hnodup
    have hstates := readStates_reads hdistinct (hw states hp)
    rw [Array.length_toList, show #[] ++ states.toList.toArray = states by simp] at hstates
    unfold readPalette
    rw [if_neg (by omega), if_pos (show c.bits ≤ maxIndexBits from hmax)]
    simp only [hmaxBits, Nat.one_shiftLeft]
    refine (readNat_reads (by omega)).bind ?_
    rw [if_neg (by omega)]
    exact hstates.bind_pure fun states => (Palette.indexed states, c.bits)
  | direct =>
    -- more than eight bits tell that there is no palette
    obtain ⟨hbits, hwide⟩ := h.direct hp
    unfold readPalette
    rw [hbits, if_neg (by omega), if_neg (show ¬c.globalBits ≤ maxIndexBits from Nat.not_le.2 hwide),
      if_pos (Nat.le_refl _)]
    exact Reads.pure _

/-- The packed cells are read. -/
theorem readCells_reads {cells : PackedArray} (hbits : cells.bits ≤ 32)
    (hwords : cells.words.size < 2147483648) :
    (readCells cells.bits cells.length).Reads
      (putNat cells.words.size ++ cells.words.toList.flatMap putLong) cells := by
  have hread := readWords_reads cells.words.toList #[]
  rw [Array.length_toList, show #[] ++ cells.words.toList.toArray = cells.words by simp] at hread
  have hcells : PackedArray.ofWords? cells.bits cells.length cells.words = .ok cells := by
    unfold PackedArray.ofWords?
    rw [if_neg (by omega), dif_pos cells.size_words]
  have hle := wordsFor_le cells.length hbits
  rw [← cells.size_words] at hle
  unfold readCells
  refine (readNat_reads hwords).bind ?_
  rw [if_neg (by omega)]
  intro rest
  rw [decode_bind, hread]
  simp only [hcells]
  rfl

/-- **A container is read as it was written.** -/
theorem decoder_reads (h : c.Regular) (hg : c.globalBits ≤ 32) (hw : c.Writable)
    (hwords : c.cells.words.size < 2147483648) :
    (decoder c.length c.globalBits).Reads c.encode c := by
  have hbits := h.bits_le hg
  have hbyte : (UInt8.ofNat c.bits).toNat = c.bits := by
    rw [UInt8.toNat_ofNat', Nat.mod_eq_of_lt]
    show c.cells.bits < 256
    omega
  have hparts : c.encode = [UInt8.ofNat c.bits] ++ (encodePalette c.palette ++
      (putNat c.cells.words.size ++ c.cells.words.toList.flatMap putLong)) := by
    simp [encode, List.append_assoc]
  rw [hparts]
  unfold decoder
  refine ((readByte_reads (UInt8.ofNat c.bits)).mapError _).bind ?_
  simp only [hbyte]
  rw [if_neg (show ¬32 < c.bits from Nat.not_lt.2 hbits)]
  refine (readPalette_reads h hw).bind ?_
  have hcells := (readCells_reads hbits hwords).bind_pure fun cells =>
    (⟨c.globalBits, c.palette, if cells.bits = c.bits then cells else cells.repack c.bits⟩ :
      Container)
  rwa [if_pos (show c.cells.bits = c.bits from rfl)] at hcells

end Container

end VoxelChunk
