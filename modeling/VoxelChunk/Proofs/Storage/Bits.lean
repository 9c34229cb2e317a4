import VoxelChunk.Proofs.Storage.Packed

/-!
# The bits of packed arrays

Each bit of a word belongs to one entry of the array at most. A write changes the bits of its entry
and no others. The bits that belong to no entry are never read, and are zero in an array that was
made in the program and not read from outside, so that such an array is known by its entries.

## Main definitions

* `PackedArray.bit` — a bit of a word.
* `PackedArray.HasBit` — a bit belongs to an entry.
* `PackedArray.Trim` — the bits that belong to no entry are zero.
* `PackedArray.Built` — the arrays that are made from zeros by writes and with other numbers of
  bits.

## Main results

* `PackedArray.HasBit.bit_eq`, `PackedArray.bit_set_of_not_hasBit` — bits of entries and others.
* `PackedArray.Trim.ext` — arrays without other bits are known by their entries.
* `PackedArray.entries_spec` — a packed array is an array.
-/

namespace VoxelChunk

namespace PackedArray

/-- A bit of a word. -/
def bit (a : PackedArray) (m k : Nat) : Bool := (a.words.getD m 0).toNat.testBit k

/-- The bit of the word belongs to the entry. -/
structure HasBit (a : PackedArray) (i m k : Nat) : Prop where
  word : m = a.wordOf i
  low : i % a.perWord * a.bits ≤ k
  high : k < i % a.perWord * a.bits + a.bits

/-- All bits that belong to no entry are zero. -/
def Trim (a : PackedArray) : Prop := ∀ m k, a.bit m k = true → ∃ i < a.length, a.HasBit i m k

/-- The arrays that are made from zeros by writes and with other numbers of bits. -/
inductive Built : PackedArray → Prop
  | zero {bits : Nat} (length : Nat) : bits ≤ 32 → Built (.zero bits length)
  | set {a : PackedArray} {i : Nat} (value : Nat) : i < a.length → Built a → Built (a.set i value)
  | repack {a : PackedArray} {bits : Nat} : bits ≤ 32 → Built a → Built (a.repack bits)

variable {a b : PackedArray} {i j m k : Nat}

/-! ### Bits of entries -/

theorem HasBit.bits_ne_zero (h : a.HasBit i m k) : a.bits ≠ 0 := by
  have := h.low
  have := h.high
  omega

/-- The bits of an entry are those of its number. -/
theorem HasBit.bit_eq (h : a.HasBit i m k) (hbits : a.bits ≤ 32) :
    a.bit m k = (a.get i).testBit (k - i % a.perWord * a.bits) := by
  have hlow := h.low
  have hhigh := h.high
  have hplace : k - i % a.perWord * a.bits < a.bits := by omega
  rw [testBit_get h.bits_ne_zero hbits, Nat.add_sub_cancel' hlow, decide_eq_true hplace,
    Bool.and_true, bit, h.word]

/-- Which bits belong to an entry depends on the number of bits only. -/
theorem hasBit_congr (hbits : a.bits = b.bits) : a.HasBit i m k ↔ b.HasBit i m k := by
  have hword : a.wordOf i = b.wordOf i := by rw [wordOf, wordOf, perWord, perWord, hbits]
  have hplace : i % a.perWord * a.bits = i % b.perWord * b.bits := by
    rw [perWord, perWord, hbits]
  constructor
  · rintro ⟨h₁, h₂, h₃⟩
    exact ⟨h₁.trans hword, hplace ▸ h₂, by rwa [hplace, hbits] at h₃⟩
  · rintro ⟨h₁, h₂, h₃⟩
    exact ⟨h₁.trans hword.symm, hplace ▸ h₂, by rwa [hplace, hbits]⟩

theorem bit_of_size_le (h : a.words.size ≤ m) (k : Nat) : a.bit m k = false := by
  rw [bit, Array.getD_eq_getD_getElem?, Array.getElem?_eq_none h]
  exact Nat.zero_testBit k

/-! ### Writing -/

theorem size_words_set (a : PackedArray) (i value : Nat) :
    (a.set i value).words.size = a.words.size := by
  rw [size_words, size_words, bits_set, length_set]

/-- **A write changes no bit that does not belong to its entry.** -/
theorem bit_set_of_not_hasBit (hbits : a.bits ≤ 32) (value : Nat) (h : ¬a.HasBit i m k) :
    (a.set i value).bit m k = a.bit m k := by
  by_cases h₀ : a.bits = 0
  · rw [set, if_pos h₀]
  rcases Nat.lt_or_ge m a.words.size with hm | hm
  · unfold bit
    rw [words_getD_set i value m h₀ hm]
    split
    · next hword =>
      rw [shiftOf, testBit_written hbits (shift_add_bits_le h₀ hbits i) h₀, if_neg]
      rintro ⟨hlow, hhigh⟩
      exact h ⟨hword, hlow, hhigh⟩
    · rfl
  · rw [bit_of_size_le hm, bit_of_size_le (by rwa [size_words_set])]

/-! ### Bits that belong to no entry -/

theorem trim_zero (bits length : Nat) : (zero bits length).Trim := by
  intro m k hbit
  have hword : (zero bits length).words.getD m 0 = 0 := by
    simp only [zero, Array.getD_eq_getD_getElem?, Array.getElem?_replicate]
    split <;> rfl
  rw [bit, hword] at hbit
  exact absurd hbit (by simp)

theorem Trim.set (h : a.Trim) (hbits : a.bits ≤ 32) (hi : i < a.length) (value : Nat) :
    (a.set i value).Trim := by
  intro m k hbit
  simp only [length_set, hasBit_congr (bits_set a i value)]
  by_cases hown : a.HasBit i m k
  · exact ⟨i, hi, hown⟩
  · rw [bit_set_of_not_hasBit hbits value hown] at hbit
    exact h m k hbit

/-- An array made entry by entry has no other bits. -/
theorem trim_ofFn {bits : Nat} (hbits : bits ≤ 32) (length : Nat) (f : Nat → Nat) :
    (ofFn bits length f).Trim := by
  -- the array is one of zeros that has been written to, place by place
  have hwrites : ∀ (places : List Nat) (a : PackedArray), a.Trim → a.bits ≤ 32 →
      (∀ i ∈ places, i < a.length) → (places.foldl (fun a i => a.set i (f i)) a).Trim := by
    intro places
    induction places with
    | nil => exact fun a ha _ _ => ha
    | cons i places ih =>
      intro a ha hle hplaces
      obtain ⟨hi, hplaces⟩ := List.forall_mem_cons.mp hplaces
      rw [List.foldl_cons]
      exact ih _ (ha.set hle hi (f i)) (by simpa using hle) (by simpa using hplaces)
  exact hwrites (List.range length) _ (trim_zero bits length) hbits fun i => List.mem_range.mp

theorem Built.bits_le (h : a.Built) : a.bits ≤ 32 := by
  induction h with
  | zero _ hbits => exact hbits
  | set value _ _ ih => rwa [bits_set]
  | repack hbits _ _ => rwa [bits_repack]

theorem Built.trim (h : a.Built) : a.Trim := by
  induction h with
  | zero length _ => exact trim_zero _ length
  | set value hi h ih => exact ih.set h.bits_le hi value
  | repack hbits _ _ => exact trim_ofFn hbits _ _

/-- The bits of two arrays are the same if no other bits than those of equal entries are set. -/
theorem Trim.bit_eq (ha : a.Trim) (hb : b.Trim) (hle : a.bits ≤ 32) (hbits : a.bits = b.bits)
    (hlength : a.length = b.length) (hget : ∀ i < a.length, a.get i = b.get i) (m k : Nat) :
    a.bit m k = b.bit m k := by
  -- a bit of an entry is a bit of the same number in both, and any other is zero in both
  by_cases hown : ∃ i < a.length, a.HasBit i m k
  · obtain ⟨i, hi, hbit⟩ := hown
    have hbit' : b.HasBit i m k := (hasBit_congr hbits).mp hbit
    rw [hbit.bit_eq hle, hbit'.bit_eq (hbits ▸ hle), hget i hi, perWord, perWord, hbits]
  · have hafalse : a.bit m k = false := Bool.eq_false_iff.mpr fun h => hown (ha m k h)
    have hbfalse : b.bit m k = false := by
      refine Bool.eq_false_iff.mpr fun h => hown ?_
      simp only [hlength, hasBit_congr hbits]
      exact hb m k h
    rw [hafalse, hbfalse]

/-- **Arrays without other bits are known by their entries.** -/
theorem Trim.ext (ha : a.Trim) (hb : b.Trim) (hle : a.bits ≤ 32) (hbits : a.bits = b.bits)
    (hlength : a.length = b.length) (hget : ∀ i < a.length, a.get i = b.get i) : a = b := by
  have hsize : a.words.size = b.words.size := by rw [size_words, size_words, hbits, hlength]
  refine PackedArray.ext hbits hlength (Array.ext hsize fun m hm hm' => ?_)
  have hword : a.words.getD m 0 = b.words.getD m 0 := by
    rw [← UInt64.toNat_inj]
    exact Nat.eq_of_testBit_eq (ha.bit_eq hb hle hbits hlength hget m)
  simpa [Array.getD_eq_getD_getElem?, hm, hm'] using hword

/-! ### Arrays -/

/-- **A packed array is an array.** Whatever words it was made of, its entries lie within its words,
and a write returns the entry there was, changes this entry alone, and no bit of any other. With
another number of bits, all entries stay that fit. If it was made in the program, its entries tell
all of it. -/
theorem entries_spec (hpos : 1 ≤ a.bits) (hle : a.bits ≤ 32) :
    (a.words.size = wordsFor a.bits a.length ∧ ∀ i < a.length,
        a.wordOf i < a.words.size ∧ i % a.perWord * a.bits + a.bits ≤ 64) ∧
      (∀ i < a.length, ∀ value < 2 ^ a.bits,
        (a.exchange i value).1 = a.get i ∧ (a.exchange i value).2.get i = value ∧
          (∀ j < a.length, j ≠ i → (a.exchange i value).2.get j = a.get j) ∧
          ∀ m k, ¬a.HasBit i m k → (a.exchange i value).2.bit m k = a.bit m k) ∧
      (∀ bits ≤ 32, ∀ i < a.length, a.get i < 2 ^ bits → (a.repack bits).get i = a.get i) ∧
      ∀ b : PackedArray, a.Built → b.Built → b.bits = a.bits → b.length = a.length →
        (a = b ↔ ∀ i < a.length, a.get i = b.get i) := by
  have h₀ : a.bits ≠ 0 := by omega
  refine ⟨⟨a.size_words, fun i hi => ⟨wordOf_lt h₀ hle hi, shift_add_bits_le h₀ hle i⟩⟩,
    fun i hi value hvalue => ?_, fun bits hbits i hi hfits => ?_, fun b ha hb hbits hlength => ?_⟩
  · exact ⟨rfl, get_set_self hle hi hvalue, fun j hj hne => get_set_of_ne hle value hj hne,
      fun m k h => bit_set_of_not_hasBit hle value h⟩
  · rw [repack, get_ofFn_mod hbits hi, Nat.mod_eq_of_lt hfits]
  · constructor
    · rintro rfl i -
      rfl
    · exact ha.trim.ext hb.trim hle hbits.symm hlength.symm

/-- Seven entries of nine bits share a word, whose highest bit belongs to none. The entry behind
them is set and set back, which leaves no trace. -/
theorem entries_nineBits :
    (1 ≤ (zero 9 256).bits ∧ (zero 9 256).bits ≤ 32) ∧
      ((zero 9 256).exchange 7 511).2.get 7 = 511 ∧
      (∀ k, ((zero 9 256).exchange 7 511).2.bit 0 k = (zero 9 256).bit 0 k) ∧
      ((zero 9 256).set 7 511).set 7 0 = zero 9 256 := by
  have hzero : (zero 9 256).Built := .zero 256 (by decide)
  have hback : (((zero 9 256).set 7 511).set 7 0).Built :=
    .set 0 (by decide) (.set 511 (by decide) hzero)
  obtain ⟨-, hwrite, -, hsame⟩ := entries_spec (a := zero 9 256) (by decide) (by decide)
  obtain ⟨-, hread, -, hothers⟩ := hwrite 7 (by decide) 511 (by decide)
  refine ⟨⟨by decide, by decide⟩, hread, fun k => hothers 0 k fun h => ?_, ?_⟩
  · exact absurd h.word (by decide)
  · refine ((hsame _ hzero hback rfl rfl).mpr fun i hi => ?_).symm
    have hset : ((zero 9 256).set 7 511).get i = if i = 7 then 511 else (zero 9 256).get i :=
      get_set (by decide) (by decide) hi (by decide)
    have hsetBack : (((zero 9 256).set 7 511).set 7 0).get i =
        if i = 7 then 0 else ((zero 9 256).set 7 511).get i :=
      get_set (by decide) (by decide) hi (by decide)
    rw [hsetBack, hset, get_zero]
    split <;> rfl

end PackedArray

end VoxelChunk
