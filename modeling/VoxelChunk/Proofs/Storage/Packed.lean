import Mathlib.Algebra.Group.Nat.Defs
import VoxelChunk.Storage.Packed

/-!
# Packed arrays as arrays

An entry of a packed array is a group of bits of one word. Everything is proved bit by bit: a read
picks the bits of its entry, and a write changes exactly those.

## Main results

* `PackedArray.get_lt` — an entry has no more bits than the array says.
* `PackedArray.get_eq_div` — an entry is a group of digits of its word.
* `PackedArray.get_set` — a write changes the entry it names and no other.
* `PackedArray.set_get` — an entry that is written as it is changes nothing.
* `PackedArray.get_ofFn`, `PackedArray.get_repack` — arrays made entry by entry.
* `le_two_pow_ceilLog2`, `ceilLog2_le` — enough bits, and no more than needed.
-/

namespace VoxelChunk

/-! ### Bits that tell values apart -/

theorem le_two_pow_ceilLog2 (n : Nat) : n ≤ 2 ^ ceilLog2 n := by
  unfold ceilLog2
  split
  · next h => simpa using h
  · have := Nat.lt_log2_self (n := n - 1)
    omega

theorem ceilLog2_le {n k : Nat} (h : n ≤ 2 ^ k) : ceilLog2 n ≤ k := by
  unfold ceilLog2
  split
  · exact Nat.zero_le k
  · have hlog : (n - 1).log2 < k := (Nat.log2_lt (by omega)).2 (by omega)
    omega

/-! ### Bits of words -/

private theorem testBit_not (w : UInt64) (k : Nat) :
    (~~~w).toNat.testBit k = (decide (k < 64) && !w.toNat.testBit k) := by
  rw [← UInt64.toNat_toBitVec, UInt64.toBitVec_not, BitVec.testBit_toNat, BitVec.getLsbD_not]
  rfl

private theorem testBit_shiftLeft (w : UInt64) {s : Nat} (hs : s < 64) (k : Nat) :
    (w <<< UInt64.ofNat s).toNat.testBit k =
      (decide (k < 64) && (decide (s ≤ k) && w.toNat.testBit (k - s))) := by
  have hmod : (UInt64.ofNat s).toNat % 64 = s := by
    rw [UInt64.toNat_ofNat']
    omega
  rw [UInt64.toNat_shiftLeft, hmod, Nat.testBit_mod_two_pow, Nat.testBit_shiftLeft]

private theorem testBit_shiftRight (w : UInt64) {s : Nat} (hs : s < 64) (k : Nat) :
    (w >>> UInt64.ofNat s).toNat.testBit k = w.toNat.testBit (s + k) := by
  have hmod : (UInt64.ofNat s).toNat % 64 = s := by
    rw [UInt64.toNat_ofNat']
    omega
  rw [UInt64.toNat_shiftRight, hmod, Nat.testBit_shiftRight]

private theorem testBit_ge (w : UInt64) {k : Nat} (hk : 64 ≤ k) : w.toNat.testBit k = false :=
  Nat.testBit_lt_two_pow (Nat.lt_of_lt_of_le w.toNat_lt (Nat.pow_le_pow_right (by decide) hk))

namespace PackedArray

variable {a : PackedArray}

theorem ext {b : PackedArray} (hbits : a.bits = b.bits) (hlength : a.length = b.length)
    (hwords : a.words = b.words) : a = b := by
  cases a; cases b; simp_all

/-! ### Where an entry lies -/

theorem perWord_pos (h₀ : a.bits ≠ 0) (h : a.bits ≤ 32) : 0 < a.perWord :=
  Nat.div_pos (by omega) (by omega)

/-- The bits of an entry lie within its word. -/
theorem shift_add_bits_le (h₀ : a.bits ≠ 0) (h : a.bits ≤ 32) (i : Nat) :
    i % a.perWord * a.bits + a.bits ≤ 64 := by
  have hlt : i % a.perWord < a.perWord := Nat.mod_lt i (perWord_pos h₀ h)
  calc i % a.perWord * a.bits + a.bits = (i % a.perWord + 1) * a.bits := by
        rw [Nat.add_mul, Nat.one_mul]
    _ ≤ a.perWord * a.bits := Nat.mul_le_mul_right a.bits hlt
    _ ≤ 64 := Nat.div_mul_le_self 64 a.bits

/-- The word of an entry is one of the array's. -/
theorem wordOf_lt (h₀ : a.bits ≠ 0) (h : a.bits ≤ 32) {i : Nat} (hi : i < a.length) :
    a.wordOf i < a.words.size := by
  have hp : 0 < 64 / a.bits := perWord_pos h₀ h
  rw [a.size_words, wordsFor, if_neg h₀, wordOf, perWord]
  have hlt : i + 64 / a.bits ≤ a.length + 64 / a.bits - 1 := by omega
  have hle := Nat.div_le_div_right (c := 64 / a.bits) hlt
  rw [Nat.add_div_right i hp] at hle
  omega

/-- Entries in one word have different places there. -/
private theorem mod_ne_of_wordOf_eq {i j : Nat} (hij : i ≠ j) (hw : a.wordOf i = a.wordOf j) :
    i % a.perWord ≠ j % a.perWord := by
  intro hm
  apply hij
  rw [← Nat.div_add_mod i a.perWord, ← Nat.div_add_mod j a.perWord, hm]
  unfold wordOf at hw
  rw [hw]

private theorem testBit_mask (h : a.bits ≤ 32) (k : Nat) :
    a.mask.toNat.testBit k = decide (k < a.bits) := by
  have hmod : (UInt64.ofNat a.bits).toNat % 64 = a.bits := by
    rw [UInt64.toNat_ofNat']
    omega
  have hlt : 2 ^ a.bits < 2 ^ 64 := Nat.pow_lt_pow_right (by decide) (by omega)
  have hpow : (1 <<< UInt64.ofNat a.bits : UInt64).toNat = 2 ^ a.bits := by
    rw [UInt64.toNat_shiftLeft, hmod, Nat.shiftLeft_eq, UInt64.toNat_one, Nat.one_mul,
      Nat.mod_eq_of_lt hlt]
  have hle : (1 : UInt64) ≤ 1 <<< UInt64.ofNat a.bits := by
    rw [UInt64.le_iff_toNat_le, hpow]
    exact Nat.one_le_two_pow
  rw [mask, UInt64.toNat_sub_of_le _ _ hle, hpow]
  exact Nat.testBit_two_pow_sub_one a.bits k

/-! ### Reading -/

/-- The bits of an entry are those of its word from the entry's place on. -/
theorem testBit_get (h₀ : a.bits ≠ 0) (h : a.bits ≤ 32) (i k : Nat) :
    (a.get i).testBit k =
      ((a.words.getD (a.wordOf i) 0).toNat.testBit (i % a.perWord * a.bits + k) &&
        decide (k < a.bits)) := by
  have hs := shift_add_bits_le h₀ h i
  rw [get, if_neg h₀, UInt64.toNat_and, Nat.testBit_and, testBit_mask h, shiftOf,
    testBit_shiftRight _ (by omega)]

theorem get_lt (h : a.bits ≤ 32) (i : Nat) : a.get i < 2 ^ a.bits := by
  by_cases h₀ : a.bits = 0
  · simp [get, h₀]
  · apply Nat.lt_pow_two_of_testBit
    intro k hk
    rw [testBit_get h₀ h, decide_eq_false (by omega), Bool.and_false]

/-- An entry is a group of digits of its word. -/
theorem get_eq_div (h₀ : a.bits ≠ 0) (h : a.bits ≤ 32) (i : Nat) :
    a.get i =
      (a.words.getD (a.wordOf i) 0).toNat / 2 ^ (i % a.perWord * a.bits) % 2 ^ a.bits := by
  apply Nat.eq_of_testBit_eq
  intro k
  rw [testBit_get h₀ h, Nat.testBit_mod_two_pow, Nat.testBit_div_two_pow, Nat.add_comm, Bool.and_comm]

@[simp] theorem get_zero (bits length i : Nat) : (zero bits length).get i = 0 := by
  unfold get
  split
  · rfl
  · simp only [zero, Array.getD_eq_getD_getElem?, Array.getElem?_replicate]
    split <;> simp

/-! ### Writing -/

/-- The bits of a word after an entry at a place in it has been written. -/
theorem testBit_written (h : a.bits ≤ 32) {s : Nat} (hs : s + a.bits ≤ 64) (h₀ : a.bits ≠ 0)
    (w : UInt64) (v k : Nat) :
    ((w &&& ~~~(a.mask <<< UInt64.ofNat s)) |||
        ((UInt64.ofNat v &&& a.mask) <<< UInt64.ofNat s)).toNat.testBit k =
      if s ≤ k ∧ k < s + a.bits then v.testBit (k - s) else w.toNat.testBit k := by
  have hs' : s < 64 := by omega
  rw [UInt64.toNat_or, Nat.testBit_or, UInt64.toNat_and, Nat.testBit_and, testBit_not,
    testBit_shiftLeft _ hs', testBit_shiftLeft _ hs', UInt64.toNat_and, Nat.testBit_and,
    testBit_mask h, UInt64.toNat_ofNat', Nat.testBit_mod_two_pow]
  rcases Nat.lt_or_ge k 64 with hk | hk
  · by_cases hin : s ≤ k ∧ k < s + a.bits
    · have h₁ : k - s < a.bits := by omega
      have h₂ : k - s < 64 := by omega
      simp [hin.1, hin, hk, h₁, h₂]
    · rw [if_neg hin]
      rcases Nat.lt_or_ge k s with hks | hks
      · simp [hk, Nat.not_le.2 hks]
      · have h₁ : ¬k - s < a.bits := by omega
        simp [hk, h₁]
  · have hout : ¬(s ≤ k ∧ k < s + a.bits) := by omega
    have hk' : ¬k < 64 := by omega
    simp [hout, hk', testBit_ge w hk]

theorem words_getD_set (i v m : Nat) (h₀ : a.bits ≠ 0) (hm : m < a.words.size) :
    (a.set i v).words.getD m 0 =
      if m = a.wordOf i then
        (a.words.getD m 0 &&& ~~~(a.mask <<< a.shiftOf i)) |||
          ((UInt64.ofNat v &&& a.mask) <<< a.shiftOf i)
      else a.words.getD m 0 := by
  rw [set, if_neg h₀]
  simp only [Array.getD_eq_getD_getElem?, Array.getElem?_modify, Array.getElem?_eq_getElem hm]
  by_cases hw : a.wordOf i = m
  · simp [hw]
  · have hw' : m ≠ a.wordOf i := fun h => hw h.symm
    simp [hw, hw']

theorem get_set_self (h : a.bits ≤ 32) {i v : Nat} (hi : i < a.length) (hv : v < 2 ^ a.bits) :
    (a.set i v).get i = v := by
  by_cases h₀ : a.bits = 0
  · have hv₀ : v = 0 := by simpa [h₀] using hv
    simp [get, h₀, hv₀]
  · have hs := shift_add_bits_le h₀ h i
    apply Nat.eq_of_testBit_eq
    intro k
    rw [testBit_get (by simpa using h₀) (by simpa using h)]
    have hword : (a.set i v).wordOf i = a.wordOf i := by simp [wordOf, perWord]
    have hplace : i % (a.set i v).perWord = i % a.perWord := by simp [perWord]
    rw [hword, hplace, bits_set, words_getD_set i v _ h₀ (wordOf_lt h₀ h hi), if_pos rfl, shiftOf,
      testBit_written h hs h₀]
    by_cases hk : k < a.bits
    · rw [if_pos (by omega), Nat.add_sub_cancel_left, decide_eq_true hk, Bool.and_true]
    · have hvk : v.testBit k = false :=
        Nat.testBit_lt_two_pow (Nat.lt_of_lt_of_le hv (Nat.pow_le_pow_right (by decide) (by omega)))
      simp [hk, hvk]

theorem get_set_of_ne (h : a.bits ≤ 32) {i j : Nat} (v : Nat) (hj : j < a.length) (hij : j ≠ i) :
    (a.set i v).get j = a.get j := by
  by_cases h₀ : a.bits = 0
  · simp [get, h₀]
  · have hs := shift_add_bits_le h₀ h i
    have ht := shift_add_bits_le h₀ h j
    apply Nat.eq_of_testBit_eq
    intro k
    rw [testBit_get (by simpa using h₀) (by simpa using h), testBit_get h₀ h]
    have hword : (a.set i v).wordOf j = a.wordOf j := by simp [wordOf, perWord]
    have hplace : j % (a.set i v).perWord = j % a.perWord := by simp [perWord]
    rw [hword, hplace, bits_set, words_getD_set i v _ h₀ (wordOf_lt h₀ h hj)]
    by_cases hw : a.wordOf j = a.wordOf i
    · -- both entries share a word, where their groups of bits are apart
      rw [if_pos hw, shiftOf, testBit_written h hs h₀]
      by_cases hk : k < a.bits
      · have hne := mod_ne_of_wordOf_eq hij hw
        rw [if_neg]
        rintro ⟨h₁, h₂⟩
        -- whichever comes first ends before the other begins
        rcases Nat.lt_or_gt_of_ne hne with hlt | hlt
        · have := Nat.mul_le_mul_right a.bits (Nat.succ_le_of_lt hlt)
          rw [Nat.succ_mul] at this
          omega
        · have := Nat.mul_le_mul_right a.bits (Nat.succ_le_of_lt hlt)
          rw [Nat.succ_mul] at this
          omega
      · simp [hk]
    · rw [if_neg hw]

/-- Only the lowest bits of a value are written. -/
theorem set_mod (h : a.bits ≤ 32) (i v : Nat) : a.set i (v % 2 ^ a.bits) = a.set i v := by
  have hmask : UInt64.ofNat (v % 2 ^ a.bits) &&& a.mask = UInt64.ofNat v &&& a.mask := by
    rw [← UInt64.toNat_inj]
    apply Nat.eq_of_testBit_eq
    intro k
    simp only [UInt64.toNat_and, Nat.testBit_and, testBit_mask h, UInt64.toNat_ofNat',
      Nat.testBit_mod_two_pow]
    by_cases hk : k < a.bits <;> simp [hk]
  simp only [set, hmask]

/-- A write changes the entry it names and no other. -/
theorem get_set (h : a.bits ≤ 32) {i j v : Nat} (hi : i < a.length) (hj : j < a.length)
    (hv : v < 2 ^ a.bits) : (a.set i v).get j = if j = i then v else a.get j := by
  split
  · next hij => rw [hij, get_set_self h hi hv]
  · next hij => exact get_set_of_ne h v hj hij

/-- An entry that is written as it is changes nothing. -/
theorem set_get (h : a.bits ≤ 32) (i : Nat) : a.set i (a.get i) = a := by
  by_cases h₀ : a.bits = 0
  · rw [set, if_pos h₀]
  · have hs := shift_add_bits_le h₀ h i
    have hsame : ∀ m, a.wordOf i = m → ∀ w, a.words[m]? = some w →
        (w &&& ~~~(a.mask <<< a.shiftOf i)) |||
          ((UInt64.ofNat (a.get i) &&& a.mask) <<< a.shiftOf i) = w := by
      rintro _ rfl w hw
      rw [← UInt64.toNat_inj]
      apply Nat.eq_of_testBit_eq
      intro k
      rw [shiftOf, testBit_written h hs h₀]
      split
      · next hin =>
        -- the bits of the entry are those of its word
        have hword : a.words.getD (a.wordOf i) 0 = w := by
          rw [Array.getD_eq_getD_getElem?, hw, Option.getD_some]
        rw [testBit_get h₀ h, hword, decide_eq_true (by omega), Bool.and_true,
          Nat.add_sub_cancel' hin.1]
      · rfl
    have hwords : (a.set i (a.get i)).words = a.words := by
      rw [set, if_neg h₀]
      apply Array.ext_getElem?
      intro m
      rw [Array.getElem?_modify]
      split
      · next hm =>
        cases hw : a.words[m]? with
        | none => rfl
        | some w => rw [Option.map_some, hsame m hm w hw]
      · rfl
    exact ext (bits_set ..) (length_set ..) hwords

/-! ### Arrays made entry by entry -/

@[simp] theorem bits_zero (bits length : Nat) : (zero bits length).bits = bits := rfl

@[simp] theorem length_zero (bits length : Nat) : (zero bits length).length = length := rfl

/-- The first `n` entries written, the others still zero. -/
private def ofFnUpTo (bits length : Nat) (f : Nat → Nat) (n : Nat) : PackedArray :=
  (List.range n).foldl (fun a i => a.set i (f i)) (zero bits length)

private theorem ofFnUpTo_succ (bits length : Nat) (f : Nat → Nat) (n : Nat) :
    ofFnUpTo bits length f (n + 1) = (ofFnUpTo bits length f n).set n (f n) := by
  rw [ofFnUpTo, List.range_succ, List.foldl_append]
  rfl

private theorem bits_ofFnUpTo (bits length : Nat) (f : Nat → Nat) (n : Nat) :
    (ofFnUpTo bits length f n).bits = bits := by
  induction n with
  | zero => rfl
  | succ n ih => rw [ofFnUpTo_succ, bits_set, ih]

private theorem length_ofFnUpTo (bits length : Nat) (f : Nat → Nat) (n : Nat) :
    (ofFnUpTo bits length f n).length = length := by
  induction n with
  | zero => rfl
  | succ n ih => rw [ofFnUpTo_succ, length_set, ih]

private theorem get_ofFnUpTo {bits length : Nat} {f : Nat → Nat} (h : bits ≤ 32)
    (hf : ∀ i < length, f i < 2 ^ bits) {n j : Nat} (hn : n ≤ length) (hj : j < length) :
    (ofFnUpTo bits length f n).get j = if j < n then f j else 0 := by
  induction n with
  | zero => rw [if_neg (Nat.not_lt_zero j)]; exact get_zero bits length j
  | succ n ih =>
    rw [ofFnUpTo_succ, get_set (by rwa [bits_ofFnUpTo]) (by rw [length_ofFnUpTo]; omega)
      (by rwa [length_ofFnUpTo]) (by rw [bits_ofFnUpTo]; exact hf n (by omega)), ih (by omega)]
    by_cases hjn : j = n
    · rw [if_pos hjn, if_pos (by omega), hjn]
    · rw [if_neg hjn]
      by_cases hlt : j < n
      · rw [if_pos hlt, if_pos (by omega)]
      · rw [if_neg hlt, if_neg (by omega)]

@[simp] theorem bits_ofFn (bits length : Nat) (f : Nat → Nat) :
    (ofFn bits length f).bits = bits := bits_ofFnUpTo bits length f length

@[simp] theorem length_ofFn (bits length : Nat) (f : Nat → Nat) :
    (ofFn bits length f).length = length := length_ofFnUpTo bits length f length

theorem get_ofFn {bits length : Nat} {f : Nat → Nat} (h : bits ≤ 32)
    (hf : ∀ i < length, f i < 2 ^ bits) {j : Nat} (hj : j < length) :
    (ofFn bits length f).get j = f j := by
  have := get_ofFnUpTo h hf (Nat.le_refl length) hj
  rwa [if_pos hj] at this

/-- Numbers that are too wide are cut. -/
theorem get_ofFn_mod {bits length : Nat} {f : Nat → Nat} (h : bits ≤ 32) {j : Nat} (hj : j < length) :
    (ofFn bits length f).get j = f j % 2 ^ bits := by
  have hcut : ofFn bits length (fun i => f i % 2 ^ bits) = ofFn bits length f := by
    have hprefix : ∀ n, ofFnUpTo bits length (fun i => f i % 2 ^ bits) n =
        ofFnUpTo bits length f n := by
      intro n
      induction n with
      | zero => rfl
      | succ n ih =>
        rw [ofFnUpTo_succ, ofFnUpTo_succ, ih]
        have hset := set_mod (a := ofFnUpTo bits length f n) (by rwa [bits_ofFnUpTo]) n (f n)
        rwa [bits_ofFnUpTo] at hset
    exact hprefix length
  rw [← hcut]
  exact get_ofFn h (fun i _ => Nat.mod_lt _ (Nat.two_pow_pos bits)) hj

@[simp] theorem bits_repack (a : PackedArray) (bits : Nat) : (a.repack bits).bits = bits :=
  bits_ofFn _ _ _

@[simp] theorem length_repack (a : PackedArray) (bits : Nat) : (a.repack bits).length = a.length :=
  length_ofFn _ _ _

/-- Entries that fit the new number of bits are kept. -/
theorem get_repack {bits : Nat} (h : bits ≤ 32) (ha : ∀ i < a.length, a.get i < 2 ^ bits) {j : Nat}
    (hj : j < a.length) : (a.repack bits).get j = a.get j :=
  get_ofFn h ha hj

end PackedArray

end VoxelChunk
