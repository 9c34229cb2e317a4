import Mathlib.Algebra.BigOperators.Fin
import Mathlib.Order.Bounds.Defs
import VoxelChunk.Proofs.Wire.Forms

/-!
# Variable-length integers, byte by byte

An integer is written in as few groups of seven bits as hold it. A reader takes the bytes up to and
including the first one whose high bit is not set. It fails if there is no such byte: because there
are five bytes that all tell that more follow, or because the bytes end before that.

## Main definitions

* `AllContinue` — each of the bytes tells that more follow.

## Main results

* `isLeast_length_putVarInt` — an integer takes as few bytes as hold it.
* `groupsValue_eq_sum` — the number that groups stand for, as a sum.
* `readGroups_eq_error_iff` — which bytes cannot be read, and what is left of them.
* `varInt_spec` — variable-length integers, written and read.
-/

namespace VoxelChunk

open Decoder

/-- Each of the bytes has its high bit set, which tells that more follow. -/
def AllContinue (bytes : List UInt8) : Prop := ∀ b ∈ bytes, 128 ≤ b.toNat

theorem allContinue_nil : AllContinue [] := fun _ hb => nomatch hb

theorem allContinue_cons {b : UInt8} {rest : List UInt8} :
    AllContinue (b :: rest) ↔ 128 ≤ b.toNat ∧ AllContinue rest :=
  List.forall_mem_cons

/-! ### As few groups as possible -/

theorem length_putGroups_last (k : Nat) {value : Nat} (h : value < 128) :
    (putGroups (k + 1) value).length = 1 := by
  rw [putGroups, if_pos h]
  rfl

theorem length_putGroups_more (k : Nat) {value : Nat} (h : ¬value < 128) :
    (putGroups (k + 1) value).length = (putGroups k (value / 128)).length + 1 := by
  rw [putGroups, if_neg h]
  rfl

theorem length_putGroups_pos (k value : Nat) : 1 ≤ (putGroups (k + 1) value).length := by
  rw [putGroups]
  split <;> exact Nat.succ_pos _

/-- Groups take a byte more only for values that the bytes before cannot hold. -/
theorem length_putGroups_le_iff {k n value : Nat} (h : value < 128 ^ (k + 1)) :
    (putGroups (k + 1) value).length ≤ n + 1 ↔ value < 128 ^ (n + 1) := by
  induction k generalizing n value with
  | zero =>
    rw [length_putGroups_last 0 h]
    exact iff_of_true (Nat.le_add_left 1 n)
      (Nat.lt_of_lt_of_le h (Nat.pow_le_pow_right (by decide) (Nat.le_add_left 1 n)))
  | succ k ih =>
    by_cases hsmall : value < 128
    · rw [length_putGroups_last _ hsmall]
      exact iff_of_true (Nat.le_add_left 1 n)
        (Nat.lt_of_lt_of_le hsmall (Nat.le_self_pow (Nat.succ_ne_zero n) 128))
    · have hrest : value / 128 < 128 ^ (k + 1) := by
        rw [Nat.div_lt_iff_lt_mul (by decide), ← Nat.pow_succ]
        exact h
      rw [length_putGroups_more _ hsmall, Nat.succ_le_succ_iff]
      cases n with
      | zero =>
        have hmore := length_putGroups_pos k (value / 128)
        omega
      | succ n => rw [ih hrest, Nat.div_lt_iff_lt_mul (by decide), ← Nat.pow_succ]

/-- **An integer takes as few bytes as hold it**, of seven bits each. -/
theorem isLeast_length_putVarInt (value : Int32) :
    IsLeast {k : Nat | 1 ≤ k ∧ k ≤ 5 ∧ value.toUInt32.toNat < 2 ^ (7 * k)}
      (putVarInt value).length := by
  have hlt : value.toUInt32.toNat < 128 ^ (4 + 1) :=
    Nat.lt_trans value.toUInt32.toNat_lt (by decide)
  have hiff : ∀ n, (putVarInt value).length ≤ n + 1 ↔ value.toUInt32.toNat < 2 ^ (7 * (n + 1)) := by
    intro n
    rw [Nat.pow_mul]
    exact length_putGroups_le_iff hlt
  have hpos : 1 ≤ (putVarInt value).length := length_putGroups_pos 4 _
  obtain ⟨n, hn⟩ := Nat.exists_eq_add_of_le' hpos
  refine ⟨⟨hpos, (hiff 4).2 hlt, ?_⟩, ?_⟩
  · have hself := (hiff n).1 hn.le
    rwa [← hn] at hself
  · rintro k ⟨hk, -, hholds⟩
    obtain ⟨m, rfl⟩ := Nat.exists_eq_add_of_le' hk
    exact (hiff m).2 hholds

/-! ### The value of groups -/

/-- Groups are the bytes up to the first one that does not tell that more follow. -/
theorem groups_iff {bytes : List UInt8} :
    Groups bytes ↔ ∃ init last, bytes = init ++ [last] ∧ AllContinue init ∧ last.toNat < 128 := by
  constructor
  · intro h
    induction h with
    | @last b hb => exact ⟨[], b, rfl, allContinue_nil, hb⟩
    | @more b rest hb _ ih =>
      obtain ⟨init, last, rfl, hinit, hlast⟩ := ih
      exact ⟨b :: init, last, rfl, allContinue_cons.2 ⟨hb, hinit⟩, hlast⟩
  · rintro ⟨init, last, rfl, hinit, hlast⟩
    induction init with
    | nil => exact .last hlast
    | cons b init ih =>
      obtain ⟨hb, hinit⟩ := allContinue_cons.1 hinit
      exact .more hb (ih hinit)

/-- **The number that groups stand for**: the seven low bits of each byte, in their places. -/
theorem groupsValue_eq_sum (bytes : List UInt8) :
    groupsValue bytes = ∑ i : Fin bytes.length, bytes[i].toNat % 128 * 2 ^ (7 * i.val) := by
  induction bytes with
  | nil => rfl
  | cons b rest ih =>
    rw [groupsValue_cons, ih, Finset.mul_sum]
    refine Eq.trans ?_ (Fin.sum_univ_succ _).symm
    congr 1
    · simp
    · refine Finset.sum_congr rfl fun i _ => ?_
      simp only [Fin.getElem_fin, Fin.val_succ, List.getElem_cons_succ, Nat.mul_succ, Nat.pow_add]
      ring

/-- Integers are their lowest 32 bits. -/
theorem eq_toInt32_ofNat_iff {value : Int32} {n : Nat} :
    value = (UInt32.ofNat n).toInt32 ↔ value.toUInt32.toNat = n % 2 ^ 32 := by
  rw [← UInt32.toNat_ofNat', UInt32.toNat_inj]
  constructor
  · rintro rfl
    rfl
  · intro h
    rw [← h]
    rfl

/-! ### Bytes that cannot be read -/

section ReadGroups

variable {k : Nat} {b : UInt8} {bytes rest : List UInt8} {e : WireError}

theorem decode_readGroups_last (k : Nat) (h : b.toNat < 128) (rest : List UInt8) :
    (readGroups (k + 1)).decode (b :: rest) = (.ok b.toNat, rest) := by
  show (if b.toNat < 128 then _ else _ : Decoder WireError Nat).decode rest = _
  rw [if_pos h]
  rfl

/-- After a byte that tells that more follow, it depends on the others. -/
theorem decode_readGroups_more_eq_error_iff (h : 128 ≤ b.toNat) :
    (readGroups (k + 1)).decode (b :: bytes) = (.error e, rest) ↔
      (readGroups k).decode bytes = (.error e, rest) := by
  show (if b.toNat < 128 then _ else _ : Decoder WireError Nat).decode bytes = _ ↔ _
  rw [if_neg (Nat.not_lt.2 h), decode_bind]
  rcases (readGroups k).decode bytes with ⟨_ | n, left⟩
  · exact Iff.rfl
  · exact iff_of_false nofun nofun

/-- **Which bytes cannot be read**: the first ones, as many as allowed, all tell that more follow,
and then just they are taken; or there are fewer, and all tell that more follow. -/
theorem readGroups_eq_error_iff :
    (readGroups k).decode bytes = (.error e, rest) ↔
      (e = .varIntTooBig ∧ ∃ front, bytes = front ++ rest ∧ front.length = k ∧ AllContinue front) ∨
        (e = .endOfInput ∧ rest = [] ∧ bytes.length < k ∧ AllContinue bytes) := by
  induction k generalizing bytes with
  | zero =>
    show ((.error .varIntTooBig, bytes) : Except WireError Nat × List UInt8) = _ ↔ _
    constructor
    · rintro h
      cases h
      exact .inl ⟨rfl, [], rfl, rfl, allContinue_nil⟩
    · rintro (⟨rfl, front, rfl, hlen, -⟩ | ⟨-, -, hlen, -⟩)
      · rw [List.eq_nil_of_length_eq_zero hlen]
        rfl
      · exact absurd hlen (Nat.not_lt_zero _)
  | succ k ih =>
    cases bytes with
    | nil =>
      show ((.error .endOfInput, []) : Except WireError Nat × List UInt8) = _ ↔ _
      constructor
      · rintro h
        cases h
        exact .inr ⟨rfl, rfl, Nat.succ_pos k, allContinue_nil⟩
      · rintro (⟨-, front, heq, hlen, -⟩ | ⟨rfl, rfl, -, -⟩)
        · rw [(List.append_eq_nil_iff.1 heq.symm).1] at hlen
          cases hlen
        · rfl
    | cons b bytes =>
      by_cases hb : b.toNat < 128
      · -- the value ends here
        rw [decode_readGroups_last k hb]
        refine iff_of_false nofun ?_
        rintro (⟨-, _ | ⟨c, front⟩, heq, hlen, hfront⟩ | ⟨-, -, -, hbytes⟩)
        · cases hlen
        · obtain ⟨rfl, -⟩ := List.cons.inj heq
          exact Nat.not_le.2 hb (allContinue_cons.1 hfront).1
        · exact Nat.not_le.2 hb (allContinue_cons.1 hbytes).1
      · have hge := Nat.not_lt.1 hb
        rw [decode_readGroups_more_eq_error_iff hge, ih]
        refine or_congr (and_congr_right fun _ => ?_) (and_congr_right fun _ =>
          and_congr_right fun _ => ?_)
        · constructor
          · rintro ⟨front, rfl, rfl, hfront⟩
            exact ⟨b :: front, rfl, rfl, allContinue_cons.2 ⟨hge, hfront⟩⟩
          · rintro ⟨_ | ⟨c, front⟩, heq, hlen, hfront⟩
            · cases hlen
            · obtain ⟨-, rfl⟩ := List.cons.inj heq
              exact ⟨front, rfl, Nat.succ.inj hlen, (allContinue_cons.1 hfront).2⟩
        · rw [allContinue_cons, List.length_cons, Nat.succ_lt_succ_iff]
          exact and_congr_right fun _ => (and_iff_right hge).symm

/-- An integer cannot be read if its groups cannot. -/
theorem readVarInt_eq_error_iff :
    readVarInt.decode bytes = (.error e, rest) ↔
      (readGroups maxGroups).decode bytes = (.error e, rest) := by
  unfold readVarInt
  rw [decode_bind]
  rcases (readGroups maxGroups).decode bytes with ⟨cause | n, left⟩
  · simp
  · exact iff_of_false nofun nofun

end ReadGroups

/-! ### Integers, written and read -/

/-- Five bytes that all tell that more follow are too many. -/
theorem readVarInt_eq_tooBig_iff {bytes rest : List UInt8} :
    readVarInt.decode bytes = (.error .varIntTooBig, rest) ↔
      ∃ front, bytes = front ++ rest ∧ front.length = 5 ∧ AllContinue front := by
  rw [readVarInt_eq_error_iff, readGroups_eq_error_iff]
  simp [maxGroups]

/-- Fewer bytes that all tell that more follow are too few. -/
theorem readVarInt_eq_endOfInput_iff {bytes rest : List UInt8} :
    readVarInt.decode bytes = (.error .endOfInput, rest) ↔
      rest = [] ∧ bytes.length < 5 ∧ AllContinue bytes := by
  rw [readVarInt_eq_error_iff, readGroups_eq_error_iff]
  simp [maxGroups]

/-- An integer is read from the bytes up to the first one that does not tell that more follow. -/
theorem readVarInt_eq_ok_iff {bytes rest : List UInt8} {value : Int32} :
    readVarInt.decode bytes = (.ok value, rest) ↔
      ∃ init last, bytes = init ++ last :: rest ∧ init.length < 5 ∧ AllContinue init ∧
        last.toNat < 128 ∧ value.toUInt32.toNat =
          (∑ i : Fin (init ++ [last]).length,
            (init ++ [last])[i].toNat % 128 * 2 ^ (7 * i.val)) % 2 ^ 32 := by
  rw [readVarInt_recognises]
  constructor
  · rintro ⟨_, rfl, hgroups, hshort, hvalue⟩
    obtain ⟨init, last, rfl, hinit, hlast⟩ := groups_iff.1 hgroups
    rw [eq_toInt32_ofNat_iff, groupsValue_eq_sum] at hvalue
    rw [List.length_append, List.length_singleton] at hshort
    exact ⟨init, last, List.append_assoc .., hshort, hinit, hlast, hvalue⟩
  · rintro ⟨init, last, rfl, hshort, hinit, hlast, hvalue⟩
    refine ⟨init ++ [last], by simp, groups_iff.2 ⟨init, last, rfl, hinit, hlast⟩, ?_, ?_⟩
    · rw [List.length_append, List.length_singleton]
      exact hshort
    · rw [eq_toInt32_ofNat_iff, groupsValue_eq_sum]
      exact hvalue

/-- **Variable-length integers, written and read.** What is written is read, whatever comes after
it, and takes as few bytes as hold it. Any bytes are read up to the first one that does not tell
that more follow, of which the lowest 32 bits count, unless there is none among the first five. -/
theorem varInt_spec :
    (∀ (value : Int32) (rest : List UInt8),
      readVarInt.decode (putVarInt value ++ rest) = (.ok value, rest) ∧
        IsLeast {k : Nat | 1 ≤ k ∧ k ≤ 5 ∧ value.toUInt32.toNat < 2 ^ (7 * k)}
          (putVarInt value).length) ∧
      WireError.varIntTooBig.message = "var int too big" ∧
      ∀ bytes : List UInt8,
        (∀ rest, readVarInt.decode bytes = (.error .varIntTooBig, rest) ↔
          ∃ front, bytes = front ++ rest ∧ front.length = 5 ∧ AllContinue front) ∧
        (∀ rest, readVarInt.decode bytes = (.error .endOfInput, rest) ↔
          rest = [] ∧ bytes.length < 5 ∧ AllContinue bytes) ∧
        (∀ value rest, readVarInt.decode bytes = (.ok value, rest) ↔
          ∃ init last, bytes = init ++ last :: rest ∧ init.length < 5 ∧ AllContinue init ∧
            last.toNat < 128 ∧ value.toUInt32.toNat =
              (∑ i : Fin (init ++ [last]).length,
                (init ++ [last])[i].toNat % 128 * 2 ^ (7 * i.val)) % 2 ^ 32) ∧
        ((∃ value rest, readVarInt.decode bytes = (.ok value, rest)) ↔
          (¬∃ front rest, bytes = front ++ rest ∧ front.length = 5 ∧ AllContinue front) ∧
            ¬(bytes.length < 5 ∧ AllContinue bytes)) := by
  refine ⟨fun value rest => ⟨readVarInt_reads value rest, isLeast_length_putVarInt value⟩, rfl,
    fun bytes => ⟨fun rest => readVarInt_eq_tooBig_iff, fun rest => readVarInt_eq_endOfInput_iff,
      fun value rest => readVarInt_eq_ok_iff, ?_⟩⟩
  constructor
  · rintro ⟨value, rest, hread⟩
    refine ⟨?_, fun hcut => ?_⟩
    · rintro ⟨front, left, hfront⟩
      have hbig := readVarInt_eq_tooBig_iff.2 ⟨front, hfront⟩
      rw [hread] at hbig
      cases hbig
    · have hend := readVarInt_eq_endOfInput_iff.2 ⟨rfl, hcut⟩
      rw [hread] at hend
      cases hend
  · rintro ⟨hnotBig, hnotCut⟩
    rcases hread : readVarInt.decode bytes with ⟨e | value, rest⟩
    · rw [readVarInt_eq_error_iff, readGroups_eq_error_iff] at hread
      rcases hread with ⟨-, front, hfront⟩ | ⟨-, -, hcut⟩
      · exact absurd ⟨front, rest, hfront⟩ hnotBig
      · exact absurd hcut hnotCut
    · exact ⟨value, rest, rfl⟩

/-- The highest bits of a fifth byte are dropped. -/
example : readVarInt.decode [0x80, 0x80, 0x80, 0x80, 0x7F, 0x01] = (.ok (-268435456), [0x01]) := by
  decide

end VoxelChunk
