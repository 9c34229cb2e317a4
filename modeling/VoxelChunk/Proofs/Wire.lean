import Mathlib.Algebra.Group.Nat.Defs
import VoxelChunk.Wire.VarInt

/-!
# Reading what was written

A decoder reads a value from some bytes if it does so whatever comes after them, and leaves just
that. Decoders that read one after another read from bytes that stand one after another.

## Main definitions

* `Decoder.Reads` — the bytes stand for the value.

## Main results

* `Decoder.Reads.bind` — one decoder after another.
* `readShort_reads`, `readLong_reads`, `readVarInt_reads` — numbers are read as they were written.
-/

namespace VoxelChunk

namespace Decoder

variable {ε ε' α β : Type}

theorem decode_bind (d : Decoder ε α) (f : α → Decoder ε β) (bytes : List UInt8) :
    (d >>= f).decode bytes =
      match d.decode bytes with
      | (.ok a, rest) => (f a).decode rest
      | (.error e, rest) => (.error e, rest) := by
  show (match d bytes with
    | (r, rest) => ExceptT.bindCont f r rest) = _
  rw [show d.decode bytes = d bytes from rfl]
  rcases d bytes with ⟨_ | a, rest⟩ <;> rfl

/-- The bytes stand for the value: it is read whatever comes after them. -/
def Reads (d : Decoder ε α) (bytes : List UInt8) (a : α) : Prop :=
  ∀ rest, d.decode (bytes ++ rest) = (.ok a, rest)

namespace Reads

variable {d : Decoder ε α} {f : α → Decoder ε β} {bytes bytes' : List UInt8} {a : α} {b : β}

theorem pure (a : α) : (Pure.pure a : Decoder ε α).Reads [] a := fun _ => rfl

theorem bind (h : d.Reads bytes a) (h' : (f a).Reads bytes' b) :
    (d >>= f).Reads (bytes ++ bytes') b := by
  intro rest
  rw [decode_bind, List.append_assoc, h]
  exact h' rest

/-- The value is all that is read. -/
theorem bind_pure (h : d.Reads bytes a) (g : α → β) :
    (d >>= fun a => Pure.pure (g a)).Reads bytes (g a) := by
  have hboth := h.bind (f := fun a => Pure.pure (g a)) (Reads.pure (g a))
  rwa [List.append_nil] at hboth

theorem mapError (h : d.Reads bytes a) (g : ε → ε') : (d.mapError g).Reads bytes a := by
  intro rest
  rw [decode_mapError, h]
  rfl

end Reads

end Decoder

open Decoder

/-! ### Numbers of fixed size -/

theorem readByte_reads (b : UInt8) : readByte.Reads [b] b := fun _ => rfl

theorem readExactly_reads (bytes : List UInt8) : (readExactly bytes.length).Reads bytes bytes := by
  intro rest
  show (if ((bytes ++ rest).take bytes.length).length = bytes.length
    then (Except.ok ((bytes ++ rest).take bytes.length), (bytes ++ rest).drop bytes.length)
    else (.error WireError.endOfInput, [])) = _
  rw [List.take_left, List.drop_left, if_pos rfl]

theorem bigEndian_putBigEndian {k n : Nat} (h : n < 256 ^ k) : bigEndian (putBigEndian k n) = n := by
  have key : ∀ k n start, (putBigEndian k n).foldl (fun n b => n * 256 + b.toNat) start =
      start * 256 ^ k + n % 256 ^ k := by
    intro k n
    induction k with
    | zero => intro start; simp [putBigEndian, Nat.mod_one]
    | succ k ih =>
      intro start
      have hdigit : (UInt8.ofNat (n >>> (8 * k))).toNat = n / 256 ^ k % 256 := by
        rw [UInt8.toNat_ofNat', Nat.shiftRight_eq_div_pow, Nat.pow_mul]
      rw [putBigEndian, List.foldl_cons, ih, hdigit, Nat.mod_pow_succ (b := 256), Nat.pow_succ',
        Nat.add_mul, Nat.mul_assoc, Nat.mul_comm (256 ^ k) (_ % 256)]
      omega
  unfold bigEndian
  rw [key, Nat.zero_mul, Nat.zero_add, Nat.mod_eq_of_lt h]

theorem readShort_reads (n : UInt16) : readShort.Reads (putShort n) n := by
  have hread := (readExactly_reads (putBigEndian 2 n.toNat)).bind_pure
    fun bytes => UInt16.ofNat (bigEndian bytes)
  rw [length_putBigEndian, bigEndian_putBigEndian n.toNat_lt, UInt16.ofNat_toNat] at hread
  exact hread

theorem readLong_reads (n : UInt64) : readLong.Reads (putLong n) n := by
  have hread := (readExactly_reads (putBigEndian 8 n.toNat)).bind_pure
    fun bytes => UInt64.ofNat (bigEndian bytes)
  rw [length_putBigEndian, bigEndian_putBigEndian n.toNat_lt, UInt64.ofNat_toNat] at hread
  exact hread

/-! ### Variable-length integers -/

private theorem toNat_group {n : Nat} (h : n < 256) : (UInt8.ofNat n).toNat = n := by
  rw [UInt8.toNat_ofNat', Nat.mod_eq_of_lt h]

/-- The last group. -/
theorem readGroups_reads_last (k : Nat) {value : Nat} (h : value < 128) :
    (readGroups (k + 1)).Reads (putGroups (k + 1) value) value := by
  intro rest
  unfold readGroups putGroups
  rw [if_pos h, decode_bind]
  show (if (UInt8.ofNat value).toNat < 128 then _ else _ : Decoder WireError Nat).decode rest = _
  rw [toNat_group (by omega), if_pos h]
  rfl

theorem readGroups_reads (k : Nat) {value : Nat} (h : value < 128 ^ (k + 1)) :
    (readGroups (k + 1)).Reads (putGroups (k + 1) value) value := by
  induction k generalizing value with
  | zero => exact readGroups_reads_last 0 (by omega)
  | succ k ih =>
    by_cases hsmall : value < 128
    · exact readGroups_reads_last (k + 1) hsmall
    · intro rest
      have hdiv : value / 128 < 128 ^ (k + 1) := by
        rw [Nat.div_lt_iff_lt_mul (by decide), ← Nat.pow_succ]
        exact h
      unfold readGroups putGroups
      rw [if_neg hsmall, decode_bind]
      show (if (UInt8.ofNat (value % 128 + 128)).toNat < 128 then _ else _ :
        Decoder WireError Nat).decode (putGroups (k + 1) (value / 128) ++ rest) = _
      rw [toNat_group (by omega), if_neg (by omega),
        ((ih hdiv).bind_pure fun n => value % 128 + 128 - 128 + 128 * n) rest,
        show value % 128 + 128 - 128 + 128 * (value / 128) = value by omega]

/-- Integers are read as they were written. -/
theorem readVarInt_reads (value : Int32) : readVarInt.Reads (putVarInt value) value := by
  have hlt : value.toUInt32.toNat < 128 ^ (4 + 1) :=
    Nat.lt_trans value.toUInt32.toNat_lt (by decide)
  have hread := (readGroups_reads 4 hlt).bind_pure fun n => (UInt32.ofNat n).toInt32
  rw [UInt32.ofNat_toNat] at hread
  exact hread

end VoxelChunk
