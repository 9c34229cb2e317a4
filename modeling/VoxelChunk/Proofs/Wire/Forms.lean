import Mathlib.Data.List.Forall2
import Mathlib.Tactic.Linarith
import Mathlib.Tactic.Ring
import VoxelChunk.Proofs.Wire

/-!
# Exactly what is read

A form says which bytes stand for which value. A decoder recognises a form if it succeeds just on
the bytes that begin with bytes of the form, and then leaves what comes after them. The forms of
composed decoders are composed of the forms of their parts.

## Main definitions

* `Decoder.Recognises` — the decoder reads the bytes of a form, and nothing else.
* `InTurn` — the bytes of several values, one after the other.
* `Groups`, `groupsValue`, `IsVarInt` — the bytes of a variable-length integer.

## Main results

* `Decoder.Recognises.bind` — one decoder after another.
* `readLong_recognises`, `readVarInt_recognises` — which bytes are numbers.
-/

namespace VoxelChunk

namespace Decoder

variable {ε ε' α β : Type}

/-- The decoder succeeds just on bytes that begin with bytes of the form. It takes these and leaves
the others. -/
def Recognises (d : Decoder ε α) (Form : List UInt8 → α → Prop) : Prop :=
  ∀ bytes a rest, d.decode bytes = (.ok a, rest) ↔ ∃ front, bytes = front ++ rest ∧ Form front a

/-- A decoder that goes on after another one succeeds if both do. -/
theorem decode_bind_eq_ok {d : Decoder ε α} {f : α → Decoder ε β} {bytes rest : List UInt8}
    {b : β} :
    (d >>= f).decode bytes = (.ok b, rest) ↔
      ∃ a mid, d.decode bytes = (.ok a, mid) ∧ (f a).decode mid = (.ok b, rest) := by
  rw [decode_bind]
  rcases d.decode bytes with ⟨_ | a, mid⟩ <;> simp

/-- Other errors do not change when a decoder succeeds. -/
theorem decode_mapError_eq_ok {d : Decoder ε α} {g : ε → ε'} {bytes rest : List UInt8} {a : α} :
    (d.mapError g).decode bytes = (.ok a, rest) ↔ d.decode bytes = (.ok a, rest) := by
  rw [decode_mapError]
  rcases d.decode bytes with ⟨_ | _, _⟩ <;> simp [Except.mapError]

namespace Recognises

variable {d e : Decoder ε α} {f : α → Decoder ε β} {F F' : List UInt8 → α → Prop}
  {G : α → List UInt8 → β → Prop}

/-- The bytes of the form stand for their value. -/
theorem reads (h : d.Recognises F) {front : List UInt8} {a : α} (hf : F front a) :
    d.Reads front a :=
  fun rest => (h _ _ rest).2 ⟨front, rfl, hf⟩

/-- Bytes that are read whatever comes after them have the form. -/
theorem form (h : d.Recognises F) {front : List UInt8} {a : α} (hd : d.Reads front a) :
    F front a := by
  obtain ⟨front', heq, hfront'⟩ := (h _ _ _).1 (hd [])
  rwa [List.append_cancel_right heq]

/-- A form may be described in another way. -/
theorem congr (h : d.Recognises F) (hF : ∀ front a, F front a ↔ F' front a) : d.Recognises F' := by
  intro bytes a rest
  rw [h]
  simp only [hF]

theorem pure (a : α) :
    (Pure.pure a : Decoder ε α).Recognises fun front b => front = [] ∧ b = a := by
  intro bytes b rest
  rw [decode_pure, Prod.mk.injEq, Except.ok.injEq]
  constructor
  · rintro ⟨rfl, rfl⟩
    exact ⟨[], rfl, rfl, rfl⟩
  · rintro ⟨_, rfl, rfl, rfl⟩
    exact ⟨rfl, rfl⟩

/-- A decoder that fails reads nothing. -/
theorem throw (cause : ε) :
    (MonadExcept.throw cause : Decoder ε α).Recognises fun _ _ => False := by
  intro bytes a rest
  rw [decode_throw]
  simp

/-- The bytes of one decoder after those of another. -/
theorem bind (h : d.Recognises F) (h' : ∀ a, (f a).Recognises (G a)) :
    (d >>= f).Recognises fun front b => ∃ l r a, front = l ++ r ∧ F l a ∧ G a r b := by
  intro bytes b rest
  rw [decode_bind_eq_ok]
  constructor
  · rintro ⟨a, mid, hd, hf⟩
    obtain ⟨l, rfl, hl⟩ := (h _ _ _).1 hd
    obtain ⟨r, rfl, hr⟩ := (h' a _ _ _).1 hf
    exact ⟨l ++ r, by simp, l, r, a, rfl, hl, hr⟩
  · rintro ⟨_, rfl, l, r, a, rfl, hl, hr⟩
    refine ⟨a, r ++ rest, ?_, (h' a).reads hr rest⟩
    rw [List.append_assoc, h.reads hl]

/-- What is read is turned into something else. -/
theorem map (h : d.Recognises F) (g : α → β) :
    (d >>= fun a => Pure.pure (g a)).Recognises fun front b => ∃ a, F front a ∧ b = g a := by
  refine (h.bind fun a => Recognises.pure (g a)).congr fun front b => ?_
  constructor
  · rintro ⟨l, r, a, rfl, hl, rfl, rfl⟩
    exact ⟨a, by simpa using hl, rfl⟩
  · rintro ⟨a, hl, rfl⟩
    exact ⟨front, [], a, by simp, hl, rfl, rfl⟩

theorem mapError (h : d.Recognises F) (g : ε → ε') : (d.mapError g).Recognises F := by
  intro bytes a rest
  rw [decode_mapError_eq_ok]
  exact h bytes a rest

/-- A decoder that depends on what is the case. -/
theorem ite {p : Prop} [Decidable p] (hd : p → d.Recognises F) (he : ¬p → e.Recognises F) :
    (if p then d else e).Recognises F := by
  by_cases h : p
  · rw [if_pos h]
    exact hd h
  · rw [if_neg h]
    exact he h

/-- Some values are refused. -/
theorem guard {p : Prop} [Decidable p] (cause : ε) (h : ¬p → d.Recognises F) :
    (if p then MonadExcept.throw cause else d).Recognises fun front a => ¬p ∧ F front a := by
  apply Recognises.ite
  · intro hp
    refine (Recognises.throw cause).congr fun front a => ?_
    simp [hp]
  · intro hp
    refine (h hp).congr fun front a => ?_
    simp [hp]

/-- What is computed from bytes that were read before, if that succeeds. -/
theorem ofExcept (result : Except ε α)
    (herror : ∀ cause, result = .error cause → d = MonadExcept.throw cause)
    (hok : ∀ a, result = .ok a → d = Pure.pure a) :
    d.Recognises fun front a => front = [] ∧ result = .ok a := by
  cases hr : result with
  | error cause =>
    rw [herror cause hr]
    refine (Recognises.throw cause).congr fun front a => ?_
    simp
  | ok b =>
    rw [hok b hr]
    refine (Recognises.pure b).congr fun front a => ?_
    simp [eq_comm]

end Recognises

end Decoder

/-- The bytes are those of the values, one after the other. -/
def InTurn {α : Type} (Form : List UInt8 → α → Prop) (bytes : List UInt8) (values : List α) :
    Prop :=
  ∃ fronts : List (List UInt8), bytes = fronts.flatten ∧ List.Forall₂ Form fronts values

section InTurn

variable {α : Type} {Form : List UInt8 → α → Prop} {bytes : List UInt8} {value : α}
  {values : List α}

theorem inTurn_nil : InTurn Form bytes [] ↔ bytes = [] := by
  simp [InTurn]

theorem inTurn_cons :
    InTurn Form bytes (value :: values) ↔
      ∃ l r, bytes = l ++ r ∧ Form l value ∧ InTurn Form r values := by
  constructor
  · rintro ⟨_, rfl, h⟩
    rcases h with _ | ⟨hvalue, hrest⟩
    exact ⟨_, _, List.flatten_cons, hvalue, _, rfl, hrest⟩
  · rintro ⟨l, _, rfl, hvalue, fronts, rfl, hrest⟩
    exact ⟨l :: fronts, List.flatten_cons.symm, .cons hvalue hrest⟩

end InTurn

open Decoder

/-! ### Numbers of fixed size -/

theorem readByte_recognises : readByte.Recognises fun front b => front = [b] := by
  intro bytes b rest
  unfold readByte
  rw [decode_ofFun]
  rcases bytes with _ | ⟨b', bytes⟩
  · simp
  · simp [eq_comm]

theorem readExactly_recognises (k : Nat) :
    (readExactly k).Recognises fun front bytes => front = bytes ∧ bytes.length = k := by
  intro bytes taken rest
  unfold readExactly
  rw [decode_ofFun]
  constructor
  · intro h
    split at h
    · next hlen =>
      simp only [Prod.mk.injEq, Except.ok.injEq] at h
      obtain ⟨rfl, rfl⟩ := h
      exact ⟨bytes.take k, (List.take_append_drop k bytes).symm, rfl, hlen⟩
    · simp at h
  · rintro ⟨_, rfl, rfl, rfl⟩
    simp

theorem bigEndian_cons (b : UInt8) (rest : List UInt8) :
    bigEndian (b :: rest) = b.toNat * 256 ^ rest.length + bigEndian rest := by
  have key : ∀ (rest : List UInt8) start, rest.foldl (fun n b => n * 256 + b.toNat) start =
      start * 256 ^ rest.length + bigEndian rest := by
    intro rest
    unfold bigEndian
    induction rest with
    | nil => intro start; simp
    | cons c rest ih =>
      intro start
      rw [List.foldl_cons, List.foldl_cons, ih, ih (0 * 256 + c.toNat), List.length_cons,
        Nat.pow_succ']
      ring
  unfold bigEndian
  rw [List.foldl_cons, key, Nat.zero_mul, Nat.zero_add]
  rfl

theorem bigEndian_lt (bytes : List UInt8) : bigEndian bytes < 256 ^ bytes.length := by
  induction bytes with
  | nil => simp [bigEndian]
  | cons b rest ih =>
    have hb := b.toNat_lt
    rw [bigEndian_cons, List.length_cons, Nat.pow_succ']
    nlinarith

/-- The last digits of a number are those of its remainder. -/
theorem putBigEndian_add (k m n : Nat) : putBigEndian k (m * 256 ^ k + n) = putBigEndian k n := by
  induction k generalizing m with
  | zero => rfl
  | succ k ih =>
    have hsplit : m * 256 ^ (k + 1) + n = m * 256 * 256 ^ k + n := by rw [Nat.pow_succ']; ring
    have hdigit : (m * 256 * 256 ^ k + n) >>> (8 * k) = n >>> (8 * k) + 256 * m := by
      rw [Nat.shiftRight_eq_div_pow, Nat.shiftRight_eq_div_pow, Nat.pow_mul, Nat.add_comm,
        Nat.add_mul_div_right _ _ (Nat.pow_pos (by decide)), Nat.mul_comm]
    have hbyte : UInt8.ofNat (n >>> (8 * k) + 256 * m) = UInt8.ofNat (n >>> (8 * k)) := by
      rw [← UInt8.toNat_inj, UInt8.toNat_ofNat', UInt8.toNat_ofNat', Nat.add_mul_mod_self_left]
    rw [putBigEndian, putBigEndian, hsplit, ih, hdigit, hbyte]

/-- Bytes are the digits of the number that they stand for. -/
theorem putBigEndian_bigEndian (bytes : List UInt8) :
    putBigEndian bytes.length (bigEndian bytes) = bytes := by
  induction bytes with
  | nil => rfl
  | cons b rest ih =>
    have hdigit : bigEndian (b :: rest) >>> (8 * rest.length) = b.toNat := by
      rw [bigEndian_cons, Nat.shiftRight_eq_div_pow, Nat.pow_mul, Nat.mul_comm,
        Nat.mul_add_div (Nat.pow_pos (by decide)), Nat.div_eq_of_lt (bigEndian_lt rest),
        Nat.add_zero]
    rw [List.length_cons, putBigEndian, hdigit, UInt8.ofNat_toNat, bigEndian_cons, putBigEndian_add,
      ih]

theorem readLong_recognises : readLong.Recognises fun front n => front = putLong n := by
  refine ((readExactly_recognises 8).map fun bytes => UInt64.ofNat (bigEndian bytes)).congr
    fun front n => ?_
  constructor
  · rintro ⟨bytes, ⟨rfl, hlen⟩, rfl⟩
    have hlt : bigEndian front < 2 ^ 64 := by
      have := bigEndian_lt front
      rwa [hlen] at this
    rw [putLong, UInt64.toNat_ofNat', Nat.mod_eq_of_lt hlt]
    have hdigits := putBigEndian_bigEndian front
    rw [hlen] at hdigits
    exact hdigits.symm
  · rintro rfl
    refine ⟨putLong n, ⟨rfl, length_putBigEndian 8 _⟩, ?_⟩
    rw [putLong, bigEndian_putBigEndian n.toNat_lt, UInt64.ofNat_toNat]

/-! ### Variable-length integers -/

/-- The bytes are groups of seven bits: the high bit of each but the last tells that more follow. -/
inductive Groups : List UInt8 → Prop
  | last {b : UInt8} : b.toNat < 128 → Groups [b]
  | more {b : UInt8} {rest : List UInt8} : 128 ≤ b.toNat → Groups rest → Groups (b :: rest)

/-- The number that groups of seven bits stand for, the lowest first. -/
def groupsValue : List UInt8 → Nat
  | [] => 0
  | b :: rest => b.toNat % 128 + 128 * groupsValue rest

@[simp] theorem groupsValue_nil : groupsValue [] = 0 := rfl

@[simp] theorem groupsValue_cons (b : UInt8) (rest : List UInt8) :
    groupsValue (b :: rest) = b.toNat % 128 + 128 * groupsValue rest := rfl

/-- The bytes are a variable-length integer: no more than five groups, of whose value the lowest
32 bits count. -/
structure IsVarInt (bytes : List UInt8) (value : Int32) : Prop where
  groups : Groups bytes
  short : bytes.length ≤ maxGroups
  value_eq : value = (UInt32.ofNat (groupsValue bytes)).toInt32

theorem readGroups_recognises (k : Nat) :
    (readGroups k).Recognises fun front n =>
      Groups front ∧ front.length ≤ k ∧ n = groupsValue front := by
  induction k with
  | zero =>
    refine (Recognises.throw _).congr fun front n => ?_
    constructor
    · exact False.elim
    · rintro ⟨hgroups, hshort, -⟩
      cases hgroups <;> simp at hshort
  | succ k ih =>
    -- after the first byte, either the integer is complete or more groups follow
    have hstep := readByte_recognises.bind fun b =>
      Recognises.ite (p := b.toNat < 128)
        (F := fun front n => (b.toNat < 128 ∧ front = [] ∧ n = b.toNat) ∨
          (128 ≤ b.toNat ∧ Groups front ∧ front.length ≤ k ∧
            n = b.toNat - 128 + 128 * groupsValue front))
        (fun hlt => (Recognises.pure b.toNat).congr fun front n => by
          simp [hlt, Nat.not_le.2 hlt])
        (fun hge => (ih.map fun n => b.toNat - 128 + 128 * n).congr fun front n => by
          simp [Nat.not_lt.1 hge, and_assoc])
    refine hstep.congr fun front n => ?_
    constructor
    · rintro ⟨_, rest, b, rfl, rfl, ⟨hlt, rfl, rfl⟩ | ⟨hge, hgroups, hshort, rfl⟩⟩
      · exact ⟨.last hlt, by simp, by simp [Nat.mod_eq_of_lt hlt]⟩
      · refine ⟨.more hge hgroups, by simpa using hshort, ?_⟩
        have := b.toNat_lt
        simp
        omega
    · rintro ⟨hgroups, hshort, rfl⟩
      cases hgroups with
      | @last b hlt =>
        exact ⟨[b], [], b, rfl, rfl, .inl ⟨hlt, rfl, by simp [Nat.mod_eq_of_lt hlt]⟩⟩
      | @more b rest hge hrest =>
        refine ⟨[b], rest, b, rfl, rfl, .inr ⟨hge, hrest, by simpa using hshort, ?_⟩⟩
        have := b.toNat_lt
        simp
        omega

/-- **Which bytes are variable-length integers.** -/
theorem readVarInt_recognises : readVarInt.Recognises IsVarInt := by
  refine ((readGroups_recognises maxGroups).map fun n => (UInt32.ofNat n).toInt32).congr
    fun front n => ?_
  constructor
  · rintro ⟨_, ⟨hgroups, hshort, rfl⟩, rfl⟩
    exact ⟨hgroups, hshort, rfl⟩
  · rintro ⟨hgroups, hshort, rfl⟩
    exact ⟨_, ⟨hgroups, hshort, rfl⟩, rfl⟩

/-- What is written for an integer stands for it. -/
theorem isVarInt_putVarInt (value : Int32) : IsVarInt (putVarInt value) value :=
  readVarInt_recognises.form (readVarInt_reads value)

end VoxelChunk
