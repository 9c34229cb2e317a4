import VoxelChunk.Proofs.Biome
import VoxelChunk.Proofs.Storage.Codec
import VoxelChunk.Proofs.Wire.Forms

/-!
# Which bytes are the biomes of a world

The bytes of biomes are a variable-length integer, which tells how many cubes the world has, and one
more for each cube. All bytes of this form are read, however long their integers are, and no others;
what is written has this form.

## Main definitions

* `Biomes.IsId` — the bytes of the number of a biome.
* `Biomes.Form` — the bytes of the biomes of a world.

## Main results

* `Biomes.decoder_recognises` — which bytes are read as which biomes.
* `Biomes.decoder_reads` — what is written is read.
* `Biomes.decoder_spec` — both, for all biomes that can be made for a world.
-/

namespace VoxelChunk

open Decoder

namespace Biomes

variable {limit : HeightLimit} {b : Biomes}

/-! ### The numbers of biomes -/

/-- The bytes are a variable-length integer that is the number if it is taken without a sign. -/
def IsId (bytes : List UInt8) (id : UInt32) : Prop :=
  ∃ value, IsVarInt bytes value ∧ id = value.toUInt32

theorem isId_putVarInt (id : UInt32) : IsId (putVarInt id.toInt32) id :=
  ⟨_, isVarInt_putVarInt _, rfl⟩

theorem readIds_recognises (n : Nat) :
    (readIds n).Recognises fun front ids => ids.length = n ∧ InTurn IsId front ids := by
  induction n with
  | zero =>
    refine (Recognises.pure []).congr fun front ids => ?_
    rw [List.length_eq_zero_iff, and_comm]
    exact and_congr_right fun hids => by rw [hids, inTurn_nil]
  | succ n ih =>
    refine (readVarInt_recognises.bind fun value =>
      ih.map (value.toUInt32 :: ·)).congr fun front ids => ?_
    constructor
    · rintro ⟨l, r, value, rfl, hvalue, rest, ⟨hlen, hrest⟩, rfl⟩
      exact ⟨congrArg Nat.succ hlen, inTurn_cons.2 ⟨l, r, rfl, ⟨value, hvalue, rfl⟩, hrest⟩⟩
    · rintro ⟨hlen, hids⟩
      cases ids with
      | nil => cases hlen
      | cons id rest =>
        obtain ⟨l, r, rfl, ⟨value, hvalue, rfl⟩, hrest⟩ := inTurn_cons.1 hids
        exact ⟨l, r, value, rfl, hvalue, rest, ⟨Nat.succ.inj hlen, hrest⟩, rfl⟩

/-! ### Biomes -/

/-- The bytes are the number of cubes of the world, and then the numbers of their biomes. -/
def Form (limit : HeightLimit) (bytes : List UInt8) (b : Biomes) : Prop :=
  ∃ (head : List UInt8) (fronts : List (List UInt8)), bytes = head ++ fronts.flatten ∧
    (∃ count, IsVarInt head count ∧ count.toInt = 64 * limit.sectionCount) ∧
    fronts.length = 64 * limit.sectionCount ∧ b.bottomLayer = limit.bottom / 4 ∧
    List.Forall₂ (fun front biome => IsId front biome.id) fronts b.cubes.toList

/-- What is read is made for the world. -/
theorem ofIds?_recognises (ids : List UInt32) :
    (match ofIds? limit ids with
      | some b => pure b
      | none => throw .biomeCount : Decoder WireError Biomes).Recognises fun front b =>
        front = [] ∧ ofIds? limit ids = some b := by
  cases hb : ofIds? limit ids with
  | none => exact (Recognises.throw _).congr fun front b => by simp
  | some b => exact (Recognises.pure b).congr fun front b' => by simp [eq_comm]

/-- **Which bytes are read as which biomes.** -/
theorem decoder_recognises (limit : HeightLimit) : (decoder limit).Recognises (Form limit) := by
  refine (readVarInt_recognises.bind fun count =>
    Recognises.ite (p := count.toInt = countFor limit)
      (F := fun front b => count.toInt = countFor limit ∧
        ∃ ids, InTurn IsId front ids ∧ ofIds? limit ids = some b)
      (fun hcount => ((readIds_recognises (countFor limit)).bind ofIds?_recognises).congr
        fun front b => ?_)
      (fun hcount => (Recognises.throw _).congr fun front b => ?_)).congr fun front b => ?_
  · constructor
    · rintro ⟨l, _, ids, rfl, ⟨-, hids⟩, rfl, hb⟩
      exact ⟨hcount, ids, by rwa [List.append_nil], hb⟩
    · rintro ⟨-, ids, hids, hb⟩
      exact ⟨front, [], ids, (List.append_nil _).symm, ⟨(ofIds?_eq_some_iff.1 hb).1, hids⟩, rfl, hb⟩
  · simp [hcount]
  · have hcountFor : countFor limit = 64 * limit.sectionCount := Nat.mul_comm ..
    constructor
    · rintro ⟨head, _, count, rfl, hhead, hcount, ids, ⟨fronts, rfl, hids⟩, hb⟩
      obtain ⟨hlen, rfl⟩ := ofIds?_eq_some_iff.1 hb
      refine ⟨head, fronts, rfl, ⟨count, hhead, ?_⟩, ?_, rfl, ?_⟩
      · rw [hcount, hcountFor]
        rfl
      · rw [hids.length_eq, hlen, hcountFor]
      · rw [List.toList_toArray, List.forall₂_map_right_iff]
        exact hids
    · rintro ⟨head, fronts, rfl, ⟨count, hhead, hcount⟩, hlen, hbottom, hids⟩
      have hsize : b.size = countFor limit :=
        hids.length_eq.symm.trans (hlen.trans hcountFor.symm)
      refine ⟨head, fronts.flatten, count, rfl, hhead, ?_, b.cubes.toList.map Biome.id,
        ⟨fronts, rfl, ?_⟩, Fits.ofIds?_ids ⟨hbottom, hsize⟩⟩
      · rw [hcount, hcountFor]
        rfl
      · rwa [List.forall₂_map_right_iff]

/-! ### What is written is read -/

theorem form_encode (hb : b.Fits limit) (hcount : countFor limit < 2147483648) :
    Form limit b.encode b := by
  have hsize : b.cubes.toList.length = 64 * limit.sectionCount :=
    hb.size.trans (Nat.mul_comm ..)
  refine ⟨_, b.cubes.toList.map fun biome => putVarInt biome.id.toInt32, ?_,
    ⟨_, isVarInt_putVarInt (UInt32.ofNat b.size).toInt32, ?_⟩, ?_, hb.bottomLayer, ?_⟩
  · rw [← List.flatMap_def]
    rfl
  · rw [hb.size, Container.toInt_ofNat hcount, countFor, Nat.mul_comm]
    rfl
  · rw [List.length_map, hsize]
  · rw [List.forall₂_map_left_iff, List.forall₂_same]
    exact fun biome _ => isId_putVarInt biome.id

/-- **What is written is read**, whatever comes after it. -/
theorem decoder_reads (hb : b.Fits limit) (hcount : countFor limit < 2147483648) :
    (decoder limit).Reads b.encode b :=
  (decoder_recognises limit).reads (form_encode hb hcount)

/-- Whatever integers come after the number of cubes, they are the numbers of some biomes. -/
theorem exists_form {head : List UInt8} {fronts : List (List UInt8)}
    (hhead : ∃ count, IsVarInt head count ∧ count.toInt = 64 * limit.sectionCount)
    (hlen : fronts.length = 64 * limit.sectionCount)
    (hfronts : ∀ front ∈ fronts, ∃ value, IsVarInt front value) :
    ∃ b, Form limit (head ++ fronts.flatten) b := by
  have hids : ∃ ids, List.Forall₂ IsId fronts ids := by
    clear hlen
    induction fronts with
    | nil => exact ⟨[], .nil⟩
    | cons front fronts ih =>
      obtain ⟨⟨value, hvalue⟩, hrest⟩ := List.forall_mem_cons.1 hfronts
      obtain ⟨ids, hids⟩ := ih hrest
      exact ⟨value.toUInt32 :: ids, .cons ⟨value, hvalue, rfl⟩ hids⟩
  obtain ⟨ids, hids⟩ := hids
  refine ⟨⟨limit.bottom / 4, (ids.map Biome.mk).toArray⟩, head, fronts, rfl, hhead, hlen, rfl, ?_⟩
  rw [List.toList_toArray, List.forall₂_map_right_iff]
  exact hids

/-- **Biomes, written and read.** What is written of the biomes of a world is read, whatever comes
after it. Any bytes are read just if they begin with the number of cubes and as many integers after
it, and then these are the numbers of the biomes, in their order and without a sign. -/
theorem decoder_spec (hcount : countFor limit < 2147483648) :
    (∀ b, Built limit b → ∀ rest, (decoder limit).decode (b.encode ++ rest) = (.ok b, rest)) ∧
      ∀ bytes : List UInt8,
        ((∃ b rest, (decoder limit).decode bytes = (.ok b, rest)) ↔
          ∃ (head : List UInt8) (fronts : List (List UInt8)) (rest : List UInt8),
            bytes = head ++ fronts.flatten ++ rest ∧
            (∃ count, IsVarInt head count ∧ count.toInt = 64 * limit.sectionCount) ∧
            fronts.length = 64 * limit.sectionCount ∧
            ∀ front ∈ fronts, ∃ value, IsVarInt front value) ∧
        ∀ b rest, (decoder limit).decode bytes = (.ok b, rest) ↔
          ∃ front, bytes = front ++ rest ∧ Form limit front b := by
  have hread := decoder_recognises limit
  refine ⟨fun b hb => decoder_reads hb.fits hcount, fun bytes => ⟨?_, hread bytes⟩⟩
  constructor
  · rintro ⟨b, rest, hb⟩
    obtain ⟨_, rfl, head, fronts, rfl, hhead, hlen, -, hids⟩ := (hread _ _ _).1 hb
    refine ⟨head, fronts, rest, rfl, hhead, hlen, fun front hfront => ?_⟩
    obtain ⟨i, hi, rfl⟩ := List.getElem_of_mem hfront
    obtain ⟨value, hvalue, -⟩ := hids.get hi (hids.length_eq ▸ hi)
    exact ⟨value, hvalue⟩
  · rintro ⟨head, fronts, rest, rfl, hhead, hlen, hfronts⟩
    obtain ⟨b, hb⟩ := exists_form hhead hlen hfronts
    exact ⟨b, rest, hread.reads hb rest⟩

end Biomes

/-- The greatest number of a biome takes five bytes, and what comes after all is left. -/
theorem decode_threeSections :
    Biomes.countFor threeSections < 2147483648 ∧
      (Biomes.decoder threeSections).decode (((Biomes.filled threeSections ⟨1⟩).set ⟨5, -30, -3⟩
        ⟨4294967295⟩).encode ++ [0x80]) =
          (.ok ((Biomes.filled threeSections ⟨1⟩).set ⟨5, -30, -3⟩ ⟨4294967295⟩), [0x80]) := by
  have hcount : Biomes.countFor threeSections < 2147483648 := by decide
  exact ⟨hcount, (Biomes.decoder_spec hcount).1 _ (.set _ _ (.filled ⟨1⟩)) [0x80]⟩

end VoxelChunk
