import Mathlib.Data.List.Nodup
import VoxelChunk.Proofs.Storage.Forms

/-!
# Containers that are written and read again

Whether a container was made by writing states or was itself received, its bytes stand for it: it
is read back with its width, its palette and its words, so also cells that refer to no state of
the palette read as before.

The one state that all cells hold at first need not fit the cells, as states that are written
must. It can be written as bytes unless its number is too great for a variable-length integer, and
it can only be one too many for palettes where states have eight bits.

## Main definitions

* `Container.Made` — what holds of containers that were made by writing states.
* `Container.Obtained` — the containers that can be had.

## Main results

* `Container.Made.set` — what a write keeps.
* `Container.decode_regular` — containers that were read can be written.
* `Container.Obtained.decode_encode` — a container is read as it was written.
* `Container.direct_of_many` — more than 256 states make the palette give way.
* `Container.not_decode_encode` — first states that are not read back.
-/

namespace VoxelChunk

open Decoder

namespace Container

variable {c : Container} {globalBits : Nat} {fill state : BlockState}

/-! ### Containers made by writing states -/

/-- What holds of containers that held one state in all cells before states that fit were
written. -/
structure Made (globalBits : Nat) (fill : BlockState) (c : Container) : Prop where
  canonical : c.Canonical
  globalBits_eq : c.globalBits = globalBits
  writable : c.Writable
  nonempty : ∀ states, c.palette = .indexed states → 0 < states.size
  /-- The first state is the only one that may not fit. -/
  fits : ∀ states, c.palette = .indexed states →
    ∀ s ∈ states.toList, s = fill ∨ s.FitsIn globalBits
  wide : c.palette = .direct → 8 < globalBits

theorem made_filled (length globalBits : Nat) (hfill : fill.id.toNat < 2147483648) :
    Made globalBits fill (filled length fill globalBits) where
  canonical := canonical_filled ..
  globalBits_eq := rfl
  writable := by
    rintro _ ⟨⟩ s hmem
    rw [List.mem_singleton.1 hmem]
    exact hfill
  nonempty := by
    rintro _ ⟨⟩
    exact Nat.zero_lt_one
  fits := by
    rintro _ ⟨⟩ s hmem
    exact .inl (List.mem_singleton.1 hmem)
  wide := nofun

/-- A full palette and one more state are too many for states of eight bits. -/
theorem Made.wide_of_full (h : Made globalBits fill c) {states : Array BlockState}
    (hp : c.palette = .indexed states) (hnew : state ∉ states.toList)
    (hs : state.FitsIn globalBits) (hfull : 2 ^ 8 ≤ states.size)
    (hfill : globalBits = 8 → fill.FitsIn 8) : 8 < globalBits := by
  obtain ⟨hnodup, -⟩ := (canonical_indexed hp).1 h.canonical
  have hnodup' : (state :: states.toList).Nodup := List.nodup_cons.2 ⟨hnew, hnodup⟩
  have hall : ∀ s ∈ state :: states.toList, s = fill ∨ s.FitsIn globalBits := by
    intro s hmem
    rcases List.mem_cons.1 hmem with rfl | hmem
    · exact .inr hs
    · exact h.fits states hp s hmem
  have hsize : 2 ^ 8 < (state :: states.toList).length := by
    rw [List.length_cons, Array.length_toList]
    omega
  have hpow : ∀ k, 2 ^ 8 ≤ 2 ^ k ↔ 8 ≤ k := fun k =>
    Nat.pow_le_pow_iff_right (by decide)
  -- all but the first state fit, and the first one fits eight bits
  have hge : 8 ≤ globalBits := by
    rw [← hpow]
    have hrest := length_le_of_fitsIn (hnodup'.erase fill) fun s hmem => by
      obtain ⟨hne, hmem⟩ := hnodup'.mem_erase_iff.1 hmem
      exact (hall s hmem).resolve_left hne
    have := List.le_length_erase (a := fill) (l := state :: states.toList)
    omega
  rcases Nat.eq_or_lt_of_le hge with heq | hlt
  · have hfits : ∀ s ∈ state :: states.toList, s.FitsIn 8 := by
      intro s hmem
      rcases hall s hmem with rfl | hfits
      · exact hfill heq.symm
      · rwa [← heq] at hfits
    have := length_le_of_fitsIn hnodup' hfits
    omega
  · exact hlt

/-- **What a write keeps.** -/
theorem Made.set (h : Made globalBits fill c) (hfill : globalBits = 8 → fill.FitsIn 8)
    (hs : state.FitsIn globalBits) (hwritable : state.id.toNat < 2147483648) {i : Nat}
    (hi : i < c.length) : Made globalBits fill (c.set i state).2 := by
  obtain ⟨raw, d, hn, hset⟩ := h.canonical.set_eq state hi
  obtain ⟨-, hcanonical, -, hglobal⟩ := h.canonical.set state hi
  rw [hset] at hcanonical hglobal ⊢
  refine ⟨hcanonical, hglobal.trans h.globalBits_eq, ?_, ?_, ?_, ?_⟩
  · exact hn.forall_palette h.writable hwritable
  · intro states hp
    exact Nat.lt_of_le_of_lt (Nat.zero_le _) (hn.lt_size hp)
  · exact hn.forall_palette h.fits (.inr hs)
  · intro hp
    cases hn with
    | direct _ => exact h.wide hp
    | known _ _ => exact h.wide hp
    | pushed _ _ _ _ _ _ _ => cases hp
    | dropped hp' hnew hfull _ => exact h.wide_of_full hp' hnew hs hfull hfill

/-- Writes of states that fit keep what they need. -/
theorem Made.setAll (h : Made globalBits fill c) (hfill : globalBits = 8 → fill.FitsIn 8)
    (writes : List (Nat × BlockState))
    (hw : ∀ w ∈ writes, w.1 < c.length ∧ w.2.FitsIn globalBits ∧ w.2.id.toNat < 2147483648) :
    Made globalBits fill (c.setAll writes).2 := by
  induction writes generalizing c with
  | nil => exact h
  | cons w rest ih =>
    rcases w with ⟨i, state⟩
    obtain ⟨hi, hs, hwritable⟩ := hw (i, state) List.mem_cons_self
    obtain ⟨-, -, hlength, -⟩ := h.canonical.set state hi
    apply ih (h.set hfill hs hwritable hi)
    intro w hmem
    rw [hlength]
    exact hw w (List.mem_cons_of_mem _ hmem)

theorem Made.regular (h : Made globalBits fill c) : c.Regular where
  indexed := by
    intro states hp
    obtain ⟨hnodup, hrange, hsize, -⟩ := (canonical_indexed hp).1 h.canonical
    exact ⟨hnodup, hrange, h.nonempty states hp, hsize⟩
  direct := by
    intro hp
    rw [h.globalBits_eq]
    exact ⟨((canonical_direct hp).1 h.canonical).trans h.globalBits_eq, h.wide hp⟩

/-! ### Containers that were read -/

theorem AreStates.lt {bytes : List UInt8} {states : List BlockState} (h : AreStates bytes states) :
    ∀ s ∈ states, s.id.toNat < 2147483648 := by
  rcases h with ⟨fronts, -, h⟩
  induction h with
  | nil => simp
  | cons hstate _ ih =>
    intro s hmem
    rcases List.mem_cons.1 hmem with rfl | hmem
    · exact IsNat.lt hstate
    · exact ih s hmem

/-- A palette lists different states, and no more than its places can number. -/
theorem PaletteForm.lists {width : Nat} {bytes : List UInt8} {states : List BlockState}
    (h : PaletteForm width bytes states) (hle : width ≤ 8) :
    states.Nodup ∧ 0 < states.length ∧ states.length ≤ 2 ^ max width 4 ∧
      ∀ s ∈ states, s.id.toNat < 2147483648 := by
  cases h with
  | single hzero hstate =>
    refine ⟨List.nodup_cons.2 ⟨List.not_mem_nil, List.nodup_nil⟩, Nat.zero_lt_one, ?_, ?_⟩
    · exact Nat.one_le_two_pow
    · intro s hmem
      rw [List.mem_singleton.1 hmem]
      exact IsNat.lt hstate
  | listed _ _ _ hone hmax hnodup hstates => exact ⟨hnodup, hone, hmax, hstates.lt⟩
  | none hwide => omega

theorem bits_received (globalBits : Nat) (states : List BlockState) (cells : PackedArray) :
    (received globalBits states cells).bits = widened cells.bits globalBits := by
  unfold received bits
  split
  · next hbits => exact hbits
  · exact PackedArray.bits_repack ..

/-- A container whose width and palette were read together. -/
theorem regular_received {states : List BlockState} {cells : PackedArray}
    {palette : List UInt8}
    (hwidth : cells.bits ≤ 8 ∨ (8 < cells.bits ∧ cells.bits ≤ globalBits))
    (hpalette : PaletteForm cells.bits palette states) :
    (received globalBits states cells).Regular ∧ (received globalBits states cells).Writable := by
  have hbits := bits_received globalBits states cells
  have hstates : (received globalBits states cells).palette = paletteOf cells.bits states := rfl
  unfold widened at hbits
  unfold paletteOf at hstates
  by_cases hle : cells.bits ≤ 8
  · obtain ⟨hnodup, hone, hmax, hlt⟩ := hpalette.lists hle
    rw [if_pos hle] at hbits hstates
    refine ⟨⟨?_, ?_⟩, ?_⟩
    · intro list hp
      obtain rfl : states.toArray = list := by simpa [hstates] using hp
      rw [hbits]
      exact ⟨hnodup, by omega, hone, hmax⟩
    · intro hp
      simp [hstates] at hp
    · intro list hp
      obtain rfl : states.toArray = list := by simpa [hstates] using hp
      exact hlt
  · rw [if_neg hle] at hbits hstates
    refine ⟨⟨?_, ?_⟩, ?_⟩
    · intro list hp
      simp [hstates] at hp
    · intro _
      exact ⟨hbits, show 8 < globalBits by omega⟩
    · intro list hp
      simp [hstates] at hp

/-- **Containers that were read can be written.** -/
theorem decode_regular {length : Nat} {bytes rest : List UInt8}
    (hread : (decoder length globalBits).decode bytes = (.ok c, rest)) :
    c.Regular ∧ c.Writable ∧ c.length = length ∧ c.globalBits = globalBits := by
  obtain ⟨_, rfl, states, cells, hform, -, rfl, rfl⟩ :=
    (decoder_recognises length globalBits _ _ _).1 hread
  obtain ⟨palette, hwidth, hpalette⟩ := hform.palette
  obtain ⟨hregular, hwritable⟩ := regular_received hwidth hpalette
  exact ⟨hregular, hwritable, length_received .., rfl⟩

/-! ### All containers -/

/-- The containers of states with numbers of the given width: those made by writing states that
fit, and those that were read from any bytes. -/
inductive Obtained (globalBits : Nat) : Container → Prop
  | made (length : Nat) {fill : BlockState} {writes : List (Nat × BlockState)} :
    fill.id.toNat < 2147483648 → (globalBits = 8 → fill.FitsIn 8) →
      (∀ w ∈ writes, w.1 < length ∧ w.2.FitsIn globalBits ∧ w.2.id.toNat < 2147483648) →
        Obtained globalBits ((filled length fill globalBits).setAll writes).2
  | read {length : Nat} {c : Container} {bytes rest : List UInt8} :
    (decoder length globalBits).decode bytes = (.ok c, rest) → Obtained globalBits c

theorem Obtained.regular (h : Obtained globalBits c) :
    c.Regular ∧ c.Writable ∧ c.globalBits = globalBits := by
  cases h with
  | made length hwritable hfill hw =>
    have hmade := (made_filled length globalBits hwritable).setAll hfill _ hw
    exact ⟨hmade.regular, hmade.writable, hmade.globalBits_eq⟩
  | read hread =>
    obtain ⟨hregular, hwritable, -, hglobal⟩ := decode_regular hread
    exact ⟨hregular, hwritable, hglobal⟩

/-- **A container is read as it was written**, and no bytes behind it are touched. -/
theorem Obtained.decode_encode (hg : globalBits ≤ 32) (h : Obtained globalBits c)
    (hwords : c.cells.words.size < 2147483648) (rest : List UInt8) :
    (decoder c.length globalBits).decode (c.encode ++ rest) = (.ok c, rest) := by
  obtain ⟨hregular, hwritable, rfl⟩ := h.regular
  exact decoder_reads hregular hg hwritable hwords rest

/-- A container of two cells, one of which was written. -/
theorem decode_encode_pair : 4 ≤ 32 ∧
    Obtained 4 ((filled 2 .air 4).setAll [(1, ⟨3⟩)]).2 ∧
      ((filled 2 .air 4).setAll [(1, ⟨3⟩)]).2.cells.words.size < 2147483648 ∧
        (decoder 2 4).decode (((filled 2 .air 4).setAll [(1, ⟨3⟩)]).2.encode ++ [7]) =
          (.ok ((filled 2 .air 4).setAll [(1, ⟨3⟩)]).2, [7]) := by
  have hobtained : Obtained 4 ((filled 2 .air 4).setAll [(1, ⟨3⟩)]).2 :=
    .made 2 (by decide) (by decide) (by decide)
  have hwords : ((filled 2 .air 4).setAll [(1, ⟨3⟩)]).2.cells.words.size < 2147483648 := by
    decide +kernel
  have hlength : ((filled 2 .air 4).setAll [(1, ⟨3⟩)]).2.length = 2 := by decide +kernel
  have hread := hobtained.decode_encode (by decide) hwords [7]
  rw [hlength] at hread
  exact ⟨by decide, hobtained, hwords, hread⟩

/-! ### First states that do not fit -/

/-- A palette keeps the states that it has, and gets the state that is given a number. -/
theorem Numbered.subset {d : Container} {raw : Nat} (hn : Numbered c state raw d)
    {states : Array BlockState} (hp : d.palette = .indexed states) :
    ∃ before, c.palette = .indexed before ∧ before.toList ⊆ states.toList ∧
      state ∈ states.toList := by
  cases hn with
  | direct hp' => simp [hp'] at hp
  | @known before index hp' hindex =>
    obtain rfl : before = states := by simpa [hp'] using hp
    exact ⟨before, hp', List.Subset.refl _, Array.mem_toList_iff.2 (Array.mem_of_getElem? hindex)⟩
  | @pushed before cells hp' _ _ _ _ _ _ =>
    cases hp
    exact ⟨before, hp', by simp, by simp⟩
  | dropped _ _ _ hd => simp [hd.palette] at hp

/-- A palette that is there after writes has all states that were written. -/
theorem Canonical.subset_setAll (h : c.Canonical) {writes : List (Nat × BlockState)}
    (hw : ∀ w ∈ writes, w.1 < c.length) {states : Array BlockState}
    (hp : (c.setAll writes).2.palette = .indexed states) :
    ∃ before, c.palette = .indexed before ∧ before.toList ⊆ states.toList ∧
      ∀ w ∈ writes, w.2 ∈ states.toList := by
  induction writes generalizing c with
  | nil => exact ⟨states, hp, List.Subset.refl _, by simp⟩
  | cons w rest ih =>
    rcases w with ⟨i, state⟩
    have hi := hw (i, state) List.mem_cons_self
    obtain ⟨raw, d, hn, hset⟩ := h.set_eq state hi
    obtain ⟨-, hcanonical, hlength, -⟩ := h.set state hi
    obtain ⟨between, hbetween, hlater, hrest⟩ := ih hcanonical
      (fun w hmem => hlength ▸ hw w (List.mem_cons_of_mem _ hmem)) hp
    rw [hset] at hbetween
    obtain ⟨before, hbefore, hsubset, hmem⟩ := hn.subset hbetween
    refine ⟨before, hbefore, List.Subset.trans hsubset hlater, fun w hw => ?_⟩
    rcases List.mem_cons.1 hw with rfl | hw
    · exact hlater hmem
    · exact hrest w hw

/-- **More than 256 states make the palette give way.** -/
theorem direct_of_many {length : Nat} {writes : List (Nat × BlockState)}
    (hw : ∀ w ∈ writes, w.1 < length ∧ w.2.FitsIn globalBits) (hg : globalBits ≤ 32)
    (hnodup : (fill :: writes.map Prod.snd).Nodup) (hmany : 256 ≤ writes.length)
    (hc : c = ((filled length fill globalBits).setAll writes).2) :
    c.palette = .direct ∧ c.bits = globalBits ∧ c.length = length := by
  have hfilled := canonical_filled length globalBits fill
  have hafter := hfilled.setAll_spec hg writes hw
  rw [← hc] at hafter
  have hdirect : c.palette = .direct := by
    cases hp : c.palette with
    | direct => rfl
    | indexed states =>
      rw [hc] at hp
      obtain ⟨_, ⟨⟩, hfirst, hwritten⟩ := hfilled.subset_setAll (fun w hmem => (hw w hmem).1) hp
      rw [← hc] at hp
      obtain ⟨-, ⟨-, hmax⟩, hsize, -⟩ := (canonical_indexed hp).1 hafter.canonical
      -- the palette has the first state and all that were written
      have hall : fill :: writes.map Prod.snd ⊆ states.toList := by
        intro s hmem
        rcases List.mem_cons.1 hmem with rfl | hmem
        · exact hfirst (List.mem_singleton.2 rfl)
        · obtain ⟨w, hw, rfl⟩ := List.mem_map.1 hmem
          exact hwritten w hw
      have hle := hnodup.length_le_of_subset hall
      have hpow := Nat.pow_le_pow_right (show 0 < 2 by decide) hmax
      have hlen : states.toList.length = states.size := Array.length_toList
      rw [List.length_cons, List.length_map] at hle
      omega
  exact ⟨hdirect, ((canonical_direct hdirect).1 hafter.canonical).trans hafter.globalBits,
    hafter.length⟩

/-- Cells of eight bits that store states are taken for cells with a palette, which is refused if
there are more words than states that it may have. -/
theorem decode_encode_narrow (hp : c.palette = .direct) (hbits : c.bits = 8)
    (hmany : 256 < c.cells.words.size) (hwords : c.cells.words.size < 2147483648)
    (length globalBits : Nat) (rest : List UInt8) :
    (decoder length globalBits).decode (c.encode ++ rest) =
      (.error (.invalidPaletteLength c.cells.words.size),
        c.cells.words.toList.flatMap putLong ++ rest) := by
  have hparts : c.encode ++ rest = [8] ++ (putNat c.cells.words.size ++
      (c.cells.words.toList.flatMap putLong ++ rest)) := by
    simp [encode, hp, hbits, encodePalette]
  have hbyte := (readByte_reads 8).mapError StorageError.wire
  have hpalette : (readPalette 8 globalBits).decode (putNat c.cells.words.size ++
      (c.cells.words.toList.flatMap putLong ++ rest)) =
        (.error (.invalidPaletteLength c.cells.words.size),
          c.cells.words.toList.flatMap putLong ++ rest) := by
    unfold readPalette
    rw [if_neg (by decide), if_pos (by decide), decode_bind, readNat_reads hwords]
    simp only
    rw [if_pos (.inr hmany)]
    rfl
  rw [hparts, decoder, decode_bind, hbyte]
  simp only [show (8 : UInt8).toNat = 8 from rfl]
  rw [if_neg (by decide), decode_bind, hpalette]

/-- States with consecutive numbers. -/
def statesFrom (first count : Nat) : List BlockState :=
  (List.range count).map fun i => ⟨UInt32.ofNat (first + i)⟩

@[simp] theorem length_statesFrom (first count : Nat) :
    (statesFrom first count).length = count := by
  rw [statesFrom, List.length_map, List.length_range]

theorem mem_statesFrom {first count : Nat} (h : first + count ≤ 4294967296) :
    state ∈ statesFrom first count ↔ first ≤ state.id.toNat ∧ state.id.toNat < first + count := by
  simp only [statesFrom, List.mem_map, List.mem_range]
  constructor
  · rintro ⟨i, hi, rfl⟩
    rw [UInt32.toNat_ofNat', Nat.mod_eq_of_lt (by omega)]
    omega
  · rintro ⟨hfirst, hlast⟩
    refine ⟨state.id.toNat - first, by omega, ?_⟩
    rw [Nat.add_sub_cancel' hfirst, state.ofNat_id]

theorem nodup_statesFrom {first count : Nat} (h : first + count ≤ 4294967296) :
    (statesFrom first count).Nodup := by
  refine List.Nodup.map_on (fun i hi j hj hij => ?_) List.nodup_range
  rw [List.mem_range] at hi hj
  have hid := congrArg (fun s : BlockState => s.id.toNat) hij
  simp only [UInt32.toNat_ofNat'] at hid
  omega

/-- Writes of all states that fit eight bits. -/
def narrowWrites : List (Nat × BlockState) := (statesFrom 0 256).map fun state => (0, state)

theorem narrowWrites_fit : ∀ w ∈ narrowWrites,
    w.1 < 2056 ∧ w.2.FitsIn 8 ∧ w.2.id.toNat < 2147483648 := by
  intro w hmem
  obtain ⟨state, hstate, rfl⟩ := List.mem_map.1 hmem
  obtain ⟨-, hlt⟩ := (mem_statesFrom (by decide)).1 hstate
  exact ⟨Nat.zero_lt_succ _, hlt, Nat.lt_trans hlt (by decide)⟩

/-- The palette gives way, and there is one word more than a palette may have states. -/
theorem narrowWrites_spec (hc : c = ((filled 2056 ⟨256⟩ 8).setAll narrowWrites).2) :
    c.palette = .direct ∧ c.bits = 8 ∧ c.cells.words.size = 257 := by
  have hfits : ∀ w ∈ narrowWrites, w.1 < 2056 ∧ w.2.FitsIn 8 := fun w hmem =>
    ⟨(narrowWrites_fit w hmem).1, (narrowWrites_fit w hmem).2.1⟩
  have hstates : narrowWrites.map Prod.snd = statesFrom 0 256 := by simp [narrowWrites]
  have hnodup : ((⟨256⟩ : BlockState) :: narrowWrites.map Prod.snd).Nodup := by
    rw [hstates, List.nodup_cons, mem_statesFrom (by decide)]
    exact ⟨by decide, nodup_statesFrom (by decide)⟩
  obtain ⟨hdirect, hbits, hlength⟩ :=
    direct_of_many hfits (by decide) hnodup (by simp [narrowWrites]) hc
  refine ⟨hdirect, hbits, ?_⟩
  rw [c.cells.size_words, show c.cells.bits = 8 from hbits, show c.cells.length = 2056 from hlength]
  rfl

/-- A first state is not read back if its number is too great for the bytes, and neither is one
that does not fit eight bits if all others that do are written. -/
theorem not_decode_encode :
    ((∀ w ∈ [(0, (⟨1⟩ : BlockState))], w.1 < 2 ∧ w.2.FitsIn 32 ∧ w.2.id.toNat < 2147483648) ∧
      ((filled 2 ⟨2147483648⟩ 32).setAll [(0, ⟨1⟩)]).2.cells.words.size < 2147483648 ∧
        (decoder 2 32).decode ((filled 2 ⟨2147483648⟩ 32).setAll [(0, ⟨1⟩)]).2.encode =
          (.error .negativeLength, [1, 1, 0, 0, 0, 0, 0, 0, 0, 1])) ∧
    (∀ w ∈ narrowWrites, w.1 < 2056 ∧ w.2.FitsIn 8 ∧ w.2.id.toNat < 2147483648) ∧
      ((filled 2056 ⟨256⟩ 8).setAll narrowWrites).2.cells.words.size < 2147483648 ∧
        ∃ left, (decoder 2056 8).decode ((filled 2056 ⟨256⟩ 8).setAll narrowWrites).2.encode =
          (.error (.invalidPaletteLength 257), left) := by
  refine ⟨by decide +kernel, narrowWrites_fit, ?_⟩
  generalize hc : ((filled 2056 ⟨256⟩ 8).setAll narrowWrites).2 = c
  obtain ⟨hdirect, hbits, hsize⟩ := narrowWrites_spec hc.symm
  have hread := decode_encode_narrow hdirect hbits (hsize ▸ by decide) (hsize ▸ by decide) 2056 8 []
  rw [List.append_nil, hsize] at hread
  exact ⟨hsize ▸ by decide, _, hread⟩

end Container

end VoxelChunk
