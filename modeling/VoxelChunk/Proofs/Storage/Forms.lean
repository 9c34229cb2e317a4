import VoxelChunk.Proofs.Storage.Codec
import VoxelChunk.Proofs.Wire.Forms

/-!
# Which bytes are containers

The bytes of a container are a byte with the width of its cells, the palette that goes with this
width, the number of words, and the words. All bytes of this form are read, and no others. Cells
that come in a width that is not used in memory are widened, which no reader of the cells can see.

## Main definitions

* `Container.PaletteForm`, `Container.Form` — the bytes of palettes and of containers.
* `Container.rawAt`, `Container.resolve` — what is stored in a cell, and what it stands for.

## Main results

* `Container.readPalette_recognises`, `Container.readCells_recognises` — the two parts.
* `Container.decoder_recognises` — which bytes are which container.
* `Container.decode_ok_iff` — which bytes are containers, and how their cells read.
-/

namespace VoxelChunk

open Decoder

namespace Container

/-! ### Numbers and states -/

/-- The bytes are a variable-length integer that is not negative. -/
def IsNat (bytes : List UInt8) (n : Nat) : Prop := ∃ value, IsVarInt bytes value ∧ value.toInt = n

/-- The bytes are the number of the state. -/
def IsState (bytes : List UInt8) (state : BlockState) : Prop := IsNat bytes state.id.toNat

theorem IsNat.lt {bytes : List UInt8} {n : Nat} (h : IsNat bytes n) : n < 2147483648 := by
  rcases h with ⟨value, -, hn⟩
  have := value.toInt_lt
  omega

/-- Small numbers take one byte. -/
theorem isNat_byte {b : UInt8} (h : b.toNat < 128) : IsNat [b] b.toNat := by
  have hvalue : groupsValue [b] = b.toNat := by simp [Nat.mod_eq_of_lt h]
  refine ⟨_, ⟨.last h, by simp [maxGroups], rfl⟩, ?_⟩
  rw [hvalue, toInt_ofNat (by omega)]

theorem readNat_recognises : readNat.Recognises IsNat := by
  refine ((readVarInt_recognises.mapError _).bind fun value =>
    Recognises.guard _ fun _ => Recognises.pure value.toInt.toNat).congr fun front n => ?_
  simp only [Int32.lt_iff_toInt_lt, Int32.toInt_zero]
  constructor
  · rintro ⟨l, _, value, rfl, hvalue, hpos, rfl, rfl⟩
    exact ⟨value, by simpa using hvalue, by omega⟩
  · rintro ⟨value, hvalue, hn⟩
    exact ⟨front, [], value, by simp, hvalue, by omega, rfl, by omega⟩

theorem readState_recognises : readState.Recognises IsState := by
  refine (readNat_recognises.map fun n => (⟨UInt32.ofNat n⟩ : BlockState)).congr
    fun front state => ?_
  constructor
  · rintro ⟨n, hn, rfl⟩
    have := hn.lt
    rw [IsState, UInt32.toNat_ofNat', Nat.mod_eq_of_lt (by omega)]
    exact hn
  · intro h
    exact ⟨_, h, state.ofNat_id.symm⟩

/-- The bytes are those of the states, one after the other. -/
def AreStates (bytes : List UInt8) (states : List BlockState) : Prop :=
  ∃ fronts : List (List UInt8), bytes = fronts.flatten ∧ List.Forall₂ IsState fronts states

theorem areStates_nil {bytes : List UInt8} : AreStates bytes [] ↔ bytes = [] := inTurn_nil

theorem areStates_cons {bytes : List UInt8} {state : BlockState} {states : List BlockState} :
    AreStates bytes (state :: states) ↔
      ∃ l r, bytes = l ++ r ∧ IsState l state ∧ AreStates r states :=
  inTurn_cons

/-- New states that differ from each other and from those before. -/
theorem readStates_recognises (n : Nat) (before : Array BlockState) (hb : before.toList.Nodup) :
    (readStates n before).Recognises fun front all => ∃ states : List BlockState,
      all = before ++ states.toArray ∧ states.length = n ∧ (before.toList ++ states).Nodup ∧
        AreStates front states := by
  induction n generalizing before with
  | zero =>
    refine (Recognises.pure before).congr fun front all => ?_
    constructor
    · rintro ⟨rfl, rfl⟩
      exact ⟨[], by simp, rfl, by simpa using hb, areStates_nil.2 rfl⟩
    · rintro ⟨states, rfl, hlen, -, hstates⟩
      obtain rfl := List.eq_nil_of_length_eq_zero hlen
      exact ⟨areStates_nil.1 hstates, by simp⟩
  | succ n ih =>
    have hpush : ∀ state, ¬before.contains state = true → (before.push state).toList.Nodup := by
      intro state hnew
      rw [Array.contains_iff_mem, ← Array.mem_toList_iff] at hnew
      rw [Array.toList_push, List.nodup_append]
      refine ⟨hb, by simp, ?_⟩
      rintro s hs _ ht rfl
      exact hnew (List.mem_singleton.1 ht ▸ hs)
    -- each state is compared with all before it
    refine (readState_recognises.bind fun state =>
      Recognises.guard _ fun hnew => ih (before.push state) (hpush state hnew)).congr
        fun front all => ?_
    constructor
    · rintro ⟨l, r, state, rfl, hstate, -, states, rfl, rfl, hnodup, hstates⟩
      refine ⟨state :: states, by simp, rfl, by simpa using hnodup, ?_⟩
      exact areStates_cons.2 ⟨l, r, rfl, hstate, hstates⟩
    · rintro ⟨_ | ⟨state, states⟩, rfl, hlen, hnodup, hstates⟩
      · simp at hlen
      · obtain ⟨l, r, rfl, hstate, hrest⟩ := areStates_cons.1 hstates
        refine ⟨l, r, state, rfl, hstate, ?_, states, by simp, by simpa using hlen,
          by simpa using hnodup, hrest⟩
        intro hmem
        rw [Array.contains_iff_mem, ← Array.mem_toList_iff] at hmem
        exact (List.nodup_append.1 hnodup).2.2 _ hmem _ List.mem_cons_self rfl

theorem readWords_recognises (n : Nat) (before : Array UInt64) :
    (readWords n before).Recognises fun front all => ∃ words : List UInt64,
      all = before ++ words.toArray ∧ words.length = n ∧ front = words.flatMap putLong := by
  induction n generalizing before with
  | zero =>
    refine (Recognises.pure before).congr fun front all => ?_
    constructor
    · rintro ⟨rfl, rfl⟩
      exact ⟨[], by simp, rfl, rfl⟩
    · rintro ⟨words, rfl, hlen, rfl⟩
      obtain rfl := List.eq_nil_of_length_eq_zero hlen
      simp
  | succ n ih =>
    refine ((readLong_recognises.mapError _).bind fun word =>
      ih (before.push word)).congr fun front all => ?_
    constructor
    · rintro ⟨_, _, word, rfl, rfl, words, rfl, rfl, rfl⟩
      exact ⟨word :: words, by simp, rfl, by simp⟩
    · rintro ⟨_ | ⟨word, words⟩, rfl, hlen, rfl⟩
      · simp at hlen
      · exact ⟨_, _, word, by simp, rfl, words, by simp, by simpa using hlen, rfl⟩

/-! ### The parts of a container -/

/-- The bytes are the palette for cells of the given width, which lists the states. -/
inductive PaletteForm (width : Nat) : List UInt8 → List BlockState → Prop
  /-- Cells without bits all hold one state. -/
  | single {bytes : List UInt8} {state : BlockState} :
    width = 0 → IsState bytes state → PaletteForm width bytes [state]
  /-- The number of the states and the states. -/
  | listed {count bytes : List UInt8} {states : List BlockState} :
    1 ≤ width → width ≤ 8 → IsNat count states.length →
      1 ≤ states.length → states.length ≤ 2 ^ max width 4 → states.Nodup →
        AreStates bytes states → PaletteForm width (count ++ bytes) states
  /-- Wider cells hold states themselves. -/
  | none : 8 < width → PaletteForm width [] []

/-- The palette for cells received in the given width. -/
def paletteOf (width : Nat) (states : List BlockState) : Palette :=
  if width ≤ 8 then .indexed states.toArray else .direct

/-- The width in memory of cells received in the given width. -/
def widened (width globalBits : Nat) : Nat := if width ≤ 8 then max width 4 else globalBits

theorem readPalette_recognises (width globalBits : Nat) :
    (readPalette width globalBits).Recognises fun front palette =>
      (width ≤ 8 ∨ width ≤ globalBits) ∧ ∃ states, PaletteForm width front states ∧
        palette = (paletteOf width states, widened width globalBits) := by
  unfold readPalette
  refine Recognises.ite ?_ fun hpos => Recognises.ite ?_ fun hwide => Recognises.ite ?_ ?_
  · rintro rfl
    refine (readState_recognises.map fun state => (Palette.indexed #[state], minIndexBits)).congr
      fun front palette => ?_
    constructor
    · rintro ⟨state, hstate, rfl⟩
      exact ⟨by simp, [state], .single rfl hstate, rfl⟩
    · rintro ⟨-, _, hform, rfl⟩
      cases hform with
      | @single _ state _ hstate => exact ⟨state, hstate, rfl⟩
      | listed hpos => exact absurd hpos (by decide)
      | none hwide => exact absurd hwide (by decide)
  · intro hle
    have hle : width ≤ 8 := hle
    refine (readNat_recognises.bind fun length => Recognises.guard _ fun _ =>
      (readStates_recognises length #[] List.nodup_nil).map fun states =>
        (Palette.indexed states, max width minIndexBits)).congr fun front palette => ?_
    simp only [Nat.one_shiftLeft, minIndexBits, paletteOf, widened, if_pos hle]
    constructor
    · rintro ⟨l, r, _, rfl, hcount, hlength, _, ⟨states, rfl, rfl, hnodup, hstates⟩, rfl⟩
      have hform := PaletteForm.listed (by omega) hle hcount (by omega) (by omega)
        (by simpa using hnodup) hstates
      exact ⟨.inl hle, states, hform, by simp⟩
    · rintro ⟨-, states, hform, rfl⟩
      cases hform with
      | single hzero _ => exact absurd hzero hpos
      | @listed count bytes _ _ _ hcount hone hmax hnodup hstates =>
        refine ⟨count, bytes, _, rfl, hcount, by omega, states.toArray, ?_, rfl⟩
        exact ⟨states, by simp, rfl, by simpa using hnodup, hstates⟩
      | none hwide => exact absurd hle (by omega)
  · intro hglobal
    have hwide : 8 < width := Nat.not_le.1 hwide
    refine (Recognises.pure (Palette.direct, globalBits)).congr fun front palette => ?_
    have hvalue : (Palette.direct, globalBits) =
        (paletteOf width [], widened width globalBits) := by
      rw [paletteOf, widened, if_neg (by omega), if_neg (by omega)]
    constructor
    · rintro ⟨rfl, rfl⟩
      exact ⟨.inr hglobal, [], .none hwide, hvalue⟩
    · rintro ⟨-, states, hform, rfl⟩
      cases hform with
      | single hzero _ => exact absurd hzero hpos
      | listed _ hle => exact absurd hle (by omega)
      | none _ => exact ⟨rfl, hvalue.symm⟩
  · intro hbad
    have hwide : 8 < width := Nat.not_le.1 hwide
    refine (Recognises.throw _).congr fun front palette => ?_
    constructor
    · exact False.elim
    · rintro ⟨hwidth, -⟩
      omega

theorem ofWords?_eq_ok {width length : Nat} (h : width ≤ 32) {words : Array UInt64}
    {cells : PackedArray} : PackedArray.ofWords? width length words = .ok cells ↔
      cells.bits = width ∧ cells.length = length ∧ cells.words = words := by
  unfold PackedArray.ofWords?
  rw [if_neg (Nat.not_lt.2 h)]
  constructor
  · intro hcells
    split at hcells
    · cases hcells
      exact ⟨rfl, rfl, rfl⟩
    · cases hcells
  · rcases cells with ⟨bits, length', words', hsize⟩
    rintro ⟨rfl, rfl, rfl⟩
    rw [dif_pos hsize]

/-- The bytes of packed cells are the number of their words and the words. -/
theorem readCells_recognises {width : Nat} (h : width ≤ 32) (length : Nat) :
    (readCells width length).Recognises fun front cells => ∃ count,
      front = count ++ cells.words.toList.flatMap putLong ∧ IsNat count (wordsFor width length) ∧
        cells.bits = width ∧ cells.length = length := by
  have hmax := wordsFor_le length h
  unfold readCells
  refine (readNat_recognises.bind fun count => Recognises.guard _ fun _ =>
    (readWords_recognises count #[]).bind fun words =>
      Recognises.ofExcept (PackedArray.ofWords? width length words) (fun _ he => by rw [he])
        fun _ ho => by rw [ho]).congr fun front cells => ?_
  simp only [ofWords?_eq_ok h]
  constructor
  · rintro ⟨count, _, _, rfl, hcount, -, l, _, _, rfl, ⟨words, rfl, rfl, rfl⟩, rfl, rfl, rfl,
      hwords⟩
    have hlen := cells.size_words
    rw [hwords] at hlen
    refine ⟨count, by simp [hwords], ?_, rfl, rfl⟩
    simpa [← hlen] using hcount
  · rintro ⟨count, rfl, hcount, rfl, rfl⟩
    have hsize := cells.size_words
    refine ⟨count, _, _, rfl, hcount, by omega, _, [], _, (List.append_nil _).symm, ?_, rfl, rfl,
      rfl, rfl⟩
    exact ⟨cells.words.toList, by simp, by simpa using hsize, rfl⟩

/-! ### Whole containers -/

/-- The bytes are a container of the given length, with cells of the given width: the width in a
byte, the palette, the number of words that the cells take, and the words. -/
inductive Form (length globalBits : Nat) :
    List UInt8 → Nat → List BlockState → List UInt64 → Prop
  | parts {width : UInt8} {palette count : List UInt8} {states : List BlockState}
      {words : List UInt64} :
    width.toNat ≤ 8 ∨ (8 < width.toNat ∧ width.toNat ≤ globalBits) →
    PaletteForm width.toNat palette states →
    IsNat count (wordsFor width.toNat length) → words.length = wordsFor width.toNat length →
      Form length globalBits (width :: (palette ++ (count ++ words.flatMap putLong)))
        width.toNat states words

theorem Form.palette {length globalBits width : Nat} {bytes : List UInt8} {states : List BlockState}
    {words : List UInt64} (h : Form length globalBits bytes width states words) :
    ∃ palette, (width ≤ 8 ∨ (8 < width ∧ width ≤ globalBits)) ∧
      PaletteForm width palette states := by
  cases h with
  | parts hwidth hpalette _ _ => exact ⟨_, hwidth, hpalette⟩

/-- The container of received cells and the states of their palette. -/
def received (globalBits : Nat) (states : List BlockState) (cells : PackedArray) : Container where
  globalBits := globalBits
  palette := paletteOf cells.bits states
  cells :=
    if cells.bits = widened cells.bits globalBits then cells
    else cells.repack (widened cells.bits globalBits)

/-- **Which bytes are which container.** -/
theorem decoder_recognises (length globalBits : Nat) :
    (decoder length globalBits).Recognises fun front c => ∃ states cells,
      Form length globalBits front cells.bits states cells.words.toList ∧
        cells.bits ≤ 32 ∧ cells.length = length ∧ c = received globalBits states cells := by
  unfold decoder
  refine ((readByte_recognises.mapError _).bind fun width => Recognises.guard _ fun hwidth =>
    (readPalette_recognises width.toNat globalBits).bind fun palette =>
      (readCells_recognises (Nat.not_lt.1 hwidth) length).map fun cells =>
        (⟨globalBits, palette.1, if cells.bits = palette.2 then cells
          else cells.repack palette.2⟩ : Container)).congr fun front c => ?_
  constructor
  · rintro ⟨_, _, width, rfl, rfl, hle, palette, _, _, rfl, ⟨hwidth, states, hform, rfl⟩, cells,
      ⟨count, rfl, hcount, hbits, rfl⟩, rfl⟩
    have hwords : cells.words.toList.length = wordsFor width.toNat cells.length := by
      rw [Array.length_toList, cells.size_words, hbits]
    refine ⟨states, cells, ?_, by omega, rfl, ?_⟩
    · rw [hbits]
      exact .parts (by omega) hform hcount hwords
    · simp only [received, hbits]
  · rintro ⟨states, ⟨bits, length', words, hsize⟩, hform, hle, rfl, rfl⟩
    generalize hlist : words.toList = list at hform
    cases hform with
    | @parts width palette count _ _ hwidth hform hcount hwords =>
      have hle : width.toNat ≤ 32 := hle
      refine ⟨[width], _, width, rfl, rfl, by omega, palette, _, _, rfl,
        ⟨by omega, states, hform, rfl⟩, ⟨width.toNat, length', words, hsize⟩,
        ⟨count, ?_, hcount, rfl, rfl⟩, rfl⟩
      rw [hlist]

/-! ### Cells -/

/-- What words store in a cell of the given width. No cell spans two words, and cells without bits
store zero. -/
def rawAt (width : Nat) (words : List UInt64) (i : Nat) : Nat :=
  if width = 0 then 0
  else (words.getD (i / (64 / width)) 0).toNat / 2 ^ (i % (64 / width) * width) % 2 ^ width

/-- What a stored number stands for in cells received in the given width: the state at this place
of the palette, or itself. -/
def resolve (width : Nat) (states : List BlockState) (raw : Nat) : Except StorageError BlockState :=
  if width ≤ 8 then
    match states[raw]? with
    | some state => .ok state
    | none => .error (.missingEntry raw)
  else .ok ⟨UInt32.ofNat raw⟩

theorem get_eq_rawAt {cells : PackedArray} (h : cells.bits ≤ 32) (i : Nat) :
    cells.get i = rawAt cells.bits cells.words.toList i := by
  unfold rawAt
  split
  · next hzero => simp [PackedArray.get, hzero]
  · next hpos =>
    rw [PackedArray.get_eq_div hpos h, PackedArray.wordOf, PackedArray.perWord]
    simp [Array.getD_eq_getD_getElem?, List.getD_eq_getElem?_getD]

theorem state_paletteOf (width : Nat) (states : List BlockState) (raw : Nat) :
    (paletteOf width states).state raw = resolve width states raw := by
  unfold paletteOf resolve
  split
  · cases hat : states[raw]? <;> simp [Palette.state, hat]
  · rfl

theorem length_received (globalBits : Nat) (states : List BlockState) (cells : PackedArray) :
    (received globalBits states cells).length = cells.length := by
  unfold received length
  split
  · rfl
  · exact PackedArray.length_repack ..

/-- Cells read the same in any width that is wide enough for them. -/
theorem get_received {globalBits : Nat} (hg : globalBits ≤ 32) (states : List BlockState)
    {cells : PackedArray} (hbits : cells.bits ≤ 8 ∨ (8 < cells.bits ∧ cells.bits ≤ globalBits))
    {i : Nat} (hi : i < cells.length) :
    (received globalBits states cells).get i =
      resolve cells.bits states (rawAt cells.bits cells.words.toList i) := by
  have hwide : cells.bits ≤ widened cells.bits globalBits ∧ widened cells.bits globalBits ≤ 32 := by
    unfold widened
    split <;> omega
  have hcell : (received globalBits states cells).cells.get i = cells.get i := by
    unfold received
    split
    · rfl
    · apply PackedArray.get_repack hwide.2 _ hi
      intro j _
      exact Nat.lt_of_lt_of_le (PackedArray.get_lt (by omega) j)
        (Nat.pow_le_pow_right (by decide) hwide.1)
  rw [get, hcell, get_eq_rawAt (by omega)]
  exact state_paletteOf ..

/-- **Which bytes are containers.** The decoder succeeds just on bytes that begin with bytes of the
form, and takes exactly these. Each cell of the container reads what the words store for it. -/
theorem decode_ok_iff (length : Nat) {globalBits : Nat} (hg : globalBits ≤ 32)
    (bytes : List UInt8) :
    ((∃ c rest, (decoder length globalBits).decode bytes = (.ok c, rest)) ↔
        ∃ front rest width states words,
          bytes = front ++ rest ∧ Form length globalBits front width states words) ∧
      ∀ front rest width states words,
        bytes = front ++ rest → Form length globalBits front width states words →
          ∃ c, (decoder length globalBits).decode bytes = (.ok c, rest) ∧ c.length = length ∧
            ∀ i < length, c.get i = resolve width states (rawAt width words i) := by
  have hread := decoder_recognises length globalBits
  have hform : ∀ front rest width states words,
      bytes = front ++ rest → Form length globalBits front width states words →
        ∃ c, (decoder length globalBits).decode bytes = (.ok c, rest) ∧ c.length = length ∧
          ∀ i < length, c.get i = resolve width states (rawAt width words i) := by
    rintro front rest width states words rfl hform
    have hparts := hform
    rcases hparts with ⟨hwidth, -, -, hwords⟩
    rename_i width _ _
    -- the words are as many as the cells need
    let cells : PackedArray := ⟨width.toNat, length, words.toArray, by simpa using hwords⟩
    refine ⟨received globalBits states cells, ?_, length_received .., fun i hi => ?_⟩
    · exact hread.reads ⟨states, cells, hform, show width.toNat ≤ 32 by omega, rfl, rfl⟩ rest
    · exact get_received hg states hwidth hi
  refine ⟨⟨?_, ?_⟩, hform⟩
  · rintro ⟨c, rest, hc⟩
    obtain ⟨front, rfl, states, cells, hf, -⟩ := (hread _ _ _).1 hc
    exact ⟨front, rest, _, states, _, rfl, hf⟩
  · rintro ⟨front, rest, width, states, words, hbytes, hf⟩
    obtain ⟨c, hc, -⟩ := hform front rest width states words hbytes hf
    exact ⟨c, rest, hc⟩

/-- Two cells of one bit, a palette of two states, and a byte that is left. -/
theorem decode_two : 4 ≤ 32 ∧ ∃ c,
    (decoder 2 4).decode [1, 2, 5, 7, 1, 0, 0, 0, 0, 0, 0, 0, 2, 99] = (.ok c, [99]) ∧
      c.length = 2 ∧ c.get 0 = .ok ⟨5⟩ ∧ c.get 1 = .ok ⟨7⟩ := by
  have hnat : ∀ b : UInt8, b.toNat < 128 → IsNat [b] b.toNat := fun b => isNat_byte
  have hstates : AreStates ([5, 7] : List UInt8) [⟨5⟩, ⟨7⟩] :=
    ⟨[[5], [7]], rfl, .cons (hnat 5 (by decide)) (.cons (hnat 7 (by decide)) .nil)⟩
  have hpalette : PaletteForm 1 ([2] ++ [5, 7]) [⟨5⟩, ⟨7⟩] :=
    .listed (by decide) (by decide) (hnat 2 (by decide)) (by decide) (by decide) (by decide) hstates
  have hform : Form 2 4 (1 :: (([2] ++ [5, 7]) ++ ([1] ++ [2].flatMap putLong))) 1 [⟨5⟩, ⟨7⟩] [2] :=
    .parts (.inl (by decide)) hpalette (hnat 1 (by decide)) (by decide)
  obtain ⟨c, hc, hlen, hget⟩ := (decode_ok_iff 2 (show 4 ≤ 32 by decide) _).2 _ [99] _ _ _ rfl hform
  refine ⟨by decide, c, hc, hlen, ?_, ?_⟩
  · rw [hget 0 (by decide)]
    decide
  · rw [hget 1 (by decide)]
    decide

end Container

end VoxelChunk
