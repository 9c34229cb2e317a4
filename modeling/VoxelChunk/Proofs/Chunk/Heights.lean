import VoxelChunk.Proofs.Chunk.Blocks
import VoxelChunk.Proofs.Heightmap

/-!
# The heightmaps of a chunk

A scan of a column from the top passes over sections that hold only air, and the heightmaps follow
writes one block at a time. Both find the surface of the column, for all kinds of heightmaps that
do not count air.

## Main definitions

* `Heightmap.OnSurface` — a heightmap has the surface of every column.
* `HeightmapKind.scanned`, `HeightmapKind.tell` — what becomes of one heightmap.
* `Config.FittingHeightmaps` — each live kind has a heightmap, with cells as the world asks for.

## Main results

* `scanColumn_spec` — a scan finds the surface.
* `onSurface_scanned`, `onSurface_tell` — heightmaps get to the surfaces and stay there.
* `Chunk.populateHeightmaps_eq`, `Site.trackHeightmaps_eq` — what becomes of all heightmaps.
* `Chunk.highestPoint_spec` — the greatest height of a column.
-/

namespace VoxelChunk

/-! ### Scans -/

section Scan

variable {facts : BlockFacts} {globalBits : Nat} {x z : Int} {counts : BlockState → Bool}

theorem topLayer?_elim {s : Section} (h : s.Sound facts globalBits) (n : Nat) :
    (topLayer? s x z counts n).elim 0 (fun layer => (layer : Int) + 1) =
      topBelow 0 (fun y => counts (s.stateAt ⟨x, y, z⟩)) n := by
  induction n with
  | zero => rfl
  | succ n ih =>
    unfold topLayer? topBelow
    rw [h.get_eq, Int.zero_add]
    simp only
    split
    · rfl
    · exact ih

end Scan

section ScanColumn

variable {α τ : Type} {cfg : Config α τ} {sections : Sections} {counts : BlockState → Bool}
  (h : cfg.SoundSections sections) (hcounts : ∀ state, cfg.facts.isAir state → counts state = false)
  (hair : cfg.facts.isAir .air)
include h hcounts hair

/-- The topmost block that counts in one section. -/
theorem isSurface_section (x z : Int) {index : Nat} (hi : index < cfg.height.sectionCount) :
    IsSurface (cfg.height.bottom + 16 * index) (cfg.height.bottom + 16 * index + 16)
      (fun y => counts (columnState sections cfg.height x y z))
      (cfg.height.bottom + 16 * index +
        ((sections[index]?.join.filter fun s => !s.isEmpty).bind fun s =>
          topLayer? s x z counts 16).elim 0 fun layer => (layer : Int) + 1) := by
  have hindex : ∀ y, cfg.height.bottom + 16 * index ≤ y →
      y < cfg.height.bottom + 16 * index + 16 → cfg.height.sectionIndex? y = some index := by
    intro y h₁ h₂
    have := cfg.height.bottom_aligned
    exact HeightLimit.sectionIndex?_eq_some_iff.2 ⟨hi, by omega⟩
  -- without blocks that count there is nothing to be found
  have hnone : (∀ y, cfg.height.bottom + 16 * index ≤ y →
      y < cfg.height.bottom + 16 * index + 16 →
        counts (columnState sections cfg.height x y z) = false) →
      IsSurface (cfg.height.bottom + 16 * index) (cfg.height.bottom + 16 * index + 16)
        (fun y => counts (columnState sections cfg.height x y z))
        (cfg.height.bottom + 16 * index + 0) := by
    intro hclear
    rw [Int.add_zero]
    exact ⟨Or.inl rfl, hclear⟩
  cases hs : sections[index]?.join with
  | none =>
    apply hnone
    intro y h₁ h₂
    rw [columnState_of_absent (hindex y h₁ h₂) hs, hcounts _ hair]
  | some s =>
    have hsound := h.sound index s hs
    cases he : s.isEmpty with
    | true =>
      rw [Option.filter_some, he]
      apply hnone
      intro y h₁ h₂
      rw [columnState_of_section (hindex y h₁ h₂) hs]
      exact hcounts _ (hsound.stateAt_of_isEmpty he _)
    | false =>
      rw [Option.filter_some, he]
      simp only [Bool.not_false, if_true, Option.bind_some]
      rw [topLayer?_elim hsound]
      have hsurface := (isSurface_topBelow 0 (fun y => counts (s.stateAt ⟨x, y, z⟩)) 16).shift
        (cfg.height.bottom + 16 * index)
      rw [Int.add_zero, Int.zero_add] at hsurface
      refine hsurface.congr ?_
      intro y h₁ h₂
      -- the section starts at a multiple of its height, so heights within it name the same cells
      have hcell : cellIndex ⟨x, y - (cfg.height.bottom + 16 * index), z⟩ = cellIndex ⟨x, y, z⟩ := by
        have := cfg.height.bottom_aligned
        refine cellIndex_eq_iff.2 ⟨rfl, ?_, rfl⟩
        show (y - (cfg.height.bottom + 16 * index)) % 16 = y % 16
        omega
      rw [columnState_of_section (hindex y h₁ h₂) hs]
      unfold Section.stateAt
      rw [hcell]

variable (hrange : cfg.height.InRange)
include hrange

theorem scanSections_spec (x z : Int) {n : Nat} (hn : n ≤ cfg.height.sectionCount) :
    IsSurface cfg.height.bottom (cfg.height.bottom + 16 * n)
      (fun y => counts (columnState sections cfg.height x y z))
      (scanSections sections cfg.height x z counts n) := by
  induction n with
  | zero => exact ⟨Or.inl rfl, fun y h₁ h₂ => by simp only [scanSections] at h₁; omega⟩
  | succ n ih =>
    have hbelow := ih (Nat.le_of_succ_le hn)
    have hsection := isSurface_section h hcounts hair x z hn
    have hboth := hbelow.append hsection (by omega) (by omega)
    rw [show cfg.height.bottom + 16 * (n : Int) + 16 = cfg.height.bottom + 16 * (n + 1 : Nat) by
      omega] at hboth
    unfold scanSections
    split at hboth
    · next heq =>
      -- the section has nothing that counts: what was found below stands
      split
      · next layer hlayer =>
        rw [hlayer, Option.elim_some] at heq
        omega
      · exact hboth
    · next hne =>
      split
      · next layer hlayer =>
        rw [hlayer, Option.elim_some] at hboth
        rw [hrange.minY_eq hn]
        rwa [Int.add_assoc]
      · next hlayer =>
        rw [hlayer, Option.elim_none] at hne
        omega

/-- **A scan finds the surface.** -/
theorem scanColumn_spec (x z : Int) :
    IsSurface cfg.height.bottom (cfg.height.bottom + cfg.height.height)
      (fun y => counts (columnState sections cfg.height x y z))
      (scanColumn sections cfg.height x z counts) := by
  have hscan := scanSections_spec h hcounts hair hrange x z (Nat.le_refl _)
  have hheight : (16 : Int) * cfg.height.sectionCount = cfg.height.height := by
    have := cfg.height.height_aligned
    unfold HeightLimit.sectionCount
    omega
  rw [hheight] at hscan
  unfold scanColumn
  rwa [h.size]

end ScanColumn

/-! ### All columns -/

theorem mem_columns {x z : Int} : (x, z) ∈ columns ↔ (0 ≤ x ∧ x < 16) ∧ 0 ≤ z ∧ z < 16 := by
  simp only [columns, List.mem_flatMap, List.mem_map, mem_span, Prod.mk.injEq]
  constructor
  · rintro ⟨x', hx, z', hz, rfl, rfl⟩
    omega
  · intro h
    exact ⟨x, by omega, z, by omega, rfl, rfl⟩

/-- The greatest of a list of heights is not below any of them, and is one of them. -/
theorem foldl_max_spec {β : Type} (f : β → Int) (l : List β) (a : Int) :
    (∀ c ∈ l, f c ≤ l.foldl (fun m c => max m (f c)) a) ∧
      a ≤ l.foldl (fun m c => max m (f c)) a ∧
      (l.foldl (fun m c => max m (f c)) a = a ∨
        ∃ c ∈ l, l.foldl (fun m c => max m (f c)) a = f c) := by
  induction l generalizing a with
  | nil => exact ⟨fun c hc => absurd hc List.not_mem_nil, Int.le_refl _, Or.inl rfl⟩
  | cons b l ih =>
    obtain ⟨ih₁, ih₂, ih₃⟩ := ih (max a (f b))
    rw [List.foldl_cons]
    refine ⟨?_, by omega, ?_⟩
    · intro c hc
      rcases List.mem_cons.1 hc with rfl | hc
      · omega
      · exact ih₁ c hc
    · rcases ih₃ with heq | ⟨c, hc, heq⟩
      · by_cases hab : f b ≤ a
        · exact Or.inl (by omega)
        · exact Or.inr ⟨b, List.mem_cons_self, by omega⟩
      · exact Or.inr ⟨c, List.mem_cons_of_mem b hc, heq⟩

/-- A heightmap has the surface of every column, `counts` telling which blocks count. -/
structure Heightmap.OnSurface (limit : HeightLimit) (sections : Sections)
    (counts : BlockState → Bool) (h : Heightmap) : Prop where
  fits : h.Fits limit
  surface : ∀ x z, IsSurface limit.bottom (limit.bottom + limit.height)
    (fun y => counts (columnState sections limit x y z)) (h.get x z)

section Populate

variable {limit : HeightLimit} {sections : Sections} {counts : BlockState → Bool} {h : Heightmap}

/-- Columns are set to their surfaces one after another. -/
theorem surface_foldl_set (hsize : limit.height < 2147483648) {scan : Int → Int → Int}
    (hscan : ∀ x z, IsSurface limit.bottom (limit.bottom + limit.height)
      (fun y => counts (columnState sections limit x y z)) (scan x z))
    (l : List (Int × Int)) (hf : h.Fits limit) (hcover : ∀ x z,
      (∃ c ∈ l, Heightmap.columnIndex x z = Heightmap.columnIndex c.1 c.2) ∨
        IsSurface limit.bottom (limit.bottom + limit.height)
          (fun y => counts (columnState sections limit x y z)) (h.get x z)) :
    (l.foldl (fun h (x, z) => h.set x z (scan x z)) h).OnSurface limit sections counts := by
  induction l generalizing h with
  | nil =>
    refine ⟨hf, fun x z => ?_⟩
    rcases hcover x z with ⟨c, hc, -⟩ | hs
    · exact absurd hc List.not_mem_nil
    · exact hs
  | cons c l ih =>
    obtain ⟨x₀, z₀⟩ := c
    have hs₀ := hscan x₀ z₀
    refine ih (hf.set ..) fun x z => ?_
    rw [Heightmap.get_set hf hsize hs₀.bottom_le (hs₀.le_top (by omega))]
    by_cases heq : Heightmap.columnIndex x z = Heightmap.columnIndex x₀ z₀
    · -- this column has just been set, and later ones do not undo it
      obtain ⟨hx, hz⟩ := columnIndex_eq_iff.1 heq
      refine Or.inr ?_
      rw [if_pos heq]
      refine hs₀.congr fun y _ _ => ?_
      rw [columnState_congr hx hz]
    · rw [if_neg heq]
      rcases hcover x z with ⟨c, hc, hcol⟩ | hs
      · rcases List.mem_cons.1 hc with rfl | hc
        · exact absurd hcol heq
        · exact Or.inl ⟨c, hc, hcol⟩
      · exact Or.inr hs

end Populate

/-! ### All heightmaps of a chunk -/

/-- The heightmap in one place changed, if there is one. -/
def changeSlot (f : HeightmapKind → Heightmap → Heightmap) (slots : Array (Option Heightmap))
    (entry : HeightmapKind × Nat) : Array (Option Heightmap) :=
  match slots[entry.2]?.join with
  | none => slots
  | some h => slots.setIfInBounds entry.2 (some (f entry.1 h))

section Slots

variable {f : HeightmapKind → Heightmap → Heightmap}

@[simp] theorem size_changeSlot (slots : Array (Option Heightmap)) (entry : HeightmapKind × Nat) :
    (changeSlot f slots entry).size = slots.size := by
  unfold changeSlot
  split
  · rfl
  · exact Array.size_setIfInBounds

theorem join_changeSlot (slots : Array (Option Heightmap)) (entry : HeightmapKind × Nat)
    (number : Nat) :
    (changeSlot f slots entry)[number]?.join =
      if number = entry.2 then slots[number]?.join.map (f entry.1) else slots[number]?.join := by
  unfold changeSlot
  cases hs : slots[entry.2]?.join with
  | none =>
    by_cases heq : number = entry.2
    · rw [if_pos heq, heq, hs, Option.map_none]
    · rw [if_neg heq]
  | some h =>
    have hlt : entry.2 < slots.size := by
      by_cases hlt : entry.2 < slots.size
      · exact hlt
      · rw [Array.getElem?_eq_none (by omega)] at hs
        cases hs
    rw [join_setIfInBounds hlt]
    by_cases heq : number = entry.2
    · rw [if_pos heq, if_pos heq, heq, hs, Option.map_some]
    · rw [if_neg heq, if_neg heq]

theorem size_foldl_changeSlot (entries : List (HeightmapKind × Nat))
    (slots : Array (Option Heightmap)) :
    (entries.foldl (changeSlot f) slots).size = slots.size := by
  induction entries generalizing slots with
  | nil => rfl
  | cons entry entries ih => rw [List.foldl_cons, ih, size_changeSlot]

/-- Changing the heightmaps of all kinds in turn changes each once. -/
theorem join_foldl_changeSlot (kinds : List HeightmapKind) (first : Nat)
    (slots : Array (Option Heightmap)) (number : Nat) :
    ((kinds.zipIdx first).foldl (changeSlot f) slots)[number]?.join =
      if number < first then slots[number]?.join
      else slots[number]?.join.map fun h => kinds[number - first]?.elim h fun kind => f kind h := by
  induction kinds generalizing first slots with
  | nil => simp
  | cons kind kinds ih =>
    rw [List.zipIdx_cons, List.foldl_cons, ih, join_changeSlot]
    rcases Nat.lt_trichotomy number first with hlt | rfl | hlt
    · rw [if_pos (by omega), if_pos hlt, if_neg (by omega)]
    · simp
    · rw [if_neg (by omega), if_neg (by omega), if_neg (by omega),
        show number - first = number - (first + 1) + 1 by omega, List.getElem?_cons_succ]

/-- What becomes of the heightmap of one kind when all are changed in turn. -/
theorem join_changeSlots {kinds : List HeightmapKind} {number : Nat} {kind : HeightmapKind}
    (hkind : kinds[number]? = some kind) (slots : Array (Option Heightmap)) :
    (kinds.zipIdx.foldl (changeSlot f) slots)[number]?.join =
      slots[number]?.join.map (f kind) := by
  rw [join_foldl_changeSlot, if_neg (Nat.not_lt_zero _), Nat.sub_zero, hkind]
  rfl

end Slots

variable {α τ : Type}

/-- The heightmap of a kind once all columns have been scanned. -/
def HeightmapKind.scanned (kind : HeightmapKind) (cfg : Config α τ) (sections : Sections)
    (h : Heightmap) : Heightmap :=
  columns.foldl (fun h (x, z) =>
    h.set x z (scanColumn sections cfg.height x z (kind.counts cfg.facts))) h

/-- Tell the heightmap of a kind that a block has got the given state. -/
def HeightmapKind.tell (kind : HeightmapKind) (cfg : Config α τ) (sections : Sections)
    (pos : BlockPos) (state : BlockState) (h : Heightmap) : Bool × Heightmap :=
  h.track (pos.x % 16) pos.y (pos.z % 16) (kind.counts cfg.facts state) fun y =>
    kind.counts cfg.facts (columnState sections cfg.height (pos.x % 16) y (pos.z % 16))

/-- The heightmaps of a chunk once all have been told that a block has got the given state. -/
def toldHeightmaps (cfg : Config α τ) (sections : Sections) (pos : BlockPos) (state : BlockState)
    (slots : Array (Option Heightmap)) : Array (Option Heightmap) :=
  cfg.heightmaps.zipIdx.foldl (changeSlot fun kind h => (kind.tell cfg sections pos state h).2) slots

theorem size_toldHeightmaps (cfg : Config α τ) (sections : Sections) (pos : BlockPos)
    (state : BlockState) (slots : Array (Option Heightmap)) :
    (toldHeightmaps cfg sections pos state slots).size = slots.size :=
  size_foldl_changeSlot _ slots

theorem join_toldHeightmaps {cfg : Config α τ} {number : Nat} {kind : HeightmapKind}
    (hkind : cfg.heightmaps[number]? = some kind) (sections : Sections) (pos : BlockPos)
    (state : BlockState) (slots : Array (Option Heightmap)) :
    (toldHeightmaps cfg sections pos state slots)[number]?.join =
      slots[number]?.join.map fun h => (kind.tell cfg sections pos state h).2 :=
  join_changeSlots hkind slots

/-- Scans of all columns for all heightmaps of a chunk. -/
theorem Chunk.populateHeightmaps_eq (c : Chunk α) (cfg : Config α τ) :
    c.populateHeightmaps cfg =
      { c with
        heightmaps := cfg.heightmaps.zipIdx.foldl
          (changeSlot fun kind h => kind.scanned cfg c.sections h) c.heightmaps } := by
  -- the scans look at the sections only, which stay as they are
  refine List.foldl_hom (fun slots => ({ c with heightmaps := slots } : Chunk α)) ?_
  rintro slots ⟨kind, number⟩
  simp only [changeSlot, heightmap?]
  cases slots[number]?.join <;> rfl

theorem Chunk.sections_populate (c : Chunk α) (cfg : Config α τ) :
    (c.populateHeightmaps cfg).sections = c.sections := by
  rw [populateHeightmaps_eq]

/-- A chunk has the same heightmaps after the scans, with the heights found by them. -/
theorem Chunk.heightmaps_populate (c : Chunk α) (cfg : Config α τ) {number : Nat}
    {kind : HeightmapKind} (hkind : cfg.heightmaps[number]? = some kind) :
    (c.populateHeightmaps cfg).heightmaps[number]?.join =
      c.heightmaps[number]?.join.map fun h => kind.scanned cfg c.sections h := by
  rw [populateHeightmaps_eq]
  exact join_changeSlots hkind c.heightmaps

theorem Site.foldl_trackHeightmap (s : Site α τ) (cfg : Config α τ) (pos : BlockPos)
    (state : BlockState) (entries : List (HeightmapKind × Nat)) (slots : Array (Option Heightmap))
    (notices : Array Notice) :
    ∃ notices', entries.foldl (fun (s : Site α τ) (kind, number) =>
        s.trackHeightmap cfg (pos.x % 16) pos.y (pos.z % 16) state kind number)
        { chunk := { s.chunk with heightmaps := slots }, level := { s.level with notices } } =
      { chunk := { s.chunk with
          heightmaps := entries.foldl
            (changeSlot fun kind h => (kind.tell cfg s.chunk.sections pos state h).2) slots }
        level := { s.level with notices := notices' } } := by
  induction entries generalizing slots notices with
  | nil => exact ⟨notices, rfl⟩
  | cons entry entries ih =>
    obtain ⟨kind, number⟩ := entry
    simp only [List.foldl_cons, trackHeightmap, changeSlot, Chunk.heightmap?]
    cases slots[number]?.join with
    | none => exact ih slots notices
    | some h =>
      simp only
      split <;> exact ih _ _

/-- What becomes of the heightmaps of a chunk when a block changes. Only notices are added to the
level. -/
theorem Site.trackHeightmaps_eq (s : Site α τ) (cfg : Config α τ) (pos : BlockPos)
    (state : BlockState) :
    ∃ notices, s.trackHeightmaps cfg pos state =
      { chunk := { s.chunk with
          heightmaps := toldHeightmaps cfg s.chunk.sections pos state s.chunk.heightmaps }
        level := { s.level with notices } } :=
  foldl_trackHeightmap s cfg pos state cfg.heightmaps.zipIdx s.chunk.heightmaps s.level.notices

section OnSurface

variable {cfg : Config α τ} {sections : Sections} {kind : HeightmapKind} {h : Heightmap}
  (hrange : cfg.height.InRange)
include hrange

/-- Scans find the surfaces. -/
theorem onSurface_scanned (hsections : cfg.SoundSections sections)
    (hcounts : ∀ state, cfg.facts.isAir state → kind.counts cfg.facts state = false)
    (hair : cfg.facts.isAir .air) (hf : h.Fits cfg.height) :
    (kind.scanned cfg sections h).OnSurface cfg.height sections (kind.counts cfg.facts) := by
  refine surface_foldl_set hrange.height_lt
    (scanColumn_spec hsections hcounts hair hrange) columns hf ?_
  intro x z
  refine Or.inl ⟨(x % 16, z % 16), mem_columns.2 (by omega), columnIndex_eq_iff.2 ?_⟩
  simp only [Int.emod_emod]
  exact ⟨trivial, trivial⟩

/-- A heightmap that is told about a changed block stays on the surfaces. -/
theorem onSurface_tell {before : Sections} {pos : BlockPos} {state : BlockState}
    (hs : h.OnSurface cfg.height before (kind.counts cfg.facts))
    (hlo : cfg.height.bottom ≤ pos.y) (hhi : pos.y < cfg.height.bottom + cfg.height.height)
    (hset : before.Replaced cfg.height pos state sections) :
    (kind.tell cfg sections pos state h).2.OnSurface cfg.height sections (kind.counts cfg.facts) := by
  have hat : columnState sections cfg.height (pos.x % 16) pos.y (pos.z % 16) = state := by
    rw [hset, if_pos]
    simp only [Int.emod_emod]
    exact ⟨trivial, trivial, trivial⟩
  have hothers : ∀ y, y ≠ pos.y →
      kind.counts cfg.facts (columnState sections cfg.height (pos.x % 16) y (pos.z % 16)) =
        kind.counts cfg.facts (columnState before cfg.height (pos.x % 16) y (pos.z % 16)) := by
    intro y hy
    rw [hset, if_neg (fun hc => hy hc.2.1)]
  obtain ⟨hf, hsurface, hother⟩ := Heightmap.track_spec hs.fits hrange.height_lt
    (hs.surface (pos.x % 16) (pos.z % 16)) hlo hhi hothers
  rw [hat] at hf hsurface hother
  unfold HeightmapKind.tell
  refine ⟨hf, fun x z => ?_⟩
  by_cases heq : Heightmap.columnIndex x z = Heightmap.columnIndex (pos.x % 16) (pos.z % 16)
  · -- the column of the changed block, by whichever of its coordinates
    obtain ⟨hx, hz⟩ := columnIndex_eq_iff.1 heq
    rw [Heightmap.get_congr heq]
    refine hsurface.congr fun y _ _ => ?_
    rw [columnState_congr hx hz]
  · rw [hother x z heq]
    refine (hs.surface x z).congr fun y _ _ => ?_
    rw [hset, if_neg]
    rintro ⟨hx, -, hz⟩
    exact heq (columnIndex_eq_iff.2 (by omega))

end OnSurface

/-- **The greatest height of a column**, as found by scanning all of them. -/
theorem Chunk.highestPoint_spec {cfg : Config α τ} {c : Chunk α} {number : Nat}
    {kind : HeightmapKind} (hkind : cfg.heightmaps[number]? = some kind)
    (hsections : cfg.SoundSections c.sections)
    (hcounts : ∀ state, cfg.facts.isAir state → kind.counts cfg.facts state = false)
    (hair : cfg.facts.isAir .air) (hrange : cfg.height.InRange) {height : Int → Int → Int}
    (hheight : ∀ x z, IsSurface cfg.height.bottom (cfg.height.bottom + cfg.height.height)
      (fun y => kind.counts cfg.facts (columnState c.sections cfg.height x y z)) (height x z)) :
    (∀ x z, 0 ≤ x → x < 16 → 0 ≤ z → z < 16 → height x z ≤ c.highestPoint cfg number) ∧
      ∃ x z, (0 ≤ x ∧ x < 16) ∧ (0 ≤ z ∧ z < 16) ∧ c.highestPoint cfg number = height x z := by
  have hscan : ∀ x z, scanColumn c.sections cfg.height x z (kind.counts cfg.facts) = height x z :=
    fun x z => (scanColumn_spec hsections hcounts hair hrange x z).unique (hheight x z)
  unfold highestPoint
  simp only [hkind, hscan]
  obtain ⟨hall, hbottom, hone⟩ :=
    foldl_max_spec (fun c : Int × Int => height c.1 c.2) columns cfg.height.bottom
  refine ⟨fun x z hx₁ hx₂ hz₁ hz₂ => hall (x, z) (mem_columns.2 ⟨⟨hx₁, hx₂⟩, hz₁, hz₂⟩), ?_⟩
  rcases hone with heq | ⟨⟨x, z⟩, hmem, heq⟩
  · -- no column is below the bottom, so all are at it
    have hle := hall (0, 0) (mem_columns.2 (by omega))
    rw [heq] at hle
    refine ⟨0, 0, by omega, by omega, heq.trans ?_⟩
    exact Int.le_antisymm (hheight 0 0).bottom_le hle
  · obtain ⟨hx, hz⟩ := mem_columns.1 hmem
    exact ⟨x, z, hx, hz, heq⟩

/-! ### Heightmaps that fit their world -/

/-- There is a heightmap for each live kind, with cells as the world asks for. -/
def Config.FittingHeightmaps (cfg : Config α τ) (slots : Array (Option Heightmap)) : Prop :=
  ∀ (number : Nat) (kind : HeightmapKind), cfg.heightmaps[number]? = some kind → kind.isLive →
    ∃ h, slots[number]?.join = some h ∧ h.Fits cfg.height

theorem Config.FittingHeightmaps.told {cfg : Config α τ} {slots : Array (Option Heightmap)}
    (h : cfg.FittingHeightmaps slots) (sections : Sections) (pos : BlockPos) (state : BlockState) :
    cfg.FittingHeightmaps (toldHeightmaps cfg sections pos state slots) := by
  intro number kind hkind hlive
  obtain ⟨hm, hslot, hf⟩ := h number kind hkind hlive
  refine ⟨(kind.tell cfg sections pos state hm).2, ?_, hf.track ..⟩
  rw [join_toldHeightmaps hkind, hslot, Option.map_some]

namespace Chunk

variable {cfg : Config α τ} {init : ChunkInit α}

theorem sections_new (h : init.sections = none) :
    (new cfg init).sections = Array.replicate cfg.height.sectionCount none := by
  apply Array.ext
  · simp [new]
  · intro i h₁ h₂
    simp [new, h]

/-- A new chunk has a flat heightmap for each live kind. -/
theorem heightmaps_new (number : Nat) :
    (new cfg init).heightmaps[number]?.join =
      (cfg.heightmaps[number]?.filter HeightmapKind.isLive).map fun _ => .flat cfg.height := by
  simp only [new, List.getElem?_toArray, List.getElem?_map]
  cases cfg.heightmaps[number]? with
  | none => rfl
  | some kind =>
    cases hl : kind.isLive <;> simp [hl, Option.filter_some]

theorem fittingHeightmaps_new (init : ChunkInit α) :
    cfg.FittingHeightmaps (new cfg init).heightmaps := by
  intro number kind hkind hlive
  refine ⟨.flat cfg.height, ?_, Heightmap.fits_flat _⟩
  rw [heightmaps_new, hkind, Option.filter_some, if_pos hlive, Option.map_some]

end Chunk

end VoxelChunk
