import Mathlib.Tactic.Positivity
import VoxelChunk.Listener
import VoxelChunk.Proofs.Keyed

/-!
# Looking up listeners

Listeners are known by their sources. One equation for each change tells which listener there is
for a source afterwards, and if all listeners stand in the sections of their sources, they are
exactly those that are wanted.

## Main definitions

* `Dispatcher.find?`, `Dispatchers.listener?` — the listener with a source.
* `Dispatchers.Has` — a listener stands in the dispatcher of a section.
* `Dispatchers.Hold` — the dispatchers hold exactly the listeners that are wanted.

## Main results

* `Dispatcher.find?_add`, `Dispatcher.find?_remove` — in one section.
* `Dispatchers.listener?_addListener`, `Dispatchers.listener?_removeListener` — in a whole chunk.
* `Dispatchers.Hold.addListener`, `Dispatchers.Hold.removeListener` — listeners come and go.
-/

namespace VoxelChunk

namespace Dispatcher

/-- The listener with a source. -/
def find? (d : Dispatcher) (source : BlockPos) : Option Listener :=
  d.listeners.find? fun l => l.source = source

/-- A listener takes the place of the one with its source. -/
theorem find?_replaced (listeners : List Listener) (l : Listener) (source : BlockPos) :
    (listeners.map fun other => if other.source = l.source then l else other).find?
        (fun l => l.source = source) =
      (listeners.find? fun l => l.source = source).map fun other =>
        if source = l.source then l else other := by
  have hsource : ∀ other : Listener,
      (if other.source = l.source then l else other).source = other.source := by
    intro other
    split
    · next h => exact h.symm
    · rfl
  rw [List.find?_map]
  simp only [Function.comp_def, hsource]
  cases hfound : listeners.find? fun l => l.source = source with
  | none => rfl
  | some other =>
    have hother : other.source = source := by simpa using List.find?_some hfound
    rw [Option.map_some, Option.map_some, hother]

theorem find?_add (d : Dispatcher) (l : Listener) (source : BlockPos) :
    (d.add l).find? source = if source = l.source then some l else d.find? source := by
  unfold add find?
  split
  · -- there is a listener with this source, and all such are replaced in their places
    next hthere =>
    simp only
    rw [find?_replaced]
    by_cases hs : source = l.source
    · obtain ⟨other, hmem, hother⟩ := List.any_eq_true.1 hthere
      have hfound : (d.listeners.find? fun l => l.source = source).isSome :=
        List.find?_isSome.2 ⟨other, hmem, by simpa [hs] using hother⟩
      obtain ⟨found, hfound⟩ := Option.isSome_iff_exists.1 hfound
      rw [hfound, Option.map_some, if_pos hs, if_pos hs]
    · simp only [if_neg hs, Option.map_id']
  · -- there is none, so the new one is found at the end
    next hnew =>
    simp only [List.find?_append]
    by_cases hs : source = l.source
    · have hnone : d.listeners.find? (fun l => l.source = source) = none := by
        rw [List.find?_eq_none]
        intro other hmem hother
        exact hnew (List.any_eq_true.2 ⟨other, hmem, by simpa [hs] using hother⟩)
      rw [hnone, Option.none_or, if_pos hs, List.find?_cons_of_pos (by simp [hs])]
    · rw [if_neg hs, List.find?_cons_of_neg (by simpa using Ne.symm hs), List.find?_nil,
        Option.or_none]

theorem find?_remove (d : Dispatcher) (source other : BlockPos) :
    (d.remove source).2.find? other = if other = source then none else d.find? other := by
  unfold remove find?
  simp only [List.find?_filter]
  by_cases h : other = source
  · rw [if_pos h, List.find?_eq_none]
    intro l _
    simp [h]
  · rw [if_neg h]
    congr 1
    funext l
    by_cases hl : l.source = other
    · simp [hl, h]
    · simp [hl]

end Dispatcher

namespace Dispatchers

/-- The listener with a source in the dispatcher of a section. -/
def listener? (ds : Dispatchers) (sectionY : Int) (source : BlockPos) : Option Listener :=
  (ds.find? sectionY).bind fun d => d.find? source

variable (ds : Dispatchers) (sectionY : Int)

theorem listener?_addListener (l : Listener) (sectionY' : Int) (source : BlockPos) :
    listener? (ds.addListener sectionY l) sectionY' source =
      if sectionY' = sectionY ∧ source = l.source then some l
      else listener? ds sectionY' source := by
  unfold listener? addListener
  rw [Keyed.find?_insert]
  by_cases hy : sectionY' = sectionY
  · rw [if_pos hy, Option.bind_some, Dispatcher.find?_add, hy]
    by_cases hs : source = l.source
    · rw [if_pos hs, if_pos ⟨rfl, hs⟩]
    · rw [if_neg hs, if_neg (fun h => hs h.2)]
      cases Keyed.find? ds sectionY <;> rfl
  · rw [if_neg hy, if_neg (fun h => hy h.1)]

theorem listener?_removeListener (source : BlockPos) (sectionY' : Int) (other : BlockPos) :
    listener? (ds.removeListener sectionY source).2 sectionY' other =
      if sectionY' = sectionY ∧ other = source then none else listener? ds sectionY' other := by
  unfold listener? removeListener
  cases hd : Keyed.find? ds sectionY with
  | none =>
    simp only
    by_cases h : sectionY' = sectionY ∧ other = source
    · rw [if_pos h, h.1, hd, Option.bind_none]
    · rw [if_neg h]
  | some d =>
    have hrest := d.find?_remove source other
    simp only
    -- a dispatcher without listeners is the same as none
    have hfind : ((if (d.remove source).2.isEmpty then Keyed.erase ds sectionY
        else Keyed.insert ds sectionY (d.remove source).2).find? sectionY').bind
          (fun d => d.find? other) =
        if sectionY' = sectionY then (d.remove source).2.find? other
        else (Keyed.find? ds sectionY').bind fun d => d.find? other := by
      split
      · next hempty =>
        rw [Keyed.find?_erase]
        split
        · have hnil : (d.remove source).2.listeners = [] := List.isEmpty_iff.1 hempty
          unfold Dispatcher.find?
          rw [hnil]
          rfl
        · rfl
      · rw [Keyed.find?_insert]
        split <;> rfl
    rw [hfind, hrest]
    by_cases hy : sectionY' = sectionY
    · rw [if_pos hy, hy, hd, Option.bind_some]
      by_cases hs : other = source
      · rw [if_pos hs, if_pos ⟨rfl, hs⟩]
      · rw [if_neg hs, if_neg (fun h => hs h.2)]
    · rw [if_neg hy, if_neg (fun h => hy h.1)]

/-- The listeners of a section, in the order in which they came. -/
def listenersOf (ds : Dispatchers) (sectionY : Int) : List Listener :=
  ((ds.find? sectionY).map Dispatcher.listeners).getD []

/-- One listener goes, and all others stay in their order. -/
theorem listenersOf_removeListener (source : BlockPos) (sectionY' : Int) :
    listenersOf (ds.removeListener sectionY source).2 sectionY' =
      (listenersOf ds sectionY').filter fun l => ¬(sectionY' = sectionY ∧ l.source = source) := by
  unfold listenersOf removeListener
  by_cases hy : sectionY' = sectionY
  · subst hy
    simp only [true_and, decide_not]
    cases hd : Keyed.find? ds sectionY' with
    | none => simp only [hd, Option.map_none, Option.getD_none, List.filter_nil]
    | some d =>
      have hrest : (d.remove source).2.listeners =
          d.listeners.filter fun l => !decide (l.source = source) := rfl
      simp only
      split
      · -- a dispatcher without listeners is the same as none
        next hempty =>
        rw [Keyed.find?_erase, if_pos rfl, Option.map_some, Option.getD_some, ← hrest]
        exact (List.isEmpty_iff.1 hempty).symm
      · rw [Keyed.find?_insert, if_pos rfl, Option.map_some, Option.map_some, Option.getD_some,
          Option.getD_some, hrest]
  · simp only [hy, false_and, not_false_eq_true, decide_true, List.filter_true]
    split
    · rfl
    · simp only
      split
      · rw [Keyed.find?_erase, if_neg hy]
      · rw [Keyed.find?_insert, if_neg hy]

/-- A listener that comes leaves the others in their order. -/
theorem filter_listenersOf_addListener {sources : List BlockPos} {l : Listener}
    (hl : l.source ∈ sources) (sectionY' : Int) :
    (listenersOf (ds.addListener sectionY l) sectionY').filter (·.source ∉ sources) =
      (listenersOf ds sectionY').filter (·.source ∉ sources) := by
  have hadd : ∀ d : Dispatcher, (d.add l).listeners.filter (·.source ∉ sources) =
      d.listeners.filter (·.source ∉ sources) := by
    intro d
    unfold Dispatcher.add
    split
    · -- the listener with the same source is replaced in its place
      simp only
      induction d.listeners with
      | nil => rfl
      | cons other rest ih =>
        rw [List.map_cons]
        by_cases ho : other.source = l.source
        · rw [if_pos ho, List.filter_cons_of_neg (by simpa using hl),
            List.filter_cons_of_neg (by simpa [ho] using hl), ih]
        · rw [if_neg ho, List.filter_cons, List.filter_cons, ih]
    · rw [List.filter_append, List.filter_cons_of_neg (by simpa using hl), List.filter_nil,
        List.append_nil]
  unfold listenersOf addListener
  rw [Keyed.find?_insert]
  split
  · next hy =>
    rw [Option.map_some, Option.getD_some, hadd, hy]
    cases ds.find? sectionY <;> rfl
  · rfl

/-- A listener that goes leaves the others in their order. -/
theorem filter_listenersOf_removeListener {sources : List BlockPos} {source : BlockPos}
    (hsource : source ∈ sources) (sectionY' : Int) :
    (listenersOf (ds.removeListener sectionY source).2 sectionY').filter (·.source ∉ sources) =
      (listenersOf ds sectionY').filter (·.source ∉ sources) := by
  rw [listenersOf_removeListener, List.filter_filter]
  refine List.filter_congr fun l _ => ?_
  by_cases hl : l.source = source
  · simp [hl, hsource]
  · simp [hl]

/-! ### All listeners -/

/-- The listener stands in the dispatcher of a section. -/
def Has (ds : Dispatchers) (sectionY : Int) (l : Listener) : Prop :=
  ∃ d, ds.find? sectionY = some d ∧ l ∈ d.listeners

/-- The dispatchers hold the listeners that are wanted, each once and in the section of its source,
and no others. -/
structure Hold (ds : Dispatchers) (wanted : BlockPos → Option Listener) : Prop where
  source : ∀ pos l, wanted pos = some l → l.source = pos
  has : ∀ sectionY l, ds.Has sectionY l ↔
    sectionY = sectionCoord l.source.y ∧ wanted l.source = some l
  apart : ∀ sectionY d, ds.find? sectionY = some d → (d.listeners.map Listener.source).Nodup

end Dispatchers

namespace Dispatcher

variable {d : Dispatcher} {l l' : Listener} {source : BlockPos}

theorem mem_add : l' ∈ (d.add l).listeners ↔ l' = l ∨ l' ∈ d.listeners ∧ l'.source ≠ l.source := by
  unfold add
  split
  · next hthere =>
    obtain ⟨same, hsame, hsource⟩ := List.any_eq_true.1 hthere
    have hsource : same.source = l.source := beq_iff_eq.1 hsource
    rw [List.mem_map]
    constructor
    · rintro ⟨other, hother, rfl⟩
      split
      · exact Or.inl rfl
      · next hne => exact Or.inr ⟨hother, hne⟩
    · rintro (rfl | ⟨hmem, hne⟩)
      · exact ⟨same, hsame, if_pos hsource⟩
      · exact ⟨l', hmem, if_neg hne⟩
  · next hnew =>
    have hall : l' ∈ d.listeners → l'.source ≠ l.source := fun hmem heq =>
      hnew (List.any_eq_true.2 ⟨l', hmem, beq_iff_eq.2 heq⟩)
    simp only [List.mem_append, List.mem_singleton]
    constructor
    · rintro (hmem | rfl)
      · exact Or.inr ⟨hmem, hall hmem⟩
      · exact Or.inl rfl
    · rintro (rfl | ⟨hmem, -⟩)
      · exact Or.inr rfl
      · exact Or.inl hmem

theorem mem_remove :
    l ∈ (d.remove source).2.listeners ↔ l ∈ d.listeners ∧ l.source ≠ source := by
  unfold remove
  simp

theorem nodup_add (h : (d.listeners.map Listener.source).Nodup) (l : Listener) :
    ((d.add l).listeners.map Listener.source).Nodup := by
  unfold add
  split
  · have hsource : (Listener.source ∘ fun other => if other.source = l.source then l else other) =
        Listener.source := by
      funext other
      show (if other.source = l.source then l else other).source = other.source
      split
      · next heq => exact heq.symm
      · rfl
    rw [List.map_map, hsource]
    exact h
  · next hnew =>
    rw [List.map_append, List.nodup_append]
    refine ⟨h, by simp, ?_⟩
    rintro source hsource _ hl rfl
    obtain ⟨other, hother, heq⟩ := List.mem_map.1 hsource
    rw [List.map_singleton, List.mem_singleton] at hl
    exact hnew (List.any_eq_true.2 ⟨other, hother, beq_iff_eq.2 (heq.trans hl)⟩)

theorem nodup_remove (h : (d.listeners.map Listener.source).Nodup) (source : BlockPos) :
    ((d.remove source).2.listeners.map Listener.source).Nodup :=
  h.sublist (List.filter_sublist.map _)

end Dispatcher

namespace Dispatchers

variable {ds : Dispatchers} {wanted : BlockPos → Option Listener} {sectionY sectionY' : Int}
  {l l' : Listener} {source : BlockPos}

theorem has_addListener : (ds.addListener sectionY l).Has sectionY' l' ↔
    sectionY' = sectionY ∧ l' = l ∨
      ds.Has sectionY' l' ∧ ¬(sectionY' = sectionY ∧ l'.source = l.source) := by
  unfold Has addListener
  simp only [Keyed.find?_insert]
  by_cases hy : sectionY' = sectionY
  · subst hy
    simp only [if_true, Option.some.injEq, exists_eq_left', Dispatcher.mem_add, true_and]
    cases Keyed.find? ds sectionY' with
    | none => simp
    | some d => simp
  · simp [hy]

theorem has_removeListener : (ds.removeListener sectionY source).2.Has sectionY' l ↔
    ds.Has sectionY' l ∧ ¬(sectionY' = sectionY ∧ l.source = source) := by
  unfold Has removeListener
  cases hd : Keyed.find? ds sectionY with
  | none =>
    simp only
    refine (and_iff_left_of_imp ?_).symm
    rintro ⟨d, hd', -⟩ ⟨rfl, -⟩
    rw [hd] at hd'
    cases hd'
  | some d =>
    simp only
    by_cases hy : sectionY' = sectionY
    · subst hy
      -- a dispatcher without listeners is the same as none
      have hmem : l ∈ (d.remove source).2.listeners ↔ l ∈ d.listeners ∧ l.source ≠ source :=
        Dispatcher.mem_remove
      split
      · next hempty =>
        have hnil : (d.remove source).2.listeners = [] := List.isEmpty_iff.1 hempty
        rw [hnil] at hmem
        rw [Keyed.find?_erase, hd]
        simpa using hmem
      · rw [Keyed.find?_insert, hd]
        simpa using hmem
    · split
      · simp [Keyed.find?_erase, hy]
      · simp [Keyed.find?_insert, hy]

namespace Hold

theorem addListener (h : ds.Hold wanted) (l : Listener) :
    (ds.addListener (sectionCoord l.source.y) l).Hold fun pos =>
      if pos = l.source then some l else wanted pos where
  source := by
    intro pos l' hl'
    split at hl'
    · next heq =>
      cases hl'
      exact heq.symm
    · exact h.source pos l' hl'
  has := by
    intro sectionY l'
    rw [has_addListener, h.has]
    by_cases hs : l'.source = l.source
    · rw [if_pos hs, hs, Option.some.injEq]
      constructor
      · rintro (⟨hy, rfl⟩ | ⟨⟨hy, -⟩, hne⟩)
        · exact ⟨hy, rfl⟩
        · exact absurd ⟨hy, rfl⟩ hne
      · rintro ⟨hy, rfl⟩
        exact Or.inl ⟨hy, rfl⟩
    · rw [if_neg hs]
      constructor
      · rintro (⟨-, rfl⟩ | ⟨hwanted, -⟩)
        · exact absurd rfl hs
        · exact hwanted
      · exact fun hwanted => Or.inr ⟨hwanted, fun heq => hs heq.2⟩
  apart := by
    intro sectionY d hd
    unfold Dispatchers.addListener at hd
    rw [Keyed.find?_insert] at hd
    split at hd
    · cases hd
      refine Dispatcher.nodup_add ?_ l
      cases hold : Keyed.find? ds (sectionCoord l.source.y) with
      | none => exact List.nodup_nil
      | some d => exact h.apart _ d hold
    · exact h.apart sectionY d hd

theorem removeListener (h : ds.Hold wanted) (pos : BlockPos) :
    (ds.removeListener (sectionCoord pos.y) pos).2.Hold fun q =>
      if q = pos then none else wanted q where
  source := by
    intro q l hl
    split at hl
    · cases hl
    · exact h.source q l hl
  has := by
    intro sectionY l
    rw [has_removeListener, h.has]
    by_cases hs : l.source = pos
    · rw [if_pos hs, hs]
      exact iff_of_false (fun hkept => hkept.2 ⟨hkept.1.1, rfl⟩) nofun
    · rw [if_neg hs]
      exact and_iff_left fun heq => hs heq.2
  apart := by
    intro sectionY d hd
    unfold Dispatchers.removeListener at hd
    split at hd
    · exact h.apart sectionY d hd
    · next old hold =>
      simp only at hd
      split at hd
      · rw [Keyed.find?_erase] at hd
        split at hd
        · cases hd
        · exact h.apart sectionY d hd
      · rw [Keyed.find?_insert] at hd
        split at hd
        · cases hd
          exact Dispatcher.nodup_remove (h.apart _ old hold) pos
        · exact h.apart sectionY d hd

end Hold

end Dispatchers

/-! ### Within range -/

/-- The square of the distance between two positions. -/
def BlockPos.distanceSq (p q : BlockPos) : Int := (p.x - q.x) ^ 2 + (p.y - q.y) ^ 2 + (p.z - q.z) ^ 2

/-- A difference of 32 bits is squared without an overflow. -/
theorem toInt_square {n : Int} (h : -2147483648 ≤ n ∧ n < 2147483648) :
    (Int64.ofInt (wrap32 n) * .ofInt (wrap32 n)).toInt = (n ^ 2).bmod (2 ^ 64) := by
  have hwrap : wrap32 n = n := Int.bmod_eq_of_le (by omega) (by omega)
  rw [hwrap, Int64.toInt_mul, Int64.toInt_ofInt_of_le (by omega) (by omega), pow_two]

namespace Listener

/-- Whether the position is within range is told without an overflow: the coordinates differ by
numbers of 32 bits, and the squares of the distance and of the range have 64. -/
structure Measures (l : Listener) (pos : BlockPos) : Prop where
  x : -2147483648 ≤ pos.x - l.source.x ∧ pos.x - l.source.x < 2147483648
  y : -2147483648 ≤ pos.y - l.source.y ∧ pos.y - l.source.y < 2147483648
  z : -2147483648 ≤ pos.z - l.source.z ∧ pos.z - l.source.z < 2147483648
  distance : pos.distanceSq l.source < 2 ^ 63
  range : l.range.toNat ^ 2 < 2 ^ 63

theorem Measures.toInt_lengthSq {l : Listener} {pos : BlockPos} (h : l.Measures pos) :
    (pos - l.source).lengthSq.toInt = pos.distanceSq l.source := by
  have hnonneg : 0 ≤ pos.distanceSq l.source := by
    unfold BlockPos.distanceSq
    positivity
  rw [BlockPos.lengthSq]
  simp only [Int64.toInt_add, BlockPos.sub_x, BlockPos.sub_y, BlockPos.sub_z, toInt_square h.x,
    toInt_square h.y, toInt_square h.z, Int.bmod_add_bmod, Int.add_bmod_bmod]
  have hdistance := h.distance
  show (pos.distanceSq l.source).bmod (2 ^ 64) = pos.distanceSq l.source
  exact Int.bmod_eq_of_le (by omega) (by omega)

theorem Measures.toInt_range {l : Listener} {pos : BlockPos} (h : l.Measures pos) :
    (Int64.ofNat l.range.toNat * .ofNat l.range.toNat).toInt = (l.range.toNat ^ 2 : Nat) := by
  have hrange := h.range
  rw [Int64.toInt_mul, Int64.toInt_ofNat_of_lt (by have := l.range.toNat_lt; omega),
    ← Int.natCast_mul, ← Nat.pow_two]
  exact Int.bmod_eq_of_le (by omega) (by omega)

/-- A position that is measured is heard from just if it is within range. -/
theorem Measures.accepts_eq {l : Listener} {pos : BlockPos} (h : l.Measures pos) :
    l.accepts pos = decide (pos.distanceSq l.source ≤ (l.range.toNat ^ 2 : Nat)) := by
  rw [accepts, decide_eq_decide, Int64.le_iff_toInt_le, h.toInt_lengthSq, h.toInt_range]

/-- A listener less than `2 ^ 30` away on each axis, with a range below `2 ^ 31`, measures. -/
theorem measures_of_near {l : Listener} {pos : BlockPos}
    (hx : -1073741840 < pos.x - l.source.x ∧ pos.x - l.source.x < 1073741840)
    (hy : -1073741840 < pos.y - l.source.y ∧ pos.y - l.source.y < 1073741840)
    (hz : -1073741840 < pos.z - l.source.z ∧ pos.z - l.source.z < 1073741840)
    (hrange : l.range.toNat < 2147483648) : l.Measures pos := by
  have hsquare : ∀ n : Int, -1073741840 < n ∧ n < 1073741840 → n ^ 2 ≤ 1073741840 ^ 2 :=
    fun n hn => sq_le_sq' (by omega) (by omega)
  refine ⟨by omega, by omega, by omega, ?_, ?_⟩
  · have hdx := hsquare _ hx
    have hdy := hsquare _ hy
    have hdz := hsquare _ hz
    unfold BlockPos.distanceSq
    omega
  · exact (Nat.pow_lt_pow_left hrange (by decide)).trans_le (by decide)

end Listener

end VoxelChunk
