import VoxelChunk.Ticker

/-!
# Names of tickers

As long as the free list holds the vacant slots and nothing else, a ticker that is registered gets
a slot of its own, and what is done under one name changes nothing under the others.

## Main definitions

* `Tickers.Sound` — the free list holds the indices of the vacant slots, each once.

## Main results

* `Tickers.get?_register`, `Tickers.get?_replace`, `Tickers.get?_remove`, `Tickers.get?_modifyAt`,
  `Tickers.get?_reap` — what the names stand for after a change.
* `Tickers.Sound.register`, `Tickers.Sound.replace`, `Tickers.Sound.remove`, `Tickers.Sound.reap` —
  the invariant is kept.
-/

namespace VoxelChunk

theorem TickerHandle.eq_iff {a b : TickerHandle} :
    a = b ↔ a.index = b.index ∧ a.generation = b.generation := by
  cases a
  cases b
  simp

namespace Tickers

variable {τ : Type} {t : Tickers τ}

/-- The free list holds the indices of the vacant slots, each once. -/
structure Sound (t : Tickers τ) : Prop where
  mem_free : ∀ index : Nat,
    index ∈ t.free ↔ ∃ generation, t.slots[index]? = some ⟨generation, .vacant⟩
  nodup_free : t.free.Nodup

theorem sound_empty : Sound ({} : Tickers τ) where
  mem_free := by simp
  nodup_free := List.nodup_nil

/-! ### Names -/

/-- A name stands for the ticker in its slot while the slot is of its generation. -/
theorem get?_eq_some_iff {name : TickerHandle} {ticker : ActiveTicker τ} :
    t.get? name = some ticker ↔
      t.slots[name.index]? = some ⟨name.generation, .active ticker⟩ := by
  unfold get?
  cases hs : t.slots[name.index]? with
  | none => simp
  | some slot =>
    obtain ⟨generation, state⟩ := slot
    by_cases hg : generation = name.generation
    · cases state <;> simp [hg, SlotState.ticker?]
    · simp [hg]

theorem getElem?_setState (t : Tickers τ) (index : Nat) (state : SlotState τ) (other : Nat) :
    (t.setState index state).slots[other]? =
      if other = index then t.slots[index]?.map fun slot => { slot with state }
      else t.slots[other]? := by
  unfold setState
  rw [Array.getElem?_modify]
  by_cases h : other = index
  · rw [if_pos h, if_pos h.symm, h]
  · rw [if_neg h, if_neg (Ne.symm h)]

/-- What the names stand for once the slot of a name has another state. -/
theorem get?_setState (name : TickerHandle) {old : SlotState τ}
    (hs : t.slots[name.index]? = some ⟨name.generation, old⟩) (state : SlotState τ)
    (other : TickerHandle) :
    (t.setState name.index state).get? other =
      if other = name then state.ticker? else t.get? other := by
  unfold get?
  rw [getElem?_setState]
  by_cases hi : other.index = name.index
  · rw [if_pos hi, hi, hs, Option.map_some, Option.bind_some, Option.bind_some]
    by_cases hg : other.generation = name.generation
    · rw [if_pos (TickerHandle.eq_iff.2 ⟨hi, hg⟩), if_pos hg.symm]
    · -- a name of another generation stands for nothing
      rw [if_neg (fun h => hg (TickerHandle.eq_iff.1 h).2), if_neg (Ne.symm hg),
        if_neg (Ne.symm hg)]
  · rw [if_neg hi, if_neg (fun h => hi (TickerHandle.eq_iff.1 h).1)]

/-! ### Changes -/

/-- **A registered ticker is reached by the name given out for it**, and the other names stand for
what they stood for. -/
theorem get?_register (h : t.Sound) (ticker : ActiveTicker τ) (name : TickerHandle) :
    (t.register ticker).2.get? name =
      if name = (t.register ticker).1 then some ticker else t.get? name := by
  unfold register
  cases hfree : t.free with
  | cons index free =>
    -- a vacant slot is reused under its own generation
    obtain ⟨generation, hslot⟩ := (h.mem_free index).1 (hfree ▸ List.mem_cons_self)
    simp only [hslot, Option.map_some, Option.getD_some]
    exact get?_setState ⟨index, generation⟩ hslot (.active ticker) name
  | nil =>
    simp only
    unfold get?
    rw [Array.getElem?_push]
    by_cases hi : name.index = t.slots.size
    · rw [if_pos hi, Option.bind_some, hi, Array.getElem?_eq_none (Nat.le_refl _), Option.bind_none]
      by_cases hg : name.generation = 0
      · rw [if_pos (TickerHandle.eq_iff.2 ⟨hi, hg⟩), if_pos hg.symm]
        rfl
      · rw [if_neg (fun h => hg (TickerHandle.eq_iff.1 h).2), if_neg (Ne.symm hg)]
    · rw [if_neg hi, if_neg (fun h => hi (TickerHandle.eq_iff.1 h).1)]

/-- The name given out for a ticker stood for nothing before. -/
theorem get?_fst_register (h : t.Sound) (ticker : ActiveTicker τ) :
    t.get? (t.register ticker).1 = none := by
  unfold register
  cases hfree : t.free with
  | cons index free =>
    obtain ⟨generation, hslot⟩ := (h.mem_free index).1 (hfree ▸ List.mem_cons_self)
    unfold get?
    simp only [hslot, Option.bind_some]
    split <;> rfl
  | nil =>
    unfold get?
    rw [Array.getElem?_eq_none (Nat.le_refl _), Option.bind_none]

theorem replace_of_none {name : TickerHandle} (hn : t.get? name = none) (ticker : ActiveTicker τ) :
    t.replace name ticker = (false, t) := by
  unfold replace
  rw [hn]

theorem replace_of_some {name : TickerHandle} {old : ActiveTicker τ} (hn : t.get? name = some old)
    (ticker : ActiveTicker τ) :
    t.replace name ticker = (true, t.setState name.index (.active ticker)) := by
  unfold replace
  rw [hn]

/-- **A replaced ticker is reached by the same name**, and the other names stand for what they
stood for. -/
theorem get?_replace {name : TickerHandle} {old : ActiveTicker τ} (hn : t.get? name = some old)
    (ticker : ActiveTicker τ) (other : TickerHandle) :
    (t.replace name ticker).2.get? other = if other = name then some ticker else t.get? other := by
  rw [replace_of_some hn]
  exact get?_setState name (get?_eq_some_iff.1 hn) (.active ticker) other

/-- **A removed ticker is reached no more**, and the other names stand for what they stood for. -/
theorem get?_remove (t : Tickers τ) (name other : TickerHandle) :
    (t.remove name).2.get? other = if other = name then none else t.get? other := by
  unfold remove
  cases hn : t.get? name with
  | none =>
    by_cases h : other = name
    · rw [if_pos h, h]
      exact hn
    · rw [if_neg h]
  | some ticker => exact get?_setState name (get?_eq_some_iff.1 hn) .removed other

/-- Tickers that are removed one after another are reached no more, and the other names stand for
what they stood for. -/
theorem get?_foldl_remove (names : List TickerHandle) (t : Tickers τ) (other : TickerHandle) :
    (names.foldl (fun t name => (t.remove name).2) t).get? other =
      if other ∈ names then none else t.get? other := by
  induction names generalizing t with
  | nil => simp
  | cons name names ih =>
    rw [List.foldl_cons, ih, get?_remove]
    by_cases hmem : other ∈ names
    · rw [if_pos hmem, if_pos (List.mem_cons_of_mem name hmem)]
    · rw [if_neg hmem]
      by_cases heq : other = name
      · rw [if_pos heq, if_pos (heq ▸ List.mem_cons_self)]
      · rw [if_neg heq, if_neg (fun h => (List.mem_cons.1 h).elim heq hmem)]

/-- The ticker in a slot is the one that the names of the slot's generation stand for. -/
theorem activeAt?_eq_some_iff {index : Nat} {ticker : ActiveTicker τ} :
    t.activeAt? index = some ticker ↔
      ∃ generation, t.get? ⟨index, generation⟩ = some ticker := by
  simp only [get?_eq_some_iff]
  unfold activeAt?
  cases hs : t.slots[index]? with
  | none => simp
  | some slot =>
    obtain ⟨generation, state⟩ := slot
    cases state <;> simp [SlotState.ticker?]

/-- A ticker that is changed in its slot is reached by the same name. -/
theorem get?_modifyAt (t : Tickers τ) (index : Nat) (f : ActiveTicker τ → ActiveTicker τ)
    (name : TickerHandle) :
    (t.modifyAt index f).get? name =
      if name.index = index then (t.get? name).map f else t.get? name := by
  unfold modifyAt
  cases hat : t.activeAt? index with
  | none =>
    by_cases heq : name.index = index
    · cases hn : t.get? name with
      | none => rw [if_pos heq, Option.map_none]
      | some ticker =>
        rw [← heq, activeAt?_eq_some_iff.2 ⟨name.generation, hn⟩] at hat
        cases hat
    · rw [if_neg heq]
  | some ticker =>
    obtain ⟨generation, hget⟩ := activeAt?_eq_some_iff.1 hat
    have hset := get?_setState ⟨index, generation⟩ (get?_eq_some_iff.1 hget) (.active (f ticker)) name
    refine hset.trans ?_
    by_cases hname : name = ⟨index, generation⟩
    · rw [if_pos hname, hname, if_pos rfl, hget]
      rfl
    · rw [if_neg hname]
      by_cases heq : name.index = index
      · -- a name of another generation of the slot stands for nothing
        rw [if_pos heq]
        cases hn : t.get? name with
        | none => rfl
        | some other =>
          have hslot := get?_eq_some_iff.1 hn
          rw [heq, get?_eq_some_iff.1 hget] at hslot
          cases hslot
          exact (hname (TickerHandle.eq_iff.2 ⟨heq, rfl⟩)).elim
      · rw [if_neg heq]

theorem get?_reapAt (t : Tickers τ) (index : Nat) (name : TickerHandle) :
    (t.reapAt index).get? name = t.get? name := by
  unfold reapAt
  split
  · next generation hslot =>
    unfold get?
    rw [Array.getElem?_modify]
    by_cases heq : index = name.index
    · -- neither a removed nor a vacant slot holds a ticker
      rw [if_pos heq, ← heq, hslot]
      simp [SlotState.ticker?]
    · rw [if_neg heq]
  · rfl

/-- Reaping changes no active ticker. -/
theorem get?_reap (t : Tickers τ) (name : TickerHandle) : t.reap.2.get? name = t.get? name := by
  unfold reap
  show ((List.range t.slots.size).foldl reapAt t).get? name = t.get? name
  generalize List.range t.slots.size = indices
  induction indices generalizing t with
  | nil => rfl
  | cons index indices ih => exact (ih (t.reapAt index)).trans (get?_reapAt t index name)

/-! ### The free list -/

namespace Sound

/-- A slot that was not vacant and does not become so leaves the free list alone. -/
theorem setState (h : t.Sound) {index : Nat} {slot : TickerSlot τ}
    (hs : t.slots[index]? = some slot) (hold : slot.state ≠ .vacant) {state : SlotState τ}
    (hnew : state ≠ .vacant) : (t.setState index state).Sound where
  mem_free := by
    intro other
    rw [getElem?_setState]
    refine (h.mem_free other).trans ?_
    by_cases heq : other = index
    · rw [if_pos heq, heq, hs, Option.map_some]
      constructor
      · rintro ⟨generation, hslot⟩
        cases hslot
        exact absurd rfl hold
      · rintro ⟨generation, hslot⟩
        cases hslot
        exact absurd rfl hnew
    · rw [if_neg heq]
  nodup_free := h.nodup_free

theorem register (h : t.Sound) (ticker : ActiveTicker τ) : (t.register ticker).2.Sound := by
  unfold Tickers.register
  cases hfree : t.free with
  | cons index free =>
    have hnodup := h.nodup_free
    rw [hfree, List.nodup_cons] at hnodup
    refine ⟨fun other => ?_, hnodup.2⟩
    show other ∈ free ↔ ∃ generation,
      (t.setState index (.active ticker)).slots[other]? = some ⟨generation, .vacant⟩
    have hother := h.mem_free other
    rw [hfree, List.mem_cons] at hother
    rw [getElem?_setState]
    by_cases heq : other = index
    · -- the slot is taken, and was on the free list once only
      rw [if_pos heq, heq]
      refine iff_of_false hnodup.1 ?_
      rintro ⟨generation, hslot⟩
      obtain ⟨slot, -, hslot⟩ := Option.map_eq_some_iff.1 hslot
      cases hslot
    · rw [if_neg heq, ← hother, or_iff_right heq]
  | nil =>
    refine ⟨fun other => ?_, List.nodup_nil⟩
    have hother := h.mem_free other
    rw [hfree] at hother
    show other ∈ [] ↔ ∃ generation,
      (t.slots.push ⟨0, .active ticker⟩)[other]? = some ⟨generation, .vacant⟩
    rw [hother, Array.getElem?_push]
    by_cases heq : other = t.slots.size
    · rw [if_pos heq, heq, Array.getElem?_eq_none (Nat.le_refl _)]
      simp
    · rw [if_neg heq]

theorem replace (h : t.Sound) (name : TickerHandle) (ticker : ActiveTicker τ) :
    (t.replace name ticker).2.Sound := by
  cases hn : t.get? name with
  | none => rwa [replace_of_none hn]
  | some old =>
    rw [replace_of_some hn]
    exact h.setState (get?_eq_some_iff.1 hn) nofun nofun

theorem remove (h : t.Sound) (name : TickerHandle) : (t.remove name).2.Sound := by
  unfold Tickers.remove
  cases hn : t.get? name with
  | none => exact h
  | some old =>
    have hset : (t.setState name.index .removed).Sound :=
      h.setState (get?_eq_some_iff.1 hn) nofun nofun
    exact ⟨hset.mem_free, hset.nodup_free⟩

theorem foldl_remove (names : List TickerHandle) (h : t.Sound) :
    (names.foldl (fun t name => (t.remove name).2) t).Sound := by
  induction names generalizing t with
  | nil => exact h
  | cons name names ih => exact ih (h.remove name)

theorem modifyAt (h : t.Sound) (index : Nat) (f : ActiveTicker τ → ActiveTicker τ) :
    (t.modifyAt index f).Sound := by
  unfold Tickers.modifyAt
  cases hat : t.activeAt? index with
  | none => exact h
  | some ticker =>
    obtain ⟨generation, hget⟩ := activeAt?_eq_some_iff.1 hat
    exact h.setState (get?_eq_some_iff.1 hget) nofun nofun

theorem reapAt (h : t.Sound) (index : Nat) : (t.reapAt index).Sound := by
  unfold Tickers.reapAt
  split
  · next generation hslot =>
    -- a removed slot is not on the free list yet
    have hnew : index ∉ t.free := by
      intro hmem
      obtain ⟨_, hvacant⟩ := (h.mem_free index).1 hmem
      rw [hslot] at hvacant
      cases hvacant
    refine ⟨fun other => ?_, List.nodup_cons.2 ⟨hnew, h.nodup_free⟩⟩
    show other ∈ index :: t.free ↔ ∃ generation',
      (t.slots.modify index fun _ => ⟨generation + 1, .vacant⟩)[other]? =
        some ⟨generation', .vacant⟩
    rw [List.mem_cons, Array.getElem?_modify]
    by_cases heq : other = index
    · rw [if_pos heq.symm, heq, hslot]
      simp
    · rw [if_neg (Ne.symm heq), or_iff_right heq, h.mem_free]
  · exact h

theorem reap (h : t.Sound) : t.reap.2.Sound := by
  unfold Tickers.reap
  generalize List.range t.slots.size = indices
  show (indices.foldl Tickers.reapAt t).Sound
  induction indices generalizing t with
  | nil => exact h
  | cons index indices ih => exact ih (h.reapAt index)

end Sound

end Tickers

end VoxelChunk
