import Mathlib.Data.List.Perm.Basic
import VoxelChunk.Map.Keyed

/-!
# Looking up what was changed

One equation for each change of a keyed list: what is found under a key afterwards. The order of
the entries does not matter for what is found.

## Main results

* `Keyed.find?_insert`, `Keyed.find?_erase`, `Keyed.find?_swapErase`, `Keyed.find?_modify`.
* `Keyed.perm_flatMap_find?` — what is found under some keys, all together.
* `Keyed.entries_eq_nil` — a keyed list in which nothing is found is empty.
-/

namespace VoxelChunk

namespace Keyed

variable {κ β : Type} [DecidableEq κ] {m : Keyed κ β} {k : κ} {v : β}

/-- What is found is an entry, and the other way round as the keys differ. -/
theorem find?_eq_some_iff : m.find? k = some v ↔ (k, v) ∈ m.entries := by
  have key : ∀ l : List (κ × β), (l.map Prod.fst).Nodup →
      ((l.find? fun e => e.1 = k).map Prod.snd = some v ↔ (k, v) ∈ l) := by
    intro l hn
    induction l with
    | nil => simp
    | cons e rest ih =>
      obtain ⟨hnew, hrest⟩ := List.nodup_cons.1 hn
      by_cases he : e.1 = k
      · have hout : (k, v) ∉ rest := fun hmem => hnew (he ▸ List.mem_map_of_mem hmem)
        have heq : (k, v) = e ↔ e.2 = v := by
          rw [← he]
          exact ⟨fun h => by rw [← h], fun h => by rw [← h]⟩
        simp [he, hout, heq]
      · have hne : (k, v) ≠ e := fun h => he (by rw [← h])
        rw [List.find?_cons_of_neg (by simpa using he), ih hrest, List.mem_cons, or_iff_right hne]
  exact key m.entries m.nodup_keys

theorem ext_find? {m' : Keyed κ β} {k' : κ}
    (h : ∀ v, (k, v) ∈ m.entries ↔ (k', v) ∈ m'.entries) : m.find? k = m'.find? k' := by
  apply Option.ext
  intro v
  rw [find?_eq_some_iff, find?_eq_some_iff, h]

theorem contains_iff : m.contains k ↔ k ∈ m.keys := by
  unfold contains keys
  rw [Option.isSome_iff_exists, List.mem_map]
  constructor
  · rintro ⟨v, hv⟩
    exact ⟨(k, v), find?_eq_some_iff.1 hv, rfl⟩
  · rintro ⟨⟨_, v⟩, hmem, rfl⟩
    exact ⟨v, find?_eq_some_iff.2 hmem⟩

theorem mem_values_iff : v ∈ m.values ↔ ∃ k, m.find? k = some v := by
  unfold values
  rw [List.mem_map]
  constructor
  · rintro ⟨⟨k, _⟩, hmem, rfl⟩
    exact ⟨k, find?_eq_some_iff.2 hmem⟩
  · rintro ⟨k, hk⟩
    exact ⟨(k, v), find?_eq_some_iff.1 hk, rfl⟩

@[simp] theorem find?_empty : (∅ : Keyed κ β).find? k = none := rfl

theorem find?_insert (m : Keyed κ β) (k : κ) (v : β) (k' : κ) :
    (m.insert k v).find? k' = if k' = k then some v else m.find? k' := by
  have key : ∀ l : List (κ × β), ((insertEntry k v l).find? fun e => e.1 = k').map Prod.snd =
      if k' = k then some v else (l.find? fun e => e.1 = k').map Prod.snd := by
    intro l
    induction l with
    | nil => by_cases h : k = k' <;> simp [insertEntry, h, eq_comm]
    | cons e rest ih =>
      unfold insertEntry
      by_cases he : e.1 = k
      · by_cases h : k' = k
        · simp [he, h]
        · have h' : ¬k = k' := fun hk => h hk.symm
          simp [he, h, h']
      · by_cases h : e.1 = k'
        · have h' : ¬k' = k := fun hk => he (h.trans hk)
          simp [h, h']
        · simp only [he, if_false, List.find?_cons, h, decide_false, ih]
  exact key m.entries

/-- Of two values put under a key the later one stays. -/
theorem insert_insert (m : Keyed κ β) (k : κ) (old new : β) :
    (m.insert k old).insert k new = m.insert k new := by
  have key : ∀ l : List (κ × β), insertEntry k new (insertEntry k old l) = insertEntry k new l := by
    intro l
    induction l with
    | nil => simp [insertEntry]
    | cons e rest ih => by_cases h : e.1 = k <;> simp [insertEntry, h, ih]
  unfold insert
  simp only [key m.entries]

theorem find?_erase (m : Keyed κ β) (k k' : κ) :
    (m.erase k).find? k' = if k' = k then none else m.find? k' := by
  by_cases h : k' = k
  · rw [if_pos h, h]
    apply Option.eq_none_iff_forall_ne_some.2
    intro v hv
    have hmem := find?_eq_some_iff.1 hv
    simp [erase] at hmem
  · rw [if_neg h]
    apply ext_find?
    intro v
    simp [erase, h]

/-- The one entry under a key is erased. -/
private theorem not_mem_eraseP {l : List (κ × β)} (hn : (l.map Prod.fst).Nodup) :
    (k, v) ∉ l.eraseP fun e => e.1 = k := by
  induction l with
  | nil => exact List.not_mem_nil
  | cons e rest ih =>
    obtain ⟨hnew, hrest⟩ := List.nodup_cons.1 hn
    by_cases he : e.1 = k
    · rw [List.eraseP_cons_of_pos (by simpa using he)]
      exact fun hmem => hnew (he ▸ List.mem_map_of_mem hmem)
    · rw [List.eraseP_cons_of_neg (by simpa using he), List.mem_cons, not_or]
      exact ⟨fun h => he (by rw [← h]), ih hrest⟩

theorem find?_swapErase (m : Keyed κ β) (k k' : κ) :
    (m.swapErase k).find? k' = if k' = k then none else m.find? k' := by
  have hperm : ∀ e, e ∈ (m.swapErase k).entries ↔ e ∈ m.entries.eraseP fun e => e.1 = k :=
    fun e => (swapEraseEntry_perm k m.entries).mem_iff
  by_cases h : k' = k
  · rw [if_pos h, h]
    apply Option.eq_none_iff_forall_ne_some.2
    intro v hv
    exact not_mem_eraseP m.nodup_keys ((hperm _).1 (find?_eq_some_iff.1 hv))
  · rw [if_neg h]
    apply ext_find?
    intro v
    rw [hperm]
    exact List.mem_eraseP_of_neg (by simpa using h)

/-- Taking out a key that is not there changes nothing. -/
theorem swapErase_of_none (h : m.find? k = none) : m.swapErase k = m := by
  have key : ∀ l : List (κ × β), k ∉ l.map Prod.fst → swapEraseEntry k l = l := by
    intro l hl
    induction l with
    | nil => rfl
    | cons e rest ih =>
      obtain ⟨hne, hrest⟩ := not_or.1 (fun hor => hl (List.mem_cons.2 hor))
      unfold swapEraseEntry
      rw [if_neg (Ne.symm hne), ih hrest]
  have habsent : k ∉ m.entries.map Prod.fst := by
    intro hmem
    have hcontains := contains_iff.2 hmem
    unfold contains at hcontains
    rw [h] at hcontains
    cases hcontains
  unfold swapErase
  simp only [key m.entries habsent]


theorem find?_mapValues (m : Keyed κ β) (f : κ → β → β) (k : κ) :
    (m.mapValues f).find? k = (m.find? k).map (f k) := by
  have key : ∀ l : List (κ × β),
      ((l.map fun e => (e.1, f e.1 e.2)).find? fun e => e.1 = k).map Prod.snd =
        ((l.find? fun e => e.1 = k).map Prod.snd).map (f k) := by
    intro l
    induction l with
    | nil => rfl
    | cons e rest ih =>
      by_cases he : e.1 = k
      · simp [he]
      · rw [List.map_cons, List.find?_cons_of_neg (by simpa using he),
          List.find?_cons_of_neg (by simpa using he), ih]
  exact key m.entries

theorem find?_modify (m : Keyed κ β) (k : κ) (f : β → β) (k' : κ) :
    (m.modify k f).find? k' = if k' = k then (m.find? k').map f else m.find? k' := by
  unfold modify
  rw [find?_mapValues]
  by_cases h : k' = k
  · simp [h]
  · simp [h]

/-- What is found under each of some keys is, in another order, what there is under those keys. -/
theorem perm_flatMap_find? {γ : Type} (m : Keyed κ β) (f : κ → β → List γ) {ks : List κ}
    (hks : ks.Nodup) : (ks.flatMap fun k => (m.find? k).elim [] (f k)).Perm
      (m.entries.flatMap fun e => if e.1 ∈ ks then f e.1 e.2 else []) := by
  have hone : ∀ (k : κ) (l : List (κ × β)), (l.map Prod.fst).Nodup →
      l.flatMap (fun e => if e.1 = k then f e.1 e.2 else []) =
        ((l.find? fun e => e.1 = k).map Prod.snd).elim [] (f k) := by
    intro k l hn
    induction l with
    | nil => rfl
    | cons e rest ih =>
      obtain ⟨hnew, hrest⟩ := List.nodup_cons.1 hn
      by_cases he : e.1 = k
      · have hnil : rest.flatMap (fun e => if e.1 = k then f e.1 e.2 else []) = [] := by
          refine List.flatMap_eq_nil_iff.2 fun e' he' => if_neg fun heq => hnew ?_
          rw [he, ← heq]
          exact List.mem_map_of_mem he'
        rw [List.flatMap_cons, hnil, List.append_nil, if_pos he,
          List.find?_cons_of_pos (by simpa using he), ← he]
        rfl
      · rw [List.flatMap_cons, if_neg he, List.nil_append, ih hrest,
          List.find?_cons_of_neg (by simpa using he)]
  induction ks with
  | nil => simp
  | cons k ks ih =>
    obtain ⟨hnew, hrest⟩ := List.nodup_cons.1 hks
    have hsplit : ∀ e : κ × β, (if e.1 ∈ k :: ks then f e.1 e.2 else []) =
        (if e.1 = k then f e.1 e.2 else []) ++ if e.1 ∈ ks then f e.1 e.2 else [] := by
      intro e
      by_cases he : e.1 = k
      · rw [if_pos (he ▸ List.mem_cons_self), if_pos he, if_neg (he ▸ hnew), List.append_nil]
      · simp [he]
    simp only [hsplit]
    refine .trans ?_ (List.flatMap_append_perm ..)
    rw [List.flatMap_cons, hone k m.entries m.nodup_keys]
    exact (ih hrest).append_left _

/-- A keyed list in which nothing is found is empty. -/
theorem entries_eq_nil (h : ∀ k, m.find? k = none) : m.entries = [] := by
  apply List.eq_nil_iff_forall_not_mem.2
  rintro ⟨k, v⟩ hmem
  have hv := find?_eq_some_iff.2 hmem
  rw [h k] at hv
  cases hv

end Keyed

end VoxelChunk
