/-!
# Lists of values with keys

A `Keyed` list holds values under pairwise different keys and remembers an order of them. A new
key goes to the end; a value put under a key that is there takes the place of the old one. There
are two ways to take a key out: `erase` moves up all that follow, `swapErase` fills the gap with
the last entry.

## Main definitions

* `Keyed` — the lists; that the keys differ is part of the type.
* `Keyed.find?`, `Keyed.insert`, `Keyed.erase`, `Keyed.swapErase`, `Keyed.modify`.
-/

namespace VoxelChunk

/-- Entries with pairwise different keys, in some order. -/
structure Keyed (κ β : Type) where
  entries : List (κ × β)
  nodup_keys : (entries.map Prod.fst).Nodup

namespace Keyed

variable {κ β : Type}

/-- No entries. -/
def empty : Keyed κ β := ⟨[], List.nodup_nil⟩

instance : Inhabited (Keyed κ β) := ⟨empty⟩

instance : EmptyCollection (Keyed κ β) := ⟨empty⟩

/-- The number of entries. -/
def size (m : Keyed κ β) : Nat := m.entries.length

/-- The keys, in the order of the entries. -/
def keys (m : Keyed κ β) : List κ := m.entries.map Prod.fst

/-- The values, in the order of the entries. -/
def values (m : Keyed κ β) : List β := m.entries.map Prod.snd

theorem nodup (m : Keyed κ β) : m.keys.Nodup := m.nodup_keys

/-- Every value changed by `f`, the keys staying as they are. -/
def mapValues (m : Keyed κ β) (f : κ → β → β) : Keyed κ β where
  entries := m.entries.map fun e => (e.1, f e.1 e.2)
  nodup_keys := by
    rw [List.map_map]
    exact m.nodup_keys

variable [DecidableEq κ]

/-! ### Look-ups -/

/-- The value under a key. -/
def find? (m : Keyed κ β) (k : κ) : Option β :=
  (m.entries.find? fun e => e.1 = k).map Prod.snd

/-- There is a value under the key. -/
def contains (m : Keyed κ β) (k : κ) : Bool := (m.find? k).isSome

/-! ### Changes -/

/-- The entries with the value under `k` set: in place if `k` is a key, else at the end. -/
def insertEntry (k : κ) (v : β) : List (κ × β) → List (κ × β)
  | [] => [(k, v)]
  | e :: rest => if e.1 = k then (k, v) :: rest else e :: insertEntry k v rest

theorem map_fst_insertEntry (k : κ) (v : β) (l : List (κ × β)) :
    (insertEntry k v l).map Prod.fst =
      if k ∈ l.map Prod.fst then l.map Prod.fst else l.map Prod.fst ++ [k] := by
  induction l with
  | nil => rfl
  | cons e rest ih =>
    by_cases h : e.1 = k
    · simp [insertEntry, h]
    · have h' : ¬k = e.1 := fun hk => h hk.symm
      simp only [insertEntry, h, ↓reduceIte, List.map_cons, ih, List.mem_cons, h', false_or]
      split <;> rfl

/-- Put a value under a key. -/
def insert (m : Keyed κ β) (k : κ) (v : β) : Keyed κ β where
  entries := insertEntry k v m.entries
  nodup_keys := by
    rw [map_fst_insertEntry]
    split
    · exact m.nodup_keys
    · rename_i h
      rw [List.nodup_append]
      exact ⟨m.nodup_keys, by simp, by
        intro a ha b hb hab
        rw [List.mem_singleton] at hb
        exact h (hb ▸ hab ▸ ha)⟩

/-- Take out a key, the entries after it moving up. -/
def erase (m : Keyed κ β) (k : κ) : Keyed κ β where
  entries := m.entries.filter fun e => e.1 ≠ k
  nodup_keys := m.nodup_keys.sublist (List.filter_sublist.map Prod.fst)

/-- The entries without the one under `k`, whose place the last entry takes. -/
def swapEraseEntry (k : κ) : List (κ × β) → List (κ × β)
  | [] => []
  | e :: rest =>
    if e.1 = k then
      match rest.getLast? with
      | none => []
      | some last => last :: rest.dropLast
    else e :: swapEraseEntry k rest

/-- Apart from the order of the entries, `swapEraseEntry` only takes one out. -/
theorem swapEraseEntry_perm (k : κ) (l : List (κ × β)) :
    (swapEraseEntry k l).Perm (l.eraseP fun e => e.1 = k) := by
  induction l with
  | nil => exact .nil
  | cons e rest ih =>
    by_cases h : e.1 = k
    · simp only [swapEraseEntry, h, ↓reduceIte, decide_true, List.eraseP_cons_of_pos]
      cases hr : rest.getLast? with
      | none => rw [List.getLast?_eq_none_iff.1 hr]
      | some last =>
        have hne : rest ≠ [] := by rintro rfl; simp at hr
        have hl : rest.dropLast ++ [last] = rest := by
          rw [List.getLast?_eq_some_getLast hne, Option.some.injEq] at hr
          rw [← hr, List.dropLast_concat_getLast]
        refine List.Perm.trans ?_ (List.Perm.of_eq hl)
        exact (List.perm_append_singleton last rest.dropLast).symm
    · simp only [swapEraseEntry, h, ↓reduceIte, decide_false, Bool.false_eq_true,
        not_false_eq_true, List.eraseP_cons_of_neg]
      exact ih.cons e

/-- Take out a key, the last entry moving into its place. -/
def swapErase (m : Keyed κ β) (k : κ) : Keyed κ β where
  entries := swapEraseEntry k m.entries
  nodup_keys := by
    rw [((swapEraseEntry_perm k m.entries).map Prod.fst).nodup_iff]
    exact m.nodup_keys.sublist (List.eraseP_sublist.map Prod.fst)

/-- Change the value under a key, if there is one. -/
def modify (m : Keyed κ β) (k : κ) (f : β → β) : Keyed κ β :=
  m.mapValues fun k' v => if k' = k then f v else v

/-- The map with the given entries, of which a later one replaces an earlier one. -/
def ofList (entries : List (κ × β)) : Keyed κ β :=
  entries.foldl (fun m e => m.insert e.1 e.2) empty

end Keyed

end VoxelChunk
