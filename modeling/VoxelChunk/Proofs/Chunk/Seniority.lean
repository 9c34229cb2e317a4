import Mathlib.Data.List.DropRight
import VoxelChunk.Proofs.Chunk.Lookup

/-!
# In which order a chunk lists its block entities

Each block entity gets a serial when it is installed, and a chunk lists its entities in an order of
its own. A new entity is listed last, or in the place of the one that it replaces. When an entity
leaves, the last one takes its place. So the list is in the order of installation as long as no
entity leaves that has more than one behind it, none is replaced but the last, and the serials do
not come round.

## Main definitions

* `Chunk.serials`, `Chunk.Chronological` — the list, and that it is in order.
* `Chunk.Spares` — all but the last few of the entities are still there.
* `Chunk.Leaves`, `Chunk.Enters` — all that can become of the list when an entity leaves or comes.
* `Site.WritesInTurn` — a write, with all that blocks do in reaction, keeps to what is said above.

## Main results

* `Chunk.Leaves.increasing_iff`, `Chunk.Enters.increasing_iff` — exactly when one step keeps the
  order.
* `Site.leaves_removeEntity`, `Site.enters_addEntity`, `Site.leaves_enters_getEntity` — operations
  as such steps.
* `Site.WritesInTurn.ages` — a write in turn keeps the order, however deep reactions are nested.
-/

namespace VoxelChunk

variable {α τ : Type}

/-! ### The order of entries -/

namespace Keyed

variable {κ β : Type} [DecidableEq κ]

/-- What taking a key out does to the order of the entries: the last one takes its place. -/
theorem entries_swapErase (m : Keyed κ β) (k : κ) : (m.swapErase k).entries = m.entries ∨
    (∃ before e, m.entries = before ++ [e] ∧ (m.swapErase k).entries = before) ∨
    ∃ before e between last, m.entries = before ++ e :: (between ++ [last]) ∧
      (m.swapErase k).entries = before ++ last :: between := by
  have key : ∀ l : List (κ × β), swapEraseEntry k l = l ∨
      (∃ before e, l = before ++ [e] ∧ swapEraseEntry k l = before) ∨
      ∃ before e between last, l = before ++ e :: (between ++ [last]) ∧
        swapEraseEntry k l = before ++ last :: between := by
    intro l
    induction l with
    | nil => exact .inl rfl
    | cons e rest ih =>
      unfold swapEraseEntry
      by_cases he : e.1 = k
      · rw [if_pos he]
        rcases List.eq_nil_or_concat rest with rfl | ⟨between, last, rfl⟩
        · exact .inr (.inl ⟨[], e, rfl, rfl⟩)
        · rw [List.concat_eq_append, List.getLast?_concat, List.dropLast_concat]
          exact .inr (.inr ⟨[], e, between, last, rfl, rfl⟩)
      · rw [if_neg he]
        rcases ih with hsame | ⟨before, e', hrest, hgone⟩ |
          ⟨before, e', between, last, hrest, hplace⟩
        · exact .inl (by rw [hsame])
        · exact .inr (.inl ⟨e :: before, e', by rw [hrest]; rfl, by rw [hgone]⟩)
        · exact .inr (.inr ⟨e :: before, e', between, last, by rw [hrest]; rfl,
            by rw [hplace]; rfl⟩)
  exact key m.entries

/-- A new key is put last. -/
theorem entries_insert_of_none {m : Keyed κ β} {k : κ} (h : m.find? k = none) (v : β) :
    (m.insert k v).entries = m.entries ++ [(k, v)] := by
  have key : ∀ l : List (κ × β), (∀ e ∈ l, e.1 ≠ k) → insertEntry k v l = l ++ [(k, v)] := by
    intro l hl
    induction l with
    | nil => rfl
    | cons e rest ih =>
      rw [List.forall_mem_cons] at hl
      rw [insertEntry, if_neg hl.1, ih hl.2, List.cons_append]
  refine key m.entries fun e he hk => ?_
  rw [find?_eq_some_iff.2 (hk ▸ he : (k, e.2) ∈ m.entries)] at h
  cases h

/-- A value is put last, or in the place of another one. -/
theorem entries_insert (m : Keyed κ β) (k : κ) (v : β) :
    (m.insert k v).entries = m.entries ++ [(k, v)] ∨ ∃ before e after,
      m.entries = before ++ e :: after ∧ (m.insert k v).entries = before ++ (k, v) :: after := by
  have key : ∀ l : List (κ × β), insertEntry k v l = l ++ [(k, v)] ∨ ∃ before e after,
      l = before ++ e :: after ∧ insertEntry k v l = before ++ (k, v) :: after := by
    intro l
    induction l with
    | nil => exact .inl rfl
    | cons e rest ih =>
      unfold insertEntry
      by_cases he : e.1 = k
      · rw [if_pos he]
        exact .inr ⟨[], e, rest, rfl, rfl⟩
      · rw [if_neg he]
        rcases ih with hlast | ⟨before, e', after, hrest, hplace⟩
        · exact .inl (by rw [hlast]; rfl)
        · exact .inr ⟨e :: before, e', after, by rw [hrest]; rfl, by rw [hplace]; rfl⟩
  exact key m.entries

end Keyed

/-! ### Serials -/

namespace Chunk

/-- The serials of the installed entities, in the order in which they are listed. -/
def serials (c : Chunk α) : List UInt32 := c.entities.values.map BlockEntity.serial

/-- The entities are listed in the order in which they were installed. -/
structure Chronological (c : Chunk α) : Prop where
  increasing : c.serials.Pairwise (· < ·)
  /-- Whoever comes next is the youngest. -/
  counted : ∀ serial ∈ c.serials, serial < c.nextSerial

/-- All but the last few of the listed entities are still there, and the serials have not come
round. -/
structure Spares (few : Nat) (c c' : Chunk α) : Prop where
  kept : ∀ serial ∈ c.serials.rdrop few, serial ∈ c'.serials
  counts : c.nextSerial ≤ c'.nextSerial

/-- What became of the list: entities are installed in order still, and later. -/
structure Ages (c c' : Chunk α) : Prop where
  chronological : c'.Chronological
  counts : c.nextSerial ≤ c'.nextSerial

/-- The serials and the one that comes next. -/
def roll (c : Chunk α) : List UInt32 × UInt32 := (c.serials, c.nextSerial)

/-- One of the listed entities may leave, and then the last one takes its place. -/
inductive Leaves (c c' : Chunk α) : Prop
  | none (h : c'.roll = c.roll)
  | last (before : List UInt32) (serial : UInt32) (hbefore : c.serials = before ++ [serial])
    (hafter : c'.serials = before) (hnext : c'.nextSerial = c.nextSerial)
  | within (before between : List UInt32) (serial last : UInt32)
    (hbefore : c.serials = before ++ serial :: (between ++ [last]))
    (hafter : c'.serials = before ++ last :: between) (hnext : c'.nextSerial = c.nextSerial)

/-- A new entity may come, in the place of another one or behind all. -/
inductive Enters (c c' : Chunk α) : Prop
  | none (h : c'.roll = c.roll)
  | last (hlast : c'.serials = c.serials ++ [c.nextSerial])
    (hnext : c'.nextSerial = c.nextSerial + 1)
  | instead (before after : List UInt32) (serial : UInt32)
    (hbefore : c.serials = before ++ serial :: after)
    (hafter : c'.serials = before ++ c.nextSerial :: after)
    (hnext : c'.nextSerial = c.nextSerial + 1)

variable {c mid c' : Chunk α}

theorem serials_eq (h : c'.roll = c.roll) : c'.serials = c.serials := congrArg Prod.fst h

theorem nextSerial_eq (h : c'.roll = c.roll) : c'.nextSerial = c.nextSerial := congrArg Prod.snd h

theorem Ages.refl (h : c.Chronological) : c.Ages c := ⟨h, UInt32.le_refl _⟩

theorem Ages.trans (h : c.Ages mid) (h' : mid.Ages c') : c.Ages c' :=
  ⟨h'.chronological, UInt32.le_trans h.counts h'.counts⟩

theorem Chronological.same (h : c.Chronological) (hroll : c'.roll = c.roll) : c.Ages c' where
  chronological := by
    refine ⟨?_, fun serial hmem => ?_⟩
    · rw [serials_eq hroll]
      exact h.increasing
    · rw [nextSerial_eq hroll]
      exact h.counted serial (serials_eq hroll ▸ hmem)
  counts := by rw [nextSerial_eq hroll]; exact UInt32.le_refl _

theorem Chronological.sublist (h : c.Chronological) (hsub : c'.serials.Sublist c.serials)
    (hnext : c'.nextSerial = c.nextSerial) : c.Ages c' where
  chronological := ⟨h.increasing.sublist hsub, fun serial hmem =>
    hnext ▸ h.counted serial (hsub.subset hmem)⟩
  counts := by rw [hnext]; exact UInt32.le_refl _

theorem Chronological.nodup (h : c.Chronological) : c.serials.Nodup :=
  h.increasing.imp fun hlt => (UInt32.ne_of_lt hlt)

theorem Leaves.next_eq (h : c.Leaves mid) : mid.nextSerial = c.nextSerial := by
  cases h with
  | none h => exact Chunk.nextSerial_eq h
  | last _ _ _ _ hnext => exact hnext
  | within _ _ _ _ _ _ hnext => exact hnext

theorem Leaves.mem (h : c.Leaves mid) {serial : UInt32} (hmem : serial ∈ mid.serials) :
    serial ∈ c.serials := by
  cases h with
  | none h => exact serials_eq h ▸ hmem
  | last before old hbefore hafter _ =>
    rw [hbefore]
    exact List.mem_append_left _ (hafter ▸ hmem)
  | within before between old last hbefore hafter _ =>
    rw [hafter] at hmem
    rw [hbefore]
    simp only [List.mem_append, List.mem_cons, List.not_mem_nil, or_false] at hmem ⊢
    tauto

/-- Only the entity that comes is new. -/
theorem Enters.mem (h : mid.Enters c') {serial : UInt32} (hmem : serial ∈ c'.serials) :
    serial ∈ mid.serials ∨ serial = mid.nextSerial ∧ c'.nextSerial = mid.nextSerial + 1 := by
  cases h with
  | none h => exact .inl (serials_eq h ▸ hmem)
  | last hlast hnext =>
    rw [hlast, List.mem_append, List.mem_singleton] at hmem
    exact hmem.imp_right fun heq => ⟨heq, hnext⟩
  | instead before after old hbefore hafter hnext =>
    rw [hafter, List.mem_append, List.mem_cons] at hmem
    rw [hbefore, List.mem_append, List.mem_cons]
    tauto

/-- A list with one more behind is in order if that one is the greatest. -/
theorem increasing_concat_iff {front : List UInt32} {serial : UInt32} :
    (front ++ [serial]).Pairwise (· < ·) ↔
      front.Pairwise (· < ·) ∧ ∀ other ∈ front, other < serial := by
  rw [List.pairwise_append]
  constructor
  · rintro ⟨hfront, -, hlast⟩
    exact ⟨hfront, fun other hother => hlast other hother serial (List.mem_singleton_self serial)⟩
  · rintro ⟨hfront, hlast⟩
    refine ⟨hfront, List.pairwise_singleton _ _, fun other hother last hmem => ?_⟩
    rw [List.mem_singleton.1 hmem]
    exact hlast other hother

theorem lt_of_increasing {before after : List UInt32} {serial later : UInt32}
    (h : (before ++ serial :: after).Pairwise (· < ·)) (hlater : later ∈ after) : serial < later :=
  List.rel_of_pairwise_cons (List.pairwise_append.1 h).2.1 hlater

/-- One that has enough behind it is not among the last few. -/
theorem mem_rdrop_of_le {few : Nat} {after : List UInt32} (h : few ≤ after.length)
    (before : List UInt32) (serial : UInt32) : serial ∈ (before ++ serial :: after).rdrop few := by
  have hlength : (before ++ serial :: after).length - few =
      before.length + (after.length - few + 1) := by
    rw [List.length_append, List.length_cons]
    omega
  rw [List.rdrop, hlength, List.take_length_add_append, List.take_succ_cons]
  exact List.mem_append_right _ List.mem_cons_self

theorem not_mem_of_leaves (h : c.Chronological) {before after : List UInt32} {serial : UInt32}
    (hbefore : c.serials = before ++ serial :: after) : serial ∉ before ++ after := by
  have hnodup := h.nodup
  rw [hbefore, List.perm_middle.nodup_iff, List.nodup_cons] at hnodup
  exact hnodup.1

/-- **The list stays in order exactly if no entity leaves that has more than one behind it.** -/
theorem Leaves.increasing_iff (h : c.Chronological) (hleaves : c.Leaves c') :
    c'.serials.Pairwise (· < ·) ↔ ∀ serial ∈ c.serials.rdrop 2, serial ∈ c'.serials := by
  have hincreasing := h.increasing
  cases hleaves with
  | none hroll =>
    rw [serials_eq hroll]
    exact iff_of_true hincreasing fun _ hmem => List.mem_of_mem_take hmem
  | last before serial hbefore hafter _ =>
    rw [hbefore] at hincreasing
    rw [hbefore, hafter, List.rdrop_concat_succ]
    exact iff_of_true (hincreasing.sublist (List.sublist_append_left _ _)) fun _ hmem =>
      List.mem_of_mem_take hmem
  | within before between serial last hbefore hafter _ =>
    have hgone := not_mem_of_leaves h hbefore
    rw [hbefore] at hincreasing
    rw [hbefore, hafter]
    cases between with
    | nil =>
      refine iff_of_true (hincreasing.sublist ?_) fun old hmem => ?_
      · exact (List.sublist_cons_self serial [last]).append_left before
      · rw [List.nil_append, List.append_cons, List.rdrop_concat_succ, List.rdrop_concat_succ,
          List.rdrop_zero] at hmem
        exact List.mem_append_left _ hmem
    | cons later between =>
      refine iff_of_false (fun hpairwise => ?_) fun hkept => ?_
      · -- the last one is listed before one that was there earlier
        have hfront : last < later := lt_of_increasing hpairwise List.mem_cons_self
        have hback : later < last := by
          rw [List.append_cons] at hincreasing
          exact lt_of_increasing hincreasing
            (List.mem_append_right _ (List.mem_singleton_self last))
        exact UInt32.lt_asymm hback hfront
      · have hthere := hkept serial (mem_rdrop_of_le (by simp) before serial)
        simp only [List.mem_append, List.mem_cons, List.not_mem_nil, or_false] at hgone hthere
        tauto

/-- **The list stays in order exactly if the entity that comes takes the place of none but the
last.** -/
theorem Enters.increasing_iff (h : c.Chronological) (henters : c.Enters c') :
    c'.serials.Pairwise (· < ·) ↔ ∀ serial ∈ c.serials.rdrop 1, serial ∈ c'.serials := by
  have hincreasing := h.increasing
  have hlast : ∀ front : List UInt32, front.Sublist c.serials →
      (front ++ [c.nextSerial]).Pairwise (· < ·) := by
    intro front hfront
    exact increasing_concat_iff.2 ⟨hincreasing.sublist hfront, fun old hold =>
      h.counted old (hfront.subset hold)⟩
  cases henters with
  | none hroll =>
    rw [serials_eq hroll]
    exact iff_of_true hincreasing fun _ hmem => List.mem_of_mem_take hmem
  | last hafter _ =>
    rw [hafter]
    exact iff_of_true (hlast c.serials (.refl _)) fun _ hmem =>
      List.mem_append_left _ (List.mem_of_mem_take hmem)
  | instead before after serial hbefore hafter _ =>
    cases after with
    | nil =>
      rw [hafter]
      refine iff_of_true (hlast before (by simp [hbefore])) fun old hmem => ?_
      rw [hbefore, List.rdrop_concat_succ, List.rdrop_zero] at hmem
      exact List.mem_append_left _ hmem
    | cons later after =>
      refine iff_of_false (fun hpairwise => ?_) fun hkept => ?_
      · -- the new one is listed before one that was there earlier
        rw [hafter] at hpairwise
        have hfront : c.nextSerial < later := lt_of_increasing hpairwise List.mem_cons_self
        exact UInt32.lt_asymm hfront (h.counted later (by simp [hbefore]))
      · have hthere := hkept serial (hbefore ▸ mem_rdrop_of_le (by simp) before serial)
        have hgone := not_mem_of_leaves h hbefore
        have hnew : serial ≠ c.nextSerial := UInt32.ne_of_lt (h.counted serial (by simp [hbefore]))
        rw [hafter] at hthere
        simp only [List.mem_append, List.mem_cons] at hgone hthere
        tauto

theorem Leaves.ages (h : c.Chronological) (hleaves : c.Leaves c') (hs : c.Spares 2 c') :
    c.Ages c' where
  chronological := by
    refine ⟨(hleaves.increasing_iff h).2 hs.kept, fun serial hmem => ?_⟩
    rw [hleaves.next_eq]
    exact h.counted serial (hleaves.mem hmem)
  counts := hs.counts

theorem Enters.ages (h : c.Chronological) (henters : c.Enters c') (hs : c.Spares 1 c') :
    c.Ages c' where
  chronological := by
    refine ⟨(henters.increasing_iff h).2 hs.kept, fun serial hmem => ?_⟩
    have hcounts := hs.counts
    rcases henters.mem hmem with hthere | ⟨rfl, hnext⟩
    · exact UInt32.lt_of_lt_of_le (h.counted serial hthere) hcounts
    · -- the serial that comes next has not come round
      rw [hnext] at hcounts ⊢
      exact UInt32.lt_of_le_of_ne hcounts fun heq => by simp at heq
  counts := hs.counts

/-- The list stays in order if first an entity may leave and then one may come, and none but the
last is lost by that. -/
theorem ages_of_leaves_enters (h : c.Chronological) (hleaves : c.Leaves mid)
    (henters : mid.Enters c') (hs : c.Spares 1 c') : c.Ages c' := by
  have hnext := hleaves.next_eq
  have hmid : ∀ serial ∈ c.serials.rdrop 1, serial ∈ mid.serials := by
    intro serial hmem
    rcases henters.mem (hs.kept serial hmem) with hthere | ⟨rfl, -⟩
    · exact hthere
    · rw [hnext] at hmem
      exact absurd rfl (UInt32.ne_of_lt (h.counted _ (List.mem_of_mem_take hmem)))
  have hshrunk : mid.serials.Sublist c.serials ∧
      ∀ serial ∈ mid.serials.rdrop 1, serial ∈ c.serials.rdrop 1 := by
    cases hleaves with
    | none hroll =>
      rw [serials_eq hroll]
      exact ⟨.refl _, fun _ hmem => hmem⟩
    | last before serial hbefore hafter _ =>
      rw [hbefore, hafter, List.rdrop_concat_succ, List.rdrop_zero]
      exact ⟨List.sublist_append_left _ _, fun _ hmem => List.mem_of_mem_take hmem⟩
    | within before between serial last hbefore hafter _ =>
      have hthere := hmid serial (hbefore ▸ mem_rdrop_of_le (by simp) before serial)
      have hgone := not_mem_of_leaves h hbefore
      rw [hafter] at hthere
      simp only [List.mem_append, List.mem_cons, List.not_mem_nil, or_false] at hgone hthere
      tauto
  have hages := h.sublist hshrunk.1 hnext
  refine hages.trans (henters.ages hages.chronological ⟨fun serial hmem => ?_, hnext ▸ hs.counts⟩)
  exact hs.kept serial (hshrunk.2 serial hmem)

/-! ### What becomes of the list -/

theorem Leaves.congr (h : c.Leaves mid) (hroll : c'.roll = mid.roll) : c.Leaves c' := by
  have hserials := serials_eq hroll
  have hserial := nextSerial_eq hroll
  cases h with
  | none h => exact .none (hroll.trans h)
  | last before serial hbefore hafter hnext =>
    exact .last before serial hbefore (hserials.trans hafter) (hserial.trans hnext)
  | within before between serial last hbefore hafter hnext =>
    exact .within before between serial last hbefore (hserials.trans hafter) (hserial.trans hnext)

theorem Enters.congr (h : c.Enters mid) (hroll : c'.roll = mid.roll) : c.Enters c' := by
  cases h with
  | none h => exact .none (hroll.trans h)
  | last hlast hnext =>
    exact .last ((serials_eq hroll).trans hlast) ((nextSerial_eq hroll).trans hnext)
  | instead before after serial hbefore hafter hnext =>
    exact .instead before after serial hbefore ((serials_eq hroll).trans hafter)
      ((nextSerial_eq hroll).trans hnext)

theorem serials_eq_map (c : Chunk α) : c.serials = c.entities.entries.map fun e => e.2.serial := by
  rw [serials, Keyed.values, List.map_map]
  rfl

theorem leaves_swapErase (pos : BlockPos) (hentities : c'.entities = c.entities.swapErase pos)
    (hnext : c'.nextSerial = c.nextSerial) : c.Leaves c' := by
  have hserials : ∀ l, c.entities.entries = l → c.serials = l.map fun e => e.2.serial := by
    rintro l rfl
    exact serials_eq_map c
  have hserials' : ∀ l, (c.entities.swapErase pos).entries = l →
      c'.serials = l.map fun e => e.2.serial := by
    rintro l rfl
    rw [serials_eq_map, hentities]
  rcases c.entities.entries_swapErase pos with hsame | ⟨before, e, hbefore, hafter⟩ |
    ⟨before, e, between, last, hbefore, hafter⟩
  · exact .none (Prod.ext ((hserials' _ hsame).trans (serials_eq_map c).symm) hnext)
  · refine .last (before.map fun e => e.2.serial) e.2.serial ?_ (hserials' _ hafter) hnext
    rw [hserials _ hbefore, List.map_append, List.map_singleton]
  · refine .within (before.map fun e => e.2.serial) (between.map fun e => e.2.serial) e.2.serial
      last.2.serial ?_ ?_ hnext
    · rw [hserials _ hbefore, List.map_append, List.map_cons, List.map_append, List.map_singleton]
    · rw [hserials' _ hafter, List.map_append, List.map_cons]

theorem enters_insert (pos : BlockPos) (e : BlockEntity α)
    (hentities : c'.entities = c.entities.insert pos e) (hserial : e.serial = c.nextSerial)
    (hnext : c'.nextSerial = c.nextSerial + 1) : c.Enters c' := by
  rcases c.entities.entries_insert pos e with hlast | ⟨before, old, after, hbefore, hafter⟩
  · refine .last ?_ hnext
    rw [serials_eq_map, serials_eq_map, hentities, hlast, List.map_append, List.map_singleton,
      hserial]
  · refine .instead (before.map fun e => e.2.serial) (after.map fun e => e.2.serial) old.2.serial ?_
      ?_ hnext
    · rw [serials_eq_map, hbefore, List.map_append, List.map_cons]
    · rw [serials_eq_map, hentities, hafter, List.map_append, List.map_cons, hserial]

/-- Who changes an entity without giving it another serial does not change the list. -/
theorem roll_modifyEntity {change : BlockEntity α → BlockEntity α}
    (hchange : ∀ e, (change e).serial = e.serial) (c : Chunk α) (pos : BlockPos) :
    (c.modifyEntity pos change).roll = c.roll := by
  refine Prod.ext ?_ rfl
  show (c.modifyEntity pos change).serials = c.serials
  rw [serials_eq_map, serials_eq_map]
  simp only [modifyEntity, Keyed.modify, Keyed.mapValues, List.map_map, Function.comp_def]
  refine List.map_congr_left fun e _ => ?_
  split
  · exact hchange e.2
  · rfl

theorem roll_modifyLent (c : Chunk α) (pos : BlockPos) (f : LentEntity → LentEntity) :
    (c.modifyLent pos f).roll = c.roll := by
  unfold modifyLent
  split <;> rfl

end Chunk

/-! ### What operations do to the list -/

namespace Site

variable {s t : Site α τ} {cfg : Config α τ}

@[simp] theorem roll_removeTicker (s : Site α τ) (pos : BlockPos) :
    (s.removeTicker pos).chunk.roll = s.chunk.roll := by
  obtain ⟨names, tickers, heq⟩ := removeTicker_eq s pos
  rw [heq]
  rfl

@[simp] theorem roll_updateTicker (s : Site α τ) (cfg : Config α τ) (pos : BlockPos) :
    (s.updateTicker cfg pos).chunk.roll = s.chunk.roll := by
  obtain ⟨names, tickers, heq⟩ := updateTicker_eq s cfg pos
  rw [heq]
  rfl

@[simp] theorem roll_updateListener (s : Site α τ) (cfg : Config α τ) (pos : BlockPos) :
    (s.updateListener cfg pos).chunk.roll = s.chunk.roll := by
  obtain ⟨dispatchers, heq⟩ := updateListener_eq s cfg pos
  rw [heq]
  rfl

@[simp] theorem roll_storeBlock (s : Site α τ) (cfg : Config α τ) (index : Nat) (pos : BlockPos)
    (state : BlockState) : (s.storeBlock cfg index pos state).2.chunk.roll = s.chunk.roll := by
  obtain ⟨sections, heightmaps, events, notices, heq⟩ := storeBlock_frame s cfg index pos state
  rw [heq]
  rfl

theorem enters_addEntity (s : Site α τ) (cfg : Config α τ) (e : BlockEntity α) :
    s.chunk.Enters (s.addEntity cfg e).chunk := by
  have hdiscard : (s.discardLent e.pos).chunk.entities = s.chunk.entities ∧
      (s.discardLent e.pos).chunk.nextSerial = s.chunk.nextSerial := by
    unfold discardLent Chunk.modifyLent
    split <;> exact ⟨rfl, rfl⟩
  have hinstalled : s.chunk.Enters ((s.discardLent e.pos).withEntity e).chunk := by
    refine Chunk.enters_insert e.pos ((s.discardLent e.pos).installed e) ?_ hdiscard.2 ?_
    · rw [← hdiscard.1]
      rfl
    · rw [← hdiscard.2]
      rfl
  refine hinstalled.congr ?_
  rw [addEntity_eq_ite]
  split
  · rw [roll_updateTicker, roll_updateListener]
  · rfl

theorem leaves_takeEntity (s : Site α τ) (pos : BlockPos) :
    s.chunk.Leaves (s.takeEntity pos).2.chunk := by
  unfold takeEntity
  split
  · exact Chunk.leaves_swapErase pos rfl rfl
  · split
    · exact .none (Chunk.roll_modifyLent s.chunk pos _)
    · exact .none rfl

theorem leaves_removeEntity (s : Site α τ) (pos : BlockPos) :
    s.chunk.Leaves (s.removeEntity pos).2.chunk := by
  unfold removeEntity
  by_cases hcan : s.canTick = true
  · rw [if_pos hcan]
    exact (leaves_takeEntity s pos).congr (roll_removeTicker _ pos)
  · rw [if_neg hcan]
    exact .none (roll_removeTicker _ pos)

theorem leaves_evictRemoved (s : Site α τ) (pos : BlockPos) :
    s.chunk.Leaves (s.evictRemoved pos).chunk := by
  unfold evictRemoved
  split
  · exact .none rfl
  · split
    · have hleaves : s.chunk.Leaves { s.chunk with entities := s.chunk.entities.swapErase pos } :=
        Chunk.leaves_swapErase pos rfl rfl
      exact hleaves.congr (roll_removeTicker _ pos)
    · exact .none rfl

/-- Who asks for an entity may make a removed one leave, and then another one come. -/
theorem leaves_enters_getEntity (s : Site α τ) (cfg : Config α τ) (pos : BlockPos)
    (mode : CreationMode) :
    ∃ mid, s.chunk.Leaves mid ∧ mid.Enters (s.getEntity cfg pos mode).2.chunk := by
  have hsame : ∃ mid, s.chunk.Leaves mid ∧ mid.Enters s.chunk := ⟨s.chunk, .none rfl, .none rfl⟩
  cases hout : s.chunk.lentAt? pos with
  | some lent =>
    unfold getEntity
    rw [hout]
    exact hsame
  | none =>
    cases hthere : s.chunk.entityAt? pos with
    | some e =>
      unfold getEntity
      rw [hout, hthere]
      exact hsame
    | none =>
      obtain ⟨news, heq⟩ := getEntity_of_none hout hthere cfg mode
      refine ⟨((s.vacated pos).noting news).chunk, (leaves_evictRemoved s pos).congr rfl, ?_⟩
      rw [heq]
      split
      · exact enters_addEntity _ cfg _
      · exact .none rfl

theorem leaves_enters_updateEntityState (s : Site α τ) (cfg : Config α τ) (pos : BlockPos)
    (state : BlockState) :
    ∃ mid, s.chunk.Leaves mid ∧ mid.Enters (s.updateEntityState cfg pos state).2.chunk := by
  obtain ⟨mid, hleaves, henters⟩ := leaves_enters_getEntity s cfg pos .check
  unfold updateEntityState
  split
  · refine ⟨s.chunk, .none rfl, .none ?_⟩
    rw [roll_updateTicker]
    exact Chunk.roll_modifyLent s.chunk pos _
  · refine ⟨mid, hleaves, ?_⟩
    split
    · next heq => rwa [heq] at henters
    · next heq =>
      rw [heq] at henters
      refine henters.congr ?_
      rw [roll_updateTicker]
      have hserial : ∀ e : BlockEntity α, ({ e with cachedState := state } : BlockEntity α).serial =
          e.serial := fun _ => rfl
      exact Chunk.roll_modifyEntity hserial _ pos

/-- A block that has no entity by then gets the one that it gets by itself. -/
theorem enters_attachEntity (s : Site α τ) (cfg : Config α τ) (pos : BlockPos) (state : BlockState)
    (h : cfg.facts.hasEntity state = true) :
    (s.updateEntityState cfg pos state).2.chunk.Enters (s.attachEntity cfg pos state).chunk := by
  unfold attachEntity
  rw [if_pos h]
  simp only
  split
  · exact .none rfl
  · split
    · exact enters_addEntity _ cfg _
    · exact .none rfl

end Site

/-! ### Operations in turn -/

instance (few : Nat) (c c' : Chunk α) : Decidable (c.Spares few c') :=
  -- the list is gone through, not all serials that there are
  have : Decidable (∀ serial ∈ c.serials.rdrop few, serial ∈ c'.serials) := List.decidableBAll _ _
  decidable_of_iff ((∀ serial ∈ c.serials.rdrop few, serial ∈ c'.serials) ∧
    c.nextSerial ≤ c'.nextSerial) ⟨fun h => ⟨h.1, h.2⟩, fun h => ⟨h.kept, h.counts⟩⟩

/-- Along the run of a reaction, all blocks are written as `fine` allows, no entity leaves that has
more than one behind it, and none is replaced but the last. -/
def Reaction.InTurn (write : BlockWriter α τ) (cfg : Config α τ)
    (fine : Site α τ → BlockPos → BlockState → Bool → Prop) : Reaction α τ → Site α τ → Prop
  | done, _ => True
  | setBlock pos state moved next, s =>
    fine s pos state moved ∧
      InTurn write cfg fine (next (write s pos state moved).1) (write s pos state moved).2
  | removeEntity pos next, s =>
    s.chunk.Spares 2 (s.removeEntity pos).2.chunk ∧
      InTurn write cfg fine (next (s.removeEntity pos).1) (s.removeEntity pos).2
  | addEntity entity next, s =>
    s.chunk.Spares 1 (s.addEntity cfg entity).chunk ∧
      InTurn write cfg fine next (s.addEntity cfg entity)
  | look next, s => InTurn write cfg fine (next s) s

instance Reaction.decidableInTurn {write : BlockWriter α τ} {cfg : Config α τ}
    {fine : Site α τ → BlockPos → BlockState → Bool → Prop}
    [inst : ∀ s pos state moved, Decidable (fine s pos state moved)] :
    ∀ (r : Reaction α τ) (s : Site α τ), Decidable (r.InTurn write cfg fine s)
  | .done, _ => .isTrue trivial
  | .setBlock pos state moved next, s =>
    @instDecidableAnd _ _ (inst s pos state moved)
      (decidableInTurn (next (write s pos state moved).1) (write s pos state moved).2)
  | .removeEntity pos next, s =>
    @instDecidableAnd _ _ inferInstance
      (decidableInTurn (next (s.removeEntity pos).1) (s.removeEntity pos).2)
  | .addEntity entity next, s =>
    @instDecidableAnd _ _ inferInstance (decidableInTurn next (s.addEntity cfg entity))
  | .look next, s => decidableInTurn (next s) s

/-- What reactions keep the list in order if the writes do that they make. -/
theorem Reaction.InTurn.ages {write : BlockWriter α τ} {cfg : Config α τ}
    {fine : Site α τ → BlockPos → BlockState → Bool → Prop}
    (hwrite : ∀ s pos state moved, s.chunk.Chronological → fine s pos state moved →
      s.chunk.Ages (write s pos state moved).2.chunk) {r : Reaction α τ} {s : Site α τ}
    (h : s.chunk.Chronological) (hr : r.InTurn write cfg fine s) :
    s.chunk.Ages (r.run write cfg s).chunk := by
  induction r generalizing s with
  | done => exact .refl h
  | setBlock pos state moved next ih =>
    have hfirst := hwrite s pos state moved h hr.1
    exact hfirst.trans (ih _ hfirst.chronological hr.2)
  | removeEntity pos next ih =>
    have hfirst := (Site.leaves_removeEntity s pos).ages h hr.1
    exact hfirst.trans (ih _ hfirst.chronological hr.2)
  | addEntity entity next ih =>
    have hfirst := (Site.enters_addEntity s cfg entity).ages h hr.1
    exact hfirst.trans (ih hfirst.chronological hr.2)
  | look next ih => exact ih s h hr

namespace Site

variable {s : Site α τ} {cfg : Config α τ}

/-- What the block does that is replaced: on a client it only takes its entity along. -/
def leaving (s : Site α τ) (cfg : Config α τ) (pos : BlockPos) (old new : BlockState)
    (moved : Bool) : Reaction α τ :=
  if s.level.isClient then cfg.facts.leaveWithBlock pos old new
  else cfg.registry.onReplaced pos old new moved

/-- What the block does that is added: on a client nothing. -/
def arriving (s : Site α τ) (cfg : Config α τ) (pos : BlockPos) (new old : BlockState)
    (moved : Bool) : Reaction α τ :=
  if s.level.isClient then .done else cfg.registry.onAdded pos new old moved

/-- While the entity of a block that has got a new state is attached, none leaves or is replaced but
the last. -/
def AttachesInTurn (s : Site α τ) (cfg : Config α τ) (pos : BlockPos) (state : BlockState) : Prop :=
  cfg.facts.hasEntity state = true →
    s.chunk.Spares 1 (s.updateEntityState cfg pos state).2.chunk ∧
      (s.updateEntityState cfg pos state).2.chunk.Spares 1 (s.attachEntity cfg pos state).chunk

instance (s : Site α τ) (cfg : Config α τ) (pos : BlockPos) (state : BlockState) :
    Decidable (s.AttachesInTurn cfg pos state) :=
  inferInstanceAs (Decidable (_ → _ ∧ _))

/-- During the write, and all writes that are made in reaction to it, no entity leaves that has more
than one behind it, and none is replaced but the last. -/
def WritesInTurn (cfg : Config α τ) : Nat → Site α τ → BlockPos → BlockState → SetFlags → Prop
  | 0, _, _, _, _ => True
  | depth + 1, s, pos, state, flags =>
    let fine (s : Site α τ) (pos : BlockPos) (state : BlockState) (moved : Bool) : Prop :=
      WritesInTurn cfg depth s pos state { moved }
    ∀ index ∈ cfg.height.sectionIndex? pos.y,
      ∀ previous ∈ (s.storeBlock cfg index pos state).1,
        let stored := (s.storeBlock cfg index pos state).2
        let leaving := stored.leaving cfg pos previous state flags.moved
        let replaced := leaving.run (nestedWriter cfg depth) cfg stored
        let arriving := replaced.arriving cfg pos state previous flags.moved
        leaving.InTurn (nestedWriter cfg depth) cfg fine stored ∧
          (replaced.storedKind? cfg index pos = some (cfg.facts.blockOf state) →
            arriving.InTurn (nestedWriter cfg depth) cfg fine replaced ∧
              (arriving.run (nestedWriter cfg depth) cfg replaced).AttachesInTurn cfg pos state)

instance decidableWritesInTurn (cfg : Config α τ) :
    ∀ (depth : Nat) (s : Site α τ) (pos : BlockPos) (state : BlockState) (flags : SetFlags),
      Decidable (s.WritesInTurn cfg depth pos state flags)
  | 0, _, _, _, _ => .isTrue trivial
  | depth + 1, s, pos, state, _ =>
    have : ∀ (s : Site α τ) (pos : BlockPos) (state : BlockState) (moved : Bool),
        Decidable (WritesInTurn cfg depth s pos state { moved }) :=
      fun s pos state moved => decidableWritesInTurn cfg depth s pos state { moved }
    inferInstanceAs (Decidable (∀ index ∈ cfg.height.sectionIndex? pos.y,
      ∀ previous ∈ (s.storeBlock cfg index pos state).1,
        Reaction.InTurn .. ∧ (_ → Reaction.InTurn .. ∧ AttachesInTurn ..)))

theorem AttachesInTurn.ages {pos : BlockPos} {state : BlockState} (h : s.chunk.Chronological)
    (hturn : s.AttachesInTurn cfg pos state) :
    s.chunk.Ages (s.attachEntity cfg pos state).chunk := by
  by_cases hhas : cfg.facts.hasEntity state = true
  · obtain ⟨htold, hattached⟩ := hturn hhas
    obtain ⟨mid, hleaves, henters⟩ := leaves_enters_updateEntityState s cfg pos state
    have hfirst := Chunk.ages_of_leaves_enters h hleaves henters htold
    exact hfirst.trans ((enters_attachEntity s cfg pos state hhas).ages hfirst.chronological
      hattached)
  · rw [attachEntity, if_neg hhas]
    exact .refl h

/-- **A write in turn keeps the list in order**, whatever blocks do in reaction. -/
theorem WritesInTurn.ages {depth : Nat} {s : Site α τ} {pos : BlockPos} {state : BlockState}
    {flags : SetFlags} (h : s.chunk.Chronological)
    (hturn : s.WritesInTurn cfg depth pos state flags) :
    s.chunk.Ages (writeBlock cfg depth s pos state flags).2.chunk := by
  induction depth generalizing s pos state flags with
  | zero => exact .refl h
  | succ depth ih =>
    -- reactions write with the depth that is left, where the induction hypothesis holds
    have hrun : ∀ (r : Reaction α τ) {s : Site α τ}, s.chunk.Chronological →
        r.InTurn (nestedWriter cfg depth) cfg (fun s pos state moved =>
          s.WritesInTurn cfg depth pos state { moved }) s →
        s.chunk.Ages (r.run (nestedWriter cfg depth) cfg s).chunk :=
      fun r _ => Reaction.InTurn.ages fun _ _ _ _ h hturn => ih h hturn
    show s.chunk.Ages (s.writeWith (nestedWriter cfg depth) cfg pos state flags).2.chunk
    unfold writeWith
    cases hindex : cfg.height.sectionIndex? pos.y with
    | none => exact .refl h
    | some index =>
      have hstored := h.same (roll_storeBlock s cfg index pos state)
      replace hturn := hturn index hindex
      simp only
      generalize s.storeBlock cfg index pos state = out at hstored hturn ⊢
      obtain ⟨outcome, stored⟩ := out
      cases outcome with
      | none => exact hstored
      | some previous =>
        obtain ⟨hleaving, harriving⟩ := hturn previous rfl
        have hreplace : stored.replaceBlock (nestedWriter cfg depth) cfg pos previous state
            flags.moved = (stored.leaving cfg pos previous state flags.moved).run
              (nestedWriter cfg depth) cfg stored := by
          unfold replaceBlock leaving
          split <;> rfl
        have hreplaced := hstored.trans (hrun _ hstored.chronological hleaving)
        simp only [hreplace]
        generalize (stored.leaving cfg pos previous state flags.moved).run (nestedWriter cfg depth)
          cfg stored = replaced at hreplaced harriving ⊢
        split
        · exact hreplaced
        · next hkind =>
          obtain ⟨harrives, hattaches⟩ := harriving (Decidable.not_not.1 hkind)
          have hadd : (if replaced.level.isClient then replaced
              else (cfg.registry.onAdded pos state previous flags.moved).run
                (nestedWriter cfg depth) cfg replaced) =
              (replaced.arriving cfg pos state previous flags.moved).run (nestedWriter cfg depth)
                cfg replaced := by
            unfold arriving
            split <;> rfl
          have hadded := hreplaced.trans (hrun _ hreplaced.chronological harrives)
          rw [hadd]
          exact (hadded.trans (hattaches.ages hadded.chronological)).trans
            ((hattaches.ages hadded.chronological).chronological.same rfl)

end Site

end VoxelChunk
