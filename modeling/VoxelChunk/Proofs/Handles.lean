import Mathlib.Algebra.Group.Nat.Defs
import VoxelChunk.Proofs.Ticker

/-!
# Handles of tickers are never confused

A handle is given out when a ticker is registered. From then on it stands for this ticker, or for
the last one that was put in its place under the handle, until the ticker is removed under the
handle. The slot may be used for other tickers after that, but every time it is reaped it gets
another generation, so the old handle reaches none of them before the generations have all been
used.

## Main definitions

* `TickerRequest`, `Tickers.serveAll` — what is asked of the tickers of a world.
* `TickerRequest.under`, `Tickers.heldUnder` — the ticker that has been left under a handle.
* `Tickers.reapsOf` — how often a slot is reaped along a run.
* `Tickers.Tracks` — what the slot of a handle is like, by the history of the handle.

## Main results

* `Tickers.slots_reap` — what becomes of all slots when they are reaped.
* `Tickers.Counted.serveAll` — the active slots are counted and the vacant ones listed.
* `Tickers.Tracks.serveAll` — the slot of a handle follows the history of the handle.
* `Tickers.handles_serveAll` — what handles stand for after any run.
-/

namespace VoxelChunk

variable {τ : Type}

/-- The slot has an active ticker. -/
def SlotState.isActive : SlotState τ → Bool
  | active _ => true
  | _ => false

/-- What becomes of a slot when all slots are reaped. -/
def TickerSlot.reaped : TickerSlot τ → TickerSlot τ
  | ⟨generation, .removed⟩ => ⟨generation + 1, .vacant⟩
  | slot => slot

/-- A slot that has been reaped is not reaped again. -/
@[simp] theorem TickerSlot.reaped_reaped (slot : TickerSlot τ) :
    slot.reaped.reaped = slot.reaped := by
  obtain ⟨generation, state⟩ := slot
  cases state <;> rfl

@[simp] theorem TickerSlot.isActive_reaped (slot : TickerSlot τ) :
    slot.reaped.state.isActive = slot.state.isActive := by
  obtain ⟨generation, state⟩ := slot
  cases state <;> rfl

/-- Something that is asked of the tickers of a world. -/
inductive TickerRequest (τ : Type) where
  | register (ticker : ActiveTicker τ)
  | replace (handle : TickerHandle) (ticker : ActiveTicker τ)
  | remove (handle : TickerHandle)
  | reap

/-- The ticker that is left under a handle by a request, given the one that was there. -/
def TickerRequest.under (handle : TickerHandle) (held : Option (ActiveTicker τ)) :
    TickerRequest τ → Option (ActiveTicker τ)
  | replace other ticker => if other = handle then held.map fun _ => ticker else held
  | remove other => if other = handle then none else held
  | _ => held

namespace Tickers

variable {t : Tickers τ} {handle : TickerHandle} {held : Option (ActiveTicker τ)} {reaps : Nat}

/-- The tickers after a request. -/
def serve (t : Tickers τ) : TickerRequest τ → Tickers τ
  | .register ticker => (t.register ticker).2
  | .replace handle ticker => (t.replace handle ticker).2
  | .remove handle => (t.remove handle).2
  | .reap => t.reap.2

/-- The tickers after requests, one after another. -/
def serveAll (t : Tickers τ) (requests : List (TickerRequest τ)) : Tickers τ :=
  requests.foldl serve t

/-- The ticker that is left under a handle by requests that follow the registration of a ticker. -/
def heldUnder (handle : TickerHandle) (ticker : ActiveTicker τ)
    (requests : List (TickerRequest τ)) : Option (ActiveTicker τ) :=
  requests.foldl (TickerRequest.under handle) (some ticker)

/-- The handle that is given out when a ticker is registered after the requests, and the tickers
then. -/
def issue (requests : List (TickerRequest τ)) (ticker : ActiveTicker τ) :
    TickerHandle × Tickers τ :=
  (({} : Tickers τ).serveAll requests).register ticker

/-- How often a slot is reaped by a request. -/
def reapsBy (t : Tickers τ) (index : Nat) : TickerRequest τ → Nat
  | .reap => if (t.slots[index]?.map TickerSlot.state).any (· matches .removed) then 1 else 0
  | _ => 0

/-- How often a slot is reaped along a run. -/
def reapsOf (index : Nat) : Tickers τ → List (TickerRequest τ) → Nat
  | _, [] => 0
  | t, request :: rest => t.reapsBy index request + reapsOf index (t.serve request) rest

/-- The number of slots with an active ticker. -/
def activeSlots (t : Tickers τ) : Nat := t.slots.toList.countP fun slot => slot.state.isActive

/-! ### Reaping -/

theorem getElem?_reapAt (t : Tickers τ) (index other : Nat) :
    (t.reapAt index).slots[other]? =
      if index = other then t.slots[other]?.map TickerSlot.reaped else t.slots[other]? := by
  unfold reapAt
  split
  · next generation hslot =>
    rw [Array.getElem?_modify]
    by_cases heq : index = other
    · rw [if_pos heq, if_pos heq, ← heq, hslot]
      rfl
    · rw [if_neg heq, if_neg heq]
  · next hnot =>
    by_cases heq : index = other
    · rw [if_pos heq, ← heq]
      -- only removed slots change
      cases hslot : t.slots[index]? with
      | none => rfl
      | some slot =>
        obtain ⟨generation, state⟩ := slot
        cases state with
        | removed => exact absurd hslot (hnot generation)
        | active ticker => rfl
        | vacant => rfl
    · rw [if_neg heq]

theorem getElem?_foldl_reapAt (indices : List Nat) (t : Tickers τ) (other : Nat) :
    (indices.foldl reapAt t).slots[other]? =
      if other ∈ indices then t.slots[other]?.map TickerSlot.reaped else t.slots[other]? := by
  induction indices generalizing t with
  | nil => simp
  | cons index indices ih =>
    rw [List.foldl_cons, ih, getElem?_reapAt]
    by_cases heq : index = other
    · cases t.slots[other]? <;> simp [heq]
    · simp [heq, Ne.symm heq]

/-- **What becomes of all slots** when they are reaped. -/
theorem slots_reap (t : Tickers τ) : t.reap.2.slots = t.slots.map TickerSlot.reaped := by
  refine Array.ext_getElem? fun index => ?_
  unfold reap
  rw [getElem?_foldl_reapAt, Array.getElem?_map]
  by_cases hlt : index < t.slots.size
  · rw [if_pos (List.mem_range.2 hlt)]
  · rw [Array.getElem?_eq_none (Nat.not_lt.1 hlt), Option.map_none, ite_self]

theorem activeCount_reap (t : Tickers τ) : t.reap.2.activeCount = t.activeCount := by
  unfold reap
  generalize List.range t.slots.size = indices
  show (indices.foldl reapAt t).activeCount = t.activeCount
  induction indices generalizing t with
  | nil => rfl
  | cons index indices ih =>
    rw [List.foldl_cons, ih]
    unfold reapAt
    split <;> rfl

/-! ### Counting -/

/-- The count of active slots changes with the slot that gets another state. -/
theorem activeSlots_setState {index : Nat} {slot : TickerSlot τ}
    (hslot : t.slots[index]? = some slot) (state : SlotState τ) :
    (t.setState index state).activeSlots + slot.state.isActive.toNat =
      t.activeSlots + state.isActive.toNat := by
  rw [← Array.getElem?_toList] at hslot
  obtain ⟨hlt, hget⟩ := List.getElem?_eq_some_iff.1 hslot
  obtain ⟨before, old, after, hsplit, hlength, hmodify⟩ :=
    List.exists_of_modify (fun slot : TickerSlot τ => { slot with state }) hlt
  obtain rfl : old = slot := by
    rw [hsplit] at hslot
    simpa [← hlength] using hslot
  unfold activeSlots setState
  rw [Array.toList_modify, hmodify, hsplit, List.countP_append, List.countP_append,
    List.countP_cons, List.countP_cons]
  cases old.state.isActive <;> cases state.isActive <;> simp <;> omega

/-- The active slots are counted, and the free list holds the vacant slots. -/
structure Counted (t : Tickers τ) : Prop extends t.Sound where
  size_eq : t.size = t.activeSlots

theorem counted_empty : Counted ({} : Tickers τ) := ⟨sound_empty, rfl⟩

namespace Counted

theorem register (h : t.Counted) (ticker : ActiveTicker τ) : (t.register ticker).2.Counted := by
  refine ⟨h.toSound.register ticker, ?_⟩
  have hsize := h.size_eq
  unfold Tickers.size at hsize ⊢
  unfold Tickers.register
  cases hfree : t.free with
  | cons index free =>
    obtain ⟨generation, hslot⟩ := (h.mem_free index).1 (hfree ▸ List.mem_cons_self)
    have hcount := activeSlots_setState hslot (.active ticker)
    show t.activeCount + 1 = (t.setState index (.active ticker)).activeSlots
    simp only [SlotState.isActive, Bool.toNat_false, Bool.toNat_true] at hcount
    omega
  | nil =>
    show t.activeCount + 1 = (t.slots.push ⟨0, .active ticker⟩).toList.countP _
    rw [hsize, Array.toList_push, List.countP_append]
    rfl

theorem replace (h : t.Counted) (handle : TickerHandle) (ticker : ActiveTicker τ) :
    (t.replace handle ticker).2.Counted := by
  refine ⟨h.toSound.replace handle ticker, ?_⟩
  have hsize := h.size_eq
  cases hget : t.get? handle with
  | none => rwa [replace_of_none hget]
  | some old =>
    rw [replace_of_some hget]
    have hcount := activeSlots_setState (get?_eq_some_iff.1 hget) (.active ticker)
    simp only [SlotState.isActive, Bool.toNat_true] at hcount
    unfold Tickers.size at hsize
    show t.activeCount = (t.setState handle.index (.active ticker)).activeSlots
    omega

theorem remove (h : t.Counted) (handle : TickerHandle) : (t.remove handle).2.Counted := by
  refine ⟨h.toSound.remove handle, ?_⟩
  have hsize := h.size_eq
  unfold Tickers.size at hsize ⊢
  unfold Tickers.remove
  cases hget : t.get? handle with
  | none => exact hsize
  | some old =>
    have hcount := activeSlots_setState (get?_eq_some_iff.1 hget) .removed
    simp only [SlotState.isActive, Bool.toNat_true, Bool.toNat_false] at hcount
    show t.activeCount - 1 = (t.setState handle.index .removed).activeSlots
    omega

theorem reap (h : t.Counted) : t.reap.2.Counted := by
  refine ⟨h.toSound.reap, ?_⟩
  have hsize := h.size_eq
  unfold Tickers.size Tickers.activeSlots at hsize ⊢
  rw [activeCount_reap, slots_reap, hsize, Array.toList_map, List.countP_map]
  congr 1
  funext slot
  exact (TickerSlot.isActive_reaped slot).symm

theorem serve (h : t.Counted) (request : TickerRequest τ) : (t.serve request).Counted := by
  cases request with
  | register ticker => exact h.register ticker
  | replace handle ticker => exact h.replace handle ticker
  | remove handle => exact h.remove handle
  | reap => exact h.reap

/-- **The active slots are counted and the vacant ones listed**, whatever is asked. -/
theorem serveAll (h : t.Counted) (requests : List (TickerRequest τ)) :
    (t.serveAll requests).Counted := by
  induction requests generalizing t with
  | nil => exact h
  | cons request rest ih => exact ih (h.serve request)

end Counted

/-! ### The history of a handle -/

/-- What the slot of a handle is like, given how often it has been reaped since the handle was given
out and which ticker has been left under the handle. -/
structure Tracks (t : Tickers τ) (handle : TickerHandle) (reaps : Nat)
    (held : Option (ActiveTicker τ)) : Prop where
  /-- Every reaping has counted up the generation. Before the first, the slot holds what has been
  left under the handle. -/
  slot : ∃ state, t.slots[handle.index]? = some ⟨handle.generation + UInt32.ofNat reaps, state⟩ ∧
    (reaps = 0 → state = held.elim .removed .active)
  /-- A slot that holds a ticker is not reaped. -/
  unreaped : held.isSome → reaps = 0

private theorem add_ofNat_zero (generation : UInt32) :
    generation + UInt32.ofNat 0 = generation :=
  UInt32.add_zero generation

namespace Tracks

/-- A ticker that has been left under a handle is what the handle stands for. -/
theorem get?_of_some {current : ActiveTicker τ} (h : t.Tracks handle reaps (some current)) :
    t.get? handle = some current := by
  obtain ⟨state, hslot, hstate⟩ := h.slot
  have hreaps := h.unreaped rfl
  rw [get?_eq_some_iff, hslot, hstate hreaps, hreaps, add_ofNat_zero]
  rfl

/-- A handle under which no ticker is left stands for nothing until its slot has had all
generations. -/
theorem get?_of_none (h : t.Tracks handle reaps none) (hfew : reaps < 2 ^ 32) :
    t.get? handle = none := by
  obtain ⟨state, hslot, hstate⟩ := h.slot
  refine Option.eq_none_iff_forall_ne_some.2 fun ticker hget => ?_
  rw [get?_eq_some_iff, hslot, Option.some.injEq, TickerSlot.mk.injEq] at hget
  obtain ⟨hgeneration, hactive⟩ := hget
  -- the generation is the one of the handle only if the slot has not been reaped
  have hzero : reaps = 0 := by
    have hsum := congrArg UInt32.toNat hgeneration
    rw [UInt32.toNat_add, UInt32.toNat_ofNat', Nat.mod_eq_of_lt hfew] at hsum
    have := handle.generation.toNat_lt
    omega
  rw [hstate hzero] at hactive
  cases hactive

/-- Under a handle that stands for nothing no ticker has been left. -/
theorem held_eq_none (h : t.Tracks handle reaps held) (hget : t.get? handle = none) :
    held = none := by
  cases held with
  | none => rfl
  | some current => cases hget.symm.trans h.get?_of_some

/-- The handle that is given out when a ticker is registered. -/
theorem registered (h : t.Sound) (ticker : ActiveTicker τ) :
    (t.register ticker).2.Tracks (t.register ticker).1 0 (some ticker) := by
  have hget := get?_register h ticker (t.register ticker).1
  rw [if_pos rfl, get?_eq_some_iff] at hget
  refine ⟨⟨.active ticker, ?_, fun _ => rfl⟩, fun _ => rfl⟩
  rw [hget, add_ofNat_zero]

/-- A slot that gets another state under its own generation goes on being the slot of the handle. If
it has not been reaped, the state must be what is left under the handle. -/
theorem setState (h : t.Tracks handle reaps held) {index : Nat} {state : SlotState τ}
    {left : Option (ActiveTicker τ)} (hleft : left.isSome → held.isSome)
    (hstate : reaps = 0 → if index = handle.index then state = left.elim .removed .active
      else left = held) :
    (t.setState index state).Tracks handle reaps left := by
  obtain ⟨old, hslot, hold⟩ := h.slot
  refine ⟨?_, fun hsome => h.unreaped (hleft hsome)⟩
  rw [getElem?_setState]
  by_cases heq : handle.index = index
  · rw [if_pos heq, ← heq, hslot]
    refine ⟨state, rfl, fun hzero => ?_⟩
    have hnew := hstate hzero
    rwa [if_pos heq.symm] at hnew
  · rw [if_neg heq]
    refine ⟨old, hslot, fun hzero => ?_⟩
    have hsame := hstate hzero
    rw [if_neg (Ne.symm heq)] at hsame
    rw [hold hzero, hsame]

theorem register (h : t.Tracks handle reaps held) (hsound : t.Sound) (ticker : ActiveTicker τ) :
    (t.register ticker).2.Tracks handle reaps held := by
  unfold Tickers.register
  obtain ⟨state, hslot, hstate⟩ := h.slot
  cases hfree : t.free with
  | cons index free =>
    obtain ⟨generation, hvacant⟩ := (hsound.mem_free index).1 (hfree ▸ List.mem_cons_self)
    have hset : (t.setState index (.active ticker)).Tracks handle reaps held := by
      refine h.setState id fun hzero => ?_
      -- a slot is vacant only after it has been reaped
      rw [if_neg]
      rintro rfl
      rw [hslot, Option.some.injEq, TickerSlot.mk.injEq, hstate hzero] at hvacant
      cases held <;> cases hvacant.2
    exact ⟨hset.slot, hset.unreaped⟩
  | nil =>
    refine ⟨⟨state, ?_, hstate⟩, h.unreaped⟩
    have hlt := (Array.getElem?_eq_some_iff.1 hslot).1
    show (t.slots.push ⟨0, .active ticker⟩)[handle.index]? = _
    rw [Array.getElem?_push, if_neg (Nat.ne_of_lt hlt), hslot]

/-- An active ticker that is changed under a handle stands in the slot of another handle, or the
slot has been reaped, or it is the one that has been left under this handle. -/
theorem eq_of_get? (h : t.Tracks handle reaps held) {other : TickerHandle} {old : ActiveTicker τ}
    (hget : t.get? other = some old) (hzero : reaps = 0) (hindex : other.index = handle.index) :
    other = handle ∧ held = some old := by
  obtain ⟨state, hslot, hstate⟩ := h.slot
  have hactive := get?_eq_some_iff.1 hget
  rw [hindex, hslot, Option.some.injEq, TickerSlot.mk.injEq, hstate hzero, hzero,
    add_ofNat_zero] at hactive
  refine ⟨TickerHandle.eq_iff.2 ⟨hindex, hactive.1.symm⟩, ?_⟩
  cases held with
  | none => cases hactive.2
  | some current => exact congrArg some (SlotState.active.inj hactive.2)

theorem replace (h : t.Tracks handle reaps held) (other : TickerHandle) (ticker : ActiveTicker τ) :
    (t.replace other ticker).2.Tracks handle reaps
      (if other = handle then held.map fun _ => ticker else held) := by
  cases hget : t.get? other with
  | none =>
    rw [replace_of_none hget]
    by_cases heq : other = handle
    · have hnone := h.held_eq_none (heq ▸ hget)
      rw [if_pos heq, hnone]
      rwa [hnone] at h
    · rwa [if_neg heq]
  | some old =>
    rw [replace_of_some hget]
    refine h.setState (fun hsome => ?_) fun hzero => ?_
    · split at hsome
      · rwa [Option.isSome_map] at hsome
      · exact hsome
    · split
      · next hindex =>
        obtain ⟨rfl, rfl⟩ := h.eq_of_get? hget hzero hindex
        rw [if_pos rfl]
        rfl
      · next hindex => exact if_neg fun heq => hindex (congrArg TickerHandle.index heq)

theorem remove (h : t.Tracks handle reaps held) (other : TickerHandle) :
    (t.remove other).2.Tracks handle reaps (if other = handle then none else held) := by
  unfold Tickers.remove
  cases hget : t.get? other with
  | none =>
    by_cases heq : other = handle
    · rw [if_pos heq]
      rwa [h.held_eq_none (heq ▸ hget)] at h
    · rwa [if_neg heq]
  | some old =>
    have hset : (t.setState other.index .removed).Tracks handle reaps
        (if other = handle then none else held) := by
      refine h.setState (fun hsome => ?_) fun hzero => ?_
      · split at hsome
        · cases hsome
        · exact hsome
      · split
        · next hindex =>
          obtain ⟨rfl, -⟩ := h.eq_of_get? hget hzero hindex
          rw [if_pos rfl]
          rfl
        · next hindex => exact if_neg fun heq => hindex (congrArg TickerHandle.index heq)
    exact ⟨hset.slot, hset.unreaped⟩

theorem reap (h : t.Tracks handle reaps held) :
    t.reap.2.Tracks handle (reaps + t.reapsBy handle.index .reap) held := by
  obtain ⟨state, hslot, hstate⟩ := h.slot
  unfold reapsBy
  cases state with
  | removed =>
    -- the slot gets another generation, and nothing has been left under the handle
    have hnone : held = none := by
      cases held with
      | none => rfl
      | some current => cases hstate (h.unreaped rfl)
    subst hnone
    refine ⟨⟨.vacant, ?_, ?_⟩, nofun⟩
    · rw [slots_reap, Array.getElem?_map, hslot]
      simp [TickerSlot.reaped, UInt32.add_assoc, UInt32.ofNat_add]
    · simp [hslot]
  | active ticker =>
    refine ⟨⟨.active ticker, ?_, ?_⟩, ?_⟩
    · rw [slots_reap, Array.getElem?_map, hslot]
      rfl
    · rw [hslot]
      exact hstate
    · rw [hslot]
      exact h.unreaped
  | vacant =>
    refine ⟨⟨.vacant, ?_, ?_⟩, ?_⟩
    · rw [slots_reap, Array.getElem?_map, hslot]
      rfl
    · rw [hslot]
      exact hstate
    · rw [hslot]
      exact h.unreaped

theorem serve (h : t.Tracks handle reaps held) (hsound : t.Sound) (request : TickerRequest τ) :
    (t.serve request).Tracks handle (reaps + t.reapsBy handle.index request)
      (request.under handle held) := by
  cases request with
  | register ticker => exact h.register hsound ticker
  | replace other ticker => exact h.replace other ticker
  | remove other => exact h.remove other
  | reap => exact h.reap

/-- **The slot of a handle follows the history of the handle**, whatever is asked. -/
theorem serveAll (h : t.Tracks handle reaps held) (hcounted : t.Counted)
    (requests : List (TickerRequest τ)) :
    (t.serveAll requests).Tracks handle (reaps + reapsOf handle.index t requests)
      (requests.foldl (TickerRequest.under handle) held) := by
  induction requests generalizing t reaps held with
  | nil => exact h
  | cons request rest ih =>
    have hrest := ih (h.serve hcounted.toSound request) (hcounted.serve request)
    rwa [Nat.add_assoc] at hrest

end Tracks

/-! ### Runs -/

theorem serveAll_append (t : Tickers τ) (before after : List (TickerRequest τ)) :
    t.serveAll (before ++ after) = (t.serveAll before).serveAll after :=
  List.foldl_append

theorem counted_serveAll (requests : List (TickerRequest τ)) :
    (({} : Tickers τ).serveAll requests).Counted :=
  counted_empty.serveAll requests

/-- The slot of a handle follows its history from the moment that it is given out. -/
theorem tracks_issue (before after : List (TickerRequest τ)) (ticker : ActiveTicker τ) :
    Tracks (({} : Tickers τ).serveAll (before ++ .register ticker :: after)) (issue before ticker).1
      (reapsOf (issue before ticker).1.index (issue before ticker).2 after)
      (heldUnder (issue before ticker).1 ticker after) := by
  have hbefore := counted_serveAll before
  have htracks :=
    (Tracks.registered hbefore.toSound ticker).serveAll (hbefore.register ticker) after
  rw [Nat.zero_add] at htracks
  rwa [serveAll_append]

/-- Once no ticker is left under a handle, none will be. -/
theorem foldl_under_none (handle : TickerHandle) (requests : List (TickerRequest τ)) :
    requests.foldl (TickerRequest.under handle) none = none := by
  induction requests with
  | nil => rfl
  | cons request rest ih =>
    have hnone : request.under handle none = none := by
      cases request with
      | register ticker => rfl
      | replace other ticker => exact ite_self none
      | remove other => exact ite_self none
      | reap => rfl
    rw [List.foldl_cons, hnone, ih]

/-- **Handles are never confused**, whatever is asked of the tickers of a new world. The active
slots are counted, and the free list holds just the vacant slots, each once. A handle that has been
given out stands for the ticker that has been left under it. When there is none any more it stands
for nothing and nothing is done under it, unless its slot has been reaped as often as there are
generations. And while a ticker is left under a handle, no other ticker gets the same handle. -/
theorem handles_serveAll (requests : List (TickerRequest τ)) :
    let t := ({} : Tickers τ).serveAll requests
    (t.size = t.activeSlots ∧ t.free.Nodup ∧
      ∀ index, index ∈ t.free ↔ ∃ generation, t.slots[index]? = some ⟨generation, .vacant⟩) ∧
    (∀ before ticker after, requests = before ++ .register ticker :: after →
      let handle := (issue before ticker).1
      (∀ current, heldUnder handle ticker after = some current →
        t.get? handle = some current ∧ (∀ other, (t.replace handle other).1 = true) ∧
          (t.remove handle).1 = true) ∧
      (heldUnder handle ticker after = none →
        reapsOf handle.index (issue before ticker).2 after < 2 ^ 32 →
          t.get? handle = none ∧ (∀ other, t.replace handle other = (false, t)) ∧
            t.remove handle = (false, t))) ∧
    ∀ before first between second after,
      requests = before ++ .register first :: (between ++ .register second :: after) →
        (heldUnder (issue before first).1 first (between ++ .register second :: after)).isSome →
          (issue before first).1 ≠ (issue (before ++ .register first :: between) second).1 := by
  intro t
  have hcounted : t.Counted := counted_serveAll requests
  refine ⟨⟨hcounted.size_eq, hcounted.nodup_free, hcounted.mem_free⟩, ?_, ?_⟩
  · rintro before ticker after rfl handle
    have htracks := tracks_issue before after ticker
    refine ⟨fun current hcurrent => ?_, fun hnone hfew => ?_⟩
    · rw [hcurrent] at htracks
      have hget : t.get? handle = some current := htracks.get?_of_some
      refine ⟨hget, fun other => ?_, ?_⟩
      · rw [replace_of_some hget]
      · unfold remove
        rw [hget]
    · rw [hnone] at htracks
      have hget : t.get? handle = none := htracks.get?_of_none hfew
      refine ⟨hget, replace_of_none hget, ?_⟩
      unfold remove
      rw [hget]
  · rintro before first between second after - hheld heq
    -- the first ticker is still left under its handle when the second is registered
    cases hthen : heldUnder (issue before first).1 first between with
    | none =>
      unfold heldUnder at hthen hheld
      rw [List.foldl_append, hthen, foldl_under_none] at hheld
      cases hheld
    | some current =>
      have htracks := tracks_issue before between first
      rw [hthen] at htracks
      have hget := htracks.get?_of_some
      rw [heq] at hget
      have hsound := (counted_serveAll (before ++ .register first :: between)).toSound
      have hnew := get?_fst_register hsound second
      exact Option.some_ne_none current (hget.symm.trans hnew)

end Tickers

/-! ### A slot that is used again -/

/-- A ticker that does nothing, at a height of its own. -/
def idleTicker (y : Int) : ActiveTicker Unit :=
  { pos := ⟨0, y, 0⟩, serial := 0, type := ⟨"idle"⟩, action := () }

/-- A ticker is removed and its slot reaped, and another one gets the slot. The old handle stands
for nothing then, and the new one for the new ticker. -/
theorem handles_reused :
    let t := ({} : Tickers Unit).serveAll
      [.register (idleTicker 1), .remove ⟨0, 0⟩, .reap, .register (idleTicker 2)]
    (Tickers.issue [] (idleTicker 1)).1 = ⟨0, 0⟩ ∧ t.get? ⟨0, 0⟩ = none ∧
      t.remove ⟨0, 0⟩ = (false, t) ∧ t.get? ⟨0, 1⟩ = some (idleTicker 2) := by
  intro t
  obtain ⟨-, hhandles, -⟩ := Tickers.handles_serveAll
    [.register (idleTicker 1), .remove ⟨0, 0⟩, .reap, .register (idleTicker 2)]
  obtain ⟨-, hold⟩ := hhandles [] (idleTicker 1)
    [.remove ⟨0, 0⟩, .reap, .register (idleTicker 2)] rfl
  obtain ⟨hnew, -⟩ := hhandles [.register (idleTicker 1), .remove ⟨0, 0⟩, .reap] (idleTicker 2) []
    rfl
  obtain ⟨hnone, -, hremove⟩ := hold (by decide) (by decide)
  exact ⟨rfl, hnone, hremove, (hnew (idleTicker 2) rfl).1⟩

end VoxelChunk
