import Mathlib.Logic.Function.Basic
import VoxelChunk.Proofs.Schedule.Agreement

/-!
# Ticks are handed back and forth without a loss

The chunks of a world hold their ticks themselves or have handed them over to the world. Whatever
is asked of them, an accepted tick is in exactly one place until it comes out, and it does not come
out before its time.

What is pending is known from the answers alone: a tick that was accepted is due after its delay,
and one that came out is pending no longer. The invariant `TickBoard.Sound` compares that with what
the schedules store. It is about the ticks; that the schedules answer from the sets of their keys
makes no difference, since the two agree after every run.

## Main definitions

* `WorldSchedule.dues`, `LocalSchedule.dues` — the targets of a schedule with their times.
* `TickRequest`, `TickBoard`, `TickBoard.run` — requests to the schedules, and what they lead to.
* `TickBoard.Agree` — all schedules agree with their keys.
* `TickBoard.Sound`, `TickBoard.Accountable` — the invariant, and what it says of the answers.

## Main results

* `TickBoard.Agree.step`, `TickBoard.Sound.step` — a request keeps the agreement and the invariant.
* `TickBoard.accountable_run` — after every run the schedules account for all pending ticks.
-/

namespace VoxelChunk

variable {κ : Type}

/-! ### Targets and times -/

namespace WorldSchedule

/-- The targets that are scheduled and the times at which they are due. -/
def dues (s : WorldSchedule κ) : List (TickKey κ × Nat) := s.ticks.map fun t => (t.key, t.time)

theorem map_fst_dues (s : WorldSchedule κ) : s.dues.map Prod.fst = s.ticks.map (·.key) := by
  rw [dues, List.map_map]
  rfl

variable [DecidableEq κ]

theorem dues_popDue? {s s' : WorldSchedule κ} {time : Nat} {tick : ScheduledTick κ}
    (h : s.popDue? time = some (tick, s')) :
    tick.time ≤ time ∧ s.dues = (tick.key, tick.time) :: s'.dues := by
  obtain ⟨htime, hticks, -⟩ := popDue?_eq_some h
  exact ⟨htime, by rw [dues, hticks, List.map_cons, dues]⟩

namespace Agree

variable {s : WorldSchedule κ}

/-- The ticks of the chunk are taken out, the others stay. -/
theorem dues_drainChunk (h : s.Agree) (chunk : ChunkPos) :
    (s.drainChunk chunk).2.dues = s.dues.filter fun d => !chunk.contains d.1.pos := by
  rw [dues, h.ticks_drainChunk, dues, List.filter_map]
  rfl

theorem isScheduled_iff_dues (h : s.Agree) {pos : BlockPos} {target : κ} :
    s.isScheduled pos target = true ↔ ⟨pos, target⟩ ∈ s.dues.map Prod.fst := by
  rw [h.isScheduled_iff, map_fst_dues]

theorem dues_schedule (h : s.Agree) {pos : BlockPos} {target : κ}
    (hnew : s.isScheduled pos target = false) (time : Nat) (priority : TickPriority) :
    (s.schedule pos target time priority).2.dues.Perm ((⟨pos, target⟩, time) :: s.dues) :=
  (h.ticks_schedule hnew time priority).map _

end Agree

end WorldSchedule

namespace LocalSchedule

/-- The targets that are scheduled and when they would be due if they were handed over now. -/
def dues (s : LocalSchedule κ) (now : Nat) : List (TickKey κ × Nat) :=
  s.ticks.map fun t => (t.key, now + t.delay)

theorem map_fst_dues (s : LocalSchedule κ) (now : Nat) :
    (s.dues now).map Prod.fst = s.ticks.map (·.key) := by
  rw [dues, List.map_map]
  rfl

variable [DecidableEq κ]

theorem Agree.isScheduled_iff_dues {s : LocalSchedule κ} (h : s.Agree) {pos : BlockPos}
    {target : κ} (now : Nat) :
    s.isScheduled pos target = true ↔ ⟨pos, target⟩ ∈ (s.dues now).map Prod.fst := by
  rw [h.isScheduled_iff, map_fst_dues]

theorem dues_schedule {s : LocalSchedule κ} {pos : BlockPos} {target : κ}
    (h : s.isScheduled pos target = false) (now delay : Nat) (priority : TickPriority) :
    ((s.schedule pos target delay priority).2.dues now).Perm
      ((⟨pos, target⟩, now + delay) :: s.dues now) := by
  rw [dues, ticks_schedule h, List.map_append]
  exact List.perm_append_singleton _ _

/-- Ticks with pairwise different targets that the world does not have are all taken over. -/
theorem dues_drainInto (s : LocalSchedule κ) {world : WorldSchedule κ} (hworld : world.Agree)
    (now : Nat) (hnodup : ((s.dues now ++ world.dues).map Prod.fst).Nodup) :
    (s.drainInto world now).2.dues.Perm (s.dues now ++ world.dues) := by
  obtain ⟨ticks, keys⟩ := s
  simp only [drainInto, dues] at hnodup ⊢
  induction ticks generalizing world with
  | nil => exact .refl _
  | cons t rest ih =>
    simp only [List.map_cons, List.cons_append, List.foldl_cons] at hnodup ⊢
    obtain ⟨hnew, hrest⟩ := List.nodup_cons.1 hnodup
    have hfresh : world.isScheduled t.key.pos t.key.target = false := by
      rw [Bool.eq_false_iff]
      intro hthere
      rw [List.map_append] at hnew
      exact hnew (List.mem_append_right _ (hworld.isScheduled_iff_dues.1 hthere))
    have hperm := hworld.dues_schedule hfresh (now + t.delay) t.priority
    -- the tick that was taken over moves past the remaining ones
    have hmoved : (rest.map (fun t => (t.key, now + t.delay)) ++
        (world.schedule t.key.pos t.key.target (now + t.delay) t.priority).2.dues).Perm
          ((t.key, now + t.delay) ::
            (rest.map (fun t => (t.key, now + t.delay)) ++ world.dues)) :=
      (hperm.append_left _).trans List.perm_middle
    have hnext := ih (hworld.schedule ..)
      (((hmoved.map Prod.fst).nodup_iff).2 (List.nodup_cons.2 ⟨hnew, hrest⟩))
    exact hnext.trans hmoved

/-- Ticks with pairwise different targets are all accepted, in their order. -/
theorem ticks_ofTicks {ticks : List (LocalTick κ)} (hnodup : (ticks.map (·.key)).Nodup) :
    (ofTicks ticks).ticks = ticks := by
  have hfold : ∀ (rest : List (LocalTick κ)) (s : LocalSchedule κ), s.Agree →
      ((s.ticks ++ rest).map (·.key)).Nodup →
      (rest.foldl (fun s t => (s.schedule t.key.pos t.key.target t.delay t.priority).2) s).ticks =
        s.ticks ++ rest := by
    intro rest
    induction rest with
    | nil => intro s _ _; exact (List.append_nil _).symm
    | cons t rest ih =>
      intro s hs hnodup
      have hfresh : s.isScheduled t.key.pos t.key.target = false := by
        rw [Bool.eq_false_iff]
        intro hthere
        rw [List.map_append, List.map_cons, List.nodup_append] at hnodup
        exact hnodup.2.2 _ (hs.isScheduled_iff.1 hthere) _ List.mem_cons_self rfl
      have hticks := ticks_schedule hfresh t.delay t.priority
      rw [List.foldl_cons, ih _ (hs.schedule ..), hticks]
      · simp
      · rw [hticks]
        simpa using hnodup
  simpa [ofTicks] using hfold ticks {} agree_empty (by simpa using hnodup)

/-- The ticks of a chunk that are taken back are due when they were before, or at once if that is
past. -/
theorem dues_ofWorldTicks {world : WorldSchedule κ} (hworld : world.Agree) (chunk : ChunkPos)
    (now : Nat) :
    (ofWorldTicks (world.drainChunk chunk).1 now).dues now =
      (world.dues.filter fun d => chunk.contains d.1.pos).map fun d => (d.1, max now d.2) := by
  have hkeys := hworld.nodup_drainChunk chunk
  rw [ofWorldTicks, dues, ticks_ofTicks (by simpa [Function.comp_def] using hkeys), List.map_map,
    WorldSchedule.dues, List.filter_map, List.map_map]
  refine List.map_congr_left fun t _ => ?_
  simp only [Function.comp_apply, Prod.mk.injEq, true_and]
  omega

end LocalSchedule

/-- A slot accepts a tick unless its target is scheduled already. -/
theorem TickSlot.schedule_fst [DecidableEq κ] (slot : TickSlot κ) (world : WorldSchedule κ)
    (pos : BlockPos) (target : κ) (delay now : Nat) (priority : TickPriority) :
    (slot.schedule world pos target delay now priority).1 =
      !slot.isScheduled world pos target := by
  cases slot with
  | held s => exact s.schedule_fst pos target delay priority
  | handedOver => exact world.schedule_fst pos target (now + delay) priority

theorem TickSlot.schedule_of_isScheduled [DecidableEq κ] {slot : TickSlot κ}
    {world : WorldSchedule κ} {pos : BlockPos} {target : κ}
    (h : slot.isScheduled world pos target = true) (delay now : Nat) (priority : TickPriority) :
    slot.schedule world pos target delay now priority = (false, slot, world) := by
  cases slot with
  | held s =>
    simp only [TickSlot.schedule, LocalSchedule.schedule_of_isScheduled (s := s) h delay priority]
  | handedOver =>
    simp only [TickSlot.schedule, WorldSchedule.schedule_of_isScheduled h (now + delay) priority]

theorem TickSlot.isHandedOver_schedule [DecidableEq κ] (slot : TickSlot κ)
    (world : WorldSchedule κ) (pos : BlockPos) (target : κ) (delay now : Nat)
    (priority : TickPriority) :
    (slot.schedule world pos target delay now priority).2.1.isHandedOver = slot.isHandedOver := by
  cases slot <;> rfl

/-! ### What is pending and where it is -/

/-- The slots of all chunks, the schedule of their world, and what the answers so far say is
pending. -/
structure TickBoard (κ : Type) where
  slots : ChunkPos → TickSlot κ := fun _ => .empty
  world : WorldSchedule κ := {}
  /-- When a target is due that was accepted and has not come out. -/
  pending : TickKey κ → Option Nat := fun _ => none

namespace TickBoard

/-- The targets at a place, in a chunk or in the world, and when they are due from there. -/
def duesAt (b : TickBoard κ) (now : Nat) : Option ChunkPos → List (TickKey κ × Nat)
  | none => b.world.dues
  | some chunk => (b.slots chunk).held?.elim [] fun s => s.dues now

/-- The targets that are stored at a place, in a chunk or in the world. -/
def keysAt (b : TickBoard κ) (place : Option ChunkPos) : List (TickKey κ) :=
  (b.duesAt 0 place).map Prod.fst

/-- Where the ticks of a chunk belong. -/
def placeOf (b : TickBoard κ) (chunk : ChunkPos) : Option ChunkPos :=
  if (b.slots chunk).isHandedOver then none else some chunk

theorem none_eq_placeOf {b : TickBoard κ} {chunk : ChunkPos} :
    none = b.placeOf chunk ↔ (b.slots chunk).isHandedOver = true := by
  unfold placeOf
  split <;> simp_all

theorem some_eq_placeOf {b : TickBoard κ} {other chunk : ChunkPos} :
    some other = b.placeOf chunk ↔ chunk = other ∧ (b.slots other).isHandedOver = false := by
  unfold placeOf
  split
  · constructor
    · simp
    · rintro ⟨rfl, h⟩
      simp_all
  · constructor
    · intro h
      obtain rfl := Option.some.inj h
      exact ⟨rfl, by simp_all⟩
    · rintro ⟨rfl, -⟩
      rfl

theorem map_fst_duesAt (b : TickBoard κ) (now : Nat) (place : Option ChunkPos) :
    (b.duesAt now place).map Prod.fst = b.keysAt place := by
  cases place with
  | none => rfl
  | some chunk =>
    simp only [keysAt, duesAt]
    cases (b.slots chunk).held? with
    | none => rfl
    | some s => simp [LocalSchedule.dues]

theorem mem_keysAt {b : TickBoard κ} {now : Nat} {place : Option ChunkPos} {d : TickKey κ × Nat}
    (h : d ∈ b.duesAt now place) : d.1 ∈ b.keysAt place := by
  rw [← b.map_fst_duesAt now]
  exact List.mem_map_of_mem h

theorem keysAt_perm {b : TickBoard κ} {now : Nat} {place : Option ChunkPos}
    {dues : List (TickKey κ × Nat)} (h : (b.duesAt now place).Perm dues) :
    (b.keysAt place).Perm (dues.map Prod.fst) := by
  rw [← b.map_fst_duesAt now]
  exact h.map _

/-- The slot of a chunk and the schedule of the world change. -/
def moved (b : TickBoard κ) (chunk : ChunkPos) (slot : TickSlot κ) (world : WorldSchedule κ) :
    TickBoard κ :=
  { b with slots := Function.update b.slots chunk slot, world }

section Moved

variable {b : TickBoard κ} {chunk : ChunkPos} {slot : TickSlot κ} {world : WorldSchedule κ}

@[simp] theorem pending_moved : (b.moved chunk slot world).pending = b.pending := rfl

@[simp] theorem moved_self : b.moved chunk (b.slots chunk) b.world = b := by
  simp [moved]

@[simp] theorem slots_moved_self : (b.moved chunk slot world).slots chunk = slot :=
  Function.update_self ..

theorem slots_moved_of_ne {other : ChunkPos} (h : other ≠ chunk) :
    (b.moved chunk slot world).slots other = b.slots other :=
  Function.update_of_ne h ..

@[simp] theorem duesAt_moved_none (now : Nat) :
    (b.moved chunk slot world).duesAt now none = world.dues := rfl

@[simp] theorem duesAt_moved_self (now : Nat) :
    (b.moved chunk slot world).duesAt now (some chunk) =
      slot.held?.elim [] fun s => s.dues now := by
  rw [duesAt, slots_moved_self]

theorem duesAt_moved_of_ne {other : ChunkPos} (h : other ≠ chunk) (now : Nat) :
    (b.moved chunk slot world).duesAt now (some other) = b.duesAt now (some other) := by
  rw [duesAt, slots_moved_of_ne h, duesAt]

end Moved

/-- The answers say when a target is due now, if it is pending at all. -/
def noted [DecidableEq κ] (b : TickBoard κ) (key : TickKey κ) (due : Option Nat) : TickBoard κ :=
  { b with pending := Function.update b.pending key due }

@[simp] theorem pending_noted [DecidableEq κ] (b : TickBoard κ) (key : TickKey κ)
    (due : Option Nat) : (b.noted key due).pending = Function.update b.pending key due := rfl

@[simp] theorem slots_noted [DecidableEq κ] (b : TickBoard κ) (key : TickKey κ)
    (due : Option Nat) : (b.noted key due).slots = b.slots := rfl

@[simp] theorem duesAt_noted [DecidableEq κ] (b : TickBoard κ) (key : TickKey κ)
    (due : Option Nat) (now : Nat) (place : Option ChunkPos) :
    (b.noted key due).duesAt now place = b.duesAt now place := by
  cases place <;> rfl

/-- All schedules agree with the sets of their keys. -/
structure Agree (b : TickBoard κ) : Prop where
  world : b.world.Agree
  slots : ∀ chunk, (b.slots chunk).Agree

theorem agree_empty : Agree ({} : TickBoard κ) where
  world := WorldSchedule.agree_empty
  slots _ := TickSlot.agree_empty

namespace Agree

variable {b : TickBoard κ}

theorem nodup (h : b.Agree) (place : Option ChunkPos) : (b.keysAt place).Nodup := by
  cases place with
  | none =>
    rw [keysAt, duesAt, WorldSchedule.map_fst_dues]
    exact h.world.nodup_ticks
  | some chunk =>
    have hslot := h.slots chunk
    rw [keysAt, duesAt]
    cases hheld : b.slots chunk with
    | held s =>
      rw [hheld] at hslot
      rw [TickSlot.held?, Option.elim_some, LocalSchedule.map_fst_dues]
      exact LocalSchedule.Agree.nodup_ticks hslot
    | handedOver => exact .nil

theorem moved (h : b.Agree) {chunk : ChunkPos} {slot : TickSlot κ} {world : WorldSchedule κ}
    (hslot : slot.Agree) (hworld : world.Agree) : (b.moved chunk slot world).Agree where
  world := hworld
  slots other := by
    by_cases hother : other = chunk
    · rw [hother, slots_moved_self]
      exact hslot
    · rw [slots_moved_of_ne hother]
      exact h.slots other

theorem noted [DecidableEq κ] (h : b.Agree) (key : TickKey κ) (due : Option Nat) :
    (b.noted key due).Agree := ⟨h.world, h.slots⟩

end Agree

/-- The ticks are what is pending. -/
structure Sound (b : TickBoard κ) (now : Nat) : Prop where
  /-- A target is stored where its chunk's ticks belong, if it is pending, and nowhere else. -/
  placed : ∀ key place, key ∈ b.keysAt place ↔
    (b.pending key).isSome = true ∧ place = b.placeOf (.ofBlock key.pos)
  /-- From where it is, a target does not come out early. -/
  due : ∀ place, ∀ d ∈ b.duesAt now place, ∀ time, b.pending d.1 = some time → time ≤ d.2

theorem sound_empty (now : Nat) : Sound ({} : TickBoard κ) now where
  placed key place := by
    cases place <;> simp [keysAt, duesAt, WorldSchedule.dues, TickSlot.empty, TickSlot.held?,
      LocalSchedule.dues]
  due place d hd time htime := by simp at htime

namespace Sound

variable {b : TickBoard κ} {now : Nat}

/-- Waiting does not make a tick come out earlier. -/
theorem later (h : b.Sound now) {now' : Nat} (hnow : now ≤ now') : b.Sound now' where
  placed := h.placed
  due place d hd time htime := by
    cases place with
    | none => exact h.due none d hd time htime
    | some chunk =>
      simp only [duesAt] at hd
      cases hslot : (b.slots chunk).held? with
      | none => simp [hslot] at hd
      | some s =>
        obtain ⟨t, ht, rfl⟩ : ∃ t ∈ s.ticks, (t.key, now' + t.delay) = d := by
          simpa [hslot, LocalSchedule.dues] using hd
        have hdue := h.due (some chunk) (t.key, now + t.delay)
          (by simpa [duesAt, hslot, LocalSchedule.dues] using ⟨t, ht, rfl, rfl⟩) time htime
        simp only at hdue ⊢
        omega

/-- A move leaves the other chunks alone, so only two places are looked at. -/
theorem moved (h : b.Sound now) {chunk : ChunkPos} {slot : TickSlot κ} {world : WorldSchedule κ}
    (hworld : ∀ key, key ∈ world.dues.map Prod.fst ↔ (b.pending key).isSome = true ∧
      ((b.moved chunk slot world).slots (.ofBlock key.pos)).isHandedOver = true)
    (hheld : ∀ key, key ∈ (b.moved chunk slot world).keysAt (some chunk) ↔
      (b.pending key).isSome = true ∧ ChunkPos.ofBlock key.pos = chunk ∧
        slot.isHandedOver = false)
    (hdue : ∀ d, d ∈ world.dues ∨ d ∈ (b.moved chunk slot world).duesAt now (some chunk) →
      ∀ time, b.pending d.1 = some time → time ≤ d.2) :
    (b.moved chunk slot world).Sound now := by
  have hother : ∀ other, other ≠ chunk →
      (b.moved chunk slot world).keysAt (some other) = b.keysAt (some other) := by
    intro other hne
    rw [keysAt, duesAt_moved_of_ne hne, keysAt]
  refine ⟨fun key place => ?_, fun place d hd time htime => ?_⟩
  · rcases place with _ | other
    · rw [none_eq_placeOf]
      exact hworld key
    · rw [some_eq_placeOf, pending_moved]
      by_cases hne : other = chunk
      · subst hne
        rw [slots_moved_self]
        exact hheld key
      · rw [hother other hne, slots_moved_of_ne hne, h.placed, some_eq_placeOf]
  · rcases place with _ | other
    · exact hdue d (.inl hd) time htime
    · by_cases hne : other = chunk
      · exact hdue d (.inr (hne ▸ hd)) time htime
      · exact h.due (some other) d (duesAt_moved_of_ne hne now ▸ hd) time htime

variable [DecidableEq κ]

/-- A target that is not pending gets pending where the ticks of its chunk belong. -/
theorem accept (h : b.Sound now) {b' : TickBoard κ} {key : TickKey κ} {time : Nat}
    (hnew : b.pending key = none) (hpending : b'.pending = Function.update b.pending key (some time))
    (hplace : ∀ chunk, b'.placeOf chunk = b.placeOf chunk)
    (hhere : (b'.duesAt now (b.placeOf (.ofBlock key.pos))).Perm
      ((key, time) :: b.duesAt now (b.placeOf (.ofBlock key.pos))))
    (helsewhere : ∀ place, place ≠ b.placeOf (.ofBlock key.pos) →
      b'.duesAt now place = b.duesAt now place) :
    b'.Sound now := by
  have habsent : ∀ place, key ∉ b.keysAt place := by
    intro place hmem
    simpa [hnew] using ((h.placed key place).1 hmem).1
  have hkeysHere : (b'.keysAt (b.placeOf (.ofBlock key.pos))).Perm
      (key :: b.keysAt (b.placeOf (.ofBlock key.pos))) := by
    rw [← b.map_fst_duesAt now]
    exact keysAt_perm hhere
  have hkeysElsewhere : ∀ place, place ≠ b.placeOf (.ofBlock key.pos) →
      b'.keysAt place = b.keysAt place := by
    intro place hne
    rw [← map_fst_duesAt _ now, helsewhere place hne, map_fst_duesAt]
  refine ⟨fun other place => ?_, fun place d hd due hdue => ?_⟩
  · rw [hplace, hpending]
    by_cases hat : place = b.placeOf (.ofBlock key.pos)
    · subst hat
      rw [hkeysHere.mem_iff, List.mem_cons]
      by_cases hother : other = key
      · simp [hother]
      · rw [Function.update_of_ne hother, ← h.placed, or_iff_right hother]
    · rw [hkeysElsewhere place hat]
      by_cases hother : other = key
      · subst hother
        simp [habsent place, hat]
      · rw [Function.update_of_ne hother, ← h.placed]
  · -- no older entry has the new target
    have hcases : d = (key, time) ∨ d ∈ b.duesAt now place ∧ d.1 ≠ key := by
      have hold : d ∈ b.duesAt now place → d.1 ≠ key :=
        fun hd heq => habsent place (heq ▸ mem_keysAt hd)
      by_cases hat : place = b.placeOf (.ofBlock key.pos)
      · rw [hat, hhere.mem_iff, ← hat, List.mem_cons] at hd
        exact hd.imp_right fun hd => ⟨hd, hold hd⟩
      · rw [helsewhere place hat] at hd
        exact .inr ⟨hd, hold hd⟩
    rw [hpending] at hdue
    rcases hcases with rfl | ⟨hd, hne⟩
    · rw [Function.update_self] at hdue
      exact Nat.le_of_eq (Option.some.inj hdue).symm
    · rw [Function.update_of_ne hne] at hdue
      exact h.due place d hd due hdue

/-- A pending target that is the first of the world's and due comes out. -/
theorem popDue (h : b.Sound now) (ha : b.Agree) {tick : ScheduledTick κ} {world : WorldSchedule κ}
    (hpop : b.world.popDue? now = some (tick, world)) :
    (noted { b with world } tick.key none).Sound now := by
  obtain ⟨-, hdues⟩ := WorldSchedule.dues_popDue? hpop
  have hkeys : b.keysAt none = tick.key :: world.dues.map Prod.fst := by
    rw [← b.map_fst_duesAt now, duesAt, hdues, List.map_cons]
  have hout := (List.nodup_cons.1 (hkeys ▸ ha.nodup none)).1
  have hthere := (h.placed tick.key none).1 (by rw [hkeys]; exact List.mem_cons_self)
  refine ⟨fun key place => ?_, fun place d hd time htime => ?_⟩
  · by_cases hkey : key = tick.key
    · subst hkey
      simp only [pending_noted, Function.update_self, Option.isSome_none, Bool.false_eq_true,
        false_and, iff_false]
      intro hmem
      cases place with
      | none => exact hout hmem
      | some chunk =>
        exact Option.some_ne_none chunk
          (((h.placed _ (some chunk)).1 hmem).2.trans hthere.2.symm)
    · simp only [pending_noted, Function.update_of_ne hkey]
      refine Iff.trans ?_ (h.placed key place)
      cases place with
      | none =>
        rw [hkeys, List.mem_cons]
        exact (or_iff_right hkey).symm
      | some chunk => rfl
  · by_cases hkey : d.1 = tick.key
    · simp [hkey] at htime
    · rw [pending_noted, Function.update_of_ne hkey] at htime
      refine h.due place d ?_ time htime
      cases place with
      | none =>
        rw [duesAt, hdues]
        exact List.mem_cons_of_mem _ hd
      | some chunk => exact hd

/-- A chunk hands its ticks over. -/
theorem promote (h : b.Sound now) (ha : b.Agree) {chunk : ChunkPos} {s : LocalSchedule κ}
    (hslot : b.slots chunk = .held s) :
    (b.moved chunk .handedOver (s.drainInto b.world now).2).Sound now := by
  have hchunk : b.duesAt now (some chunk) = s.dues now := by simp [duesAt, hslot, TickSlot.held?]
  have hkeys : (s.dues now).map Prod.fst = b.keysAt (some chunk) := by
    rw [← hchunk, map_fst_duesAt]
  have hdisjoint : ((s.dues now ++ b.world.dues).map Prod.fst).Nodup := by
    rw [List.map_append, List.nodup_append, hkeys]
    refine ⟨ha.nodup _, ha.nodup none, ?_⟩
    rintro key hheld _ hworld rfl
    exact Option.some_ne_none chunk
      (((h.placed key _).1 hheld).2.trans ((h.placed key none).1 hworld).2.symm)
  have hperm := s.dues_drainInto ha.world now hdisjoint
  refine h.moved (fun key => ?_) (fun key => ?_) (fun d hd => ?_)
  · rw [(hperm.map Prod.fst).mem_iff, List.map_append, List.mem_append, hkeys,
      h.placed, some_eq_placeOf, hslot]
    refine (or_congr Iff.rfl (h.placed key none)).trans ?_
    rw [none_eq_placeOf]
    by_cases hin : ChunkPos.ofBlock key.pos = chunk
    · simp [hin, hslot, TickSlot.isHandedOver]
    · simp [hin, slots_moved_of_ne hin]
  · simp [keysAt, TickSlot.held?, TickSlot.isHandedOver]
  · rcases hd with hd | hd
    · rcases List.mem_append.1 (hperm.mem_iff.1 hd) with hd | hd
      · exact h.due (some chunk) d (hchunk ▸ hd)
      · exact h.due none d hd
    · simp [TickSlot.held?] at hd

/-- A chunk takes its ticks back. -/
theorem demote (h : b.Sound now) (ha : b.Agree) {chunk : ChunkPos}
    (hslot : b.slots chunk = .handedOver) :
    (b.moved chunk (.held (.ofWorldTicks (b.world.drainChunk chunk).1 now))
      (b.world.drainChunk chunk).2).Sound now := by
  have hworld : ∀ key, key ∈ b.world.dues.map Prod.fst ↔ (b.pending key).isSome = true ∧
      (b.slots (.ofBlock key.pos)).isHandedOver = true := by
    intro key
    rw [← none_eq_placeOf]
    exact h.placed key none
  have hdues : (b.moved chunk (.held (.ofWorldTicks (b.world.drainChunk chunk).1 now))
      (b.world.drainChunk chunk).2).duesAt now (some chunk) =
        (b.world.dues.filter fun d => chunk.contains d.1.pos).map fun d => (d.1, max now d.2) := by
    rw [duesAt_moved_self, TickSlot.held?, Option.elim_some,
      LocalSchedule.dues_ofWorldTicks ha.world]
  have hkeys : (b.moved chunk (.held (.ofWorldTicks (b.world.drainChunk chunk).1 now))
      (b.world.drainChunk chunk).2).keysAt (some chunk) =
        (b.world.dues.map Prod.fst).filter fun key => chunk.contains key.pos := by
    rw [← map_fst_duesAt _ now, hdues, List.map_map, List.filter_map]
    rfl
  have hstay : (b.world.drainChunk chunk).2.dues.map Prod.fst =
      (b.world.dues.map Prod.fst).filter fun key => !chunk.contains key.pos := by
    rw [ha.world.dues_drainChunk, List.filter_map]
    rfl
  refine h.moved (fun key => ?_) (fun key => ?_) (fun d hd => ?_)
  · rw [hstay, List.mem_filter, hworld]
    by_cases hin : ChunkPos.ofBlock key.pos = chunk
    · simp [ChunkPos.contains, hin, TickSlot.isHandedOver]
    · simp [ChunkPos.contains, hin, slots_moved_of_ne hin]
  · rw [hkeys, List.mem_filter, hworld]
    by_cases hin : ChunkPos.ofBlock key.pos = chunk
    · simp [ChunkPos.contains, hin, hslot, TickSlot.isHandedOver]
    · simp [ChunkPos.contains, hin]
  · rw [ha.world.dues_drainChunk, hdues] at hd
    rcases hd with hd | hd
    · exact h.due none d (List.mem_of_mem_filter hd)
    · obtain ⟨old, hold, rfl⟩ := List.mem_map.1 hd
      intro time htime
      exact Nat.le_trans (h.due none old (List.mem_of_mem_filter hold) time htime)
        (Nat.le_max_right ..)

/-- A slot knows what is pending in its chunk. -/
theorem isScheduled_eq (h : b.Sound now) (ha : b.Agree) {chunk : ChunkPos} {pos : BlockPos}
    (hin : chunk.contains pos = true) (target : κ) :
    (b.slots chunk).isScheduled b.world pos target = (b.pending ⟨pos, target⟩).isSome := by
  have hchunk : ChunkPos.ofBlock pos = chunk := by simpa [ChunkPos.contains] using hin
  rw [Bool.eq_iff_iff]
  cases hslot : b.slots chunk with
  | held s =>
    have hplaced := h.placed ⟨pos, target⟩ (some chunk)
    rw [some_eq_placeOf, hslot] at hplaced
    have hs := ha.slots chunk
    rw [hslot] at hs
    refine (LocalSchedule.Agree.isScheduled_iff_dues hs 0).trans ?_
    simpa [keysAt, duesAt, hslot, TickSlot.held?, TickSlot.isHandedOver, hchunk] using hplaced
  | handedOver =>
    have hplaced := h.placed ⟨pos, target⟩ none
    rw [none_eq_placeOf] at hplaced
    refine ha.world.isScheduled_iff_dues.trans (hplaced.trans ?_)
    simp [hchunk, hslot, TickSlot.isHandedOver]

end Sound

end TickBoard

/-! ### Requests -/

/-- What can be asked of the ticks of some chunks and their world. -/
inductive TickRequest (κ : Type) where
  /-- Schedule a tick through the slot of a chunk. -/
  | schedule (chunk : ChunkPos) (pos : BlockPos) (target : κ) (delay : Nat)
      (priority : TickPriority)
  /-- The chunk hands its ticks over. -/
  | promote (chunk : ChunkPos)
  /-- The chunk takes its ticks back. -/
  | demote (chunk : ChunkPos)
  /-- Take out the first tick that is due. -/
  | popDue

/-- A tick is scheduled through the slot of the chunk it lies in. -/
def TickRequest.Inside : TickRequest κ → Prop
  | schedule chunk pos _ _ _ => chunk.contains pos = true
  | _ => True

namespace TickBoard

variable [DecidableEq κ]

/-- Do what is asked at a time. What is pending follows the answer. -/
def step (b : TickBoard κ) (now : Nat) : TickRequest κ → TickBoard κ
  | .schedule chunk pos target delay priority =>
    let (accepted, slot, world) :=
      (b.slots chunk).schedule b.world pos target delay now priority
    if accepted then (b.moved chunk slot world).noted ⟨pos, target⟩ (some (now + delay))
    else b.moved chunk slot world
  | .promote chunk =>
    let (_, slot, world) := (b.slots chunk).promote b.world now
    b.moved chunk slot world
  | .demote chunk =>
    let (_, slot, world) := (b.slots chunk).demote b.world chunk now
    b.moved chunk slot world
  | .popDue =>
    match b.world.popDue? now with
    | none => b
    | some (tick, world) => noted { b with world } tick.key none

/-- Do everything that is asked, each at its time, where nothing is scheduled yet. -/
def run (requests : List (Nat × TickRequest κ)) : TickBoard κ :=
  requests.foldl (fun b r => b.step r.1 r.2) {}

/-- Whatever is asked, the schedules keep agreeing with the sets of their keys. -/
theorem Agree.step {b : TickBoard κ} (h : b.Agree) (now : Nat) (request : TickRequest κ) :
    (b.step now request).Agree := by
  cases request with
  | schedule chunk pos target delay priority =>
    obtain ⟨hslot, hworld⟩ :=
      TickSlot.agree_schedule (h.slots chunk) h.world pos target delay now priority
    simp only [TickBoard.step]
    split
    · exact (h.moved hslot hworld).noted _ _
    · exact h.moved hslot hworld
  | promote chunk =>
    obtain ⟨hslot, hworld⟩ := TickSlot.agree_promote (h.slots chunk) h.world now
    exact h.moved hslot hworld
  | demote chunk =>
    obtain ⟨hslot, hworld⟩ := TickSlot.agree_demote (h.slots chunk) h.world chunk now
    exact h.moved hslot hworld
  | popDue =>
    cases hpop : b.world.popDue? now with
    | none => simpa only [TickBoard.step, hpop] using h
    | some out =>
      have hleft : Agree { b with world := out.2 } := ⟨h.world.popDue? hpop, h.slots⟩
      simpa only [TickBoard.step, hpop] using hleft.noted out.1.key none

theorem agree_run (requests : List (Nat × TickRequest κ)) : (run requests).Agree := by
  have hfold : ∀ b : TickBoard κ, b.Agree →
      (requests.foldl (fun b r => b.step r.1 r.2) b).Agree := by
    induction requests with
    | nil => exact fun _ h => h
    | cons r rest ih => exact fun b h => ih _ (h.step r.1 r.2)
  exact hfold {} agree_empty

namespace Sound

variable {b : TickBoard κ} {now : Nat}

theorem step_schedule {chunk : ChunkPos} {pos : BlockPos} {target : κ}
    (h : (b.slots chunk).isScheduled b.world pos target = false) (delay : Nat)
    (priority : TickPriority) :
    b.step now (.schedule chunk pos target delay priority) =
      (b.moved chunk ((b.slots chunk).schedule b.world pos target delay now priority).2.1
        ((b.slots chunk).schedule b.world pos target delay now priority).2.2).noted ⟨pos, target⟩
          (some (now + delay)) := by
  have haccepted := (b.slots chunk).schedule_fst b.world pos target delay now priority
  rw [h, Bool.not_false] at haccepted
  simp only [TickBoard.step, haccepted, if_true]

theorem schedule (h : b.Sound now) (ha : b.Agree) {chunk : ChunkPos} {pos : BlockPos}
    (hin : chunk.contains pos = true) (target : κ) (delay : Nat) (priority : TickPriority) :
    (b.step now (.schedule chunk pos target delay priority)).Sound now := by
  have hchunk : ChunkPos.ofBlock pos = chunk := by simpa [ChunkPos.contains] using hin
  have hscheduled := h.isScheduled_eq ha hin target
  cases hpending : b.pending ⟨pos, target⟩ with
  | some due =>
    -- refused, so nothing changes
    rw [hpending, Option.isSome_some] at hscheduled
    simp only [TickBoard.step, TickSlot.schedule_of_isScheduled hscheduled, Bool.false_eq_true,
      if_false, moved_self]
    exact h
  | none =>
    rw [hpending, Option.isSome_none] at hscheduled
    rw [step_schedule hscheduled]
    refine h.accept hpending rfl (fun other => ?_) ?_ ?_
    · by_cases hother : other = chunk
      · simp [placeOf, hother, TickSlot.isHandedOver_schedule]
      · simp [placeOf, slots_moved_of_ne hother]
    · rw [hchunk]
      cases hslot : b.slots chunk with
      | held s =>
        rw [hslot] at hscheduled
        have hheld : b.placeOf chunk = some chunk := by
          simp [placeOf, hslot, TickSlot.isHandedOver]
        rw [hheld, duesAt_noted, duesAt_moved_self, duesAt, hslot]
        exact LocalSchedule.dues_schedule hscheduled now delay priority
      | handedOver =>
        rw [hslot] at hscheduled
        have hworld : b.placeOf chunk = none := by simp [placeOf, hslot, TickSlot.isHandedOver]
        rw [hworld]
        exact ha.world.dues_schedule hscheduled (now + delay) priority
    · intro place hne
      rw [hchunk] at hne
      rw [duesAt_noted]
      rcases place with _ | other
      · cases hslot : b.slots chunk with
        | held s => rfl
        | handedOver => simp [placeOf, hslot, TickSlot.isHandedOver] at hne
      · by_cases hother : other = chunk
        · subst hother
          cases hslot : b.slots other with
          | held s => simp [placeOf, hslot, TickSlot.isHandedOver] at hne
          | handedOver => simp [duesAt, hslot, TickSlot.schedule]
        · exact duesAt_moved_of_ne hother now

theorem step (h : b.Sound now) (ha : b.Agree) {request : TickRequest κ} (hin : request.Inside) :
    (b.step now request).Sound now := by
  cases request with
  | schedule chunk pos target delay priority => exact h.schedule ha hin target delay priority
  | promote chunk =>
    cases hslot : b.slots chunk with
    | held s => simpa [TickBoard.step, hslot, TickSlot.promote] using h.promote ha hslot
    | handedOver =>
      simp only [TickBoard.step, hslot, TickSlot.promote]
      rwa [← hslot, moved_self]
  | demote chunk =>
    cases hslot : b.slots chunk with
    | held s =>
      simp only [TickBoard.step, hslot, TickSlot.demote]
      rwa [← hslot, moved_self]
    | handedOver => simpa [TickBoard.step, hslot, TickSlot.demote] using h.demote ha hslot
  | popDue =>
    cases hpop : b.world.popDue? now with
    | none => simpa [TickBoard.step, hpop] using h
    | some out => simpa [TickBoard.step, hpop] using h.popDue ha hpop

end Sound

/-- What the schedules can be held to at a time. -/
structure Accountable (b : TickBoard κ) (now : Nat) : Prop where
  /-- The pending targets are those that are stored somewhere, -/
  pending_iff : ∀ key, (b.pending key).isSome = true ↔ ∃ place, key ∈ b.keysAt place
  /-- at no place twice -/
  nodup : ∀ place, (b.keysAt place).Nodup
  /-- and at no two places. -/
  disjoint : ∀ key place place', key ∈ b.keysAt place → key ∈ b.keysAt place' → place = place'
  /-- The set of each schedule holds the keys of its ticks and no others. -/
  agree : b.Agree
  /-- The world has ticks only of chunks that handed theirs over. -/
  handedOver : ∀ key ∈ b.keysAt none, b.slots (.ofBlock key.pos) = .handedOver
  /-- A slot knows what is pending in its chunk -/
  isScheduled_eq : ∀ chunk pos target, chunk.contains pos = true →
    (b.slots chunk).isScheduled b.world pos target = (b.pending ⟨pos, target⟩).isSome
  /-- and refuses just that. -/
  schedule_fst : ∀ chunk pos target delay now priority, chunk.contains pos = true →
    ((b.slots chunk).schedule b.world pos target delay now priority).1 =
      (b.pending ⟨pos, target⟩).isNone
  /-- What comes out is pending and due. -/
  popDue? : ∀ tick world, b.world.popDue? now = some (tick, world) →
    ∃ due, b.pending tick.key = some due ∧ due ≤ now

theorem Sound.accountable {b : TickBoard κ} {now : Nat} (h : b.Sound now) (ha : b.Agree) :
    b.Accountable now where
  pending_iff key :=
    ⟨fun hpending => ⟨_, (h.placed key _).2 ⟨hpending, rfl⟩⟩,
      fun ⟨place, hmem⟩ => ((h.placed key place).1 hmem).1⟩
  nodup := ha.nodup
  agree := ha
  disjoint key place place' hmem hmem' :=
    ((h.placed key place).1 hmem).2.trans ((h.placed key place').1 hmem').2.symm
  handedOver key hmem := by
    have hover := none_eq_placeOf.1 ((h.placed key none).1 hmem).2
    cases hslot : b.slots (.ofBlock key.pos) with
    | held s => simp [hslot, TickSlot.isHandedOver] at hover
    | handedOver => rfl
  isScheduled_eq chunk pos target hin := h.isScheduled_eq ha hin target
  schedule_fst chunk pos target delay time priority hin := by
    rw [TickSlot.schedule_fst, h.isScheduled_eq ha hin, Option.not_isSome]
  popDue? tick world hpop := by
    obtain ⟨htime, hdues⟩ := WorldSchedule.dues_popDue? hpop
    have hmem : (tick.key, tick.time) ∈ b.duesAt now none := by
      rw [duesAt, hdues]
      exact List.mem_cons_self
    have hpending := ((h.placed tick.key none).1 (mem_keysAt hmem)).1
    obtain ⟨due, hdue⟩ := Option.isSome_iff_exists.1 hpending
    exact ⟨due, hdue, Nat.le_trans (h.due none _ hmem due hdue) htime⟩

theorem Sound.foldl {requests : List (Nat × TickRequest κ)} {b : TickBoard κ} {start now : Nat}
    (h : b.Sound start) (ha : b.Agree) (hstart : ∀ r ∈ requests, start ≤ r.1) (hle : start ≤ now)
    (hinside : ∀ r ∈ requests, r.2.Inside)
    (hordered : requests.Pairwise fun r r' => r.1 ≤ r'.1) (hnow : ∀ r ∈ requests, r.1 ≤ now) :
    (requests.foldl (fun b r => b.step r.1 r.2) b).Sound now := by
  induction requests generalizing b start with
  | nil => exact h.later hle
  | cons r rest ih =>
    rw [List.forall_mem_cons] at hstart hinside hnow
    rw [List.pairwise_cons] at hordered
    exact ih ((h.later hstart.1).step ha hinside.1) (ha.step r.1 r.2) hordered.1 hnow.1 hinside.2
      hordered.2 hnow.2

/-- **Ticks are neither lost nor duplicated nor early.** Ask anything of the schedules, at times
that do not decrease and through the slots of the chunks concerned. Then the schedules account for
all that is pending, at the time of the last request and later. -/
theorem accountable_run (requests : List (Nat × TickRequest κ))
    (hinside : ∀ r ∈ requests, r.2.Inside)
    (hordered : requests.Pairwise fun r r' => r.1 ≤ r'.1) (now : Nat)
    (hnow : ∀ r ∈ requests, r.1 ≤ now) : (run requests).Accountable now :=
  ((sound_empty 0).foldl agree_empty (fun _ _ => Nat.zero_le _) (Nat.zero_le now) hinside hordered
    hnow).accountable (agree_run requests)

/-- A tick is accepted in a chunk, handed over, taken back when it is overdue and handed over
again. -/
def overdue : List (Nat × TickRequest Nat) :=
  [(1, .schedule ⟨0, 0⟩ ⟨1, 2, 3⟩ 7 4 .normal), (2, .promote ⟨0, 0⟩), (9, .demote ⟨0, 0⟩),
    (9, .promote ⟨0, 0⟩)]

/-- It is pending until it comes out, and can be scheduled again after that. -/
theorem accountable_overdue :
    (run overdue).Accountable 9 ∧ (run (overdue ++ [(9, .popDue)])).Accountable 9 ∧
    ((run overdue).world.popDue? 9).map (·.1.key) = some ⟨⟨1, 2, 3⟩, 7⟩ ∧
    (run overdue).world.isScheduled ⟨1, 2, 3⟩ 7 = true ∧
    (run (overdue ++ [(9, .popDue)])).world.isScheduled ⟨1, 2, 3⟩ 7 = false := by
  refine ⟨?_, ?_, by decide, by decide, by decide⟩
  · apply accountable_run
    · simp [overdue, TickRequest.Inside]; decide
    · simp [overdue]
    · simp [overdue]
  · apply accountable_run
    · simp [overdue, TickRequest.Inside]; decide
    · simp [overdue]
    · simp [overdue]

end TickBoard

end VoxelChunk
