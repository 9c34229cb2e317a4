import Mathlib.Data.List.Nodup
import Mathlib.Data.List.Perm.Basic
import VoxelChunk.Schedule.Chunk

/-!
# The ticks of a schedule and their keys

A schedule has its ticks in order and their keys in a set. It answers from the set whether a target
is scheduled, and hands out from the ticks what is due, so a key that stays behind blocks its target
for good, and one that goes too early lets it in twice. The two agree at first, and every operation
of a world's schedule or a chunk's keeps that.

A tick is put in and taken out by comparing times, priorities and numbers, never keys. So the
agreement of a world's schedule includes that its ticks stand in order and that no number is given
twice.

## Main definitions

* `ScheduledTick.Before` — the order in which ticks come out.
* `WorldSchedule.Agree`, `LocalSchedule.Agree`, `TickSlot.Agree` — the keys are those of the ticks.

## Main results

* `WorldSchedule.Agree.schedule`, `WorldSchedule.Agree.remove` — a tick comes in, a tick goes out.
* `TickSlot.agree_schedule`, `TickSlot.agree_promote`, `TickSlot.agree_demote` — the agreement is
  kept where a chunk and its world hand ticks to each other.
-/

namespace VoxelChunk

variable {κ : Type}

/-! ### The order in which ticks come out -/

/-- The priority as a number, lower ones come first. -/
def TickPriority.rank (priority : TickPriority) : Int := priority.level.toInt

namespace ScheduledTick

/-- By time, then by priority, then by number. -/
def Before (a b : ScheduledTick κ) : Prop :=
  a.time < b.time ∨ a.time = b.time ∧ (a.priority.rank < b.priority.rank ∨
    a.priority.rank = b.priority.rank ∧ a.uid < b.uid)

variable {a b c : ScheduledTick κ}

theorem compare_eq_lt : a.compare b = .lt ↔ a.Before b := by
  simp only [compare, Before, Ordering.then_eq_lt, Nat.compare_eq_lt, Nat.compare_eq_eq,
    Int.compare_eq_lt, Int.compare_eq_eq, TickPriority.rank]

theorem compare_eq_eq : a.compare b = .eq ↔
    a.time = b.time ∧ a.priority.rank = b.priority.rank ∧ a.uid = b.uid := by
  simp only [compare, Ordering.then_eq_eq, Nat.compare_eq_eq, Int.compare_eq_eq, TickPriority.rank]

theorem compare_self (a : ScheduledTick κ) : a.compare a = .eq := compare_eq_eq.2 ⟨rfl, rfl, rfl⟩

theorem Before.trans (hab : a.Before b) (hbc : b.Before c) : a.Before c := by
  unfold Before at *
  omega

theorem before_or_before (h : a.uid ≠ b.uid) : a.Before b ∨ b.Before a := by
  unfold Before
  omega

theorem Before.time_le (h : a.Before b) : a.time ≤ b.time := by
  unfold Before at h
  omega

/-- Of two ticks of which one comes out first neither is taken for the other. -/
theorem Before.compare_ne_eq (h : a.Before b) : b.compare a ≠ .eq := by
  rw [Ne, compare_eq_eq]
  unfold Before at h
  omega

end ScheduledTick

/-! ### The schedule of a world -/

namespace WorldSchedule

open ScheduledTick

theorem place_perm {tick : ScheduledTick κ} {ticks : List (ScheduledTick κ)}
    (hnew : ∀ t ∈ ticks, t.uid ≠ tick.uid) : (place tick ticks).Perm (tick :: ticks) := by
  induction ticks with
  | nil => exact .refl _
  | cons t rest ih =>
    rw [List.forall_mem_cons] at hnew
    unfold place
    split
    next => exact .refl _
    next heq => exact absurd (compare_eq_eq.1 heq).2.2.symm hnew.1
    next => exact ((ih hnew.2).cons t).trans (.swap tick t rest)

theorem mem_place {tick t : ScheduledTick κ} {ticks : List (ScheduledTick κ)}
    (hnew : ∀ t ∈ ticks, t.uid ≠ tick.uid) : t ∈ place tick ticks ↔ t = tick ∨ t ∈ ticks := by
  rw [(place_perm hnew).mem_iff, List.mem_cons]

/-- A tick with a new number is put where it belongs. -/
theorem pairwise_place {tick : ScheduledTick κ} {ticks : List (ScheduledTick κ)}
    (hticks : ticks.Pairwise Before) (hnew : ∀ t ∈ ticks, t.uid ≠ tick.uid) :
    (place tick ticks).Pairwise Before := by
  induction ticks with
  | nil => exact List.pairwise_singleton _ _
  | cons t rest ih =>
    have hnew' := List.forall_mem_cons.1 hnew
    unfold place
    split
    next h =>
      have hfirst : tick.Before t := compare_eq_lt.1 h
      refine List.pairwise_cons.2 ⟨?_, hticks⟩
      rw [List.forall_mem_cons]
      exact ⟨hfirst, fun u hu => hfirst.trans (List.rel_of_pairwise_cons hticks hu)⟩
    next => exact hticks
    next h =>
      have hlast : t.Before tick :=
        (before_or_before hnew'.1).resolve_right fun hfirst => by simp [compare_eq_lt.2 hfirst] at h
      rw [List.pairwise_cons] at hticks
      refine List.pairwise_cons.2 ⟨fun u hu => ?_, ih hticks.2 hnew'.2⟩
      rcases (mem_place hnew'.2).1 hu with rfl | hu
      · exact hlast
      · exact hticks.1 u hu

/-- The ticks stand in order and the keys are theirs. -/
structure Agree (s : WorldSchedule κ) : Prop where
  /-- The ticks stand in the order in which they come out. -/
  ordered : s.ticks.Pairwise Before
  /-- The next number is not given yet. -/
  numbered : ∀ t ∈ s.ticks, t.uid < s.nextUid
  /-- No key is in the set twice, -/
  nodup : s.keys.Nodup
  /-- and each is that of one tick. -/
  perm : (s.ticks.map (·.key)).Perm s.keys

theorem agree_empty : ({} : WorldSchedule κ).Agree where
  ordered := .nil
  numbered := by simp
  nodup := .nil
  perm := .nil

namespace Agree

variable {s : WorldSchedule κ}

theorem nodup_ticks (h : s.Agree) : (s.ticks.map (·.key)).Nodup := h.perm.nodup_iff.2 h.nodup

theorem fresh (h : s.Agree) : ∀ t ∈ s.ticks, t.uid ≠ s.nextUid := fun t ht =>
  Nat.ne_of_lt (h.numbered t ht)

end Agree

variable [DecidableEq κ]

/-- The first tick is taken out where it stands. -/
theorem remove_head {s : WorldSchedule κ} {t : ScheduledTick κ} {rest : List (ScheduledTick κ)}
    (h : s.ticks = t :: rest) :
    s.remove t = { s with ticks := rest, keys := s.keys.erase t.key } := by
  simp [remove, h, compare_self]

/-- A tick that is looked for in the order is found there, so no other one is taken out. -/
theorem eraseP_compare {tick : ScheduledTick κ} {ticks : List (ScheduledTick κ)}
    (hordered : ticks.Pairwise Before) (hnodup : (ticks.map (·.key)).Nodup) (ht : tick ∈ ticks) :
    (ticks.eraseP fun t => (tick.compare t).isEq) =
      ticks.filter fun t => !(t.key == tick.key) := by
  induction ticks with
  | nil => rfl
  | cons t rest ih =>
    rw [List.map_cons, List.nodup_cons] at hnodup
    rw [List.pairwise_cons] at hordered
    rcases List.mem_cons.1 ht with rfl | ht
    · have hrest : rest.filter (fun t => !(t.key == tick.key)) = rest :=
        List.filter_eq_self.2 fun t ht => by
          have hkey : t.key ≠ tick.key := fun hkey => hnodup.1 (hkey ▸ List.mem_map_of_mem ht)
          simpa using hkey
      rw [List.eraseP_cons_of_pos (by simp [compare_self]), List.filter_cons_of_neg (by simp),
        hrest]
    · have hkey : t.key ≠ tick.key := by
        intro hkey
        rw [hkey] at hnodup
        exact hnodup.1 (List.mem_map_of_mem ht)
      have hne : tick.compare t ≠ .eq := (hordered.1 tick ht).compare_ne_eq
      rw [List.eraseP_cons_of_neg (by simpa using hne), ih hordered.2 hnodup.2 ht,
        List.filter_cons_of_pos (by simpa using hkey)]

theorem popDue?_eq_some {s next : WorldSchedule κ} {time : Nat} {tick : ScheduledTick κ}
    (h : s.popDue? time = some (tick, next)) :
    tick.time ≤ time ∧ s.ticks = tick :: next.ticks ∧ next = s.remove tick := by
  have hticks := ticks_of_popDue? h
  refine ⟨?_, hticks, ?_⟩
  · simp only [popDue?, hticks, Option.ite_none_left_eq_some] at h
    omega
  · simp only [popDue?, hticks, Option.ite_none_left_eq_some, Option.some.injEq, Prod.mk.injEq] at h
    rw [remove_head hticks, h.2.2]

theorem schedule_fst (s : WorldSchedule κ) (pos : BlockPos) (target : κ) (time : Nat)
    (priority : TickPriority) :
    (s.schedule pos target time priority).1 = !s.isScheduled pos target := by
  unfold schedule
  split
  next h => rw [h, Bool.not_true]
  next h => rw [Bool.eq_false_iff.2 h, Bool.not_false]

theorem schedule_of_isScheduled {s : WorldSchedule κ} {pos : BlockPos} {target : κ}
    (h : s.isScheduled pos target = true) (time : Nat) (priority : TickPriority) :
    s.schedule pos target time priority = (false, s) := by
  rw [schedule, if_pos h]

namespace Agree

variable {s : WorldSchedule κ}

/-- The set answers as the ticks would. -/
theorem isScheduled_iff (h : s.Agree) {pos : BlockPos} {target : κ} :
    s.isScheduled pos target = true ↔ ⟨pos, target⟩ ∈ s.ticks.map (·.key) := by
  rw [isScheduled, List.contains_iff_mem, h.perm.mem_iff]

theorem ticks_schedule (h : s.Agree) {pos : BlockPos} {target : κ}
    (hnew : s.isScheduled pos target = false) (time : Nat) (priority : TickPriority) :
    (s.schedule pos target time priority).2.ticks.Perm
      (⟨s.nextUid, time, priority, ⟨pos, target⟩⟩ :: s.ticks) := by
  rw [WorldSchedule.schedule, if_neg (by simp [hnew])]
  exact place_perm h.fresh

/-- A tick that comes in brings its key, one that is refused brings nothing. -/
theorem schedule (h : s.Agree) (pos : BlockPos) (target : κ) (time : Nat)
    (priority : TickPriority) : (s.schedule pos target time priority).2.Agree := by
  cases hscheduled : s.isScheduled pos target with
  | true => exact (schedule_of_isScheduled hscheduled time priority).symm ▸ h
  | false =>
    have hperm := h.ticks_schedule hscheduled time priority
    have hkey : ⟨pos, target⟩ ∉ s.keys := by
      simpa [isScheduled] using hscheduled
    rw [WorldSchedule.schedule, if_neg (by simp [hscheduled])] at hperm ⊢
    refine ⟨pairwise_place h.ordered h.fresh, fun t ht => ?_, ?_, ?_⟩
    · rcases (mem_place h.fresh).1 ht with rfl | ht
      · exact Nat.lt_succ_self _
      · exact Nat.lt_succ_of_lt (h.numbered t ht)
    · rw [List.insert_of_not_mem hkey]
      exact List.nodup_cons.2 ⟨hkey, h.nodup⟩
    · rw [List.insert_of_not_mem hkey]
      exact (hperm.map _).trans (h.perm.cons _)

theorem ticks_remove (h : s.Agree) {tick : ScheduledTick κ} (ht : tick ∈ s.ticks) :
    (s.remove tick).ticks = s.ticks.filter fun t => !(t.key == tick.key) :=
  eraseP_compare h.ordered h.nodup_ticks ht

/-- A tick that goes out takes its key along. -/
theorem remove (h : s.Agree) {tick : ScheduledTick κ} (ht : tick ∈ s.ticks) :
    (s.remove tick).Agree := by
  have hticks := h.ticks_remove ht
  refine ⟨hticks ▸ h.ordered.filter _, fun t hmem => ?_, h.nodup.erase _, ?_⟩
  · rw [hticks] at hmem
    exact h.numbered t (List.mem_of_mem_filter hmem)
  · have hkeys : (s.remove tick).ticks.map (·.key) = (s.ticks.map (·.key)).erase tick.key := by
      rw [hticks, h.nodup_ticks.erase_eq_filter, List.filter_map]
      rfl
    rw [hkeys]
    exact h.perm.erase _

/-- Ticks that go out one after the other take their keys along. -/
theorem removeAll (h : s.Agree) {out : List (ScheduledTick κ)} (hout : ∀ t ∈ out, t ∈ s.ticks)
    (hnodup : (out.map (·.key)).Nodup) :
    (out.foldl WorldSchedule.remove s).Agree ∧ (out.foldl WorldSchedule.remove s).ticks =
      s.ticks.filter fun t => !(out.map (·.key)).contains t.key := by
  induction out generalizing s with
  | nil => exact ⟨h, by simp⟩
  | cons t rest ih =>
    rw [List.map_cons, List.nodup_cons] at hnodup
    rw [List.forall_mem_cons] at hout
    have hrest : ∀ u ∈ rest, u ∈ (s.remove t).ticks := by
      intro u hu
      rw [h.ticks_remove hout.1, List.mem_filter]
      have hne : u.key ≠ t.key := fun hkey => hnodup.1 (hkey ▸ List.mem_map_of_mem hu)
      exact ⟨hout.2 u hu, by simpa using hne⟩
    obtain ⟨hagree, hticks⟩ := ih (h.remove hout.1) hrest hnodup.2
    refine ⟨hagree, ?_⟩
    rw [List.foldl_cons, hticks, h.ticks_remove hout.1, List.filter_filter]
    refine List.filter_congr fun u _ => ?_
    rw [List.map_cons, List.contains_cons, Bool.not_or, Bool.and_comm]

/-- The ticks that pass a test go out, the others stay. -/
theorem removeFilter (h : s.Agree) (p : ScheduledTick κ → Bool) :
    ((s.ticks.filter p).foldl WorldSchedule.remove s).Agree ∧
      ((s.ticks.filter p).foldl WorldSchedule.remove s).ticks = s.ticks.filter fun t => !p t := by
  obtain ⟨hagree, hticks⟩ := h.removeAll (fun _ => List.mem_of_mem_filter)
    (h.nodup_ticks.sublist (List.filter_sublist.map _))
  refine ⟨hagree, hticks.trans (List.filter_congr fun t ht => ?_)⟩
  rw [Bool.not_inj_iff, Bool.eq_iff_iff, List.contains_iff_mem, List.mem_map]
  constructor
  · rintro ⟨u, hu, hkey⟩
    obtain rfl : u = t :=
      List.inj_on_of_nodup_map h.nodup_ticks (List.mem_of_mem_filter hu) ht hkey
    exact (List.mem_filter.1 hu).2
  · exact fun hp => ⟨t, List.mem_filter.2 ⟨ht, hp⟩, rfl⟩

theorem popDue? (h : s.Agree) {time : Nat} {tick : ScheduledTick κ} {next : WorldSchedule κ}
    (hpop : s.popDue? time = some (tick, next)) : next.Agree := by
  obtain ⟨-, hticks, rfl⟩ := popDue?_eq_some hpop
  exact h.remove (by rw [hticks]; exact List.mem_cons_self)

theorem nodup_drainChunk (h : s.Agree) (chunk : ChunkPos) :
    ((s.drainChunk chunk).1.map (·.key)).Nodup :=
  h.nodup_ticks.sublist (List.filter_sublist.map _)

theorem drainChunk (h : s.Agree) (chunk : ChunkPos) : (s.drainChunk chunk).2.Agree :=
  (h.removeFilter _).1

/-- The ticks of the chunk are taken out, the others stay. -/
theorem ticks_drainChunk (h : s.Agree) (chunk : ChunkPos) :
    (s.drainChunk chunk).2.ticks = s.ticks.filter fun t => !chunk.contains t.key.pos :=
  (h.removeFilter _).2

end Agree

end WorldSchedule

/-! ### The schedule of a chunk -/

namespace LocalSchedule

/-- The keys are those of the ticks, each once. -/
structure Agree (s : LocalSchedule κ) : Prop where
  nodup : s.keys.Nodup
  perm : (s.ticks.map (·.key)).Perm s.keys

theorem agree_empty : ({} : LocalSchedule κ).Agree where
  nodup := .nil
  perm := .nil

theorem Agree.nodup_ticks {s : LocalSchedule κ} (h : s.Agree) : (s.ticks.map (·.key)).Nodup :=
  h.perm.nodup_iff.2 h.nodup

variable [DecidableEq κ]

theorem schedule_fst (s : LocalSchedule κ) (pos : BlockPos) (target : κ) (delay : Nat)
    (priority : TickPriority) :
    (s.schedule pos target delay priority).1 = !s.isScheduled pos target := by
  unfold schedule
  split
  next h => rw [h, Bool.not_true]
  next h => rw [Bool.eq_false_iff.2 h, Bool.not_false]

theorem schedule_of_isScheduled {s : LocalSchedule κ} {pos : BlockPos} {target : κ}
    (h : s.isScheduled pos target = true) (delay : Nat) (priority : TickPriority) :
    s.schedule pos target delay priority = (false, s) := by
  rw [schedule, if_pos h]

theorem ticks_schedule {s : LocalSchedule κ} {pos : BlockPos} {target : κ}
    (h : s.isScheduled pos target = false) (delay : Nat) (priority : TickPriority) :
    (s.schedule pos target delay priority).2.ticks =
      s.ticks ++ [⟨⟨pos, target⟩, delay, priority⟩] := by
  rw [schedule, if_neg (by simp [h])]

/-- The set answers as the ticks would. -/
theorem Agree.isScheduled_iff {s : LocalSchedule κ} (h : s.Agree) {pos : BlockPos} {target : κ} :
    s.isScheduled pos target = true ↔ ⟨pos, target⟩ ∈ s.ticks.map (·.key) := by
  rw [isScheduled, List.contains_iff_mem, h.perm.mem_iff]

/-- A tick that comes in brings its key, one that is refused brings nothing. -/
theorem Agree.schedule {s : LocalSchedule κ} (h : s.Agree) (pos : BlockPos) (target : κ)
    (delay : Nat) (priority : TickPriority) :
    (s.schedule pos target delay priority).2.Agree := by
  cases hscheduled : s.isScheduled pos target with
  | true => exact (schedule_of_isScheduled hscheduled delay priority).symm ▸ h
  | false =>
    have hkey : ⟨pos, target⟩ ∉ s.keys := by
      simpa [isScheduled] using hscheduled
    rw [LocalSchedule.schedule, if_neg (by simp [hscheduled])]
    refine ⟨?_, ?_⟩
    · rw [List.insert_of_not_mem hkey]
      exact List.nodup_cons.2 ⟨hkey, h.nodup⟩
    · rw [List.insert_of_not_mem hkey, List.map_append]
      exact (List.perm_append_singleton _ _).trans (h.perm.cons _)

theorem agree_ofTicks (ticks : List (LocalTick κ)) : (ofTicks ticks).Agree := by
  have hfold : ∀ s : LocalSchedule κ, s.Agree → (ticks.foldl
      (fun s t => (s.schedule t.key.pos t.key.target t.delay t.priority).2) s).Agree := by
    induction ticks with
    | nil => exact fun _ h => h
    | cons t rest ih => exact fun s h => ih _ (h.schedule ..)
  exact hfold {} agree_empty

/-- A world that takes ticks over refuses those that it has. -/
theorem agree_drainInto (s : LocalSchedule κ) {world : WorldSchedule κ} (h : world.Agree)
    (now : Nat) : (s.drainInto world now).2.Agree := by
  obtain ⟨ticks, keys⟩ := s
  simp only [drainInto]
  induction ticks generalizing world with
  | nil => exact h
  | cons t rest ih => exact ih (h.schedule ..)

end LocalSchedule

/-! ### Handing ticks to each other -/

namespace TickSlot

/-- What the chunk holds agrees. -/
def Agree : TickSlot κ → Prop
  | held s => s.Agree
  | handedOver => True

theorem agree_empty : (empty : TickSlot κ).Agree := LocalSchedule.agree_empty

variable [DecidableEq κ] {slot : TickSlot κ} {world : WorldSchedule κ}

theorem agree_schedule (hslot : slot.Agree) (hworld : world.Agree) (pos : BlockPos) (target : κ)
    (delay now : Nat) (priority : TickPriority) :
    (slot.schedule world pos target delay now priority).2.1.Agree ∧
      (slot.schedule world pos target delay now priority).2.2.Agree := by
  cases slot with
  | held s => exact ⟨LocalSchedule.Agree.schedule hslot pos target delay priority, hworld⟩
  | handedOver => exact ⟨hslot, hworld.schedule pos target (now + delay) priority⟩

theorem agree_promote (hslot : slot.Agree) (hworld : world.Agree) (now : Nat) :
    (slot.promote world now).2.1.Agree ∧ (slot.promote world now).2.2.Agree := by
  cases slot with
  | held s => exact ⟨trivial, s.agree_drainInto hworld now⟩
  | handedOver => exact ⟨hslot, hworld⟩

theorem agree_demote (hslot : slot.Agree) (hworld : world.Agree) (chunk : ChunkPos) (now : Nat) :
    (slot.demote world chunk now).2.1.Agree ∧ (slot.demote world chunk now).2.2.Agree := by
  cases slot with
  | held s => exact ⟨hslot, hworld⟩
  | handedOver => exact ⟨LocalSchedule.agree_ofTicks _, hworld.drainChunk chunk⟩

end TickSlot

end VoxelChunk
