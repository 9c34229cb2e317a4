import VoxelChunk.Proofs.Schedule.Due

/-!
# Ticks that are taken back and handed over again

A chunk that is no longer ticked takes its ticks back from the world, and hands them over again
when it is ticked once more. In between the ticks have no times and no numbers, only delays and
their order. If both happens at one time then nothing changes elsewhere, and the chunk has the ticks
it had: what was overdue is due at once, and of ticks that are due together those of one priority
come out in the order in which they would have come out before.

## Main definitions

* `Appointment.notBefore` — an appointment that is put off until a time.
* `WorldSchedule.recalled` — the appointments of a chunk that takes its ticks back.
* `WorldSchedule.reschedule` — the world when they are handed over again.
* `WorldSchedule.Recalls` — what such a chunk may expect of the world.

## Main results

* `WorldSchedule.Tracks.drainInto` — ticks that are handed over are noted last, in their order.
* `ScheduleLog.recalls_run` — after every run of requests a chunk may take its ticks back and hand
  them over again.
-/

namespace VoxelChunk

variable {κ : Type}

/-- An appointment that is put off until a time if it is for an earlier one. -/
def Appointment.notBefore (a : Appointment κ) (now : Nat) : Appointment κ :=
  { a with time := max a.time now }

namespace WorldSchedule

open ScheduledTick

/-- The ticks that fail a test do not see a tick that passes it. -/
theorem filter_place {p : ScheduledTick κ → Bool} {tick : ScheduledTick κ} (h : p tick = false)
    (ticks : List (ScheduledTick κ)) : (place tick ticks).filter p = ticks.filter p := by
  induction ticks with
  | nil => simp [place, h]
  | cons t rest ih =>
    unfold place
    split
    · rw [List.filter_cons_of_neg (by simp [h])]
    · rfl
    · rw [List.filter_cons, List.filter_cons, ih]

variable [DecidableEq κ]

/-- The appointments of a chunk, in the order in which they would come out, put off until a time. -/
def recalled (s : WorldSchedule κ) (chunk : ChunkPos) (now : Nat) : List (Appointment κ) :=
  (s.drainChunk chunk).1.map fun t => t.appointment.notBefore now

theorem contains_of_mem_recalled {s : WorldSchedule κ} {chunk : ChunkPos} {now : Nat}
    {a : Appointment κ} (h : a ∈ s.recalled chunk now) : chunk.contains a.key.pos = true := by
  obtain ⟨t, ht, rfl⟩ := List.mem_map.1 h
  exact (List.mem_filter.1 ht).2

theorem map_key_recalled (s : WorldSchedule κ) (chunk : ChunkPos) (now : Nat) :
    (s.recalled chunk now).map (·.key) = (s.drainChunk chunk).1.map (·.key) := by
  rw [recalled, List.map_map]
  rfl

/-- What is noted elsewhere is told apart from the appointments of the chunk. -/
theorem filter_recalled (s : WorldSchedule κ) (pending : List (Appointment κ)) (chunk : ChunkPos)
    (now : Nat) :
    ((pending.filter fun a => !chunk.contains a.key.pos) ++ s.recalled chunk now).filter
      (fun a => chunk.contains a.key.pos) = s.recalled chunk now := by
  have hown : (s.recalled chunk now).filter (fun a => chunk.contains a.key.pos) =
      s.recalled chunk now := List.filter_eq_self.2 fun a ha => contains_of_mem_recalled ha
  simp [hown]

theorem filter_schedule {p : BlockPos → Bool} (s : WorldSchedule κ) {pos : BlockPos}
    (h : p pos = false) (target : κ) (time : Nat) (priority : TickPriority) :
    (s.schedule pos target time priority).2.ticks.filter (fun t => p t.key.pos) =
      s.ticks.filter fun t => p t.key.pos := by
  unfold schedule
  split
  · rfl
  · exact filter_place (p := fun t => p t.key.pos) h s.ticks

/-- The schedule when a chunk took its ticks back and handed them over again, both at one time. -/
def reschedule (s : WorldSchedule κ) (chunk : ChunkPos) (now : Nat) : WorldSchedule κ :=
  ((LocalSchedule.ofWorldTicks (s.drainChunk chunk).1 now).drainInto (s.drainChunk chunk).2 now).2

/-- What a chunk may expect of the world that had its ticks `before`, when it takes them back and
hands them over again at once. -/
structure Recalls (before after : WorldSchedule κ) (chunk : ChunkPos) (now : Nat) : Prop where
  /-- The ticks elsewhere are the same, in the same order, -/
  elsewhere : after.ticks.filter (fun t => !chunk.contains t.key.pos) =
    before.ticks.filter fun t => !chunk.contains t.key.pos
  /-- and come out as before. -/
  popElsewhere : ∀ time,
    (after.popAllDue time).1.filter (fun t => !chunk.contains t.key.pos) =
      (before.popAllDue time).1.filter fun t => !chunk.contains t.key.pos
  /-- Each tick of the chunk is there once, at its time or now if that is past, -/
  own : ((after.ticks.filter fun t => chunk.contains t.key.pos).map appointment).Perm
    (before.recalled chunk now)
  /-- they come out when they are due -/
  popOwn : ∀ time,
    (((after.popAllDue time).1.filter fun t => chunk.contains t.key.pos).map appointment).Perm
      ((before.recalled chunk now).filter fun a => a.time ≤ time)
  /-- and by their new times, their priorities and the order in which they came out before. -/
  ordered : ∀ time,
    (((after.popAllDue time).1.filter fun t => chunk.contains t.key.pos).map
      appointment).Pairwise (Appointment.Precedes (before.recalled chunk now))

end WorldSchedule

namespace LocalSchedule

variable [DecidableEq κ]

/-- Ticks that are taken back keep their order and what is left of their delays. -/
theorem ticks_ofWorldTicks {ticks : List (ScheduledTick κ)} (h : (ticks.map (·.key)).Nodup)
    (now : Nat) :
    (ofWorldTicks ticks now).ticks = ticks.map fun t => ⟨t.key, t.time - now, t.priority⟩ :=
  ticks_ofTicks (by simpa [Function.comp_def] using h)

/-- The appointments that a chunk makes when it hands its ticks over. -/
def appointments (s : LocalSchedule κ) (now : Nat) : List (Appointment κ) :=
  s.ticks.map fun t => ⟨t.key, now + t.delay, t.priority⟩

/-- Where a chunk has no ticks it hands none over. -/
theorem filter_drainInto {p : BlockPos → Bool} (s : LocalSchedule κ)
    (h : ∀ t ∈ s.ticks, p t.key.pos = false) (world : WorldSchedule κ) (now : Nat) :
    (s.drainInto world now).2.ticks.filter (fun t => p t.key.pos) =
      world.ticks.filter fun t => p t.key.pos := by
  obtain ⟨ticks, keys⟩ := s
  simp only [drainInto] at h ⊢
  induction ticks generalizing world with
  | nil => rfl
  | cons t rest ih =>
    rw [List.forall_mem_cons] at h
    rw [List.foldl_cons, ih _ h.2, WorldSchedule.filter_schedule world h.1]

end LocalSchedule

namespace WorldSchedule.Tracks

open ScheduledTick

variable [DecidableEq κ] {s : WorldSchedule κ} {pending : List (Appointment κ)}

/-- Ticks for targets that are not pending are noted last, in their order. -/
theorem drainInto (h : s.Tracks pending) (held : LocalSchedule κ) (now : Nat)
    (hnew : ((pending ++ held.appointments now).map (·.key)).Nodup) :
    (held.drainInto s now).2.Tracks (pending ++ held.appointments now) := by
  obtain ⟨ticks, keys⟩ := held
  simp only [LocalSchedule.drainInto, LocalSchedule.appointments] at hnew ⊢
  induction ticks generalizing s pending with
  | nil => simpa using h
  | cons t rest ih =>
    rw [List.map_cons, List.append_cons] at hnew ⊢
    have hfresh : s.isScheduled t.key.pos t.key.target = false := by
      rw [Bool.eq_false_iff, Ne, h.isScheduled_iff]
      intro hthere
      rw [List.map_append, List.map_append, List.nodup_append, List.nodup_append] at hnew
      exact hnew.1.2.2 _ hthere _ (List.mem_singleton_self _) rfl
    exact ih (h.schedule hfresh (now + t.delay) t.priority) hnew

/-- A chunk that takes its ticks back holds what is left of them. -/
theorem appointments_ofWorldTicks (h : s.Tracks pending) (chunk : ChunkPos) (now : Nat) :
    (LocalSchedule.ofWorldTicks (s.drainChunk chunk).1 now).appointments now =
      s.recalled chunk now := by
  rw [LocalSchedule.appointments, LocalSchedule.ticks_ofWorldTicks (h.agree.nodup_drainChunk chunk),
    List.map_map, recalled]
  refine List.map_congr_left fun t _ => ?_
  have hmax : now + (t.time - now) = max t.time now := by omega
  simp only [Function.comp_apply, hmax, appointment, Appointment.notBefore]

/-- The ticks of the chunk are taken back and noted again, after all others. -/
theorem reschedule (h : s.Tracks pending) (chunk : ChunkPos) (now : Nat) :
    (s.reschedule chunk now).Tracks
      ((pending.filter fun a => !chunk.contains a.key.pos) ++ s.recalled chunk now) := by
  have hleft : (s.drainChunk chunk).2.Tracks (pending.filter fun a => !chunk.contains a.key.pos) :=
    h.keep (h.agree.drainChunk chunk) (h.agree.ticks_drainChunk chunk)
  rw [← h.appointments_ofWorldTicks]
  refine hleft.drainInto _ now ?_
  rw [h.appointments_ofWorldTicks, List.map_append, List.nodup_append]
  refine ⟨hleft.nodup, ?_, ?_⟩
  · rw [map_key_recalled]
    exact h.agree.nodup_drainChunk chunk
  · -- those elsewhere are at other positions
    rintro _ hout _ hin rfl
    obtain ⟨a, ha, hkey⟩ := List.mem_map.1 hout
    obtain ⟨b, hb, hkey'⟩ := List.mem_map.1 hin
    have hcontains := contains_of_mem_recalled hb
    rw [hkey', ← hkey] at hcontains
    simpa [hcontains] using (List.mem_filter.1 ha).2

/-- Nothing changes elsewhere. -/
theorem elsewhere_reschedule (h : s.Tracks pending) (chunk : ChunkPos) (now : Nat) :
    (s.reschedule chunk now).ticks.filter (fun t => !chunk.contains t.key.pos) =
      s.ticks.filter fun t => !chunk.contains t.key.pos := by
  have hheld : ∀ t ∈ (LocalSchedule.ofWorldTicks (s.drainChunk chunk).1 now).ticks,
      (!chunk.contains t.key.pos) = false := by
    rw [LocalSchedule.ticks_ofWorldTicks (h.agree.nodup_drainChunk chunk), List.forall_mem_map]
    intro t ht
    rw [(List.mem_filter.1 ht).2, Bool.not_true]
  rw [WorldSchedule.reschedule,
    LocalSchedule.filter_drainInto (p := fun pos => !chunk.contains pos) _ hheld,
    h.agree.ticks_drainChunk, List.filter_filter]
  simp only [Bool.and_self]

/-- A world that notes the ticks of the chunk again after all others, and has the others as before,
is what the chunk may expect. -/
theorem recalls {after : WorldSchedule κ} {chunk : ChunkPos} {now : Nat} (h : s.Tracks pending)
    (hafter : after.Tracks ((pending.filter fun a => !chunk.contains a.key.pos) ++
      s.recalled chunk now))
    (helsewhere : after.ticks.filter (fun t => !chunk.contains t.key.pos) =
      s.ticks.filter fun t => !chunk.contains t.key.pos) : s.Recalls after chunk now where
  elsewhere := helsewhere
  popElsewhere time := by
    rw [hafter.agree.fst_popAllDue, h.agree.fst_popAllDue]
    simp only [List.filter_comm _ fun t : ScheduledTick κ => decide (t.time ≤ time), helsewhere]
  own := by
    have hown := hafter.perm.filter fun a => chunk.contains a.key.pos
    rwa [filter_recalled, List.filter_map] at hown
  popOwn time := by
    have hown := (hafter.punctual.popAllDue time).complete.filter fun a =>
      chunk.contains a.key.pos
    rwa [List.filter_comm, filter_recalled, List.filter_map] at hown
  ordered time := by
    have hordered := (hafter.punctual.popAllDue time).ordered.filter fun a =>
      chunk.contains a.key.pos
    rw [List.filter_map] at hordered
    refine hordered.imp_of_mem fun {a b} ha hb hab => ?_
    have hin : ∀ {a : Appointment κ}, a ∈ (((after.popAllDue time).1.filter
        ((fun a => chunk.contains a.key.pos) ∘ appointment)).map appointment) →
          chunk.contains a.key.pos = true := by
      intro a ha
      obtain ⟨t, ht, rfl⟩ := List.mem_map.1 ha
      exact (List.mem_filter.1 ht).2
    have hfilter := hab.filter (p := fun a => chunk.contains a.key.pos) (hin ha) (hin hb)
    rwa [filter_recalled] at hfilter

end WorldSchedule.Tracks

namespace ScheduleLog

variable [DecidableEq κ]

/-- **Ticks that are taken back and handed over again are preserved.** Whatever was asked of a
schedule, a chunk that handed its ticks over can take them back, and hand them over again at the
same time. In the chunk, and in the world before and after, the ticks agree with the set of their
keys. Nothing changes elsewhere. The chunk has its ticks as they were, the overdue ones due at once,
and of those that are due together the ones of one priority come out in the order in which they
would have come out before. To the schedule they are the last that it accepted. -/
theorem recalls_run (requests : List (ScheduleRequest κ)) (chunk : ChunkPos) (now : Nat) :
    ∃ held left after,
      TickSlot.handedOver.demote (run requests).world chunk now = (true, .held held, left) ∧
      held.Agree ∧ left.Agree ∧
      (TickSlot.held held).promote left now = (true, .handedOver, after) ∧
      (run requests).world.Recalls after chunk now ∧
      after.Punctual (((run requests).pending.filter fun a => !chunk.contains a.key.pos) ++
        (run requests).world.recalled chunk now) := by
  have h := tracks_run requests
  have hafter := h.reschedule chunk now
  exact ⟨_, _, (run requests).world.reschedule chunk now, rfl, LocalSchedule.agree_ofTicks _,
    h.agree.drainChunk chunk, rfl, h.recalls hafter (h.elsewhere_reschedule chunk now),
    hafter.punctual⟩

/-- One tick comes out, three of the chunk and one elsewhere stay. -/
def late : List (ScheduleRequest Nat) :=
  [.schedule ⟨1, 2, 3⟩ 0 5 .normal, .schedule ⟨2, 2, 3⟩ 0 4 .normal, .schedule ⟨3, 2, 3⟩ 0 6 .high,
    .schedule ⟨4, 2, 3⟩ 0 1 .normal, .schedule ⟨-1, 2, 3⟩ 0 7 .low, .popDue 2]

/-- Two overdue ticks of different times are due together afterwards and keep their order, while
one of a higher priority overtakes them. The tick elsewhere is not due later. -/
theorem recalls_late :
    ∃ held left after,
      TickSlot.handedOver.demote (run late).world ⟨0, 0⟩ 9 = (true, .held held, left) ∧
      (TickSlot.held held).promote left 9 = (true, .handedOver, after) ∧
      (run late).world.Recalls after ⟨0, 0⟩ 9 ∧
      held.ticks.map (fun t => (t.key.pos.x, t.delay)) = [(2, 0), (1, 0), (3, 0)] ∧
      left.keys.map (·.pos.x) = [-1] ∧
      after.ticks.map (fun t => (t.key.pos.x, t.time)) = [(-1, 7), (3, 9), (2, 9), (1, 9)] := by
  obtain ⟨held, left, after, hdemote, -, -, hpromote, hrecalls, -⟩ := recalls_run late ⟨0, 0⟩ 9
  obtain ⟨hheld, hleft⟩ : held = .ofWorldTicks ((run late).world.drainChunk ⟨0, 0⟩).1 9 ∧
      left = ((run late).world.drainChunk ⟨0, 0⟩).2 := by
    simpa [TickSlot.demote, eq_comm] using hdemote
  obtain rfl : after = (held.drainInto left 9).2 := by
    simpa [TickSlot.promote, eq_comm] using hpromote
  subst hheld hleft
  exact ⟨_, _, _, hdemote, hpromote, hrecalls, by decide, by decide, by decide⟩

end ScheduleLog

end VoxelChunk
