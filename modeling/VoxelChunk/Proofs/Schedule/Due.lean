import VoxelChunk.Proofs.Schedule

/-!
# Due ticks come out in order and completely

A world takes ticks in, hands out those that are due one at a time, and gives those of a chunk back
on demand. Which ticks are pending is known from its answers alone: a tick is noted when it is
accepted, and crossed out when it comes out. The notes stand in the order of acceptance, and the
schedule is held to them: by time, then by priority, then in the order of the notes.

The schedule itself numbers the ticks that it accepts and keeps them sorted. The invariant
`WorldSchedule.Tracks` ties the two together: sorted by their numbers, the ticks are the notes.

## Main definitions

* `Appointment.Precedes` — the order of ticks, by what was accepted first instead of by numbers.
* `ScheduleLog`, `ScheduleLog.run` — requests to a schedule, and what is pending by its answers.
* `WorldSchedule.HandsOut`, `WorldSchedule.Punctual` — what comes out, and what is left.

## Main results

* `WorldSchedule.Tracks.schedule`, `WorldSchedule.Tracks.keep` — ticks that come in and ticks that
  come out keep the invariant.
* `ScheduleLog.punctual_run` — after every run of requests the schedule is punctual.
-/

namespace VoxelChunk

variable {κ : Type}

/-! ### Appointments -/

/-- A tick that was asked for. -/
structure Appointment (κ : Type) where
  key : TickKey κ
  time : Nat
  priority : TickPriority

/-- What was asked for when the tick was scheduled. -/
def ScheduledTick.appointment (t : ScheduledTick κ) : Appointment κ := ⟨t.key, t.time, t.priority⟩

namespace Appointment

/-- By time, then by priority, then in the order of the list. -/
def Precedes (accepted : List (Appointment κ)) (a b : Appointment κ) : Prop :=
  a.time < b.time ∨ a.time = b.time ∧ (a.priority.rank < b.priority.rank ∨
    a.priority.rank = b.priority.rank ∧ [a, b].Sublist accepted)

/-- What was accepted apart from the two does not matter. -/
theorem Precedes.filter {accepted : List (Appointment κ)} {a b : Appointment κ}
    (h : Precedes accepted a b) {p : Appointment κ → Bool} (ha : p a = true) (hb : p b = true) :
    Precedes (accepted.filter p) a b := by
  refine h.imp_right fun ⟨htime, h⟩ => ⟨htime, h.imp_right fun ⟨hrank, h⟩ => ⟨hrank, ?_⟩⟩
  simpa [ha, hb] using h.filter p

end Appointment

/-- Where those that pass a test come first, the longest prefix of them has them all. -/
theorem takeWhile_eq_filter {α : Type} {p : α → Bool} {l : List α}
    (h : l.Pairwise fun a b => p b = true → p a = true) :
    l.takeWhile p = l.filter p := by
  induction l with
  | nil => rfl
  | cons x rest ih =>
    obtain ⟨hx, hrest⟩ := List.pairwise_cons.1 h
    by_cases hpx : p x = true
    · simp [hpx, ih hrest]
    · have hnone : ∀ a ∈ rest, p a = false := fun a ha =>
        Bool.eq_false_iff.2 fun hpa => hpx (hx a ha hpa)
      simpa [hpx] using hnone

/-- Of two members of an ordered list the lesser one is listed first. -/
theorem sublist_pair_of_pairwise {α : Type} {R : α → α → Prop} {l : List α} (hl : l.Pairwise R)
    {a b : α} (ha : a ∈ l) (hb : b ∈ l) (hne : a ≠ b) (hnot : ¬ R b a) : [a, b].Sublist l := by
  induction l with
  | nil => simp at ha
  | cons x rest ih =>
    obtain ⟨hx, hrest⟩ := List.pairwise_cons.1 hl
    rcases List.mem_cons.1 ha with hax | ha <;> rcases List.mem_cons.1 hb with hbx | hb
    · exact absurd (hax.trans hbx.symm) hne
    · rw [hax]
      exact (List.singleton_sublist.2 hb).cons_cons x
    · exact absurd (hbx ▸ hx a ha) hnot
    · exact (ih hrest ha hb).cons x

/-! ### Ticks that are kept in order -/

namespace WorldSchedule

open ScheduledTick

/-- A schedule keeps the pending appointments, listed in the order of their acceptance. -/
structure Tracks (s : WorldSchedule κ) (pending : List (Appointment κ)) : Prop where
  agree : s.Agree
  /-- In the order of their numbers the ticks are what is pending. -/
  accepted : ∃ ticks : List (ScheduledTick κ), ticks.Perm s.ticks ∧
    ticks.Pairwise (fun a b => a.uid < b.uid) ∧ ticks.map appointment = pending

theorem tracks_empty : ({} : WorldSchedule κ).Tracks [] where
  agree := agree_empty
  accepted := ⟨[], .nil, .nil, rfl⟩

namespace Tracks

variable {s : WorldSchedule κ} {pending : List (Appointment κ)}

theorem perm (h : s.Tracks pending) : (s.ticks.map appointment).Perm pending := by
  obtain ⟨ticks, hperm, -, rfl⟩ := h.accepted
  exact hperm.symm.map _

theorem perm_key (h : s.Tracks pending) : (s.ticks.map (·.key)).Perm (pending.map (·.key)) := by
  have hperm := h.perm.map (·.key)
  rwa [List.map_map] at hperm

/-- No target is pending twice at a position. -/
theorem nodup (h : s.Tracks pending) : (pending.map (·.key)).Nodup :=
  h.perm_key.nodup_iff.1 h.agree.nodup_ticks

/-- The order of the ticks is that of the appointments. -/
theorem precedes (h : s.Tracks pending) {a b : ScheduledTick κ} (ha : a ∈ s.ticks)
    (hb : b ∈ s.ticks) (hab : a.Before b) :
    Appointment.Precedes pending a.appointment b.appointment := by
  refine hab.imp_right fun ⟨htime, hab⟩ => ⟨htime, hab.imp_right fun ⟨hrank, huid⟩ => ⟨hrank, ?_⟩⟩
  obtain ⟨ticks, hperm, huids, rfl⟩ := h.accepted
  have hpair : [a, b].Sublist ticks :=
    sublist_pair_of_pairwise huids (hperm.mem_iff.2 ha) (hperm.mem_iff.2 hb)
      (fun heq => by simp [heq] at huid) (by omega)
  exact hpair.map appointment

/-- Ticks may be taken out at will. -/
theorem keep (h : s.Tracks pending) {next : WorldSchedule κ} (hagree : next.Agree)
    {p : Appointment κ → Bool} (hticks : next.ticks = s.ticks.filter fun t => p t.appointment) :
    next.Tracks (pending.filter p) where
  agree := hagree
  accepted := by
    obtain ⟨ticks, hperm, huids, rfl⟩ := h.accepted
    refine ⟨ticks.filter fun t => p t.appointment, ?_, huids.filter _, ?_⟩
    · exact hticks ▸ hperm.filter _
    · rw [List.filter_map, Function.comp_def]

variable [DecidableEq κ]

theorem isScheduled_iff (h : s.Tracks pending) {pos : BlockPos} {target : κ} :
    s.isScheduled pos target = true ↔ ⟨pos, target⟩ ∈ pending.map (·.key) := by
  rw [h.agree.isScheduled_iff, h.perm_key.mem_iff]

/-- A tick for a target that is not pending is noted last. -/
theorem schedule (h : s.Tracks pending) {pos : BlockPos} {target : κ}
    (hnew : s.isScheduled pos target = false) (time : Nat) (priority : TickPriority) :
    (s.schedule pos target time priority).2.Tracks
      (pending ++ [⟨⟨pos, target⟩, time, priority⟩]) where
  agree := h.agree.schedule pos target time priority
  accepted := by
    obtain ⟨ticks, hperm, huids, hpending⟩ := h.accepted
    refine ⟨ticks ++ [⟨s.nextUid, time, priority, ⟨pos, target⟩⟩], ?_, ?_, ?_⟩
    · refine (List.perm_append_singleton _ _).trans ((hperm.cons _).trans ?_)
      exact (h.agree.ticks_schedule hnew time priority).symm
    · rw [List.pairwise_append]
      refine ⟨huids, List.pairwise_singleton _ _, fun t ht u hu => ?_⟩
      rw [List.mem_singleton.1 hu]
      exact h.agree.numbered t (hperm.mem_iff.1 ht)
    · rw [List.map_append, hpending]
      rfl

end Tracks

/-! ### One tick after the other -/

section PopAllDue

variable [DecidableEq κ]

theorem popAllDue_of_none {s : WorldSchedule κ} {time : Nat} (h : s.popDue? time = none) :
    s.popAllDue time = ([], s) := by
  rw [popAllDue]
  split
  next => rfl
  next h' => simp [h] at h'

theorem popAllDue_of_some {s next : WorldSchedule κ} {time : Nat} {tick : ScheduledTick κ}
    (h : s.popDue? time = some (tick, next)) :
    s.popAllDue time = (tick :: (next.popAllDue time).1, (next.popAllDue time).2) := by
  rw [popAllDue]
  split
  next h' => simp [h] at h'
  next h' =>
    obtain ⟨rfl, rfl⟩ := by simpa [h] using h'
    rfl

/-- The longest prefix of due ticks is taken out, one tick after the other. -/
theorem popAllDue_eq (s : WorldSchedule κ) (time : Nat) :
    s.popAllDue time = (s.ticks.takeWhile fun t => t.time ≤ time,
      (s.ticks.takeWhile fun t => t.time ≤ time).foldl remove s) := by
  induction hticks : s.ticks generalizing s with
  | nil => exact popAllDue_of_none (by simp [popDue?, hticks])
  | cons t rest ih =>
    by_cases hdue : time < t.time
    · rw [popAllDue_of_none (by simp [popDue?, hticks, hdue])]
      simp [hdue]
    · have hpop : s.popDue? time = some (t, s.remove t) := by
        simp [popDue?, hticks, hdue, remove_head hticks]
      have hrest : (s.remove t).ticks = rest := by rw [remove_head hticks]
      rw [popAllDue_of_some hpop, ih _ hrest, List.takeWhile_cons_of_pos (by simpa using hdue),
        List.foldl_cons]

namespace Agree

variable {s : WorldSchedule κ}

/-- Of ticks in order those that are due come first. -/
theorem fst_popAllDue (h : s.Agree) (time : Nat) :
    (s.popAllDue time).1 = s.ticks.filter fun t => t.time ≤ time := by
  have hdue : s.ticks.Pairwise fun a b =>
      decide (b.time ≤ time) = true → decide (a.time ≤ time) = true :=
    h.ordered.imp fun hab hb => by
      simpa using Nat.le_trans hab.time_le (of_decide_eq_true hb)
  rw [popAllDue_eq, takeWhile_eq_filter hdue]

theorem popAllDue (h : s.Agree) (time : Nat) :
    (s.popAllDue time).2.Agree ∧
      (s.popAllDue time).2.ticks = s.ticks.filter fun t => !decide (t.time ≤ time) := by
  have hout := h.fst_popAllDue time
  rw [popAllDue_eq] at hout ⊢
  simp only at hout ⊢
  rw [hout]
  exact h.removeFilter _

end Agree

end PopAllDue

/-! ### What comes out -/

variable [DecidableEq κ]

/-- Of the pending ticks those that pass a test come out, each once and in order. The others stay,
and just those that came out can be scheduled again. -/
structure HandsOut (pending : List (Appointment κ)) (p : Appointment κ → Bool)
    (out : List (ScheduledTick κ)) (left : WorldSchedule κ) : Prop where
  complete : (out.map appointment).Perm (pending.filter p)
  ordered : (out.map appointment).Pairwise (Appointment.Precedes pending)
  others : (left.ticks.map appointment).Perm (pending.filter fun a => !p a)
  agree : left.Agree
  isScheduled : ∀ a ∈ pending, left.isScheduled a.key.pos a.key.target = !p a
  schedule_fst : ∀ a ∈ pending, ∀ time priority,
    (left.schedule a.key.pos a.key.target time priority).1 = p a

/-- A schedule answers as the pending appointments, listed in the order of their acceptance,
demand. -/
structure Punctual (s : WorldSchedule κ) (pending : List (Appointment κ)) : Prop where
  /-- The set of the keys agrees with the ticks. -/
  agree : s.Agree
  /-- No target is pending twice at a position, -/
  nodup : (pending.map (·.key)).Nodup
  /-- and only those that are pending are scheduled. -/
  isScheduled_iff : ∀ pos target,
    s.isScheduled pos target = true ↔ ⟨pos, target⟩ ∈ pending.map (·.key)
  /-- Until none is due the due ticks come out, -/
  popAllDue : ∀ time, HandsOut pending (fun a => a.time ≤ time) (s.popAllDue time).1
    (s.popAllDue time).2
  /-- and a chunk gets back its own. -/
  drainChunk : ∀ chunk, HandsOut pending (fun a => chunk.contains a.key.pos) (s.drainChunk chunk).1
    (s.drainChunk chunk).2

namespace Tracks

variable {s : WorldSchedule κ} {pending : List (Appointment κ)}

theorem handsOut (h : s.Tracks pending) {p : Appointment κ → Bool} {out : List (ScheduledTick κ)}
    {left : WorldSchedule κ} (hout : out = s.ticks.filter fun t => p t.appointment)
    (hagree : left.Agree) (hleft : left.ticks = s.ticks.filter fun t => !p t.appointment) :
    HandsOut pending p out left := by
  have hkept := h.keep (p := fun a => !p a) hagree hleft
  have hscheduled : ∀ a ∈ pending, left.isScheduled a.key.pos a.key.target = !p a := by
    intro a ha
    rw [Bool.eq_iff_iff, hkept.isScheduled_iff, List.mem_map]
    constructor
    · rintro ⟨b, hb, hkey⟩
      obtain rfl : b = a := List.inj_on_of_nodup_map h.nodup (List.mem_of_mem_filter hb) ha hkey
      exact (List.mem_filter.1 hb).2
    · exact fun hp => ⟨a, List.mem_filter.2 ⟨ha, hp⟩, rfl⟩
  subst hout
  refine ⟨?_, ?_, hkept.perm, hagree, hscheduled, fun a ha time priority => ?_⟩
  · have hperm := h.perm.filter p
    rwa [List.filter_map] at hperm
  · rw [List.pairwise_map]
    refine (h.agree.ordered.filter _).imp_of_mem fun ha hb hab => ?_
    exact h.precedes (List.mem_of_mem_filter ha) (List.mem_of_mem_filter hb) hab
  · rw [schedule_fst, hscheduled a ha, Bool.not_not]

/-- What is kept in order comes out in order. -/
theorem punctual (h : s.Tracks pending) : s.Punctual pending where
  agree := h.agree
  nodup := h.nodup
  isScheduled_iff _ _ := h.isScheduled_iff
  popAllDue time :=
    have ⟨hagree, hticks⟩ := h.agree.popAllDue time
    h.handsOut (h.agree.fst_popAllDue time) hagree hticks
  drainChunk chunk :=
    h.handsOut rfl (h.agree.drainChunk chunk) (h.agree.ticks_drainChunk chunk)

end Tracks

end WorldSchedule

/-! ### Requests -/

/-- What can be asked of the schedule of a world. -/
inductive ScheduleRequest (κ : Type) where
  /-- Schedule a tick. -/
  | schedule (pos : BlockPos) (target : κ) (time : Nat) (priority : TickPriority)
  /-- Take out the first tick if it is due at the time. -/
  | popDue (time : Nat)
  /-- Give the ticks of a chunk back. -/
  | drain (chunk : ChunkPos)

/-- A schedule, and the appointments that are pending by its answers in the order of their
acceptance. -/
structure ScheduleLog (κ : Type) where
  world : WorldSchedule κ := {}
  pending : List (Appointment κ) := []

namespace ScheduleLog

variable [DecidableEq κ]

/-- The targets of ticks that came out are crossed out. -/
def crossOut (log : ScheduleLog κ) (out : List (ScheduledTick κ)) : List (Appointment κ) :=
  log.pending.filter fun a => !(out.map (·.key)).contains a.key

/-- Do what is asked. What is pending follows the answer. -/
def step (log : ScheduleLog κ) : ScheduleRequest κ → ScheduleLog κ
  | .schedule pos target time priority =>
    let (accepted, world) := log.world.schedule pos target time priority
    ⟨world, if accepted then log.pending ++ [⟨⟨pos, target⟩, time, priority⟩] else log.pending⟩
  | .popDue time =>
    match log.world.popDue? time with
    | none => log
    | some (tick, world) => ⟨world, log.crossOut [tick]⟩
  | .drain chunk =>
    let (ticks, world) := log.world.drainChunk chunk
    ⟨world, log.crossOut ticks⟩

/-- Do everything that is asked where nothing is scheduled yet. -/
def run (requests : List (ScheduleRequest κ)) : ScheduleLog κ := requests.foldl step {}

/-- Crossing out is by targets. -/
theorem crossOut_eq {log : ScheduleLog κ} {out : List (ScheduledTick κ)} {p : TickKey κ → Bool}
    (h : ∀ key ∈ log.pending.map (·.key), (∃ t ∈ out, t.key = key) ↔ p key = true) :
    log.crossOut out = log.pending.filter fun a => !p a.key := by
  refine List.filter_congr fun a ha => ?_
  rw [Bool.not_inj_iff, Bool.eq_iff_iff, ← h a.key (List.mem_map_of_mem ha)]
  simp

/-- Whatever is asked, the schedule keeps what is pending by its answers. -/
theorem tracks_step {log : ScheduleLog κ} (h : log.world.Tracks log.pending)
    (request : ScheduleRequest κ) : (log.step request).world.Tracks (log.step request).pending := by
  cases request with
  | schedule pos target time priority =>
    cases hscheduled : log.world.isScheduled pos target with
    | true =>
      simp only [step, WorldSchedule.schedule_of_isScheduled hscheduled, Bool.false_eq_true,
        if_false]
      exact h
    | false =>
      simp only [step, WorldSchedule.schedule_fst, hscheduled, Bool.not_false, if_true]
      exact h.schedule hscheduled time priority
  | popDue time =>
    cases hpop : log.world.popDue? time with
    | none => simpa only [step, hpop] using h
    | some out =>
      obtain ⟨tick, world⟩ := out
      obtain ⟨-, hticks, rfl⟩ := WorldSchedule.popDue?_eq_some hpop
      have htick : tick ∈ log.world.ticks := by
        rw [hticks]
        exact List.mem_cons_self
      have hcrossed : log.crossOut [tick] = log.pending.filter fun a => !(a.key == tick.key) :=
        crossOut_eq (p := fun key => key == tick.key) fun key _ => by simpa using eq_comm
      simp only [step, hpop, hcrossed]
      exact h.keep (h.agree.remove htick) (h.agree.ticks_remove htick)
  | drain chunk =>
    have hcrossed : log.crossOut (log.world.drainChunk chunk).1 =
        log.pending.filter fun a => !chunk.contains a.key.pos := by
      refine crossOut_eq (p := fun key => chunk.contains key.pos) fun key hkey => ?_
      obtain ⟨t, ht, rfl⟩ := List.mem_map.1 (h.perm_key.mem_iff.2 hkey)
      simp only [WorldSchedule.drainChunk, List.mem_filter]
      constructor
      · rintro ⟨u, hu, hkey⟩
        exact hkey ▸ hu.2
      · exact fun hin => ⟨t, ⟨ht, hin⟩, rfl⟩
    simp only [step, hcrossed]
    exact h.keep (h.agree.drainChunk chunk) (h.agree.ticks_drainChunk chunk)

theorem tracks_run (requests : List (ScheduleRequest κ)) :
    (run requests).world.Tracks (run requests).pending := by
  have hfold : ∀ log : ScheduleLog κ, log.world.Tracks log.pending →
      (requests.foldl step log).world.Tracks (requests.foldl step log).pending := by
    induction requests with
    | nil => exact fun _ h => h
    | cons request rest ih => exact fun log h => ih _ (tracks_step h request)
  exact hfold {} WorldSchedule.tracks_empty

/-- **Due ticks come out in order and completely.** Whatever was asked of a schedule, its ticks and
the set of their keys agree. Taking ticks out until none is due, and giving the ticks of a chunk
back, hands out just the pending ticks that are due or lie in the chunk: each once, by time, then by
priority, then in the order of acceptance. The others stay scheduled, and what came out can be
scheduled again. -/
theorem punctual_run (requests : List (ScheduleRequest κ)) :
    (run requests).world.Punctual (run requests).pending :=
  (tracks_run requests).punctual

/-- Of five requests one is refused and one tick comes out again. -/
def errands : List (ScheduleRequest Nat) :=
  [.schedule ⟨1, 2, 3⟩ 7 5 .normal, .schedule ⟨1, 2, 3⟩ 7 2 .high, .schedule ⟨-1, 2, 3⟩ 7 5 .high,
    .schedule ⟨2, 2, 3⟩ 7 4 .low, .schedule ⟨3, 2, 3⟩ 7 5 .normal, .popDue 4]

/-- The other three are due at one time and come out by priority, then as they were accepted. -/
theorem punctual_errands :
    (run errands).world.Punctual (run errands).pending ∧
    (run errands).pending.map (·.key.pos.x) = [1, -1, 3] ∧
    (run errands).world.keys.length = 3 ∧
    ((run errands).world.popAllDue 5).1.map (·.key.pos.x) = [-1, 1, 3] ∧
    ((run errands).world.drainChunk ⟨0, 0⟩).1.map (·.key.pos.x) = [1, 3] ∧
    (run errands).world.isScheduled ⟨2, 2, 3⟩ 7 = false ∧
    ((run errands).world.drainChunk ⟨0, 0⟩).2.isScheduled ⟨1, 2, 3⟩ 7 = false := by
  refine ⟨punctual_run errands, by decide, by decide, ?_, by decide, by decide, by decide⟩
  rw [WorldSchedule.popAllDue_eq]
  decide

end ScheduleLog

end VoxelChunk
