import VoxelChunk.Proofs.Chunk.Moves
import VoxelChunk.Proofs.Chunk.Replay
import VoxelChunk.Proofs.Listener

/-!
# Block entities that are removed

A block entity that is removed from a chunk that can tick it goes with its ticker and its listener,
which an event tells, and nothing else changes. What several of them leave when they go one after
another can be told from their positions.

## Main definitions

* `Site.Stripped` — block entities are gone with their tickers and listeners, and no others.
* `Site.Cleared` — this has been told, and nothing else has changed.

## Main results

* `Site.cleared_removeEntity`, `Site.cleared_foldl` — one block entity, and one after another.
* `Site.Stripped.tickerAt?_eq` — the other positions keep their tickers.
-/

namespace VoxelChunk

variable {α τ : Type}

namespace Site

/-- The block entities at some positions are gone with their tickers and listeners, and all others
are as they were. -/
structure Stripped (s : Site α τ) (gone : List BlockPos) (t : Site α τ) : Prop where
  entity : ∀ pos, t.chunk.entities.find? pos =
    if pos ∈ gone then none else s.chunk.entities.find? pos
  ticker : ∀ pos, t.chunk.tickers.find? pos =
    if pos ∈ gone then none else s.chunk.tickers.find? pos
  /-- The names of the tickers that are gone stand for nothing. -/
  active : ∀ name, t.level.tickers.get? name =
    if name ∈ gone.filterMap s.chunk.tickers.find? then none else s.level.tickers.get? name
  /-- In each section the listeners that stay are in the order they had. -/
  listeners : ∀ sectionY, t.chunk.dispatchers.listenersOf sectionY =
    (s.chunk.dispatchers.listenersOf sectionY).filter fun l =>
      ¬(sectionY = sectionCoord l.source.y ∧ l.source ∈ gone)

/-- Block entities have been taken away, which has been told, and nothing else has changed. -/
structure Cleared (s : Site α τ) (gone : List BlockPos) (t : Site α τ) : Prop extends
    s.Stripped gone t where
  adds : s.Adds t (gone.map .entityRemoved)
  chunk : t.chunk = { s.chunk with
    entities := t.chunk.entities
    tickers := t.chunk.tickers
    dispatchers := t.chunk.dispatchers }
  level : t.level = { s.level with tickers := t.level.tickers, events := t.level.events }

variable {s t u : Site α τ} {gone gone' : List BlockPos}

/-- What is gone first and what is gone later is gone together. -/
theorem ite_mem_append {β : Type} (pos : BlockPos) (there : Option β) :
    (if pos ∈ gone' then none else if pos ∈ gone then none else there) =
      if pos ∈ gone ++ gone' then none else there := by
  by_cases hlater : pos ∈ gone' <;> by_cases hgone : pos ∈ gone <;> simp [hlater, hgone]

namespace Stripped

theorem refl (s : Site α τ) : s.Stripped [] s where
  entity := fun _ => rfl
  ticker := fun _ => rfl
  active := fun _ => rfl
  listeners := fun sectionY => by simp

/-- A name that is given up at first is not there to be given up again. -/
theorem mem_names_append (h : s.Stripped gone t) (gone' : List BlockPos) (name : TickerHandle) :
    name ∈ (gone ++ gone').filterMap s.chunk.tickers.find? ↔
      name ∈ gone.filterMap s.chunk.tickers.find? ∨
        name ∈ gone'.filterMap t.chunk.tickers.find? := by
  rw [List.filterMap_append, List.mem_append]
  constructor
  · rintro (hname | hname)
    · exact .inl hname
    · obtain ⟨pos, hpos, hname⟩ := List.mem_filterMap.1 hname
      by_cases hgone : pos ∈ gone
      · exact .inl (List.mem_filterMap.2 ⟨pos, hgone, hname⟩)
      · refine .inr (List.mem_filterMap.2 ⟨pos, hpos, ?_⟩)
        rw [h.ticker, if_neg hgone, hname]
  · rintro (hname | hname)
    · exact .inl hname
    · obtain ⟨pos, hpos, hname⟩ := List.mem_filterMap.1 hname
      rw [h.ticker] at hname
      split at hname
      · cases hname
      · exact .inr (List.mem_filterMap.2 ⟨pos, hpos, hname⟩)

/-- Block entities go one after another. -/
theorem trans (h : s.Stripped gone t) (h' : t.Stripped gone' u) : s.Stripped (gone ++ gone') u where
  entity := by
    intro pos
    rw [h'.entity, h.entity, ite_mem_append]
  ticker := by
    intro pos
    rw [h'.ticker, h.ticker, ite_mem_append]
  active := by
    intro name
    rw [h'.active, h.active, if_congr (h.mem_names_append gone' name) rfl rfl]
    by_cases hlater : name ∈ gone'.filterMap t.chunk.tickers.find?
    · rw [if_pos hlater, if_pos (.inr hlater)]
    · rw [if_neg hlater]
      exact if_congr (or_iff_left hlater).symm rfl rfl
  listeners := by
    intro sectionY
    rw [h'.listeners, h.listeners, List.filter_filter]
    refine List.filter_congr fun l _ => ?_
    by_cases hy : sectionY = sectionCoord l.source.y <;> simp [hy, Bool.and_comm]

/-- Where each name stands for a ticker of its position, the other positions keep theirs. -/
theorem tickerAt?_eq (h : s.Stripped gone t) (hwired : s.Wired) (pos : BlockPos) :
    t.tickerAt? pos = if pos ∈ gone then none else s.tickerAt? pos := by
  unfold tickerAt?
  rw [h.ticker]
  split
  · rfl
  · next hpos =>
    cases hname : s.chunk.tickers.find? pos with
    | none => rfl
    | some name =>
      rw [Option.bind_some, Option.bind_some, h.active, if_neg]
      intro hgone
      obtain ⟨other, hother, hsame⟩ := List.mem_filterMap.1 hgone
      exact hpos (hwired.eq_of_name_eq hname hsame ▸ hother)

end Stripped

namespace Cleared

theorem refl (s : Site α τ) : s.Cleared [] s where
  toStripped := .refl s
  adds := .refl s
  chunk := rfl
  level := rfl

theorem trans (h : s.Cleared gone t) (h' : t.Cleared gone' u) : s.Cleared (gone ++ gone') u where
  toStripped := h.toStripped.trans h'.toStripped
  adds := by
    rw [List.map_append]
    exact h.adds.trans h'.adds
  chunk := by
    rw [h'.chunk, h.chunk]
  level := by
    rw [h'.level, h.level]

theorem exists_eq (h : s.Cleared gone t) : ∃ entities names dispatchers tickers events, t =
    { chunk := { s.chunk with entities, tickers := names, dispatchers }
      level := { s.level with tickers, events } } :=
  ⟨_, _, _, _, _, congrArg₂ Site.mk h.chunk h.level⟩

/-- Blocks and all that decides whether block entities are ticked stay as they are. -/
theorem ground_eq (h : s.Cleared gone t) : t.ground = s.ground := by
  obtain ⟨entities, names, dispatchers, tickers, events, rfl⟩ := h.exists_eq
  rfl

end Cleared

/-- A block entity is taken out with its listener and its ticker, which an event may tell. -/
theorem stripped_removeTicker (s : Site α τ) (pos : BlockPos) (events : Option (Array Event)) :
    s.Stripped [pos] (Site.removeTicker
      { chunk := Chunk.removeListener
          { s.chunk with entities := s.chunk.entities.swapErase pos } pos
        level := { s.level with events } } pos) := by
  generalize htaken : Site.mk (Chunk.removeListener
    { s.chunk with entities := s.chunk.entities.swapErase pos } pos)
    { s.level with events } = taken
  have hnames := find?_removeTicker taken pos
  have hactive := get?_removeTicker taken pos
  obtain ⟨names, tickers, heq⟩ := removeTicker_eq taken pos
  rw [heq] at hnames hactive ⊢
  subst htaken
  exact
    { entity := by
        intro other
        rw [if_congr List.mem_singleton rfl rfl]
        exact Keyed.find?_swapErase _ pos other
      ticker := by
        intro other
        rw [if_congr List.mem_singleton rfl rfl]
        exact hnames other
      active := by
        intro name
        refine (hactive name).trans (if_congr ?_ rfl rfl)
        simp [Chunk.removeListener]
      listeners := by
        intro sectionY
        refine (Dispatchers.listenersOf_removeListener _ _ pos sectionY).trans ?_
        refine List.filter_congr fun l _ => ?_
        rw [decide_eq_decide, List.mem_singleton]
        exact not_congr (and_congr_left fun hl => by rw [hl]) }

/-- **One block entity goes** with its ticker and its listener. -/
theorem cleared_removeEntity (htick : s.canTick) {pos : BlockPos}
    (hpos : s.chunk.entities.contains pos) : s.Cleared [pos] (s.removeEntity pos).2 := by
  have hremoved : (s.removeEntity pos).2 = Site.removeTicker
      { chunk := Chunk.removeListener
          { s.chunk with entities := s.chunk.entities.swapErase pos } pos
        level := s.level.push (.entityRemoved pos) } pos := by
    unfold removeEntity takeEntity
    rw [if_pos htick, if_pos hpos]
    rfl
  have hstripped := stripped_removeTicker s pos (s.level.push (.entityRemoved pos)).events
  rw [hremoved]
  obtain ⟨names, tickers, heq⟩ := removeTicker_eq (Site.mk (Chunk.removeListener
    { s.chunk with entities := s.chunk.entities.swapErase pos } pos)
    (s.level.push (.entityRemoved pos))) pos
  refine { toStripped := hstripped, adds := ?_, chunk := ?_, level := ?_ }
  · rw [heq]
    exact adds_push s (.entityRemoved pos)
  · rw [heq]
    rfl
  · rw [heq]
    rfl

/-- **Block entities go one after another.** -/
theorem cleared_foldl {positions : List BlockPos} (htick : s.canTick) (hnodup : positions.Nodup)
    (hall : ∀ pos ∈ positions, s.chunk.entities.contains pos) :
    s.Cleared positions (positions.foldl (fun s pos => (s.removeEntity pos).2) s) := by
  induction positions generalizing s with
  | nil => exact .refl s
  | cons pos positions ih =>
    obtain ⟨hnew, hnodup⟩ := List.nodup_cons.1 hnodup
    have hfirst := cleared_removeEntity htick (hall pos List.mem_cons_self)
    refine hfirst.trans (ih ?_ hnodup fun other hother => ?_)
    · rw [canTick_eq hfirst.ground_eq, htick]
    · have hne : other ∉ [pos] := fun hmem => hnew (List.mem_singleton.1 hmem ▸ hother)
      unfold Keyed.contains
      rw [hfirst.entity, if_neg hne]
      exact hall other (List.mem_cons_of_mem pos hother)

end Site

end VoxelChunk
