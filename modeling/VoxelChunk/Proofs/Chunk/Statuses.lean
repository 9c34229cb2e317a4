import Mathlib.Data.List.Chain
import VoxelChunk.Proofs.Chunk.Lasting
import VoxelChunk.Proofs.Chunk.Moves
import VoxelChunk.Proofs.Chunk.Packet
import VoxelChunk.Proofs.Chunk.Replay

/-!
# Events tell which sections are empty

Those who light a world learn from events which sections have become empty and which are so no
longer. Sections change by writes, by those made in reaction, and by packets. Each time a section
changes in this respect an event tells it, and no event tells what is known already, so what events
say of a section alternates, and the last of them tells how it is.

## Main definitions

* `statuses` — what events say of a section.
* `Alternates` — each time the opposite is said.
* `Site.Reports` — what has changed has been told, for each section.
* `BlocksEdit`, `Site.rework`, `Site.reworks` — writes and packets, one after another.

## Main results

* `Site.reports_storeBlock`, `Site.reports_replaceSection` — single changes.
* `Site.Reports.lasting` — whatever blocks do in reaction to a write, all has been told.
* `Site.statuses_reworks` — runs of writes and packets.
-/

namespace VoxelChunk

variable {α τ : Type}

/-! ### What events say -/

/-- What an event says of a section: whether it is empty. -/
def Event.statusAt? (column : ChunkPos) (sectionY : Int) : Event → Option Bool
  | .sectionStatus chunk y empty => if chunk = column ∧ y = sectionY then some empty else none
  | _ => none

/-- What events say of a section, one after another. -/
def statuses (events : List Event) (column : ChunkPos) (sectionY : Int) : List Bool :=
  events.filterMap (Event.statusAt? column sectionY)

@[simp] theorem statuses_nil (column : ChunkPos) (sectionY : Int) :
    statuses [] column sectionY = [] := rfl

@[simp] theorem statuses_append (events events' : List Event) (column : ChunkPos)
    (sectionY : Int) : statuses (events ++ events') column sectionY =
      statuses events column sectionY ++ statuses events' column sectionY :=
  List.filterMap_append

theorem statuses_sectionStatus (chunk column : ChunkPos) (y sectionY : Int) (empty : Bool) :
    statuses [.sectionStatus chunk y empty] column sectionY =
      if chunk = column ∧ y = sectionY then [empty] else [] := by
  unfold statuses Event.statusAt?
  split <;> simp [*]

/-- Events of block entities say nothing of sections. -/
theorem statuses_of_entity {events : List Event} (h : ∀ event ∈ events, event.OfEntity)
    (column : ChunkPos) (sectionY : Int) : statuses events column sectionY = [] := by
  refine List.filterMap_eq_nil_iff.2 fun event hmem => ?_
  have hof := h event hmem
  cases event with
  | entitySet _ => rfl
  | entityRemoved _ => rfl
  | block => cases hof
  | sectionStatus => cases hof

/-- Starting from `start`, each time the opposite is said, and in the end it is `final`. -/
structure Alternates (start : Bool) (flags : List Bool) (final : Bool) : Prop where
  chain : (start :: flags).IsChain (· ≠ ·)
  last : final = flags.getLastD start

namespace Alternates

variable {start mid final : Bool} {flags flags' : List Bool}

theorem refl (start : Bool) : Alternates start [] start := ⟨List.isChain_singleton start, rfl⟩

theorem of_ne (h : start ≠ final) : Alternates start [final] final :=
  ⟨List.isChain_pair.2 h, rfl⟩

theorem append (h : Alternates start flags mid) (h' : Alternates mid flags' final) :
    Alternates start (flags ++ flags') final := by
  obtain ⟨hchain, hlast⟩ := h
  induction flags generalizing start with
  | nil =>
    cases hlast
    exact h'
  | cons flag flags ih =>
    obtain ⟨hne, hchain⟩ := List.isChain_cons_cons.1 hchain
    have hrest := ih hchain (hlast.trans List.getLastD_cons)
    refine ⟨List.isChain_cons_cons.2 ⟨hne, hrest.chain⟩, ?_⟩
    exact hrest.last.trans List.getLastD_cons.symm

end Alternates

/-! ### Sections -/

/-- A write that fails or stores what was there already is not counted. -/
theorem Section.isEmpty_set (sec : Section) (facts : BlockFacts) (pos : BlockPos)
    (state : BlockState)
    (h : ∀ previous, (sec.set facts pos state).1 = .ok previous → previous = state) :
    (sec.set facts pos state).2.isEmpty = sec.isEmpty := by
  unfold set at h ⊢
  generalize sec.states.set (cellIndex pos) state = out at h ⊢
  obtain ⟨outcome, states⟩ := out
  cases outcome with
  | error e => rfl
  | ok previous =>
    simp only at h ⊢
    split at h
    · next heq => rw [if_pos heq]; rfl
    · next hne => exact absurd (h previous rfl) hne

theorem Chunk.isSectionEmpty_eq (c : Chunk α) (index globalBits : Nat) :
    c.isSectionEmpty index = ((c.section? index).getD (.empty globalBits)).isEmpty := by
  unfold isSectionEmpty
  cases c.section? index <;> rfl

namespace Site

variable {cfg : Config α τ} {s s' s'' t : Site α τ} {index : Nat}

/-! ### What has changed has been told -/

/-- Of each section the events that have been added say alternately whether it is empty, starting
from what it was before and ending with what it is now. -/
structure Reports (cfg : Config α τ) (s s' : Site α τ) : Prop where
  pos : s'.chunk.pos = s.chunk.pos
  size : s'.chunk.sections.size = s.chunk.sections.size
  adds : ∃ news, s.Adds s' news ∧ ∀ index < cfg.height.sectionCount,
    Alternates (s.chunk.isSectionEmpty index)
      (statuses news s.chunk.pos (cfg.height.sectionCoordOf index))
      (s'.chunk.isSectionEmpty index)

namespace Reports

theorem of_utters (hpos : s'.chunk.pos = s.chunk.pos)
    (hsections : s'.chunk.sections = s.chunk.sections) (h : s.Utters s') : Reports cfg s s' := by
  obtain ⟨news, hadds, hof⟩ := h
  refine ⟨hpos, congrArg Array.size hsections, news, hadds, fun index _ => ?_⟩
  rw [statuses_of_entity hof, Chunk.isSectionEmpty, Chunk.isSectionEmpty, Chunk.section?,
    Chunk.section?, hsections]
  exact .refl _

theorem refl (s : Site α τ) : Reports cfg s s := of_utters rfl rfl (.of_eq rfl)

theorem trans (h : Reports cfg s s') (h' : Reports cfg s' s'') : Reports cfg s s'' := by
  obtain ⟨news, hadds, htold⟩ := h.adds
  obtain ⟨news', hadds', htold'⟩ := h'.adds
  refine ⟨h'.pos.trans h.pos, h'.size.trans h.size, news ++ news', hadds.trans hadds',
    fun index hindex => ?_⟩
  have hlater := htold' index hindex
  rw [h.pos] at hlater
  rw [statuses_append]
  exact (htold index hindex).append hlater

end Reports

section Put

variable {new : Option Section} (hsize : s.chunk.sections.size = cfg.height.sectionCount)
  (hindex : index < cfg.height.sectionCount) (hpos : t.chunk.pos = s.chunk.pos)
  (hsections : t.chunk.sections = s.chunk.sections.setIfInBounds index new)
include hsize hindex hsections

/-- Which sections are empty once one section has been put in its place. -/
theorem isSectionEmpty_put (other : Nat) : t.chunk.isSectionEmpty other =
    if other = index then new.all Section.isEmpty else s.chunk.isSectionEmpty other := by
  unfold Chunk.isSectionEmpty Chunk.section?
  rw [hsections, join_setIfInBounds (hsize ▸ hindex)]
  split <;> rfl

include hpos

/-- A section that is empty as before need not be told. -/
theorem reports_put_same (hsame : new.all Section.isEmpty = s.chunk.isSectionEmpty index)
    (hevents : t.level.events = s.level.events) : Reports cfg s t := by
  refine ⟨hpos, hsections ▸ Array.size_setIfInBounds, [], .of_eq hevents, fun other _ => ?_⟩
  rw [isSectionEmpty_put hsize hindex hsections]
  split
  · next heq =>
    rw [heq, hsame]
    exact .refl _
  · exact .refl _

/-- **A section that is empty unlike before is told.** -/
theorem reports_put_flipped (hne : s.chunk.isSectionEmpty index ≠ new.all Section.isEmpty)
    (hadds : s.Adds t [.sectionStatus s.chunk.pos (cfg.height.sectionCoordOf index)
      (new.all Section.isEmpty)]) : Reports cfg s t := by
  refine ⟨hpos, hsections ▸ Array.size_setIfInBounds, _, hadds, fun other hother => ?_⟩
  rw [isSectionEmpty_put hsize hindex hsections, statuses_sectionStatus]
  by_cases heq : other = index
  · rw [if_pos heq, heq, if_pos ⟨rfl, rfl⟩]
    exact .of_ne hne
  · -- the event is of another section
    rw [if_neg heq, if_neg fun hcoord =>
      heq (HeightLimit.sectionCoordOf_inj hother hindex hcoord.2.symm)]
    exact .refl _

end Put

/-- **Storing a state** is told if the section becomes empty by it or ceases to be. -/
theorem reports_storeBlock (hsize : s.chunk.sections.size = cfg.height.sectionCount)
    (hindex : index < cfg.height.sectionCount) (pos : BlockPos) (state : BlockState) :
    Reports cfg s (s.storeBlock cfg index pos state).2 := by
  have hbefore := s.chunk.isSectionEmpty_eq index cfg.globalBits
  have huncounted := Section.isEmpty_set (s.chunk.sections[index]?.join.getD (.empty cfg.globalBits))
    cfg.facts pos state
  change (∀ previous, (s.written cfg index pos state).1 = .ok previous → previous = state) →
    (s.written cfg index pos state).2.isEmpty = _ at huncounted
  have hsame : (s.written cfg index pos state).2.isEmpty =
      (s.chunk.sections[index]?.join.getD (.empty cfg.globalBits)).isEmpty →
        (some (s.written cfg index pos state).2).all Section.isEmpty =
          s.chunk.isSectionEmpty index := fun heq => heq.trans hbefore.symm
  have hstoring := storing s cfg index pos state
  generalize s.storeBlock cfg index pos state = out at hstoring ⊢
  cases hstoring with
  | skipped => exact .refl s
  | failed cause notices hread =>
    rw [hread] at huncounted
    exact reports_put_same hsize hindex rfl rfl (hsame (huncounted nofun)) rfl
  | same hread =>
    rw [hread] at huncounted
    exact reports_put_same hsize hindex rfl rfl
      (hsame (huncounted fun _ hok => (Except.ok.inj hok).symm)) rfl
  | changed previous events notices _ _ hevents =>
    rw [hevents]
    split
    · next heq => exact reports_put_same hsize hindex rfl rfl (hsame heq.symm) rfl
    · next hne => exact reports_put_flipped hsize hindex rfl rfl (hbefore.symm ▸ hne) (adds_push s _)

/-- **A section that comes with a packet** is told if it is empty unlike the one before. -/
theorem reports_replaceSection (hsize : s.chunk.sections.size = cfg.height.sectionCount)
    (hindex : index < cfg.height.sectionCount) (new : Option Section) :
    Reports cfg s (s.replaceSection cfg index new) := by
  have hafter := isSectionEmpty_put (t := { s with chunk := { s.chunk with
    sections := s.chunk.sections.setIfInBounds index new } }) hsize hindex rfl index
  rw [if_pos rfl] at hafter
  unfold replaceSection
  simp only [hafter]
  split
  · next hsame => exact reports_put_same hsize hindex rfl rfl hsame.symm rfl
  · next hne => exact reports_put_flipped hsize hindex rfl rfl hne (adds_push _ _)

/-! ### Writes -/

theorem Retouched.pos_eq {P : BlockPos → Prop} (h : s.Retouched P s') :
    s'.chunk.pos = s.chunk.pos := by
  obtain ⟨t, names, tickers, htouched, rfl⟩ := h
  exact congrArg (fun place => place.1) htouched.place

/-- Block entities leave the chunk in its place. -/
theorem EntityStep.pos_eq {P Q : BlockPos → Prop} (h : EntityStep cfg P Q s s') :
    s'.chunk.pos = s.chunk.pos := by
  cases h with
  | aside pending notices hshrink => rfl
  | add e _ =>
    exact (retouched_addEntity s cfg e).pos_eq.trans (touched_discardLent s e.pos).retouched.pos_eq
  | remove pos _ => exact (retouched_removeEntity s pos).pos_eq
  | evict pos _ => exact (retouched_evictRemoved s pos).pos_eq
  | tellLent pos state _ => exact (retouched_tellLent s cfg pos state).pos_eq
  | tell pos state _ => exact (retouched_tell s cfg pos state).pos_eq

theorem EntityStep.reports {P Q : BlockPos → Prop} (h : EntityStep cfg P Q s s') :
    Reports cfg s s' :=
  .of_utters h.pos_eq (congrArg Prod.fst (blocks_eq h.ground)) h.utters

/-- **Whatever blocks do in reaction to a write, all has been told.** -/
theorem Reports.lasting (hsize : s.chunk.sections.size = cfg.height.sectionCount) :
    Lasting cfg (Reports cfg s) where
  store := by
    intro t index pos state hindex h
    have hlt := (HeightLimit.sectionIndex?_eq_some_iff.1 hindex).1
    exact h.trans (reports_storeBlock (h.size.trans hsize) hlt pos state)
  entity := fun hstep h => h.trans hstep.reports
  announce := by
    intro t pos previous state flags h
    refine h.trans ⟨rfl, rfl, _, adds_push _ (.block pos previous state flags), fun index _ => ?_⟩
    exact .refl _

/-! ### Packets -/

theorem reports_foldl {β : Type} {f : Site α τ → β → Site α τ} {items : List β}
    (hf : ∀ s : Site α τ, s.chunk.sections.size = cfg.height.sectionCount → ∀ item ∈ items,
      Reports cfg s (f s item)) (hsize : s.chunk.sections.size = cfg.height.sectionCount) :
    Reports cfg s (items.foldl f s) := by
  induction items generalizing s with
  | nil => exact .refl s
  | cons item items ih =>
    have hfirst := hf s hsize item List.mem_cons_self
    exact hfirst.trans (ih (fun s hsize other hmem => hf s hsize other
      (List.mem_cons_of_mem item hmem)) (hfirst.size.trans hsize))

theorem reports_removeCovered (hsize : s.chunk.sections.size = cfg.height.sectionCount)
    (mask : List Bool) (full : Bool) : Reports cfg s (s.removeCovered cfg mask full) := by
  refine reports_foldl (fun s _ pos _ => ?_) hsize
  have hstep : EntityStep cfg (fun _ => True) (fun _ => True) s (s.removeEntity pos).2 :=
    .remove pos trivial
  exact hstep.reports

theorem reports_replaceSections (hsize : s.chunk.sections.size = cfg.height.sectionCount)
    {sections : List (Nat × Section)} (hsections : sections.Pairwise fun a b => a.1 < b.1)
    (full : Bool) : Reports cfg s (s.replaceSections cfg sections full) := by
  rw [replaceSections_eq_foldl s cfg hsections]
  refine reports_foldl (fun s hsize index hmem => ?_) hsize
  have hindex := List.mem_range.1 hmem
  unfold placeSection
  split
  · exact reports_replaceSection hsize hindex _
  · split
    · exact reports_replaceSection hsize hindex none
    · exact .refl s

/-- **Whatever a packet holds, all has been told.** -/
theorem reports_loadPacket (hsize : s.chunk.sections.size = cfg.height.sectionCount)
    (biomes : Option Biomes) (packet : SectionsPacket) :
    Reports cfg s (s.loadPacket cfg biomes packet).2 := by
  unfold loadPacket
  split
  · exact .refl s
  · next contents hread =>
    have hcovered := reports_removeCovered hsize packet.mask biomes.isSome
    simp only
    generalize s.removeCovered cfg packet.mask biomes.isSome = t at hcovered ⊢
    have hbiomes : Reports cfg t
        { t with chunk := { t.chunk with biomes := biomes.getD t.chunk.biomes } } :=
      .of_utters rfl rfl (.of_eq rfl)
    have hplaced := (hcovered.trans hbiomes).trans (reports_replaceSections
      ((hcovered.trans hbiomes).size.trans hsize) (ascending_of_readPacket hread) biomes.isSome)
    generalize Site.replaceSections _ cfg contents.sections biomes.isSome = placed at hplaced ⊢
    obtain ⟨slots, heq, -⟩ := Chunk.foldl_putHeightmap_eq contents.heightmaps placed.chunk
    rw [heq]
    exact hplaced.trans (.of_utters rfl rfl (.of_eq rfl))

end Site

/-! ### Runs -/

/-- What changes the blocks of a chunk: a write, or a packet that comes. -/
inductive BlocksEdit where
  | write (pos : BlockPos) (state : BlockState) (flags : SetFlags)
  | packet (biomes : Option Biomes) (packet : SectionsPacket)

namespace Site

variable {cfg : Config α τ} {s : Site α τ}

/-- The chunk after a write or a packet. -/
def rework (cfg : Config α τ) (s : Site α τ) : BlocksEdit → Site α τ
  | .write pos state flags => (s.setBlock cfg pos state flags).2
  | .packet biomes packet => (s.loadPacket cfg biomes packet).2

/-- The chunk after writes and packets, one after another. -/
def reworks (cfg : Config α τ) (s : Site α τ) (edits : List BlocksEdit) : Site α τ :=
  edits.foldl (fun s edit => s.rework cfg edit) s

theorem reports_rework (hsize : s.chunk.sections.size = cfg.height.sectionCount)
    (edit : BlocksEdit) : Reports cfg s (s.rework cfg edit) := by
  cases edit with
  | write pos state flags => exact (Reports.lasting hsize).setBlock (.refl s) pos state flags
  | packet biomes packet => exact reports_loadPacket hsize biomes packet

theorem reports_reworks (hsize : s.chunk.sections.size = cfg.height.sectionCount)
    (edits : List BlocksEdit) : Reports cfg s (s.reworks cfg edits) :=
  reports_foldl (fun _ hsize edit _ => reports_rework hsize edit) hsize

/-- **Events tell exactly which sections are empty.** Events are kept, and writes are made and
packets come, one after another, whatever blocks do in reaction and whether a packet can be read or
not. What the new events say of a section alternates, starting with the opposite of what it was,
and the last of them, if any, tells how it is in the end. -/
theorem statuses_reworks (hsize : s.chunk.sections.size = cfg.height.sectionCount)
    {before : Array Event} (hevents : s.level.events = some before) (edits : List BlocksEdit) :
    ∃ news : List Event, (s.reworks cfg edits).level.events = some (before ++ news.toArray) ∧
      ∀ index < cfg.height.sectionCount,
        let flags := statuses news s.chunk.pos (cfg.height.sectionCoordOf index)
        flags.IsChain (· ≠ ·) ∧
          (∀ first, flags.head? = some first → first = !s.chunk.isSectionEmpty index) ∧
          (s.reworks cfg edits).chunk.isSectionEmpty index =
            flags.getLast?.getD (s.chunk.isSectionEmpty index) := by
  obtain ⟨news, hadds, htold⟩ := (reports_reworks hsize edits).adds
  refine ⟨news, ?_, fun index hindex => ?_⟩
  · rw [hadds, hevents]
    rfl
  · have halternates := htold index hindex
    generalize statuses news s.chunk.pos (cfg.height.sectionCoordOf index) = flags at halternates ⊢
    refine ⟨halternates.chain.tail, fun first hfirst => ?_, ?_⟩
    · obtain ⟨rest, rfl⟩ := List.head?_eq_some_iff.1 hfirst
      have hne := (List.isChain_cons_cons.1 halternates.chain).1
      exact Bool.eq_not_of_ne hne.symm
    · rw [halternates.last, List.getLastD_eq_getLast?]

end Site

/-! ### A stone that is taken away by a packet -/

/-- A stone is put into a new chunk and again in the same place, a packet empties the chunk, another
one cannot be read, and a stone comes again. -/
def stoneEdits : List BlocksEdit :=
  [.write ⟨3, 5, 4⟩ ⟨1⟩ {}, .write ⟨3, 5, 4⟩ ⟨1⟩ {},
    .packet (some (.filled stoneWorld.height default)) ⟨[false], [], []⟩,
    .packet (some (.filled stoneWorld.height default)) ⟨[], [], []⟩, .write ⟨3, 5, 4⟩ ⟨1⟩ {}]

/-- A new chunk in a world in which events are kept. -/
def watchedStone : Site Unit Unit :=
  ⟨.new stoneWorld { pos := ⟨0, 0⟩ }, { isClient := false, events := some #[] }⟩

theorem statuses_stone : ∃ news : List Event,
    (watchedStone.reworks stoneWorld stoneEdits).level.events = some news.toArray ∧
      statuses news ⟨0, 0⟩ 0 = [false, true, false] ∧
      (statuses news ⟨0, 0⟩ 0).IsChain (· ≠ ·) ∧
      (watchedStone.reworks stoneWorld stoneEdits).chunk.isSectionEmpty 0 = false := by
  have hsize : watchedStone.chunk.sections.size = stoneWorld.height.sectionCount := by
    decide +kernel
  obtain ⟨news, hevents, htold⟩ := Site.statuses_reworks hsize rfl stoneEdits
  obtain ⟨hchain, -, hlast⟩ := htold 0 (by decide)
  have hnews : (watchedStone.reworks stoneWorld stoneEdits).level.events.map (fun events =>
      statuses events.toList ⟨0, 0⟩ 0) = some [false, true, false] := by
    decide +kernel
  rw [Array.empty_append] at hevents
  rw [hevents, Option.map_some, Option.some.injEq] at hnews
  have hflags : statuses news watchedStone.chunk.pos (stoneWorld.height.sectionCoordOf 0) =
      [false, true, false] := hnews
  rw [hflags] at hlast
  exact ⟨news, hevents, hnews, hchain, hlast⟩

end VoxelChunk
