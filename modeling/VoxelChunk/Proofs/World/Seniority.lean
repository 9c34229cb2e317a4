import VoxelChunk.Proofs.Chunk.Edits
import VoxelChunk.Proofs.Chunk.Seniority
import VoxelChunk.Proofs.World.Passes

/-!
# In which order block entities are listed while a world goes on

An entity that is ticked is taken out of the list of its chunk and put back behind all others. So a
tick keeps the order of the list only if the entities that it comes to have no more than one behind
them, and are the youngest when they come back. In runs in which this is so, and in which all
operations keep the order too, the list is in order at all times, also amid a tick and whatever
tickers do.

## Main definitions

* `World.EditsInTurn` — an operation of a world moves no entity ahead of an older one.
* `World.VisitsInTurn` — a visit to a slot does not either.
* `World.Orderly` — the worlds of runs that keep to this.

## Main results

* `World.EditsInTurn.agesAt`, `World.VisitsInTurn.agesAt` — single steps.
* `World.agesAt_tick` — ticks.
* `World.Orderly.listed_in_order` — whole runs, and which next steps put the list out of order.
* `shuffled_chests` — three chests that are out of order after the first one is removed.
-/

namespace VoxelChunk

variable {α τ σ : Type}

/-! ### Taken out and put back -/

namespace Chunk

variable {c : Chunk α}

/-- The entity that comes back is the youngest, unless it is not wanted any more. -/
def ReturnsYoungest (c : Chunk α) (serial : UInt32) : Prop :=
  ∀ lent ∈ c.lent, lent.removed = false → c.entities.contains lent.pos = false →
    ∀ other ∈ c.serials, other < serial

instance (c : Chunk α) (serial : UInt32) : Decidable (c.ReturnsYoungest serial) :=
  have : Decidable (∀ other ∈ c.serials, other < serial) := List.decidableBAll _ _
  inferInstanceAs (Decidable (∀ lent ∈ c.lent, _ → _ → ∀ other ∈ c.serials, other < serial))

/-- An entity that comes back is put behind all, or it is not wanted any more. -/
theorem serials_returnEntity (c : Chunk α) (e : BlockEntity α) :
    (c.returnEntity e).roll = c.roll ∧ c.ReturnsYoungest e.serial ∨
      (c.returnEntity e).serials = c.serials ++ [e.serial] ∧
      (c.returnEntity e).nextSerial = c.nextSerial ∧
      (c.ReturnsYoungest e.serial ↔ ∀ other ∈ c.serials, other < e.serial) := by
  unfold Chunk.returnEntity ReturnsYoungest
  cases hlent : c.lent with
  | none => exact .inl ⟨rfl, fun lent hl => absurd hl (by simp)⟩
  | some lent =>
    simp only [Option.mem_def, Option.some.injEq, forall_eq']
    cases hremoved : lent.removed <;> cases hthere : c.entities.contains lent.pos
    · refine .inr ⟨?_, rfl, by simp⟩
      have hfree : c.entities.find? lent.pos = none := by
        unfold Keyed.contains at hthere
        simpa using hthere
      have hserials : ({ c with
          lent := none
          entities := c.entities.insert lent.pos { e with cachedState := lent.cachedState } } :
            Chunk α).serials = c.serials ++ [e.serial] := by
        rw [serials_eq_map, serials_eq_map, Keyed.entries_insert_of_none hfree, List.map_append,
          List.map_singleton]
      exact hserials
    all_goals exact .inl ⟨rfl, by simp⟩

/-- **The list stays in order exactly if the entity that comes back is the youngest.** -/
theorem Chronological.increasing_returnEntity_iff (h : c.Chronological) (e : BlockEntity α) :
    (c.returnEntity e).serials.Pairwise (· < ·) ↔ c.ReturnsYoungest e.serial := by
  rcases serials_returnEntity c e with ⟨hroll, hyoungest⟩ | ⟨hserials, -, hiff⟩
  · rw [serials_eq hroll]
    exact iff_of_true h.increasing hyoungest
  · rw [hserials, hiff, increasing_concat_iff]
    exact and_iff_right h.increasing

theorem Chronological.returnEntity {e : BlockEntity α} (h : c.Chronological)
    (hyoungest : c.ReturnsYoungest e.serial) (hserial : e.serial < c.nextSerial) :
    c.Ages (c.returnEntity e) := by
  have hincreasing := (h.increasing_returnEntity_iff e).2 hyoungest
  rcases serials_returnEntity c e with ⟨hroll, -⟩ | ⟨hserials, hnext, -⟩
  · exact h.same hroll
  · refine ⟨⟨hincreasing, fun serial hmem => ?_⟩, hnext ▸ UInt32.le_refl _⟩
    rw [hserials, List.mem_append, List.mem_singleton] at hmem
    rw [hnext]
    rcases hmem with hmem | rfl
    · exact h.counted serial hmem
    · exact hserial

end Chunk

namespace World

variable {cfg : Config α τ} {run : TickerRunner α τ σ} {column : ChunkPos} {w mid w' : World α τ σ}

/-! ### One column -/

/-- The chunk at the column is there still, and `R` says what has become of it. -/
def RelatedAt (R : Chunk α → Chunk α → Prop) (column : ChunkPos) (w w' : World α τ σ) : Prop :=
  ∀ c, w.chunk? column = some c → ∃ c', w'.chunk? column = some c' ∧ R c c'

/-- If the chunk at the column lists its entities in order, it still does afterwards. -/
def AgesAt (column : ChunkPos) (w w' : World α τ σ) : Prop :=
  ∀ c, w.chunk? column = some c → c.Chronological → ∃ c', w'.chunk? column = some c' ∧ c.Ages c'

/-- If there is a chunk at the column, all but the last few of the entities that it lists are still
there afterwards. -/
def SparesAt (few : Nat) (column : ChunkPos) (w w' : World α τ σ) : Prop :=
  ∀ c ∈ w.chunk? column, ∀ c' ∈ w'.chunk? column, c.Spares few c'

instance (few : Nat) (column : ChunkPos) (w w' : World α τ σ) :
    Decidable (SparesAt few column w w') :=
  inferInstanceAs (Decidable (∀ c ∈ w.chunk? column, ∀ c' ∈ w'.chunk? column, c.Spares few c'))

variable {R : Chunk α → Chunk α → Prop}

theorem RelatedAt.of_eq (hrefl : ∀ c, R c c) (h : w'.chunk? column = w.chunk? column) :
    RelatedAt R column w w' :=
  fun c hc => ⟨c, h.trans hc, hrefl c⟩

theorem AgesAt.of_eq (h : w'.chunk? column = w.chunk? column) : AgesAt column w w' :=
  fun c hc hchron => ⟨c, h.trans hc, .refl hchron⟩

theorem AgesAt.trans (h : AgesAt column w mid) (h' : AgesAt column mid w') :
    AgesAt column w w' := by
  intro c hc hchron
  obtain ⟨d, hd, hages⟩ := h c hc hchron
  obtain ⟨c', hc', hages'⟩ := h' d hd hages.chronological
  exact ⟨c', hc', hages.trans hages'⟩

theorem AgesAt.of_related
    (h : RelatedAt (fun c c' => c.Chronological → c.Ages c') column w w') :
    AgesAt column w w' := by
  intro c hc hchron
  obtain ⟨c', hc', hages⟩ := h c hc
  exact ⟨c', hc', hages hchron⟩

/-- What keeps the list in order as long as it spares enough does so in the world. -/
theorem RelatedAt.agesAt {few : Nat} (h : RelatedAt R column w w')
    (hs : SparesAt few column w w')
    (hR : ∀ c c', R c c' → c.Chronological → c.Spares few c' → c.Ages c') :
    AgesAt column w w' := by
  intro c hc hchron
  obtain ⟨c', hc', hrelated⟩ := h c hc
  exact ⟨c', hc', hR c c' hrelated hchron (hs c hc c' hc')⟩

theorem relatedAt_putSite {q : ChunkPos} {s t : Site α τ} (hrefl : ∀ c, R c c)
    (hs : w.site? q = some s) (h : q = column → R s.chunk t.chunk) :
    RelatedAt R column w (w.putSite q t) := by
  intro c hc
  rw [chunk?_putSite]
  split
  · next hq =>
    subst hq
    cases hc.symm.trans (site?_eq_some_iff.1 hs).1
    exact ⟨t.chunk, rfl, h rfl⟩
  · exact ⟨c, hc, hrefl c⟩

/-- What is done with the chunk at a position is done with that one only. -/
theorem relatedAt_atChunk {β : Type} {missing : β} {q : ChunkPos} {f : Site α τ → β × Site α τ}
    (hrefl : ∀ c, R c c)
    (h : ∀ s, w.site? q = some s → q = column → R s.chunk (f s).2.chunk) :
    RelatedAt R column w (w.atChunk q missing f).2 := by
  cases hs : w.site? q with
  | none =>
    rw [atChunk_of_none hs]
    exact .of_eq hrefl rfl
  | some s =>
    rw [atChunk_of_site hs]
    exact relatedAt_putSite hrefl hs (h s hs)

theorem leavesAt_removeEntity (w : World α τ σ) (column : ChunkPos) (pos : BlockPos) :
    RelatedAt Chunk.Leaves column w (w.removeEntity pos).2 :=
  relatedAt_atChunk (fun _ => .none rfl) fun s _ _ => s.leaves_removeEntity pos

theorem entersAt_addEntity (w : World α τ σ) (cfg : Config α τ) (column : ChunkPos)
    (e : BlockEntity α) : RelatedAt Chunk.Enters column w (w.addEntity cfg e).2 := by
  unfold World.addEntity
  cases hs : w.site? (.ofBlock e.pos) with
  | none => exact .of_eq (fun _ => .none rfl) rfl
  | some s => exact relatedAt_putSite (fun _ => .none rfl) hs fun _ => s.enters_addEntity cfg e

theorem leavesAt_invocation? (w : World α τ σ) (cfg : Config α τ) (column : ChunkPos)
    (index : Nat) : RelatedAt Chunk.Leaves column w (w.invocation? cfg index).2 := by
  have hv := visited_invocation? w cfg index
  generalize w.invocation? cfg index = visit at hv ⊢
  cases hv with
  | idle level _ => exact .of_eq (fun _ => .none rfl) rfl
  | lent ticker d e level _ hd _ _ _ _ =>
    have hput : RelatedAt Chunk.Leaves column w
        (w.putSite (.ofBlock ticker.pos) ⟨d.lending ticker.pos e, level⟩) :=
      relatedAt_putSite (fun _ => .none rfl) (s := ⟨d, w.level⟩)
        (site?_eq_some_iff.2 ⟨hd, rfl⟩) fun _ => Chunk.leaves_swapErase ticker.pos rfl rfl
    exact hput

/-! ### Operations in turn -/

/-- In the chunk at the column, the operation makes no entity leave that has more than one behind
it, and replaces none but the last. The chunk itself stays, and so do its queued blocks. -/
def EditsInTurn (cfg : Config α τ) (column : ChunkPos) (w : World α τ σ) : WorldEdit α → Prop
  | .insertChunk chunk => chunk.pos ≠ column
  | .removeChunk pos => pos ≠ column
  | .setBlock pos state flags => ChunkPos.ofBlock pos = column → ∀ s ∈ w.site? column,
      s.WritesInTurn cfg (cfg.nesting + 1) pos state flags
  | .getEntity pos mode change =>
    (∀ e, (change e).serial = e.serial) ∧ SparesAt 1 column w (w.getEntity cfg pos mode).2
  | .addEntity entity => SparesAt 1 column w (w.addEntity cfg entity).2
  | .removeEntity pos => SparesAt 2 column w (w.removeEntity pos).2
  | .settleChunk pos => pos ≠ column

theorem agesAt_modifyEntity {change : BlockEntity α → BlockEntity α}
    (hchange : ∀ e, (change e).serial = e.serial) (w : World α τ σ) (pos : BlockPos) :
    AgesAt column w (w.modifyEntity pos change) :=
  .of_related <| relatedAt_atChunk (fun _ => Chunk.Ages.refl) fun s _ _ hchron =>
    hchron.same (Chunk.roll_modifyEntity hchange s.chunk pos)

/-- **An operation in turn keeps the list in order.** -/
theorem EditsInTurn.agesAt {e : WorldEdit α} (h : w.EditsInTurn cfg column e) :
    AgesAt column w (w.edit cfg e) := by
  cases e with
  | insertChunk chunk =>
    refine .of_eq ?_
    show (w.insertChunk cfg chunk).2.chunk? column = _
    rw [chunk?_insertChunk, if_neg (Ne.symm h)]
  | removeChunk pos =>
    refine .of_eq ?_
    show (w.removeChunk pos).2.chunk? column = _
    rw [chunk?_removeChunk, if_neg (Ne.symm h)]
  | setBlock pos state flags =>
    refine .of_related <| relatedAt_atChunk (fun _ => Chunk.Ages.refl) fun s hs hq hchron => ?_
    rw [hq] at hs
    exact (h hq s hs).ages hchron
  | getEntity pos mode change =>
    have hasked : RelatedAt (fun c c' => ∃ mid, c.Leaves mid ∧ mid.Enters c') column w
        (w.getEntity cfg pos mode).2 :=
      relatedAt_atChunk (fun c => ⟨c, .none rfl, .none rfl⟩) fun s _ _ =>
        s.leaves_enters_getEntity cfg pos mode
    have hages : AgesAt column w (w.getEntity cfg pos mode).2 := by
      refine hasked.agesAt h.2 ?_
      rintro c c' ⟨mid, hleaves, henters⟩ hchron hs
      exact Chunk.ages_of_leaves_enters hchron hleaves henters hs
    simp only [World.edit]
    generalize w.getEntity cfg pos mode = out at hages ⊢
    obtain ⟨found, u⟩ := out
    cases found with
    | none => exact hages
    | some _ => exact hages.trans (agesAt_modifyEntity h.1 u pos)
  | addEntity entity =>
    exact (entersAt_addEntity w cfg column entity).agesAt h fun c c' henters hchron hs =>
      henters.ages hchron hs
  | removeEntity pos =>
    exact (leavesAt_removeEntity w column pos).agesAt h fun c c' hleaves hchron hs =>
      hleaves.ages hchron hs
  | settleChunk pos =>
    exact .of_related <| relatedAt_atChunk (fun _ => Chunk.Ages.refl) fun s _ hq => absurd hq h

/-- Operations in turn, one after another, keep the list in order. -/
theorem agesAt_edits {es : List (WorldEdit α)}
    (h : Along (fun w e => w.edit cfg e) (fun w e => w.EditsInTurn cfg column e) w es) :
    AgesAt column w (w.edits cfg es) :=
  Along.foldl_keeps (fun _ _ hages hturn => hages.trans (EditsInTurn.agesAt hturn)) (.of_eq rfl) h

/-! ### Ticks in turn -/

/-- The ticker that was called has made operations in turn only, and its entity comes back as the
youngest of its chunk. -/
structure TicksInTurn (cfg : Config α τ) (column : ChunkPos) (w : World α τ σ) (i : Invocation α τ)
    (back : World α τ σ × BlockEntity α) : Prop where
  performs : ∃ es owner, back.1 = { w.edits cfg es with owner } ∧
    Along (fun w e => w.edit cfg e) (fun w e => w.EditsInTurn cfg column e) w es
  serial : back.2.serial = i.entity.serial
  youngest : ChunkPos.ofBlock i.pos = column →
    ∀ c ∈ back.1.chunk? column, c.ReturnsYoungest i.entity.serial

/-- When the slot is visited, an entity is taken out of the chunk at the column only if it has no
more than one behind it, and the ticker that is called keeps to the turn. -/
structure VisitsInTurn (cfg : Config α τ) (run : TickerRunner α τ σ) (column : ChunkPos)
    (w : World α τ σ) (index : Nat) : Prop where
  taken : SparesAt 2 column w (w.invocation? cfg index).2
  ticked : ∀ i, (w.invocation? cfg index).1 = some i →
    TicksInTurn cfg column (w.invocation? cfg index).2 i
      (run i.action (w.invocation? cfg index).2 i.pos i.state i.entity)

/-- An entity that is put back as the youngest keeps the list in order. -/
theorem agesAt_returnEntity {pos : BlockPos} {e : BlockEntity α}
    (h : ChunkPos.ofBlock pos = column → ∀ c, w.chunk? column = some c →
      c.ReturnsYoungest e.serial ∧ e.serial < c.nextSerial) :
    AgesAt column w (w.returnEntity pos e) := by
  unfold World.returnEntity
  cases hc : w.chunk? (.ofBlock pos) with
  | none => exact .of_eq rfl
  | some c =>
    have hput : AgesAt column w (w.putSite (.ofBlock pos) ⟨c.returnEntity e, w.level⟩) := by
      refine .of_related <| relatedAt_putSite (fun _ => Chunk.Ages.refl) (s := ⟨c, w.level⟩)
        (site?_eq_some_iff.2 ⟨hc, rfl⟩) fun hq hchron => ?_
      obtain ⟨hyoungest, hserial⟩ := h hq c (hq ▸ hc)
      exact hchron.returnEntity hyoungest hserial
    exact hput

/-- The serial of an entity that is taken out has been given out before. -/
theorem serial_lt_of_invocation? {index : Nat} {i : Invocation α τ}
    (hi : (w.invocation? cfg index).1 = some i) {c : Chunk α}
    (hc : w.chunk? (.ofBlock i.pos) = some c) (hchron : c.Chronological) :
    i.entity.serial < c.nextSerial := by
  obtain ⟨ticker, d, hready, -, hpos, -⟩ := invocation?_eq_some_iff.1 hi
  rw [hpos, hready.chunk] at hc
  cases hc
  have hfound := (Chunk.entityAt?_eq_some_iff.1 hready.installed).1
  refine hchron.counted _ (List.mem_map_of_mem ?_)
  exact List.mem_map_of_mem (Keyed.find?_eq_some_iff.1 hfound)

/-- **A visit in turn keeps the list in order.** -/
theorem VisitsInTurn.agesAt {index : Nat} (h : w.VisitsInTurn cfg run column index) :
    AgesAt column w (w.visitSlot cfg run index) := by
  obtain ⟨hspares, hticked⟩ := h
  have htaken : AgesAt column w (w.invocation? cfg index).2 :=
    (leavesAt_invocation? w cfg column index).agesAt hspares fun c c' hleaves hchron hs =>
      hleaves.ages hchron hs
  have hgiven : ∀ i, (w.invocation? cfg index).1 = some i → ∀ c,
      w.chunk? (.ofBlock i.pos) = some c → c.Chronological → i.entity.serial < c.nextSerial :=
    fun i hi c hc hchron => serial_lt_of_invocation? hi hc hchron
  unfold visitSlot
  generalize w.invocation? cfg index = visit at htaken hgiven hticked ⊢
  obtain ⟨lent, u⟩ := visit
  cases lent with
  | none => exact htaken
  | some i =>
    obtain ⟨⟨es, owner, hback, hturn⟩, hsame, hyoungest⟩ := hticked i rfl
    simp only
    generalize run i.action u i.pos i.state i.entity = back at hback hsame hyoungest ⊢
    -- the entity goes, the ticker does what it does, and the entity comes back
    intro c hc hchron
    obtain ⟨taken, htaken, hages⟩ := htaken c hc hchron
    obtain ⟨ticked, hticked, hages'⟩ := agesAt_edits hturn taken htaken hages.chronological
    have hacted : back.1.chunk? column = some ticked := by
      rw [hback]
      exact hticked
    have hreturn : AgesAt column back.1 (back.1.returnEntity i.pos back.2) := by
      refine agesAt_returnEntity fun hcolumn d hd => ?_
      have hthere := hyoungest hcolumn d hd
      cases hacted.symm.trans hd
      rw [hsame]
      -- its serial had been given out when it went, and serials only go up
      have hbefore := hgiven i rfl c (hcolumn ▸ hc) hchron
      exact ⟨hthere, UInt32.lt_of_lt_of_le hbefore (UInt32.le_trans hages.counts hages'.counts)⟩
    obtain ⟨c', hc', hages''⟩ := hreturn ticked hacted hages'.chronological
    exact ⟨c', hc', (hages.trans hages').trans hages''⟩

/-- A pass in turn keeps the list in order. -/
theorem agesAt_amid {visits : Nat}
    (h : ∀ index < visits, (w.amid cfg run index).VisitsInTurn cfg run column index) :
    AgesAt column w (w.amid cfg run visits) := by
  induction visits with
  | zero => exact .of_eq rfl
  | succ visits ih =>
    have hbefore := ih fun index hlt => h index (by omega)
    exact hbefore.trans (h visits (by omega)).agesAt

/-- **A tick in turn keeps the list in order**, whatever tickers do. -/
theorem agesAt_tick {fuel : Nat} (hw : w.tick cfg run fuel = some w')
    (h : ∀ index < fuel, (w.amid cfg run index).VisitsInTurn cfg run column index) :
    AgesAt column w w' := by
  obtain ⟨ticked, hticked, rfl⟩ := Option.map_eq_some_iff.1 hw
  obtain ⟨visits, hfuel, -, rfl⟩ := tickEntities_eq_some_iff.1 hticked
  have hpass : AgesAt column w (w.amid cfg run visits) :=
    agesAt_amid fun index hlt => h index (by omega)
  exact hpass.trans (.of_eq rfl)

/-! ### Whole runs -/

/-- The worlds that runs reach in which the chunk at the column starts with its entities in order,
and all operations and all visits are made in turn. -/
inductive Orderly (cfg : Config α τ) (column : ChunkPos) : World α τ σ → Prop
  | start {w : World α τ σ} {c : Chunk α} :
    w.chunk? column = some c → c.Chronological → Orderly cfg column w
  | edit {w : World α τ σ} (e : WorldEdit α) :
    Orderly cfg column w → w.EditsInTurn cfg column e → Orderly cfg column (w.edit cfg e)
  | tick {w w' : World α τ σ} (run : TickerRunner α τ σ) (fuel : Nat) :
    Orderly cfg column w →
    (∀ index < fuel, (w.amid cfg run index).VisitsInTurn cfg run column index) →
    w.tick cfg run fuel = some w' → Orderly cfg column w'

theorem Orderly.edits (h : w.Orderly cfg column) {es : List (WorldEdit α)}
    (hes : Along (fun w e => w.edit cfg e) (fun w e => w.EditsInTurn cfg column e) w es) :
    (w.edits cfg es).Orderly cfg column :=
  Along.foldl_keeps (fun _ e h hturn => .edit e h hturn) h hes

theorem Orderly.chronological (h : w.Orderly cfg column) :
    ∃ c, w.chunk? column = some c ∧ c.Chronological := by
  induction h with
  | start hc hchron => exact ⟨_, hc, hchron⟩
  | edit e _ hturn ih =>
    obtain ⟨c, hc, hchron⟩ := ih
    obtain ⟨c', hc', hages⟩ := hturn.agesAt c hc hchron
    exact ⟨c', hc', hages.chronological⟩
  | tick run fuel _ hturn hw ih =>
    obtain ⟨c, hc, hchron⟩ := ih
    obtain ⟨c', hc', hages⟩ := agesAt_tick hw hturn c hc hchron
    exact ⟨c', hc', hages.chronological⟩

/-- **Entities are listed in the order of their installation** in all worlds that orderly runs
reach. From there, the list gets out of order exactly when an entity leaves that has more than one
behind it, whether it is removed or taken out to be ticked, or when one is replaced that is not the
last. -/
theorem Orderly.listed_in_order (h : w.Orderly cfg column) :
    ∃ c, w.chunk? column = some c ∧ c.serials.Pairwise (· < ·) ∧
      (∀ pos, ∃ c', (w.removeEntity pos).2.chunk? column = some c' ∧
        (c'.serials.Pairwise (· < ·) ↔ ∀ serial ∈ c.serials.rdrop 2, serial ∈ c'.serials)) ∧
      (∀ index, ∃ c', (w.invocation? cfg index).2.chunk? column = some c' ∧
        (c'.serials.Pairwise (· < ·) ↔ ∀ serial ∈ c.serials.rdrop 2, serial ∈ c'.serials)) ∧
      ∀ e, ∃ c', (w.addEntity cfg e).2.chunk? column = some c' ∧
        (c'.serials.Pairwise (· < ·) ↔ ∀ serial ∈ c.serials.rdrop 1, serial ∈ c'.serials) := by
  obtain ⟨c, hc, hchron⟩ := h.chronological
  refine ⟨c, hc, hchron.increasing, fun pos => ?_, fun index => ?_, fun e => ?_⟩
  · obtain ⟨c', hc', hleaves⟩ := leavesAt_removeEntity w column pos c hc
    exact ⟨c', hc', hleaves.increasing_iff hchron⟩
  · obtain ⟨c', hc', hleaves⟩ := leavesAt_invocation? w cfg column index c hc
    exact ⟨c', hc', hleaves.increasing_iff hchron⟩
  · obtain ⟨c', hc', henters⟩ := entersAt_addEntity w cfg column e c hc
    exact ⟨c', hc', henters.increasing_iff hchron⟩

end World

/-! ### Chests in order and out of order -/

/-- A chest for a position. -/
def chestAt (pos : BlockPos) : BlockEntity Unit :=
  { type := ⟨"chest"⟩, pos, cachedState := ⟨1⟩, data := () }

/-- When it is ticked, a chest puts another one on top of itself and takes it away again. -/
def restlessChest : TickerRunner Unit Unit Unit := fun _ w pos _ e =>
  let top : BlockPos := ⟨pos.x, pos.y + 1, pos.z⟩
  (w.edits chestWorld [.addEntity (chestAt top), .removeEntity top], e)

/-- A world with an empty chunk. -/
def emptyWorld : World Unit Unit Unit :=
  World.edits chestWorld { level := { isClient := false }, owner := () }
    [.insertChunk tickingChests]

/-- Two chests are put into the world, and the second one is replaced and removed. -/
def loneChest : World Unit Unit Unit :=
  emptyWorld.edits chestWorld
    [.setBlock ⟨3, 5, 4⟩ ⟨1⟩ {}, .setBlock ⟨5, 5, 4⟩ ⟨1⟩ {}, .addEntity (chestAt ⟨5, 5, 4⟩),
      .removeEntity ⟨5, 5, 4⟩]

theorem loneChest_orderly : loneChest.Orderly chestWorld ⟨0, 0⟩ := by
  refine .edits (.start rfl ⟨.nil, fun serial hmem => absurd hmem List.not_mem_nil⟩)
    ⟨fun _ => ?_, fun _ => ?_, ?_, ?_, trivial⟩
  · decide +kernel
  · decide +kernel
  · show World.SparesAt ..
    decide +kernel
  · show World.SparesAt ..
    decide +kernel

theorem restlessChest_ticks {w : World Unit Unit Unit} {i : Invocation Unit Unit}
    (hadd : World.SparesAt 1 ⟨0, 0⟩ w
      (w.addEntity chestWorld (chestAt ⟨i.pos.x, i.pos.y + 1, i.pos.z⟩)).2)
    (hremove : World.SparesAt 2 ⟨0, 0⟩
      (w.addEntity chestWorld (chestAt ⟨i.pos.x, i.pos.y + 1, i.pos.z⟩)).2
      (restlessChest i.action w i.pos i.state i.entity).1)
    (hback : ∀ c ∈ (restlessChest i.action w i.pos i.state i.entity).1.chunk? ⟨0, 0⟩,
      c.ReturnsYoungest i.entity.serial) :
    w.TicksInTurn chestWorld ⟨0, 0⟩ i (restlessChest i.action w i.pos i.state i.entity) where
  performs := ⟨[.addEntity _, .removeEntity _], _, rfl, hadd, hremove, trivial⟩
  serial := rfl
  youngest := fun _ => hback

theorem restlessChest_visits (index : Nat) (h : index < 4) :
    (loneChest.amid chestWorld restlessChest index).VisitsInTurn chestWorld restlessChest ⟨0, 0⟩
      index := by
  have hturn : ∀ index < 4, World.SparesAt 2 ⟨0, 0⟩ (loneChest.amid chestWorld restlessChest index)
        (loneChest.handed chestWorld restlessChest index) ∧
      ∀ i ∈ loneChest.call? chestWorld restlessChest index,
        World.SparesAt 1 ⟨0, 0⟩ (loneChest.handed chestWorld restlessChest index)
          ((loneChest.handed chestWorld restlessChest index).addEntity chestWorld
            (chestAt ⟨i.pos.x, i.pos.y + 1, i.pos.z⟩)).2 ∧
        World.SparesAt 2 ⟨0, 0⟩ ((loneChest.handed chestWorld restlessChest index).addEntity
            chestWorld (chestAt ⟨i.pos.x, i.pos.y + 1, i.pos.z⟩)).2
          (loneChest.acted chestWorld restlessChest index i).1 ∧
        ∀ c ∈ (loneChest.acted chestWorld restlessChest index i).1.chunk? ⟨0, 0⟩,
          c.ReturnsYoungest i.entity.serial := by
    decide +kernel
  refine ⟨(hturn index h).1, fun i hi => ?_⟩
  obtain ⟨hadd, hremove, hback⟩ := (hturn index h).2 i hi
  exact restlessChest_ticks hadd hremove hback

/-- The chest that is left has been ticked, and then another one is put into the world. -/
theorem chests_in_order : ∃ w c, loneChest.tick chestWorld restlessChest 4 = some w ∧
    (w.edit chestWorld (.setBlock ⟨7, 5, 4⟩ ⟨1⟩ {})).chunk? ⟨0, 0⟩ = some c ∧
    c.serials = [0, 4] ∧ c.serials.Pairwise (· < ·) := by
  obtain ⟨w, hw⟩ := Option.isSome_iff_exists.1
    (show (loneChest.tick chestWorld restlessChest 4).isSome by decide +kernel)
  have hturn : ∀ w ∈ loneChest.tick chestWorld restlessChest 4,
      (∀ s ∈ w.site? ⟨0, 0⟩, s.WritesInTurn chestWorld (chestWorld.nesting + 1) ⟨7, 5, 4⟩ ⟨1⟩ {}) ∧
        ∀ c ∈ (w.edit chestWorld (.setBlock ⟨7, 5, 4⟩ ⟨1⟩ {})).chunk? ⟨0, 0⟩,
          c.serials = [0, 4] := by
    decide +kernel
  obtain ⟨hwrite, hserials⟩ := hturn w hw
  obtain ⟨c, hc, hincreasing, -⟩ := World.Orderly.listed_in_order
    (.edit (.setBlock ⟨7, 5, 4⟩ ⟨1⟩ {})
      (.tick restlessChest 4 loneChest_orderly restlessChest_visits hw) fun _ => hwrite)
  exact ⟨w, c, hw, hc, hserials c hc, hincreasing⟩

/-- **Chests are not listed in the order of their installation** after the first of three is
removed. -/
theorem shuffled_chests : ((emptyWorld.edits chestWorld
    [.setBlock ⟨1, 2, 3⟩ ⟨1⟩ {}, .setBlock ⟨2, 2, 3⟩ ⟨1⟩ {}, .setBlock ⟨3, 2, 3⟩ ⟨1⟩ {},
      .removeEntity ⟨1, 2, 3⟩]).chunk? ⟨0, 0⟩).map Chunk.serials = some [2, 1] := by
  decide +kernel

end VoxelChunk
