import Mathlib.Data.List.Perm.Basic
import VoxelChunk.Proofs.Chunk.Heard
import VoxelChunk.Proofs.World.Owners

/-!
# Who hears an event

An event in the world of a server is heard by the listeners of all block entities in the sections
around it that are near enough, whatever operations and ticks have led to the world.

## Main definitions

* `World.Served` — the worlds of a server that runs reach.
* `World.Attentive` — each chunk holds exactly the listeners of its entities.
* `GameEvent.Reaches` — the sections that are searched.
* `World.hearers` — those who are to hear an event.
* `World.Measures` — no comparison of a distance with a range overflows.

## Main results

* `World.Attentive.upheld` — operations and visits keep listeners in order.
* `World.Attentive.perm_emit` — what an event is heard by.
* `World.Served.perm_hearers` — an event is heard by those who are to hear it, in all runs.
* `misheard_far` — far out neither holds.
-/

namespace VoxelChunk

variable {α τ σ : Type}

/-! ### Worlds of a server -/

/-- The chunks that are inserted are `fit`, and those who ask for an entity leave its listener
alone. -/
def WorldEdit.Keeps (cfg : Config α τ) (fit : Chunk α → Prop) : WorldEdit α → Prop
  | insertChunk chunk => fit chunk
  | getEntity _ _ change => ∀ e, cfg.Keeps (change e) e
  | _ => True

theorem WorldEdit.Keeps.admissible {cfg : Config α τ} {fit : Chunk α → Prop} {e : WorldEdit α}
    (h : e.Keeps cfg fit) : e.Admissible fit := by
  cases e with
  | insertChunk chunk => exact h
  | getEntity pos mode change => exact fun e => (h e).continues
  | _ => trivial

/-- What tickers do to the world and to entities leaves listeners alone. -/
def TickerRunner.Keeps (cfg : Config α τ) (fit : Chunk α → Prop) (run : TickerRunner α τ σ) : Prop :=
  run.Acts cfg (WorldEdit.Keeps cfg fit) cfg.Keeps

theorem TickerRunner.Keeps.performs {cfg : Config α τ} {fit : Chunk α → Prop}
    {run : TickerRunner α τ σ} (h : run.Keeps cfg fit) : run.Performs cfg fit := by
  intro action w pos state e
  obtain ⟨es, owner, hes, hworld, he⟩ := h action w pos state e
  exact ⟨es, owner, fun x hx => (hes x hx).admissible, hworld, he.continues⟩

namespace World

/-- The worlds of a server that are reached by operations and ticks which leave the listeners of
entities alone. Amid a tick, a block entity may be out of its chunk. -/
inductive Served (cfg : Config α τ) (fit : Chunk α → Prop) :
    Option (Invocation α τ) → World α τ σ → Prop
  | new (level : Level τ) (owner : σ) : level.isClient = false → level.tickers = {} →
    Served cfg fit none { level, owner }
  | edit {lent : Option (Invocation α τ)} {w : World α τ σ} (e : WorldEdit α) :
    Served cfg fit lent w → e.Keeps cfg fit → Served cfg fit lent (w.edit cfg e)
  | tick {w w' : World α τ σ} (run : TickerRunner α τ σ) (fuel : Nat) :
    Served cfg fit none w → run.Keeps cfg fit → w.tick cfg run fuel = some w' →
    Served cfg fit none w'
  /-- Amid a tick, a slot is visited, and the block entity may be lent to its ticker. -/
  | visit {lent : Option (Invocation α τ)} {w w' : World α τ σ} (index : Nat) :
    Served cfg fit none w → w.invocation? cfg index = (lent, w') → Served cfg fit lent w'
  /-- The block entity comes back. -/
  | giveBack {i : Invocation α τ} {w : World α τ σ} (e : BlockEntity α) :
    Served cfg fit (some i) w → cfg.Keeps e i.entity →
    Served cfg fit none (w.returnEntity i.pos e)

theorem Served.edits {cfg : Config α τ} {fit : Chunk α → Prop} {lent : Option (Invocation α τ)}
    {w : World α τ σ} (h : Served cfg fit lent w) {es : List (WorldEdit α)}
    (hes : ∀ e ∈ es, e.Keeps cfg fit) : Served cfg fit lent (w.edits cfg es) := by
  induction es generalizing w with
  | nil => exact h
  | cons e es ih =>
    exact ih (.edit e h (hes e List.mem_cons_self)) fun e' he' =>
      hes e' (List.mem_cons_of_mem e he')

theorem Served.reached {cfg : Config α τ} {fit : Chunk α → Prop} {lent : Option (Invocation α τ)}
    {w : World α τ σ} (h : Served cfg fit lent w) : Reached cfg fit lent w := by
  induction h with
  | new level owner _ hempty => exact .new level owner hempty
  | edit e _ he ih => exact .edit e ih he.admissible
  | tick run fuel _ hrun hw ih => exact .tick run fuel ih hrun.performs hw
  | visit index _ hw ih => exact .visit index ih hw
  | giveBack e _ he ih => exact .giveBack e ih he.continues

/-! ### Listeners of a world -/

/-- The entity that is out of the chunk at a column to be ticked. -/
def outAt (lent : Option (Invocation α τ)) (column : ChunkPos) : Option (BlockEntity α) :=
  (lent.filter fun i => ChunkPos.ofBlock i.pos = column).map Invocation.entity

/-- The world is that of a server, and each chunk holds exactly the listeners of its entities, the
one that is `lent` included. -/
structure Attentive (cfg : Config α τ) (lent : Option (Invocation α τ)) (w : World α τ σ) :
    Prop where
  server : w.level.isClient = false
  chunk : ∀ column c, w.chunk? column = some c → c.Attentive cfg (outAt lent column)

variable {cfg : Config α τ} {lent lent' : Option (Invocation α τ)} {w w' : World α τ σ}
  {column : ChunkPos} {s s' : Site α τ} {fit : Chunk α → Prop}

theorem outAt_self (i : Invocation α τ) : outAt (some i) (.ofBlock i.pos) = some i.entity := by
  unfold outAt
  rw [Option.filter_some, if_pos (by simp)]
  rfl

theorem outAt_of_ne {i : Invocation α τ} (h : column ≠ .ofBlock i.pos) :
    outAt (some i) column = none := by
  unfold outAt
  rw [Option.filter_some, if_neg (by simpa using Ne.symm h)]
  rfl

theorem isClient_removeChunk (w : World α τ σ) (column : ChunkPos) :
    (w.removeChunk column).2.level.isClient = w.level.isClient := by
  unfold World.removeChunk
  cases hs : w.site? column with
  | none => rfl
  | some s =>
    obtain ⟨dispatchers, heq⟩ := Site.discardEntities_eq s
    show s.discardEntities.level.isClient = w.level.isClient
    rw [heq, ← (site?_eq_some_iff.1 hs).2]

namespace Attentive

theorem new (level : Level τ) (owner : σ) (hserver : level.isClient = false) :
    ({ level, owner } : World α τ σ).Attentive cfg none where
  server := hserver
  chunk := by
    intro column c hc
    have hnone : ({ level, owner } : World α τ σ).chunk? column = none := rfl
    cases hnone.symm.trans hc

theorem site (h : w.Attentive cfg lent) (hs : w.site? column = some s) :
    s.Attentive cfg (outAt lent column) := by
  obtain ⟨hc, hl⟩ := site?_eq_some_iff.1 hs
  exact ⟨hl ▸ h.server, h.chunk column s.chunk hc⟩

theorem relevel (h : w.Attentive cfg lent) {level : Level τ}
    (hl : level.isClient = w.level.isClient) :
    ({ w with level } : World α τ σ).Attentive cfg lent :=
  ⟨hl.trans h.server, h.chunk⟩

/-- The site at a column is replaced by one in which listeners are in order. -/
theorem putSite (h : w.Attentive cfg lent) (hs : s.Attentive cfg (outAt lent' column))
    (hout : ∀ q, q ≠ column → outAt lent' q = outAt lent q) :
    (w.putSite column s).Attentive cfg lent' where
  server := hs.server
  chunk := by
    intro q c hc
    rw [chunk?_putSite] at hc
    split at hc
    · next hq =>
      cases hc
      exact hq ▸ hs.chunk
    · next hq =>
      rw [hout q hq]
      exact h.chunk q c hc

theorem atChunk {β : Type} {missing : β} {f : Site α τ → β × Site α τ} (h : w.Attentive cfg lent)
    (hf : ∀ s, s.Attentive cfg (outAt lent column) →
      (f s).2.Attentive cfg (outAt lent column)) :
    (w.atChunk column missing f).2.Attentive cfg lent := by
  cases hs : w.site? column with
  | none =>
    rw [atChunk_of_none hs]
    exact h
  | some s =>
    rw [atChunk_of_site hs]
    exact h.putSite (hf s (h.site hs)) fun _ _ => rfl

theorem removeChunk (h : w.Attentive cfg lent) (column : ChunkPos) :
    (w.removeChunk column).2.Attentive cfg lent where
  server := (isClient_removeChunk w column).trans h.server
  chunk := by
    intro q c hc
    rw [chunk?_removeChunk] at hc
    split at hc
    · cases hc
    · exact h.chunk q c hc

/-- An entity that comes back listens as it did before. -/
theorem returnEntity (hsteady : ∀ e, cfg.SteadyListener e) {i : Invocation α τ}
    {e : BlockEntity α} (h : w.Attentive cfg (some i)) (he : cfg.Keeps e i.entity) :
    (w.returnEntity i.pos e).Attentive cfg none := by
  have helsewhere : ∀ q c, q ≠ ChunkPos.ofBlock i.pos → w.chunk? q = some c →
      c.Attentive cfg none := by
    intro q c hq hc
    have hchunk := h.chunk q c hc
    rwa [outAt_of_ne hq] at hchunk
  unfold World.returnEntity
  cases hc : w.chunk? (.ofBlock i.pos) with
  | none =>
    refine ⟨h.server, fun q c hq => helsewhere q c ?_ hq⟩
    rintro rfl
    cases hc.symm.trans hq
  | some c =>
    have hout := h.chunk _ c hc
    rw [outAt_self] at hout
    have hback : Site.Attentive cfg (outAt (none : Option (Invocation α τ)) (.ofBlock i.pos))
        ⟨c.returnEntity e, w.level⟩ :=
      ⟨h.server, hout.returnEntity hsteady he⟩
    exact h.putSite hback fun q hq => (outAt_of_ne hq).symm

/-- A visit to a slot keeps listeners in order, whether an entity is lent or not. -/
theorem visited (h : w.Attentive cfg none) {index : Nat}
    (hv : Visited cfg w index (lent, w')) : w'.Attentive cfg lent := by
  cases hv with
  | idle level hl => exact h.relevel hl.isClient
  | lent ticker c e level _ hc _ he _ hl =>
    have hlevel := h.relevel hl.isClient
    generalize (Site.blockAt ⟨c, w.level⟩ cfg ticker.pos).1 = state
    have hlent : Site.Attentive cfg
        (outAt (some ⟨ticker.action, ticker.pos, state, e⟩) (.ofBlock ticker.pos))
        ⟨c.lending ticker.pos e, level⟩ := by
      refine ⟨hlevel.server, ?_⟩
      rw [outAt_self ⟨ticker.action, ticker.pos, state, e⟩]
      exact (h.chunk _ c hc).lending he
    exact hlevel.putSite hlent fun q hq => outAt_of_ne hq

variable (hsteady : ∀ e, cfg.SteadyListener e)
include hsteady

/-- A chunk that is inserted gets the listeners of its entities. -/
theorem insertChunk (h : w.Attentive cfg lent) {c : Chunk α} (hunheard : c.load.2.Unheard) :
    (w.insertChunk cfg c).2.Attentive cfg lent := by
  have hremoved := h.removeChunk c.pos
  have honLoad : c.load.2.onLoad = none := by
    unfold Chunk.load
    split
    · rfl
    · next hnone => exact hnone
  have hentered : Site.Attentive cfg none (Site.updateEntities
      ⟨{ c.load.2 with loaded := true }, (w.removeChunk c.pos).2.level⟩ cfg) :=
    Site.attentive_updateEntities hsteady hremoved.server rfl honLoad
      ⟨hunheard.listeners, hunheard.seated, hunheard.lent⟩
  have hlistens : Site.Attentive cfg (outAt lent c.pos) (Site.updateEntities
      ⟨{ c.load.2 with loaded := true }, (w.removeChunk c.pos).2.level⟩ cfg) :=
    ⟨hentered.server, hentered.chunk.of_home⟩
  exact hremoved.putSite hlistens fun _ _ => rfl

variable (hdefault : cfg.DefaultReactions) (hfit : ∀ c, fit c → c.load.2.Unheard)
include hdefault hfit

/-- **An operation keeps listeners in order.** -/
theorem edit (h : w.Attentive cfg lent) {e : WorldEdit α} (he : e.Keeps cfg fit) :
    (w.edit cfg e).Attentive cfg lent := by
  cases e with
  | insertChunk c => exact h.insertChunk hsteady (hfit c he)
  | removeChunk pos => exact h.removeChunk pos
  | setBlock pos state flags =>
    exact h.atChunk fun s hs => hs.setBlock hsteady hdefault pos state flags
  | getEntity pos mode change =>
    have hget : (w.getEntity cfg pos mode).2.Attentive cfg lent :=
      h.atChunk fun s hs => hs.getEntity hsteady pos mode
    unfold World.edit
    simp only
    split
    · next heq =>
      rw [heq] at hget
      refine hget.atChunk fun s hs => hs.modifyEntity pos fun e => ?_
      exact ⟨(he e).continues.pos, (he e).continues.removed, (he e).listener⟩
    · next heq => rwa [heq] at hget
  | addEntity entity =>
    unfold World.edit World.addEntity
    simp only
    split
    · exact h.relevel rfl
    · next s hs => exact h.putSite ((h.site hs).addEntity hsteady entity) fun _ _ => rfl
  | removeEntity pos => exact h.atChunk fun s hs => hs.removeEntity pos
  | settleChunk pos => exact h.atChunk fun s hs => hs.settleAll hsteady hdefault _

/-- **Each step of a tick keeps listeners in order.** -/
theorem upheld : Upheld cfg (WorldEdit.Keeps cfg fit) cfg.Keeps
    (Attentive cfg : Option (Invocation α τ) → World α τ σ → Prop) where
  edit := fun h he => h.edit hsteady hdefault hfit he
  hand := fun _ h => ⟨h.server, h.chunk⟩
  relevel := fun h hl => h.relevel hl.isClient
  visited := fun h hv => h.visited hv
  returned := fun h he => h.returnEntity hsteady he

end Attentive

/-- **Runs keep listeners in order.** -/
theorem Served.attentive (hsteady : ∀ e, cfg.SteadyListener e) (hdefault : cfg.DefaultReactions)
    (hfit : ∀ c, fit c → c.load.2.Unheard) (h : Served cfg fit lent w) : w.Attentive cfg lent := by
  have hupheld := Attentive.upheld (σ := σ) hsteady hdefault hfit
  induction h with
  | new level owner hserver _ => exact .new level owner hserver
  | edit e _ he ih => exact hupheld.edit ih he
  | tick run fuel _ hrun hw ih => exact hupheld.tick hrun ih fuel hw
  | visit index _ hw ih => exact hupheld.visited ih (hw ▸ visited_invocation? _ cfg index)
  | giveBack e _ he ih => exact hupheld.returned ih he

end World

/-! ### Events -/

/-- The section is searched for listeners to an event at a position: it meets the cube around the
position that goes as far as the range of the event on each axis. -/
def GameEvent.Reaches (event : GameEvent) (pos : BlockPos) (s : SectionPos) : Prop :=
  ((pos.x - event.range.toNat) / 16 ≤ s.x ∧ s.x ≤ (pos.x + event.range.toNat) / 16) ∧
    ((pos.y - event.range.toNat) / 16 ≤ s.y ∧ s.y ≤ (pos.y + event.range.toNat) / 16) ∧
    ((pos.z - event.range.toNat) / 16 ≤ s.z ∧ s.z ≤ (pos.z + event.range.toNat) / 16)

instance (event : GameEvent) (pos : BlockPos) (s : SectionPos) : Decidable (event.Reaches pos s) :=
  inferInstanceAs (Decidable (_ ∧ _ ∧ _))

/-- In a section that is searched for a near event a listener is near. -/
theorem GameEvent.Reaches.measures {event : GameEvent} {pos : BlockPos}
    {l : Listener} (h : event.Reaches pos (.ofBlock l.source)) (hevent : event.range.toNat < 2 ^ 30)
    (hrange : l.range.toNat < 2 ^ 31) : l.Measures pos := by
  obtain ⟨⟨hx, hx'⟩, ⟨hy, hy'⟩, hz, hz'⟩ := h
  simp only [SectionPos.ofBlock, sectionCoord] at hx hx' hy hy' hz hz'
  exact l.measures_of_near (by omega) (by omega) (by omega) hrange

/-- The columns with these coordinates. -/
def columnsOf (xs zs : List Int) : List ChunkPos := xs.flatMap fun x => zs.map fun z => ⟨x, z⟩

theorem nodup_columnsOf {xs zs : List Int} (hx : xs.Nodup) (hz : zs.Nodup) :
    (columnsOf xs zs).Nodup := by
  refine List.nodup_flatMap.2 ⟨fun x _ => hz.map fun z z' heq => congrArg ChunkPos.z heq,
    hx.imp fun {x x'} hne column hl hr => ?_⟩
  obtain ⟨z, -, rfl⟩ := List.mem_map.1 hl
  obtain ⟨z', -, heq⟩ := List.mem_map.1 hr
  exact hne (congrArg ChunkPos.x heq).symm

theorem mem_columnsOf {xs zs : List Int} {column : ChunkPos} :
    column ∈ columnsOf xs zs ↔ column.x ∈ xs ∧ column.z ∈ zs := by
  unfold columnsOf
  simp only [List.mem_flatMap, List.mem_map]
  constructor
  · rintro ⟨x, hx, z, hz, rfl⟩
    exact ⟨hx, hz⟩
  · rintro ⟨hx, hz⟩
    exact ⟨column.x, hx, column.z, hz, rfl⟩

namespace World

variable {cfg : Config α τ} {lent : Option (Invocation α τ)} {w : World α τ σ}
  {fit : Chunk α → Prop}

/-- Those who are to hear an event at a position, with an entity `lent` to its ticker: for each
entity that stands in a chunk, in a section that is searched, its listener if the event is within
its range. -/
def hearers (cfg : Config α τ) (lent : Option (Invocation α τ)) (w : World α τ σ)
    (event : GameEvent) (pos : BlockPos) : List Listener :=
  w.chunks.entries.flatMap fun (column, c) =>
    (c.standing (outAt lent column)).filterMap fun (p, e) =>
      if event.Reaches pos ⟨column.x, sectionCoord p.y, column.z⟩ then
        (cfg.registry.listener e).filter fun l => pos.distanceSq p ≤ (l.range.toNat ^ 2 : Nat)
      else none

/-- No comparison of a distance with a range overflows in the sections that are searched. -/
def Measures (cfg : Config α τ) (lent : Option (Invocation α τ)) (w : World α τ σ)
    (event : GameEvent) (pos : BlockPos) : Prop :=
  ∀ column c p e l, w.chunk? column = some c → (p, e) ∈ c.standing (outAt lent column) →
    event.Reaches pos ⟨column.x, sectionCoord p.y, column.z⟩ →
    cfg.registry.listener e = some l → l.Measures pos

/-- What one chunk hears, if its column is searched or not. -/
theorem hears_eq {column : ChunkPos} {c : Chunk α} {out : Option (BlockEntity α)}
    (h : c.Attentive cfg out) (event : GameEvent) (pos : BlockPos)
    (hmeasures : ∀ p e l, (p, e) ∈ c.standing out →
      event.Reaches pos ⟨column.x, sectionCoord p.y, column.z⟩ →
      cfg.registry.listener e = some l → l.Measures pos) :
    ((c.standing out).filterMap fun e =>
      if event.Reaches pos ⟨column.x, sectionCoord e.1.y, column.z⟩ then
        (cfg.registry.listener e.2).filter fun l =>
          pos.distanceSq e.1 ≤ (l.range.toNat ^ 2 : Nat)
      else none) =
    if ((pos.x - event.range.toNat) / 16 ≤ column.x ∧ column.x ≤ (pos.x + event.range.toNat) / 16) ∧
        ((pos.z - event.range.toNat) / 16 ≤ column.z ∧
          column.z ≤ (pos.z + event.range.toNat) / 16) then
      (c.standing out).filterMap fun e =>
        if (pos.y - event.range.toNat) / 16 ≤ sectionCoord e.1.y ∧
            sectionCoord e.1.y ≤ (pos.y + event.range.toNat) / 16 then
          (cfg.registry.listener e.2).filter fun l => l.accepts pos
        else none
    else [] := by
  have hrange : ∀ p e, (p, e) ∈ c.standing out →
      event.Reaches pos ⟨column.x, sectionCoord p.y, column.z⟩ →
      (cfg.registry.listener e).filter (fun l => pos.distanceSq p ≤ (l.range.toNat ^ 2 : Nat)) =
        (cfg.registry.listener e).filter fun l => l.accepts pos := by
    intro p e he hreaches
    cases hl : cfg.registry.listener e with
    | none => rfl
    | some l =>
      rw [Option.filter_some, Option.filter_some, (hmeasures p e l he hreaches hl).accepts_eq,
        h.source_eq he hl]
  split
  · next hcolumn =>
    refine List.filterMap_congr fun entry he => ?_
    obtain ⟨p, e⟩ := entry
    by_cases hy : (pos.y - event.range.toNat) / 16 ≤ sectionCoord p.y ∧
        sectionCoord p.y ≤ (pos.y + event.range.toNat) / 16
    · have hreaches : event.Reaches pos ⟨column.x, sectionCoord p.y, column.z⟩ :=
        ⟨hcolumn.1, hy, hcolumn.2⟩
      rw [if_pos hreaches, if_pos hy]
      exact hrange p e he hreaches
    · rw [if_neg fun hreaches => hy hreaches.2.1, if_neg hy]
  · next hcolumn =>
    refine List.filterMap_eq_nil_iff.2 fun entry _ => if_neg fun hreaches => hcolumn ?_
    exact ⟨hreaches.1, hreaches.2.2⟩

/-- **An event is heard by those who are to hear it**, each once. -/
theorem Attentive.perm_emit (h : w.Attentive cfg lent) {event : GameEvent}
    (hrange : event.range.toNat < 2 ^ 31) {pos : BlockPos}
    (hmeasures : w.Measures cfg lent event pos) :
    (w.emit event pos).Perm (w.hearers cfg lent event pos) := by
  have hreach : wrap32 event.range.toNat = event.range.toNat := by
    unfold wrap32
    rw [Int.bmod_eq_of_le (by omega) (by omega)]
  -- the columns are searched one after another, and each chunk is found once
  have hemit : w.emit event pos = (columnsOf
      (span ((pos.x - event.range.toNat) / 16) ((pos.x + event.range.toNat) / 16))
      (span ((pos.z - event.range.toNat) / 16) ((pos.z + event.range.toNat) / 16))).flatMap
        fun column => (w.chunk? column).elim [] fun c => c.dispatch
          ((pos.y - event.range.toNat) / 16) ((pos.y + event.range.toNat) / 16) pos := by
    unfold emit columnsOf
    rw [List.flatMap_assoc]
    simp only [List.flatMap_map, hreach]
    refine congrArg (List.flatMap · _) (funext fun x => congrArg (List.flatMap · _) ?_)
    funext z
    cases w.chunk? ⟨x, z⟩ <;> rfl
  rw [hemit]
  refine (w.chunks.perm_flatMap_find? _ (nodup_columnsOf (nodup_span ..) (nodup_span ..))).trans
    (List.Perm.flatMap_left _ fun entry hc => ?_)
  obtain ⟨column, c⟩ := entry
  have hc := Keyed.find?_eq_some_iff.2 hc
  have hchunk := h.chunk column c hc
  simp only [hears_eq hchunk event pos fun p e l => hmeasures column c p e l hc, mem_columnsOf,
    mem_span]
  split
  · exact hchunk.perm_dispatch _ _ pos
  · exact .refl _

/-- Whoever hears the event in a section that is searched is told of it. -/
theorem mem_emit {event : GameEvent} (hrange : event.range.toNat < 2 ^ 31) {pos : BlockPos}
    {s : SectionPos} (hreaches : event.Reaches pos s) {c : Chunk α}
    (hc : w.chunk? ⟨s.x, s.z⟩ = some c) {d : Dispatcher} (hd : c.dispatchers.find? s.y = some d)
    {l : Listener} (hl : l ∈ d.dispatch pos) : l ∈ w.emit event pos := by
  have hreach : wrap32 event.range.toNat = event.range.toNat :=
    Int.bmod_eq_of_le (by omega) (by omega)
  unfold emit
  rw [hreach]
  simp only [List.mem_flatMap]
  refine ⟨s.x, mem_span.2 hreaches.1, s.z, mem_span.2 hreaches.2.2, ?_⟩
  rw [hc]
  simp only [List.mem_flatMap]
  refine ⟨s.y, mem_span.2 hreaches.2.1, ?_⟩
  rw [hd]
  exact hl

/-- An entity that stands in a chunk stands in its column, if all that is inserted and made does. -/
theorem InOrder.ofBlock_of_mem_standing {column : ChunkPos} {c : Chunk α} {p : BlockPos}
    {e : BlockEntity α} (h : w.InOrder (fun column pos => column.contains pos = true) lent)
    (hc : w.chunk? column = some c) (hsole : c.Sole) (he : (p, e) ∈ c.standing (outAt lent column)) :
    ChunkPos.ofBlock p = column := by
  rcases Option.or_eq_some_iff.1 ((Chunk.mem_standing hsole).1 he) with hat | ⟨-, haway⟩
  · exact beq_iff_eq.1
      ((h.placed column c hc).within.entities p e (Chunk.entityAt?_eq_some_iff.1 hat).1)
  · -- it has left from where the entity that is lent stood
    obtain ⟨out, hout, -⟩ := Option.bind_eq_some_iff.1 haway
    obtain ⟨hlent, rfl, hlive⟩ := Chunk.lentAt?_eq_some_iff.1 hout
    have htended := h.sites column ⟨c, w.level⟩ (site?_eq_some_iff.2 ⟨hc, rfl⟩)
    obtain ⟨i, -, hcolumn, heq⟩ := outOf_eq_some_iff.1 (htended.lends out hlent hlive)
    have hpos : i.pos = out.pos := congrArg Prod.fst heq
    exact hpos ▸ hcolumn

/-- A chunk that has been removed may be inserted again. -/
theorem Attentive.load_removeChunk {column : ChunkPos} {c : Chunk α} (h : w.Attentive cfg lent)
    (hc : (w.removeChunk column).1 = some c) : c.load.2.Unheard ∧ c.load.2.Unticked := by
  have hunticked := unticked_removeChunk hc
  have hunheard : c.Unheard ∧ c.onLoad = none := by
    unfold World.removeChunk at hc
    cases hs : w.site? column with
    | none =>
      rw [hs] at hc
      cases hc
    | some s =>
      rw [hs] at hc
      cases hc
      obtain ⟨hlisteners, hseated, hlent⟩ := (h.site hs).unheard
      refine ⟨⟨hlisteners, hseated, hlent⟩, ?_⟩
      obtain ⟨dispatchers, heq⟩ := Site.discardEntities_eq s
      show s.discardEntities.chunk.onLoad = none
      rw [heq]
      exact (h.site hs).chunk.onLoad
  have hload : c.load = (false, c) := by
    unfold Chunk.load
    rw [hunheard.2]
  rw [hload]
  exact ⟨hunheard.1, hunticked⟩

/-- **Events are heard by exactly those who are to hear them**, in all worlds of a server that runs
reach and also while an entity is being ticked, if listeners are steady and chunks come without
listeners and tickers, and no comparison of a distance with a range overflows: by the listener of
each entity that stands in a section around the event and has the event within its range, each once.

If all chunks are at home in columns within range and entities are made in the column of the block,
then the section in which an entity stands is that of its position, and nothing overflows for an
event with a range below `2 ^ 30` where those of the listeners are below `2 ^ 31`. -/
theorem Served.perm_hearers (hdefault : cfg.DefaultReactions) (hsteady : ∀ e, cfg.SteadyListener e)
    (hfit : ∀ c, fit c → c.load.2.Unheard ∧ c.load.2.Unticked) (h : Served cfg fit lent w)
    (event : GameEvent) (hrange : event.range.toNat < 2 ^ 31) (pos : BlockPos) :
    (w.Measures cfg lent event pos → (w.emit event pos).Perm (w.hearers cfg lent event pos)) ∧
      ((∀ column : ChunkPos, cfg.MakesOnly fun pos => column.contains pos = true) →
        (∀ c, fit c → c.AtHome) →
          (∀ column c p e, w.chunk? column = some c → (p, e) ∈ c.standing (outAt lent column) →
            (⟨column.x, sectionCoord p.y, column.z⟩ : SectionPos) = .ofBlock p) ∧
          (event.range.toNat < 2 ^ 30 →
            (∀ e l, cfg.registry.listener e = some l → l.range.toNat < 2 ^ 31) →
              w.Measures cfg lent event pos)) := by
  have hattentive := h.attentive hsteady hdefault fun c hc => (hfit c hc).1
  refine ⟨hattentive.perm_emit hrange, fun hmakes hhome => ?_⟩
  have horder : w.InOrder (fun column pos => column.contains pos = true) lent :=
    h.reached.inOrder (fun pos => beq_self_eq_true _) hdefault hmakes fun c hc =>
      ⟨(hfit c hc).2, (hhome c hc).placed⟩
  have hsection : ∀ column c p e, w.chunk? column = some c →
      (p, e) ∈ c.standing (outAt lent column) →
      (⟨column.x, sectionCoord p.y, column.z⟩ : SectionPos) = .ofBlock p := by
    intro column c p e hc he
    rw [← horder.ofBlock_of_mem_standing hc (hattentive.chunk column c hc).sole he]
    rfl
  refine ⟨hsection, fun hevent hlisteners column c p e l hc he hreaches hl => ?_⟩
  have hsource := (hattentive.chunk column c hc).source_eq he hl
  rw [hsection column c p e hc he, ← hsource] at hreaches
  exact hreaches.measures hevent (hlisteners e l hl)

end World

/-! ### A chest that hears -/

/-- Where all listeners hear as far from where they stand, they are steady. -/
theorem steadyListener_of_eq {cfg : Config Unit Unit}
    (h : ∀ e, cfg.registry.listener e = some ⟨e.pos, 8⟩) (e : BlockEntity Unit) :
    cfg.SteadyListener e where
  source := by
    intro l hl
    rw [h, Option.some.injEq] at hl
    rw [← hl]
  steady := fun _ _ _ _ => by rw [h, h]

theorem chestWorld_steady (e : BlockEntity Unit) : chestWorld.SteadyListener e :=
  steadyListener_of_eq (fun _ => rfl) e

/-- A chest that has been renewed in a tick hears an event in the next column. -/
theorem heard_chest :
    ∃ w, oneChest.tick chestWorld renewChest 3 = some w ∧
      w.emit ⟨"block_place", 16⟩ ⟨-2, 5, 4⟩ = [⟨⟨3, 5, 4⟩, 8⟩] ∧
      w.Measures chestWorld none ⟨"block_place", 16⟩ ⟨-2, 5, 4⟩ ∧
      (w.emit ⟨"block_place", 16⟩ ⟨-2, 5, 4⟩).Perm
        (w.hearers chestWorld none ⟨"block_place", 16⟩ ⟨-2, 5, 4⟩) ∧
      ∀ column c p e, w.chunk? column = some c → (p, e) ∈ c.standing none →
        (⟨column.x, sectionCoord p.y, column.z⟩ : SectionPos) = .ofBlock p := by
  obtain ⟨w, hw⟩ := Option.isSome_iff_exists.1
    (show (oneChest.tick chestWorld renewChest 3).isSome by decide +kernel)
  have hemit : (oneChest.tick chestWorld renewChest 3).map
      (fun w => w.emit ⟨"block_place", 16⟩ ⟨-2, 5, 4⟩) = some [⟨⟨3, 5, 4⟩, 8⟩] := by
    decide +kernel
  rw [hw, Option.map_some, Option.some.injEq] at hemit
  have hchests : (tickingChests.load.2.Unheard ∧ tickingChests.load.2.Unticked) ∧
      tickingChests.AtHome :=
    ⟨⟨.of_empty rfl rfl rfl, tickingChests_unticked⟩, tickingChests_atHome⟩
  have hone : World.Served chestWorld
      (fun c => (c.load.2.Unheard ∧ c.load.2.Unticked) ∧ c.AtHome) none oneChest := by
    refine (World.Served.new _ () rfl rfl).edits ?_
    simp [WorldEdit.Keeps, hchests]
  have hrun : renewChest.Keeps chestWorld
      fun c => (c.load.2.Unheard ∧ c.load.2.Unticked) ∧ c.AtHome := by
    intro action w pos state e
    refine ⟨[.addEntity _], _, fun x hx => ?_, rfl, ⟨⟨rfl, rfl, rfl, rfl⟩, rfl⟩⟩
    rw [List.mem_singleton.1 hx]
    trivial
  obtain ⟨hheard, hstands⟩ := World.Served.perm_hearers chestWorld_default chestWorld_steady
    (fun _ hc => hc.1) (.tick renewChest 3 hone hrun hw) ⟨"block_place", 16⟩ (by decide)
    ⟨-2, 5, 4⟩
  obtain ⟨hsection, hnear⟩ := hstands (fun _ => chestWorld_makesOnly _) fun _ hc => hc.2
  have hmeasures := hnear (by decide) fun e l hl => by
    cases hl
    exact (by decide : (8 : UInt32).toNat < 2 ^ 31)
  exact ⟨w, hw, hemit, hmeasures, hheard hmeasures, hsection⟩

/-! ### Events far out -/

/-- The world of chests in a layer of sections far up. -/
def highChests : Config Unit Unit :=
  { chestWorld with height := ⟨2147483552, 80, rfl, rfl, by decide, by decide⟩ }

/-- One chest, as far out as can be on each axis. -/
def cornerChest : World Unit Unit Unit :=
  World.edits highChests { level := { isClient := false }, owner := () }
    [.insertChunk (Chunk.new highChests { pos := ⟨134217727, 134217727⟩ }),
      .setBlock ⟨2147483632, 2147483617, 2147483632⟩ ⟨1⟩ {}]

/-- **Events far out are misheard.** In a chunk whose blocks have coordinates that wrap around a
chest does not hear what happens where it stands. And a chest far out on all axes, which hears as
far as 8 blocks, hears an event at the origin, since the square of the distance wraps around. -/
theorem misheard_far :
    (settlingChests.DefaultReactions ∧ (∀ e, settlingChests.SteadyListener e) ∧
      World.Served settlingChests (fun c => c.load.2.Unheard ∧ c.load.2.Unticked) none settledFar ∧
      (settledFar.chunk? ⟨268435456, 0⟩).map (fun c => (c.standing none).map fun (p, e) =>
        (p, settlingChests.registry.listener e)) = some [(⟨0, 1, 0⟩, some ⟨⟨0, 1, 0⟩, 8⟩)] ∧
      settledFar.emit ⟨"step", 8⟩ ⟨0, 1, 0⟩ = []) ∧
    (highChests.DefaultReactions ∧ (∀ e, highChests.SteadyListener e) ∧
      World.Served highChests
        (fun c => (c.load.2.Unheard ∧ c.load.2.Unticked) ∧ c.AtHome) none cornerChest ∧
      ∃ l ∈ cornerChest.emit ⟨"step", 2147483647⟩ ⟨0, 0, 0⟩,
        (l.range.toNat ^ 2 : Nat) < BlockPos.distanceSq ⟨0, 0, 0⟩ l.source) := by
  refine ⟨⟨⟨fun _ _ _ _ => rfl, fun _ _ _ _ => rfl⟩, steadyListener_of_eq fun _ => rfl, ?_, ?_, ?_⟩,
    ⟨⟨fun _ _ _ _ => rfl, fun _ _ _ _ => rfl⟩, steadyListener_of_eq fun _ => rfl, ?_, ?_⟩⟩
  · refine (World.Served.new _ () rfl rfl).edits ?_
    rintro e he
    simp only [List.mem_cons, List.not_mem_nil, or_false] at he
    rcases he with rfl | rfl | rfl
    · exact ⟨.of_empty rfl rfl rfl, .of_none rfl rfl⟩
    · exact ⟨.of_empty rfl rfl rfl, .of_none rfl rfl⟩
    · trivial
  · decide +kernel
  · decide +kernel
  · refine (World.Served.new _ () rfl rfl).edits ?_
    rintro e he
    simp only [List.mem_cons, List.not_mem_nil, or_false] at he
    rcases he with rfl | rfl
    · exact ⟨⟨.of_empty rfl rfl rfl, .of_none rfl rfl⟩, by unfold ChunkPos.InRange; decide, rfl,
        .of_empty rfl rfl⟩
    · trivial
  · have hchunk : (cornerChest.chunk? ⟨134217727, 134217727⟩).map (·.dispatchers.find? 134217726) =
        some (some ⟨[⟨⟨2147483632, 2147483617, 2147483632⟩, 8⟩]⟩) := by decide +kernel
    obtain ⟨c, hc, hd⟩ := Option.map_eq_some_iff.1 hchunk
    refine ⟨⟨⟨2147483632, 2147483617, 2147483632⟩, 8⟩, ?_, by decide⟩
    refine World.mem_emit (by decide) (s := ⟨134217727, 134217726, 134217727⟩) (by decide) hc hd ?_
    decide

end VoxelChunk
