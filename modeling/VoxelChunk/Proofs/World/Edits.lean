import VoxelChunk.Proofs.Chunk.Owners
import VoxelChunk.World.Ticking

/-!
# Runs of a world

A world is changed by operations of its owner and by ticks, and while a block entity is ticked its
ticker may ask for the same operations.

## Main definitions

* `WorldEdit`, `World.edit` — the operations of a world.
* `TickerRunner.Performs` — tickers change the world by operations only.
* `World.Reached` — the worlds that runs reach, those amid a tick included.
* `World.Upheld` — what each step of a tick keeps.

## Main results

* `World.visited_invocation?` — all that a visit to a slot can come to.
* `World.Upheld.tick` — what each step of a tick keeps is kept by the tick.
-/

namespace VoxelChunk

variable {α τ σ : Type}

/-- One operation of a world. -/
inductive WorldEdit (α : Type) where
  | insertChunk (chunk : Chunk α)
  | removeChunk (pos : ChunkPos)
  | setBlock (pos : BlockPos) (state : BlockState) (flags : SetFlags)
  /-- The entity at a position is asked for and, if there is one, changed. -/
  | getEntity (pos : BlockPos) (mode : CreationMode) (change : BlockEntity α → BlockEntity α)
  | addEntity (entity : BlockEntity α)
  | removeEntity (pos : BlockPos)
  /-- The queued blocks of a chunk are settled. -/
  | settleChunk (pos : ChunkPos)

/-- The chunks that are inserted are `fit`, and those who ask for an entity leave alone what the
library knows of it. -/
def WorldEdit.Admissible (fit : Chunk α → Prop) : WorldEdit α → Prop
  | insertChunk chunk => fit chunk
  | getEntity _ _ change => ∀ e, (change e).Continues e
  | _ => True

namespace World

/-- The world after an operation. -/
def edit (cfg : Config α τ) (w : World α τ σ) : WorldEdit α → World α τ σ
  | .insertChunk chunk => (w.insertChunk cfg chunk).2
  | .removeChunk pos => (w.removeChunk pos).2
  | .setBlock pos state flags => (w.setBlock cfg pos state flags).2
  | .getEntity pos mode change =>
    match w.getEntity cfg pos mode with
    | (some _, w) => w.modifyEntity pos change
    | (none, w) => w
  | .addEntity entity => (w.addEntity cfg entity).2
  | .removeEntity pos => (w.removeEntity pos).2
  | .settleChunk pos => (w.settleChunk cfg pos).2

/-- The world after operations, one after another. -/
def edits (cfg : Config α τ) (w : World α τ σ) (es : List (WorldEdit α)) : World α τ σ :=
  es.foldl (fun w e => w.edit cfg e) w

end World

/-- Tickers change the world by operations only, apart from what belongs to its owner, and of the
entity that they tick they leave alone what the library knows. -/
def TickerRunner.Performs (cfg : Config α τ) (fit : Chunk α → Prop) (run : TickerRunner α τ σ) :
    Prop :=
  ∀ action w pos state e, ∃ es owner, (∀ x ∈ es, WorldEdit.Admissible fit x) ∧
    (run action w pos state e).1 = { w.edits cfg es with owner } ∧
    (run action w pos state e).2.Continues e

/-- Tickers change the world by operations that are admitted only, apart from what belongs to its
owner, and the entity that they tick as it may be changed. -/
def TickerRunner.Acts (cfg : Config α τ) (admits : WorldEdit α → Prop)
    (keeps : BlockEntity α → BlockEntity α → Prop) (run : TickerRunner α τ σ) : Prop :=
  ∀ action w pos state e, ∃ es owner, (∀ x ∈ es, admits x) ∧
    (run action w pos state e).1 = { w.edits cfg es with owner } ∧
    keeps (run action w pos state e).2 e

theorem TickerRunner.Performs.acts {cfg : Config α τ} {fit : Chunk α → Prop}
    {run : TickerRunner α τ σ} (h : run.Performs cfg fit) :
    run.Acts cfg (WorldEdit.Admissible fit) BlockEntity.Continues := h

namespace World

/-- The worlds that are reached by operations and ticks. Amid a tick, a block entity may be out of
its chunk. -/
inductive Reached (cfg : Config α τ) (fit : Chunk α → Prop) :
    Option (Invocation α τ) → World α τ σ → Prop
  | new (level : Level τ) (owner : σ) : level.tickers = {} → Reached cfg fit none { level, owner }
  | edit {lent : Option (Invocation α τ)} {w : World α τ σ} (e : WorldEdit α) :
    Reached cfg fit lent w → e.Admissible fit → Reached cfg fit lent (w.edit cfg e)
  | tick {w w' : World α τ σ} (run : TickerRunner α τ σ) (fuel : Nat) :
    Reached cfg fit none w → run.Performs cfg fit → w.tick cfg run fuel = some w' →
    Reached cfg fit none w'
  /-- Amid a tick, a slot is visited, and the block entity may be lent to its ticker. -/
  | visit {lent : Option (Invocation α τ)} {w w' : World α τ σ} (index : Nat) :
    Reached cfg fit none w → w.invocation? cfg index = (lent, w') → Reached cfg fit lent w'
  /-- The block entity comes back. -/
  | giveBack {i : Invocation α τ} {w : World α τ σ} (e : BlockEntity α) :
    Reached cfg fit (some i) w → e.Continues i.entity →
    Reached cfg fit none (w.returnEntity i.pos e)

theorem Reached.edits {cfg : Config α τ} {fit : Chunk α → Prop} {lent : Option (Invocation α τ)}
    {w : World α τ σ} (h : Reached cfg fit lent w) {es : List (WorldEdit α)}
    (hes : ∀ e ∈ es, e.Admissible fit) : Reached cfg fit lent (w.edits cfg es) := by
  induction es generalizing w with
  | nil => exact h
  | cons e es ih =>
    exact ih (.edit e h (hes e List.mem_cons_self)) fun e' he' =>
      hes e' (List.mem_cons_of_mem e he')

end World

/-! ### Visits -/

/-- Who is ticked, and where. -/
def ActiveTicker.key (ticker : ActiveTicker τ) : BlockPos × EntityType × UInt32 :=
  (ticker.pos, ticker.type, ticker.serial)

/-- The same names stand for tickers of the same entities. -/
structure Level.SameTickers (l l' : Level τ) : Prop where
  isClient : l'.isClient = l.isClient
  sound : l.tickers.Sound → l'.tickers.Sound
  key : ∀ name, (l'.tickers.get? name).map ActiveTicker.key =
    (l.tickers.get? name).map ActiveTicker.key

theorem Level.SameTickers.refl (l : Level τ) : l.SameTickers l := ⟨rfl, id, fun _ => rfl⟩

theorem Level.SameTickers.trans {l l' l'' : Level τ} (h : l.SameTickers l')
    (h' : l'.SameTickers l'') : l.SameTickers l'' :=
  ⟨h'.isClient.trans h.isClient, fun hs => h'.sound (h.sound hs),
    fun name => (h'.key name).trans (h.key name)⟩

/-- Whether a warning has been given says nothing about who is ticked. -/
theorem Level.sameTickers_modifyAt (l : Level τ) (index : Nat)
    {f : ActiveTicker τ → ActiveTicker τ} (hf : ∀ ticker, (f ticker).key = ticker.key) :
    l.SameTickers { l with tickers := l.tickers.modifyAt index f } where
  isClient := rfl
  sound := fun h => h.modifyAt index f
  key := by
    intro name
    show ((l.tickers.modifyAt index f).get? name).map _ = _
    rw [Tickers.get?_modifyAt]
    split
    · rw [Option.map_map]
      exact congrArg (fun key => (l.tickers.get? name).map key) (funext hf)
    · rfl

theorem Level.sameTickers_reap (l : Level τ) : l.SameTickers l.reapTickers.2 where
  isClient := rfl
  sound := fun h => h.reap
  key := fun name => congrArg (Option.map ActiveTicker.key) (Tickers.get?_reap l.tickers name)

namespace World

/-- All that a visit to a slot can come to. -/
inductive Visited (cfg : Config α τ) (w : World α τ σ) (index : Nat) :
    Option (Invocation α τ) × World α τ σ → Prop
  | idle (level : Level τ) : w.level.SameTickers level →
    Visited cfg w index (none, { w with level })
  /-- The entity of the ticker in the slot is taken out of its chunk. -/
  | lent (ticker : ActiveTicker τ) (c : Chunk α) (e : BlockEntity α) (level : Level τ) :
    w.level.tickers.activeAt? index = some ticker → w.chunk? (.ofBlock ticker.pos) = some c →
    cfg.registry.supports ticker.type (Site.blockAt ⟨c, w.level⟩ cfg ticker.pos).1 →
    c.entityAt? ticker.pos = some e → e.serial = ticker.serial → w.level.SameTickers level →
    Visited cfg w index
      (some ⟨ticker.action, ticker.pos, (Site.blockAt ⟨c, w.level⟩ cfg ticker.pos).1, e⟩,
        { w with
          level
          chunks := w.chunks.insert (.ofBlock ticker.pos) (c.lending ticker.pos e) })

theorem warnInvalid_eq (w : World α τ σ) (index : Nat) (ticker : ActiveTicker τ)
    (state : BlockState) : ∃ level, w.warnInvalid index ticker state = { w with level } ∧
      w.level.SameTickers level := by
  unfold warnInvalid
  split
  · exact ⟨w.level, rfl, .refl w.level⟩
  · have hwarned := Level.sameTickers_modifyAt w.level index
      (f := fun ticker => { ticker with warned := true }) fun _ => rfl
    exact ⟨_, rfl, hwarned.isClient, hwarned.sound, hwarned.key⟩

theorem visited_invocation? (w : World α τ σ) (cfg : Config α τ) (index : Nat) :
    Visited cfg w index (w.invocation? cfg index) := by
  unfold invocation?
  cases hticker : w.level.tickers.activeAt? index with
  | none => exact .idle w.level (.refl w.level)
  | some ticker =>
    simp only
    cases hsite : w.site? (.ofBlock ticker.pos) with
    | none => exact .idle w.level (.refl w.level)
    | some s =>
      obtain ⟨c, hc, rfl⟩ := Option.map_eq_some_iff.1 hsite
      simp only
      split
      · have hread : w.level.SameTickers (Site.blockAt ⟨c, w.level⟩ cfg ticker.pos).2.level := by
          unfold Site.blockAt
          cases c.blockAt cfg ticker.pos <;> exact ⟨rfl, id, fun _ => rfl⟩
        have hchunk : (Site.blockAt ⟨c, w.level⟩ cfg ticker.pos).2.chunk = c := rfl
        rw [hchunk]
        split
        · next hsupports =>
          have hwarned := hread.trans (Level.sameTickers_modifyAt _ index
            (f := fun ticker => { ticker with warned := false }) fun _ => rfl)
          unfold Chunk.lendEntity?
          cases he : c.entityAt? ticker.pos with
          | none => exact .idle _ hwarned
          | some e =>
            simp only
            by_cases hserial : e.serial = ticker.serial
            · rw [if_pos hserial, ← hserial]
              exact .lent ticker c e _ hticker hc hsupports he hserial hwarned
            · rw [if_neg hserial]
              exact .idle _ hwarned
        · obtain ⟨level, heq, hsame⟩ := warnInvalid_eq
            { w with level := (Site.blockAt ⟨c, w.level⟩ cfg ticker.pos).2.level } index ticker
            (Site.blockAt ⟨c, w.level⟩ cfg ticker.pos).1
          rw [heq]
          exact .idle level (hread.trans hsame)
      · exact .idle w.level (.refl w.level)

/-! ### What a tick keeps -/

/-- Each step of a tick keeps `I`, whether an entity is out of its chunk or not: operations that are
admitted, visits to slots, and entities that come back as they may. -/
structure Upheld (cfg : Config α τ) (admits : WorldEdit α → Prop)
    (keeps : BlockEntity α → BlockEntity α → Prop)
    (I : Option (Invocation α τ) → World α τ σ → Prop) : Prop where
  edit : ∀ {lent w e}, I lent w → admits e → I lent (w.edit cfg e)
  hand : ∀ {lent w} owner, I lent w → I lent { w with owner }
  relevel : ∀ {lent w level}, I lent w → w.level.SameTickers level → I lent { w with level }
  visited : ∀ {w w' index lent}, I none w → Visited cfg w index (lent, w') → I lent w'
  returned : ∀ {i w e}, I (some i) w → keeps e i.entity → I none (w.returnEntity i.pos e)

namespace Upheld

variable {cfg : Config α τ} {admits : WorldEdit α → Prop}
  {keeps : BlockEntity α → BlockEntity α → Prop}
  {I : Option (Invocation α τ) → World α τ σ → Prop} {lent : Option (Invocation α τ)}
  {w w' : World α τ σ} {run : TickerRunner α τ σ}

/-- Operations keep it, one after another. -/
theorem edits (h : Upheld cfg admits keeps I) (hw : I lent w) (es : List (WorldEdit α))
    (hes : ∀ e ∈ es, admits e) : I lent (w.edits cfg es) := by
  induction es generalizing w with
  | nil => exact hw
  | cons e es ih =>
    exact ih (h.edit hw (hes e List.mem_cons_self)) fun e' he' =>
      hes e' (List.mem_cons_of_mem e he')

/-- The entity that is taken out is ticked. -/
theorem acted (h : Upheld cfg admits keeps I) (hrun : run.Acts cfg admits keeps)
    {i : Invocation α τ} (hw : I (some i) w) : I (some i) (run i.action w i.pos i.state i.entity).1 ∧
      keeps (run i.action w i.pos i.state i.entity).2 i.entity := by
  obtain ⟨es, owner, hes, hworld, he⟩ := hrun i.action w i.pos i.state i.entity
  rw [hworld]
  exact ⟨h.hand owner (h.edits hw es hes), he⟩

/-- A visit to a slot with all that the ticker does keeps it. -/
theorem visitSlot (h : Upheld cfg admits keeps I) (hrun : run.Acts cfg admits keeps) (hw : I none w)
    (index : Nat) : I none (w.visitSlot cfg run index) := by
  have hv := visited_invocation? w cfg index
  unfold World.visitSlot
  generalize w.invocation? cfg index = visit at hv ⊢
  obtain ⟨lent, w'⟩ := visit
  have hlent := h.visited hw hv
  cases lent with
  | none => exact hlent
  | some i =>
    obtain ⟨hacted, he⟩ := h.acted hrun hlent
    exact h.returned hacted he

theorem visitSlots (h : Upheld cfg admits keeps I) (hrun : run.Acts cfg admits keeps)
    (hw : I none w) (fuel index : Nat)
    (hpass : World.visitSlots cfg run fuel w index = some w') : I none w' := by
  induction fuel generalizing w index with
  | zero =>
    unfold World.visitSlots at hpass
    split at hpass
    · cases hpass
    · cases hpass
      exact hw
  | succ fuel ih =>
    unfold World.visitSlots at hpass
    split at hpass
    · exact ih (h.visitSlot hrun hw index) (index + 1) hpass
    · cases hpass
      exact hw

/-- **A tick keeps it.** -/
theorem tick (h : Upheld cfg admits keeps I) (hrun : run.Acts cfg admits keeps) (hw : I none w)
    (fuel : Nat) (htick : w.tick cfg run fuel = some w') : I none w' := by
  obtain ⟨ticked, hticked, rfl⟩ := Option.map_eq_some_iff.1 htick
  obtain ⟨visited, hvisited, rfl⟩ := Option.map_eq_some_iff.1 hticked
  have hpass := h.visitSlots hrun hw fuel 0 hvisited
  have hreaped := h.relevel hpass (Level.sameTickers_reap visited.level)
  exact h.relevel hreaped ⟨rfl, id, fun _ => rfl⟩

end Upheld

end World

end VoxelChunk
