import VoxelChunk.World.Basic

/-!
# Ticking block entities

In a pass the slots of all tickers are visited in the order of their indices. While an entity is
being ticked it is out of its chunk, and its ticker may do anything to the world: tickers that are
removed are passed over, and tickers that are registered meanwhile are visited in the same pass.
Slots of removed tickers are freed when the pass is over.

A pass in which tickers keep registering others does not end, so a pass is given the greatest
number of slots it may visit, and has no outcome if that is not enough.

## Main definitions

* `TickerRunner` — what tickers do.
* `World.invocation?` — the entity to be ticked when a slot is visited, if any.
* `World.visitSlot` — the visit to one slot.
* `World.tickEntities`, `World.tick` — a pass, and a tick of the world.
-/

namespace VoxelChunk

/-- What tickers do: given the world without the entity, the position, the state of the block and
the entity, the world and the entity afterwards. -/
abbrev TickerRunner (α τ σ : Type) :=
  τ → World α τ σ → BlockPos → BlockState → BlockEntity α → World α τ σ × BlockEntity α

/-- An entity about to be ticked. -/
structure Invocation (α τ : Type) where
  action : τ
  pos : BlockPos
  state : BlockState
  entity : BlockEntity α

namespace World

variable {α τ σ : Type}

/-- Note that the ticker in a slot cannot tick because of the state of the block, unless that has
been noted before. -/
def warnInvalid (w : World α τ σ) (index : Nat) (ticker : ActiveTicker τ) (state : BlockState) :
    World α τ σ :=
  if ticker.warned then w
  else
    let tickers := w.level.tickers.modifyAt index fun t => { t with warned := true }
    { w with
      level := Level.note { w.level with tickers }
        (.invalidForTicking ticker.type ticker.pos state) }

/-- The entity to be ticked when a slot is visited, and the world without it. There is none if the
slot has no ticker, or if the chunk, the block or the entity is not such that it can be ticked. -/
def invocation? (w : World α τ σ) (cfg : Config α τ) (index : Nat) :
    Option (Invocation α τ) × World α τ σ :=
  match w.level.tickers.activeAt? index with
  | none => (none, w)
  | some ticker =>
    let pos := ticker.pos
    match w.site? (.ofBlock pos) with
    | none => (none, w)
    | some s =>
      if s.chunk.isTicking && s.canTick then
        let (state, s) := s.blockAt cfg pos
        let w := { w with level := s.level }
        if cfg.registry.supports ticker.type state then
          let tickers := w.level.tickers.modifyAt index fun t => { t with warned := false }
          let w := { w with level := { w.level with tickers } }
          match s.chunk.lendEntity? pos ticker.serial with
          | none => (none, w)
          | some (entity, c) =>
            (some ⟨ticker.action, pos, state, entity⟩,
              { w with chunks := w.chunks.insert (.ofBlock pos) c })
        else (none, w.warnInvalid index ticker state)
      else (none, w)

/-- Give an entity that has been ticked back to the chunk at its position. -/
def returnEntity (w : World α τ σ) (pos : BlockPos) (entity : BlockEntity α) : World α τ σ :=
  match w.chunk? (.ofBlock pos) with
  | none => w
  | some c => { w with chunks := w.chunks.insert (.ofBlock pos) (c.returnEntity entity) }

/-- Visit a slot. -/
def visitSlot (w : World α τ σ) (cfg : Config α τ) (run : TickerRunner α τ σ) (index : Nat) :
    World α τ σ :=
  match w.invocation? cfg index with
  | (none, w) => w
  | (some i, w) =>
    let (w, entity) := run i.action w i.pos i.state i.entity
    w.returnEntity i.pos entity

/-- Visit all slots from the given index on, also those that come meanwhile, but no more than the
given number. -/
def visitSlots (cfg : Config α τ) (run : TickerRunner α τ σ) :
    Nat → World α τ σ → Nat → Option (World α τ σ)
  | 0, w, index => if index < w.level.tickers.slotCount then none else some w
  | fuel + 1, w, index =>
    if index < w.level.tickers.slotCount then
      visitSlots cfg run fuel (w.visitSlot cfg run index) (index + 1)
    else some w

/-- Free the slots of all tickers that have been removed. -/
def reapTickers (w : World α τ σ) : World α τ σ :=
  { w with level := w.level.reapTickers.2 }

/-- Tick all block entities, visiting no more slots than `fuel`. -/
def tickEntities (w : World α τ σ) (cfg : Config α τ) (run : TickerRunner α τ σ) (fuel : Nat) :
    Option (World α τ σ) :=
  (visitSlots cfg run fuel w 0).map reapTickers

/-- Tick the world: all block entities, then the time goes on. -/
def tick (w : World α τ σ) (cfg : Config α τ) (run : TickerRunner α τ σ) (fuel : Nat) :
    Option (World α τ σ) :=
  (w.tickEntities cfg run fuel).map fun w =>
    { w with level := { w.level with time := w.level.time + 1 } }

end World

end VoxelChunk
