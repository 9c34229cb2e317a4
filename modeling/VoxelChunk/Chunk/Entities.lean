import VoxelChunk.Chunk.Blocks

/-!
# Block entities of a chunk

Block entities are installed at their positions or wait as saved data until they are asked for.
While a chunk can tick them, each installed entity that hears events has a listener, and each that
is ticked has a ticker registered in the level. An entity that is being ticked is out of the chunk
meanwhile, see `LentEntity`.

## Main definitions

* `Site.getEntity` — the entity at a position, loaded or made if need be.
* `Site.addEntity`, `Site.removeEntity` — entities come and go.
* `Site.updateTicker`, `Site.updateListener` — ticker and listener after a change.
* `Site.discardEntities`, `Site.updateEntities` — when the chunk leaves or enters its world.
* `Chunk.saveEntity` — the data to save for a position.
* `Chunk.lendEntity`, `Chunk.returnEntity` — an entity leaves to be ticked, and comes back.
-/

namespace VoxelChunk

namespace Chunk

variable {α : Type}

/-- The entity that is out of the chunk from the given position, unless it has been removed. -/
def lentAt? (c : Chunk α) (pos : BlockPos) : Option LentEntity :=
  c.lent.filter fun lent => lent.pos = pos && !lent.removed

/-- Note a change of the entity that is out of the chunk from the given position. -/
def modifyLent (c : Chunk α) (pos : BlockPos) (f : LentEntity → LentEntity) : Chunk α :=
  match c.lentAt? pos with
  | some lent => { c with lent := some (f lent) }
  | none => c

/-- The installed entity at a position, unless it has been removed. -/
def entityAt? (c : Chunk α) (pos : BlockPos) : Option (BlockEntity α) :=
  (c.entities.find? pos).filter fun e => !e.removed

/-- Change the installed entity at a position, removed or not. -/
def modifyEntity (c : Chunk α) (pos : BlockPos) (f : BlockEntity α → BlockEntity α) : Chunk α :=
  { c with entities := c.entities.modify pos f }

/-- A ticker is registered for the position. -/
def hasTicker (c : Chunk α) (pos : BlockPos) : Bool := c.tickers.contains pos

/-- The dispatcher of a section, made if need be. -/
def dispatcher (c : Chunk α) (sectionY : Int) : Dispatcher × Chunk α :=
  let (d, dispatchers) := Dispatchers.ensure c.dispatchers sectionY
  (d, { c with dispatchers })

/-- Add a listener to the dispatcher of a section. -/
def addListener (c : Chunk α) (sectionY : Int) (l : Listener) : Chunk α :=
  { c with dispatchers := Dispatchers.addListener c.dispatchers sectionY l }

/-- Remove the listener at a position. -/
def removeListener (c : Chunk α) (pos : BlockPos) : Chunk α :=
  { c with
    dispatchers := (Dispatchers.removeListener c.dispatchers (sectionCoord pos.y) pos).2 }

/-- Keep saved data until somebody asks for the entity at the position written in it. -/
def addPending (c : Chunk α) (fields : Compound) : Except TagError (Chunk α) :=
  (savedPos fields).map fun pos => { c with pending := c.pending.insert pos fields }

/-- The data to save for a position: that of the installed entity or else the saved data that
nobody has asked for. Which of both it is, the field `keepPacked` tells. -/
def saveEntity (c : Chunk α) (factory : EntityFactory α) (pos : BlockPos) : Option Compound :=
  match c.entityAt? pos with
  | some e => some ((factory.save e).insert "keepPacked" (.byte 0))
  | none => (c.pending.find? pos).map fun fields => Compound.insert fields "keepPacked" (.byte 1)

/-! ### Entities that are being ticked -/

/-- Take out the entity with the given serial to be ticked. -/
def lendEntity? (c : Chunk α) (pos : BlockPos) (serial : UInt32) :
    Option (BlockEntity α × Chunk α) :=
  match c.entityAt? pos with
  | none => none
  | some e =>
    if e.serial = serial then
      some (e, { c with
        entities := c.entities.swapErase pos
        lent := some ⟨pos, serial, e.type, e.cachedState, false⟩ })
    else none

/-- Put an entity back that has been ticked, unless it was removed or replaced meanwhile. -/
def returnEntity (c : Chunk α) (e : BlockEntity α) : Chunk α :=
  match c.lent with
  | none => c
  | some lent =>
    let c := { c with lent := none }
    if lent.removed || c.entities.contains lent.pos then c
    else
      { c with entities := c.entities.insert lent.pos { e with cachedState := lent.cachedState } }

end Chunk

namespace Site

variable {α τ : Type}

/-! ### Tickers and listeners -/

/-- Remove the ticker registered for a position. -/
def removeTicker (s : Site α τ) (pos : BlockPos) : Site α τ :=
  match s.chunk.tickers.find? pos with
  | none => s
  | some handle =>
    { chunk := { s.chunk with tickers := s.chunk.tickers.erase pos }
      level := { s.level with tickers := (s.level.tickers.remove handle).2 } }

/-- What is ticked at a position: the type, the state of the block and the serial of the entity
there, which may be out of the chunk to be ticked. -/
def tickedAt? (c : Chunk α) (pos : BlockPos) : Option (EntityType × BlockState × UInt32) :=
  match c.entities.find? pos with
  | some e => if e.removed then none else some (e.type, e.cachedState, e.serial)
  | none => (c.lentAt? pos).map fun lent => (lent.type, lent.cachedState, lent.serial)

/-- Register a ticker for a position, in the place of the active one if there is one. -/
def registerTicker (s : Site α τ) (pos : BlockPos) (ticker : ActiveTicker τ) : Site α τ :=
  let replaced := (s.chunk.tickers.find? pos).bind fun handle =>
    match s.level.tickers.replace handle ticker with
    | (true, tickers) => some tickers
    | (false, _) => none
  match replaced with
  | some tickers => { s with level := { s.level with tickers } }
  | none =>
    let (handle, tickers) := s.level.tickers.register ticker
    { chunk := { s.chunk with tickers := s.chunk.tickers.insert pos handle }
      level := { s.level with tickers } }

/-- Register or remove the ticker for a position, as the entity there and the state of its block
ask for. -/
def updateTicker (s : Site α τ) (cfg : Config α τ) (pos : BlockPos) : Site α τ :=
  match tickedAt? s.chunk pos with
  | none => s.removeTicker pos
  | some (type, state, serial) =>
    match cfg.registry.tickerFor s.level.isClient state type with
    | none => s.removeTicker pos
    | some action => s.registerTicker pos { pos, serial, type, action }

/-- Add or remove the listener at a position, as the entity there asks for. On a client nothing
listens. -/
def updateListener (s : Site α τ) (cfg : Config α τ) (pos : BlockPos) : Site α τ :=
  if s.level.isClient then s
  else
    match (s.chunk.entityAt? pos).bind cfg.registry.listener with
    | some listener => { s with chunk := s.chunk.addListener (sectionCoord pos.y) listener }
    | none => { s with chunk := s.chunk.removeListener pos }

/-! ### Coming and going -/

/-- Install an entity at its position. The one that was there, or is out of the chunk from there,
is removed. -/
def addEntity (s : Site α τ) (cfg : Config α τ) (entity : BlockEntity α) : Site α τ :=
  let pos := entity.pos
  let c := s.chunk.modifyLent pos fun lent => { lent with removed := true }
  let entity := { entity with hasWorld := true, removed := false, serial := c.nextSerial }
  let c := { c with nextSerial := c.nextSerial + 1, entities := c.entities.insert pos entity }
  let s := Site.push { s with chunk := c } (.entitySet pos)
  if s.canTick then (s.updateListener cfg pos).updateTicker cfg pos else s

/-- Take out the entity at a position, or note that the one which is out of the chunk from there
is removed. The outcome tells whether there was one. -/
def takeEntity (s : Site α τ) (pos : BlockPos) : Bool × Site α τ :=
  if s.chunk.entities.contains pos then
    (true, Site.push
      { s with chunk := { s.chunk with entities := s.chunk.entities.swapErase pos } }
      (.entityRemoved pos))
  else if (s.chunk.lentAt? pos).isSome then
    (true, Site.push
      { s with chunk := s.chunk.modifyLent pos fun lent => { lent with removed := true } }
      (.entityRemoved pos))
  else (false, s)

/-- Remove the entity at a position, if the chunk can tick its entities, and its listener and
ticker in any case. The outcome tells whether an entity was removed. -/
def removeEntity (s : Site α τ) (pos : BlockPos) : Bool × Site α τ :=
  let (removed, s) := if s.canTick then s.takeEntity pos else (false, s)
  (removed, Site.removeTicker { s with chunk := s.chunk.removeListener pos } pos)

/-- Make the entity that the block at a position gets by itself. -/
def createEntity (s : Site α τ) (cfg : Config α τ) (pos : BlockPos) :
    Option (BlockEntity α) × Site α τ :=
  let (state, s) := s.blockAt cfg pos
  if cfg.registry.hasEntity state then
    match cfg.registry.create pos state with
    | none => (none, s)
    | some entity =>
      let s := s.addEntity cfg entity
      (s.chunk.entities.find? pos, s)
  else (none, s)

/-- Install the entity that saved data stands for. The outcome tells whether it could be done; why
it could not is noted. -/
def loadEntity (s : Site α τ) (cfg : Config α τ) (pos : BlockPos) (fields : Compound) :
    Bool × Site α τ :=
  let (state, s) := s.blockAt cfg pos
  let (entity, s) :=
    if fields.findString? "id" = some dummyId then
      if cfg.registry.hasEntity state then (cfg.registry.create pos state, s)
      else (none, s.note (.dummyWithoutEntity pos state))
    else
      match cfg.factory.load pos state fields with
      | .ok entity => (some entity, s)
      | .error cause => (none, s.note (.loadFailed pos cause))
  match entity with
  | some entity => (true, s.addEntity cfg entity)
  | none => (false, s.note (.notLoaded pos state))

/-- Take out the entity at a position if it has been removed, with its listener and ticker. -/
def evictRemoved (s : Site α τ) (pos : BlockPos) : Site α τ :=
  match s.chunk.entities.find? pos with
  | none => s
  | some e =>
    if e.removed then
      let c := { s.chunk with entities := s.chunk.entities.swapErase pos }
      Site.removeTicker { s with chunk := c.removeListener pos } pos
    else s

/-- Load the entity that saved data for a position stands for. The data is used up, whether it can
be loaded or not. -/
def loadPending (s : Site α τ) (cfg : Config α τ) (pos : BlockPos) : Bool × Site α τ :=
  match s.chunk.pending.find? pos with
  | none => (false, s)
  | some fields =>
    loadEntity { s with chunk := { s.chunk with pending := s.chunk.pending.swapErase pos } }
      cfg pos fields

/-- The entity at a position. Without one, it is loaded from saved data or, if asked for, made as
the block gets it by itself. An entity that is out of the chunk to be ticked is neither returned
nor replaced. -/
def getEntity (s : Site α τ) (cfg : Config α τ) (pos : BlockPos) (mode : CreationMode) :
    Option (BlockEntity α) × Site α τ :=
  if (s.chunk.lentAt? pos).isSome then (none, s)
  else
    match s.chunk.entityAt? pos with
    | some e => (some e, s)
    | none =>
      let (loaded, s) := (s.evictRemoved pos).loadPending cfg pos
      if loaded then (s.chunk.entities.find? pos, s)
      else if mode = .immediate then s.createEntity cfg pos
      else (none, s)

/-- Tell the entity at a position, which may be out of the chunk to be ticked, that its block has
a new state. The outcome tells whether there is an entity. -/
def updateEntityState (s : Site α τ) (cfg : Config α τ) (pos : BlockPos) (state : BlockState) :
    Bool × Site α τ :=
  if (s.chunk.lentAt? pos).isSome then
    let c := s.chunk.modifyLent pos fun lent => { lent with cachedState := state }
    (true, Site.updateTicker { s with chunk := c } cfg pos)
  else
    match s.getEntity cfg pos .check with
    | (none, s) => (false, s)
    | (some _, s) =>
      let c := s.chunk.modifyEntity pos fun e => { e with cachedState := state }
      (true, Site.updateTicker { s with chunk := c } cfg pos)

/-! ### Leaving and entering the world -/

/-- Mark all entities removed and take away their listeners and all tickers. The entities stay so
that they can still be saved. -/
def discardEntities (s : Site α τ) : Site α τ :=
  let c := s.chunk
  let positions := c.entities.keys ++ (c.lent.map LentEntity.pos).toList
  let c := { c with
    entities := c.entities.mapValues fun _ e => e.discard
    lent := c.lent.map fun lent => { lent with removed := true } }
  let c := positions.foldl Chunk.removeListener c
  let tickers := c.tickers.values.foldl (fun tickers handle => (tickers.remove handle).2)
    s.level.tickers
  { chunk := { c with tickers := {} }, level := { s.level with tickers } }

/-- Add the listeners and tickers of all entities that are not removed. -/
def updateEntities (s : Site α τ) (cfg : Config α τ) : Site α τ :=
  let positions := (s.chunk.entities.entries.filter fun e => !e.2.removed).map Prod.fst
  positions.foldl (fun s pos => (s.updateListener cfg pos).updateTicker cfg pos) s

end Site

end VoxelChunk
