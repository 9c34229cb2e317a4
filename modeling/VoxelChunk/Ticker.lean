import VoxelChunk.Grid.Position

/-!
# Tickers of block entities

The tickers of a world stand in slots that are never taken away, so that they can be visited by
index while tickers come and go. A slot whose ticker has been removed stays closed until it is
reaped; then it is free for another ticker, under a new generation. A handle names a slot and a
generation, so a handle of an older ticker never reaches a newer one.

## Main definitions

* `TickerHandle`, `ActiveTicker` — the name of a registered ticker, and what it ticks.
* `Tickers` — all slots, with the free ones and the number of active ones.
* `Tickers.register`, `Tickers.replace`, `Tickers.remove`, `Tickers.reap`, `Tickers.get?`.
-/

namespace VoxelChunk

/-- The type of a block entity. -/
structure EntityType where
  id : String
  deriving DecidableEq, Repr, Inhabited

/-- The name of a registered ticker. -/
structure TickerHandle where
  index : Nat
  generation : UInt32
  deriving DecidableEq, Repr, Inhabited

/-- The text of a handle. -/
def TickerHandle.text (h : TickerHandle) : String :=
  "TickerHandle \x7b index: " ++ toString h.index ++ ", generation: " ++ toString h.generation ++
    " \x7d"

/-- How one block entity is ticked. -/
structure ActiveTicker (τ : Type) where
  /-- The position of the block entity. -/
  pos : BlockPos
  /-- The serial that the block entity got when it was installed. -/
  serial : UInt32
  type : EntityType
  /-- What is done, in the terms of the user of the library. -/
  action : τ
  /-- That the block's state does not allow ticking has been reported. -/
  warned : Bool := false
  deriving DecidableEq, Repr

/-- What stands in a slot. -/
inductive SlotState (τ : Type) where
  | active (ticker : ActiveTicker τ)
  /-- The ticker has been removed and the slot is not reaped yet. -/
  | removed
  /-- The slot can be used again. -/
  | vacant
  deriving DecidableEq, Repr, Inhabited

/-- The ticker in a slot. -/
def SlotState.ticker? {τ : Type} : SlotState τ → Option (ActiveTicker τ)
  | active ticker => some ticker
  | _ => none

/-- A slot. -/
structure TickerSlot (τ : Type) where
  /-- How often the slot has been reaped. -/
  generation : UInt32
  state : SlotState τ
  deriving DecidableEq, Repr, Inhabited

/-- The tickers of a world. -/
structure Tickers (τ : Type) where
  slots : Array (TickerSlot τ) := #[]
  /-- The indices of the vacant slots, the one to be used next in front. -/
  free : List Nat := []
  /-- The number of active tickers. -/
  activeCount : Nat := 0
  deriving Inhabited

namespace Tickers

variable {τ : Type}

/-- The number of slots. -/
def slotCount (t : Tickers τ) : Nat := t.slots.size

/-- The number of active tickers. -/
def size (t : Tickers τ) : Nat := t.activeCount

/-- No ticker is active. -/
def isEmpty (t : Tickers τ) : Bool := t.activeCount == 0

/-- The ticker in a slot, whatever the generation. -/
def activeAt? (t : Tickers τ) (index : Nat) : Option (ActiveTicker τ) :=
  t.slots[index]?.bind fun slot => slot.state.ticker?

/-- The active ticker with the given name. -/
def get? (t : Tickers τ) (h : TickerHandle) : Option (ActiveTicker τ) :=
  t.slots[h.index]?.bind fun slot =>
    if slot.generation = h.generation then slot.state.ticker? else none

/-- Put something else in a slot. -/
def setState (t : Tickers τ) (index : Nat) (state : SlotState τ) : Tickers τ :=
  { t with slots := t.slots.modify index fun slot => { slot with state } }

/-- Register a ticker in the free slot to be used next, or in a new slot if none is free. -/
def register (t : Tickers τ) (ticker : ActiveTicker τ) : TickerHandle × Tickers τ :=
  match t.free with
  | index :: free =>
    (⟨index, (t.slots[index]?.map TickerSlot.generation).getD 0⟩,
      { t.setState index (.active ticker) with free, activeCount := t.activeCount + 1 })
  | [] =>
    (⟨t.slots.size, 0⟩,
      { t with
        slots := t.slots.push ⟨0, .active ticker⟩
        activeCount := t.activeCount + 1 })

/-- Put another ticker in the place of an active one. The outcome tells whether the name is that
of an active ticker. -/
def replace (t : Tickers τ) (h : TickerHandle) (ticker : ActiveTicker τ) : Bool × Tickers τ :=
  match t.get? h with
  | some _ => (true, t.setState h.index (.active ticker))
  | none => (false, t)

/-- Remove an active ticker. The outcome tells whether the name is that of an active ticker. -/
def remove (t : Tickers τ) (h : TickerHandle) : Bool × Tickers τ :=
  match t.get? h with
  | some _ => (true, { t.setState h.index .removed with activeCount := t.activeCount - 1 })
  | none => (false, t)

/-- Change the ticker in a slot, if there is one. -/
def modifyAt (t : Tickers τ) (index : Nat) (f : ActiveTicker τ → ActiveTicker τ) : Tickers τ :=
  match t.activeAt? index with
  | some ticker => t.setState index (.active (f ticker))
  | none => t

/-- Free the slot with the given index if its ticker has been removed. -/
def reapAt (t : Tickers τ) (index : Nat) : Tickers τ :=
  match t.slots[index]? with
  | some ⟨generation, .removed⟩ =>
    { t with
      slots := t.slots.modify index fun _ => ⟨generation + 1, .vacant⟩
      free := index :: t.free }
  | _ => t

/-- Free all slots whose tickers have been removed, in the order of their indices. The outcome is
how many there were. -/
def reap (t : Tickers τ) : Nat × Tickers τ :=
  let reaped := (List.range t.slots.size).foldl reapAt t
  (reaped.free.length - t.free.length, reaped)

end Tickers

end VoxelChunk
