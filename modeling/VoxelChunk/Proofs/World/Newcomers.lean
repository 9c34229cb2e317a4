import Mathlib.Data.Nat.Init
import VoxelChunk.Proofs.Chunk.Edits
import VoxelChunk.Proofs.Chunk.Lasting
import VoxelChunk.Proofs.World.Passes

/-!
# Tickers that come during a pass

A ticker that is registered while another one is called gets a vacant slot or, if there is none, a
new one. The pass still comes to the slots ahead. So a newcomer is ticked in the same pass unless
it has got a vacant slot that the pass has left behind; then it is not ticked before the next pass.

## Main definitions

* `Tickers.Grows` — tickers come into vacant and new slots only.
* `World.Arrives` — a ticker is registered during a pass and is not disturbed.

## Main results

* `World.grows_edit` — whatever an operation does, tickers come into vacant and new slots only.
* `World.Arrives.ready_amid` — a newcomer stays ready until its slot is visited.
* `World.newcomers_ticked` — which newcomers are ticked in the same pass.
-/

namespace VoxelChunk

variable {α τ σ : Type}

/-! ### Slots that are taken -/

namespace Tickers

variable {t t' t'' : Tickers τ}

theorem activeAt?_setState (t : Tickers τ) (index : Nat) (state : SlotState τ) (other : Nat) :
    (t.setState index state).activeAt? other =
      if other = index then t.slots[index]?.bind fun _ => state.ticker? else t.activeAt? other := by
  unfold activeAt?
  rw [getElem?_setState]
  split
  · cases t.slots[index]? <;> rfl
  · rfl

/-- What is changed in a slot does not matter for the others. -/
theorem activeAt?_modifyAt_of_ne (f : ActiveTicker τ → ActiveTicker τ) {index other : Nat}
    (hne : other ≠ index) : (t.modifyAt index f).activeAt? other = t.activeAt? other := by
  unfold modifyAt
  split
  · rw [activeAt?_setState, if_neg hne]
  · rfl

/-- Slots are added, and tickers come into slots that were vacant, or into new ones. -/
structure Grows (t t' : Tickers τ) : Prop where
  slotCount : t.slotCount ≤ t'.slotCount
  free : ∀ index ∈ t'.free, index ∈ t.free
  taken : ∀ index < t.slotCount, (t'.activeAt? index).isSome →
    (t.activeAt? index).isSome ∨ index ∈ t.free

namespace Grows

theorem refl (t : Tickers τ) : t.Grows t := ⟨Nat.le_refl _, fun _ h => h, fun _ _ => Or.inl⟩

theorem trans (h : t.Grows t') (h' : t'.Grows t'') : t.Grows t'' where
  slotCount := Nat.le_trans h.slotCount h'.slotCount
  free := fun index hfree => h.free index (h'.free index hfree)
  taken := by
    intro index hlt hactive
    rcases h'.taken index (Nat.lt_of_lt_of_le hlt h.slotCount) hactive with hmid | hmid
    · exact h.taken index hlt hmid
    · exact Or.inr (h.free index hmid)

/-- One slot has changed, and maybe it is vacant no more. -/
theorem of_setState {index : Nat} {state : SlotState τ}
    (hslots : t'.slots = (t.setState index state).slots) (hfree : ∀ i ∈ t'.free, i ∈ t.free)
    (h : state.ticker?.isSome → (t.activeAt? index).isSome ∨ index ∈ t.free) : t.Grows t' where
  slotCount := Nat.le_of_eq (by
    rw [Tickers.slotCount, Tickers.slotCount, hslots, setState, Array.size_modify])
  free := hfree
  taken := by
    intro other _ hactive
    have hactive : ((t.setState index state).activeAt? other).isSome := by
      unfold activeAt? at hactive ⊢
      rwa [← hslots]
    rw [activeAt?_setState] at hactive
    split at hactive
    · next heq =>
      rw [heq]
      cases hslot : t.slots[index]? with
      | none =>
        rw [hslot] at hactive
        cases hactive
      | some slot =>
        rw [hslot] at hactive
        exact h hactive
    · exact Or.inl hactive

theorem of_get? {handle : TickerHandle} {old : ActiveTicker τ} {state : SlotState τ}
    (hslots : t'.slots = (t.setState handle.index state).slots) (hfree : t'.free = t.free)
    (hget : t.get? handle = some old) : t.Grows t' := by
  refine of_setState hslots (fun _ hi => hfree ▸ hi) fun _ => Or.inl ?_
  rw [activeAt?_eq_some_iff.2 ⟨handle.generation, hget⟩]
  rfl

theorem register (t : Tickers τ) (ticker : ActiveTicker τ) : t.Grows (t.register ticker).2 := by
  unfold Tickers.register
  cases hfree : t.free with
  | cons index free =>
    refine of_setState rfl (fun i hi => ?_) fun _ => Or.inr ?_
    · rw [hfree]
      exact List.mem_cons_of_mem index hi
    · rw [hfree]
      exact List.mem_cons_self
  | nil =>
    refine ⟨?_, fun i hi => hfree ▸ hi, fun index hlt hactive => Or.inl ?_⟩
    · show t.slots.size ≤ (t.slots.push _).size
      rw [Array.size_push]
      exact Nat.le_succ _
    · have hne : index ≠ t.slots.size := Nat.ne_of_lt hlt
      unfold activeAt? at hactive ⊢
      rwa [Array.getElem?_push, if_neg hne] at hactive

theorem replace (t : Tickers τ) (handle : TickerHandle) (ticker : ActiveTicker τ) :
    t.Grows (t.replace handle ticker).2 := by
  cases hget : t.get? handle with
  | none =>
    rw [replace_of_none hget]
    exact refl t
  | some old =>
    rw [replace_of_some hget]
    exact of_get? rfl rfl hget

theorem remove (t : Tickers τ) (handle : TickerHandle) : t.Grows (t.remove handle).2 := by
  unfold Tickers.remove
  cases hget : t.get? handle with
  | none => exact refl t
  | some old => exact of_get? rfl rfl hget

theorem foldl_remove (handles : List TickerHandle) (t : Tickers τ) :
    t.Grows (handles.foldl (fun t handle => (t.remove handle).2) t) := by
  induction handles generalizing t with
  | nil => exact refl t
  | cons handle handles ih => exact (remove t handle).trans (ih _)

end Grows

end Tickers

/-! ### Chunks and worlds -/

namespace Site

variable {cfg : Config α τ} {s s' : Site α τ}

theorem grows_removeTicker (s : Site α τ) (pos : BlockPos) :
    s.level.tickers.Grows (s.removeTicker pos).level.tickers := by
  unfold removeTicker
  split
  · exact .refl _
  · exact .remove _ _

theorem grows_updateTicker (s : Site α τ) (cfg : Config α τ) (pos : BlockPos) :
    s.level.tickers.Grows (s.updateTicker cfg pos).level.tickers := by
  unfold updateTicker
  split
  · exact grows_removeTicker s pos
  · next type state serial _ =>
    split
    · exact grows_removeTicker s pos
    · next action _ =>
      unfold registerTicker
      simp only
      split
      · next tickers hreplaced =>
        obtain ⟨handle, -, hreplaced⟩ := Option.bind_eq_some_iff.1 hreplaced
        have hgrows :=
          Tickers.Grows.replace s.level.tickers handle ⟨pos, serial, type, action, false⟩
        split at hreplaced
        · next heq =>
          cases hreplaced
          rwa [heq] at hgrows
        · cases hreplaced
      · exact .register _ _

/-- The ticker of a position is all that has changed since its entity has. -/
theorem Touched.grows_updateTicker {P : BlockPos → Prop} {t : Site α τ} (h : s.Touched P t)
    (pos : BlockPos) : s.level.tickers.Grows (t.updateTicker cfg pos).level.tickers :=
  h.slots ▸ Site.grows_updateTicker t cfg pos

theorem Touched.grows_removeTicker {P : BlockPos → Prop} {t : Site α τ} (h : s.Touched P t)
    (pos : BlockPos) : s.level.tickers.Grows (t.removeTicker pos).level.tickers :=
  h.slots ▸ Site.grows_removeTicker t pos

/-- Steps of block entities bring tickers into vacant and new slots only. -/
theorem EntityStep.grows {P Q : BlockPos → Prop} (h : EntityStep cfg P Q s s') :
    s.level.tickers.Grows s'.level.tickers := by
  cases h with
  | aside pending notices _ => exact .refl _
  | add e _ =>
    have hinstalled := (touched_discardLent s e.pos).trans (touched_withEntity _ e)
    have hheard : s.Touched (· = e.pos) (Site.updateListener _ cfg e.pos) :=
      hinstalled.trans (touched_updateListener _ e.pos)
    rw [addEntity_eq_ite]
    split
    · exact hheard.grows_updateTicker e.pos
    · exact hinstalled.slots ▸ .refl _
  | remove pos _ =>
    have htaken : s.Touched (· = pos) (if s.canTick then s.takeEntity pos else (false, s)).2 := by
      split
      · exact touched_takeEntity s pos
      · exact .refl s
    exact (htaken.trans (touched_removeListener _ pos)).grows_removeTicker pos
  | evict pos _ =>
    unfold evictRemoved
    split
    · exact .refl _
    · split
      · have htaken : s.Touched (· = pos) { s with chunk := { s.chunk with
            entities := s.chunk.entities.swapErase pos } } :=
          touched_entities fun q hq => (Keyed.find?_swapErase ..).trans (if_neg hq)
        exact (htaken.trans (touched_removeListener _ pos)).grows_removeTicker pos
      · exact .refl _
  | tellLent pos state _ =>
    have htold := touched_modifyLent s pos (f := fun lent => { lent with cachedState := state })
      fun _ => rfl
    exact htold.grows_updateTicker pos
  | tell pos state _ => exact (touched_modifyEntity s pos _).grows_updateTicker pos

/-- Writes bring tickers into vacant and new slots only. -/
theorem lasting_grows (cfg : Config α τ) (t : Tickers τ) :
    Lasting cfg fun s => t.Grows s.level.tickers where
  store := by
    intro s index pos state _ hs
    obtain ⟨sections, heightmaps, events, notices, heq⟩ := storeBlock_frame s cfg index pos state
    rw [heq]
    exact hs
  entity := fun hstep hs => hs.trans hstep.grows
  announce := fun _ _ _ _ hs => hs

theorem grows_getEntity (s : Site α τ) (cfg : Config α τ) (pos : BlockPos) (mode : CreationMode) :
    s.level.tickers.Grows (s.getEntity cfg pos mode).2.level.tickers :=
  (lasting_grows cfg _).entities (.refl _) (steps_getEntity (cfg.makes_true _) s trivial mode)

theorem grows_settleAll (s : Site α τ) (cfg : Config α τ)
    (view : BlockPos → Except Fault BlockState) :
    s.level.tickers.Grows (s.settleAll cfg view).level.tickers := by
  have hslots : ∀ {u v : Site α τ}, v.belongings = u.belongings →
      v.level.tickers = u.level.tickers := by
    intro u v heq
    have hsame : u.Touched (fun _ => True) v := .of_holdings (holdings_eq heq)
    exact hsame.slots
  exact settleAll_keeps (I := fun u => s.level.tickers.Grows u.level.tickers)
    (fun hs heq => hslots heq ▸ hs)
    (fun flags hs _ => (lasting_grows cfg _).setBlock hs _ _ flags)
    (fun pos hs => hs.trans (grows_getEntity _ cfg pos .check)) (fun hs => hs) view (.refl _)
    (settlesWhere_true cfg view s)

theorem grows_updateEntities (s : Site α τ) (cfg : Config α τ) :
    s.level.tickers.Grows (s.updateEntities cfg).level.tickers := by
  unfold updateEntities
  simp only
  generalize (s.chunk.entities.entries.filter fun e => !e.2.removed).map Prod.fst = positions
  induction positions generalizing s with
  | nil => exact .refl _
  | cons pos positions ih =>
    have hheard : s.Touched (· = pos) (s.updateListener cfg pos) := touched_updateListener s pos
    exact (hheard.grows_updateTicker pos).trans (ih _)

end Site

namespace World

variable {cfg : Config α τ} {run : TickerRunner α τ σ} {w w' : World α τ σ}
  {visits index k n : Nat} {ticker : ActiveTicker τ} {c : Chunk α} {e : BlockEntity α}
  {i : Invocation α τ}

theorem grows_atChunk {β : Type} (w : World α τ σ) (column : ChunkPos) (missing : β)
    {f : Site α τ → β × Site α τ}
    (hf : ∀ s : Site α τ, s.level.tickers.Grows (f s).2.level.tickers) :
    w.level.tickers.Grows (w.atChunk column missing f).2.level.tickers := by
  cases hs : w.site? column with
  | none =>
    rw [atChunk_of_none hs]
    exact .refl _
  | some s =>
    rw [atChunk_of_site hs, ← (site?_eq_some_iff.1 hs).2]
    exact hf s

theorem grows_removeChunk (w : World α τ σ) (column : ChunkPos) :
    w.level.tickers.Grows (w.removeChunk column).2.level.tickers := by
  unfold removeChunk
  cases hs : w.site? column with
  | none => exact .refl _
  | some s =>
    obtain ⟨dispatchers, heq⟩ := Site.discardEntities_eq s
    simp only [heq, ← (site?_eq_some_iff.1 hs).2]
    exact .foldl_remove _ _

/-- **Whatever an operation does, tickers come into vacant and new slots only.** -/
theorem grows_edit (w : World α τ σ) (cfg : Config α τ) (e : WorldEdit α) :
    w.level.tickers.Grows (w.edit cfg e).level.tickers := by
  cases e with
  | insertChunk c =>
    exact (grows_removeChunk w c.pos).trans (Site.grows_updateEntities
      ⟨{ c.load.2 with loaded := true }, (w.removeChunk c.pos).2.level⟩ cfg)
  | removeChunk column => exact grows_removeChunk w column
  | setBlock pos state flags =>
    exact grows_atChunk w _ none fun s =>
      (Site.lasting_grows cfg _).setBlock (.refl _) pos state flags
  | getEntity pos mode change =>
    have hget : w.level.tickers.Grows (w.getEntity cfg pos mode).2.level.tickers :=
      grows_atChunk w _ none fun s => Site.grows_getEntity s cfg pos mode
    unfold edit
    simp only
    split
    · next heq =>
      rw [heq] at hget
      exact hget.trans (grows_atChunk _ _ () fun (s : Site α τ) => .refl s.level.tickers)
    · next heq => rwa [heq] at hget
  | addEntity entity =>
    unfold edit addEntity
    simp only
    split
    · exact .refl _
    · next s hs =>
      have hstep : Site.EntityStep cfg (fun _ => True) (fun _ => True) s (s.addEntity cfg entity) :=
        .add entity trivial
      rw [← (site?_eq_some_iff.1 hs).2]
      exact hstep.grows
  | removeEntity pos =>
    refine grows_atChunk w _ false fun s => ?_
    have hstep : Site.EntityStep cfg (fun _ => True) (fun _ => True) s (s.removeEntity pos).2 :=
      .remove pos trivial
    exact hstep.grows
  | settleChunk column => exact grows_atChunk w _ false fun s => Site.grows_settleAll s cfg _

theorem grows_edits (w : World α τ σ) (cfg : Config α τ) (es : List (WorldEdit α)) :
    w.level.tickers.Grows (w.edits cfg es).level.tickers := by
  induction es generalizing w with
  | nil => exact .refl _
  | cons e es ih => exact (grows_edit w cfg e).trans (ih _)

/-! ### A visit to another slot -/

/-- The ticker in a slot is not changed when another slot is visited. -/
theorem activeAt?_invocation? (w : World α τ σ) (cfg : Config α τ) (hne : k ≠ index) :
    (w.invocation? cfg index).2.level.tickers.activeAt? k = w.level.tickers.activeAt? k := by
  unfold invocation?
  cases w.level.tickers.activeAt? index with
  | none => rfl
  | some ticker =>
    simp only
    cases hs : w.site? (.ofBlock ticker.pos) with
    | none => rfl
    | some s =>
      have hread : (s.blockAt cfg ticker.pos).2.level.tickers = w.level.tickers := by
        obtain ⟨c, -, rfl⟩ := Option.map_eq_some_iff.1 hs
        unfold Site.blockAt
        cases c.blockAt cfg ticker.pos <;> rfl
      simp only
      split
      · split
        · split
          · simp only [Tickers.activeAt?_modifyAt_of_ne _ hne, hread]
          · simp only [Tickers.activeAt?_modifyAt_of_ne _ hne, hread]
        · unfold warnInvalid
          split
          · simp only [hread]
          · simp only [Level.note, Tickers.activeAt?_modifyAt_of_ne _ hne, hread]
      · rfl

/-- A visit that calls no ticker leaves a ticker in another slot ready. -/
theorem Ready.handed (h : (w.amid cfg run n).Ready cfg k ticker c e)
    (hcall : w.call? cfg run n = none) (hne : k ≠ n) :
    ∃ c' e', (w.handed cfg run n).Ready cfg k ticker c' e' := by
  have hsame : Undisturbed cfg ticker.pos ticker.serial (w.amid cfg run n) (w.handed cfg run n) :=
    undisturbed_invocation? _ cfg n fun i hi => nomatch hcall.symm.trans hi
  exact h.of_footing ((activeAt?_invocation? _ cfg hne).trans h.active) rfl hsame.isClient
    hsame.footing

/-- An entity that comes back leaves a ticker ready. -/
theorem Ready.returned (h : w.Ready cfg k ticker c e) (pos : BlockPos) (back : BlockEntity α) :
    ∃ c' e', (w.returnEntity pos back).Ready cfg k ticker c' e' := by
  have hsame : Undisturbed cfg ticker.pos ticker.serial w (w.returnEntity pos back) :=
    undisturbed_returnEntity h.footing?_eq rfl pos back
  refine h.of_footing ?_ rfl hsame.isClient hsame.footing
  rw [level_returnEntity]
  exact h.active

/-! ### Newcomers -/

/-- While a ticker is called in a pass, another one is registered in slot `k`, where none was
active. All is ready for it then, and also whenever one more ticker has been called before its slot
is visited. -/
structure Arrives (cfg : Config α τ) (run : TickerRunner α τ σ) (w : World α τ σ)
    (visits index : Nat) (i : Invocation α τ) (k : Nat) (ticker : ActiveTicker τ) : Prop where
  call : w.call? cfg run index = some i
  before : (w.handed cfg run index).level.tickers.activeAt? k = none
  ready : ∃ c e, (w.acted cfg run index i).1.Ready cfg k ticker c e
  stays : ∀ j, index < j → j < visits → j < k → ∀ i', w.call? cfg run j = some i' →
    ∃ c e, (w.acted cfg run j i').1.Ready cfg k ticker c e

/-- **A newcomer stays ready until its slot is visited.** -/
theorem Arrives.ready_amid (h : w.Arrives cfg run visits index i k ticker) (hn : index < n)
    (hk : n ≤ k) (hvisits : n ≤ visits) : ∃ c e, (w.amid cfg run n).Ready cfg k ticker c e := by
  induction n, hn using Nat.le_induction with
  | base =>
    rw [amid_succ_of_some h.call]
    obtain ⟨c, e, hready⟩ := h.ready
    exact hready.returned i.pos _
  | succ n hn ih =>
    cases hcall : w.call? cfg run n with
    | none =>
      rw [amid_succ_of_none hcall]
      obtain ⟨c, e, hready⟩ := ih (by omega) (by omega)
      exact hready.handed hcall (by omega)
    | some i' =>
      rw [amid_succ_of_some hcall]
      obtain ⟨c, e, hready⟩ := h.stays n hn hvisits hk i' hcall
      exact hready.returned i'.pos _

/-- A newcomer ahead is ticked in the same pass. -/
theorem Arrives.ticked (h : w.Arrives cfg run visits index i k ticker)
    (hpasses : w.Passes cfg run visits) (hindex : index < visits) (hahead : index < k) :
    k < visits ∧ ∃ i', w.call? cfg run k = some i' ∧ i'.action = ticker.action ∧
      i'.pos = ticker.pos ∧ i'.entity.serial = ticker.serial := by
  have hk : k < visits := by
    by_contra hle
    -- the pass does not end before the slot of an active ticker
    obtain ⟨c, e, hready⟩ := h.ready_amid hindex (Nat.le_of_not_lt hle) (Nat.le_refl visits)
    exact hle (Nat.lt_of_lt_of_le (Tickers.lt_slotCount_of_activeAt? hready.active) hpasses.ended)
  obtain ⟨c, e, hready⟩ := h.ready_amid hahead (Nat.le_refl k) (Nat.le_of_lt hk)
  exact ⟨hk, ⟨ticker.action, ticker.pos, _, e⟩,
    invocation?_eq_some_iff.2 ⟨ticker, c, hready, rfl, rfl, rfl⟩, rfl, rfl, hready.serial⟩

/-- A newcomer that is not ahead has got a vacant slot, if tickers change the world by operations
only. -/
theorem Arrives.mem_free (h : w.Arrives cfg run visits index i k ticker)
    (hrun : run.Acts cfg (fun _ => True) fun _ _ => True) (hbehind : k ≤ index) :
    k ∈ (w.handed cfg run index).level.tickers.free := by
  have hgrows : (w.handed cfg run index).level.tickers.Grows
      (w.acted cfg run index i).1.level.tickers := by
    obtain ⟨es, owner, -, hworld, -⟩ :=
      hrun i.action (w.handed cfg run index) i.pos i.state i.entity
    rw [acted, hworld]
    exact grows_edits _ cfg es
  -- the slot of the call is there, so slot `k` is not a new one
  have hslot : index < (w.handed cfg run index).level.tickers.slotCount := by
    obtain ⟨caller, c, hcaller, -⟩ := invocation?_eq_some_iff.1 h.call
    have hmem : (index, caller.type) ∈
        (w.amid cfg run index).level.tickers.slotsOf caller.pos caller.serial :=
      Tickers.mem_slotsOf.2 ⟨caller, hcaller.active, rfl, rfl, rfl⟩
    rw [← (sameTickers_invocation? _ cfg index).slotsOf_eq] at hmem
    obtain ⟨caller', hactive, -⟩ := Tickers.mem_slotsOf.1 hmem
    exact Tickers.lt_slotCount_of_activeAt? hactive
  obtain ⟨c, e, hready⟩ := h.ready
  have hactive : ((w.acted cfg run index i).1.level.tickers.activeAt? k).isSome := by
    rw [hready.active]
    rfl
  rcases hgrows.taken k (by omega) hactive with hbefore | hfree
  · rw [h.before] at hbefore
    cases hbefore
  · exact hfree

/-- **Which newcomers are ticked in the same pass.** A ticker that is registered while the one in
slot `index` is called, and is not disturbed then, is called in the same pass if its slot is ahead.
When tickers change the world by operations only, that is so unless it has got a vacant slot that
the pass has left behind. Such a newcomer, as long as it is the only ticker of its entity, is not
called in this pass. -/
theorem newcomers_ticked {fuel : Nat} (h : w.tickEntities cfg run fuel = some w') :
    ∃ visits ≤ fuel, w.Passes cfg run visits ∧ w' = (w.amid cfg run visits).reapTickers ∧
      ∀ index < visits, ∀ i k ticker, w.Arrives cfg run visits index i k ticker →
        (index < k → k < visits ∧ ∃ i', w.call? cfg run k = some i' ∧ i'.action = ticker.action ∧
          i'.pos = ticker.pos ∧ i'.entity.serial = ticker.serial) ∧
        (run.Acts cfg (fun _ => True) (fun _ _ => True) →
          index < k ∨ k ∈ (w.handed cfg run index).level.tickers.free) ∧
        (k ≤ index → ∀ j, index < j → (w.amid cfg run j).level.tickers.slotsOf ticker.pos
            ticker.serial = [(k, ticker.type)] →
          ∀ i', w.call? cfg run j = some i' → i'.pos = ticker.pos →
            i'.entity.serial ≠ ticker.serial) := by
  obtain ⟨visits, hfuel, hpasses, heq⟩ := tickEntities_eq_some_iff.1 h
  refine ⟨visits, hfuel, hpasses, heq, fun index hindex i k ticker harrives =>
    ⟨harrives.ticked hpasses hindex, fun hrun => ?_,
      fun hbehind j hj honly i' hcall hpos hserial => ?_⟩⟩
  · rcases Nat.lt_or_ge index k with hahead | hbehind
    · exact Or.inl hahead
    · exact Or.inr (harrives.mem_free hrun hbehind)
  · obtain ⟨ticker', c, hready, -, hpos', -⟩ := invocation?_eq_some_iff.1 hcall
    rw [← hpos, ← hserial, hpos', hready.serial] at honly
    have hslot := hready.index_eq honly
    omega

/-- All is ready for a ticker exactly if a visit to its slot calls one. -/
theorem exists_ready_iff : (∃ c e, w.Ready cfg k ticker c e) ↔
    (w.invocation? cfg k).1.isSome ∧ w.level.tickers.activeAt? k = some ticker := by
  constructor
  · rintro ⟨c, e, hready⟩
    have hcall : (w.invocation? cfg k).1 = some ⟨ticker.action, ticker.pos, _, e⟩ :=
      invocation?_eq_some_iff.2 ⟨ticker, c, hready, rfl, rfl, rfl⟩
    exact ⟨hcall ▸ rfl, hready.active⟩
  · rintro ⟨hsome, hactive⟩
    obtain ⟨i, hi⟩ := Option.isSome_iff_exists.1 hsome
    obtain ⟨ticker', c, hready, -⟩ := invocation?_eq_some_iff.1 hi
    cases hready.active.symm.trans hactive
    exact ⟨c, i.entity, hready⟩

end World

/-! ### A chest that comes -/

/-- When it is ticked, a chest puts another one at a certain place. -/
def plantChest : TickerRunner Unit Unit Unit := fun _ w _ _ e =>
  (w.edits chestWorld [.setBlock ⟨7, 5, 4⟩ ⟨1⟩ {}], e)

/-- The third chest comes when the first one is ticked, gets a slot behind the second one's, and is
ticked in the same pass. -/
theorem third_chest_ticked : ∃ w' i, twoChests.tickEntities chestWorld plantChest 5 = some w' ∧
    twoChests.call? chestWorld plantChest 0 = some i ∧ i.pos ≠ ⟨7, 5, 4⟩ ∧
    ∃ i', twoChests.call? chestWorld plantChest 2 = some i' ∧ i'.pos = ⟨7, 5, 4⟩ := by
  obtain ⟨w', hw'⟩ := Option.isSome_iff_exists.1
    (show (twoChests.tickEntities chestWorld plantChest 5).isSome by decide +kernel)
  obtain ⟨i, hi⟩ := Option.isSome_iff_exists.1
    (show (twoChests.call? chestWorld plantChest 0).isSome by decide +kernel)
  have hcalls : ∀ index < 2, ((twoChests.call? chestWorld plantChest index).all fun i =>
      decide (i.pos ≠ ⟨7, 5, 4⟩ ∧
        (twoChests.handed chestWorld plantChest 0).level.tickers.activeAt? 2 = none ∧
        ((twoChests.acted chestWorld plantChest index i).1.invocation? chestWorld 2).1.isSome ∧
        (twoChests.acted chestWorld plantChest index i).1.level.tickers.activeAt? 2 =
          some ⟨⟨7, 5, 4⟩, 2, ⟨"chest"⟩, (), false⟩)) = true := by
    decide +kernel
  have hcalled := fun index hlt i hcall =>
    of_decide_eq_true ((Option.all_eq_true _ _).1 (hcalls index hlt) i hcall)
  obtain ⟨hpos, hbefore, hsome, hactive⟩ := hcalled 0 (by decide) i hi
  obtain ⟨visits, -, hpasses, -, hticked⟩ := World.newcomers_ticked hw'
  have harrives : twoChests.Arrives chestWorld plantChest visits 0 i 2
      ⟨⟨7, 5, 4⟩, 2, ⟨"chest"⟩, (), false⟩ := by
    refine ⟨hi, hbefore, World.exists_ready_iff.2 ⟨hsome, hactive⟩, fun j _ _ hj i' hcall => ?_⟩
    exact World.exists_ready_iff.2 (hcalled j hj i' hcall).2.2
  have hvisits : 0 < visits := by
    by_contra hle
    have hended := hpasses.ended
    rw [Nat.eq_zero_of_not_pos hle] at hended
    exact absurd hended (by decide +kernel)
  obtain ⟨-, i', hcall, -, hpos', -⟩ := (hticked 0 hvisits i 2 _ harrives).1 (by decide)
  exact ⟨w', i, hw', hi, hpos, i', hcall, hpos'⟩

/-- Two chests, of which the first has been taken away, so that its slot is vacant. -/
def lastOfTwoChests : World Unit Unit Unit :=
  (twoChests.edit chestWorld (.setBlock ⟨3, 5, 4⟩ .air {})).reapTickers

/-- A chest that gets this slot while the second one is ticked has to wait for the next pass. -/
example : (lastOfTwoChests.tickEntities chestWorld plantChest 5).isSome ∧
    ((lastOfTwoChests.call? chestWorld plantChest 1).any fun i => decide
      ((lastOfTwoChests.acted chestWorld plantChest 1 i).1.invocation? chestWorld 0).1.isSome) ∧
    ∀ index < 5, ((lastOfTwoChests.call? chestWorld plantChest index).all fun i =>
      decide (i.pos ≠ ⟨7, 5, 4⟩)) := by
  decide +kernel

end VoxelChunk
