import VoxelChunk.Proofs.Chunk.Entities
import VoxelChunk.Proofs.Ticker

/-!
# The tickers of a chunk

A chunk keeps the names of the tickers that it has registered in its level, by the positions of
their block entities. Each name stands for an active ticker of that position, so no two positions
share a ticker, and what is registered or removed for one position leaves the others alone.

## Main definitions

* `Site.tickerAt?` — the ticker registered for a position.
* `Site.Wired` — each name stands for an active ticker of its position.
* `Site.Reticked` — only the ticker of one position has changed.

## Main results

* `Site.removeTicker_spec`, `Site.registerTicker_spec`, `Site.updateTicker_spec`.
-/

namespace VoxelChunk

variable {α τ : Type}

namespace Site

/-- The ticker registered for a position. -/
def tickerAt? (s : Site α τ) (pos : BlockPos) : Option (ActiveTicker τ) :=
  (s.chunk.tickers.find? pos).bind s.level.tickers.get?

/-- Each name that the chunk keeps stands for an active ticker of its position. -/
structure Wired (s : Site α τ) : Prop where
  sound : s.level.tickers.Sound
  named : ∀ pos name, s.chunk.tickers.find? pos = some name →
    ∃ ticker, s.level.tickers.get? name = some ticker ∧ ticker.pos = pos

/-- The site with other names and tickers. -/
def withTickers (s : Site α τ) (names : Keyed BlockPos TickerHandle) (tickers : Tickers τ) :
    Site α τ :=
  { chunk := { s.chunk with tickers := names }, level := { s.level with tickers } }

/-- Of all there is, only the ticker of one position has changed. -/
structure Reticked (s : Site α τ) (pos : BlockPos) (ticker : Option (ActiveTicker τ))
    (s' : Site α τ) : Prop where
  only : ∃ names tickers, s' = s.withTickers names tickers
  wired : s'.Wired
  tickerAt? : ∀ q, s'.tickerAt? q = if q = pos then ticker else s.tickerAt? q

variable {s : Site α τ} {pos : BlockPos} {cfg : Config α τ}

namespace Wired

/-- Different positions have different names. -/
theorem eq_of_name_eq (h : s.Wired) {p q : BlockPos} {name : TickerHandle}
    (hp : s.chunk.tickers.find? p = some name) (hq : s.chunk.tickers.find? q = some name) :
    p = q := by
  obtain ⟨ticker, hticker, rfl⟩ := h.named p name hp
  obtain ⟨ticker', hticker', rfl⟩ := h.named q name hq
  rw [hticker] at hticker'
  cases hticker'
  rfl

/-- A position has a name when it has a ticker. -/
theorem isSome_tickerAt? (h : s.Wired) (pos : BlockPos) :
    (s.tickerAt? pos).isSome = s.chunk.hasTicker pos := by
  unfold Chunk.hasTicker Keyed.contains tickerAt?
  cases hp : s.chunk.tickers.find? pos with
  | none => rfl
  | some name =>
    obtain ⟨ticker, hticker, -⟩ := h.named pos name hp
    rw [Option.bind_some, hticker]
    rfl

/-- Names and tickers may change as long as those of the other positions stay. -/
theorem reticked (h : s.Wired) {names : Keyed BlockPos TickerHandle} {tickers : Tickers τ}
    {ticker : Option (ActiveTicker τ)} (hsound : tickers.Sound)
    (hself : (names.find? pos).map tickers.get? = ticker.map some)
    (hpos : ∀ t, ticker = some t → t.pos = pos)
    (hnames : ∀ q, q ≠ pos → names.find? q = s.chunk.tickers.find? q)
    (hkept : ∀ q name, q ≠ pos → s.chunk.tickers.find? q = some name →
      tickers.get? name = s.level.tickers.get? name) :
    s.Reticked pos ticker (s.withTickers names tickers) where
  only := ⟨names, tickers, rfl⟩
  wired := by
    refine ⟨hsound, fun q name hq => ?_⟩
    show ∃ t, tickers.get? name = some t ∧ t.pos = q
    -- the position itself by what it is given, the others by what they had
    by_cases heq : q = pos
    · have hname : names.find? pos = some name := heq ▸ hq
      rw [hname] at hself
      cases ticker with
      | none => cases hself
      | some t => exact ⟨t, Option.some.inj hself, (hpos t rfl).trans heq.symm⟩
    · have hq : s.chunk.tickers.find? q = some name := (hnames q heq).symm.trans hq
      rw [hkept q name heq hq]
      exact h.named q name hq
  tickerAt? := by
    intro q
    show (names.find? q).bind tickers.get? =
      if q = pos then ticker else (s.chunk.tickers.find? q).bind s.level.tickers.get?
    by_cases heq : q = pos
    · rw [if_pos heq, heq]
      cases hname : names.find? pos with
      | none =>
        rw [hname] at hself
        cases ticker with
        | none => rfl
        | some t => cases hself
      | some name =>
        rw [hname] at hself
        cases ticker with
        | none => cases hself
        | some t => exact Option.some.inj hself
    · rw [if_neg heq, hnames q heq]
      cases hq : s.chunk.tickers.find? q with
      | none => rfl
      | some name => exact hkept q name heq hq

end Wired

/-! ### Tickers that come and go -/

theorem find?_removeTicker (s : Site α τ) (pos other : BlockPos) :
    (s.removeTicker pos).chunk.tickers.find? other =
      if other = pos then none else s.chunk.tickers.find? other := by
  unfold removeTicker
  cases hown : s.chunk.tickers.find? pos with
  | none =>
    show s.chunk.tickers.find? other = _
    split
    · next heq => rw [heq, hown]
    · rfl
  | some name => exact Keyed.find?_erase _ pos other

theorem get?_removeTicker (s : Site α τ) (pos : BlockPos) (name : TickerHandle) :
    (s.removeTicker pos).level.tickers.get? name =
      if s.chunk.tickers.find? pos = some name then none else s.level.tickers.get? name := by
  unfold removeTicker
  cases s.chunk.tickers.find? pos with
  | none => rfl
  | some own =>
    refine (Tickers.get?_remove _ own name).trans (if_congr ?_ rfl rfl)
    rw [Option.some.injEq, eq_comm]

/-- **Removing a ticker removes no other.** -/
theorem removeTicker_spec (h : s.Wired) : s.Reticked pos none (s.removeTicker pos) := by
  unfold removeTicker
  cases hname : s.chunk.tickers.find? pos with
  | none => exact h.reticked h.sound (by rw [hname]; rfl) nofun (fun _ _ => rfl) fun _ _ _ _ => rfl
  | some name =>
    refine h.reticked (h.sound.remove name) ?_ nofun (fun q hne => ?_) fun q other hne hq => ?_
    · rw [Keyed.find?_erase, if_pos rfl]
      rfl
    · rw [Keyed.find?_erase, if_neg hne]
    · rw [Tickers.get?_remove, if_neg]
      rintro rfl
      exact hne (h.eq_of_name_eq hq hname)

/-- **Registering a ticker changes no other**, whether it gets a new name or takes the place of the
one there was. -/
theorem registerTicker_spec (h : s.Wired) {ticker : ActiveTicker τ} (hpos : ticker.pos = pos) :
    s.Reticked pos (some ticker) (s.registerTicker pos ticker) := by
  have hpos' : ∀ t, some ticker = some t → t.pos = pos := by
    rintro t ⟨⟩
    exact hpos
  unfold registerTicker
  cases hname : s.chunk.tickers.find? pos with
  | none =>
    show s.Reticked pos (some ticker) (s.withTickers
      (s.chunk.tickers.insert pos (s.level.tickers.register ticker).1)
      (s.level.tickers.register ticker).2)
    refine h.reticked (h.sound.register ticker) ?_ hpos' (fun q hne => ?_) fun q other hne hq => ?_
    · rw [Keyed.find?_insert, if_pos rfl, Option.map_some, Tickers.get?_register h.sound,
        if_pos rfl]
      rfl
    · rw [Keyed.find?_insert, if_neg hne]
    · rw [Tickers.get?_register h.sound, if_neg]
      -- the new name stood for nothing
      rintro rfl
      obtain ⟨old, hold, -⟩ := h.named q _ hq
      rw [Tickers.get?_fst_register h.sound] at hold
      cases hold
  | some name =>
    obtain ⟨old, hold, -⟩ := h.named pos name hname
    have hget := Tickers.get?_replace hold ticker
    have hsound := h.sound.replace name ticker
    rw [Tickers.replace_of_some hold] at hget hsound
    rw [Option.bind_some, Tickers.replace_of_some hold]
    refine h.reticked hsound ?_ hpos' (fun _ _ => rfl) fun q other hne hq => ?_
    · rw [hname, Option.map_some, hget, if_pos rfl]
      rfl
    · rw [hget, if_neg]
      rintro rfl
      exact hne (h.eq_of_name_eq hq hname)

/-- The ticker that the entity at a position and the state of its block ask for. -/
def wantedTicker? (s : Site α τ) (cfg : Config α τ) (pos : BlockPos) : Option (ActiveTicker τ) :=
  (tickedAt? s.chunk pos).bind fun (type, state, serial) =>
    (cfg.registry.tickerFor s.level.isClient state type).map fun action =>
      { pos, serial, type, action }

/-- **Each position gets the ticker that is asked for there.** -/
theorem updateTicker_spec (h : s.Wired) :
    s.Reticked pos (s.wantedTicker? cfg pos) (s.updateTicker cfg pos) := by
  unfold updateTicker wantedTicker?
  cases tickedAt? s.chunk pos with
  | none => exact removeTicker_spec h
  | some ticked =>
    obtain ⟨type, state, serial⟩ := ticked
    simp only [Option.bind_some]
    cases cfg.registry.tickerFor s.level.isClient state type with
    | none => exact removeTicker_spec h
    | some action => exact registerTicker_spec h rfl

end Site

end VoxelChunk
