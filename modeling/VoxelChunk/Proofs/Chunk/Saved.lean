import VoxelChunk.Proofs.Chunk.Edits
import VoxelChunk.Proofs.Chunk.Lookup
import VoxelChunk.Proofs.Grid

/-!
# Block entities are saved and come back

What is saved for a block entity tells its type and its position, and whatever of its data the
factory writes. A chunk that is given the saved data keeps it until somebody asks for the entity,
and then installs an entity that is the same in all that was saved.

## Main definitions

* `EntityFactory.Restores` — what is written of an entity can be read.
* `Chunk.Waits` — saved data waits for somebody to ask for the entity at a position.
* `SiteEdit.Avoids` — an operation does not concern a position.

## Main results

* `savedPos_saved`, `Config.standsFor_saved` — saved data tells where its entity is, and stands for
  it.
* `Site.waits_edits` — saved data waits as long as nobody asks for it.
* `Site.saveEntity_returns` — **what has been saved comes back.**
-/

namespace VoxelChunk

variable {α τ : Type}

/-! ### What is saved -/

/-- The fields that tell what an entity is, where, and whether it has been installed. -/
def identityFields : List String := ["id", "x", "y", "z", "keepPacked"]

/-- The fields that are saved for an installed entity. -/
def EntityFactory.saveInstalled (factory : EntityFactory α) (e : BlockEntity α) : Compound :=
  (factory.save e).insert "keepPacked" (.byte 0)

/-- What is written of an entity can be read where its block has the given state. -/
structure EntityFactory.Restores (factory : EntityFactory α) (e : BlockEntity α)
    (state : BlockState) : Prop where
  /-- The data is written to other fields. -/
  leaves : ∀ fields name, name ∈ identityFields →
    (factory.writeData e fields).find? name = fields.find? name
  /-- What is written depends on the type, the position and the data. -/
  writes : ∀ (e' : BlockEntity α) fields, e'.type = e.type → e'.pos = e.pos → e'.data = e.data →
    factory.writeData e' fields = factory.writeData e fields
  /-- An entity of the type may stand there, and reads the data that was saved. -/
  reads : ∃ made, factory.instantiate e.type.id e.pos state = some made ∧ made.type = e.type ∧
    made.pos = e.pos ∧ made.cachedState = state ∧
    factory.readData made (factory.saveInstalled e).walk = .ok e.data

theorem find?_writeIdentity (e : BlockEntity α) (name : String) :
    (e.writeIdentity []).find? name =
      if name = "z" then some (.int (Int32.ofInt e.pos.z))
      else if name = "y" then some (.int (Int32.ofInt e.pos.y))
      else if name = "x" then some (.int (Int32.ofInt e.pos.x))
      else if name = "id" then some (.string e.type.id) else none := by
  unfold BlockEntity.writeIdentity
  simp only [Compound.find?_insert]
  rfl

namespace EntityFactory.Restores

variable {factory : EntityFactory α} {e : BlockEntity α} {state : BlockState}

/-- The identity of an entity is found in what is saved for it. -/
theorem find?_saveInstalled (h : factory.Restores e state) {name : String}
    (hname : name ∈ ["id", "x", "y", "z"]) :
    (factory.saveInstalled e).find? name = (e.writeIdentity []).find? name := by
  have hne : name ≠ "keepPacked" := by
    rintro rfl
    revert hname
    decide
  have hidentity : name ∈ identityFields := List.mem_append_left ["keepPacked"] hname
  exact (Compound.find?_insert ..).trans ((if_neg hne).trans (h.leaves _ name hidentity))

/-- An entity that is the same in type, position and data is saved in the same way. -/
theorem saveInstalled_eq (h : factory.Restores e state) {e' : BlockEntity α}
    (htype : e'.type = e.type) (hpos : e'.pos = e.pos) (hdata : e'.data = e.data) :
    factory.saveInstalled e' = factory.saveInstalled e := by
  unfold saveInstalled save BlockEntity.writeIdentity
  rw [htype, hpos, h.writes e' _ htype hpos hdata]

/-- **Saved data tells where its entity is.** -/
theorem savedPos_saveInstalled (h : factory.Restores e state) (hrange : e.pos.InRange) :
    savedPos (factory.saveInstalled e) = .ok e.pos := by
  have hint : ∀ (name : String) (n : Int), name ∈ ["id", "x", "y", "z"] →
      (e.writeIdentity []).find? name = some (.int (Int32.ofInt n)) →
      (factory.saveInstalled e).walk.getInt name = .ok (Int32.ofInt n) := by
    intro name n hname hfound
    have hsaved : (factory.saveInstalled e).findInt? name = some (Int32.ofInt n) := by
      unfold Compound.findInt?
      rw [h.find?_saveInstalled hname, hfound]
      rfl
    exact CompoundAt.getInt_eq_ok_iff.2 hsaved
  have hx := hint "x" e.pos.x (by decide) (find?_writeIdentity e "x")
  have hy := hint "y" e.pos.y (by decide) (find?_writeIdentity e "y")
  have hz := hint "z" e.pos.z (by decide) (find?_writeIdentity e "z")
  unfold savedPos
  rw [hx, hy, hz]
  show Except.ok (BlockPos.mk _ _ _) = _
  rw [Int32.toInt_ofInt_of_le hrange.x.1 hrange.x.2, Int32.toInt_ofInt_of_le hrange.y.1 hrange.y.2,
    Int32.toInt_ofInt_of_le hrange.z.1 hrange.z.2]

end EntityFactory.Restores

/-! ### Saved data waits -/

/-- Saved data waits for somebody to ask for the entity at a position. -/
structure Chunk.Waits (c : Chunk α) (pos : BlockPos) (fields : Compound) : Prop where
  pending : c.pending.find? pos = some fields
  vacant : c.entityAt? pos = none
  home : c.lentAt? pos = none

/-- The operation does not concern the entity at a position. -/
def SiteEdit.Avoids (pos : BlockPos) : SiteEdit α → Prop
  | .setBlock q _ _ => q ≠ pos
  | .getEntity q _ _ => q ≠ pos
  | .addEntity e => e.pos ≠ pos
  | .removeEntity q => q ≠ pos
  | .addPending fields => savedPos fields ≠ .ok pos
  | .settle _ => False

namespace Site

variable {cfg : Config α τ} {s t u : Site α τ} {pos q : BlockPos} {fields : Compound}

/-- What a chunk has for a position, installed, saved or out to be ticked, is as it was. -/
structure KeepsAt (s : Site α τ) (pos : BlockPos) (t : Site α τ) : Prop where
  same : s.SameAt pos t
  pending : t.chunk.pending.find? pos = s.chunk.pending.find? pos

theorem KeepsAt.refl (s : Site α τ) (pos : BlockPos) : s.KeepsAt pos s := ⟨⟨rfl, rfl⟩, rfl⟩

theorem KeepsAt.trans (h : s.KeepsAt pos t) (h' : t.KeepsAt pos u) : s.KeepsAt pos u :=
  ⟨⟨h'.same.1.trans h.same.1, h'.same.2.trans h.same.2⟩, h'.pending.trans h.pending⟩

theorem KeepsAt.waits (h : s.KeepsAt pos t) (hs : s.chunk.Waits pos fields) :
    t.chunk.Waits pos fields where
  pending := h.pending.trans hs.pending
  vacant := by
    have hvacant := hs.vacant
    unfold Chunk.entityAt? at hvacant ⊢
    rwa [h.same.1]
  home := h.same.2.trans hs.home

theorem keepsAt_of_holdings (h : t.holdings = s.holdings) (pos : BlockPos) : s.KeepsAt pos t where
  same := (Touched.of_holdings (P := fun _ => False) h).elsewhere pos id
  pending := by
    rw [show t.chunk.pending = s.chunk.pending from congrArg (fun held => held.2.2.1) h]

theorem Elsewhere.keepsAt {sources : List BlockPos} (h : s.Elsewhere q sources t) (hq : pos ≠ q) :
    s.KeepsAt pos t :=
  ⟨⟨h.entity pos hq, h.lentAt?_eq pos⟩, h.pending pos hq⟩

theorem Touched.keepsAt {P : BlockPos → Prop} (h : s.Touched P t) (hpos : ¬P pos)
    (hpending : t.chunk.pending = s.chunk.pending) : s.KeepsAt pos t :=
  ⟨h.elsewhere pos hpos, by rw [hpending]⟩

theorem keepsAt_removeTicker (s : Site α τ) (pos q : BlockPos) :
    s.KeepsAt pos (s.removeTicker q) := by
  obtain ⟨names, tickers, heq⟩ := removeTicker_eq s q
  rw [heq]
  exact ⟨⟨rfl, rfl⟩, rfl⟩

theorem keepsAt_updateTicker (s : Site α τ) (cfg : Config α τ) (pos q : BlockPos) :
    s.KeepsAt pos (s.updateTicker cfg q) := by
  obtain ⟨names, tickers, heq⟩ := updateTicker_eq s cfg q
  rw [heq]
  exact ⟨⟨rfl, rfl⟩, rfl⟩

theorem keepsAt_modifyLent (s : Site α τ) (hq : pos ≠ q) {f : LentEntity → LentEntity}
    (hf : ∀ lent, ((f lent).pos, (f lent).type, (f lent).serial) =
      (lent.pos, lent.type, lent.serial)) :
    s.KeepsAt pos { s with chunk := s.chunk.modifyLent q f } := by
  refine (touched_modifyLent s q hf).keepsAt hq ?_
  unfold Chunk.modifyLent
  split <;> rfl

theorem keepsAt_addEntity {e : BlockEntity α} (s : Site α τ) (cfg : Config α τ)
    (he : pos ≠ e.pos) : s.KeepsAt pos (s.addEntity cfg e) := by
  have hdiscarded : s.KeepsAt pos (s.discardLent e.pos) := keepsAt_modifyLent s he fun _ => rfl
  have hhome := lentAt?_discardLent s e.pos
  have hground : (s.discardLent e.pos).ground = s.ground := ground_modifyLent s e.pos _
  have hsame : (s.discardLent e.pos).addEntity cfg e = s.addEntity cfg e := by
    rw [addEntity_eq_ite, addEntity_eq_ite, discardLent_of_none hhome, canTick_eq hground]
  rw [← hsame]
  exact hdiscarded.trans ((elsewhere_addEntity hhome cfg).keepsAt he)

theorem keepsAt_removeEntity (s : Site α τ) (hq : pos ≠ q) :
    s.KeepsAt pos (s.removeEntity q).2 := by
  have htaken : s.KeepsAt pos (s.takeEntity q).2 := by
    refine (touched_takeEntity s q).keepsAt hq ?_
    unfold takeEntity
    split
    · rfl
    · split
      · unfold Chunk.modifyLent
        split <;> rfl
      · rfl
  have hleft : s.KeepsAt pos (if s.canTick then s.takeEntity q else (false, s)).2 := by
    split
    · exact htaken
    · exact .refl s pos
  have hunheard : ∀ t : Site α τ, t.KeepsAt pos { t with chunk := t.chunk.removeListener q } :=
    fun t => ⟨⟨rfl, rfl⟩, rfl⟩
  exact (hleft.trans (hunheard _)).trans (keepsAt_removeTicker _ pos q)

theorem keepsAt_getEntity (hmakes : cfg.MakesOnly (· = q)) (s : Site α τ) (hq : pos ≠ q)
    (mode : CreationMode) : s.KeepsAt pos (s.getEntity cfg q mode).2 := by
  obtain ⟨hlent, hfound, hsupplied, -⟩ := getEntity_outcome hmakes s mode
  cases hout : s.chunk.lentAt? q with
  | some lent =>
    rw [hlent lent hout]
    exact .refl s pos
  | none =>
    cases he : s.chunk.entityAt? q with
    | some e =>
      rw [hfound hout e he]
      exact .refl s pos
    | none => exact (hsupplied hout he).2.elsewhere.keepsAt hq

theorem keepsAt_updateEntityState (hmakes : cfg.MakesOnly (· = q)) (s : Site α τ) (hq : pos ≠ q)
    (state : BlockState) : s.KeepsAt pos (s.updateEntityState cfg q state).2 := by
  have hget := keepsAt_getEntity hmakes s hq .check
  have hlent := keepsAt_modifyLent s hq (f := fun lent => { lent with cachedState := state })
    fun _ => rfl
  unfold updateEntityState
  split
  · exact hlent.trans (keepsAt_updateTicker _ cfg pos q)
  · split
    · next heq => rwa [heq] at hget
    · next found t heq =>
      rw [heq] at hget
      have htold : t.KeepsAt pos { t with chunk := t.chunk.modifyEntity q fun e =>
          { e with cachedState := state } } :=
        (touched_modifyEntity t q _).keepsAt hq rfl
      exact (hget.trans htold).trans (keepsAt_updateTicker _ cfg pos q)

theorem keepsAt_attachEntity (hmakes : cfg.MakesOnly (· = q)) (s : Site α τ) (hq : pos ≠ q)
    (state : BlockState) : s.KeepsAt pos (s.attachEntity cfg q state) := by
  have htold := keepsAt_updateEntityState hmakes s hq state
  unfold attachEntity
  split
  · simp only
    split
    · exact htold
    · split
      · next e he =>
        have hpos : e.pos = q := hmakes.create q _ e rfl he
        exact htold.trans (keepsAt_addEntity _ cfg (hpos ▸ hq))
      · exact htold
  · exact .refl s pos

/-- A write to another block leaves alone what there is for a position. -/
theorem keepsAt_setBlock (hdefault : cfg.DefaultReactions) (hmakes : cfg.MakesOnly (· = q))
    (s : Site α τ) (hq : pos ≠ q) (state : BlockState) (flags : SetFlags) :
    s.KeepsAt pos (s.setBlock cfg q state flags).2 := by
  have hstored : ∀ {t : Site α τ}, t.belongings = s.belongings → s.KeepsAt pos t :=
    fun h => keepsAt_of_holdings (holdings_eq h) pos
  have hwritten := written_setBlock hdefault s q state flags
  generalize s.setBlock cfg q state flags = out at hwritten ⊢
  cases hwritten with
  | kept h => exact hstored h
  | lost h => exact (hstored h).trans (keepsAt_removeEntity _ hq)
  | @changed t r u old h hr hu =>
    have hleft : s.KeepsAt pos r := by
      rw [hr]
      split
      · exact (hstored h).trans (keepsAt_removeEntity _ hq)
      · exact hstored h
    exact (hleft.trans (keepsAt_attachEntity hmakes r hq state)).trans
      (keepsAt_of_holdings (holdings_eq hu) pos)

/-- An operation that does not concern a position leaves alone what there is for it. -/
theorem keepsAt_edit (hdefault : cfg.DefaultReactions) (hmakes : ∀ q, cfg.MakesOnly (· = q))
    (s : Site α τ) {edit : SiteEdit α} (havoids : edit.Avoids pos) :
    s.KeepsAt pos (s.edit cfg edit) := by
  cases edit with
  | setBlock q state flags => exact keepsAt_setBlock hdefault (hmakes q) s (Ne.symm havoids) _ _
  | getEntity q mode change =>
    refine edit_getEntity_keeps (keepsAt_getEntity (hmakes q) s (Ne.symm havoids) mode) ?_
    intro t h
    exact h.trans ((touched_modifyEntity t q change).keepsAt (Ne.symm havoids) rfl)
  | addEntity e => exact keepsAt_addEntity s cfg (Ne.symm havoids)
  | removeEntity q => exact keepsAt_removeEntity s (Ne.symm havoids)
  | addPending fields =>
    rw [edit_addPending]
    have hother : savedPos fields ≠ .ok pos := havoids
    split
    · next q hpos =>
      have hq : pos ≠ q := fun heq => hother (heq ▸ hpos)
      exact ⟨⟨rfl, rfl⟩, (Keyed.find?_insert _ q _ pos).trans (if_neg hq)⟩
    · exact .refl s pos
  | settle view => exact havoids.elim

/-- **Saved data waits as long as nobody asks for it.** -/
theorem waits_edits (hdefault : cfg.DefaultReactions) (hmakes : ∀ q, cfg.MakesOnly (· = q))
    {edits : List (SiteEdit α)} (havoids : ∀ edit ∈ edits, edit.Avoids pos)
    (h : s.chunk.Waits pos fields) : (s.edits cfg edits).chunk.Waits pos fields := by
  induction edits generalizing s with
  | nil => exact h
  | cons edit edits ih =>
    obtain ⟨hfirst, hrest⟩ := List.forall_mem_cons.1 havoids
    exact ih hrest ((keepsAt_edit hdefault hmakes s hfirst).waits h)

/-! ### Saved data comes back -/

/-- Saved data changes no block. -/
theorem blockAt_addPending (s : Site α τ) (cfg : Config α τ) (fields : Compound) (pos : BlockPos) :
    (s.edit cfg (.addPending fields)).chunk.blockAt cfg pos = s.chunk.blockAt cfg pos := by
  rw [edit_addPending]
  split <;> rfl

section Returns

variable {e : BlockEntity α} {state : BlockState}

/-- **Saved data stands for the entity for which it was saved**, where the block has a state in
which it may stand there. -/
theorem supplied?_saved (h : cfg.factory.Restores e state) (hid : e.type.id ≠ dummyId)
    (hpending : s.chunk.pending.find? e.pos = some (cfg.factory.saveInstalled e))
    (hstate : s.chunk.blockAt cfg e.pos = .ok state) (mode : CreationMode) :
    ∃ made, s.supplied? cfg e.pos mode = some made ∧ made.type = e.type ∧ made.pos = e.pos ∧
      made.cachedState = state ∧ made.data = e.data := by
  obtain ⟨made, hmade, htype, hpos, hcached, hread⟩ := h.reads
  have hblock : (s.blockAt cfg e.pos).1 = state := by
    unfold blockAt
    rw [hstate]
    rfl
  have hfound : (cfg.factory.saveInstalled e).findString? "id" = some e.type.id := by
    unfold Compound.findString?
    rw [h.find?_saveInstalled List.mem_cons_self, find?_writeIdentity]
    rfl
  refine ⟨{ made with data := e.data }, supplied?_eq_some_iff.2 (.inl ⟨_, hpending, ?_⟩), htype,
    hpos, hcached, rfl⟩
  rw [hblock]
  exact .typed hfound hid hmade hread

theorem saveEntity_of_entity {c : Chunk α} {e : BlockEntity α} (he : c.entityAt? pos = some e)
    (factory : EntityFactory α) :
    c.saveEntity factory pos = some (factory.saveInstalled e) := by
  unfold Chunk.saveEntity
  rw [he]
  rfl

/-- **What has been saved comes back.** The data that is saved for an installed entity is accepted
by any chunk that has no entity for the position. There it waits, and is saved again but for the
mark of data that has not been used, as long as nobody asks for the entity. Whoever does, while the
block has the state for which the data was meant, gets an entity that is the same in type, position
and data, is told the state of the block, and is saved as before. -/
theorem saveEntity_returns {c : Chunk α} (he : c.entityAt? e.pos = some e)
    (hrange : e.pos.InRange) (hid : e.type.id ≠ dummyId)
    (hrestores : cfg.factory.Restores e state) :
    ∃ saved, c.saveEntity cfg.factory e.pos = some saved ∧
      ∀ t : Site α τ, t.chunk.entityAt? e.pos = none → t.chunk.lentAt? e.pos = none →
        t.chunk.addPending saved =
            .ok { t.chunk with pending := t.chunk.pending.insert e.pos saved } ∧
        (t.edit cfg (.addPending saved)).chunk.blockAt cfg e.pos = t.chunk.blockAt cfg e.pos ∧
        (∀ edits, (edits = [] ∨ cfg.DefaultReactions ∧ ∀ q, cfg.MakesOnly (· = q)) →
          (∀ edit ∈ edits, edit.Avoids e.pos) →
          ((t.edit cfg (.addPending saved)).edits cfg edits).chunk.Waits e.pos saved) ∧
        ∀ u : Site α τ, u.chunk.Waits e.pos saved →
          u.chunk.saveEntity cfg.factory e.pos = some (saved.insert "keepPacked" (.byte 1)) ∧
          (u.chunk.blockAt cfg e.pos = .ok state → ∀ mode, ∃ e',
            (u.getEntity cfg e.pos mode).1 = some e' ∧
            (u.getEntity cfg e.pos mode).2.chunk.entityAt? e.pos = some e' ∧
            (e'.type = e.type ∧ e'.pos = e.pos ∧ e'.data = e.data ∧ e'.cachedState = state) ∧
            (u.getEntity cfg e.pos mode).2.chunk.pending.find? e.pos = none ∧
            (u.getEntity cfg e.pos mode).2.chunk.saveEntity cfg.factory e.pos = some saved) := by
  refine ⟨_, saveEntity_of_entity he cfg.factory, fun t hvacant hhome => ?_⟩
  have hpos := hrestores.savedPos_saveInstalled hrange
  refine ⟨?_, blockAt_addPending .., fun edits hruns havoids => ?_, fun u hwaits => ⟨?_, fun hstate mode => ?_⟩⟩
  · unfold Chunk.addPending
    rw [hpos]
    rfl
  · have hwaits : (t.edit cfg (.addPending (cfg.factory.saveInstalled e))).chunk.Waits e.pos
        (cfg.factory.saveInstalled e) := by
      rw [edit_addPending, hpos]
      exact ⟨(Keyed.find?_insert ..).trans (if_pos rfl), hvacant, hhome⟩
    rcases hruns with rfl | ⟨hdefault, hmakes⟩
    · exact hwaits
    · exact waits_edits hdefault hmakes havoids hwaits
  · unfold Chunk.saveEntity
    rw [hwaits.vacant, hwaits.pending]
    rfl
  · obtain ⟨made, hsupplied, htype, hplace, hcached, hdata⟩ :=
      supplied?_saved hrestores hid hwaits.pending hstate mode
    have hhere : ∀ e', u.supplied? cfg e.pos mode = some e' → e'.pos = e.pos := by
      intro e' he'
      rw [hsupplied] at he'
      exact Option.some.inj he' ▸ hplace
    obtain ⟨hreturned, hsup⟩ := supplied_getEntity hwaits.home hwaits.vacant hhere
    rw [hsupplied] at hreturned hsup
    have hat : (u.getEntity cfg e.pos mode).2.chunk.entityAt? e.pos = some (u.installed made) :=
      Chunk.entityAt?_eq_some_iff.2 ⟨hsup.entity, rfl⟩
    refine ⟨u.installed made, hreturned, hat, ⟨htype, hplace, hdata, hcached⟩, hsup.pending, ?_⟩
    rw [saveEntity_of_entity hat]
    exact congrArg some (hrestores.saveInstalled_eq htype hplace hdata)

end Returns

end Site

/-! ### Chests that are moved -/

/-- A chest with a number of things in it can be saved and read again where its block is no air. -/
theorem countingChests_restores {e : BlockEntity Nat} (htype : e.type = ⟨"chest"⟩)
    (hdata : e.data < 2147483648) (state : BlockState) :
    countingChests.factory.Restores e state where
  leaves := by
    intro fields name hname
    have hne : name ≠ "Count" := by
      rintro rfl
      revert hname
      decide
    exact (Compound.find?_insert ..).trans (if_neg hne)
  writes := by
    intro e' fields _ _ hsame
    show Compound.insert fields "Count" _ = Compound.insert fields "Count" _
    rw [hsame]
  reads := by
    refine ⟨_, rfl, htype.symm, rfl, rfl, ?_⟩
    have hcount : (countingChests.factory.saveInstalled e).findInt? "Count" =
        some (Int32.ofNat e.data) := by
      have hfound : (countingChests.factory.saveInstalled e).find? "Count" =
          some (.int (Int32.ofNat e.data)) :=
        (Compound.find?_insert ..).trans ((if_neg (by decide)).trans
          ((Compound.find?_insert ..).trans (if_pos rfl)))
      unfold Compound.findInt?
      rw [hfound]
      rfl
    have hget := CompoundAt.getInt_eq_ok_iff
      (c := (countingChests.factory.saveInstalled e).walk).2 hcount
    show Except.map _ ((countingChests.factory.saveInstalled e).walk.getInt "Count") = _
    rw [hget]
    show Except.ok (Int32.ofNat e.data).toInt.toNat = Except.ok e.data
    rw [Int32.toInt_ofNat_of_lt hdata, Int.toNat_natCast]

/-- The chest with seven things in the world of chests that count. -/
def sevenChest : BlockEntity Nat where
  type := ⟨"chest"⟩
  pos := ⟨3, 5, 4⟩
  cachedState := ⟨1⟩
  hasWorld := true
  data := 7

/-- The chest is saved in one chunk, and has its seven things in another one. -/
theorem sevenChest_returns :
    let s := newCounts.edits countingChests sevenThings
    let t := newCounts.edits countingChests
      [.setBlock ⟨3, 5, 4⟩ ⟨1⟩ {}, .removeEntity ⟨3, 5, 4⟩]
    s.chunk.entityAt? sevenChest.pos = some sevenChest ∧ sevenChest.pos.InRange ∧
      sevenChest.type.id ≠ dummyId ∧ countingChests.factory.Restores sevenChest ⟨1⟩ ∧
      t.chunk.entityAt? sevenChest.pos = none ∧ t.chunk.lentAt? sevenChest.pos = none ∧
      ∃ saved, s.chunk.saveEntity countingChests.factory sevenChest.pos = some saved ∧
        ∃ e', ((t.edit countingChests (.addPending saved)).getEntity countingChests
          sevenChest.pos .check).1 = some e' ∧ e'.data = 7 := by
  intro s t
  have he : s.chunk.entityAt? sevenChest.pos = some sevenChest := by decide +kernel
  have hrange : sevenChest.pos.InRange := ⟨by decide, by decide, by decide⟩
  have hid : sevenChest.type.id ≠ dummyId := by decide
  have hrestores := countingChests_restores (e := sevenChest) rfl (by decide) ⟨1⟩
  have hvacant : t.chunk.entityAt? sevenChest.pos = none := by decide +kernel
  have hhome : t.chunk.lentAt? sevenChest.pos = none := by decide +kernel
  obtain ⟨saved, hsaved, hreturns⟩ := Site.saveEntity_returns he hrange hid hrestores
  obtain ⟨-, hsame, hwaits, hfound⟩ := hreturns t hvacant hhome
  have hblock : (t.edit countingChests (.addPending saved)).chunk.blockAt countingChests
      sevenChest.pos = .ok ⟨1⟩ := by
    rw [hsame]
    decide +kernel
  obtain ⟨-, hasked⟩ := hfound _ (hwaits [] (.inl rfl) (by simp))
  obtain ⟨e', hreturned, -, ⟨-, -, hdata, -⟩, -⟩ := hasked hblock .check
  exact ⟨he, hrange, hid, hrestores, hvacant, hhome, saved, hsaved, e', hreturned, hdata⟩

end VoxelChunk
