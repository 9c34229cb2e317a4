import VoxelChunk.Proofs.Chunk.Lending
import VoxelChunk.Proofs.World.Owners

/-!
# Block entities that are ticked come back

While a block entity is out of its chunk, its ticker may do anything to the world by operations,
also at the position of the entity and with its chunk. The marks that the operations leave there
tell what becomes of the entity: it comes back with the state of its block that was written last, or
it is given up and the world is as the operations have left it.

## Main definitions

* `World.marks` — what operations did at a position.
* `World.Fate` — what becomes of an entity of the world, as the marks tell.
* `World.installed?` — the entity that is installed at a position of the chunk at a column.

## Main results

* `World.Fate.edit`, `World.Fate.edits` — one operation, and operations one after another.
* `World.returned_or_given_up` — an entity that is ticked comes back, or is given up.
* `not_returned_or_given_up` — why kinds of air, far chunks and stray entities are kept out of it.
-/

namespace VoxelChunk

variable {α τ σ : Type}

/-- States that are written fit the cells, and no entity is out of a chunk that is inserted. -/
def WorldEdit.Sound (cfg : Config α τ) : WorldEdit α → Prop
  | insertChunk chunk => chunk.load.2.Forsaken
  | setBlock _ state _ => state.FitsIn cfg.globalBits
  | _ => True

namespace World

/-- The entity that is installed at a position of the chunk at a column. -/
def installed? (w : World α τ σ) (column : ChunkPos) (pos : BlockPos) : Option (BlockEntity α) :=
  (w.chunk? column).bind fun c => c.entities.find? pos

/-! ### Marks -/

/-- The marks of the queued blocks of a chunk that settle. -/
def settleMarks (cfg : Config α τ) (home : BlockPos) (w : World α τ σ) (column : ChunkPos) :
    List Mark :=
  let others : World α τ σ := { w with chunks := w.chunks.erase column }
  if column = .ofBlock home then
    (w.site? column).elim [] (Site.settleMarks home cfg (others.blockAt cfg))
  else []

/-- The marks of an operation on the position of an entity that is out of its chunk: what is done
to this chunk as a whole, and what is done at the position. Asking for entities leaves none. -/
def editMarks (cfg : Config α τ) (home : BlockPos) (w : World α τ σ) : WorldEdit α → List Mark
  | .insertChunk chunk => if chunk.pos = .ofBlock home then [.gone] else []
  | .removeChunk column => if column = .ofBlock home then [.gone] else []
  | .setBlock pos state flags => writeMarks home pos state (w.setBlock cfg pos state flags).1
  | .getEntity _ _ _ => []
  | .addEntity e => if e.pos = home then [.gone] else []
  | .removeEntity pos => if pos = home then [.gone] else []
  | .settleChunk column => w.settleMarks cfg home column

/-- The marks of operations, one after another. -/
def marks (cfg : Config α τ) (home : BlockPos) (w : World α τ σ) (es : List (WorldEdit α)) :
    List Mark :=
  marksAlong (fun w e => w.edit cfg e) (fun w e => w.editMarks cfg home e) w es

/-! ### What becomes of the entity -/

/-- What becomes of an entity that is out of its chunk after the marks. -/
structure Fate (cfg : Config α τ) (lent : LentEntity) (marks : List Mark) (w : World α τ σ) :
    Prop where
  chunk : ∀ c, w.chunk? (.ofBlock lent.pos) = some c → c.Fate cfg lent marks
  present : ¬Displaced cfg.facts marks → ∃ c, w.chunk? (.ofBlock lent.pos) = some c

variable {cfg : Config α τ} {lent : LentEntity} {marks own : List Mark} {w w' : World α τ σ}
  {column : ChunkPos} {s s' : Site α τ}

namespace Fate

theorem congr (h : w.Fate cfg lent marks)
    (hsame : w'.chunk? (.ofBlock lent.pos) = w.chunk? (.ofBlock lent.pos)) :
    w'.Fate cfg lent marks := by
  constructor
  · rw [hsame]
    exact h.chunk
  · rw [hsame]
    exact h.present

/-- Operations on other chunks do not matter. -/
theorem elsewhere (h : w.Fate cfg lent marks) (hown : own = [])
    (hsame : w'.chunk? (.ofBlock lent.pos) = w.chunk? (.ofBlock lent.pos)) :
    w'.Fate cfg lent (marks ++ own) := by
  rw [hown, List.append_nil]
  exact h.congr hsame

/-- If the chunk has left, the entity was given up with it. -/
theorem of_missing (h : w.Fate cfg lent marks) (hnone : w.chunk? (.ofBlock lent.pos) = none)
    (hsame : w'.chunk? (.ofBlock lent.pos) = w.chunk? (.ofBlock lent.pos)) (marks' : List Mark) :
    w'.Fate cfg lent (marks ++ marks') where
  chunk := by
    intro c hc
    rw [hsame, hnone] at hc
    cases hc
  present := by
    intro hd
    rw [displaced_append, not_or] at hd
    rw [hsame]
    exact h.present hd.1

/-- What is done with the chunk of the entity. -/
theorem putSite (h : w.Fate cfg lent marks) (hs : w.site? (.ofBlock lent.pos) = some s)
    (hm : Site.Moves cfg (fun _ => True) s s')
    (hstep : ∀ lent' : LentEntity, lent'.pos = lent.pos → s.chunk.Awaits cfg lent' →
      s'.chunk.Fate cfg lent' own) :
    (w.putSite (.ofBlock lent.pos) s').Fate cfg lent (marks ++ own) := by
  have hchunk : (w.putSite (.ofBlock lent.pos) s').chunk? (.ofBlock lent.pos) = some s'.chunk := by
    rw [chunk?_putSite, if_pos rfl]
  constructor
  · intro c hc
    cases hchunk.symm.trans hc
    exact (h.chunk s.chunk (site?_eq_some_iff.1 hs).1).trans hm hstep
  · intro _
    exact ⟨s'.chunk, hchunk⟩

/-- Where there is no chunk, nothing is done. -/
theorem of_site?_eq_none (h : w.Fate cfg lent marks) (hs : w.site? column = none)
    (hown : column ≠ .ofBlock lent.pos → own = [])
    (hsame : w'.chunk? (.ofBlock lent.pos) = w.chunk? (.ofBlock lent.pos)) :
    w'.Fate cfg lent (marks ++ own) := by
  by_cases hcolumn : column = .ofBlock lent.pos
  · subst hcolumn
    exact h.of_missing (Option.map_eq_none_iff.1 hs) hsame own
  · exact h.elsewhere (hown hcolumn) hsame

/-- **What is done with one chunk** matters only if it is the chunk of the entity. -/
theorem atChunk {β : Type} {missing : β} {f : Site α τ → β × Site α τ}
    (h : w.Fate cfg lent marks) (hown : column ≠ .ofBlock lent.pos → own = [])
    (hf : ∀ s, w.site? column = some s → column = .ofBlock lent.pos →
      s.chunk.loaded → Site.Moves cfg (fun _ => True) s (f s).2 ∧
        ∀ lent' : LentEntity, lent'.pos = lent.pos → s.chunk.Awaits cfg lent' →
          (f s).2.chunk.Fate cfg lent' own) :
    (w.atChunk column missing f).2.Fate cfg lent (marks ++ own) := by
  cases hs : w.site? column with
  | none =>
    rw [atChunk_of_none hs]
    exact h.of_site?_eq_none hs hown rfl
  | some s =>
    rw [atChunk_of_site hs]
    by_cases hcolumn : column = .ofBlock lent.pos
    · subst hcolumn
      have hloaded := (h.chunk s.chunk (site?_eq_some_iff.1 hs).1).loaded
      obtain ⟨hm, hstep⟩ := hf s hs rfl hloaded
      exact h.putSite hs hm hstep
    · refine h.elsewhere (hown hcolumn) ?_
      rw [chunk?_putSite, if_neg (Ne.symm hcolumn)]

/-- Changes of entities that are installed do not matter. -/
theorem modifyEntity (h : w.Fate cfg lent marks) (pos : BlockPos)
    (f : BlockEntity α → BlockEntity α) : (w.modifyEntity pos f).Fate cfg lent marks where
  chunk := by
    intro c hc
    rw [chunk?_modifyEntity] at hc
    split at hc
    · obtain ⟨c, hc', rfl⟩ := Option.map_eq_some_iff.1 hc
      refine (h.chunk c hc').update rfl rfl rfl rfl fun hnone => ?_
      refine (Keyed.find?_modify ..).trans ?_
      rw [hnone]
      split
      · rfl
      · rfl
    · exact h.chunk c hc
  present := by
    intro hd
    obtain ⟨c, hc⟩ := h.present hd
    rw [chunk?_modifyEntity, hc]
    split
    · exact ⟨_, rfl⟩
    · exact ⟨_, rfl⟩

theorem getEntity (h : w.Fate cfg lent marks) (hmakes : cfg.MakesOnly (· ≠ lent.pos))
    (pos : BlockPos) (mode : CreationMode) :
    (w.getEntity cfg pos mode).2.Fate cfg lent (marks ++ []) := by
  refine h.atChunk (fun _ => rfl) fun s _ _ _ => ⟨?_, fun lent' hpos ha => ?_⟩
  · exact (Site.steps_getEntity cfg.makesOnly_true.makes s trivial mode).moves
  · exact (ha.getEntity (hpos ▸ hmakes) pos mode).fate

theorem addEntity (h : w.Fate cfg lent marks) (e : BlockEntity α) :
    (w.addEntity cfg e).2.Fate cfg lent (marks ++ if e.pos = lent.pos then [.gone] else []) := by
  have hown : ChunkPos.ofBlock e.pos ≠ .ofBlock lent.pos →
      (if e.pos = lent.pos then [Mark.gone] else []) = [] :=
    fun hcolumn => if_neg fun hhome => hcolumn (congrArg ChunkPos.ofBlock hhome)
  unfold World.addEntity
  cases hs : w.site? (.ofBlock e.pos) with
  | none => exact h.of_site?_eq_none hs hown rfl
  | some s =>
    have hat : (w.atChunk (.ofBlock e.pos) false fun s => (true, s.addEntity cfg e)).2.Fate cfg lent
        (marks ++ if e.pos = lent.pos then [.gone] else []) := by
      refine h.atChunk hown fun s _ _ _ => ⟨.single (.entity (.add e trivial)), ?_⟩
      intro lent' hpos ha
      rw [← hpos]
      exact ha.addEntity e
    rw [atChunk_of_site hs] at hat
    exact hat

theorem removeEntity (h : w.Fate cfg lent marks) (pos : BlockPos) :
    (w.removeEntity pos).2.Fate cfg lent
      (marks ++ if pos = lent.pos then [.gone] else []) := by
  refine h.atChunk (fun hcolumn => ?_) fun s _ _ _ => ⟨?_, fun lent' hpos ha => ?_⟩
  · exact if_neg fun hhome => hcolumn (congrArg ChunkPos.ofBlock hhome)
  · exact .single (.entity (.remove pos trivial))
  · rw [← hpos]
    exact ha.removeEntity pos

theorem setBlock (h : w.Fate cfg lent marks) (hcfg : cfg.Lends)
    (hmakes : cfg.MakesOnly (· ≠ lent.pos)) (pos : BlockPos) {state : BlockState}
    (hs : state.FitsIn cfg.globalBits) (flags : SetFlags) :
    (w.setBlock cfg pos state flags).2.Fate cfg lent
      (marks ++ writeMarks lent.pos pos state (w.setBlock cfg pos state flags).1) := by
  refine h.atChunk (fun hcolumn => ?_) fun s hsite hcolumn _ => ⟨?_, fun lent' hpos ha => ?_⟩
  · exact if_neg fun hhome => hcolumn (congrArg ChunkPos.ofBlock hhome)
  · exact Site.moves_setBlock hcfg.default cfg.makesOnly_true s trivial state flags
  · have hout : (w.setBlock cfg pos state flags).1 = (s.setBlock cfg pos state flags).1 :=
      congrArg Prod.fst (atChunk_of_site hsite)
    rw [hout, ← hpos]
    exact ha.setBlock hcfg (hpos ▸ hmakes) (hcolumn.trans (congrArg ChunkPos.ofBlock hpos.symm)) hs
      flags

theorem settleChunk (h : w.Fate cfg lent marks) (hcfg : cfg.Lends)
    (hmakes : cfg.MakesOnly (· ≠ lent.pos)) (hrange : (ChunkPos.ofBlock lent.pos).InRange)
    (column : ChunkPos) :
    (w.settleChunk cfg column).2.Fate cfg lent
      (marks ++ w.settleMarks cfg lent.pos column) := by
  refine h.atChunk (fun hcolumn => if_neg hcolumn) fun s hsite hcolumn hloaded =>
    ⟨?_, fun lent' hpos ha => ?_⟩
  · exact Site.moves_settleAll hcfg.default cfg.makesOnly_true hloaded
      ⟨fun _ _ _ => trivial, fun _ _ _ => trivial⟩ (fun _ _ => trivial) _
  · unfold World.settleMarks
    rw [if_pos hcolumn, hsite, ← hpos]
    exact ha.settleAll hcfg (hpos ▸ hmakes) (hpos ▸ hrange) _

theorem removeChunk (h : w.Fate cfg lent marks) (column : ChunkPos) :
    (w.removeChunk column).2.Fate cfg lent
      (marks ++ if column = .ofBlock lent.pos then [.gone] else []) := by
  by_cases hcolumn : column = .ofBlock lent.pos
  · rw [if_pos hcolumn]
    constructor
    · intro c hc
      rw [chunk?_removeChunk, if_pos hcolumn.symm] at hc
      cases hc
    · intro hd
      exact absurd ⟨.gone, by simp, trivial⟩ hd
  · refine h.elsewhere (if_neg hcolumn) ?_
    rw [chunk?_removeChunk, if_neg (Ne.symm hcolumn)]

/-- With the chunk of the entity another one is not there for it to come back to. -/
theorem insertChunk (h : w.Fate cfg lent marks) {c : Chunk α} (hc : c.load.2.Forsaken) :
    (w.insertChunk cfg c).2.Fate cfg lent
      (marks ++ if c.pos = .ofBlock lent.pos then [.gone] else []) := by
  by_cases hcolumn : c.pos = .ofBlock lent.pos
  · rw [if_pos hcolumn]
    have hgone : Displaced cfg.facts (marks ++ [.gone]) := ⟨.gone, by simp, trivial⟩
    refine ⟨fun c' hc' => ?_, fun hd => absurd hgone hd⟩
    rw [chunk?_insertChunk, if_pos hcolumn.symm] at hc'
    cases hc'
    generalize hstart : (⟨{ c.load.2 with loaded := true }, (w.removeChunk c.pos).2.level⟩ :
      Site α τ) = start
    have hloaded : start.chunk.loaded := by
      rw [← hstart]
    have hforsaken : start.chunk.Forsaken := by
      rw [← hstart]
      exact hc
    have hm : Site.Moves cfg (fun _ => True) start (start.updateEntities cfg) :=
      Site.moves_updateEntities start ⟨fun _ _ _ => trivial, fun _ _ _ => trivial⟩
    exact ⟨hm.loaded hloaded, fun hd => absurd hgone hd, fun _ => hm.forsaken hloaded hforsaken⟩
  · refine h.elsewhere (if_neg hcolumn) ?_
    rw [chunk?_insertChunk, if_neg (Ne.symm hcolumn)]

/-- **The marks of an operation** tell what becomes of the entity. -/
theorem edit (h : w.Fate cfg lent marks) (hcfg : cfg.Lends)
    (hmakes : cfg.MakesOnly (· ≠ lent.pos)) (hrange : (ChunkPos.ofBlock lent.pos).InRange)
    (e : WorldEdit α) (he : e.Sound cfg) :
    (w.edit cfg e).Fate cfg lent (marks ++ w.editMarks cfg lent.pos e) := by
  cases e with
  | insertChunk c => exact h.insertChunk he
  | removeChunk column => exact h.removeChunk column
  | setBlock pos state flags => exact h.setBlock hcfg hmakes pos he flags
  | getEntity pos mode change =>
    have hget := h.getEntity hmakes pos mode
    unfold World.edit
    simp only
    split
    · next heq =>
      rw [heq] at hget
      exact hget.modifyEntity pos change
    · next heq => rwa [heq] at hget
  | addEntity e => exact h.addEntity e
  | removeEntity pos => exact h.removeEntity pos
  | settleChunk column => exact h.settleChunk hcfg hmakes hrange column

/-- **The marks of operations, one after another**, tell what becomes of the entity. -/
theorem edits (h : w.Fate cfg lent marks) (hcfg : cfg.Lends)
    (hmakes : cfg.MakesOnly (· ≠ lent.pos)) (hrange : (ChunkPos.ofBlock lent.pos).InRange)
    (es : List (WorldEdit α)) (hes : ∀ e ∈ es, e.Sound cfg) :
    (w.edits cfg es).Fate cfg lent (marks ++ w.marks cfg lent.pos es) := by
  induction es generalizing w marks with
  | nil =>
    unfold World.marks marksAlong
    rw [List.append_nil]
    exact h
  | cons e es ih =>
    have hfirst := h.edit hcfg hmakes hrange e (hes e List.mem_cons_self)
    unfold World.marks marksAlong
    rw [← List.append_assoc]
    exact ih hfirst fun e' he' => hes e' (List.mem_cons_of_mem e he')

end Fate

/-! ### An entity comes back -/

namespace Fate

theorem installed?_returnEntity (h : w.Fate cfg lent marks) (hd : ¬Displaced cfg.facts marks)
    (e : BlockEntity α) (column : ChunkPos) (pos : BlockPos) :
    (w.returnEntity lent.pos e).installed? column pos =
      if column = .ofBlock lent.pos ∧ pos = lent.pos then
        some { e with cachedState := lastWritten marks lent.cachedState }
      else w.installed? column pos := by
  obtain ⟨c, hc⟩ := h.present hd
  have hback := ((h.chunk c hc).awaits hd).find?_returnEntity e pos
  unfold World.returnEntity installed? chunk? at *
  rw [hc]
  simp only [Keyed.find?_insert]
  by_cases hcolumn : column = .ofBlock lent.pos
  · subst hcolumn
    simp only [if_true, true_and, hc, Option.bind_some]
    exact hback
  · rw [if_neg hcolumn, if_neg fun hboth => hcolumn hboth.1]

theorem installed?_giveUp (h : w.Fate cfg lent marks) (hd : Displaced cfg.facts marks)
    (e : BlockEntity α) (column : ChunkPos) (pos : BlockPos) :
    (w.returnEntity lent.pos e).installed? column pos = w.installed? column pos := by
  unfold World.returnEntity
  cases hc : w.chunk? (.ofBlock lent.pos) with
  | none => rfl
  | some c =>
    have hgone := ((h.chunk c hc).forsaken hd).entities_returnEntity e
    unfold installed? chunk? at *
    simp only [Keyed.find?_insert]
    split
    · next hcolumn => rw [hcolumn, hc, Option.bind_some, Option.bind_some, hgone]
    · rfl

/-- Where an entity is awaited there is none. -/
theorem installed?_eq_none (h : w.Fate cfg lent marks) (hd : ¬Displaced cfg.facts marks) :
    w.installed? (.ofBlock lent.pos) lent.pos = none := by
  obtain ⟨c, hc⟩ := h.present hd
  unfold installed?
  rw [hc]
  exact ((h.chunk c hc).awaits hd).absent

end Fate

/-! ### A visit -/

/-- The site that a visit finds for its ticker: the block may be shown as plain air. -/
theorem showsAs_blockAt (h : cfg.SoundSections s.chunk.sections) (pos : BlockPos) :
    cfg.facts.ShowsAs (s.stateOf cfg pos) (s.blockAt cfg pos).1 := by
  obtain ⟨state, hread, hshown⟩ := Chunk.blockAt_eq h pos
  unfold Site.blockAt
  rw [hread]
  exact hshown

end World

/-- The chunk is in its world at a column, and its sections are in order. -/
structure Chunk.Stands (cfg : Config α τ) (column : ChunkPos) (c : Chunk α) : Prop where
  loaded : c.loaded
  pos : c.pos = column
  sections : cfg.SoundSections c.sections

/-- An entity that is taken out to be ticked will come back. -/
theorem Chunk.Stands.awaits_lending {cfg : Config α τ} {pos : BlockPos} {c : Chunk α}
    (hc : c.Stands cfg (.ofBlock pos)) (hcfg : cfg.Lends) {level : Level τ} {type : EntityType}
    (hsupports : cfg.registry.supports type (Site.blockAt ⟨c, level⟩ cfg pos).1)
    (e : BlockEntity α) :
    (c.lending pos e).Awaits cfg ⟨pos, e.serial, e.type, e.cachedState, false⟩ where
  loaded := hc.loaded
  column := hc.pos
  sound := hc.sections.soundStates
  record := rfl
  live := rfl
  absent := (Keyed.find?_swapErase ..).trans (if_pos rfl)
  block := hcfg.hasEntity_of_shown (World.showsAs_blockAt (s := ⟨c, level⟩) hc.sections pos)
    hsupports

namespace World

variable {cfg : Config α τ} {w w₁ : World α τ σ} {index : Nat} {i : Invocation α τ}

/-- What a visit finds and what it leaves while the entity is being ticked. -/
theorem fate_invocation? (hcfg : cfg.Lends) (hlent : w.invocation? cfg index = (some i, w₁))
    (hchunk : ∀ c, w.chunk? (.ofBlock i.pos) = some c → c.Stands cfg (.ofBlock i.pos)) :
    w.installed? (.ofBlock i.pos) i.pos = some i.entity ∧
      (∀ column pos, w₁.installed? column pos =
        if column = .ofBlock i.pos ∧ pos = i.pos then none else w.installed? column pos) ∧
      w₁.Fate cfg ⟨i.pos, i.entity.serial, i.entity.type, i.entity.cachedState, false⟩ [] := by
  have hvisited := visited_invocation? w cfg index
  rw [hlent] at hvisited
  cases hvisited with
  | lent ticker c e level _ hc hsupports he _ _ =>
    have hlending : ∀ q, (w.chunks.insert (.ofBlock ticker.pos) (c.lending ticker.pos e)).find? q =
        if q = .ofBlock ticker.pos then some (c.lending ticker.pos e) else w.chunks.find? q :=
      fun q => Keyed.find?_insert ..
    have hchunk' : w.chunks.find? (.ofBlock ticker.pos) = some c := hc
    refine ⟨?_, fun column pos => ?_, fun c' hc' => ?_,
      fun _ => ⟨_, (hlending _).trans (if_pos rfl)⟩⟩
    · unfold installed?
      rw [hc]
      exact (Chunk.entityAt?_eq_some_iff.1 he).1
    · unfold installed? chunk?
      rw [hlending]
      by_cases hcolumn : column = .ofBlock ticker.pos
      · subst hcolumn
        simp only [if_true, true_and, hchunk', Option.bind_some]
        exact Keyed.find?_swapErase ..
      · rw [if_neg hcolumn, if_neg fun hboth => hcolumn hboth.1]
    · cases ((hlending _).trans (if_pos rfl)).symm.trans hc'
      exact ((hchunk c hc).awaits_lending hcfg hsupports e).fate

/-- What is installed after a visit is what is installed when the entity has been given back to the
world that its ticker left. -/
theorem installed?_visitSlot (hlent : w.invocation? cfg index = (some i, w₁))
    {run : TickerRunner α τ σ} {left : World α τ σ} {owner : σ} {e : BlockEntity α}
    (hrun : run i.action w₁ i.pos i.state i.entity = ({ left with owner }, e))
    (column : ChunkPos) (pos : BlockPos) :
    (w.visitSlot cfg run index).installed? column pos =
      (left.returnEntity i.pos e).installed? column pos := by
  unfold visitSlot
  rw [hlent]
  simp only [hrun]
  unfold returnEntity installed?
  have hchunk : ({ left with owner } : World α τ σ).chunk? (.ofBlock i.pos) =
      left.chunk? (.ofBlock i.pos) := rfl
  rw [hchunk]
  cases left.chunk? (.ofBlock i.pos) with
  | none => rfl
  | some c => rfl

/-- **An entity that is ticked is neither lost nor doubled**, whatever operations its ticker asks
for, if no entity is made at its position for another one. While it is ticked it is installed
nowhere. If no mark of the operations parts it from its position, its chunk is still there with
nothing in its place, and the entity comes back: the world is as the operations have left it but for
the entity, which has the state of its block that was written last. Otherwise it is given up, and
what is installed is what the operations have left. -/
theorem returned_or_given_up (hcfg : cfg.Lends) (hlent : w.invocation? cfg index = (some i, w₁))
    (hmakes : cfg.MakesOnly (· ≠ i.pos)) (hrange : (ChunkPos.ofBlock i.pos).InRange)
    (hchunk : ∀ c, w.chunk? (.ofBlock i.pos) = some c → c.Stands cfg (.ofBlock i.pos))
    {run : TickerRunner α τ σ} {es : List (WorldEdit α)} {owner : σ} {e : BlockEntity α}
    (hrun : run i.action w₁ i.pos i.state i.entity = ({ w₁.edits cfg es with owner }, e))
    (hes : ∀ x ∈ es, x.Sound cfg) (he : e.Continues i.entity) :
    let left := w₁.edits cfg es
    let marks := w₁.marks cfg i.pos es
    let after := w.visitSlot cfg run index
    w.installed? (.ofBlock i.pos) i.pos = some i.entity ∧
      (∀ column pos, w₁.installed? column pos =
        if column = .ofBlock i.pos ∧ pos = i.pos then none else w.installed? column pos) ∧
      (¬Displaced cfg.facts marks →
        (left.chunk? (.ofBlock i.pos)).isSome ∧ left.installed? (.ofBlock i.pos) i.pos = none ∧
          ∃ back : BlockEntity α, back.Continues i.entity ∧ back.data = e.data ∧
            back.cachedState = lastWritten marks i.entity.cachedState ∧
            ∀ column pos, after.installed? column pos =
              if column = .ofBlock i.pos ∧ pos = i.pos then some back
              else left.installed? column pos) ∧
      (Displaced cfg.facts marks →
        ∀ column pos, after.installed? column pos = left.installed? column pos) := by
  intro left marks after
  obtain ⟨hfound, hout, hfate⟩ := fate_invocation? hcfg hlent hchunk
  have hleft : left.Fate cfg ⟨i.pos, i.entity.serial, i.entity.type, i.entity.cachedState, false⟩
      marks := hfate.edits hcfg hmakes hrange es hes
  have hafter : ∀ column pos, after.installed? column pos =
      (left.returnEntity i.pos e).installed? column pos := installed?_visitSlot hlent hrun
  refine ⟨hfound, hout, fun hd => ?_, fun hd column pos => ?_⟩
  · obtain ⟨c, hc⟩ := hleft.present hd
    refine ⟨Option.isSome_iff_exists.2 ⟨c, hc⟩, hleft.installed?_eq_none hd,
      { e with cachedState := lastWritten marks i.entity.cachedState },
      ⟨he.type, he.pos, he.serial, he.removed⟩, rfl, rfl, fun column pos => ?_⟩
    exact (hafter column pos).trans (hleft.installed?_returnEntity hd e column pos)
  · exact (hafter column pos).trans (hleft.installed?_giveUp hd e column pos)

end World

/-! ### A chest that turns -/

/-- The world of chests in which all chests are of one kind, whatever their states. -/
def turningChests : Config Unit Unit where
  registry :=
    { toBlockFacts := { chestWorld.facts with
        stateCount := 4
        blockOf := fun s => if s = .air then ⟨0⟩ else ⟨1⟩ }
      toEntityFactory := { chestWorld.factory with supports := fun _ s => s != .air }
      tickerFor := fun _ _ _ => some () }
  height := default

theorem turningChests_hosts : turningChests.Hosts where
  kind := by
    intro state state' hkind
    have hair : state = .air ↔ state' = .air := by
      have hkind : (if state = .air then (⟨0⟩ : BlockId) else ⟨1⟩) =
        if state' = .air then ⟨0⟩ else ⟨1⟩ := hkind
      by_cases h : state = .air <;> by_cases h' : state' = .air <;> simp [h, h'] at hkind ⊢
    have hbeq : (state != .air) = (state' != .air) := by
      rw [Bool.eq_iff_iff, bne_iff_ne, bne_iff_ne, ne_eq, ne_eq, hair]
    exact hbeq
  supports := fun _ _ hsupports => hsupports

theorem turningChests_lends : turningChests.Lends where
  toHosts := turningChests_hosts
  default := ⟨fun _ _ _ _ => rfl, fun _ _ _ _ => rfl⟩
  airs := fun _ _ hsupports => nomatch hsupports
  settles := fun _ _ _ hs => hs

theorem turningChests_makesOnly (P : BlockPos → Prop) : turningChests.MakesOnly P :=
  ⟨(chestWorld_makesOnly P).create, (chestWorld_makesOnly P).instantiate⟩

/-- Sections with one chest. -/
def chestSections : Sections :=
  (Array.replicate turningChests.height.sectionCount none).setIfInBounds 0
    (some ((Section.empty turningChests.globalBits).set turningChests.facts ⟨3, 5, 4⟩ ⟨1⟩).2)

theorem chestSections_sound : turningChests.SoundSections chestSections := by
  have hi : turningChests.height.sectionIndex? (⟨3, 5, 4⟩ : BlockPos).y = some 0 := by decide
  have hfits : (⟨1⟩ : BlockState).FitsIn turningChests.globalBits := by decide
  exact (Config.soundSections_replicate turningChests).set rfl hi hfits

/-- A world with a chest that turns. -/
def turningWorld : World Unit Unit Unit :=
  World.edits turningChests { level := { isClient := false }, owner := () }
    [.insertChunk { Chunk.new turningChests { pos := ⟨0, 0⟩ } with
      sections := chestSections, stage := .ticking },
      .addEntity { type := ⟨"chest"⟩, pos := ⟨3, 5, 4⟩, cachedState := ⟨1⟩, data := () }]

/-- A chest takes another state and asks for the entity in its own place. -/
def turns (pos : BlockPos) : List (WorldEdit Unit) :=
  [.setBlock pos ⟨2⟩ {}, .getEntity pos .immediate id]

/-- When it is ticked, a chest turns. -/
def turnChest : TickerRunner Unit Unit Unit := fun _ w pos _ e =>
  ({ w.edits turningChests (turns pos) with owner := () }, e)

theorem sound_turns {pos : BlockPos} : ∀ x ∈ turns pos, x.Sound turningChests := by
  intro x hx
  unfold turns at hx
  rw [List.mem_cons, List.mem_singleton] at hx
  rcases hx with rfl | rfl
  · show (⟨2⟩ : BlockState).FitsIn turningChests.globalBits
    decide
  · trivial

/-- The chest comes back in its new state. -/
theorem chest_returned : ∃ e : BlockEntity Unit,
    (turningWorld.visitSlot turningChests turnChest 0).installed? ⟨0, 0⟩ ⟨3, 5, 4⟩ = some e ∧
      e.serial = 0 ∧ e.cachedState = ⟨2⟩ := by
  have hfields : (turningWorld.chunk? ⟨0, 0⟩).map (fun c => (c.loaded, c.pos, c.sections)) =
      some (true, ⟨0, 0⟩, chestSections) :=
    rfl
  have hvisit : (turningWorld.invocation? turningChests 0).1.map
      (fun i => (i.pos, i.entity.serial)) = some (⟨3, 5, 4⟩, 0) := by
    decide +kernel
  have hmarks : (turningWorld.invocation? turningChests 0).2.marks turningChests ⟨3, 5, 4⟩
      (turns ⟨3, 5, 4⟩) = [.wrote ⟨1⟩ ⟨2⟩] := by
    decide +kernel
  obtain ⟨⟨action, pos, state, e⟩, hi, heq⟩ := Option.map_eq_some_iff.1 hvisit
  obtain ⟨rfl, hserial⟩ := Prod.mk.inj heq
  obtain ⟨w₁, hw₁⟩ : ∃ w₁, (turningWorld.invocation? turningChests 0).2 = w₁ := ⟨_, rfl⟩
  have hlent : turningWorld.invocation? turningChests 0 =
      (some ⟨action, ⟨3, 5, 4⟩, state, e⟩, w₁) :=
    Prod.ext hi hw₁
  have hrun : turnChest action w₁ ⟨3, 5, 4⟩ state e =
      ({ w₁.edits turningChests (turns ⟨3, 5, 4⟩) with owner := () }, e) :=
    rfl
  have hcolumn : ChunkPos.ofBlock ⟨3, 5, 4⟩ = ⟨0, 0⟩ := by decide
  have hrange : (ChunkPos.ofBlock ⟨3, 5, 4⟩).InRange := by
    unfold ChunkPos.InRange
    decide
  have hchunk : ∀ c, turningWorld.chunk? (.ofBlock ⟨3, 5, 4⟩) = some c →
      c.Stands turningChests (.ofBlock ⟨3, 5, 4⟩) := by
    intro c hc
    rw [hcolumn] at hc ⊢
    rw [hc] at hfields
    simp only [Option.map_some, Option.some.injEq, Prod.mk.injEq] at hfields
    obtain ⟨hloaded, hpos, hsections⟩ := hfields
    exact ⟨hloaded, hpos, hsections ▸ chestSections_sound⟩
  have hback := (World.returned_or_given_up turningChests_lends hlent (turningChests_makesOnly _)
    hrange hchunk hrun sound_turns ⟨rfl, rfl, rfl, rfl⟩).2.2.1
  rw [← hw₁, hmarks] at hback
  obtain ⟨-, -, back, hcontinues, -, hstate, hinstalled⟩ :=
    hback fun hd => displaced_singleton.1 hd rfl
  exact ⟨back, (hinstalled ⟨0, 0⟩ ⟨3, 5, 4⟩).trans (if_pos ⟨hcolumn.symm, rfl⟩),
    hcontinues.serial.trans hserial, hstate⟩

/-! ### Operations elsewhere, and blocks that are not what they are shown as -/

/-- The world of chests in which plain air has entities and another kind of air has none. -/
def airyChests : Config Unit Unit where
  registry :=
    { toBlockFacts := { chestWorld.facts with
        stateCount := 4
        isAir := fun s => s == .air || s == ⟨2⟩
        hasEntity := fun s => s == .air }
      toEntityFactory := { chestWorld.factory with supports := fun _ s => s == .air }
      tickerFor := fun _ _ _ => some () }
  height := default

theorem airyChests_hosts : airyChests.Hosts where
  kind := by
    rintro ⟨id⟩ ⟨id'⟩ hkind
    cases hkind
    rfl
  supports := fun _ _ hsupports => hsupports

/-- An entity stands where the other kind of air is stored and plain air is shown. -/
def airyWorld : World Unit Unit Unit :=
  World.edits airyChests { level := { isClient := false }, owner := () }
    [.insertChunk { Chunk.new airyChests { pos := ⟨0, 0⟩ } with stage := .ticking },
      .setBlock ⟨0, 0, 0⟩ ⟨1⟩ {}, .setBlock ⟨3, 5, 4⟩ ⟨2⟩ {}, .setBlock ⟨0, 0, 0⟩ ⟨2⟩ {},
      .addEntity { type := ⟨"chest"⟩, pos := ⟨3, 5, 4⟩, cachedState := .air, data := () }]

/-- The serial of the entity that is installed at a position of the chunk at a column. -/
def World.serialAt? (w : World Unit Unit Unit) (column : ChunkPos) (pos : BlockPos) :
    Option UInt32 :=
  (w.installed? column pos).map BlockEntity.serial

/-- The world when the entity of the first slot has been ticked by an operation. -/
def World.visitedBy (cfg : Config Unit Unit) (e : WorldEdit Unit) (w : World Unit Unit Unit) :
    World Unit Unit Unit :=
  w.visitSlot cfg (fun _ w _ _ entity => (w.edit cfg e, entity)) 0

/-- The position and the serial of the entity that is out to be ticked, and the world without it. -/
def World.lends (cfg : Config Unit Unit) (w : World Unit Unit Unit) :
    Option (BlockPos × UInt32) × World Unit Unit Unit :=
  let (i, w) := w.invocation? cfg 0
  (i.map fun i => (i.pos, i.entity.serial), w)

/-- The world of chests that turn in which each block that is settled becomes a chest. -/
def settlingTurners : Config Unit Unit :=
  { turningChests with
    registry := { turningChests.registry with neighborUpdate := fun _ _ _ => ⟨1⟩ } }

/-- A world with a chest, and a chunk so far out that the block queued in it has the coordinates of
the chest. -/
def farTurners : World Unit Unit Unit :=
  World.edits settlingTurners { level := { isClient := false, events := some #[] }, owner := () }
    [.insertChunk { Chunk.new settlingTurners { pos := ⟨0, 0⟩ } with stage := .ticking },
      .insertChunk
        { Chunk.new settlingTurners { pos := ⟨268435456, 0⟩ } with unsettled := #[[16]] },
      .setBlock ⟨0, 1, 0⟩ ⟨1⟩ {}]

/-- The far chunk has been settled while the chest was ticked. -/
def settledFarTurners : World Unit Unit Unit :=
  farTurners.visitedBy settlingTurners (.settleChunk ⟨268435456, 0⟩)

/-- The world of chests that turn in which all chests are made for one position. -/
def strayChests : Config Unit Unit :=
  { turningChests with
    registry :=
      { turningChests.registry with
        create := fun _ s =>
          some { type := ⟨"chest"⟩, pos := ⟨3, 5, 4⟩, cachedState := s, data := () } } }

/-- A world with a chest at this position. -/
def strayWorld : World Unit Unit Unit :=
  World.edits strayChests { level := { isClient := false }, owner := () }
    [.insertChunk { Chunk.new strayChests { pos := ⟨0, 0⟩ } with stage := .ticking },
      .setBlock ⟨3, 5, 4⟩ ⟨1⟩ {}]

/-- **Entities that come back although their block was written, and one that does not although it
was not.** The block of an entity may be stored as a kind of air that has no entities, if plain air
is shown there: a write of stone leaves the entity alone. A chunk far out may settle a block with
the coordinates of an entity in another chunk: the air there becomes a chest with an entity, and the
entity of the other chunk comes back as well. A chest that is placed beside an entity replaces it,
if all chests are made for the position of the entity. -/
theorem not_returned_or_given_up :
    (airyChests.Hosts ∧ airyChests.DefaultReactions ∧
      (airyWorld.lends airyChests).1 = some (⟨3, 5, 4⟩, 0) ∧
      Displaced airyChests.facts ((airyWorld.lends airyChests).2.editMarks airyChests ⟨3, 5, 4⟩
        (.setBlock ⟨3, 5, 4⟩ ⟨1⟩ {})) ∧
      (airyWorld.visitedBy airyChests (.setBlock ⟨3, 5, 4⟩ ⟨1⟩ {})).serialAt? ⟨0, 0⟩ ⟨3, 5, 4⟩ =
        some 0) ∧
    (settlingTurners.Hosts ∧ settlingTurners.DefaultReactions ∧
      (farTurners.lends settlingTurners).1 = some (⟨0, 1, 0⟩, 0) ∧
      settledFarTurners.level.events.any (·.contains
        (.block ⟨0, 1, 0⟩ .air ⟨1⟩ { noRedraw := true, force := true })) ∧
      settlingTurners.facts.blockOf .air ≠ settlingTurners.facts.blockOf ⟨1⟩ ∧
      settledFarTurners.serialAt? ⟨0, 0⟩ ⟨0, 1, 0⟩ = some 0 ∧
      settledFarTurners.serialAt? ⟨268435456, 0⟩ ⟨0, 1, 0⟩ = some 0) ∧
    strayChests.Hosts ∧ strayChests.DefaultReactions ∧
      (strayWorld.lends strayChests).1 = some (⟨3, 5, 4⟩, 0) ∧
      (strayWorld.lends strayChests).2.editMarks strayChests ⟨3, 5, 4⟩
        (.setBlock ⟨3, 5, 5⟩ ⟨1⟩ {}) = [] ∧
      (strayWorld.visitedBy strayChests (.setBlock ⟨3, 5, 5⟩ ⟨1⟩ {})).serialAt? ⟨0, 0⟩ ⟨3, 5, 4⟩ =
        some 1 := by
  have hmarks : (airyWorld.lends airyChests).2.editMarks airyChests ⟨3, 5, 4⟩
      (.setBlock ⟨3, 5, 4⟩ ⟨1⟩ {}) = [.wrote ⟨2⟩ ⟨1⟩] := by
    decide +kernel
  have hkind : airyChests.facts.blockOf ⟨2⟩ ≠ airyChests.facts.blockOf ⟨1⟩ := by decide
  refine ⟨⟨airyChests_hosts, ⟨fun _ _ _ _ => rfl, fun _ _ _ _ => rfl⟩, ?_, ?_, ?_⟩,
    ⟨⟨turningChests_hosts.kind, turningChests_hosts.supports⟩,
      ⟨fun _ _ _ _ => rfl, fun _ _ _ _ => rfl⟩, ?_, ?_, ?_, ?_, ?_⟩,
    ⟨turningChests_hosts.kind, turningChests_hosts.supports⟩,
    ⟨fun _ _ _ _ => rfl, fun _ _ _ _ => rfl⟩, ?_, ?_, ?_⟩
  · decide +kernel
  · rw [hmarks]
    exact displaced_singleton.2 hkind
  · decide +kernel
  · decide +kernel
  · decide +kernel
  · decide
  · decide +kernel
  · decide +kernel
  · decide +kernel
  · decide +kernel
  · decide +kernel

end VoxelChunk
