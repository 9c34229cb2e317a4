import VoxelChunk.Proofs.Chunk.Steps
import VoxelChunk.Proofs.Chunk.Write

/-!
# What lasts through writes

Whatever blocks do in reaction to a write, and however deep writes are nested, all that happens is
that states are stored, that block entities are dealt with step by step, and that writes are
announced. What each of these keeps lasts through all writes.

## Main definitions

* `Site.Lasting` — what each part of a write keeps.

## Main results

* `Site.Lasting.writeBlock`, `Site.Lasting.setBlock` — it lasts through writes.
-/

namespace VoxelChunk

variable {α τ : Type}

namespace Site

/-- Storing a state, each step of block entities and announcing a write keep `I`. -/
structure Lasting (cfg : Config α τ) (I : Site α τ → Prop) : Prop where
  store : ∀ {s : Site α τ} {index : Nat} {pos : BlockPos} (state : BlockState),
    cfg.height.sectionIndex? pos.y = some index → I s → I (s.storeBlock cfg index pos state).2
  entity : ∀ {s s' : Site α τ},
    EntityStep cfg (fun _ => True) (fun _ => True) s s' → I s → I s'
  announce : ∀ {s : Site α τ} (pos : BlockPos) (previous state : BlockState) (flags : SetFlags),
    I s → I (Site.push { s with chunk := { s.chunk with needsSaving := true } }
      (.block pos previous state flags))

namespace Lasting

variable {cfg : Config α τ} {I : Site α τ → Prop} (h : Lasting cfg I) {s s' : Site α τ}
include h

theorem note (hs : I s) (notice : Notice) : I (s.note notice) :=
  h.entity (.aside s.chunk.pending (s.level.notices.push notice) fun _ _ hf => hf) hs

theorem entities (hs : I s) (hsteps : EntitySteps cfg (fun _ => True) (fun _ => True) s s') :
    I s' := by
  induction hsteps with
  | refl => exact hs
  | tail _ hstep ih => exact h.entity hstep ih

/-- A reaction keeps what its writes keep. -/
theorem run {write : BlockWriter α τ}
    (hwrite : ∀ {s : Site α τ} (pos : BlockPos) (state : BlockState) (moved : Bool),
      I s → I (write s pos state moved).2) (r : Reaction α τ) (hs : I s) :
    I (r.run write cfg s) := by
  induction r generalizing s with
  | done => exact hs
  | setBlock pos state moved next ih => exact ih _ (hwrite pos state moved hs)
  | removeEntity pos next ih => exact ih _ (h.entity (.remove pos trivial) hs)
  | addEntity entity next ih => exact ih (h.entity (.add entity trivial) hs)
  | look next ih => exact ih s hs

theorem writeWith {write : BlockWriter α τ}
    (hwrite : ∀ {s : Site α τ} (pos : BlockPos) (state : BlockState) (moved : Bool),
      I s → I (write s pos state moved).2) (hs : I s) (pos : BlockPos) (state : BlockState)
    (flags : SetFlags) : I (s.writeWith write cfg pos state flags).2 := by
  unfold Site.writeWith
  cases hindex : cfg.height.sectionIndex? pos.y with
  | none => exact hs
  | some index =>
    have hstored := h.store state hindex hs
    simp only
    generalize s.storeBlock cfg index pos state = out at hstored ⊢
    obtain ⟨outcome, stored⟩ := out
    cases outcome with
    | none => exact hstored
    | some previous =>
      have hreplaced : I (stored.replaceBlock write cfg pos previous state flags.moved) := by
        unfold replaceBlock
        split <;> exact h.run hwrite _ hstored
      simp only
      generalize stored.replaceBlock write cfg pos previous state flags.moved = replaced
        at hreplaced ⊢
      split
      · exact hreplaced
      · refine h.announce _ _ _ _ (h.entities ?_
          (steps_attachEntity (cfg.makes_true _) _ trivial state))
        split
        · exact hreplaced
        · exact h.run hwrite _ hreplaced

/-- **It lasts through writes**, however deep those made in reaction are nested. -/
theorem writeBlock (depth : Nat) (hs : I s) (pos : BlockPos) (state : BlockState)
    (flags : SetFlags) : I (Site.writeBlock cfg depth s pos state flags).2 := by
  induction depth generalizing s pos state flags with
  | zero => exact h.note hs _
  | succ depth ih =>
    exact h.writeWith (fun pos state moved hs => ih hs pos state { moved }) hs pos state flags

theorem setBlock (hs : I s) (pos : BlockPos) (state : BlockState) (flags : SetFlags) :
    I (s.setBlock cfg pos state flags).2 :=
  h.writeBlock _ hs pos state flags

end Lasting

end Site

end VoxelChunk
