import VoxelChunk.Tag.Path

/-!
# Fields of compounds

What is found in a compound in which a field has been set, and when a step of a walk finds a value.

## Main results

* `Compound.find?_insert` — a field is set.
* `CompoundAt.getString_eq_ok_iff`, `CompoundAt.getInt_eq_ok_iff` — a walk finds what there is.
-/

namespace VoxelChunk

/-! ### Setting a field -/

namespace Compound

theorem find?_insert (fields : Compound) (key : String) (tag : Tag) (name : String) :
    (fields.insert key tag).find? name = if name = key then some tag else fields.find? name := by
  simp only [eq_comm (a := name)]
  unfold find?
  induction fields with
  | nil =>
    unfold insert
    by_cases h : key = name <;> simp [h]
  | cons field rest ih =>
    unfold insert
    by_cases hlt : key < field.1
    · rw [if_pos hlt]
      by_cases h : key = name <;> simp [h]
    · rw [if_neg hlt]
      by_cases heq : key = field.1
      · -- the field there was is left out
        have hsame : field.1 = name ↔ key = name := by rw [heq]
        rw [if_pos heq]
        by_cases h : key = name <;> simp [h, hsame]
      · rw [if_neg heq]
        by_cases h : field.1 = name
        · have hne : ¬key = name := fun hk => heq (hk.trans h.symm)
          simp [h, hne]
        · rw [List.find?_cons_of_neg (by simpa using h), List.find?_cons_of_neg (by simpa using h),
            ih]

end Compound

/-! ### Walking -/

namespace CompoundAt

/-- A step of a walk finds the value that there is in the field. -/
theorem bind_get_eq_ok_iff {β : Type} {c : CompoundAt} {key : String} {read : Tag → Option β}
    {expected : Expected} {b : β} :
    ((c.get key).bind fun t => t.expect read expected) = .ok b ↔
      (c.fields.find? key).bind read = some b := by
  unfold get
  cases c.fields.find? key with
  | none => exact ⟨nofun, nofun⟩
  | some tag =>
    show TagAt.expect _ read expected = .ok b ↔ read tag = some b
    unfold TagAt.expect
    cases read tag with
    | none => exact ⟨nofun, nofun⟩
    | some found => simp

theorem getString_eq_ok_iff {c : CompoundAt} {key text : String} :
    c.getString key = .ok text ↔ c.fields.findString? key = some text :=
  bind_get_eq_ok_iff

theorem getInt_eq_ok_iff {c : CompoundAt} {key : String} {n : Int32} :
    c.getInt key = .ok n ↔ c.fields.findInt? key = some n :=
  bind_get_eq_ok_iff

end CompoundAt

end VoxelChunk
