import VoxelChunk.Proofs.Tag

/-!
# Walks into compounds

A walk goes from compound to compound, field by field, and ends by reading a field as a value of
some type. It finds what there is, at any depth. If there is nothing, or something else, the error
names all fields up to the first that fails, and what was expected there.

## Main definitions

* `FieldType` — the types that a field can be read as.
* `FieldType.Holds` — a tag holds a value of a type.
* `Compound.Leads` — fields lead from a compound to another one inside of it.
* `Compound.Misses` — a field does not hold what it is read as.
* `Compound.readAt` — a walk and what it reads at its end.

## Main results

* `CompoundAt.foldlM_getCompound_eq_ok_iff`, `CompoundAt.foldlM_getCompound_eq_error_iff` — where a
  walk ends, and where it fails.
* `Compound.readAt_spec` — what is read at the end of a walk, and which error is told.
-/

namespace VoxelChunk

/-! ### Types of fields -/

/-- The types that a field can be read as. -/
inductive FieldType where
  | bool
  | byte
  | int
  | long
  | string
  | longArray
  | compound
  deriving DecidableEq

namespace FieldType

/-- The values of a type. -/
def Value : FieldType → Type
  | bool => Bool
  | byte => Int8
  | int => Int32
  | long => Int64
  | string => String
  | longArray => List Int64
  | compound => Compound

/-- What is expected of a field that is read as a value of the type. Truth values are bytes. -/
def expected : FieldType → Expected
  | bool => .byte
  | byte => .byte
  | int => .int
  | long => .long
  | string => .string
  | longArray => .longArray
  | compound => .compound

/-- The value of the type that a tag holds. -/
def read? : (type : FieldType) → Tag → Option type.Value
  | bool => Tag.asBool?
  | byte => Tag.asByte?
  | int => Tag.asInt?
  | long => Tag.asLong?
  | string => Tag.asString?
  | longArray => Tag.asLongArray?
  | compound => Tag.asCompound?

/-- The tag holds the value of the type. A byte holds a truth value as well: all but zero is
true. -/
inductive Holds : (type : FieldType) → Tag → type.Value → Prop
  | bool (n : Int8) : Holds bool (.byte n) (n != 0)
  | byte (n : Int8) : Holds byte (.byte n) n
  | int (n : Int32) : Holds int (.int n) n
  | long (n : Int64) : Holds long (.long n) n
  | string (s : String) : Holds string (.string s) s
  | longArray (items : List Int64) : Holds longArray (.longArray items) items
  | compound (fields : Compound) : Holds compound (.compound fields) fields

/-- The value that is read from a tag is the one that it holds. -/
theorem read?_eq_some_iff {type : FieldType} {tag : Tag} {value : type.Value} :
    type.read? tag = some value ↔ type.Holds tag value := by
  constructor
  · intro h
    cases type <;> cases tag <;> cases h <;> constructor
  · rintro ⟨⟩ <;> rfl

theorem read?_eq_none_iff {type : FieldType} {tag : Tag} :
    type.read? tag = none ↔ ∀ value, ¬type.Holds tag value := by
  simp only [Option.eq_none_iff_forall_ne_some, ne_eq, read?_eq_some_iff]

end FieldType

/-! ### What there is in a compound -/

/-- The path that is reached from a path by walking into fields, one after another. -/
def pathFrom (path : String) (keys : List String) : String :=
  keys.foldl (fun path key => path ++ "/" ++ key) path

theorem pathFrom_cons (path key : String) (keys : List String) :
    pathFrom path (key :: keys) = pathFrom (path ++ "/" ++ key) keys := rfl

theorem pathFrom_concat (path : String) (keys : List String) (key : String) :
    pathFrom path (keys ++ [key]) = pathFrom path keys ++ "/" ++ key := List.foldl_append

/-- A path is made of its fields with slashes between them, and one in front. -/
theorem pathFrom_eq_intercalate (path : String) {keys : List String} (h : keys ≠ []) :
    pathFrom path keys = path ++ "/" ++ "/".intercalate keys := by
  induction keys generalizing path with
  | nil => exact absurd rfl h
  | cons key keys ih =>
    cases keys with
    | nil => rw [String.intercalate_singleton, pathFrom_cons]; rfl
    | cons next rest =>
      rw [pathFrom_cons, ih _ (List.cons_ne_nil next rest), String.intercalate_cons_cons]
      simp only [String.append_assoc]

namespace Compound

/-- The fields lead from one compound to another, each to a compound inside of the one before. -/
inductive Leads : Compound → List String → Compound → Prop
  | here (fields : Compound) : Leads fields [] fields
  | into {fields inner last : Compound} {key : String} {keys : List String} :
    fields.find? key = some (.compound inner) → Leads inner keys last →
    Leads fields (key :: keys) last

theorem leads_nil_iff {fields last : Compound} : Leads fields [] last ↔ last = fields := by
  constructor
  · rintro ⟨⟩
    rfl
  · rintro rfl
    exact .here last

theorem leads_cons_iff {fields last : Compound} {key : String} {keys : List String} :
    Leads fields (key :: keys) last ↔
      ∃ inner, fields.find? key = some (.compound inner) ∧ Leads inner keys last := by
  constructor
  · rintro ⟨⟩
    exact ⟨_, ‹_›, ‹_›⟩
  · rintro ⟨inner, hfield, hrest⟩
    exact .into hfield hrest

/-- The field does not hold a value of the type: there is no such field, where any would have been
looked into, or it holds something else. -/
inductive Misses (fields : Compound) (key : String) (type : FieldType) : Expected → Prop
  | absent : fields.find? key = none → Misses fields key type .item
  | other (tag : Tag) : fields.find? key = some tag → (∀ value, ¬type.Holds tag value) →
    Misses fields key type type.expected

end Compound

/-! ### One step -/

theorem TagAt.expect_eq_error_iff {β : Type} {t : TagAt} {read : Tag → Option β}
    {expected : Expected} {e : TagError} :
    t.expect read expected = .error e ↔ read t.tag = none ∧ e = ⟨t.path, expected⟩ := by
  unfold expect
  cases read t.tag with
  | none => simp [eq_comm]
  | some value => simp

namespace CompoundAt

/-- The value of the given type in a field. -/
def getAs (c : CompoundAt) (key : String) : (type : FieldType) → Except TagError type.Value
  | .bool => c.getBool key
  | .byte => c.getByte key
  | .int => c.getInt key
  | .long => c.getLong key
  | .string => c.getString key
  | .longArray => c.getLongArray key
  | .compound => (c.getCompound key).map CompoundAt.fields

variable {c d : CompoundAt} {key : String} {keys : List String} {type : FieldType} {e : TagError}

theorem getAs_eq (c : CompoundAt) (key : String) (type : FieldType) :
    c.getAs key type = (c.get key).bind fun t => t.expect type.read? type.expected := by
  cases type
  case compound =>
    show (c.getCompound key).map CompoundAt.fields =
      (c.get key).bind fun t => t.expect Tag.asCompound? .compound
    unfold getCompound
    cases c.get key with
    | error e => rfl
    | ok t =>
      show t.asCompound.map CompoundAt.fields = t.expect Tag.asCompound? .compound
      unfold TagAt.asCompound
      cases t.expect Tag.asCompound? .compound <;> rfl
  all_goals rfl

theorem getAs_eq_ok_iff {value : type.Value} :
    c.getAs key type = .ok value ↔ ∃ tag, c.fields.find? key = some tag ∧ type.Holds tag value := by
  rw [getAs_eq, bind_get_eq_ok_iff, Option.bind_eq_some_iff]
  simp only [FieldType.read?_eq_some_iff]

/-- A step that does not find what it reads tells its own path. -/
theorem getAs_eq_error_iff :
    c.getAs key type = .error e ↔
      c.fields.Misses key type e.expected ∧ e.path = c.path ++ "/" ++ key := by
  obtain ⟨path, expected⟩ := e
  rw [getAs_eq]
  unfold get
  cases hfield : c.fields.find? key with
  | none =>
    constructor
    · rintro ⟨⟩
      exact ⟨.absent hfield, rfl⟩
    · rintro ⟨⟨⟩ | ⟨tag, htag, -⟩, rfl⟩
      · rfl
      · rw [hfield] at htag
        cases htag
  | some tag =>
    show TagAt.expect ⟨tag, _⟩ _ _ = _ ↔ _
    rw [TagAt.expect_eq_error_iff, FieldType.read?_eq_none_iff]
    constructor
    · rintro ⟨hother, ⟨⟩⟩
      exact ⟨.other tag hfield hother, rfl⟩
    · rintro ⟨habsent | ⟨tag', htag, hother⟩, rfl⟩
      · rw [hfield] at habsent
        cases habsent
      · rw [hfield] at htag
        cases htag
        exact ⟨hother, rfl⟩

theorem getCompound_eq (c : CompoundAt) (key : String) :
    c.getCompound key =
      (c.getAs key .compound).map fun fields => ⟨fields, c.path ++ "/" ++ key⟩ := by
  rw [getAs_eq]
  unfold getCompound get
  cases c.fields.find? key <;> rfl

theorem getCompound_of_find? {inner : Compound}
    (h : c.fields.find? key = some (.compound inner)) :
    c.getCompound key = .ok ⟨inner, c.path ++ "/" ++ key⟩ := by
  rw [getCompound_eq, getAs_eq_ok_iff.mpr ⟨_, h, .compound inner⟩]
  rfl

theorem getCompound_eq_ok_iff :
    c.getCompound key = .ok d ↔
      c.fields.find? key = some (.compound d.fields) ∧ d.path = c.path ++ "/" ++ key := by
  constructor
  · intro h
    rw [getCompound_eq] at h
    cases hread : c.getAs key .compound with
    | error e =>
      rw [hread] at h
      cases h
    | ok fields =>
      rw [hread] at h
      cases h
      obtain ⟨tag, hfield, ⟨⟩⟩ := getAs_eq_ok_iff.mp hread
      exact ⟨hfield, rfl⟩
  · rintro ⟨hfield, hpath⟩
    rw [getCompound_of_find? hfield, ← hpath]

theorem getCompound_eq_error_iff :
    c.getCompound key = .error e ↔
      c.fields.Misses key .compound e.expected ∧ e.path = c.path ++ "/" ++ key := by
  rw [← getAs_eq_error_iff, getCompound_eq]
  cases c.getAs key .compound with
  | error e' => exact ⟨fun h => by cases h; rfl, fun h => by cases h; rfl⟩
  | ok fields => exact ⟨nofun, nofun⟩

/-! ### Many steps -/

/-- **Where a walk ends.** It remembers its path. -/
theorem foldlM_getCompound_eq_ok_iff :
    keys.foldlM getCompound c = .ok d ↔
      c.fields.Leads keys d.fields ∧ d.path = pathFrom c.path keys := by
  induction keys generalizing c with
  | nil =>
    rw [Compound.leads_nil_iff]
    constructor
    · rintro ⟨⟩
      exact ⟨rfl, rfl⟩
    · rintro ⟨hfields, hpath⟩
      obtain ⟨fields, path⟩ := d
      cases hfields
      cases hpath
      rfl
  | cons key keys ih =>
    rw [List.foldlM_cons, Compound.leads_cons_iff]
    cases hstep : c.getCompound key with
    | error e =>
      constructor
      · rintro ⟨⟩
      · rintro ⟨⟨inner, hfield, -⟩, -⟩
        rw [getCompound_of_find? hfield] at hstep
        cases hstep
    | ok next =>
      obtain ⟨hfield, hpath⟩ := getCompound_eq_ok_iff.mp hstep
      show keys.foldlM getCompound next = .ok d ↔ _
      rw [ih, hpath, hfield, pathFrom_cons]
      simp

/-- **Where a walk fails**: at the first field that holds no compound. -/
theorem foldlM_getCompound_eq_error_iff :
    keys.foldlM getCompound c = .error e ↔
      ∃ before key after inner, keys = before ++ key :: after ∧ c.fields.Leads before inner ∧
        inner.Misses key .compound e.expected ∧ e.path = pathFrom c.path (before ++ [key]) := by
  induction keys generalizing c with
  | nil =>
    constructor
    · rintro ⟨⟩
    · rintro ⟨before, key, after, inner, hsplit, -⟩
      exact absurd hsplit.symm (List.append_ne_nil_of_right_ne_nil before (List.cons_ne_nil _ _))
  | cons key keys ih =>
    rw [List.foldlM_cons]
    cases hstep : c.getCompound key with
    | error e' =>
      constructor
      · rintro ⟨⟩
        obtain ⟨hmisses, hpath⟩ := getCompound_eq_error_iff.mp hstep
        exact ⟨[], key, keys, c.fields, rfl, .here c.fields, hmisses, hpath⟩
      · -- a walk that comes further than this step would contradict its failure
        rintro ⟨_ | ⟨first, before⟩, last, after, inner, hsplit, hleads, hmisses, hpath⟩
        · cases hsplit
          cases hleads
          exact hstep.symm.trans (getCompound_eq_error_iff.mpr ⟨hmisses, hpath⟩)
        · cases hsplit
          obtain ⟨next, hfield, -⟩ := Compound.leads_cons_iff.mp hleads
          rw [getCompound_of_find? hfield] at hstep
          cases hstep
    | ok next =>
      obtain ⟨hfield, hnext⟩ := getCompound_eq_ok_iff.mp hstep
      show keys.foldlM getCompound next = .error e ↔ _
      rw [ih, hnext]
      constructor
      · rintro ⟨before, last, after, inner, rfl, hleads, hmisses, hpath⟩
        exact ⟨key :: before, last, after, inner, rfl, .into hfield hleads, hmisses, hpath⟩
      · rintro ⟨_ | ⟨first, before⟩, last, after, inner, hsplit, hleads, hmisses, hpath⟩
        · cases hsplit
          cases hleads
          rw [getCompound_eq_error_iff.mpr ⟨hmisses, hpath⟩] at hstep
          cases hstep
        · cases hsplit
          obtain ⟨next', hfield', hrest⟩ := Compound.leads_cons_iff.mp hleads
          rw [hfield] at hfield'
          cases hfield'
          exact ⟨before, last, after, inner, rfl, hrest, hmisses, hpath⟩

end CompoundAt

/-! ### What is read at the end -/

namespace Compound

/-- Walk into the given fields, one after another, and read a field there. -/
def readAt (root : Compound) (keys : List String) (key : String) (type : FieldType) :
    Except TagError type.Value :=
  (keys.foldlM CompoundAt.getCompound root.walk).bind fun c => c.getAs key type

/-- The error of a walk that has come through some fields, but does not find what it reads in the
next one. Its path is that of all these fields. -/
structure FailsAfter (root : Compound) (before : List String) (key : String) (type : FieldType)
    (e : TagError) : Prop where
  misses : ∃ inner, root.Leads before inner ∧ inner.Misses key type e.expected
  path : e.path = "/" ++ "/".intercalate (before ++ [key])

section ReadAt

variable {root inner inner' : Compound} {keys : List String} {key : String} {type : FieldType}
  {e : TagError}

theorem failsAfter_iff :
    root.FailsAfter keys key type e ↔
      ∃ inner, root.Leads keys inner ∧ inner.Misses key type e.expected ∧
        e.path = pathFrom "" (keys ++ [key]) := by
  have hpath : pathFrom "" (keys ++ [key]) = "/" ++ "/".intercalate (keys ++ [key]) :=
    pathFrom_eq_intercalate "" (List.append_ne_nil_of_right_ne_nil keys (List.cons_ne_nil key []))
  rw [hpath]
  constructor
  · rintro ⟨⟨inner, hleads, hmisses⟩, hpath⟩
    exact ⟨inner, hleads, hmisses, hpath⟩
  · rintro ⟨inner, hleads, hmisses, hpath⟩
    exact ⟨⟨inner, hleads, hmisses⟩, hpath⟩

/-- Where fields lead, a walk ends. -/
theorem Leads.foldlM_getCompound (h : root.Leads keys inner) :
    keys.foldlM CompoundAt.getCompound root.walk = .ok ⟨inner, pathFrom "" keys⟩ :=
  CompoundAt.foldlM_getCompound_eq_ok_iff.mpr ⟨h, rfl⟩

theorem Leads.unique (h : root.Leads keys inner) (h' : root.Leads keys inner') :
    inner = inner' := by
  cases h.foldlM_getCompound.symm.trans h'.foldlM_getCompound
  rfl

/-- Fields lead to a compound, or a walk into them fails on its way. -/
theorem leads_or_fails (root : Compound) (keys : List String) :
    (∃ inner, root.Leads keys inner) ∨
      ∃ e, keys.foldlM CompoundAt.getCompound root.walk = .error e := by
  cases hwalk : keys.foldlM CompoundAt.getCompound root.walk with
  | error e => exact Or.inr ⟨e, rfl⟩
  | ok c => exact Or.inl ⟨c.fields, (CompoundAt.foldlM_getCompound_eq_ok_iff.mp hwalk).1⟩

theorem foldlM_walk_eq_error_iff :
    keys.foldlM CompoundAt.getCompound root.walk = .error e ↔
      ∃ before first after, keys = before ++ first :: after ∧
        root.FailsAfter before first .compound e := by
  simp only [CompoundAt.foldlM_getCompound_eq_error_iff, failsAfter_iff, exists_and_left]
  rfl

theorem readAt_of_leads (h : root.Leads keys inner) (key : String) (type : FieldType) :
    root.readAt keys key type = CompoundAt.getAs ⟨inner, pathFrom "" keys⟩ key type := by
  rw [readAt, h.foldlM_getCompound]
  rfl

theorem readAt_of_error (h : keys.foldlM CompoundAt.getCompound root.walk = .error e)
    (key : String) (type : FieldType) : root.readAt keys key type = .error e := by
  rw [readAt, h]
  rfl

/-- A value is read exactly if the fields lead to a compound whose last field holds it. -/
theorem readAt_eq_ok_iff {value : type.Value} :
    root.readAt keys key type = .ok value ↔
      ∃ inner tag, root.Leads keys inner ∧ inner.find? key = some tag ∧ type.Holds tag value := by
  constructor
  · intro h
    rcases leads_or_fails root keys with ⟨inner, hleads⟩ | ⟨e, hfails⟩
    · rw [readAt_of_leads hleads] at h
      obtain ⟨tag, hfield, hholds⟩ := CompoundAt.getAs_eq_ok_iff.mp h
      exact ⟨inner, tag, hleads, hfield, hholds⟩
    · rw [readAt_of_error hfails] at h
      cases h
  · rintro ⟨inner, tag, hleads, hfield, hholds⟩
    rw [readAt_of_leads hleads]
    exact CompoundAt.getAs_eq_ok_iff.mpr ⟨tag, hfield, hholds⟩

/-- The error is that of the first field that fails, on the way or at the end. -/
theorem readAt_eq_error_iff :
    root.readAt keys key type = .error e ↔
      (∃ before first after, keys = before ++ first :: after ∧
        root.FailsAfter before first .compound e) ∨ root.FailsAfter keys key type e := by
  rw [← foldlM_walk_eq_error_iff]
  rcases leads_or_fails root keys with ⟨inner, hleads⟩ | ⟨e', hfails⟩
  · rw [readAt_of_leads hleads, hleads.foldlM_getCompound, CompoundAt.getAs_eq_error_iff,
      failsAfter_iff, pathFrom_concat]
    constructor
    · rintro ⟨hmisses, hpath⟩
      exact Or.inr ⟨inner, hleads, hmisses, hpath⟩
    · rintro (hends | ⟨inner', hleads', hmisses, hpath⟩)
      · cases hends
      · cases hleads.unique hleads'
        exact ⟨hmisses, hpath⟩
  · rw [readAt_of_error hfails, hfails]
    constructor
    · rintro ⟨⟩
      exact Or.inl rfl
    · rintro (hsame | ⟨⟨inner, hleads, -⟩, -⟩)
      · cases hsame
        rfl
      · -- the walk would have ended
        rw [hleads.foldlM_getCompound] at hfails
        cases hfails

end ReadAt

/-- **What is read at the end of a walk.** A value is read exactly if the fields lead to a compound
whose last field holds it. Otherwise the error is that of the first field that fails: one on the
way, which should have held a compound, or the last one, which should have held a value of the
type. -/
theorem readAt_spec (root : Compound) (keys : List String) (key : String) (type : FieldType) :
    (∀ value, root.readAt keys key type = .ok value ↔
        ∃ inner tag, root.Leads keys inner ∧ inner.find? key = some tag ∧ type.Holds tag value) ∧
      ∀ e, root.readAt keys key type = .error e ↔
        (∃ before first after, keys = before ++ first :: after ∧
          root.FailsAfter before first .compound e) ∨
        root.FailsAfter keys key type e :=
  ⟨fun _ => readAt_eq_ok_iff, fun _ => readAt_eq_error_iff⟩

/-- The path tells how deep the walk had come, and that it had come to something. -/
example : readAt [("Heightmaps", .compound [("SURFACE", .longArray [1, -2])])]
    ["Heightmaps"] "SURFACE" .int = .error ⟨"/Heightmaps/SURFACE", .int⟩ := by
  rfl

end Compound

end VoxelChunk
