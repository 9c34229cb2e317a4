/-!
# Runs of equal members

## Main definitions

* `runs` — a list cut into runs of equal members, as long as possible.
* `expand` — the list that consists of given runs.

## Main results

* `expand_runs` — the runs of a list make up the list.
-/

namespace VoxelChunk

variable {α : Type}

/-- The runs of a list, with one more member in front. -/
def consRun [BEq α] (a : α) : List (α × Nat) → List (α × Nat)
  | [] => [(a, 1)]
  | (b, n) :: rest => if a == b then (b, n + 1) :: rest else (a, 1) :: (b, n) :: rest

/-- The members of a list with the lengths of their runs, neighbours being different. -/
def runs [BEq α] (l : List α) : List (α × Nat) := l.foldr consRun []

@[simp] theorem runs_nil [BEq α] : runs ([] : List α) = [] := rfl

@[simp] theorem runs_cons [BEq α] (a : α) (l : List α) : runs (a :: l) = consRun a (runs l) := rfl

/-- The list that consists of the given runs. -/
def expand (rs : List (α × Nat)) : List α := rs.flatMap fun run => List.replicate run.2 run.1

@[simp] theorem expand_nil : expand ([] : List (α × Nat)) = [] := rfl

@[simp] theorem expand_cons (run : α × Nat) (rs : List (α × Nat)) :
    expand (run :: rs) = List.replicate run.2 run.1 ++ expand rs := rfl

theorem expand_consRun [BEq α] [LawfulBEq α] (a : α) (rs : List (α × Nat)) :
    expand (consRun a rs) = a :: expand rs := by
  cases rs with
  | nil => rfl
  | cons run rest =>
    by_cases h : a = run.1
    · simp [consRun, h, List.replicate_succ]
    · simp [consRun, h]

theorem expand_runs [BEq α] [LawfulBEq α] (l : List α) : expand (runs l) = l := by
  induction l with
  | nil => rfl
  | cons a l ih => rw [runs_cons, expand_consRun, ih]

end VoxelChunk
