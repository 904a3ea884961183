import Mathlib.Data.List.AList

/-!
# Numbered rows

A table whose rows are numbered by the database, in the order in which they are created. `nextKey` is the
number that a new row gets; no row has it yet (`lookup_nextKey`).
-/

namespace Store

variable {R : Type}

/-- The number of a new row. -/
def nextKey (rows : AList fun _ : ℕ ↦ R) : ℕ := rows.keys.foldr max 0 + 1

theorem le_foldr_max {keys : List ℕ} {n : ℕ} (h : n ∈ keys) : n ≤ keys.foldr max 0 := by
  induction keys with
  | nil => cases h
  | cons k keys ih =>
    rw [List.foldr_cons]
    rcases List.mem_cons.1 h with rfl | h
    · exact Nat.le_max_left ..
    · exact Nat.le_trans (ih h) (Nat.le_max_right ..)

/-- No row has the new number yet. -/
theorem lookup_nextKey (rows : AList fun _ : ℕ ↦ R) : rows.lookup (nextKey rows) = none := by
  refine AList.lookup_eq_none.2 fun hmem ↦ ?_
  have hle : nextKey rows ≤ rows.keys.foldr max 0 := le_foldr_max hmem
  rw [nextKey] at hle
  omega

end Store
