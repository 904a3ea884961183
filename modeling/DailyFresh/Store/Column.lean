import Mathlib.Data.Int.Basic

/-!
# Typed columns

Columns of a table that only store values of a certain size: integers between two bounds, and texts
up to a length. A stored value carries the proof that it fits, so a row can only be built from
values its columns accept; `store?` is the database's attempt to store a value, `none` when it
refuses it. A decimal column with two places is an integer column of hundredths.
-/

namespace Store

/-- A value is stored as itself, if it fits. -/
theorem dite_eq_some_iff {α : Type} {p : α → Prop} {a : α} [Decidable (p a)] {c : {a // p a}} :
    (if h : p a then some (⟨a, h⟩ : {a // p a}) else none) = some c ↔ c.val = a := by
  split
  · rw [Option.some.injEq, Subtype.ext_iff]
    exact eq_comm
  · rename_i h
    refine iff_of_false (fun hnone ↦ by cases hnone) fun hc ↦ h ?_
    rw [← hc]
    exact c.2

/-- An integer column that stores the values from `lo` to `hi`. -/
abbrev Column (lo hi : ℤ) := {n : ℤ // lo ≤ n ∧ n ≤ hi}

/-- Store `n`, if the column accepts it. -/
def Column.store? (lo hi : ℤ) (n : ℤ) : Option (Column lo hi) :=
  if h : lo ≤ n ∧ n ≤ hi then some ⟨n, h⟩ else none

@[simp] theorem Column.store?_eq_some_iff {lo hi n : ℤ} {c : Column lo hi} :
    Column.store? lo hi n = some c ↔ c.val = n :=
  dite_eq_some_iff (p := fun n ↦ lo ≤ n ∧ n ≤ hi)

/-- The value `n`, which the column accepts by computation. -/
abbrev Column.lit {lo hi : ℤ} (n : ℤ) (h : decide (lo ≤ n ∧ n ≤ hi) = true) : Column lo hi :=
  ⟨n, of_decide_eq_true h⟩

/-- A text column that stores lists of at most `n` characters. -/
abbrev TextColumn (α : Type) (n : ℕ) := {s : List α // s.length ≤ n}

/-- The empty text. -/
abbrev TextColumn.empty {α : Type} {n : ℕ} : TextColumn α n := ⟨[], Nat.zero_le n⟩

/-- Store the text `s`, if the column accepts it. -/
def TextColumn.store? {α : Type} (n : ℕ) (s : List α) : Option (TextColumn α n) :=
  if h : s.length ≤ n then some ⟨s, h⟩ else none

@[simp] theorem TextColumn.store?_eq_some_iff {α : Type} {n : ℕ} {s : List α}
    {c : TextColumn α n} : TextColumn.store? n s = some c ↔ c.val = s :=
  dite_eq_some_iff (p := fun s : List α ↦ s.length ≤ n)

/-- A stored text can be stored again. -/
@[simp] theorem TextColumn.store?_val {α : Type} {n : ℕ} (c : TextColumn α n) :
    TextColumn.store? n c.val = some c :=
  TextColumn.store?_eq_some_iff.2 rfl

end Store
