import Mathlib.Data.List.Induction
import Mathlib.Data.List.Nodup

/-!
# Lists of the most recent entries

A bounded list of what was used last, the newest entry first: `bump n` puts an entry in front, drops its
other occurrences and cuts the list to `n` entries. Cutting after every step loses nothing: from the
empty list, `bump n` over a whole sequence leaves its first `n` distinct entries in reverse order
(`foldl_bump`).

The reason is that a list without duplicates loses at most one entry when one value is dropped, so the
entry that the cut has taken away was not needed (`take_filter_ne`).
-/

namespace Store

variable {α : Type} [DecidableEq α]

/-- The entries of a list without later repetitions. -/
def distinct (l : List α) : List α := l.eraseDups

/-- Put `x` in front, drop its other occurrences, and keep `n` entries. -/
def bump (n : ℕ) (l : List α) (x : α) : List α := (x :: l.filter (· ≠ x)).take n

/-- Dropping one value from a list without duplicates: one entry more is enough. -/
theorem take_filter_ne {l : List α} (h : l.Nodup) (n : ℕ) (x : α) :
    ((l.take (n + 1)).filter (· ≠ x)).take n = (l.filter (· ≠ x)).take n := by
  induction l generalizing n with
  | nil => rfl
  | cons a l ih =>
    obtain ⟨ha, hl⟩ := List.nodup_cons.1 h
    rw [List.take_succ_cons]
    by_cases hax : a = x
    · -- the one entry that goes; `x` is not among the others
      subst hax
      have hkeep : ∀ l' : List α, l' ⊆ l → l'.filter (· ≠ a) = l' := fun l' hsub ↦
        List.filter_eq_self.2 fun b hb ↦ decide_eq_true fun hba ↦ ha (hba ▸ hsub hb)
      rw [List.filter_cons_of_neg (by simp), List.filter_cons_of_neg (by simp),
        hkeep _ (List.take_subset _ _), hkeep _ (List.Subset.refl _), List.take_take, Nat.min_self]
    · rw [List.filter_cons_of_pos (by simpa using hax), List.filter_cons_of_pos (by simpa using hax)]
      rcases n with - | n
      · rfl
      · rw [List.take_succ_cons, List.take_succ_cons, ih hl]

theorem distinct_cons (a : α) (l : List α) :
    distinct (a :: l) = a :: distinct (l.filter fun b ↦ !b == a) := List.eraseDups_cons

theorem filter_distinct (p : α → Bool) (l : List α) :
    (distinct l).filter p = distinct (l.filter p) := by
  induction hn : l.length using Nat.strongRecOn generalizing l with
  | ind n ih =>
    rcases l with - | ⟨a, l⟩
    · rfl
    have hlength : (l.filter fun b ↦ !b == a).length < n := by
      have hle := List.length_filter_le (fun b ↦ !b == a) l
      rw [List.length_cons] at hn
      omega
    rw [distinct_cons]
    by_cases ha : p a = true
    · rw [List.filter_cons_of_pos ha, List.filter_cons_of_pos ha, distinct_cons,
        ih _ hlength _ rfl, List.filter_filter, List.filter_filter]
      simp only [Bool.and_comm]
    · rw [List.filter_cons_of_neg ha, List.filter_cons_of_neg ha, ih _ hlength _ rfl,
        List.filter_filter]
      refine congrArg _ (List.filter_congr fun b _ ↦ ?_)
      -- what satisfies `p` is not `a`
      by_cases hb : p b = true
      · have hne : b ≠ a := by
          rintro rfl
          exact ha hb
        simp [hb, hne]
      · simp [hb]

theorem nodup_distinct (l : List α) : (distinct l).Nodup := by
  induction hn : l.length using Nat.strongRecOn generalizing l with
  | ind n ih =>
    rcases l with - | ⟨a, l⟩
    · exact List.nodup_nil
    have hlength : (l.filter fun b ↦ !b == a).length < n := by
      have hle := List.length_filter_le (fun b ↦ !b == a) l
      rw [List.length_cons] at hn
      omega
    rw [distinct_cons, List.nodup_cons]
    refine ⟨fun hmem ↦ ?_, ih _ hlength _ rfl⟩
    simpa using List.mem_eraseDups.1 hmem

/-- One more entry. -/
theorem bump_take_distinct (n : ℕ) (l : List α) (x : α) :
    bump n ((distinct l).take n) x = (distinct (x :: l)).take n := by
  have hfilter : distinct (l.filter fun b ↦ !b == x) = (distinct l).filter (· ≠ x) := by
    rw [filter_distinct]
    refine congrArg _ (List.filter_congr fun b _ ↦ ?_)
    by_cases hb : b = x
    · simp [hb]
    · simp [hb]
  rw [bump, distinct_cons, hfilter]
  rcases n with - | n
  · rfl
  · rw [List.take_succ_cons, List.take_succ_cons, take_filter_ne (nodup_distinct l)]

/-- **The most recent entries.** Cutting after every entry keeps the first distinct entries of the whole
sequence, newest first. -/
theorem foldl_bump (n : ℕ) (xs : List α) : xs.foldl (bump n) [] = (distinct xs.reverse).take n := by
  induction xs using List.reverseRecOn with
  | nil => rw [List.foldl_nil, List.reverse_nil, distinct, List.eraseDups_nil, List.take_nil]
  | append_singleton xs x ih =>
    rw [List.foldl_append, List.foldl_cons, List.foldl_nil, ih, bump_take_distinct,
      List.reverse_append, List.reverse_singleton, List.singleton_append]

end Store
