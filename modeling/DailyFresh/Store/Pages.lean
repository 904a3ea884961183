import Mathlib.Data.List.Sort
import Mathlib.Data.Nat.Notation

/-!
# Pages of sorted answers

A query with `ORDER BY` answers the rows in *some* order that agrees with the key (`SortedBy`): rows with
equal keys may come in any order, and in another one the next time. A listing that is cut into pages and
asks for each page with a query of its own therefore shows page `i` of the `i`-th answer.

`flatMap_slice`: the pages of one answer, one after another, are the answer. `all_shown_iff`: with pages of
one row, every choice of answers shows every row exactly once if and only if no two rows have the same key.
-/

namespace Store

variable {α κ : Type} {l l' rows : List α}

/-! ### Pages -/

/-- Page `i`, counted from 0, of a list that is cut into pages of `size` elements. -/
def slice (size : ℕ) (l : List α) (i : ℕ) : List α := (l.drop (i * size)).take size

/-- **The pages of one list.** -/
theorem flatMap_slice (size : ℕ) (l : List α) (n : ℕ) :
    (List.range n).flatMap (slice size l) = l.take (n * size) := by
  induction n with
  | zero => rw [List.range_zero, List.flatMap_nil, Nat.zero_mul, List.take_zero]
  | succ n ih =>
    rw [List.range_succ, List.flatMap_append, ih, List.flatMap_singleton, Nat.succ_mul, List.take_add]
    rfl

theorem mem_slice_one {a : α} {i : ℕ} : a ∈ slice 1 l i ↔ l[i]? = some a := by
  rw [slice, Nat.mul_one]
  rcases hdrop : l.drop i with - | ⟨b, rest⟩
  · have hlength : l.length ≤ i := List.drop_eq_nil_iff.1 hdrop
    simp [List.getElem?_eq_none hlength]
  · have hget : l[i]? = some b := by rw [← List.head?_drop, hdrop, List.head?_cons]
    rw [hget, List.take_succ_cons, List.take_zero, List.mem_singleton, Option.some.injEq]
    exact eq_comm

/-! ### Answers -/

variable [LinearOrder κ] {key : α → κ}

/-- The list is an answer to the query for the rows, ordered by the key. -/
structure SortedBy (key : α → κ) (rows l : List α) : Prop where
  perm : l.Perm rows
  sorted : l.Pairwise fun a b ↦ key a ≤ key b

/-- Without ties there is one answer. -/
theorem SortedBy.eq (h : SortedBy key rows l) (h' : SortedBy key rows l')
    (hkey : ∀ a ∈ rows, ∀ b ∈ rows, key a = key b → a = b) : l = l' := by
  refine (h.perm.trans h'.perm.symm).eq_of_pairwise (fun a b ha hb hab hba ↦ ?_) h.sorted h'.sorted
  exact hkey a (h.perm.mem_iff.1 ha) b (h'.perm.mem_iff.1 hb) (le_antisymm hab hba)

/-- Two rows that tie may stand next to each other in either order. -/
theorem exists_sortedBy_of_tie [DecidableEq α] {a b : α} (ha : a ∈ rows) (hb : b ∈ rows) (hne : a ≠ b)
    (htie : key a = key b) : ∃ before after, SortedBy key rows (before ++ a :: b :: after) ∧
      SortedBy key rows (before ++ b :: a :: after) := by
  let rest := (rows.erase a).erase b
  let smaller (x : α) : Bool := key x < key a
  let sort := List.insertionSort fun x y ↦ key x ≤ key y
  have htotal : Std.Total fun x y : α ↦ key x ≤ key y := ⟨fun x y ↦ le_total (key x) (key y)⟩
  have htrans : IsTrans α fun x y ↦ key x ≤ key y := ⟨fun _ _ _ ↦ le_trans⟩
  have hsorted : ∀ l, (sort l).Pairwise fun x y ↦ key x ≤ key y := List.pairwise_insertionSort _
  have hsort : ∀ l, (sort l).Perm l := List.perm_insertionSort _
  have hbefore : ∀ x ∈ sort (rest.filter smaller), key x < key a := fun x hx ↦
    of_decide_eq_true (List.mem_filter.1 ((hsort _).mem_iff.1 hx)).2
  have hafter : ∀ x ∈ sort (rest.filter (!smaller ·)), key a ≤ key x := fun x hx ↦ by
    have hx := (List.mem_filter.1 ((hsort _).mem_iff.1 hx)).2
    exact not_lt.1 (of_decide_eq_false (Bool.not_eq_true' _ ▸ hx))
  -- the two rows go between the smaller and the other ones
  have hbetween : ∀ x y, key x = key a → key y = key a → rows.Perm (x :: y :: rest) →
      SortedBy key rows (sort (rest.filter smaller) ++ x :: y :: sort (rest.filter (!smaller ·))) := by
    intro x y hx hy hrows
    constructor
    · refine List.Perm.trans ?_ hrows.symm
      refine (List.perm_middle.trans ((List.perm_middle.trans (List.Perm.cons y ?_)).cons x))
      exact ((hsort _).append (hsort _)).trans (List.filter_append_perm smaller rest)
    · refine List.pairwise_append.2 ⟨hsorted _, ?_, fun z hz z' hz' ↦ ?_⟩
      · refine List.pairwise_cons.2 ⟨fun z hz ↦ ?_, List.pairwise_cons.2 ⟨fun z hz ↦ ?_, hsorted _⟩⟩
        · rcases List.mem_cons.1 hz with rfl | hz
          · exact (hx.trans hy.symm).le
          · exact hx.le.trans (hafter z hz)
        · exact hy.le.trans (hafter z hz)
      · have hle : key z ≤ key a := (hbefore z hz).le
        rcases List.mem_cons.1 hz' with rfl | hz'
        · exact hle.trans hx.ge
        rcases List.mem_cons.1 hz' with rfl | hz'
        · exact hle.trans hy.ge
        · exact hle.trans (hafter z' hz')
  have hrows : rows.Perm (a :: b :: rest) := by
    have hb' : b ∈ rows.erase a := (List.mem_erase_of_ne hne.symm).2 hb
    exact (List.perm_cons_erase ha).trans ((List.perm_cons_erase hb').cons a)
  exact ⟨_, _, hbetween a b rfl htie.symm hrows,
    hbetween b a htie.symm rfl (hrows.trans (List.Perm.swap b a rest))⟩

/-! ### A listing -/

/-- **When a listing with one row a page is complete** whatever the answers are: if and only if no two rows
tie. -/
theorem all_shown_iff [DecidableEq α] (hnodup : rows.Nodup) {n : ℕ} (hn : rows.length ≤ n) :
    (∀ answers : ℕ → List α, (∀ i, SortedBy key rows (answers i)) →
        ((List.range n).flatMap fun i ↦ slice 1 (answers i) i).Perm rows) ↔
      ∀ a ∈ rows, ∀ b ∈ rows, key a = key b → a = b := by
  constructor
  · intro h a ha b hb htie
    by_contra hne
    obtain ⟨before, after, hab, hba⟩ := exists_sortedBy_of_tie ha hb hne htie
    let answers (i : ℕ) :=
      if i = before.length + 1 then before ++ b :: a :: after else before ++ a :: b :: after
    have hanswers : ∀ i, SortedBy key rows (answers i) := by
      intro i
      by_cases hi : i = before.length + 1
      · rw [show answers i = _ from if_pos hi]
        exact hba
      · rw [show answers i = _ from if_neg hi]
        exact hab
    -- the second of the two is on no page
    have hmem := (h answers hanswers).mem_iff.2 hb
    obtain ⟨i, -, hshown⟩ := List.mem_flatMap.1 hmem
    rw [mem_slice_one] at hshown
    by_cases hi : i = before.length + 1
    · rw [show answers i = _ from if_pos hi, hi] at hshown
      have hplace : (before ++ b :: a :: after)[before.length + 1]? = some a := by simp
      exact hne (Option.some.inj (hplace.symm.trans hshown))
    · rw [show answers i = _ from if_neg hi] at hshown
      have hplace : (before ++ a :: b :: after)[before.length + 1]? = some b := by simp
      have hnodup' : (before ++ a :: b :: after).Nodup := hab.perm.nodup_iff.2 hnodup
      have hlt : i < (before ++ a :: b :: after).length := (List.getElem?_eq_some_iff.1 hshown).1
      exact hi ((List.getElem?_inj hlt hnodup').1 (hshown.trans hplace.symm))
  · intro hkey answers hanswers
    have hsame : ∀ i, answers i = answers 0 := fun i ↦ (hanswers i).eq (hanswers 0) hkey
    have hlength : (answers 0).length ≤ n * 1 := by
      rw [Nat.mul_one, (hanswers 0).perm.length_eq]
      exact hn
    have hpages : ((List.range n).flatMap fun i ↦ slice 1 (answers i) i) = answers 0 := by
      rw [← List.take_of_length_le hlength, ← flatMap_slice]
      exact List.flatMap_congr fun i _ ↦ by rw [hsame i]
    rw [hpages]
    exact (hanswers 0).perm

end Store
