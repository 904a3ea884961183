import DailyFresh.Site.Listing

/-!
# Paging through a type

Each page of a list is a query of its own, and the price or the sales of products do not say in which order
the ones that tie come. `listing_complete_iff`: whatever answers the database gives, the pages 1 to
`num_pages` show every product of the type exactly once if and only if the products are ordered by their
ids or no two of them tie.
-/

namespace DailyFresh

open Python Store ListView

/-- One page per row, and one if there is none. -/
theorem numPages_one {α : Type} (l : List α) :
    (Paginator.mk l 1).numPages = max 1 l.length := by
  rw [Paginator.numPages, Nat.div_one, Nat.add_sub_cancel]

/-- A page that exists is shown. -/
theorem context_of_le {skus : List ListedSKU} (sort : Option Str) {p : ℕ} (hp : 1 ≤ p)
    (hle : p ≤ max 1 skus.length) :
    (context skus sort (str p)).map (·.skusPage) = some (slice 1 skus (p - 1)) := by
  have hnot : ¬ (p : ℤ) > ((Paginator.mk skus 1).numPages : ℕ) := by
    rw [numPages_one]
    omega
  have hpage : (Paginator.mk skus 1).page p = some (slice 1 skus (p - 1)) := by
    rw [Paginator.page, if_pos ⟨by omega, by rw [numPages_one]; omega⟩]
    rfl
  rw [context, int_str, Option.getD_some, if_neg hnot, hpage]
  rfl

theorem mapM_eq_some {α β : Type} {f : α → Option β} {g : α → β} {l : List α}
    (h : ∀ x ∈ l, f x = some (g x)) : l.mapM f = some (l.map g) := by
  induction l with
  | nil => rfl
  | cons x l ih =>
    rw [List.mapM_cons, h x List.mem_cons_self, ih fun y hy ↦ h y (List.mem_cons_of_mem _ hy)]
    rfl

/-- The pages 1 to `num_pages`, one after another; the database gives `answers p` to the request for page
`p`. -/
def ListView.browse (rows : List ListedSKU) (answers : ℕ → List ListedSKU) (sort : Option Str) :
    Option (List (List ListedSKU)) :=
  (List.range' 1 (Paginator.mk rows 1).numPages).mapM fun p ↦
    (context (answers p) sort (str p)).map (·.skusPage)

theorem browse_eq {rows : List ListedSKU} {answers : ℕ → List ListedSKU} (sort : Option Str)
    (h : ∀ p, (answers p).length = rows.length) :
    browse rows answers sort =
      some ((List.range (max 1 rows.length)).map fun i ↦ slice 1 (answers (i + 1)) i) := by
  have hpage : ∀ p ∈ List.range' 1 (max 1 rows.length),
      (context (answers p) sort (str p)).map (·.skusPage) = some (slice 1 (answers p) (p - 1)) := by
    intro p hp
    obtain ⟨hone, hlt⟩ := List.mem_range'_1.1 hp
    exact context_of_le sort hone (by rw [h p]; omega)
  rw [browse, numPages_one, mapM_eq_some hpage, List.range'_eq_map_range, List.map_map]
  refine congrArg some (List.map_congr_left fun i _ ↦ ?_)
  show slice 1 (answers (1 + i)) (1 + i - 1) = slice 1 (answers (i + 1)) i
  rw [Nat.add_sub_cancel_left, Nat.add_comm]

/-- **Paging loses and repeats nothing**, whatever the answers of the database are, exactly if the
products are ordered by their ids or no two of them tie. -/
theorem listing_complete_iff (catalogue : Catalogue) (typeId : ℕ) (sort : Option Str) :
    (∀ answers : ℕ → List ListedSKU,
        (∀ p, SortedBy (SortBy.ofParam sort).key (catalogue.ofType typeId) (answers p)) →
        ∃ pages, browse (catalogue.ofType typeId) answers sort = some pages ∧
          pages.flatten.Perm (catalogue.ofType typeId)) ↔
      SortBy.ofParam sort = .default ∨
        ∀ a ∈ catalogue.ofType typeId, ∀ b ∈ catalogue.ofType typeId,
          (SortBy.ofParam sort).key a = (SortBy.ofParam sort).key b → a = b := by
  generalize hrows : catalogue.ofType typeId = rows
  generalize hkey : (SortBy.ofParam sort).key = key
  have hids : (rows.map (·.id)).Nodup := by
    rw [← hrows]
    exact (List.filter_sublist.map _).nodup catalogue.nodup
  -- ids do not tie
  have hdefault : (SortBy.ofParam sort = .default ∨ ∀ a ∈ rows, ∀ b ∈ rows, key a = key b → a = b) ↔
      ∀ a ∈ rows, ∀ b ∈ rows, key a = key b → a = b := by
    refine or_iff_right_of_imp fun h a ha b hb htie ↦ ?_
    rw [← hkey, h] at htie
    have hid : a.id = b.id := Int.ofNat_inj.1 (neg_inj.1 htie)
    exact List.inj_on_of_nodup_map hids ha hb hid
  rw [hdefault, ← all_shown_iff hids.of_map (le_max_right 1 rows.length)]
  constructor
  · intro h answers hanswers
    obtain ⟨pages, hpages, hperm⟩ := h (fun p ↦ answers (p - 1)) fun p ↦ hanswers (p - 1)
    rw [browse_eq sort fun p ↦ (hanswers (p - 1)).perm.length_eq] at hpages
    rw [← Option.some.inj hpages] at hperm
    exact hperm
  · intro h answers hanswers
    refine ⟨_, browse_eq sort fun p ↦ (hanswers p).perm.length_eq, ?_⟩
    exact h (fun i ↦ answers (i + 1)) fun i ↦ hanswers (i + 1)

/-- A product of type 1 at 2.50. -/
def cheap (id : ℕ) : ListedSKU where
  id := id
  type := 1
  price := .lit 250 (.refl true)
  sales := .lit 0 (.refl true)

/-- Two products at one price. -/
def twoCheap : Catalogue where
  skus := [cheap 1, cheap 2]
  nodup := by decide

/-- **A product that no page shows**: the two products tie, the first page shows the one and the second
page shows it again. -/
theorem never_shown : ∃ answers : ℕ → List ListedSKU,
    (∀ p, SortedBy (SortBy.ofParam (some "price".toList)).key (twoCheap.ofType 1) (answers p)) ∧
      browse (twoCheap.ofType 1) answers (some "price".toList) = some [[cheap 1], [cheap 1]] := by
  let answers (p : ℕ) := if p = 1 then [cheap 1, cheap 2] else [cheap 2, cheap 1]
  have hanswers : ∀ p, SortedBy (SortBy.ofParam (some "price".toList)).key (twoCheap.ofType 1)
      (answers p) := by
    intro p
    by_cases hp : p = 1
    · rw [show answers p = _ from if_pos hp]
      exact ⟨by decide, by decide⟩
    · rw [show answers p = _ from if_neg hp]
      exact ⟨by decide, by decide⟩
  refine ⟨answers, hanswers, ?_⟩
  rw [browse_eq _ fun p ↦ (hanswers p).perm.length_eq]
  rfl

end DailyFresh
