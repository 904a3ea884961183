import DailyFresh.Results.Paging
import DailyFresh.Site.OrderList

/-!
# Page numbers and page links

`ListView.get` and `UserOrderView.get` take the number of a page from the URL, go to page 1 if it is too
large, and link a window of at most five pages. `pages_valid_iff`: the page exists, it is the requested one
if there is such a page, and the links are a run of the right length around it, for every number of items
and every page segment that does not denote zero. The views do not look whether the number is too *small*:
page 0 raises `EmptyPage` (`page_zero`).
-/

namespace DailyFresh

open Python Store

/-- Five page numbers in a row, or all if there are not so many, that contain the current one. -/
structure ValidLinks (numPages : ℕ) (number : ℤ) (pages : List ℤ) : Prop where
  consecutive : ∃ first last, pages = Int.range first last
  within : ∀ i ∈ pages, 1 ≤ i ∧ i ≤ numPages
  mem : number ∈ pages
  length : pages.length = min 5 numPages

/-- The page that is served for a segment of the URL, and its links. -/
structure ValidPage (numPages : ℕ) (page : PageSegment) (number : ℤ) (pages : List ℤ) : Prop where
  one_le : 1 ≤ number
  le_numPages : number ≤ numPages
  requested : ∀ n, int page.text = some n → 1 ≤ n → n ≤ numPages → number = n
  links : ValidLinks numPages number pages

/-! ### The links -/

theorem length_range (first last : ℤ) : (Int.range first last).length = (last - first).toNat := by
  rw [Int.range, List.length_map, List.length_range]

/-- A window that contains the current page. -/
theorem ValidLinks.of_range {numPages : ℕ} {number first last : ℤ} (hone : 1 ≤ first)
    (hlast : last ≤ numPages + 1) (hmem : first ≤ number ∧ number < last)
    (hlength : last - first = min 5 numPages) :
    ValidLinks numPages number (Int.range first last) where
  consecutive := ⟨first, last, rfl⟩
  within i hi := by
    obtain ⟨hfirst, hlt⟩ := Int.mem_range_iff.1 hi
    exact ⟨by omega, by omega⟩
  mem := Int.mem_range_iff.2 hmem
  length := by
    rw [length_range]
    omega

/-- **The window of links** is right for every page that exists. The cases are those of the source: few
pages, the first two, the last three, any other. -/
theorem validLinks_pages {numPages : ℕ} {number : ℤ} (hone : 1 ≤ number) (hle : number ≤ numPages) :
    ValidLinks numPages number (ListView.pages numPages number) := by
  rw [ListView.pages]
  split
  · exact .of_range (by omega) (by omega) (by omega) (by omega)
  split
  · exact .of_range (by omega) (by omega) (by omega) (by omega)
  split
  · exact .of_range (by omega) (by omega) (by omega) (by omega)
  · exact .of_range (by omega) (by omega) (by omega) (by omega)

/-! ### The page -/

namespace Paginator

variable {α : Type} (paginator : Paginator α)

theorem one_le_numPages (hperPage : paginator.perPage = 1) : 1 ≤ paginator.numPages := by
  rw [numPages, hperPage, Nat.div_one]
  omega

/-- A page exists if its number is in range. -/
theorem page_isSome_iff (number : ℤ) :
    (paginator.page number).isSome = true ↔ 1 ≤ number ∧ number ≤ paginator.numPages := by
  rw [page]
  split
  · rename_i h
    exact iff_of_true rfl h
  · rename_i h
    exact iff_of_false (fun hnone ↦ by cases hnone) h

/-- The page that the list views go to. -/
def chosen (page : Str) : ℤ :=
  let page := (int page).getD 1
  if page > paginator.numPages then 1 else page

end Paginator

theorem PageSegment.int_text (page : PageSegment) :
    int page.text = some ((ofDigits 0 page.text : ℕ) : ℤ) := int_of_digits page.ne_nil page.digits

/-- A segment denotes zero if all of its digits are zeros. -/
theorem PageSegment.ofDigits_pos_iff (page : PageSegment) :
    0 < ofDigits 0 page.text ↔ ∃ c ∈ page.text, digitValue c ≠ some 0 := by
  rw [Nat.pos_iff_ne_zero, ne_eq, ofDigits_eq_zero_iff, eq_self_iff_true, true_and, not_forall]
  simp only [not_forall, exists_prop]
  refine exists_congr fun c ↦ and_congr_right fun hc ↦ not_congr ?_
  obtain ⟨d, hd⟩ := Option.isSome_iff_exists.1 (page.digits c hc)
  rw [hd, Option.getD_some, Option.some.injEq]

section Chosen

variable {α : Type} (paginator : Paginator α) (page : PageSegment)

/-- **The chosen page**: it is valid with the links of `ListView` unless the segment denotes zero, and then
it does not exist. -/
theorem validPage_chosen_iff (hperPage : paginator.perPage = 1) :
    (∃ shown, paginator.page (paginator.chosen page.text) = some shown ∧
        ValidPage paginator.numPages page (paginator.chosen page.text)
          (ListView.pages paginator.numPages (paginator.chosen page.text))) ↔
      ∃ c ∈ page.text, digitValue c ≠ some 0 := by
  rw [← page.ofDigits_pos_iff]
  have hchosen : paginator.chosen page.text =
      if (ofDigits 0 page.text : ℤ) > paginator.numPages then 1 else (ofDigits 0 page.text : ℤ) := by
    rw [Paginator.chosen, page.int_text, Option.getD_some]
  have hnumPages := paginator.one_le_numPages hperPage
  constructor
  · rintro ⟨shown, -, hvalid⟩
    have hone := hvalid.one_le
    rw [hchosen] at hone
    split at hone
    · omega
    · omega
  · intro hpos
    have hone : 1 ≤ paginator.chosen page.text := by
      rw [hchosen]
      split
      · exact le_rfl
      · omega
    have hle : paginator.chosen page.text ≤ paginator.numPages := by
      rw [hchosen]
      split
      · omega
      · omega
    obtain ⟨shown, hshown⟩ := Option.isSome_iff_exists.1 ((paginator.page_isSome_iff _).2 ⟨hone, hle⟩)
    refine ⟨shown, hshown, hone, hle, fun n hn _ hlast ↦ ?_, validLinks_pages hone hle⟩
    obtain rfl := Option.some.inj (page.int_text.symm.trans hn)
    rw [hchosen, if_neg (by omega)]

end Chosen

/-- A view serves what it makes of the page that the paginator gives it. -/
theorem exists_served_iff {α β : Type} {o : Option α} {f : α → β} {P : β → Prop} {Q : Prop}
    (h : ∀ a, P (f a) ↔ o = some a ∧ Q) : (∃ b, o.map f = some b ∧ P b) ↔ ∃ a, o = some a ∧ Q := by
  constructor
  · rintro ⟨_, hb, hP⟩
    obtain ⟨a, -, rfl⟩ := Option.map_eq_some_iff.1 hb
    exact ⟨a, (h a).1 hP⟩
  · rintro ⟨a, ha, hQ⟩
    exact ⟨f a, Option.map_eq_some_iff.2 ⟨a, ha, rfl⟩, (h a).2 ⟨ha, hQ⟩⟩

/-- **Page numbers and page links**: for every number of items and every page segment, `ListView` serves a
valid page with valid links exactly if the segment has another digit than zeros, and so does
`UserOrderView`. -/
theorem pages_valid_iff (skus : List ListedSKU) (sort : Option Str) (orders : List OrderObject)
    (lines : Str → List OrderGoods) (page : PageSegment) :
    ((∃ context, ListView.context skus sort page.text = some context ∧
        (Paginator.mk skus 1).page context.number = some context.skusPage ∧
        ValidPage (Paginator.mk skus 1).numPages page context.number context.pages) ↔
      ∃ c ∈ page.text, digitValue c ≠ some 0) ∧
    ((∃ context, UserOrderView.context orders lines page.text = some context ∧
        (Paginator.mk (orders.map (UserOrderView.showOrder lines)) 1).page context.number =
          some context.orderPage ∧
        ValidPage (Paginator.mk orders 1).numPages page context.number context.pages) ↔
      ∃ c ∈ page.text, digitValue c ≠ some 0) := by
  have hnumPages : (Paginator.mk (orders.map (UserOrderView.showOrder lines)) 1).numPages =
      (Paginator.mk orders 1).numPages := by
    rw [Paginator.numPages, Paginator.numPages, List.length_map]
  rw [← hnumPages]
  constructor
  · rw [← validPage_chosen_iff (Paginator.mk skus 1) page rfl]
    exact exists_served_iff fun _ ↦ Iff.rfl
  · rw [← validPage_chosen_iff (Paginator.mk (orders.map (UserOrderView.showOrder lines)) 1) page rfl]
    exact exists_served_iff fun _ ↦ Iff.rfl

/-- The segment `0`. -/
def zeroSegment : PageSegment where
  text := "0".toList
  ne_nil := List.cons_ne_nil _ _
  digits := List.forall_mem_singleton.2 rfl

/-- **Page 0** raises `EmptyPage` in both views: with one product on the list, and without any order. -/
theorem page_zero : ListView.context [cheap 1] none zeroSegment.text = none ∧
    UserOrderView.context [] (fun _ ↦ []) zeroSegment.text = none := by decide

end DailyFresh
