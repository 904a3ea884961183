import DailyFresh.Results.CartPage
import Mathlib.Algebra.Order.BigOperators.Group.List

/-!
# The tally of the cart page

The number of checked pieces is recomputed where the script thinks of it, and not elsewhere: it is kept up to
date all the same (`pieces_tally`), whatever the site answers and whichever requests are killed. While a
quantity is being typed, it counts the quantity from before; so an answer to a deletion may not arrive then,
for it would count what has been typed so far.
-/

namespace DailyFresh

open Python Interleave

variable {ι : Type} {N : Numbers}

/-! ### What is counted -/

/-- What a row contributes to the tally. -/
def CartRow.counted (row : CartRow) : Option Str :=
  if (row.attached && row.checked) = true then some row.val else none

theorem filterMap_eq_of_getElem? {α β : Type} {f : α → Option β} :
    ∀ {l l' : List α}, (∀ i : ℕ, l[i]?.bind f = l'[i]?.bind f) → l.filterMap f = l'.filterMap f
  | [], l', h => by
    symm
    rw [List.filterMap_nil, List.filterMap_eq_nil_iff]
    intro a ha
    obtain ⟨i, hi⟩ := List.mem_iff_getElem?.1 ha
    have hnone := h i
    rw [hi, List.getElem?_nil] at hnone
    exact hnone.symm
  | a :: l, [], h => by
    have ih : l.filterMap f = [].filterMap f := filterMap_eq_of_getElem? fun i ↦ h (i + 1)
    have hnone : f a = none := h 0
    rw [List.filterMap_cons_none hnone, ih]
  | a :: l, a' :: l', h => by
    have ih : l.filterMap f = l'.filterMap f := filterMap_eq_of_getElem? fun i ↦ h (i + 1)
    have hhead : f a = f a' := h 0
    rw [List.filterMap_cons, List.filterMap_cons, hhead, ih]

namespace CartPage

variable {page page' : CartPage}

theorem map_checkedRows (page : CartPage) :
    page.checkedRows.map CartRow.val = page.rows.filterMap CartRow.counted := by
  rw [checkedRows, ← List.filterMap_eq_filter, List.map_filterMap]
  congr 1
  funext row
  rw [CartRow.counted]
  by_cases h : (row.attached && row.checked) = true
  · rw [Option.guard, if_pos h, if_pos h]
    rfl
  · rw [Option.guard, if_neg h, if_neg h]
    rfl

/-- The tally is one of what the rows contribute. -/
theorem totalCount_congr (h : ∀ i : ℕ, page.rows[i]?.bind CartRow.counted = page'.rows[i]?.bind CartRow.counted) :
    page.totalCount N = page'.totalCount N := by
  have hvals : page.checkedRows.map CartRow.val = page'.checkedRows.map CartRow.val := by
    rw [map_checkedRows, map_checkedRows, filterMap_eq_of_getElem? h]
  have hfold : ∀ page : CartPage, page.totalCount N = (page.checkedRows.map CartRow.val).reverse.foldl
      (fun totalCount val ↦ N.add totalCount (N.parseInt val)) (N.ofInt 0) := by
    intro page
    rw [totalCount, ← List.map_reverse, List.foldl_map]
  rw [hfold, hfold, hvals]

end CartPage

/-- A sum of quantities that stays safe. -/
theorem foldl_add (hlawful : N.Lawful) (counts : List ℤ) (n : ℤ)
    (hsafe : |n| + (counts.map fun count ↦ |count|).sum ≤ maxSafe) :
    (counts.map intStr).foldl (fun totalCount val ↦ N.add totalCount (N.parseInt val)) (N.ofInt n) =
      N.ofInt (n + counts.sum) := by
  induction counts generalizing n with
  | nil => rw [List.sum_nil, add_zero]; rfl
  | cons count counts ih =>
    rw [List.map_cons, List.sum_cons] at hsafe
    have hrest : 0 ≤ (counts.map fun count ↦ |count|).sum :=
      List.sum_nonneg fun x hx ↦ by
        obtain ⟨m, -, rfl⟩ := List.mem_map.1 hx
        exact abs_nonneg m
    have hadd : |n + count| ≤ |n| + |count| := abs_add_le n count
    have hn : 0 ≤ |n| := abs_nonneg n
    have hcount : 0 ≤ |count| := abs_nonneg count
    rw [List.map_cons, List.foldl_cons, hlawful.parseInt_intStr count (by omega),
      hlawful.add_ofInt n count (by omega) (by omega) (by omega), ih (n + count) (by omega), List.sum_cons,
      add_assoc]

/-- The text of a safe tally. -/
theorem CartPage.text_totalCount (hlawful : N.Lawful) {page : CartPage} {counts : List ℤ}
    (h : page.checkedRows.map CartRow.val = counts.map intStr)
    (hsafe : (counts.map fun count ↦ |count|).sum ≤ maxSafe) :
    N.text (page.totalCount N) = intStr counts.sum := by
  have hsum := foldl_add hlawful counts.reverse 0 (by
    rw [List.map_reverse, List.sum_reverse, abs_zero, zero_add]
    exact hsafe)
  rw [List.sum_reverse, zero_add] at hsum
  have htotal : page.totalCount N = N.ofInt counts.sum := by
    rw [totalCount, ← hsum, List.map_reverse, ← h, ← List.map_reverse, List.foldl_map]
  rw [htotal]
  exact hlawful.text_ofInt _ ((List.le_sum_of_subadditive _ abs_zero.le abs_add_le _).trans hsafe)

/-! ### What is being typed -/

/-- The row whose quantity has been typed. -/
def Callback.typed {Num : Type} : Callback Num → Option ℕ
  | .updated i _ true => some i
  | _ => none

theorem typed_of_not_sync {Num : Type} {k : Callback Num} (h : k.sync = false) : k.typed = none := by
  cases k with
  | updated i count typed => cases h
  | deleted i => rfl

namespace CartPage

/-- The input of the row has the focus. -/
def focused (page : CartPage) (i : ℕ) : Bool := decide (page.focus = some i)

/-- The page with `old_count` in the rows that are being typed. -/
def settle (page : CartPage) (typing : ℕ → Bool) : CartPage :=
  { page with
    rows := page.rows.mapIdx fun i row ↦ if typing i then { row with val := page.oldCount } else row }

variable {page page' : CartPage} {typing typing' : ℕ → Bool}

theorem rows_settle (page : CartPage) (typing : ℕ → Bool) (i : ℕ) : (page.settle typing).rows[i]? =
    page.rows[i]?.map fun row ↦ if typing i then { row with val := page.oldCount } else row :=
  List.getElem?_mapIdx

theorem settle_none (h : ∀ i, typing i = false) : page.settle typing = page := by
  have hrows : (page.settle typing).rows = page.rows := by
    refine List.ext_getElem? fun i ↦ ?_
    rw [rows_settle, h i]
    exact Option.map_id' ..
  cases page
  exact congrArg (CartPage.mk · ..) hrows

end CartPage

section Steps

variable {page page' : CartPage} {e : CartEvent} {request : Option (Ajax × Callback N.Num)} {reply : Reply}
  {i : ℕ} {row : CartRow}

/-- What is typed after an event. -/
def typingAfter (page : CartPage) (request : Option (Ajax × Callback N.Num)) (i : ℕ) : Bool :=
  page.focused i || request.any fun x ↦ decide (x.2.typed = some i)

theorem typingAfter_eq_false {i : ℕ} (hfocus : page.focus ≠ some i) (htyped : ∀ x ∈ request, x.2.typed = none) :
    typingAfter page request i = false := by
  rw [typingAfter, CartPage.focused, decide_eq_false hfocus, Bool.false_or]
  rcases request with - | ⟨ajax, k⟩
  · rfl
  · have hnone : k.typed = none := htyped _ rfl
    show decide (k.typed = some i) = false
    rw [hnone]
    rfl

/-- **What an event does to the tally**: it still counts the rows as they were before they are typed. -/
theorem pieces_of_act (h : page.act N e = some (page', request))
    (hpieces : page.pieces = N.text ((page.settle page.focused).totalCount N)) :
    page'.pieces = N.text ((page'.settle (typingAfter page' request)).totalCount N) := by
  -- the events that happen while nothing is typed, and after which nothing is
  have hidle : page.focus = none → page.pieces = N.text (page.totalCount N) := by
    intro hfocus
    rw [hpieces, CartPage.settle_none fun i ↦ ?_]
    rw [CartPage.focused, hfocus]
    rfl
  have hquiet : page.focus = none → page'.focus = none → (∀ x ∈ request, x.2.typed = none) →
      page'.pieces = N.text (page'.totalCount N) →
      page'.pieces = N.text ((page'.settle (typingAfter page' request)).totalCount N) := by
    intro _ hfocus' htyped h
    rw [CartPage.settle_none fun i ↦ typingAfter_eq_false (by rw [hfocus']; exact fun h ↦ by cases h) htyped]
    exact h
  cases e with
  | selectAll =>
    rw [CartPage.act] at h
    split at h
    · rename_i hfocus
      cases h
      exact hquiet hfocus hfocus (fun _ hx ↦ by cases hx) rfl
    · cases h
  | check i =>
    obtain ⟨row, hrow, heq⟩ := Option.map_eq_some_iff.1 h
    obtain ⟨hfocus, -⟩ := CartPage.clicked_eq_some hrow
    cases heq
    exact hquiet hfocus hfocus (fun _ hx ↦ by cases hx) rfl
  | add i =>
    obtain ⟨row, hrow, heq⟩ := Option.map_eq_some_iff.1 h
    obtain ⟨hfocus, -⟩ := CartPage.clicked_eq_some hrow
    cases heq
    exact hquiet hfocus hfocus (fun _ hx ↦ by cases hx; rfl) (hidle hfocus)
  | minus i =>
    obtain ⟨row, hrow, heq⟩ := Option.map_eq_some_iff.1 h
    obtain ⟨hfocus, -⟩ := CartPage.clicked_eq_some hrow
    dsimp only at heq
    split at heq
    · cases heq
      exact hquiet hfocus hfocus (fun _ hx ↦ by cases hx) (hidle hfocus)
    · cases heq
      exact hquiet hfocus hfocus (fun _ hx ↦ by cases hx; rfl) (hidle hfocus)
  | delete i =>
    obtain ⟨row, hrow, heq⟩ := Option.map_eq_some_iff.1 h
    obtain ⟨hfocus, -⟩ := CartPage.clicked_eq_some hrow
    cases heq
    exact hquiet hfocus hfocus (fun _ hx ↦ by cases hx; rfl) (hidle hfocus)
  | focus i =>
    obtain ⟨row, hrow, heq⟩ := Option.map_eq_some_iff.1 h
    obtain ⟨hfocus, hrow, -⟩ := CartPage.clicked_eq_some hrow
    cases heq
    refine (hidle hfocus).trans (congrArg N.text (CartPage.totalCount_congr fun j ↦ ?_))
    rw [CartPage.rows_settle]
    by_cases hij : i = j
    · -- `old_count` is what the row shows
      subst hij
      show page.rows[i]?.bind _ = (page.rows[i]?.map _).bind _
      rw [hrow, Option.map_some]
      split
      · rfl
      · rfl
    · rw [typingAfter_eq_false (fun h ↦ hij (Option.some.inj h)) fun _ hx ↦ by cases hx]
      exact congrArg (Option.bind · _) (Option.map_id' ..).symm
  | type i text =>
    rw [CartPage.act] at h
    split at h
    swap
    · cases h
    rename_i hfocus
    cases h
    refine hpieces.trans (congrArg N.text (CartPage.totalCount_congr fun j ↦ ?_))
    rw [CartPage.rows_settle, CartPage.rows_settle, CartPage.rows_modify, Option.map_map]
    have htyping : typingAfter (page.modify i fun row ↦ { row with val := text })
        (none : Option (Ajax × Callback N.Num)) j = page.focused j := Bool.or_false _
    rw [htyping]
    by_cases hij : i = j
    · subst hij
      have hfocused : page.focused i = true := decide_eq_true hfocus
      simp only [hfocused, if_true]
      rfl
    · simp only [if_neg hij]
      rfl
  | blur i =>
    rw [CartPage.act] at h
    split at h
    swap
    · cases h
    rename_i hfocus
    obtain ⟨row, hrow, heq⟩ := Option.map_eq_some_iff.1 h
    have hfocused : ∀ j, page.focused j = decide (i = j) := fun j ↦ by
      rw [CartPage.focused, hfocus]
      exact decide_eq_decide.2 Option.some_inj
    dsimp only at heq
    split at heq
    · cases heq
      refine hpieces.trans (congrArg N.text (CartPage.totalCount_congr fun j ↦ ?_))
      rw [CartPage.settle_none fun _ ↦ typingAfter_eq_false (fun h ↦ (by cases h)) fun _ hx ↦ (by cases hx),
        CartPage.rows_settle, CartPage.rows_modify, hfocused]
      simp only [decide_eq_true_eq]
    · cases heq
      refine hpieces.trans (congrArg N.text (CartPage.totalCount_congr fun j ↦ ?_))
      rw [CartPage.rows_settle, CartPage.rows_settle, hfocused]
      have htyping : typingAfter { page with focus := none } (some (Ajax.update row.skuId
          (N.text (N.parseInt row.val)), Callback.updated i (N.parseInt row.val) true)) j = decide (i = j) := by
        show (decide ((none : Option ℕ) = some j) || decide (some i = some j)) = _
        rw [decide_eq_false (fun h ↦ by cases h), Bool.false_or]
        exact decide_eq_decide.2 Option.some_inj
      rw [htyping]

/-- Settling one row. -/
theorem totalCount_settle {typing : ℕ → Bool} (htyping : ∀ j, typing j = decide (i = j)) :
    (page.settle typing).totalCount N =
      (page.modify i fun row ↦ { row with val := page.oldCount }).totalCount N := by
  refine CartPage.totalCount_congr fun j ↦ ?_
  rw [CartPage.rows_settle, CartPage.rows_modify, htyping]
  simp only [decide_eq_true_eq]

theorem counted_of_not_checked (h : row.checked = false) : row.counted = none := by
  rw [CartRow.counted, h, Bool.and_false]
  rfl

/-- The answer to an update of a row keeps the tally. -/
theorem pieces_of_updated {count : N.Num} {typed : Bool}
    (hpieces : page.pieces = N.text ((page.settle fun j ↦
      decide ((Callback.updated i count typed).typed = some j)).totalCount N)) :
    (page.callback N (.updated i count typed) reply).pieces =
      N.text ((page.callback N (.updated i count typed) reply).totalCount N) := by
  rw [CartPage.callback]
  split
  · -- the row shows the new quantity
    dsimp only
    split
    · rfl
    · rename_i hchecked
      refine hpieces.trans (congrArg N.text (CartPage.totalCount_congr fun j ↦ ?_))
      rw [CartPage.rows_settle, CartPage.rows_modify]
      by_cases hij : i = j
      · subst hij
        rw [CartPage.rows_modify] at hchecked
        rcases hrow : page.rows[i]? with - | row
        · rfl
        rw [hrow, Option.map_some, if_pos rfl] at hchecked
        have hchecked : row.checked = false := Bool.eq_false_iff.2 hchecked
        rw [Option.map_some, Option.map_some, if_pos rfl]
        have hnew : ({ row with val := N.text count } : CartRow).counted = none := counted_of_not_checked hchecked
        refine Eq.trans ?_ hnew.symm
        show CartRow.counted (if _ then _ else _) = none
        split
        · exact counted_of_not_checked hchecked
        · exact counted_of_not_checked hchecked
      · have htyping : decide ((Callback.updated i count typed).typed = some j) = false := by
          cases typed with
          | true => exact decide_eq_false fun h ↦ hij (Option.some.inj h)
          | false => rfl
        simp only [htyping, if_neg hij]
        rfl
  · -- the row shows the old one
    cases typed with
    | true => exact hpieces.trans (congrArg N.text (totalCount_settle fun j ↦ decide_eq_decide.2 Option.some_inj))
    | false =>
      rw [CartPage.settle_none fun j ↦ decide_eq_false fun h ↦ (by cases h)] at hpieces
      exact hpieces

/-- The answer to a deletion keeps the tally, if nothing is being typed. -/
theorem pieces_of_deleted (hpieces : page.pieces = N.text (page.totalCount N)) :
    (page.callback N (.deleted i) reply).pieces = N.text ((page.callback N (.deleted i) reply).totalCount N) := by
  have hremove : ∀ n, (page.removeSkuUl N n).pieces = N.text ((page.removeSkuUl N n).totalCount N) := by
    intro n
    rw [CartPage.removeSkuUl]
    split
    · exact hpieces
    rename_i i hskuUl
    split
    · exact hpieces
    rename_i row hrow
    dsimp only
    split
    · rfl
    · rename_i hchecked
      refine hpieces.trans (congrArg N.text (CartPage.totalCount_congr fun j ↦ ?_))
      show page.rows[j]?.bind _ = (page.modify i _).rows[j]?.bind _
      rw [CartPage.rows_modify]
      by_cases hij : i = j
      · subst hij
        rw [hrow, Option.map_some, if_pos rfl]
        exact counted_of_not_checked (Bool.eq_false_iff.2 hchecked)
      · simp only [if_neg hij]
        rw [Option.map_id']
  cases reply with
  | error => exact hpieces
  | _ =>
    rw [CartPage.callback]
    · split
      · exact hremove _
      · exact hpieces
    · exact fun h ↦ (by cases h)

end Steps

/-! ### The select-all box -/

/-- If the select-all box is checked, so is every row. -/
def CartPage.AllChecked (page : CartPage) : Prop :=
  page.selectAll = true → ∀ row ∈ page.rows, row.attached = true → row.checked = true

theorem CartPage.AllChecked.modify {page : CartPage} (h : page.AllChecked) (i : ℕ) {f : CartRow → CartRow}
    (hf : ∀ row, (f row).attached = true → row.attached = true ∧ (f row).checked = row.checked) :
    (page.modify i f).AllChecked := by
  intro hselect row hrow hattached
  obtain ⟨j, hj⟩ := List.mem_iff_getElem?.1 hrow
  rw [rows_modify] at hj
  obtain ⟨old, hold, rfl⟩ := Option.map_eq_some_iff.1 hj
  have hmem := List.mem_of_getElem? hold
  split at hattached
  · rename_i hij
    obtain ⟨hattached, hchecked⟩ := hf old hattached
    rw [if_pos hij, hchecked]
    exact h hselect old hmem hattached
  · rename_i hij
    rw [if_neg hij]
    exact h hselect old hmem hattached

theorem allChecked_of_act {page page' : CartPage} {e : CartEvent} {request : Option (Ajax × Callback N.Num)}
    (h : page.act N e = some (page', request)) (hall : page.AllChecked) : page'.AllChecked := by
  cases e with
  | selectAll =>
    rw [CartPage.act] at h
    split at h
    · cases h
      intro hselect row hrow hattached
      obtain ⟨old, -, rfl⟩ := List.mem_map.1 hrow
      split at hattached
      · rename_i hold
        rw [if_pos hold]
        exact hselect
      · rename_i hold
        exact absurd hattached hold
    · cases h
  | check i =>
    obtain ⟨row, -, heq⟩ := Option.map_eq_some_iff.1 h
    cases heq
    intro hselect row hrow hattached
    -- as many rows are checked as there are
    have hle := Nat.not_lt.1 (of_decide_eq_false ((Bool.not_eq_true' _).mp hselect))
    generalize page.modify i (fun row ↦ { row with checked := !row.checked }) = page at hrow hle
    have hfilter : page.checkedRows = (page.rows.filter CartRow.attached).filter CartRow.checked := by
      rw [CartPage.checkedRows, List.filter_filter]
      exact List.filter_congr fun _ _ ↦ Bool.and_comm ..
    rw [hfilter] at hle
    exact List.length_filter_eq_length_iff.1 (le_antisymm (List.length_filter_le ..) hle) row
      (List.mem_filter.2 ⟨hrow, hattached⟩)
  | add i =>
    obtain ⟨row, -, heq⟩ := Option.map_eq_some_iff.1 h
    cases heq
    exact hall
  | minus i =>
    obtain ⟨row, -, heq⟩ := Option.map_eq_some_iff.1 h
    dsimp only at heq
    split at heq
    · cases heq
      exact hall
    · cases heq
      exact hall
  | focus i =>
    obtain ⟨row, -, heq⟩ := Option.map_eq_some_iff.1 h
    cases heq
    exact hall
  | type i text =>
    rw [CartPage.act] at h
    split at h
    · cases h
      exact hall.modify i fun _ hattached ↦ ⟨hattached, rfl⟩
    · cases h
  | blur i =>
    rw [CartPage.act] at h
    split at h
    · obtain ⟨row, -, heq⟩ := Option.map_eq_some_iff.1 h
      dsimp only at heq
      have hblur : ({ page with focus := none } : CartPage).AllChecked := hall
      split at heq
      · cases heq
        exact hblur.modify i fun _ hattached ↦ ⟨hattached, rfl⟩
      · cases heq
        exact hblur
    · cases h
  | delete i =>
    obtain ⟨row, -, heq⟩ := Option.map_eq_some_iff.1 h
    cases heq
    exact hall

theorem allChecked_callback {page : CartPage} (k : Callback N.Num) (reply : Reply) (hall : page.AllChecked) :
    (page.callback N k reply).AllChecked := by
  cases k with
  | updated i count typed =>
    rw [CartPage.callback]
    split
    · have hwritten := hall.modify i (f := fun row ↦ { row with val := N.text count })
        fun _ hattached ↦ ⟨hattached, rfl⟩
      dsimp only
      split
      · exact hwritten
      · exact hwritten
    · cases typed with
      | true => exact hall.modify i fun _ hattached ↦ ⟨hattached, rfl⟩
      | false => exact hall
  | deleted i =>
    have hremove : ∀ n, (page.removeSkuUl N n).AllChecked := by
      intro n
      rw [CartPage.removeSkuUl]
      split
      · exact hall
      rename_i i hskuUl
      split
      · exact hall
      have hgone := hall.modify i (f := fun row ↦ { row with attached := false }) fun _ h ↦ (by cases h)
      dsimp only
      split
      · exact hgone
      · exact hgone
    cases reply with
    | error => exact hall
    | _ =>
      rw [CartPage.callback]
      · split
        · exact hremove _
        · exact hall
      · exact fun h ↦ (by cases h)

/-! ### Runs -/

section Runs

variable [DecidableEq ι] {posts : ℕ → Ajax} {v v' : CartVisit N ι}

/-- The row is being typed: its input has the focus, or the update that `blur` has posted is unanswered. -/
def CartVisit.typing (v : CartVisit N ι) (i : ℕ) : Bool :=
  v.page.focused i || v.waiting.any fun x ↦ decide (x.2.typed = some i)

/-- The tally counts what the rows showed before they were typed. -/
structure Tallied (v : CartVisit N ι) : Prop where
  free : ∀ x ∈ v.waiting, x.2.sync = true → v.page.focus = none
  lone : ∀ x ∈ v.waiting, ∀ y ∈ v.waiting, x.2.sync = true → y.2.sync = true → x = y
  pieces : v.page.pieces = N.text ((v.page.settle (CartVisit.typing v)).totalCount N)
  all : v.page.AllChecked

/-- No answer arrives while a quantity is being typed. -/
def Undisturbed (v : CartVisit N ι) : VisitMove ι CartEvent → Prop
  | .answer _ => v.page.focus = none
  | _ => True

instance decidableUndisturbed (v : CartVisit N ι) : ∀ m, Decidable (Undisturbed v m)
  | .answer _ => inferInstanceAs (Decidable (v.page.focus = none))
  | .site _ => isTrue trivial
  | .act _ => isTrue trivial

omit [DecidableEq ι] in
/-- Only an update that waits has been typed. -/
theorem any_typed_of_free {waiting : List (ℕ × Callback N.Num)} (h : ∀ x ∈ waiting, x.2.sync = false) (i : ℕ) :
    (waiting.any fun x ↦ decide (x.2.typed = some i)) = false := by
  refine List.any_eq_false.2 fun x hx ↦ ?_
  rw [typed_of_not_sync (h x hx)]
  exact fun h ↦ (by cases of_decide_eq_true h)

omit [DecidableEq ι] in
/-- A callback gives no input the focus. -/
theorem focus_callback {page : CartPage} (h : page.focus = none) (k : Callback N.Num) (reply : Reply) :
    (page.callback N k reply).focus = none := by
  cases k with
  | updated i count typed =>
    rw [CartPage.callback]
    split
    · dsimp only
      split
      · exact h
      · exact h
    · cases typed with
      | true => exact h
      | false => exact h
  | deleted i =>
    have hremove : ∀ n, (page.removeSkuUl N n).focus = none := by
      intro n
      rw [CartPage.removeSkuUl]
      split
      · exact h
      rename_i i hskuUl
      split
      · exact h
      have hfocus : (if page.focus = some i then none else page.focus) = none := by rw [h, ite_self]
      dsimp only
      split
      · exact hfocus
      · exact hfocus
    cases reply with
    | error => exact h
    | _ =>
      rw [CartPage.callback]
      · split
        · exact hremove _
        · exact h
      · exact fun h ↦ (by cases h)

omit [DecidableEq ι] in
/-- A request is posted while nothing is edited. -/
theorem focus_of_post {page page' : CartPage} {e : CartEvent} {q : Ajax × Callback N.Num}
    (h : page.act N e = some (page', some q)) : page'.focus = none := by
  generalize hrequest : some q = request at h
  cases actStep_of_act h with
  | quiet => cases hrequest
  | post _ _ _ _ _ _ _ _ _ _ hfocus => exact hfocus

theorem Tallied.next (h : Tallied v) {m : VisitMove ι CartEvent} (hm : Undisturbed v m)
    (hn : (cartScript N).next (site (ℕ ⊕ ι)) posts v m = some v') : Tallied v' := by
  cases m with
  | site m =>
    obtain ⟨-, s, -, rfl⟩ := Script.next_site_cases hn
    exact ⟨h.free, h.lone, h.pieces, h.all⟩
  | act e =>
    obtain ⟨hblocked, page, request, hact, hcases⟩ := Script.next_act_cases hn
    have hfree : ∀ x ∈ v.waiting, (cartScript N).sync x.2 = false :=
      fun _ hx ↦ Visit.not_sync_of_not_blocked hblocked hx
    have htyping : CartVisit.typing v = v.page.focused := by
      funext i
      rw [CartVisit.typing, any_typed_of_free hfree, Bool.or_false]
    have hpieces := pieces_of_act hact (htyping ▸ h.pieces)
    have hall := allChecked_of_act hact h.all
    obtain ⟨rfl, rfl⟩ | ⟨k, rfl, rfl⟩ := hcases
    · refine ⟨fun x hx hsync ↦ ?_, h.lone, ?_, hall⟩
      · cases (hfree x hx).symm.trans hsync
      · have htyping' : CartVisit.typing { v with page } =
            typingAfter page (none : Option (Ajax × Callback N.Num)) := by
          funext i
          show (page.focused i || v.waiting.any _) = (page.focused i || false)
          rw [any_typed_of_free hfree]
        rw [htyping']
        exact hpieces
    · refine ⟨fun x hx hsync ↦ ?_, fun x hx y hy hsync hsync' ↦ ?_, ?_, hall⟩
      · rcases List.mem_cons.1 hx with rfl | hx
        · exact focus_of_post hact
        · cases (hfree x hx).symm.trans hsync
      · rcases List.mem_cons.1 hx with rfl | hx
        · rcases List.mem_cons.1 hy with rfl | hy
          · rfl
          · cases (hfree y hy).symm.trans hsync'
        · cases (hfree x hx).symm.trans hsync
      · have htyping' : CartVisit.typing { v with
            page
            posted := v.posted + 1
            waiting := (v.posted, k) :: v.waiting } = typingAfter page (some (posts v.posted, k)) := by
          funext i
          show (page.focused i || (decide (k.typed = some i) || v.waiting.any _)) = _
          rw [any_typed_of_free hfree, Bool.or_false]
          rfl
        rw [htyping']
        exact hpieces
  | answer n =>
    obtain ⟨k, reply, hk, -, hturn, rfl⟩ := Script.next_answer_cases hn
    have hfocus : v.page.focus = none := hm
    have hfocus' := focus_callback (N := N) hfocus k reply
    have hfocused : ∀ {page : CartPage} (i : ℕ), page.focus = none → page.focused i = false := fun i h ↦ by
      rw [CartPage.focused, h]
      rfl
    -- nothing is typed after the answer
    have hrest : ∀ x ∈ v.waiting.filter (fun x ↦ x.1 ≠ n), x.2.sync = false := by
      intro x hx
      obtain ⟨hx, hne⟩ := List.mem_filter.1 hx
      refine Bool.eq_false_iff.2 fun hsync ↦ ?_
      have hblocked : v.blocked (cartScript N) = true := List.any_eq_true.2 ⟨x, hx, hsync⟩
      exact of_decide_eq_true hne (congrArg Prod.fst (h.lone x hx (n, k) hk hsync (hturn hblocked)))
    have hsettled : ∀ page : CartPage, page.focus = none → page.settle (CartVisit.typing
        { v with page, waiting := v.waiting.filter fun x ↦ x.1 ≠ n }) = page := by
      intro page hfocus
      refine CartPage.settle_none fun i ↦ ?_
      show (page.focused i || (v.waiting.filter fun x ↦ x.1 ≠ n).any _) = false
      rw [any_typed_of_free hrest, hfocused i hfocus]
      rfl
    refine ⟨fun _ _ _ ↦ hfocus', fun x hx y hy ↦ h.lone x (List.mem_of_mem_filter hx) y
      (List.mem_of_mem_filter hy), ?_, allChecked_callback k reply h.all⟩
    refine Eq.trans ?_ (congrArg (fun page : CartPage ↦ N.text (page.totalCount N)) (hsettled _ hfocus')).symm
    cases k with
    | updated i count typed =>
      refine pieces_of_updated (h.pieces.trans ?_)
      have htyping : CartVisit.typing v = fun j ↦ decide ((Callback.updated i count typed).typed = some j) := by
        funext j
        rw [CartVisit.typing, hfocused j hfocus, Bool.false_or, Bool.eq_iff_iff, List.any_eq_true]
        refine ⟨fun ⟨x, hx, htyped⟩ ↦ ?_, fun htyped ↦ ⟨_, hk, htyped⟩⟩
        have hsync : x.2.sync = true := by
          by_contra hsync
          rw [typed_of_not_sync (Bool.eq_false_iff.2 hsync)] at htyped
          cases of_decide_eq_true htyped
        rwa [h.lone x hx _ hk hsync rfl] at htyped
      rw [htyping]
    | deleted i =>
      have hfree : ∀ x ∈ v.waiting, x.2.sync = false := fun x hx ↦ Bool.eq_false_iff.2 fun hsync ↦ by
        cases hturn (List.any_eq_true.2 ⟨x, hx, hsync⟩)
      refine pieces_of_deleted (h.pieces.trans ?_)
      rw [CartPage.settle_none fun j ↦ ?_]
      rw [CartVisit.typing, hfocused j hfocus, any_typed_of_free hfree]
      rfl

omit [DecidableEq ι] in
/-- The page starts with the sum of all quantities. -/
theorem tallied_opened (hlawful : N.Lawful) (s : State Services (ℕ ⊕ ι) (World (ℕ ⊕ ι)) Session Reply)
    {skus : List ShownSKU} (hsafe : (skus.map fun sku ↦ |sku.count|).sum ≤ maxSafe) :
    Tallied (CartVisit.opened s skus (skus.map ShownSKU.count).sum : CartVisit N ι) := by
  have hchecked : (CartPage.render skus (skus.map ShownSKU.count).sum).checkedRows = skus.map CartRow.render :=
    List.filter_eq_self.2 fun row hrow ↦ by
      obtain ⟨sku, -, rfl⟩ := List.mem_map.1 hrow
      rfl
  refine ⟨fun _ hx ↦ (by cases hx), fun _ hx ↦ (by cases hx), ?_, fun _ row hrow _ ↦ ?_⟩
  · have hsettled : (CartPage.render skus (skus.map ShownSKU.count).sum).settle
        (CartVisit.typing (CartVisit.opened s skus (skus.map ShownSKU.count).sum : CartVisit N ι)) =
          CartPage.render skus (skus.map ShownSKU.count).sum := CartPage.settle_none fun _ ↦ rfl
    have hvals : (CartPage.render skus (skus.map ShownSKU.count).sum).checkedRows.map CartRow.val =
        (skus.map ShownSKU.count).map intStr := by
      rw [hchecked, List.map_map, List.map_map]
      rfl
    have htext := CartPage.text_totalCount hlawful hvals (by rw [List.map_map]; exact hsafe)
    exact Eq.symm ((congrArg (fun page : CartPage ↦ N.text (page.totalCount N)) hsettled).trans htext)
  · obtain ⟨sku, -, rfl⟩ := List.mem_map.1 hrow
    rfl

theorem tallied_of_reach {v₀ : CartVisit N ι} (h₀ : Tallied v₀)
    (hv : (cartScript N).Reach (site (ℕ ⊕ ι)) posts Undisturbed v₀ v) : Tallied v :=
  hv.invariant (I := Tallied) h₀ fun _ _ _ _ h hm hn ↦ h.next hm hn

/-- **The number of pieces is right.** In every run of an open cart page in which no answer arrives while a
quantity is being typed, whatever the site does: the page shows the sum of the checked quantities, where a
quantity that is being typed counts as it was before; and the select-all box is checked only if every row
is. -/
theorem pieces_tally (hlawful : N.Lawful) {s : State Services (ℕ ⊕ ι) (World (ℕ ⊕ ι)) Session Reply}
    {skus : List ShownSKU} (hsafe : (skus.map fun sku ↦ |sku.count|).sum ≤ maxSafe)
    (hv : (cartScript N).Reach (site (ℕ ⊕ ι)) posts Undisturbed
      (CartVisit.opened s skus (skus.map ShownSKU.count).sum) v) :
    v.page.pieces = N.text ((v.page.settle (CartVisit.typing v)).totalCount N) ∧
      (v.page.selectAll = true → ∀ row ∈ v.page.rows, row.attached = true → row.checked = true) := by
  have htallied : Tallied v := tallied_of_reach (tallied_opened hlawful s hsafe) hv
  exact ⟨htallied.pieces, htallied.all⟩

end Runs

/-- The page that is used: one row is left, with two pieces. -/
theorem pieces_tally_usingPage : ∃ s v, (site (ℕ ⊕ Fin 4)).perform beforePage loadingPage = some s ∧
    (cartScript wholeNumbers).perform (site (ℕ ⊕ Fin 4)) posting (CartVisit.opened s pageItems 3) usingPage =
      some v ∧ v.page.pieces = "2".toList ∧
    v.page.pieces = wholeNumbers.text ((v.page.settle (CartVisit.typing v)).totalCount wholeNumbers) ∧
    (v.page.selectAll = true → ∀ row ∈ v.page.rows, row.attached = true → row.checked = true) := by
  have hloaded : ((site (ℕ ⊕ Fin 4)).perform beforePage loadingPage).isSome = true := by rfl
  obtain ⟨s, hs⟩ := Option.isSome_iff_exists.1 hloaded
  have hrun : ((site (ℕ ⊕ Fin 4)).perform beforePage loadingPage).map (fun s ↦
      ((cartScript wholeNumbers).perform (site (ℕ ⊕ Fin 4)) posting (CartVisit.opened s pageItems 3)
        usingPage).map fun v ↦ v.page.pieces) = some (some "2".toList) := by rfl
  have hundisturbed : ((site (ℕ ⊕ Fin 4)).perform beforePage loadingPage).map (fun s ↦
      decide ((cartScript wholeNumbers).AllMoves (site (ℕ ⊕ Fin 4)) posting Undisturbed usingPage
        (CartVisit.opened s pageItems 3))) = some true := by rfl
  rw [hs] at hrun hundisturbed
  obtain ⟨v, hv, hpieces⟩ := Option.map_eq_some_iff.1 (Option.some.inj hrun)
  have hreach := Script.reach_of_allMoves hv (of_decide_eq_true (Option.some.inj hundisturbed))
  obtain ⟨htally, hall⟩ := pieces_tally wholeNumbers_lawful (by decide) hreach
  exact ⟨s, v, hs, hv, hpieces, htally, hall⟩

end DailyFresh
