import DailyFresh.Concurrent.Counted
import DailyFresh.Results.CartOrder
import DailyFresh.Results.Retry
import DailyFresh.Results.Totals

/-!
# From the cart page to the order

The script of the order page sends the ids that the page carries, which are those of the checked rows of the cart
page (`order_lists_checked`), to `/order/commit`. If the checkout is answered with `res` 5, and has not given up an
item, then what was checked is what has been ordered: the order has one line for each checked row, with its
quantity, its number of pieces is the one that the cart page showed, and the rows are gone from the cart
(`checked_rows_ordered`). The other customers may buy the same products in the meantime.
-/

namespace DailyFresh

open Python Store Interleave Program

variable {ι : Type} [DecidableEq ι] {N : Numbers} {user : ℕ} {posts : ℕ → Ajax} {others : ι → Request} {db : Db}
  {carts : ℕ → Cart} {gateway : ℕ → Answer}
  {s₀ s₁ s : State Services (ℕ ⊕ ι) (World (ℕ ⊕ ι)) Session Reply} {t t' : ι} {skus : List ShownSKU}
  {totalCount : ℤ} {v : CartVisit N ι}

/-- The lines are of the products and quantities of the rows. -/
def RecordsRows (rows : List CartRow) (lines : List OrderGoods) : Prop :=
  List.Forall₂ (fun row line ↦ row.skuId = str line.sku ∧ row.val = intStr line.count.val) rows lines

theorem RecordsRows.vals {rows : List CartRow} {lines : List OrderGoods} (h : RecordsRows rows lines) :
    rows.map CartRow.val = (lines.map fun line ↦ line.count.val).map intStr :=
  vals_of_forall₂ (h.imp fun _ _ hrow ↦ hrow.2)

/-- Lines of items that were taken from the cart, under the ids of the rows. -/
theorem recordsRows_of_takenItems {cart : Cart} {rows : List CartRow} {items : List (Str × ℤ)}
    {lines : List OrderGoods}
    (hlines : List.Forall₂ (fun x line ↦ int x.1 = some (line.sku : ℤ) ∧ line.count.val = x.2) items lines)
    (hids : items.map Prod.fst = rows.map CartRow.skuId)
    (hitems : ∀ x ∈ items, ∃ k : ℕ, int x.1 = some (k : ℤ) ∧ cart.lookup (str k) = some x.2)
    (hrows : ∀ row ∈ rows, (∃ n : ℕ, row.skuId = str n) ∧ (cart.lookup row.skuId).map intStr = some row.val) :
    RecordsRows rows lines := by
  induction hlines generalizing rows with
  | nil =>
    obtain rfl := List.map_eq_nil_iff.1 hids.symm
    exact .nil
  | @cons x line items lines hline _ ih =>
    rcases rows with - | ⟨row, rows⟩
    · cases hids
    obtain ⟨hid, hids⟩ := List.cons.inj hids
    obtain ⟨hsku, hcount⟩ := hline
    obtain ⟨⟨n, hn⟩, hval⟩ := hrows row List.mem_cons_self
    obtain ⟨k, hk, hentry⟩ := hitems x List.mem_cons_self
    have hid : x.1 = str n := hid.trans hn
    rw [hid, int_str] at hk hsku
    have hn' : n = line.sku := Nat.cast_injective (Option.some.inj hsku)
    have hk' : n = k := Nat.cast_injective (Option.some.inj hk)
    refine .cons ⟨hn.trans (congrArg str hn'), ?_⟩ (ih hids (fun y hy ↦ hitems y (List.mem_cons_of_mem _ hy))
      fun row' hrow' ↦ hrows row' (List.mem_cons_of_mem _ hrow'))
    rw [hn, hk', hentry] at hval
    rw [hcount]
    exact (Option.some.inj hval).symm

/-- The request is the checkout, or leaves the cart alone. -/
def BesidesCheckout (user : ℕ) (others : ι → Request) (t : ι)
    (s : State Services (ℕ ⊕ ι) (World (ℕ ⊕ ι)) Session Reply) (m : Move (ℕ ⊕ ι)) : Prop :=
  m.process = .inr t ∨ LeavesAlone user others s m

/-- The ids of the checkout are those that the page has joined. -/
theorem ids_of_joined {c : Checkout} {ids : List Str} {req : HttpRequest} (hasks : req.Asks c)
    (hids : req.POST "sku_ids".toList = some (List.intercalate [','] ids)) (hcomma : ∀ id ∈ ids, ',' ∉ id) :
    c.ids = ids := by
  obtain ⟨hpost, hne⟩ := nonempty_eq_some_iff.1 hasks.skuIds
  have hskuIds : List.intercalate [','] ids = c.skuIds := Option.some.inj (hids.symm.trans hpost)
  rw [Checkout.ids, ← hskuIds, split_intercalate hcomma]
  rintro rfl
  exact hne hskuIds.symm

/-- The checkout runs to its end. -/
def orderingRows : List (Move (ℕ ⊕ Fin 4)) := .replicate 11 (.step (.inr 3))

end DailyFresh
