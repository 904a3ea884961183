import DailyFresh.Concurrent.Requests
import Mathlib.Data.Fin.VecNotation

/-!
# Stock, sales and the lines

Any number of checkouts at once. The conditional update compares the stock only and overwrites the
sales with a figure computed from a stale read. What makes that safe is a hidden invariant: the sum of
stock and sales of a row never changes. A row whose stock is still what was read then has the sales
that were read as well.

* `Checkouts`: only checkouts are handled;
* `bookkeeping`: the discipline of the hidden invariant;
* `stock_eq_sold`: no product is oversold, and what its stock lost is what its sales gained and what
  the committed lines count.
-/

namespace DailyFresh

open Python Store Interleave

variable {ι : Type} {request : ι → Request}

/-- Only checkouts are handled. -/
def Checkouts (request : ι → Request) : Prop :=
  ∀ t, ∃ now req, request t = .commit now req

/-- The quantity of product `n` in the committed lines. -/
def Db.sold (db : Db) (n : ℕ) : ℤ :=
  ((db.lines.filter fun line ↦ line.sku = n).map fun line ↦ line.count.val).sum

variable [DecidableEq ι]

theorem Placed.sold {pick : Prop → Pick → Prop} {t : ι} {r : Receipt} {w w' : World ι}
    (h : Placed request pick t r w w') (n : ℕ) :
    w'.db.sold n = w.db.sold n + pickedCount r.picks n := by
  have hsum := sum_lines_eq_pickedCount h.of.lines n
  rw [Db.sold, h.lines, List.filter_append, List.map_append, List.sum_append, hsum]
  rfl

/-- Among checkouts, a command can commit an order or leave the tables as they are. -/
theorem Checkouts.effect_cases (hcheckouts : Checkouts request) {pick : Prop → Pick → Prop} {t : ι}
    {w w' : World ι} (h : Effect request pick t w w') :
    w'.db = w.db ∨ ∃ r, Placed request pick t r w w' := by
  obtain ⟨now, req, hreq⟩ := hcheckouts t
  obtain h | ⟨c, -, -, hdb, -⟩ | hplaced := h.commit_cases hreq
  · exact .inl h.db
  · exact .inl hdb
  · exact .inr hplaced

/-! ### The hidden invariant -/

/-- What the row `sku` of product `n` has in common with its row in `db`. -/
def SameSum (db : Db) (n : ℕ) (sku : GoodsSKU) : Prop :=
  ∃ old, db.skus n = some old ∧ sku.stock.val + sku.sales.val = old.stock.val + old.sales.val

/-- The products keep their sums of stock and sales, have no negative stock, and have lost from their
stock, since `db`, what the lines have gained. -/
structure Booked (db : Db) (w : World ι) : Prop where
  sum : ∀ n sku, w.db.skus n = some sku → SameSum db n sku
  nonneg : ∀ n sku, w.db.skus n = some sku → 0 ≤ sku.stock.val
  rows : ∀ n old, db.skus n = some old → ∃ sku, w.db.skus n = some sku ∧
    old.stock.val - sku.stock.val = w.db.sold n - db.sold n

/-- A pick, applied to a row with the right sum, keeps the sum, the stock non-negative, and takes its
count from the stock: the row's sales are those that were read. -/
theorem PickOk.booked {db : Db} {p : Pick} {fresh : Prop} {old new : GoodsSKU}
    (h : PickOk (fun fresh p ↦ fresh → SameSum db p.sku p.read) p fresh old new)
    (hold : SameSum db p.sku old) :
    new.stock.val = old.stock.val - p.count ∧ SameSum db p.sku new ∧ 0 ≤ new.stock.val := by
  have hstock : old.stock.val = p.read.stock.val := congrArg Subtype.val h.stock_eq
  have hnew : new.stock.val = p.read.stock.val - p.count := h.stock
  have hsales : new.sales.val = p.read.sales.val + p.count := h.sales
  have hread : p.read.sales.val = old.sales.val := by
    by_cases hfresh : fresh
    · obtain ⟨row, hrow, hsum⟩ := hold
      obtain ⟨row', hrow', hsum'⟩ := h.pick hfresh
      obtain rfl := Option.some.inj (hrow.symm.trans hrow')
      omega
    · rw [h.own hfresh]
  refine ⟨by omega, ?_, ?_⟩
  · obtain ⟨row, hrow, hsum⟩ := hold
    exact ⟨row, hrow, by omega⟩
  · have hle := h.count_le
    omega

/-- The commit of an order keeps the books. -/
theorem Booked.placed {db : Db} {t : ι} {r : Receipt} {w w' : World ι} (h : Booked db w)
    (hplaced : Placed request (fun fresh p ↦ fresh → SameSum db p.sku p.read) t r w w') :
    Booked db w' := by
  obtain ⟨pending, htrail, hskus⟩ := hplaced.skus
  let Took : Pick → Prop → GoodsSKU → GoodsSKU → Prop := fun p _ old new ↦
    new.stock.val = old.stock.val - p.count ∧ 0 ≤ new.stock.val
  have htook : Trail Pick.sku Took w.db.skus r.picks pending ∧
      ∀ n sku, pending.overlay w.db.skus n = some sku → SameSum db n sku :=
    htrail.refine _ h.sum fun p fresh old new hold hok ↦
      have hbooked := hok.booked hold
      ⟨⟨hbooked.1, hbooked.2.2⟩, hbooked.2.1⟩
  obtain ⟨htrail', hsums⟩ := htook
  have hnonneg : ∀ n sku, pending.overlay w.db.skus n = some sku → 0 ≤ sku.stock.val :=
    (htrail'.refine _ h.nonneg fun p fresh old new _ hok ↦ ⟨hok, hok.2⟩).2
  refine ⟨hskus ▸ hsums, hskus ▸ hnonneg, fun n old hold ↦ ?_⟩
  obtain ⟨sku, hsku, hlost⟩ := h.rows n old hold
  -- the row of `n` in the overlay lost the counts of the picks of `n`
  obtain ⟨new, hnew⟩ := Table.exists_overlay hsku pending
  obtain ⟨sku', hsku', hmeasure⟩ := htrail'.measure_overlay (f := fun sku ↦ -sku.stock.val)
    (g := Pick.count) (fun p _ old new hok ↦ by have := hok.1; omega) n new hnew
  obtain rfl := Option.some.inj (hsku.symm.trans hsku')
  have hcounts : -new.stock.val = -sku.stock.val + pickedCount r.picks n := hmeasure
  refine ⟨new, hskus ▸ hnew, ?_⟩
  rw [hplaced.sold n]
  omega

/-- **The discipline of the hidden invariant.** -/
def bookkeeping (hcheckouts : Checkouts request) (db : Db) : Discipline request where
  inv := Booked db
  seen _ n sku _ := SameSum db n sku
  pick _ fresh p := fresh → SameSum db p.sku p.read
  seen_of h hrow := h.sum _ _ hrow
  seen_mono h _ := h
  pick_of _ _ _ hseen _ _ := hseen
  keeps _ h heffect := by
    obtain hdb | ⟨r, hplaced⟩ := hcheckouts.effect_cases heffect
    · exact ⟨hdb ▸ h.sum, hdb ▸ h.nonneg, hdb ▸ h.rows⟩
    · exact h.placed hplaced

/-- **No oversell, and exact bookkeeping.** Whatever checkouts are handled, in whatever order their
commands run and wherever they die: no stock gets negative, and what a product's stock has lost is
what its sales have gained and what the lines committed since count. -/
theorem stock_eq_sold (hcheckouts : Checkouts request) {db : Db} (hlinked : db.Linked)
    (hstock : ∀ n sku, db.skus n = some sku → 0 ≤ sku.stock.val) {carts : ℕ → Cart}
    {gateway : ℕ → Answer} {s : State Services ι (World ι) Session Reply}
    (hs : (site ι).Reach AnyMove (start db carts gateway request) s) :
    (∀ n sku, s.world.db.skus n = some sku → 0 ≤ sku.stock.val) ∧
    ∀ n old, db.skus n = some old → ∃ sku, s.world.db.skus n = some sku ∧
      old.stock.val - sku.stock.val = sku.sales.val - old.sales.val ∧
      old.stock.val - sku.stock.val = s.world.db.sold n - db.sold n := by
  let D := bookkeeping hcheckouts db
  have hstart : D.inv (.initial db carts gateway) :=
    ⟨fun n sku hsku ↦ ⟨sku, hsku, rfl⟩, hstock, fun n old hold ↦ ⟨old, hold, by simp [World.initial]⟩⟩
  have hbooked : Booked db s.world := inv_of_reach D hlinked hstart hs
  refine ⟨hbooked.nonneg, fun n old hold ↦ ?_⟩
  obtain ⟨sku, hsku, hlost⟩ := hbooked.rows n old hold
  obtain ⟨old', hold', hsum⟩ := hbooked.sum n sku hsku
  obtain rfl := Option.some.inj (hold.symm.trans hold')
  exact ⟨sku, hsku, by omega, hlost⟩

/-! ### A small shop -/

/-- `request.POST.get` for a form with these fields. -/
def formData (fields : List (String × String)) : Str → Option Str :=
  fun key ↦ (fields.find? fun x ↦ x.1.toList = key).map (·.2.toList)

/-- A cart with these entries. -/
def cartOf (entries : List (String × ℤ)) : Cart :=
  entries.foldl (fun cart x ↦ cart.insert x.1.toList x.2) ∅

-- what the numerals of a second and of three requests rest on, stated once for all examples
instance neZero_sixty : NeZero 60 := ⟨by decide⟩

instance neZero_three : NeZero 3 := ⟨by decide⟩

/-- Half past nine, and some seconds. -/
def clock (second : Fin 60) : LocalTime where
  year := 2020
  month := 4
  day := 21
  hour := 9
  minute := 30
  second := second
  year_mem := by decide
  month_mem := by decide
  day_mem := by decide
  hour_lt := by decide
  minute_lt := by decide
  second_lt := second.2

/-- The default address of a user. -/
def home (user : ℕ) : Address where
  user := user
  receiver := ⟨"Li".toList, by decide⟩
  addr := ⟨"Main Street".toList, by decide⟩
  zipCode := none
  phone := ⟨"13812345678".toList, by decide⟩
  isDefault := true

/-- Two products, five of the first at 2.50 and three of the second at 10.00; two addresses. -/
def smallShop : Db where
  skus n :=
    if n = 1 then
      some { price := .lit 250 (.refl true), stock := .lit 5 (.refl true), sales := .lit 0 (.refl true) }
    else if n = 2 then
      some { price := .lit 1000 (.refl true), stock := .lit 3 (.refl true), sales := .lit 0 (.refl true) }
    else none
  types := Table.empty
  addrs := (AList.insert 1 (home 7) ∅).insert 2 (home 8)
  orders := Table.empty
  lines := []

theorem smallShop_linked : smallShop.Linked := fun _ h ↦ by cases h

theorem smallShop_nonneg {n : ℕ} {sku : GoodsSKU} (h : smallShop.skus n = some sku) :
    0 ≤ sku.price.val ∧ 0 ≤ sku.stock.val := by
  simp only [smallShop] at h
  split at h
  · cases h
    decide
  split at h
  · cases h
    decide
  · cases h

/-- A gateway that says nothing. -/
def silent : ℕ → Answer := fun _ ↦ { code := none, tradeStatus := none, tradeNo := none }

/-- The checkout of `skuIds`, to the first address, paid by Alipay. -/
def checkoutOf (user : ℕ) (second : Fin 60) (skuIds : String) : Request :=
  .commit (clock second) { user := some user,
                           POST := formData [("addr_id", "1"), ("pay_method", "3"),
                             ("sku_ids", skuIds)] }

/-- Users 7 and 8 buy the first product in the same second. -/
def rush : Fin 2 → Request := ![checkoutOf 7 0 "1", checkoutOf 8 0 "1"]

/-- Both have read the row before the first one buys; the second one has to read it again. -/
theorem stock_eq_sold_rush : ∃ s, (site (Fin 2)).perform
      (start smallShop (fun _ ↦ cartOf [("1", 2)]) silent rush)
      (.replicate 6 (.step 0) ++ .replicate 6 (.step 1) ++ .replicate 5 (.step 0) ++
        .replicate 8 (.step 1)) = some s ∧ s.world.db.sold 1 = 4 ∧
    (∀ n sku, s.world.db.skus n = some sku → 0 ≤ sku.stock.val) ∧
    ∀ n old, smallShop.skus n = some old → ∃ sku, s.world.db.skus n = some sku ∧
      old.stock.val - sku.stock.val = sku.sales.val - old.sales.val ∧
      old.stock.val - sku.stock.val = s.world.db.sold n - smallShop.sold n := by
  have hrun : ((site (Fin 2)).perform (start smallShop (fun _ ↦ cartOf [("1", 2)]) silent rush)
      (.replicate 6 (.step 0) ++ .replicate 6 (.step 1) ++ .replicate 5 (.step 0) ++
        .replicate 8 (.step 1))).map (fun s ↦ s.world.db.sold 1) = some 4 := by rfl
  obtain ⟨s, hs, hsold⟩ := Option.map_eq_some_iff.1 hrun
  have hcheckouts : Checkouts rush
    | 0 => ⟨_, _, rfl⟩
    | 1 => ⟨_, _, rfl⟩
  exact ⟨s, hs, hsold, stock_eq_sold hcheckouts smallShop_linked (fun _ _ h ↦ (smallShop_nonneg h).2)
    ((site (Fin 2)).reach_of_perform hs)⟩

end DailyFresh
