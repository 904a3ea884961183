import DailyFresh.Alone.Checkout

/-!
# The items of a checkout that runs alone

`takeOne` takes an item from the products as the items before it left them. So the items that a
checkout alone has taken are a trail of picks over the committed products, each of which found the
row it had read: `taken_iff` turns the run of `takeOne` over a list of ids into such a trail and back.
What the trails of concurrent checkouts say (`PickOk`) is compared with it by the results.
-/

namespace DailyFresh

open Python Store Interleave

namespace OrderCommitView

/-- A pick from the row it found; the cart had its count. -/
structure Picked (cart : Cart) (p : Pick) (old new : GoodsSKU) : Prop where
  read : old = p.read
  int_raw : int p.raw = some (p.sku : ℤ)
  entry : cart.lookup (str p.sku) = some p.count
  count_le : p.count ≤ p.read.stock.val
  stock : new.stock.val = p.read.stock.val - p.count
  sales : new.sales.val = p.read.sales.val + p.count
  price : new.price = p.read.price

/-- The picks explain the basket. -/
structure Taken (cart : Cart) (orderId : Str) (skus : Table ℕ GoodsSKU) (picks : List Pick)
    (b : Basket) : Prop where
  skus : ∃ pending, Trail Pick.sku (fun p _ ↦ Picked cart p) skus picks pending ∧
    b.skus = pending.overlay skus
  lines : picks.map (fun p ↦ (p.line orderId).row?) = b.lines.map some
  totals : b.totals = totals picks

variable {cart : Cart} {orderId : Str}

/-- **One item**: it is taken with the count of the cart, from the row that the basket has. -/
theorem takeOne_eq_ok_iff {b b' : Basket} {raw : Str} :
    takeOne cart orderId b raw = .ok b' ↔
      ∃ (p : Pick) (new : GoodsSKU) (line : OrderGoods), p.raw = raw ∧
        b.skus p.sku = some p.read ∧ Picked cart p p.read new ∧
        (p.line orderId).row? = some line ∧
        b' = { skus := b.skus.set p.sku new
               lines := b.lines ++ [line]
               totals := { count := b.totals.count + p.count
                           price := b.totals.price + p.read.price.val * p.count } } := by
  unfold takeOne
  constructor
  · intro h
    split at h
    · cases h
    · rename_i n sku hfind
      obtain ⟨hint, hsku⟩ := findRow_eq_ok_iff.1 hfind
      split at h
      · cases h
      · rename_i count hcount
        split at h
        · cases h
        · rename_i hstock
          split at h
          · rename_i new line hnew hline
            cases h
            obtain ⟨hstock', hsales, hprice⟩ := GoodsSKU.update?_eq_some_iff.1 hnew
            exact ⟨⟨raw, n, sku, count⟩, new, line, rfl, hsku,
              ⟨rfl, hint, hcount, Int.not_lt.1 hstock, hstock', hsales, hprice⟩, hline, rfl⟩
          · cases h
  · rintro ⟨⟨raw, n, sku, count⟩, new, line, rfl, hsku, hpicked, hline, rfl⟩
    have hfind : findRow b.skus raw = .ok (n, sku) := findRow_eq_ok_iff.2 ⟨hpicked.int_raw, hsku⟩
    have hcount : cart.lookup (str n) = some count := hpicked.entry
    have hnew : sku.update? (sku.stock.val - count) (sku.sales.val + count) = some new :=
      GoodsSKU.update?_eq_some_iff.2 ⟨hpicked.stock, hpicked.sales, hpicked.price⟩
    have hline : LineObject.row? { order := orderId, sku := n, count, price := sku.price } =
        some line := hline
    have hstock : ¬ count > sku.stock.val := Int.not_lt.2 hpicked.count_le
    simp only [hfind, hcount, hnew, hline, if_neg hstock]

theorem Taken.nil_iff {skus : Table ℕ GoodsSKU} {b : Basket} :
    Taken cart orderId skus [] b ↔
      b = { skus, lines := [], totals := { count := 0, price := 0 } } := by
  obtain ⟨skus', lines, totals'⟩ := b
  constructor
  · rintro ⟨⟨pending, htrail, hskus⟩, hlines, htotals⟩
    obtain rfl : pending = Table.empty := htrail.eq_empty
    obtain rfl : skus' = skus := hskus
    obtain rfl : lines = [] := by simpa using hlines.symm
    obtain rfl : totals' = { count := 0, price := 0 } := htotals
    rfl
  · intro h
    cases h
    exact ⟨⟨Table.empty, .nil, rfl⟩, rfl, rfl⟩

/-- One more item. -/
theorem Taken.snoc_iff {skus : Table ℕ GoodsSKU} {picks : List Pick} {p : Pick} {b' : Basket} :
    Taken cart orderId skus (picks ++ [p]) b' ↔
      ∃ b new line, Taken cart orderId skus picks b ∧ b.skus p.sku = some p.read ∧
        Picked cart p p.read new ∧ (p.line orderId).row? = some line ∧
        b' = { skus := b.skus.set p.sku new
               lines := b.lines ++ [line]
               totals := { count := b.totals.count + p.count
                           price := b.totals.price + p.read.price.val * p.count } } := by
  constructor
  · rintro ⟨⟨pending, htrail, hskus⟩, hlines, htotals⟩
    obtain ⟨pending, old, new, hrest, hold, hpicked, rfl⟩ := htrail.snoc_cases
    obtain ⟨skus', lines', totals'⟩ := b'
    rw [List.map_append] at hlines
    obtain ⟨lines, last, hlines', hmap, hlast⟩ := List.map_eq_append_iff.1 hlines.symm
    obtain ⟨line, rfl, hline⟩ := List.map_eq_singleton_iff.1 hlast
    obtain rfl : lines' = lines ++ [line] := hlines'
    obtain rfl : skus' = _ := hskus
    obtain rfl : totals' = _ := htotals
    obtain rfl : old = p.read := hpicked.read
    refine ⟨⟨pending.overlay skus, lines, DailyFresh.totals picks⟩, new, line,
      ⟨⟨pending, hrest, rfl⟩, hmap.symm, rfl⟩, hold, hpicked, hline.symm, ?_⟩
    rw [Table.overlay_set, totals_append]
  · rintro ⟨b, new, line, ⟨⟨pending, htrail, hskus⟩, hlines, htotals⟩, hread, hpicked, hline, rfl⟩
    refine ⟨⟨pending.set p.sku new, .snoc htrail (hskus ▸ hread) hpicked, ?_⟩, ?_, ?_⟩
    · rw [Table.overlay_set, hskus]
    · simp [hlines, hline]
    · rw [totals_append, htotals]

/-- A fold that may fail gets past its last element when it gets that far and the last step succeeds. -/
theorem foldlM_concat_eq_ok_iff {ε α β : Type} {f : β → α → Except ε β} {as : List α} {a : α} {b b' : β} :
    (as ++ [a]).foldlM f b = .ok b' ↔ ∃ b₀, as.foldlM f b = .ok b₀ ∧ f b₀ a = .ok b' := by
  have hlast : (fun b ↦ [a].foldlM f b) = fun b ↦ f b a := by
    funext b
    simp
  rw [List.foldlM_append, hlast]
  rcases as.foldlM f b with e | b₀
  · constructor
    · rintro ⟨⟩
    · rintro ⟨_, ⟨⟩, _⟩
  · exact ⟨fun h ↦ ⟨b₀, rfl, h⟩, fun ⟨_, h, h'⟩ ↦ Except.ok.inj h ▸ h'⟩

/-- **All items**, by induction from the last one. -/
theorem taken_iff {db : Db} {ids : List Str} {b : Basket} :
    ids.foldlM (takeOne cart orderId) (.empty db) = .ok b ↔
      ∃ picks, picks.map Pick.raw = ids ∧ Taken cart orderId db.skus picks b := by
  induction ids using List.reverseRecOn generalizing b with
  | nil =>
    have hnil : (Except.ok (.empty db) : Except Refusal Basket) = .ok b ↔
        Taken cart orderId db.skus [] b := by
      rw [Taken.nil_iff, Except.ok.injEq, eq_comm]
      rfl
    rw [List.foldlM_nil]
    exact hnil.trans ⟨fun h ↦ ⟨[], rfl, h⟩, fun ⟨picks, hraw, h⟩ ↦ List.map_eq_nil_iff.1 hraw ▸ h⟩
  | append_singleton ids raw ih =>
    rw [foldlM_concat_eq_ok_iff]
    constructor
    · rintro ⟨b₀, hb₀, hone⟩
      obtain ⟨picks, rfl, htaken⟩ := ih.1 hb₀
      obtain ⟨p, new, line, rfl, hlast⟩ := takeOne_eq_ok_iff.1 hone
      exact ⟨picks ++ [p], by simp, Taken.snoc_iff.2 ⟨b₀, new, line, htaken, hlast⟩⟩
    · rintro ⟨picks, hraw, htaken⟩
      obtain ⟨picks, last, rfl, hpicks, hlast⟩ := List.map_eq_append_iff.1 hraw
      obtain ⟨p, rfl, rfl⟩ := List.map_eq_singleton_iff.1 hlast
      obtain ⟨b₀, new, line, htaken, hlast⟩ := Taken.snoc_iff.1 htaken
      exact ⟨b₀, ih.2 ⟨picks, hpicks, htaken⟩,
        takeOne_eq_ok_iff.2 ⟨p, new, line, rfl, hlast⟩⟩

/-! ### What the basket holds -/

/-- Each product has lost from its stock, and gained in its sales, what the picks of it count. -/
theorem Taken.exists_row {skus : Table ℕ GoodsSKU} {picks : List Pick} {b : Basket}
    (h : Taken cart orderId skus picks b) {n : ℕ} {sku : GoodsSKU} (hsku : skus n = some sku) :
    ∃ new, b.skus n = some new ∧ new.stock.val = sku.stock.val - pickedCount picks n ∧
      new.sales.val = sku.sales.val + pickedCount picks n ∧ new.price = sku.price := by
  obtain ⟨⟨pending, htrail, hskus⟩, -, -⟩ := h
  obtain ⟨new, hnew⟩ := Table.exists_overlay hsku pending
  obtain ⟨old₁, hold₁, hsales⟩ := htrail.measure_overlay (f := fun sku ↦ sku.sales.val)
    (g := Pick.count) (fun p _ old new hok ↦ by rw [hok.sales, hok.read]) n new hnew
  obtain ⟨old₂, hold₂, hstock⟩ := htrail.measure_overlay (f := fun sku ↦ -sku.stock.val)
    (g := Pick.count) (fun p _ old new hok ↦ by rw [hok.stock, hok.read]; omega) n new hnew
  obtain ⟨old₃, hold₃, hprice⟩ := htrail.measure_overlay (f := fun sku ↦ sku.price.val)
    (g := fun _ ↦ 0) (fun p _ old new hok ↦ by rw [hok.price, hok.read]; omega) n new hnew
  obtain rfl := Option.some.inj (hsku.symm.trans hold₁)
  obtain rfl := Option.some.inj (hsku.symm.trans hold₂)
  obtain rfl := Option.some.inj (hsku.symm.trans hold₃)
  have hsales' : new.sales.val = sku.sales.val + pickedCount picks n := hsales
  have hstock' : -new.stock.val = -sku.stock.val + pickedCount picks n := hstock
  refine ⟨new, hskus ▸ hnew, by omega, hsales', Subtype.ext ?_⟩
  simpa using hprice

/-- A checkout adds no product. -/
theorem Taken.row_none {skus : Table ℕ GoodsSKU} {picks : List Pick} {b : Basket}
    (h : Taken cart orderId skus picks b) {n : ℕ} (hsku : skus n = none) : b.skus n = none := by
  obtain ⟨⟨pending, htrail, hskus⟩, -, -⟩ := h
  refine Option.eq_none_iff_forall_ne_some.2 fun new hnew ↦ ?_
  obtain ⟨old, hold, -⟩ := htrail.measure_overlay (f := fun sku ↦ sku.sales.val)
    (g := Pick.count) (fun p _ old new hok ↦ by rw [hok.sales, hok.read]) n new (hskus ▸ hnew)
  rw [hsku] at hold
  cases hold

/-- Each pick is of a product of the table, at its price, with the count of the cart. -/
theorem Taken.exists_sku {skus : Table ℕ GoodsSKU} {picks : List Pick} {b : Basket}
    (h : Taken cart orderId skus picks b) {p : Pick} (hp : p ∈ picks) :
    ∃ sku, skus p.sku = some sku ∧ p.read.price = sku.price ∧ cart.lookup (str p.sku) = some p.count ∧
      int p.raw = some (p.sku : ℤ) := by
  obtain ⟨⟨pending, htrail, -⟩, -, -⟩ := h
  have hpriced := htrail.refine (J := fun n row ↦ ∃ sku, skus n = some sku ∧ row.price = sku.price)
    (fun p _ _ _ ↦ (∃ sku, skus p.sku = some sku ∧ p.read.price = sku.price) ∧
      cart.lookup (str p.sku) = some p.count ∧ int p.raw = some (p.sku : ℤ))
    (fun n sku hsku ↦ ⟨sku, hsku, rfl⟩) fun p _ old new ⟨sku, hsku, hprice⟩ hok ↦ by
      obtain rfl := hok.read
      exact ⟨⟨⟨sku, hsku, hprice⟩, hok.entry, hok.int_raw⟩, sku, hsku, hok.price.trans hprice⟩
  obtain ⟨-, -, -, ⟨sku, hsku, hprice⟩, hentry, hraw⟩ := hpriced.1.forall_entry p hp
  exact ⟨sku, hsku, hprice, hentry, hraw⟩

end OrderCommitView

end DailyFresh
