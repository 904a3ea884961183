import DailyFresh.Alone.Items
import DailyFresh.Results.Retry

/-!
# What a checkout does, exactly

A checkout that runs alone, of product ids that are spelled canonically. `commit_exact` says when it is
answered with `res` 5 (`Succeeds`), what it has then written (`Bought`), and that it has written nothing
at all in every other case.

The condition reads the list of ids from left to right: the products as the earlier items leave them
have lost the count of the cart once for each earlier mention (`CanTake`). That the view's run over the
list comes to the same is an induction from the last item, with `Taken` as the state between two items.
-/

namespace DailyFresh

open Python Store Interleave OrderCommitView

/-- `','.join(str(n) for n in ns)`. -/
def joined (ns : List ℕ) : Str := List.intercalate [','] (ns.map str)

theorem split_joined {ns : List ℕ} (h : ns ≠ []) : split ',' (joined ns) = ns.map str := by
  refine split_intercalate (fun s hs ↦ ?_) (by simpa using h)
  obtain ⟨n, -, rfl⟩ := List.mem_map.1 hs
  exact comma_notMem_str n

theorem joined_ne_nil {ns : List ℕ} (h : ns ≠ []) : joined ns ≠ [] := by
  intro hnil
  obtain ⟨n, rest, rfl⟩ := List.exists_cons_of_ne_nil h
  have hsplit := split_joined h
  rw [hnil] at hsplit
  obtain ⟨hn, -⟩ := List.cons.inj (hsplit : [[]] = str n :: rest.map str)
  exact str_ne_nil n hn.symm

/-- The quantity of product `n` in a cart. -/
def Cart.quantity (cart : Cart) (n : ℕ) : ℤ := (cart.lookup (str n)).getD 0

/-- The price of product `n`. -/
def Db.price (db : Db) (n : ℕ) : ℤ := ((db.skus n).map fun sku ↦ sku.price.val).getD 0

/-- After the items `earlier`, the product `n` is there, has an entry in the cart, and the stock that is
left covers it; the new line, stock and sales fit their columns. -/
structure CanTake (db : Db) (cart : Cart) (earlier : List ℕ) (n : ℕ) (sku : GoodsSKU) (count : ℤ) :
    Prop where
  row : db.skus n = some sku
  entry : cart.lookup (str n) = some count
  enough : count ≤ sku.stock.val - earlier.count n * count
  lineFits : ∃ column : IntegerField, column.val = count
  stockFits : ∃ column : IntegerField, column.val = sku.stock.val - earlier.count n * count - count
  salesFits : ∃ column : IntegerField, column.val = sku.sales.val + earlier.count n * count + count

/-- When the checkout of the products `ns` succeeds. -/
structure Succeeds (now : LocalTime) (user : ℕ) (req : HttpRequest) (ns : List ℕ) (db : Db)
    (cart : Cart) : Prop where
  address : ∃ id, ∃ n : ℕ, ∃ a, req.POST "addr_id".toList = some id ∧ int id = some (n : ℤ) ∧
    db.address n = some a
  payMethod : ∃ key, req.POST "pay_method".toList = some key ∧ key ∈ PAY_METHODS.map Prod.fst
  fresh : db.orders (now.strftime ++ str user) = none
  orderId : (now.strftime ++ str user).length ≤ 128
  items : ∀ earlier n, earlier ++ [n] <+: ns → ∃ sku count, CanTake db cart earlier n sku count
  totalCount : ∃ column : IntegerField, column.val = (ns.map cart.quantity).sum
  totalPrice : ∃ column : DecimalField,
    column.val = (ns.map fun n ↦ db.price n * cart.quantity n).sum

/-! ### The items -/

namespace OrderCommitView

variable {db : Db} {cart : Cart} {orderId : Str} {ns : List ℕ} {picks : List Pick} {b : Basket}

/-- The counts of picks that agree on the count of each product. -/
theorem pickedCount_of_quantity {quantity : ℕ → ℤ} (h : ∀ p ∈ picks, p.count = quantity p.sku) (n : ℕ) :
    pickedCount picks n = (picks.map Pick.sku).count n * quantity n := by
  induction picks with
  | nil => simp [pickedCount]
  | cons p picks ih =>
    have hp := h p List.mem_cons_self
    have ih := ih fun p hp ↦ h p (List.mem_cons_of_mem _ hp)
    unfold pickedCount at ih ⊢
    by_cases hn : p.sku = n
    · subst hn
      simp [ih, hp, Int.add_mul, Int.add_comm]
    · simp [hn, ih]

/-- The picks of ids in canonical spelling, with the counts of the cart. -/
theorem Taken.picks_eq (h : Taken cart orderId db.skus picks b)
    (hraw : picks.map Pick.raw = ns.map str) :
    picks.map Pick.sku = ns ∧ ∀ p ∈ picks, p.count = cart.quantity p.sku := by
  have hint : picks.map (fun p ↦ int p.raw) = ns.map fun n : ℕ ↦ some (n : ℤ) := by
    have hmap := congrArg (List.map int) hraw
    rw [List.map_map, List.map_map] at hmap
    exact hmap.trans (List.map_congr_left fun n _ ↦ int_str n)
  have hsku : picks.map (fun p ↦ int p.raw) = picks.map fun p ↦ some (p.sku : ℤ) := by
    refine List.map_congr_left fun p hp ↦ ?_
    obtain ⟨-, -, -, -, hp⟩ := h.exists_sku hp
    exact hp
  constructor
  · have hinj : Function.Injective fun n : ℕ ↦ some (n : ℤ) := fun m n hmn ↦
      Int.ofNat_inj.1 (Option.some.inj hmn)
    refine List.map_injective_iff.2 hinj ?_
    rw [List.map_map]
    exact (hsku.symm.trans hint : picks.map (fun p ↦ some (p.sku : ℤ)) = _)
  · intro p hp
    obtain ⟨-, -, -, hentry, -⟩ := h.exists_sku hp
    rw [Cart.quantity, hentry]
    rfl

theorem Taken.pickedCount_eq (h : Taken cart orderId db.skus picks b)
    (hraw : picks.map Pick.raw = ns.map str) (n : ℕ) :
    pickedCount picks n = ns.count n * cart.quantity n := by
  obtain ⟨hsku, hcount⟩ := h.picks_eq hraw
  rw [pickedCount_of_quantity hcount, hsku]

/-- One more item can be taken exactly when the products that are left allow it. -/
theorem Taken.canTake_iff (h : Taken cart orderId db.skus picks b)
    (hraw : picks.map Pick.raw = ns.map str) {n : ℕ} :
    (∃ b', takeOne cart orderId b (str n) = .ok b') ↔ ∃ sku count, CanTake db cart ns n sku count := by
  have hpicked := h.pickedCount_eq hraw n
  constructor
  · rintro ⟨b', hone⟩
    obtain ⟨p, new, line, hid, hread, hp, hline, -⟩ := takeOne_eq_ok_iff.1 hone
    have hsku : p.sku = n := by
      have hint := hp.int_raw
      -- the canonical id denotes this product only
      rw [hid, int_str] at hint
      exact_mod_cast (Option.some.inj hint).symm
    rw [hsku] at hread
    have hentry : cart.lookup (str n) = some p.count := hsku ▸ hp.entry
    obtain ⟨sku, hrow⟩ : ∃ sku, db.skus n = some sku := by
      refine Option.ne_none_iff_exists'.1 fun hnone ↦ ?_
      rw [h.row_none hnone] at hread
      cases hread
    obtain ⟨row, hrow', hstock, hsales, -⟩ := h.exists_row hrow
    obtain rfl := Option.some.inj (hread.symm.trans hrow')
    rw [Cart.quantity, hentry, Option.getD_some] at hpicked
    have henough := hp.count_le
    refine ⟨sku, p.count, hrow, hentry, by omega,
      ⟨line.count, (LineObject.row?_eq_some_iff.1 hline).2.2.1⟩, ⟨new.stock, ?_⟩, ⟨new.sales, ?_⟩⟩
    · rw [hp.stock, hstock, hpicked]
    · rw [hp.sales, hsales, hpicked]
  · rintro ⟨sku, count, hcan⟩
    obtain ⟨row, hrow, hstock, hsales, -⟩ := h.exists_row hcan.row
    rw [Cart.quantity, hcan.entry, Option.getD_some] at hpicked
    obtain ⟨stock, hstock'⟩ := hcan.stockFits
    obtain ⟨sales, hsales'⟩ := hcan.salesFits
    obtain ⟨column, hcolumn⟩ := hcan.lineFits
    -- what the earlier positions took of the product is what `CanTake` counts
    have henough := hcan.enough
    let p : Pick := { raw := str n, sku := n, read := row, count }
    have hp : Picked cart p row { row with stock, sales } :=
      ⟨rfl, int_str n, hcan.entry, by show count ≤ row.stock.val; omega,
        by show stock.val = row.stock.val - count; omega,
        by show sales.val = row.sales.val + count; omega, rfl⟩
    have hline : (p.line orderId).row? = some
        { order := orderId, sku := n, count := column, price := row.price, comment := .empty } :=
      LineObject.row?_eq_some_iff.2 ⟨rfl, rfl, hcolumn, rfl, rfl⟩
    exact ⟨_, takeOne_eq_ok_iff.2 ⟨p, _, _, rfl, hrow, hp, hline, rfl⟩⟩

/-- **The loop succeeds** exactly when each item of the list can be taken after those before it. -/
theorem exists_basket_iff (orderId : Str) :
    (∃ b, (ns.map str).foldlM (takeOne cart orderId) (.empty db) = .ok b) ↔
    ∀ earlier n, earlier ++ [n] <+: ns → ∃ sku count, CanTake db cart earlier n sku count := by
  induction ns using List.reverseRecOn with
  | nil =>
    refine ⟨fun _ earlier n hinit ↦ ?_, fun _ ↦ ⟨.empty db, rfl⟩⟩
    simp at hinit
  | append_singleton ns n ih =>
    rw [List.map_append]
    constructor
    · rintro ⟨b', hb'⟩ earlier m hinit
      obtain ⟨b, hb, hone⟩ := foldlM_concat_eq_ok_iff.1 hb'
      -- either the last item, or one of those before it
      rcases List.prefix_concat_iff.1 hinit with heq | hinit
      · obtain ⟨rfl, hm⟩ := List.append_inj' heq rfl
        obtain rfl := List.singleton_inj.1 hm
        obtain ⟨picks, hraw, htaken⟩ := taken_iff.1 hb
        exact (htaken.canTake_iff hraw).1 ⟨b', hone⟩
      · exact ih.1 ⟨b, hb⟩ earlier m hinit
    · intro hall
      obtain ⟨b, hb⟩ := ih.2 fun earlier m hinit ↦
        hall earlier m (hinit.trans (List.prefix_append ns [n]))
      obtain ⟨picks, hraw, htaken⟩ := taken_iff.1 hb
      obtain ⟨b', hone⟩ := (htaken.canTake_iff hraw).2 (hall ns n List.prefix_rfl)
      exact ⟨b', foldlM_concat_eq_ok_iff.2 ⟨b, hb, hone⟩⟩

end OrderCommitView

/-! ### The checkout -/

section Checkout

variable {now : LocalTime} {user : ℕ} {req : HttpRequest} {ns : List ℕ} {db : Db} {carts : ℕ → Cart}

/-- A request for these ids. -/
structure HttpRequest.Orders (req : HttpRequest) (user : ℕ) (ns : List ℕ) : Prop where
  user : req.user = some user
  skuIds : req.POST "sku_ids".toList = some (joined ns)
  nonempty : ns ≠ []

theorem HttpRequest.Orders.asks (h : req.Orders user ns) {c : Checkout} (hasks : req.Asks c) :
    c.user = user ∧ c.ids = ns.map str := by
  have huser := hasks.user.symm.trans h.user
  have hids := (nonempty_eq_some_iff.1 hasks.skuIds).1
  rw [h.skuIds] at hids
  refine ⟨Option.some.inj huser, ?_⟩
  rw [Checkout.ids, ← Option.some.inj hids, split_joined h.nonempty]

/-- The totals of picks of canonical ids. -/
theorem OrderCommitView.Taken.totals_eq {cart : Cart} {orderId : Str} {picks : List Pick} {b : Basket}
    (h : Taken cart orderId db.skus picks b) (hraw : picks.map Pick.raw = ns.map str) :
    b.totals.count = (ns.map cart.quantity).sum ∧
      b.totals.price = (ns.map fun n ↦ db.price n * cart.quantity n).sum := by
  obtain ⟨hsku, hcount⟩ := h.picks_eq hraw
  rw [h.totals, ← hsku, List.map_map, List.map_map]
  refine ⟨congrArg List.sum (List.map_congr_left hcount), ?_⟩
  refine congrArg List.sum (List.map_congr_left fun p hp ↦ ?_)
  obtain ⟨sku, hrow, hprice, -, -⟩ := h.exists_sku hp
  show p.read.price.val * p.count = db.price p.sku * cart.quantity p.sku
  rw [← hcount p hp, Db.price, hrow, hprice]
  rfl

theorem mem_payMethods_iff {key : Str} :
    key ∈ PAY_METHODS.map Prod.fst ↔ ∃ method, PAY_METHODS.lookup key = some method := by
  rw [← Option.isSome_iff_exists, List.lookup_isSome_iff, List.mem_map]
  exact exists_congr fun x ↦ and_congr_right fun _ ↦ by rw [beq_iff_eq, eq_comm]

/-- The row of a new order with totals that fit. -/
theorem row?_newOrder (addr : ℕ) (payMethod : PayMethod) (totalCount : IntegerField)
    (totalPrice : DecimalField) (hlength : (now.strftime ++ str user).length ≤ 128) :
    OrderObject.row? { newOrder now user addr payMethod with
      totalCount := totalCount.val, totalPrice := totalPrice.val } =
      some { user, addr, payMethod, totalCount, totalPrice, transitPrice := ⟨1000, by decide⟩,
             orderStatus := .toPay, tradeNo := .empty } :=
  OrderObject.row?_eq_some_iff.2 ⟨hlength, rfl⟩

/-- **The condition is exact.** -/
theorem exists_placement_iff (h : req.Orders user ns) :
    (∃ p, alone id now req db carts = .ok p) ↔ Succeeds now user req ns db (carts user) := by
  constructor
  · rintro ⟨p, hp⟩
    obtain ⟨c, addr, a, hasks, hfind, hof⟩ := alone_eq_ok_iff.1 hp
    obtain ⟨hint, haddr⟩ := findRow_eq_ok_iff.1 hfind
    obtain ⟨rfl, hids⟩ := h.asks hasks
    obtain ⟨key, hkey, hmethod⟩ := hasks.payMethod
    have htaken := hof.taken
    rw [id, hids] at htaken
    obtain ⟨picks, hraw, hbasket⟩ := taken_iff.1 htaken
    obtain ⟨hlength, hobject⟩ := OrderObject.row?_eq_some_iff.1 hof.row
    obtain ⟨hcount, hprice⟩ := hbasket.totals_eq hraw
    have hfresh := hof.absent
    rw [hof.orderId] at hfresh
    refine ⟨⟨c.addrId, addr, a, (nonempty_eq_some_iff.1 hasks.addrId).1, hint, haddr⟩,
      ⟨key, (nonempty_eq_some_iff.1 hkey).1, mem_payMethods_iff.2 ⟨_, hmethod⟩⟩, hfresh, hlength,
      (exists_basket_iff _).1 ⟨_, htaken⟩, ⟨p.row.totalCount, ?_⟩, ⟨p.row.totalPrice, ?_⟩⟩
    · rw [← hcount]
      exact congrArg OrderObject.totalCount hobject
    · rw [← hprice]
      exact congrArg OrderObject.totalPrice hobject
  · intro hs
    obtain ⟨addrId, addr, a, hid, hint, haddr⟩ := hs.address
    obtain ⟨key, hkey, hmem⟩ := hs.payMethod
    obtain ⟨method, hmethod⟩ := mem_payMethods_iff.1 hmem
    obtain ⟨basket, hbasket⟩ := (exists_basket_iff (now.strftime ++ str user)).2 hs.items
    obtain ⟨picks, hraw, htaken⟩ := taken_iff.1 hbasket
    obtain ⟨hcount, hprice⟩ := htaken.totals_eq hraw
    obtain ⟨totalCount, hcount'⟩ := hs.totalCount
    obtain ⟨totalPrice, hprice'⟩ := hs.totalPrice
    let c : Checkout := { user, addrId, payMethod := method, skuIds := joined ns }
    have hasks : req.Asks c := by
      refine ⟨h.user, nonempty_eq_some_iff.2 ⟨hid, ?_⟩, ⟨key, nonempty_eq_some_iff.2 ⟨hkey, ?_⟩, hmethod⟩,
        nonempty_eq_some_iff.2 ⟨h.skuIds, joined_ne_nil h.nonempty⟩⟩
      · rintro rfl
        cases hint
      · rintro rfl
        cases hmethod
    obtain ⟨-, hids⟩ := h.asks hasks
    let row : OrderInfo :=
      { user, addr, payMethod := method, totalCount, totalPrice, transitPrice := ⟨1000, by decide⟩,
        orderStatus := .toPay, tradeNo := .empty }
    refine ⟨⟨c, addr, now.strftime ++ str user, row, basket⟩, alone_eq_ok_iff.2 ⟨c, addr, a, hasks,
      findRow_eq_ok_iff.2 ⟨hint, haddr⟩, rfl, rfl, rfl, ?_, hs.fresh, ?_, ?_⟩⟩
    · -- the order is created with totals zero, which fit
      have hrow := row?_newOrder addr method ⟨0, by decide⟩ ⟨0, by decide⟩ hs.orderId
      exact Option.ne_none_iff_exists'.2 ⟨_, hrow⟩
    · rw [id, hids]
      exact hbasket
    · rw [hcount, hprice, ← hcount', ← hprice']
      exact row?_newOrder _ _ _ _ hs.orderId

end Checkout

/-- The quantity of product `n` in a list of lines. -/
def soldIn (lines : List OrderGoods) (n : ℕ) : ℤ :=
  ((lines.filter fun line ↦ line.sku = n).map fun line ↦ line.count.val).sum

/-- What a checkout of the products `ns` has written: one order with these lines. -/
structure Bought (now : LocalTime) (user : ℕ) (ns : List ℕ) (lines : List OrderGoods) (db : Db)
    (carts : ℕ → Cart) (db' : Db) (carts' : ℕ → Cart) : Prop where
  order : ∃ row, db'.orders = db.orders.set (now.strftime ++ str user) row ∧ row.user = user
  written : db'.lines = db.lines ++ lines
  positions : List.Forall₂ (fun n line ↦ line.order = now.strftime ++ str user ∧ line.sku = n ∧
    (carts user).lookup (str n) = some line.count.val ∧
      ∃ sku, db.skus n = some sku ∧ line.price = sku.price) ns lines
  skus : ∀ n sku, db.skus n = some sku → ∃ new, db'.skus n = some new ∧
    new.stock.val = sku.stock.val - soldIn lines n ∧
      new.sales.val = sku.sales.val + soldIn lines n ∧ new.price = sku.price
  noSku : ∀ n, db.skus n = none → db'.skus n = none
  addrs : db'.addrs = db.addrs
  carts : carts' = Function.update carts user ((carts user).hdel (ns.map str))

theorem bought_of_placement {now : LocalTime} {user : ℕ} {req : HttpRequest} {ns : List ℕ} {db : Db}
    {carts : ℕ → Cart} (h : req.Orders user ns) {p : Placement}
    (hp : alone id now req db carts = .ok p) :
    Bought now user ns p.basket.lines db carts (p.db db) (p.carts carts) := by
  obtain ⟨c, addr, a, hasks, hfind, hof⟩ := alone_eq_ok_iff.1 hp
  obtain ⟨rfl, hids⟩ := h.asks hasks
  have hid : p.orderId = now.strftime ++ str c.user := hof.orderId
  have htaken := hof.taken
  rw [id, hids] at htaken
  obtain ⟨picks, hraw, hbasket⟩ := taken_iff.1 htaken
  obtain ⟨hsku, -⟩ := hbasket.picks_eq hraw
  have hsold : ∀ n, soldIn p.basket.lines n = pickedCount picks n :=
    sum_lines_eq_pickedCount hbasket.lines
  refine ⟨⟨p.row, by rw [← hid]; rfl, ?_⟩, rfl, ?_, fun n sku hrow ↦ ?_, fun n ↦ hbasket.row_none, rfl, ?_⟩
  · exact congrArg OrderObject.user (OrderObject.row?_eq_some_iff.1 hof.row).2
  · have hpick : ∀ q ∈ picks, ∃ sku, db.skus q.sku = some sku ∧ q.read.price = sku.price ∧
        (carts c.user).lookup (str q.sku) = some q.count ∧ int q.raw = some (q.sku : ℤ) :=
      fun q hq ↦ hbasket.exists_sku hq
    rw [← hsku, List.forall₂_map_left_iff]
    refine ((List.forall₂_and_left _ _).2 ⟨hpick, forall₂_of_map_eq hbasket.lines⟩).imp ?_
    rintro q line ⟨⟨sku, hrow, hprice, hentry, -⟩, hline⟩
    obtain ⟨horder, hsku', hcount, hprice', -⟩ := LineObject.row?_eq_some_iff.1 hline
    refine ⟨horder.trans hid, hsku', ?_, sku, hrow, hprice'.trans hprice⟩
    rw [hentry, hcount]
    rfl
  · rw [hsold]
    exact hbasket.exists_row hrow
  · rw [Placement.carts, hof.checkout, hids]

variable {ι : Type} [DecidableEq ι]

/-- **A checkout that runs alone, exactly.** -/
theorem commit_exact (t : ι) (k : ℕ) {now : LocalTime} {user : ℕ} {req : HttpRequest} {ns : List ℕ}
    (hreq : req.Orders user ns) {w : World ι} (hw : Unlocked w) :
    ∃ reply w' l', (site ι).solo t k (post now req) w .idle = some (reply, w', l') ∧
      (reply.res = some 5 ↔ Succeeds now user req ns w.db (w.carts user)) ∧
      (reply.res = some 5 → ∃ lines, Bought now user ns lines w.db w.carts w'.db w'.carts) ∧
      (reply.res ≠ some 5 → w'.db = w.db ∧ w'.carts = w.carts) := by
  obtain ⟨reply, w', l', hsolo, hleft⟩ := ends_postOn (t := t) (k := k) id now req hw
  refine ⟨reply, w', l', hsolo, ?_, fun hres ↦ ?_, fun hres ↦ ?_⟩
  · rw [hleft.reply, replyOf_res_eq_five_iff]
    exact exists_placement_iff hreq
  · rw [hleft.reply] at hres
    obtain ⟨p, hp⟩ := replyOf_res_eq_five_iff.1 hres
    refine ⟨p.basket.lines, ?_⟩
    rw [hleft.db, hleft.carts, hp]
    exact bought_of_placement hreq hp
  · rw [hleft.db, hleft.carts]
    rcases hx : alone id now req w.db w.carts with e | p
    · exact ⟨rfl, rfl⟩
    · rw [hleft.reply, hx] at hres
      exact absurd rfl hres

/-- Two of the first product, one of the second, and two more of the first. -/
def basketForm : HttpRequest where
  user := some 7
  POST := formData [("addr_id", "1"), ("pay_method", "3"), ("sku_ids", "1,2,1")]

theorem commit_exact_basket : ∃ reply w' l', (site (Fin 1)).solo 0 0 (post (clock 0) basketForm)
      (.initial smallShop (fun _ ↦ cartOf [("1", 2), ("2", 1)]) silent) .idle = some (reply, w', l') ∧
    (reply.res = some 5 ↔ Succeeds (clock 0) 7 basketForm [1, 2, 1] smallShop
      (cartOf [("1", 2), ("2", 1)])) ∧ reply.res = some 5 ∧
    ∃ lines, Bought (clock 0) 7 [1, 2, 1] lines smallShop (fun _ ↦ cartOf [("1", 2), ("2", 1)]) w'.db
      w'.carts := by
  have hreq : basketForm.Orders 7 [1, 2, 1] := ⟨rfl, by decide, by decide⟩
  have hw : Unlocked (.initial smallShop (fun _ ↦ cartOf [("1", 2), ("2", 1)]) silent :
      World (Fin 1)) := ⟨fun _ ↦ rfl, fun _ ↦ rfl⟩
  obtain ⟨reply, w', l', hsolo, hiff, hbought, -⟩ := @commit_exact (Fin 1) _ 0 0 (clock 0) _ _ _ hreq _ hw
  have hrun : ((site (Fin 1)).solo 0 0 (post (clock 0) basketForm)
      (.initial smallShop (fun _ ↦ cartOf [("1", 2), ("2", 1)]) silent) .idle).map
        (fun x ↦ x.1.res) = some (some 5) := by rfl
  rw [hsolo] at hrun
  have hres : reply.res = some 5 := Option.some.inj hrun
  exact ⟨reply, w', l', hsolo, hiff, hres, hbought hres⟩

end DailyFresh
