import DailyFresh.Alone.Commands
import DailyFresh.Results.CartToOrder

/-!
# The price shown and the price charged

Three views compute what an order costs. `OrderPlaceView` reads the cart by the ids of its form and sums
over them; `OrderCommitView` splits the joined ids, reads the cart by the product's own id and sums
inside its loop, over products whose stock changes as it goes; `OrderPayView` adds two stored columns.

`price_kept` says that they agree for ids in canonical spelling: the page shows, row by row and in its
totals, what the commit of the page's `sku_ids` string writes, and the gateway is asked for what the page
shows as the sum to pay.
-/

namespace DailyFresh

open Python Store Interleave OrderCommitView

variable {ι : Type} [DecidableEq ι] {t : ι} {k : ℕ} {w₀ w : World ι}

/-! ### The confirmation page -/

/-- Only the history has changed, or a lock. -/
structure SameData (w₀ w : World ι) : Prop where
  db : w.db = w₀.db
  carts : w.carts = w₀.carts

omit [DecidableEq ι] in
theorem SameData.record (h : SameData w₀ w) (t : ι) (c : Cmd) (r : c.Resp) :
    SameData w₀ (w.record t c r) := ⟨h.db, h.carts⟩

/-- A product on the page, for the id of the form. -/
structure Shows (db : Db) (cart : Cart) (id : Str) (shown : ShownSKU) : Prop where
  row : findRow db.skus id = .ok (shown.id, shown.sku)
  entry : cart.lookup id = some shown.count
  amount : shown.amount = shown.sku.price.val * shown.count

/-- The rows of the page. -/
theorem ends_showItems {user : ℕ} (ids : List Str) (h : SameData w₀ w) :
    (site ι).Ends t k
      (fun shown w l ↦ SameData w₀ w ∧ l = .idle ∧
        ∀ skus, shown = some skus → List.Forall₂ (Shows w₀.db (w₀.carts user)) ids skus)
      (OrderPlaceView.showItems user ids) w .idle := by
  induction ids generalizing w with
  | nil =>
    refine .ret ⟨h, rfl, fun skus hskus ↦ ?_⟩
    obtain rfl := Option.some.inj hskus
    exact .nil
  | cons id ids ih =>
    rw [OrderPlaceView.showItems]
    have hrun : run t w .idle (.skuGet id) = some (findRow w₀.db.skus id, w, .idle) := by
      rw [run, ← h.db]
      rfl
    refine ends_ask rfl hrun ?_
    replace h := h.record t (.skuGet id) (findRow w₀.db.skus id)
    generalize w.record t (.skuGet id) (findRow w₀.db.skus id) = w at h
    rcases hfind : findRow w₀.db.skus id with e | ⟨n, sku⟩
    · exact .ret ⟨h, rfl, fun skus hskus ↦ by cases hskus⟩
    have hrun : run t w .idle (.hget user id) = some ((w₀.carts user).lookup id, w, .idle) := by
      rw [run, h.carts]
    refine ends_ask rfl hrun ?_
    replace h := h.record t (.hget user id) ((w₀.carts user).lookup id)
    generalize w.record t (.hget user id) ((w₀.carts user).lookup id) = w at h
    rcases hcount : (w₀.carts user).lookup id with - | count
    · exact .ret ⟨h, rfl, fun skus hskus ↦ by cases hskus⟩
    refine (ih h).bind fun shown w l hshown ↦ .ret ⟨hshown.1, hshown.2.1, fun skus hskus ↦ ?_⟩
    obtain ⟨rest, rfl, rfl⟩ := Option.map_eq_some_iff.1 hskus
    exact .cons ⟨hfind, hcount, rfl⟩ (hshown.2.2 rest rfl)

/-- What the confirmation page shows for the ids of the form. -/
structure Confirms (db : Db) (cart : Cart) (ids : List Str) (skus : List ShownSKU)
    (totalCount totalPrice totalPay : ℤ) (skuIds : Str) : Prop where
  nonempty : ids ≠ []
  rows : List.Forall₂ (Shows db cart) ids skus
  count : totalCount = (skus.map ShownSKU.count).sum
  price : totalPrice = (skus.map ShownSKU.amount).sum
  pay : totalPay = totalPrice + 1000
  joined : skuIds = List.intercalate [','] ids

theorem ends_place {req : HttpRequest} {ids : List Str} :
    (site ι).Ends t k
      (fun reply _ _ ↦ ∀ skus totalCount totalPrice transitPrice totalPay addrs skuIds,
        reply = .html (.placeOrder skus totalCount totalPrice transitPrice totalPay addrs skuIds) →
          ∃ user, req.user = some user ∧
            Confirms w.db (w.carts user) ids skus totalCount totalPrice totalPay skuIds)
      (OrderPlaceView.post req ids) w .idle := by
  rw [OrderPlaceView.post]
  rcases huser : req.user with - | user
  · exact .ret fun _ _ _ _ _ _ _ heq ↦ by cases heq
  by_cases hids : ids = []
  · simp only [if_pos hids]
    exact .ret fun _ _ _ _ _ _ _ heq ↦ by cases heq
  simp only [if_neg hids]
  refine (ends_showItems ids ⟨rfl, rfl⟩).bind fun shown v l hshown ↦ ?_
  obtain ⟨-, rfl, hrows⟩ := hshown
  rcases shown with - | skus
  · exact .ret fun _ _ _ _ _ _ _ heq ↦ by cases heq
  refine ends_ask rfl rfl (.ret fun _ _ _ _ _ _ _ heq ↦ ?_)
  cases heq
  exact ⟨user, rfl, hids, hrows skus rfl, rfl, rfl, rfl, rfl⟩

/-! ### Paying -/

/-- The order is sent to the gateway with the sum of its two prices. -/
theorem ends_pay {req : HttpRequest} {orderId : Str} {row : OrderInfo} (huser : req.user = some row.user)
    (hid : nonempty (req.POST "order_id".toList) = some orderId)
    (hrow : w.db.orders orderId = some row) :
    (site ι).Ends t k
      (fun reply _ _ ↦ reply.payment =
        if row.payMethod = .alipay ∧ row.orderStatus = .toPay then
          some (orderId, decimalStr (row.totalPrice.val + row.transitPrice.val))
        else none)
      (OrderPayView.post req) w .idle := by
  rw [OrderPayView.post]
  simp only [huser, hid]
  have horders : w.orders .idle orderId = some row := hrow
  by_cases hpays : row.payMethod = .alipay ∧ row.orderStatus = .toPay
  · have hsatisfies : row.satisfies row.user (some .alipay) (some .toPay) = true := by
      rw [OrderInfo.satisfies_iff]
      exact ⟨rfl, fun m hm ↦ hpays.1.trans (Option.some.inj hm),
        fun s hs ↦ hpays.2.trans (Option.some.inj hs)⟩
    refine ends_ask rfl (run_orderGet_of_satisfies horders hsatisfies) (.ret ?_)
    rw [if_pos hpays]
    rfl
  · have hsatisfies : row.satisfies row.user (some .alipay) (some .toPay) = false := by
      refine Bool.eq_false_iff.2 fun h ↦ hpays ?_
      obtain ⟨-, hmethod, hstatus⟩ := OrderInfo.satisfies_iff.1 h
      exact ⟨hmethod _ rfl, hstatus _ rfl⟩
    have hrun : run t w .idle (.orderGet orderId row.user (some .alipay) (some .toPay)) =
        some (.error .doesNotExist, w, .idle) := by
      rw [run, horders]
      simp [hsatisfies]
    refine ends_ask rfl hrun (.ret ?_)
    rw [if_neg hpays]
    rfl

/-! ### The three views -/

/-- What a line and a row of the page have in common. -/
def ShownSKU.figures (shown : ShownSKU) : ℕ × ℤ × DecimalField := (shown.id, shown.count, shown.sku.price)

/-- What a line and a row of the page have in common. -/
def OrderGoods.figures (line : OrderGoods) : ℕ × ℤ × DecimalField :=
  (line.sku, line.count.val, line.price)

/-- What a pick and a row of the page have in common. -/
def Pick.figures (p : Pick) : ℕ × ℤ × DecimalField := (p.sku, p.count, p.read.price)

theorem map_eq_of_forall₂ {α β γ : Type} {f : α → γ} {g : β → γ} {as : List α} {bs : List β}
    (h : List.Forall₂ (fun a b ↦ f a = g b) as bs) : as.map f = bs.map g := by
  rwa [← List.forall₂_eq_eq_eq, List.forall₂_map_left_iff, List.forall₂_map_right_iff]

theorem forall_of_forall₂ {α β : Type} {R : α → β → Prop} {P : β → Prop} {as : List α} {bs : List β}
    (h : List.Forall₂ R as bs) (hP : ∀ a b, R a b → P b) : ∀ b ∈ bs, P b := by
  induction h with
  | nil => exact fun b hb ↦ by cases hb
  | cons hab _ ih =>
    intro b hb
    rcases List.mem_cons.1 hb with rfl | hb
    · exact hP _ _ hab
    · exact ih b hb

/-- The page and the picks of the commit agree, row by row. -/
theorem figures_eq {db₁ db₂ : Db} {cart : Cart} {ns : List ℕ} {skus : List ShownSKU} {orderId : Str}
    {picks : List Pick} {b : Basket} (hrows : List.Forall₂ (Shows db₁ cart) (ns.map str) skus)
    (htaken : Taken cart orderId db₂.skus picks b) (hraw : picks.map Pick.raw = ns.map str)
    (hprice : ∀ n sku sku', db₁.skus n = some sku → db₂.skus n = some sku' → sku'.price = sku.price) :
    picks.map Pick.figures = skus.map ShownSKU.figures := by
  obtain ⟨hsku, -⟩ := htaken.picks_eq hraw
  rw [← hsku, List.map_map, List.forall₂_map_left_iff] at hrows
  have hpick : ∀ q ∈ picks, ∃ sku, db₂.skus q.sku = some sku ∧ q.read.price = sku.price ∧
      cart.lookup (str q.sku) = some q.count ∧ int q.raw = some (q.sku : ℤ) :=
    fun q hq ↦ htaken.exists_sku hq
  refine map_eq_of_forall₂ (((List.forall₂_and_left _ _).2 ⟨hpick, hrows⟩).imp ?_)
  rintro q shown ⟨⟨sku, hrow, hread, hentry, -⟩, hshows⟩
  obtain ⟨hint, hrow₁⟩ := findRow_eq_ok_iff.1 hshows.row
  have hid : shown.id = q.sku := by
    have hint' : int (str q.sku) = some (shown.id : ℤ) := hint
    rw [int_str] at hint'
    exact (Int.ofNat_inj.1 (Option.some.inj hint')).symm
  have hcount : shown.count = q.count := Option.some.inj (hshows.entry.symm.trans hentry)
  have hprice' : sku.price = shown.sku.price := hprice q.sku shown.sku sku (hid ▸ hrow₁) hrow
  rw [Pick.figures, ShownSKU.figures, hid, hcount, hread, hprice']

/-- The totals of a page are those of the picks with the same figures. -/
theorem totals_of_figures {picks : List Pick} {skus : List ShownSKU}
    (h : picks.map Pick.figures = skus.map ShownSKU.figures) :
    (totals picks).count = (skus.map ShownSKU.count).sum ∧
      (totals picks).price = (skus.map fun shown ↦ shown.sku.price.val * shown.count).sum := by
  have hcounts := congrArg (List.map fun x ↦ x.2.1) h
  have hamounts := congrArg (List.map fun x ↦ x.2.2.val * x.2.1) h
  rw [List.map_map, List.map_map] at hcounts hamounts
  exact ⟨congrArg List.sum hcounts, congrArg List.sum hamounts⟩

/-- **The price shown is the price charged.** The page is rendered in the world `w₁`; the commit runs
alone from the world `w₂`, with the same cart and the same prices; the order is paid in a world `w₃` in
which nothing but its status and its payment number may have changed. -/
theorem price_kept {t₁ t₂ : ι} {k₁ k₂ : ℕ} {ns : List ℕ} {req₁ req₂ : HttpRequest} {now : LocalTime}
    {w₁ w₁' w₂ w₂' : World ι} {l₁ l₂ : Session} {skus : List ShownSKU}
    {totalCount totalPrice transitPrice totalPay : ℤ} {addrs : List (ℕ × Address)} {skuIds : Str}
    {reply : Reply}
    (hpage : (site ι).solo t₁ k₁ (OrderPlaceView.post req₁ (ns.map str)) w₁ .idle =
      some (.html (.placeOrder skus totalCount totalPrice transitPrice totalPay addrs skuIds), w₁', l₁))
    (huser : req₂.user = req₁.user) (hids : req₂.POST "sku_ids".toList = some skuIds)
    (hcart : ∀ user, req₁.user = some user → w₂.carts user = w₁.carts user)
    (hprice : ∀ n sku sku', w₁.db.skus n = some sku → w₂.db.skus n = some sku' → sku'.price = sku.price)
    (hw : Unlocked w₂) (hcommit : (site ι).solo t₂ k₂ (post now req₂) w₂ .idle = some (reply, w₂', l₂))
    (hres : reply.res = some 5) :
    ∃ user row lines, req₁.user = some user ∧
      w₂'.db.orders = w₂.db.orders.set (now.strftime ++ str user) row ∧
      row.totalCount.val = totalCount ∧ row.totalPrice.val = totalPrice ∧
      w₂'.db.lines = w₂.db.lines ++ lines ∧ (∀ line ∈ lines, line.order = now.strftime ++ str user) ∧
      lines.map OrderGoods.figures = skus.map ShownSKU.figures ∧
      ∀ (t₃ : ι) (k₃ : ℕ) (req₃ : HttpRequest) (w₃ : World ι) (row₃ : OrderInfo),
        w₃.db.orders (now.strftime ++ str user) = some row₃ → row₃.core = row.core →
        req₃.user = some user → req₃.POST "order_id".toList = some (now.strftime ++ str user) →
        ∃ reply w l, (site ι).solo t₃ k₃ (OrderPayView.post req₃) w₃ .idle = some (reply, w, l) ∧
          reply.payment = if row₃.payMethod = .alipay ∧ row₃.orderStatus = .toPay then
            some (now.strftime ++ str user, decimalStr totalPay) else none := by
  obtain ⟨user, huser₁, hconfirms⟩ := ends_place.of_solo hpage _ _ _ _ _ _ _ rfl
  have hns : ns ≠ [] := by simpa using hconfirms.nonempty
  have horders : req₂.Orders user ns := ⟨huser.trans huser₁, by rw [hids, hconfirms.joined, joined], hns⟩
  -- what the commit has written
  have hleft := (ends_postOn id now req₂ hw).of_solo hcommit
  rw [hleft.reply] at hres
  obtain ⟨p, hp⟩ := replyOf_res_eq_five_iff.1 hres
  have hdb : w₂'.db = p.db w₂.db := by rw [hleft.db, hp]; rfl
  obtain ⟨c, addr, a, hasks, hfind, hof⟩ := alone_eq_ok_iff.1 hp
  obtain ⟨rfl, hcids⟩ := horders.asks hasks
  have hid : p.orderId = now.strftime ++ str c.user := hof.orderId
  have htaken := hof.taken
  rw [id, hcids, hcart c.user huser₁] at htaken
  obtain ⟨picks, hraw, hbasket⟩ := taken_iff.1 htaken
  have hfigures := figures_eq hconfirms.rows hbasket hraw hprice
  obtain ⟨-, hobject⟩ := OrderObject.row?_eq_some_iff.1 hof.row
  obtain ⟨hcounts, hamounts⟩ := totals_of_figures hfigures
  have hcount : p.basket.totals.count = totalCount := by
    rw [hbasket.totals, hconfirms.count, hcounts]
  have hprice : p.basket.totals.price = totalPrice := by
    have hamount : skus.map ShownSKU.amount = skus.map fun shown ↦ shown.sku.price.val * shown.count :=
      List.map_congr_left (forall_of_forall₂ hconfirms.rows fun _ _ hshows ↦ hshows.amount)
    rw [hbasket.totals, hconfirms.price, hamount, hamounts]
  refine ⟨c.user, p.row, p.basket.lines, huser₁, by rw [hdb, ← hid]; rfl,
    (congrArg OrderObject.totalCount hobject).trans hcount,
    (congrArg OrderObject.totalPrice hobject).trans hprice, by rw [hdb]; rfl, ?_, ?_, ?_⟩
  · exact forall_of_forall₂ (forall₂_of_map_eq hbasket.lines) fun q line hline ↦
      (LineObject.row?_eq_some_iff.1 hline).1.trans hid
  · rw [← hfigures]
    refine (map_eq_of_forall₂ ((forall₂_of_map_eq hbasket.lines).imp fun q line hline ↦ ?_)).symm
    obtain ⟨-, hsku, hcount, hprice, -⟩ := LineObject.row?_eq_some_iff.1 hline
    exact (Prod.ext hsku (Prod.ext hcount hprice)).symm
  · intro t₃ k₃ req₃ w₃ row₃ hrow₃ hcore huser₃ hid₃
    obtain ⟨-, hprice₃, htransit₃⟩ := OrderInfo.figures_eq hcore
    have huser₃' : row₃.user = c.user := by
      have hrowUser : p.row.user = c.user := congrArg OrderObject.user hobject
      rw [← hrowUser]
      exact (OrderInfo.mk.inj hcore).1
    have hnonempty : nonempty (req₃.POST "order_id".toList) = some (now.strftime ++ str c.user) :=
      nonempty_eq_some_iff.2 ⟨hid₃, by simp [str_ne_nil]⟩
    obtain ⟨reply₃, v, l, hsolo, hpayment⟩ := ends_pay (t := t₃) (k := k₃) (huser₃' ▸ huser₃) hnonempty hrow₃
    refine ⟨reply₃, v, l, hsolo, ?_⟩
    have htotal : row₃.totalPrice.val + row₃.transitPrice.val = totalPay := by
      rw [hprice₃, htransit₃, hconfirms.pay, ← hprice]
      exact congrArg₂ (· + ·) (congrArg OrderObject.totalPrice hobject)
        (congrArg OrderObject.transitPrice hobject)
    rw [hpayment, htotal]

/-- The rows of the page for the ids 1, 2 and 1 again. -/
def basketRows : List ShownSKU :=
  let apples : ShownSKU :=
    { id := 1, sku := { price := .lit 250 (.refl true), stock := .lit 5 (.refl true), sales := .lit 0 (.refl true) },
      count := 2, amount := 500 }
  let pears : ShownSKU :=
    { id := 2, sku := { price := .lit 1000 (.refl true), stock := .lit 3 (.refl true), sales := .lit 0 (.refl true) },
      count := 1, amount := 1000 }
  [apples, pears, apples]

/-- The page shows five pieces for 20.00, and 30.00 to pay; the commit is accepted. -/
theorem price_kept_basket :
    let w : World (Fin 1) := .initial smallShop (fun _ ↦ cartOf [("1", 2), ("2", 1)]) silent
    ∃ addrs w₁' l₁ reply w₂' l₂,
      (site (Fin 1)).solo 0 0 (OrderPlaceView.post basketForm ([1, 2, 1].map str)) w .idle =
        some (.html (.placeOrder basketRows 5 2000 1000 3000 addrs "1,2,1".toList), w₁', l₁) ∧
      (site (Fin 1)).solo 0 0 (post (clock 0) basketForm) w .idle = some (reply, w₂', l₂) ∧
      reply.res = some 5 ∧
      ∃ user row, ∃ lines : List OrderGoods, basketForm.user = some user ∧
        w₂'.db.orders = smallShop.orders.set ((clock 0).strftime ++ str user) row ∧
        row.totalCount.val = 5 ∧ row.totalPrice.val = 2000 ∧
        lines.map OrderGoods.figures = basketRows.map ShownSKU.figures := by
  intro w
  have hpage : ((site (Fin 1)).solo 0 0 (OrderPlaceView.post basketForm ([1, 2, 1].map str)) w
      .idle).map (·.1) = some (.html (.placeOrder basketRows 5 2000 1000 3000
        (smallShop.addresses fun a ↦ a.user = 7) "1,2,1".toList)) := by rfl
  have hcommit : ((site (Fin 1)).solo 0 0 (post (clock 0) basketForm) w .idle).map
      (fun x ↦ x.1.res) = some (some 5) := by rfl
  obtain ⟨⟨_, w₁', l₁⟩, hpage, rfl⟩ := Option.map_eq_some_iff.1 hpage
  obtain ⟨⟨reply, w₂', l₂⟩, hcommit, hres⟩ := Option.map_eq_some_iff.1 hcommit
  have hw : Unlocked w := ⟨fun _ ↦ rfl, fun _ ↦ rfl⟩
  obtain ⟨user, row, lines, huser, hrow, hcount, hprice, -, -, hfigures, -⟩ :=
    price_kept hpage rfl rfl (fun _ _ ↦ rfl)
      (fun n sku sku' h h' ↦ by rw [Option.some.inj (h.symm.trans h')]) hw hcommit hres
  exact ⟨_, w₁', l₁, reply, w₂', l₂, hpage, hcommit, hres, user, row, lines, huser, hrow, hcount, hprice,
    hfigures⟩

end DailyFresh
