import DailyFresh.Concurrent.Effect
import DailyFresh.Interleave.Solo

/-!
# A checkout that runs alone

`OrderCommitView.alone` says, without commands, transactions or retries, what `OrderCommitView.postOn`
does when nobody else is moving: it reads the request, finds the address, takes the items from left to
right (`takeOne`) over the products as its earlier items left them, and either places an order
(`Placement`) or refuses (`Refusal`).

`ends_postOn` is the one theorem here about the program: run alone, it comes to the result of `alone`,
and then either everything of the placement is committed and the requested fields are gone from the
cart, or no table and no cart has changed. On the way every early exit has to undo what the items
before it have written: by the rollback to the savepoint where the transaction is still sound, and by
the rollback of the whole transaction where a failed write has broken it. `reach_of_alone` says the same
of a run of the site.
-/

namespace DailyFresh

open Python Store Interleave

namespace OrderCommitView

/-- What a checkout has taken so far: the products as it sees them, its lines and its totals. -/
structure Basket where
  skus : Table ℕ GoodsSKU
  lines : List OrderGoods
  totals : Totals

/-- Nothing has been taken. -/
def Basket.empty (db : Db) : Basket where
  skus := db.skus
  lines := []
  totals := { count := 0, price := 0 }

/-- Why a checkout places no order. -/
inductive Refusal where
  /-- Nobody is logged in. -/
  | login
  /-- A parameter is missing. -/
  | incomplete
  | payMethod
  /-- No address has this id. -/
  | address
  /-- No product has this id. -/
  | noProduct
  /-- The product is not in the cart. -/
  | noEntry
  | noStock
  /-- An exception leaves the view: the id of the address is no number, the order id is taken, or a
  column refuses a value. -/
  | exception
  deriving DecidableEq, Repr

/-- What a refused request is answered. -/
def Refusal.reply : Refusal → Reply
  | login => .errmsg 0 "请登录"
  | incomplete => .errmsg 1 "数据不完整"
  | payMethod => .errmsg 2 "支付方式错误"
  | address => .errmsg 3 "地址非法"
  | noProduct => .errmsg 4 "商品不存在"
  | noEntry => .errmsg 7 "添加订单失败"
  | noStock => .errmsg 6 "商品库存不足"
  | exception => .error

theorem Refusal.reply_res_ne (e : Refusal) : e.reply.res ≠ some 5 := by
  cases e <;> decide

/-- Take one item. -/
def takeOne (cart : Cart) (orderId : Str) (b : Basket) (skuId : Str) : Except Refusal Basket :=
  match findRow b.skus skuId with
  | .error _ => .error .noProduct
  | .ok (n, sku) =>
    match cart.lookup (str n) with
    | none => .error .noEntry
    | some count =>
      if count > sku.stock.val then .error .noStock
      else
        match sku.update? (sku.stock.val - count) (sku.sales.val + count),
          LineObject.row? { order := orderId, sku := n, count, price := sku.price } with
        | some new, some line =>
          .ok { skus := b.skus.set n new
                lines := b.lines ++ [line]
                totals := { count := b.totals.count + count
                            price := b.totals.price + sku.price.val * count } }
        | _, _ => .error .exception

/-- The parameters of the request. -/
def parse (request : HttpRequest) : Except Refusal Checkout :=
  match request.user with
  | none => .error .login
  | some user =>
    match nonempty (request.POST "addr_id".toList), nonempty (request.POST "pay_method".toList),
      nonempty (request.POST "sku_ids".toList) with
    | some addrId, some payMethod, some skuIds =>
      match PAY_METHODS.lookup payMethod with
      | none => .error .payMethod
      | some payMethod => .ok { user, addrId, payMethod, skuIds }
    | _, _, _ => .error .incomplete

/-- An order that a checkout has placed. -/
structure Placement where
  checkout : Checkout
  addr : ℕ
  orderId : Str
  row : OrderInfo
  basket : Basket

/-- Create the order, take the items and save the totals. -/
def place (positions : List Str → List Str) (now : LocalTime) (c : Checkout) (addr : ℕ) (db : Db)
    (cart : Cart) : Except Refusal Placement :=
  let order := newOrder now c.user addr c.payMethod
  match order.row?, db.orders order.orderId with
  | some _, none =>
    match (positions c.ids).foldlM (takeOne cart order.orderId) (.empty db) with
    | .error e => .error e
    | .ok basket =>
      match OrderObject.row? { order with totalCount := basket.totals.count
                                          totalPrice := basket.totals.price } with
      | none => .error .exception
      | some row => .ok { checkout := c, addr, orderId := order.orderId, row, basket }
  | _, _ => .error .exception

/-- What a placement is made of. -/
structure Placement.Of (positions : List Str → List Str) (now : LocalTime) (c : Checkout) (addr : ℕ)
    (db : Db) (cart : Cart) (p : Placement) : Prop where
  checkout : p.checkout = c
  address : p.addr = addr
  orderId : p.orderId = (newOrder now c.user addr c.payMethod).orderId
  fits : (newOrder now c.user addr c.payMethod).row? ≠ none
  absent : db.orders p.orderId = none
  taken : (positions c.ids).foldlM (takeOne cart p.orderId) (.empty db) = .ok p.basket
  row : OrderObject.row? { newOrder now c.user addr c.payMethod with
    totalCount := p.basket.totals.count, totalPrice := p.basket.totals.price } = some p.row

theorem place_eq_ok_iff {positions : List Str → List Str} {now : LocalTime} {c : Checkout} {addr : ℕ}
    {db : Db} {cart : Cart} {p : Placement} :
    place positions now c addr db cart = .ok p ↔ p.Of positions now c addr db cart := by
  unfold place
  constructor
  · intro h
    dsimp only at h
    split at h
    · rename_i row hrow hnone
      split at h
      · cases h
      · rename_i basket hbasket
        split at h
        · cases h
        · rename_i row' hrow'
          cases h
          exact ⟨rfl, rfl, rfl, by rw [hrow]; simp, hnone, hbasket, hrow'⟩
    · cases h
  · intro h
    obtain ⟨checkout, addr', orderId, row, basket⟩ := p
    obtain ⟨hc, ha, hid, hfits, habsent, htaken, hrow⟩ := h
    dsimp only at hc ha hid habsent htaken hrow
    subst hc ha hid
    obtain ⟨row₀, hfits⟩ := Option.ne_none_iff_exists'.1 hfits
    simp only [hfits, habsent, htaken, hrow]

/-- What `postOn positions` does when it runs alone. -/
def alone (positions : List Str → List Str) (now : LocalTime) (request : HttpRequest) (db : Db)
    (carts : ℕ → Cart) : Except Refusal Placement :=
  match parse request with
  | .error e => .error e
  | .ok c =>
    match findRow db.address c.addrId with
    | .error .doesNotExist => .error .address
    | .error _ => .error .exception
    | .ok (addr, _) => place positions now c addr db (carts c.user)

theorem parse_eq_ok_iff {req : HttpRequest} {c : Checkout} : parse req = .ok c ↔ req.Asks c := by
  unfold parse
  constructor
  · intro h
    split at h
    · cases h
    rename_i user huser
    split at h
    · rename_i addrId key skuIds haddr hpay hskus
      split at h
      · cases h
      · rename_i method hmethod
        cases h
        exact ⟨huser, haddr, ⟨key, hpay, hmethod⟩, hskus⟩
    · cases h
  · rintro ⟨huser, haddr, ⟨key, hpay, hmethod⟩, hskus⟩
    simp only [huser, haddr, hpay, hskus, hmethod]

theorem alone_eq_ok_iff {positions : List Str → List Str} {now : LocalTime} {req : HttpRequest}
    {db : Db} {carts : ℕ → Cart} {p : Placement} :
    alone positions now req db carts = .ok p ↔ ∃ c addr a, req.Asks c ∧
      findRow db.address c.addrId = .ok (addr, a) ∧
      p.Of positions now c addr db (carts c.user) := by
  unfold alone
  constructor
  · intro h
    split at h
    · cases h
    rename_i c hc
    split at h
    · cases h
    · cases h
    · rename_i addr a hfind
      exact ⟨c, addr, a, parse_eq_ok_iff.1 hc, hfind, place_eq_ok_iff.1 h⟩
  · rintro ⟨c, addr, a, hasks, hfind, hp⟩
    simp only [parse_eq_ok_iff.2 hasks, hfind, place_eq_ok_iff.2 hp]

/-- The tables after a placement. -/
def Placement.db (p : Placement) (db : Db) : Db :=
  { db with skus := p.basket.skus
            orders := db.orders.set p.orderId p.row
            lines := db.lines ++ p.basket.lines }

/-- The carts after a placement. -/
def Placement.carts (p : Placement) (carts : ℕ → Cart) : ℕ → Cart :=
  Function.update carts p.checkout.user ((carts p.checkout.user).hdel p.checkout.ids)

end OrderCommitView

open OrderCommitView

variable {ι : Type} [DecidableEq ι] {t : ι} {k : ℕ} {α β : Type} {w₀ w : World ι} {l : Session}

/-! ### The world of a request that runs alone -/

/-- Nobody holds a lock. -/
structure Unlocked (w : World ι) : Prop where
  skuLock : ∀ n, w.skuLock n = none
  orderLock : ∀ k, w.orderLock k = none

/-- Since `w₀`, the request `t` has sent commands and taken locks, and nothing else has changed. -/
structure Along (t : ι) (w₀ w : World ι) : Prop where
  db : w.db = w₀.db
  carts : w.carts = w₀.carts
  histories : w.histories = w₀.histories
  skuLock : ∀ n u, w.skuLock n = some u → u = t
  orderLock : ∀ k u, w.orderLock k = some u → u = t

omit [DecidableEq ι] in
theorem Unlocked.along (h : Unlocked w) : Along t w w where
  db := rfl
  carts := rfl
  histories := rfl
  skuLock n u hu := by
    rw [h.skuLock n] at hu
    cases hu
  orderLock k u hu := by
    rw [h.orderLock k] at hu
    cases hu

namespace Along

omit [DecidableEq ι] in
theorem record (h : Along t w₀ w) (c : Cmd) (r : c.Resp) : Along t w₀ (w.record t c r) :=
  ⟨h.db, h.carts, h.histories, h.skuLock, h.orderLock⟩

theorem skuFree (h : Along t w₀ w) (n : ℕ) : w.skuLock.free t n = true :=
  Locks.free_iff.2 fun u hu hlock ↦ hu (h.skuLock n u hlock)

theorem orderFree (h : Along t w₀ w) (k : Str) : w.orderLock.free t k = true :=
  Locks.free_iff.2 fun u hu hlock ↦ hu (h.orderLock k u hlock)

omit [DecidableEq ι] in
theorem writeSku (h : Along t w₀ w) (hl : l.inAtomic = true) (n : ℕ) (sku : GoodsSKU) :
    Along t w₀ (w.writeSku t l n sku).1 := by
  rw [World.writeSku, if_pos hl]
  refine ⟨h.db, h.carts, h.histories, fun n' u hu ↦ ?_, h.orderLock⟩
  by_cases hn : n' = n
  · subst hn
    exact (Option.some.inj ((Locks.acquire_self ..).symm.trans hu)).symm
  · exact h.skuLock n' u ((Locks.acquire_of_ne hn).symm.trans hu)

omit [DecidableEq ι] in
theorem writeOrder (h : Along t w₀ w) (hl : l.inAtomic = true) (k : Str) (row : OrderInfo) :
    Along t w₀ (w.writeOrder t l k row).1 := by
  rw [World.writeOrder, if_pos hl]
  refine ⟨h.db, h.carts, h.histories, h.skuLock, fun k' u hu ↦ ?_⟩
  by_cases hk : k' = k
  · subst hk
    exact (Option.some.inj ((Locks.acquire_self ..).symm.trans hu)).symm
  · exact h.orderLock k' u ((Locks.acquire_of_ne hk).symm.trans hu)

/-- The end of the transaction leaves no lock. -/
theorem release (h : Along t w₀ w) : Unlocked (w.release t) where
  skuLock n := by
    show (if w.skuLock n = some t then none else w.skuLock n) = none
    split
    · rfl
    · rename_i hne
      exact Option.eq_none_iff_forall_ne_some.2 fun u hu ↦ hne (h.skuLock n u hu ▸ hu)
  orderLock k := by
    show (if w.orderLock k = some t then none else w.orderLock k) = none
    split
    · rfl
    · rename_i hne
      exact Option.eq_none_iff_forall_ne_some.2 fun u hu ↦ hne (h.orderLock k u hu ▸ hu)

end Along

/-- A command of a sound session. -/
theorem ends_ask {Q : β → World ι → Session → Prop} {c : Cmd} {f : c.Resp → Program Services β}
    (hsound : l.needsRollback = false) {r : c.Resp} {v : World ι} {l' : Session}
    (hrun : run t w l c = some (r, v, l')) (h : (site ι).Ends t k Q (f r) (v.record t c r) l') :
    (site ι).Ends t k Q (ask c >>= f) w l :=
  .call ((exec_eq_some_iff hsound).2 ⟨v, hrun, rfl⟩) h

/-! ### Refusing -/

/-- A checkout has been refused: it has replied with nothing pending; or it has raised, and what is
pending goes when it handles the exception or its transaction ends. -/
structure GivenUp (t : ι) (w₀ : World ι) (e : Refusal) (flow : Flow β) (w : World ι) (l : Session) :
    Prop where
  along : Along t w₀ w
  flow : (flow = .reply e.reply ∧ l.needsRollback = false ∧ l.pending = .empty) ∨
    (flow = .raised ∧ e = .noEntry ∧ l.needsRollback = false ∧ l.saved = .empty) ∨
    (flow = .raised ∧ e = .exception ∧ l.needsRollback = true)

/-- Having rolled back to the savepoint, the view replies. -/
theorem ends_rollbackAndReply {e : Refusal} {res : ℤ} {errmsg : String}
    (hreply : e.reply = .errmsg res errmsg) (halong : Along t w₀ w) (hsound : l.needsRollback = false)
    (hsaved : l.saved = .empty) :
    (site ι).Ends t k (GivenUp t w₀ e) (rollbackAndReply (α := β) res errmsg) w l := by
  refine ends_ask hsound rfl (.ret ⟨halong.record .., .inl ⟨?_, hsound, hsaved⟩⟩)
  rw [hreply]

omit [DecidableEq ι] in
/-- A write that a column refuses breaks the transaction. -/
theorem GivenUp.broken (halong : Along t w₀ w) (hl : l.inAtomic = true) (c : Cmd) (r : c.Resp) :
    GivenUp t w₀ .exception (.raised : Flow β) (w.record t c r) l.fail where
  along := halong.record c r
  flow := .inr (.inr ⟨rfl, rfl, by rw [Session.fail, hl, Bool.or_true]⟩)

/-! ### Taking the items -/

/-- In the middle of its items a checkout has its order, its lines and the products of its basket
pending. -/
structure Carrying (t : ι) (w₀ : World ι) (orderId : Str) (row : OrderInfo) (b : Basket) (w : World ι)
    (l : Session) : Prop where
  along : Along t w₀ w
  inAtomic : l.inAtomic = true
  sound : l.needsRollback = false
  saved : l.saved = .empty
  skus : l.pending.skus.overlay w₀.db.skus = b.skus
  orders : l.pending.orders = Table.empty.set orderId row
  lines : l.pending.lines = b.lines

namespace Carrying

variable {orderId : Str} {row : OrderInfo} {b : Basket}

omit [DecidableEq ι] in
theorem record (h : Carrying t w₀ orderId row b w l) (c : Cmd) (r : c.Resp) :
    Carrying t w₀ orderId row b (w.record t c r) l :=
  { h with along := h.along.record c r }

omit [DecidableEq ι] in
theorem skus_eq (h : Carrying t w₀ orderId row b w l) : w.skus l = b.skus := by
  rw [World.skus, h.along.db, h.skus]

omit [DecidableEq ι] in
theorem writeSku (h : Carrying t w₀ orderId row b w l) (n : ℕ) (sku : GoodsSKU) :
    Carrying t w₀ orderId row { b with skus := b.skus.set n sku } (w.writeSku t l n sku).1
      (w.writeSku t l n sku).2 where
  along := h.along.writeSku h.inAtomic n sku
  inAtomic := by rw [World.writeSku, if_pos h.inAtomic, h.inAtomic]
  sound := by rw [World.writeSku, if_pos h.inAtomic, h.sound]
  saved := by rw [World.writeSku, if_pos h.inAtomic, h.saved]
  skus := by
    rw [World.writeSku, if_pos h.inAtomic]
    show (l.pending.skus.set n sku).overlay w₀.db.skus = b.skus.set n sku
    rw [Table.overlay_set, h.skus]
  orders := by rw [World.writeSku, if_pos h.inAtomic, h.orders]
  lines := by rw [World.writeSku, if_pos h.inAtomic, h.lines]

omit [DecidableEq ι] in
theorem writeLine (h : Carrying t w₀ orderId row b w l) (line : OrderGoods) :
    Carrying t w₀ orderId row { b with lines := b.lines ++ [line] } (w.writeLine l line).1
      (w.writeLine l line).2 := by
  rw [World.writeLine, if_pos h.inAtomic]
  exact { h with lines := congrArg (· ++ [line]) h.lines }

end Carrying

/-- How taking items ends: with the basket that `alone` computes, or with its refusal. -/
def Came (t : ι) (w₀ : World ι) (orderId : Str) (row : OrderInfo) :
    Except Refusal Basket → Flow Totals → World ι → Session → Prop
  | .ok b, flow, w, l => flow = .next b.totals ∧ Carrying t w₀ orderId row b w l
  | .error e, flow, w, l => GivenUp t w₀ e flow w l

/-- The update of a row that has not changed since it was read. -/
theorem run_skuUpdate_of_read {id : Str} {n : ℕ} {sku : GoodsSKU}
    (hfind : findRow (w.skus l) id = .ok (n, sku)) (hfree : w.skuLock.free t n = true)
    (newStock newSales : ℤ) :
    run t w l (.skuUpdate id sku.stock.val newStock newSales) =
      match sku.update? newStock newSales with
      | some new => some (.ok 1, w.writeSku t l n new)
      | none => some (.error .dataError, w, l.fail) := by
  rcases hnew : sku.update? newStock newSales with - | new
  · simp only [run, hfind, hfree, hnew, if_true]
  · simp only [run, hfind, hfree, hnew, if_true]

/-- The end of an item whose row has been written. -/
theorem ends_recordItem {orderId : Str} {row : OrderInfo} {b : Basket} (n : ℕ) (sku : GoodsSKU)
    (count : ℤ) {skus : Table ℕ GoodsSKU} (h : Carrying t w₀ orderId row { b with skus } w l) :
    (site ι).Ends t k
      (Came t w₀ orderId row
        (match LineObject.row? { order := orderId, sku := n, count, price := sku.price } with
        | some line =>
          .ok { skus
                lines := b.lines ++ [line]
                totals := { count := b.totals.count + count
                            price := b.totals.price + sku.price.val * count } }
        | none => .error .exception))
      (recordItem orderId n sku count b.totals) w l := by
  rw [recordItem]
  rcases hline : LineObject.row? { order := orderId, sku := n, count, price := sku.price } with - | line
  · have hrun : run t w l (.lineCreate { order := orderId, sku := n, count, price := sku.price }) =
        some (.error .dataError, w, l.fail) := by
      rw [run, hline]
    exact ends_ask h.sound hrun (.ret (.broken h.along h.inAtomic ..))
  · have hrun : run t w l (.lineCreate { order := orderId, sku := n, count, price := sku.price }) =
        some (.ok (), w.writeLine l line) := by
      rw [run, hline]
    refine ends_ask h.sound hrun (.ret ⟨rfl, ?_⟩)
    have h' := (h.writeLine line).record
      (.lineCreate { order := orderId, sku := n, count, price := sku.price }) (.ok ())
    exact { h' with }

/-- **One item.** With nobody else moving, the first attempt decides. -/
theorem ends_tryItem {orderId skuId : Str} {row : OrderInfo} {b : Basket} (user : ℕ) {i : ℕ}
    {rest : List ℕ} (h : Carrying t w₀ orderId row b w l) :
    (site ι).Ends t k (Came t w₀ orderId row (takeOne (w₀.carts user) orderId b skuId))
      (tryItem user orderId skuId b.totals (i :: rest)) w l := by
  have hskus := h.skus_eq
  rw [tryItem]
  rcases hfind : findRow b.skus skuId with e | ⟨n, sku⟩
  · have hrun : run t w l (.skuGet skuId) = some (.error e, w, l) := by
      rw [run, hskus, hfind]
    rw [takeOne, hfind]
    refine ends_ask h.sound hrun ?_
    -- no such product: the savepoint is rolled back
    exact ends_rollbackAndReply (e := .noProduct) rfl (h.along.record ..) h.sound h.saved
  · have hrun : run t w l (.skuGet skuId) = some (.ok (n, sku), w, l) := by
      rw [run, hskus, hfind]
    refine ends_ask h.sound hrun ?_
    replace h := h.record (.skuGet skuId) (.ok (n, sku))
    generalize w.record t (.skuGet skuId) (.ok (n, sku)) = w at h
    have hrun : run t w l (.hget user (str n)) = some ((w₀.carts user).lookup (str n), w, l) := by
      rw [run, h.along.carts]
    refine ends_ask h.sound hrun ?_
    replace h := h.record (.hget user (str n)) ((w₀.carts user).lookup (str n))
    generalize w.record t (.hget user (str n)) _ = w at h
    rcases hcount : (w₀.carts user).lookup (str n) with - | count
    · rw [takeOne, hfind]
      simp only [hcount]
      -- `int(None)` leaves the `try:` block
      exact .ret ⟨h.along, .inr (.inl ⟨rfl, rfl, h.sound, h.saved⟩)⟩
    · rw [takeOne, hfind]
      simp only [hcount]
      by_cases hstock : count > sku.stock.val
      · rw [if_pos hstock, if_pos hstock]
        exact ends_rollbackAndReply (e := .noStock) rfl h.along h.sound h.saved
      · rw [if_neg hstock, if_neg hstock]
        -- the row is still the one that was read, so the update matches
        have hupdate := run_skuUpdate_of_read (h.skus_eq.symm ▸ hfind) (h.along.skuFree n)
          (sku.stock.val - count) (sku.sales.val + count)
        rcases hnew : sku.update? (sku.stock.val - count) (sku.sales.val + count) with - | new
        · rw [hnew] at hupdate
          exact ends_ask h.sound hupdate (.ret (.broken h.along h.inAtomic ..))
        · rw [hnew] at hupdate
          refine ends_ask h.sound hupdate ?_
          replace h := (h.writeSku n new).record
            (.skuUpdate skuId sku.stock.val (sku.stock.val - count) (sku.sales.val + count)) (.ok 1)
          have hends := ends_recordItem (k := k) n sku count h
          rcases hline : LineObject.row? { order := orderId, sku := n, count, price := sku.price }
          all_goals
            rw [hline] at hends
            exact hends

/-- **The loop over the items**, by induction on what is left of it. -/
theorem ends_takeItems {orderId : Str} {row : OrderInfo} (user : ℕ) (ids : List Str) {b : Basket}
    (h : Carrying t w₀ orderId row b w l) :
    (site ι).Ends t k (Came t w₀ orderId row (ids.foldlM (takeOne (w₀.carts user) orderId) b))
      (takeItems user orderId ids b.totals) w l := by
  induction ids generalizing b w l with
  | nil => exact .ret ⟨rfl, h⟩
  | cons skuId ids ih =>
    rw [takeItems, List.foldlM_cons]
    refine (ends_tryItem user h).bind fun flow w l hcame ↦ ?_
    rcases hone : takeOne (w₀.carts user) orderId b skuId with e | b'
    · rw [hone] at hcame
      obtain ⟨halong, hflow⟩ := hcame
      rcases hflow with ⟨rfl, h⟩ | ⟨rfl, h⟩ | ⟨rfl, h⟩
      · exact .ret ⟨halong, .inl ⟨rfl, h⟩⟩
      · exact .ret ⟨halong, .inr (.inl ⟨rfl, h⟩)⟩
      · exact .ret ⟨halong, .inr (.inr ⟨rfl, h⟩)⟩
    · rw [hone] at hcame
      obtain ⟨rfl, h⟩ := hcame
      exact ih h

/-! ### The whole request -/

namespace OrderCommitView

/-- The reply to a request that ran alone. -/
def replyOf : Except Refusal Placement → Reply
  | .ok _ => .message 5 "添加成功"
  | .error e => e.reply

/-- The tables after a request that ran alone. -/
def dbAfter : Except Refusal Placement → Db → Db
  | .ok p, db => p.db db
  | .error _, db => db

/-- The carts after a request that ran alone. -/
def cartsAfter : Except Refusal Placement → (ℕ → Cart) → ℕ → Cart
  | .ok p, carts => p.carts carts
  | .error _, carts => carts

theorem replyOf_res_eq_five_iff {x : Except Refusal Placement} :
    (replyOf x).res = some 5 ↔ ∃ p, x = .ok p := by
  rcases x with e | p
  · exact ⟨fun h ↦ absurd h e.reply_res_ne, fun ⟨_, h⟩ ↦ by cases h⟩
  · exact ⟨fun _ ↦ ⟨p, rfl⟩, fun _ ↦ rfl⟩

end OrderCommitView

/-- A request that began in the world `w₀` has run alone, with this result. -/
structure Left (w₀ : World ι) (x : Except Refusal Placement) (reply : Reply) (w : World ι)
    (l : Session) : Prop where
  reply : reply = replyOf x
  db : w.db = dbAfter x w₀.db
  carts : w.carts = cartsAfter x w₀.carts
  histories : w.histories = w₀.histories
  unlocked : Unlocked w
  idle : l = .idle

/-- The order with its items is pending, or the checkout is refused. -/
def Brought (t : ι) (w₀ : World ι) :
    Except Refusal Placement → Flow Unit → World ι → Session → Prop
  | .ok p, flow, w, l => flow = .next () ∧ Carrying t w₀ p.orderId p.row p.basket w l
  | .error e, flow, w, l => GivenUp t w₀ e flow w l

omit [DecidableEq ι] in
theorem GivenUp.of_flow {γ : Type} {e : Refusal} {flow : Flow β} {flow' : Flow γ}
    (h : GivenUp t w₀ e flow w l) (hreply : ∀ r, flow = .reply r → flow' = .reply r)
    (hraised : flow = .raised → flow' = .raised) : GivenUp t w₀ e flow' w l where
  along := h.along
  flow := by
    rcases h.flow with ⟨hflow, h⟩ | ⟨hflow, h⟩ | ⟨hflow, h⟩
    · exact .inl ⟨hreply _ hflow, h⟩
    · exact .inr (.inl ⟨hraised hflow, h⟩)
    · exact .inr (.inr ⟨hraised hflow, h⟩)

/-- A connection in a transaction that has written nothing. -/
structure Entered (t : ι) (w₀ w : World ι) (l : Session) : Prop where
  along : Along t w₀ w
  inAtomic : l.inAtomic = true
  sound : l.needsRollback = false
  saved : l.saved = .empty
  pending : l.pending = .empty

/-- The order is saved with the totals of its basket. -/
theorem ends_saveTotals {order saved : OrderObject} {row₀ : OrderInfo} {basket : Basket}
    (hsaved : { order with totalCount := basket.totals.count
                           totalPrice := basket.totals.price } = saved)
    (h : Carrying t w₀ order.orderId row₀ basket w l) :
    (site ι).Ends t k
      (fun flow w l ↦
        (∀ row, saved.row? = some row →
          flow = .next () ∧ Carrying t w₀ order.orderId row basket w l) ∧
        (saved.row? = none → GivenUp t w₀ .exception flow w l))
      (saveTotals order basket.totals) w l := by
  rw [saveTotals, hsaved]
  have hid : saved.orderId = order.orderId := by rw [← hsaved]
  rcases hrow : saved.row? with - | row
  · have hrun : run t w l (.orderSave saved) = some (.error .dataError, w, l.fail) := by
      rw [run, hrow]
    refine ends_ask h.sound hrun (.ret ⟨fun row hsome ↦ ?_, fun _ ↦ .broken h.along h.inAtomic ..⟩)
    cases hsome
  · -- the row is written a second time, over the one of the creation
    have hrun : run t w l (.orderSave saved) = some (.ok (), w.writeOrder t l saved.orderId row) := by
      rw [run, hrow]
      simp only [h.along.orderFree, if_true]
    refine ends_ask h.sound hrun (.ret ⟨fun row' hsome ↦ ⟨rfl, ?_⟩, fun hnone ↦ by cases hnone⟩)
    obtain rfl := Option.some.inj hsome
    show Carrying t w₀ order.orderId row basket ((w.writeOrder t l saved.orderId row).1.record t _ _)
      (w.writeOrder t l saved.orderId row).2
    have halong := h.along.writeOrder h.inAtomic saved.orderId row
    rw [World.writeOrder, if_pos h.inAtomic] at halong ⊢
    refine ⟨halong.record .., h.inAtomic, h.sound, h.saved, h.skus, ?_, h.lines⟩
    show l.pending.orders.set saved.orderId row = _
    rw [h.orders, hid, Table.set_set]

/-- **The `try` block.** -/
theorem ends_placeOrder {positions : List Str → List Str} {now : LocalTime} {c : Checkout} {addr : ℕ}
    (h : Entered t w₀ w l) :
    (site ι).Ends t k (Brought t w₀ (place positions now c addr w₀.db (w₀.carts c.user)))
      (placeOrder (newOrder now c.user addr c.payMethod) (positions c.ids)) w l := by
  generalize horder : newOrder now c.user addr c.payMethod = order
  have huser : order.user = c.user := by rw [← horder]; rfl
  have horders : w.orders l = w₀.db.orders := by
    rw [World.orders, h.pending, h.along.db]
    rfl
  rw [placeOrder, place, horder, ← huser]
  rcases hrow : order.row? with - | row
  · have hrun : run t w l (.orderCreate order) = some (.error .dataError, w, l.fail) := by
      rw [run, hrow]
    exact ends_ask h.sound hrun (.ret (.broken h.along h.inAtomic ..))
  rcases hnone : w₀.db.orders order.orderId with - | old
  · have hrun : run t w l (.orderCreate order) =
        some (.ok (), w.writeOrder t l order.orderId row) := by
      rw [run, hrow]
      simp only [h.along.orderFree, if_true, horders, hnone]
    refine ends_ask h.sound hrun ?_
    -- the transaction holds the new row and nothing else
    have hcarrying : Carrying t w₀ order.orderId row (.empty w₀.db)
        ((w.writeOrder t l order.orderId row).1.record t (.orderCreate order) (.ok ()))
        (w.writeOrder t l order.orderId row).2 := by
      have halong := h.along.writeOrder h.inAtomic order.orderId row
      rw [World.writeOrder, if_pos h.inAtomic] at halong ⊢
      refine ⟨halong.record .., h.inAtomic, h.sound, h.saved, ?_, ?_, ?_⟩
      · show l.pending.skus.overlay w₀.db.skus = w₀.db.skus
        rw [h.pending]
        rfl
      · show l.pending.orders.set order.orderId row = _
        rw [h.pending]
        rfl
      · show l.pending.lines = []
        rw [h.pending]
        rfl
    refine (ends_takeItems order.user (positions c.ids) hcarrying).bind fun flow w l hcame ↦ ?_
    rcases htaken : (positions c.ids).foldlM (takeOne (w₀.carts order.user) order.orderId)
      (.empty w₀.db) with e | basket
    · rw [htaken] at hcame
      rcases hcame.flow with ⟨rfl, -⟩ | ⟨rfl, -⟩ | ⟨rfl, -⟩
      · exact .ret (hcame.of_flow (fun r hr ↦ by rw [Flow.reply.inj hr]) (by rintro ⟨⟩))
      · exact .ret (hcame.of_flow (fun r hr ↦ by cases hr) fun _ ↦ rfl)
      · exact .ret (hcame.of_flow (fun r hr ↦ by cases hr) fun _ ↦ rfl)
    · rw [htaken] at hcame
      obtain ⟨rfl, h⟩ := hcame
      refine (ends_saveTotals rfl h).mono fun flow w l hsaved ↦ ?_
      dsimp only
      split
      · rename_i hrow
        exact hsaved.2 hrow
      · rename_i row hrow
        exact hsaved.1 row hrow
  · have hrun : run t w l (.orderCreate order) = some (.error .integrityError, w, l.fail) := by
      rw [run, hrow]
      simp only [h.along.orderFree, if_true, horders, hnone]
    exact ends_ask h.sound hrun (.ret (.broken h.along h.inAtomic ..))

/-- The body of the view has ended; the end of its transaction will leave this result. -/
def Closing (t : ι) (w₀ : World ι) :
    Except Refusal Placement → Option Reply → World ι → Session → Prop
  | .ok p, reply, w, l => reply = some (replyOf (.ok p)) ∧
      ∃ v, Carrying t w₀ p.orderId p.row p.basket v l ∧
        w = (v.setCart p.checkout.user ((v.carts p.checkout.user).hdel p.checkout.ids)).record t
          (.hdel p.checkout.user p.checkout.ids) ()
  | .error e, reply, w, l => Along t w₀ w ∧
      (reply = some e.reply ∧ l.needsRollback = false ∧ l.pending = .empty ∨
        reply = none ∧ e = .exception)

/-- **The view without its decorator.** -/
theorem ends_body {positions : List Str → List Str} {now : LocalTime} {req : HttpRequest}
    (h : Entered t w₀ w l) :
    (site ι).Ends t k (Closing t w₀ (alone positions now req w₀.db w₀.carts))
      (body positions now req) w l := by
  have hreplied : ∀ {e : Refusal} {w : World ι} {l : Session}, Entered t w₀ w l →
      Closing t w₀ (.error e) (some e.reply) w l :=
    fun h ↦ ⟨h.along, .inl ⟨rfl, h.sound, h.pending⟩⟩
  rw [body, alone, parse]
  rcases req.user with - | user
  · exact .ret (hreplied (e := .login) h)
  rcases nonempty (req.POST "addr_id".toList) with - | addrId
  · exact .ret (hreplied (e := .incomplete) h)
  rcases nonempty (req.POST "pay_method".toList) with - | payMethod
  · exact .ret (hreplied (e := .incomplete) h)
  rcases nonempty (req.POST "sku_ids".toList) with - | skuIds
  · exact .ret (hreplied (e := .incomplete) h)
  rcases hlookup : PAY_METHODS.lookup payMethod with - | method
  · simp only [hlookup]
    exact .ret (hreplied (e := .payMethod) h)
  simp only [hlookup]
  let c : Checkout := { user, addrId, payMethod := method, skuIds }
  have hrun : run t w l (.addressGet addrId) = some (findRow w₀.db.address addrId, w, l) := by
    rw [run, h.along.db]
  refine ends_ask h.sound hrun ?_
  replace h : Entered t w₀ (w.record t (.addressGet addrId) (findRow w₀.db.address addrId)) l :=
    { h with along := h.along.record .. }
  rcases hfind : findRow w₀.db.address addrId with e | ⟨addr, a⟩
  · rw [hfind] at h
    cases e with
    | doesNotExist => exact .ret (hreplied (e := .address) h)
    | _ => exact .ret ⟨h.along, .inr ⟨rfl, rfl⟩⟩
  rw [hfind] at h
  refine ends_ask h.sound rfl ?_
  have hsaved : Entered t w₀ ((w.record t (.addressGet addrId) (.ok (addr, a))).record t .savepoint ())
      { l with saved := l.pending } :=
    { h with along := h.along.record .., saved := h.pending }
  refine (ends_placeOrder (c := c) hsaved).bind fun flow w l hbrought ↦ ?_
  show (site ι).Ends t k (Closing t w₀ (place positions now c addr w₀.db (w₀.carts c.user))) _ w l
  rcases hplace : place positions now c addr w₀.db (w₀.carts c.user) with e | p
  · rw [hplace] at hbrought
    -- an exception goes to the savepoint, if the connection is not broken
    rcases hbrought.flow with ⟨rfl, hsound, hpending⟩ | ⟨rfl, rfl, hsound, hsaved⟩ | ⟨rfl, rfl, hbroken⟩
    · exact .ret ⟨hbrought.along, .inl ⟨rfl, hsound, hpending⟩⟩
    · exact ends_ask hsound rfl (.ret ⟨hbrought.along.record .., .inl ⟨rfl, hsound, hsaved⟩⟩)
    · have hexec : exec t w l .savepointRollback =
          some (.error .transactionManagementError,
            w.record t .savepointRollback (.error .transactionManagementError), l) := by
        rw [exec, if_pos hbroken]
        rfl
      exact .call hexec (.ret ⟨hbrought.along.record .., .inr ⟨rfl, rfl⟩⟩)
  · rw [hplace] at hbrought
    obtain ⟨rfl, hcarrying⟩ := hbrought
    refine ends_ask hcarrying.sound rfl (.ret ⟨rfl, w, hcarrying, ?_⟩)
    rw [(place_eq_ok_iff.1 hplace).checkout]
    rfl

omit [DecidableEq ι] in
theorem Carrying.install {p : Placement} (h : Carrying t w₀ p.orderId p.row p.basket w l)
    {db : Db} (hdb : db = w₀.db) :
    ({ db with skus := l.pending.skus.overlay db.skus
               orders := l.pending.orders.overlay db.orders
               lines := db.lines ++ l.pending.lines } : Db) = p.db w₀.db := by
  rw [hdb, h.skus, h.orders, h.lines, Table.overlay_set, Table.overlay_empty]
  rfl

/-- **A checkout that runs alone** comes to the result of `alone`. -/
theorem ends_postOn (positions : List Str → List Str) (now : LocalTime) (req : HttpRequest)
    (hw : Unlocked w) :
    (site ι).Ends t k (Left w (alone positions now req w.db w.carts)) (postOn positions now req) w
      .idle := by
  have h : Entered t w (w.record t .atomicEnter ()) { Session.idle with inAtomic := true } :=
    ⟨hw.along.record .., rfl, rfl, rfl, rfl⟩
  rw [postOn, atomic]
  refine ends_ask rfl rfl ((ends_body h).bind fun reply v l hclosing ↦ ?_)
  rcases halone : alone positions now req w.db w.carts with e | p
  · rw [halone] at hclosing
    obtain ⟨halong, ⟨rfl, hsound, hpending⟩ | ⟨rfl, rfl⟩⟩ := hclosing
    · -- the commit of a refused checkout has nothing to install
      have hrun : run t v l .commit = some ((), (v.install l.pending).release t, .idle) := by
        rw [run, hsound]
        rfl
      refine ends_ask hsound hrun (.ret ⟨rfl, ?_, halong.carts, halong.histories, ?_, rfl⟩)
      · show (v.install l.pending).db = w.db
        rw [World.install, hpending, ← halong.db]
        simp [Pending.empty]
      · have hreleased := halong.release
        exact ⟨hreleased.skuLock, hreleased.orderLock⟩
    · have hexec : exec t v l .rollback = some ((), (v.release t).record t .rollback (), .idle) := by
        have hrefusal : (if l.needsRollback then Cmd.rollback.refusal else none) = none := by
          split <;> rfl
        rw [exec, hrefusal]
        rfl
      have hreleased := halong.release
      exact .call hexec (.ret ⟨rfl, halong.db, halong.carts, halong.histories,
        ⟨hreleased.skuLock, hreleased.orderLock⟩, rfl⟩)
  · rw [halone] at hclosing
    obtain ⟨rfl, u, hcarrying, rfl⟩ := hclosing
    have halong := hcarrying.along
    generalize hv : (u.setCart p.checkout.user ((u.carts p.checkout.user).hdel p.checkout.ids)).record t
      (.hdel p.checkout.user p.checkout.ids) () = v
    have hrun : run t v l .commit = some ((), (v.install l.pending).release t, .idle) := by
      rw [run, hcarrying.sound]
      rfl
    have hreleased := halong.release
    refine ends_ask hcarrying.sound hrun (.ret ⟨rfl, ?_, ?_, ?_, ⟨?_, ?_⟩, rfl⟩)
    · rw [← hv]
      exact hcarrying.install halong.db
    · rw [← hv]
      show Function.update u.carts p.checkout.user _ = p.carts w.carts
      rw [halong.carts]
      rfl
    · rw [← hv]
      exact halong.histories
    · rw [← hv]
      exact hreleased.skuLock
    · rw [← hv]
      exact hreleased.orderLock

/-- The same as a run of the site: from a state in which nobody holds a lock and the request has not
started, its own moves lead to that result. -/
theorem reach_of_alone {s : State Services ι (World ι) Session Reply} {now : LocalTime}
    {req : HttpRequest} (hw : Unlocked s.world) (hprog : s.prog t = post now req)
    (hloc : s.loc t = .idle) : ∃ s', (site ι).Reach AnyMove s s' ∧
      s'.prog t = .ret (replyOf (alone id now req s.world.db s.world.carts)) ∧
      s'.world.db = dbAfter (alone id now req s.world.db s.world.carts) s.world.db ∧
      s'.world.carts = cartsAfter (alone id now req s.world.db s.world.carts) s.world.carts := by
  obtain ⟨reply, w', l', hsolo, hleft⟩ := ends_postOn (t := t) (k := 0) id now req hw
  have hreach := Machine.reach_of_solo (s := s) hsolo
  have hself := Machine.put_self (t := t) s
  rw [hprog, hloc] at hself
  have hsame : s.put t s.world .idle (postOn id now req) = s := hself
  rw [hsame] at hreach
  refine ⟨_, hreach, ?_, hleft.db, hleft.carts⟩
  rw [State.put_prog_self, hleft.reply]

end DailyFresh
