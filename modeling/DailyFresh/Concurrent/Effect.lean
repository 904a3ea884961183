import DailyFresh.Interleave.RelyGuarantee
import DailyFresh.Site.History
import DailyFresh.Store.Trail

/-!
# What one command of a request may do

The requests of the site run under one contract (`contract`). It is generic in a **discipline**: an
invariant of the world, chosen by the result that is being proved, and what a checkout may conclude
from it about the rows and counts it reads. The contract itself fixes the rest.

* `Rely t` is what request `t` counts on while others move: its log, its locks and the rows under
  them stay; an order once committed keeps its user, address, pay method and totals, and its lines
  keep everything but their comments.
* `Effect request pick t` is what a command of `t` can do to the committed tables and the carts:
  nothing (`quiet`), a cart write, the commit of a whole order (`Placed`), the save of an order read
  earlier (`Paid`, `Finished`), of a line's comment (`commented`), of a new address (`addressed`), of an
  edited product (`edited`), or a change of the browsing history (`browsed`).

A committed order is described by its **picks**, the items it took in order: `Placed` says that the
picks are a trail of compare-and-sets over the product table, that the new lines are the picks' lines
and the totals their totals.
-/

namespace DailyFresh

open Python Store Interleave

/-! ### The part of the tables that is never rewritten -/

/-- An order row without what later saves change. -/
def OrderInfo.core (row : OrderInfo) : OrderInfo :=
  { row with orderStatus := .toPay, tradeNo := .empty }

/-- Rows with the same core have the same figures. -/
theorem OrderInfo.figures_eq {row row' : OrderInfo} (h : row'.core = row.core) :
    row'.totalCount = row.totalCount ∧ row'.totalPrice = row.totalPrice ∧
      row'.transitPrice = row.transitPrice := by
  obtain ⟨-, -, -, hcount, hprice, htransit, -⟩ := OrderInfo.mk.inj h
  exact ⟨hcount, hprice, htransit⟩

/-- A line without its comment. -/
def OrderGoods.core (line : OrderGoods) : OrderGoods :=
  { line with comment := .empty }

/-- All lines, without their comments. -/
def Db.coreLines (db : Db) : List OrderGoods :=
  db.lines.map OrderGoods.core

/-- The lines of one order, without their comments. -/
def Db.linesOf (db : Db) (orderId : Str) : List OrderGoods :=
  db.coreLines.filter fun line ↦ line.order = orderId

/-- The foreign key of the lines: every line belongs to an order. -/
def Db.Linked (db : Db) : Prop :=
  ∀ line ∈ db.lines, ∃ row, db.orders line.order = some row

theorem Db.linesOf_eq_nil {db : Db} (h : db.Linked) {orderId : Str}
    (hnone : db.orders orderId = none) : db.linesOf orderId = [] := by
  refine List.filter_eq_nil_iff.2 fun line hline ↦ ?_
  obtain ⟨line, hmem, rfl⟩ := List.mem_map.1 hline
  obtain ⟨row, hrow⟩ := h line hmem
  have hne : line.core.order ≠ orderId := by
    rintro rfl
    exact absurd (hnone.symm.trans hrow) (by simp)
  simpa using hne

variable {ι : Type} [DecidableEq ι]

/-! ### Rely -/

/-- The changes by others that request `t` counts on. -/
structure Rely (t : ι) (w w' : World ι) : Prop where
  history : w.history <:+ w'.history
  log : w'.log t = w.log t
  skuLock : ∀ n, w.skuLock n = some t → w'.skuLock n = some t
  orderLock : ∀ k, w.orderLock k = some t → w'.orderLock k = some t
  /-- Nobody writes a row that `t` has locked. -/
  skus : ∀ n, w.skuLock n = some t → w'.db.skus n = w.db.skus n
  orders : ∀ k, w.orderLock k = some t → w'.db.orders k = w.db.orders k
  /-- Addresses are only added. -/
  addrs : w.db.address.Sub w'.db.address
  /-- A committed order keeps its core. -/
  core : ∀ k row, w.db.orders k = some row → ∃ row', w'.db.orders k = some row' ∧ row'.core = row.core
  /-- Lines keep their place and their core. -/
  lines : w.db.coreLines <+: w'.db.coreLines
  /-- A committed order gets no more lines. -/
  linesOf : ∀ k row, w.db.orders k = some row → w'.db.linesOf k = w.db.linesOf k
  /-- A change of the tables goes down in the history. -/
  recorded : w'.history = w.history → w'.db = w.db

namespace Rely

variable {t : ι} {w w₁ w₂ : World ι}

theorem refl (t : ι) (w : World ι) : Rely t w w where
  history := List.suffix_rfl
  log := rfl
  skuLock _ := id
  orderLock _ := id
  skus _ _ := rfl
  orders _ _ := rfl
  addrs := .refl _
  core _ row h := ⟨row, h, rfl⟩
  lines := List.prefix_rfl
  linesOf _ _ _ := rfl
  recorded _ := rfl

theorem trans (h₁ : Rely t w w₁) (h₂ : Rely t w₁ w₂) : Rely t w w₂ where
  history := h₁.history.trans h₂.history
  log := h₂.log.trans h₁.log
  skuLock n hn := h₂.skuLock n (h₁.skuLock n hn)
  orderLock k hk := h₂.orderLock k (h₁.orderLock k hk)
  skus n hn := (h₂.skus n (h₁.skuLock n hn)).trans (h₁.skus n hn)
  orders k hk := (h₂.orders k (h₁.orderLock k hk)).trans (h₁.orders k hk)
  addrs := h₁.addrs.trans h₂.addrs
  core k row hrow := by
    obtain ⟨row₁, hrow₁, hcore₁⟩ := h₁.core k row hrow
    obtain ⟨row₂, hrow₂, hcore₂⟩ := h₂.core k row₁ hrow₁
    exact ⟨row₂, hrow₂, hcore₂.trans hcore₁⟩
  lines := h₁.lines.trans h₂.lines
  linesOf k row hrow := by
    obtain ⟨row₁, hrow₁, -⟩ := h₁.core k row hrow
    exact (h₂.linesOf k row₁ hrow₁).trans (h₁.linesOf k row hrow)
  recorded h := by
    have h₁' : w₁.history = w.history :=
      (h₁.history.eq_of_length_le (h ▸ h₂.history.length_le)).symm
    exact (h₂.recorded (h.trans h₁'.symm)).trans (h₁.recorded h₁')

/-- A request that has been undisturbed since its first command still finds the tables as they were
after its last one. -/
theorem undisturbed (hr : Rely t w w₁) (hne : w.log t ≠ []) (h : w₁.Undisturbed t) :
    w₁.db = w.db ∧ w.Undisturbed t := by
  have hhistory := h.same_history hr.history hr.log hne
  refine ⟨hr.recorded hhistory, ?_⟩
  rwa [World.Undisturbed, hr.log, hhistory] at h

end Rely

/-- A move of `t` that every other request counts on, whatever it has locked. -/
structure Considerate (t : ι) (w w' : World ι) : Prop where
  history : w.history <:+ w'.history
  log : ∀ u, u ≠ t → w'.log u = w.log u
  skuLock : ∀ u, u ≠ t → ∀ n, w.skuLock n = some u → w'.skuLock n = some u
  orderLock : ∀ u, u ≠ t → ∀ k, w.orderLock k = some u → w'.orderLock k = some u
  skus : ∀ u, u ≠ t → ∀ n, w.skuLock n = some u → w'.db.skus n = w.db.skus n
  orders : ∀ u, u ≠ t → ∀ k, w.orderLock k = some u → w'.db.orders k = w.db.orders k
  addrs : w.db.address.Sub w'.db.address
  core : ∀ k row, w.db.orders k = some row → ∃ row', w'.db.orders k = some row' ∧ row'.core = row.core
  lines : w.db.coreLines <+: w'.db.coreLines
  linesOf : ∀ k row, w.db.orders k = some row → w'.db.linesOf k = w.db.linesOf k
  recorded : w'.history = w.history → w'.db = w.db

theorem Considerate.rely {t u : ι} {w w' : World ι} (h : Considerate t w w') (hu : u ≠ t) :
    Rely u w w' where
  history := h.history
  log := h.log u hu
  skuLock := h.skuLock u hu
  orderLock := h.orderLock u hu
  skus := h.skus u hu
  orders := h.orders u hu
  addrs := h.addrs
  core := h.core
  lines := h.lines
  linesOf := h.linesOf
  recorded := h.recorded

/-! ### Picks -/

/-- An item that a checkout took: the id as the client spelled it, the product row it had read and
the count the cart had answered. -/
structure Pick where
  raw : Str
  sku : ℕ
  read : GoodsSKU
  count : ℤ

/-- The line that records a pick. -/
def Pick.line (orderId : Str) (p : Pick) : LineObject where
  order := orderId
  sku := p.sku
  count := p.count
  price := p.read.price

/-- What a successful compare-and-set on a product row says about the pick, the row it found and the
row it left; `fresh` when the transaction had not written the row before. -/
structure PickOk (pick : Prop → Pick → Prop) (p : Pick) (fresh : Prop) (old new : GoodsSKU) :
    Prop where
  pick : pick fresh p
  int_raw : int p.raw = some (p.sku : ℤ)
  own : ¬ fresh → old = p.read
  stock_eq : old.stock = p.read.stock
  count_le : p.count ≤ p.read.stock.val
  stock : new.stock.val = p.read.stock.val - p.count
  sales : new.sales.val = p.read.sales.val + p.count
  price : new.price = old.price

/-- The totals of a list of picks. -/
def totals (picks : List Pick) : OrderCommitView.Totals where
  count := (picks.map Pick.count).sum
  price := (picks.map fun p ↦ p.read.price.val * p.count).sum

theorem totals_append (picks : List Pick) (p : Pick) :
    totals (picks ++ [p]) = { count := (totals picks).count + p.count,
                              price := (totals picks).price + p.read.price.val * p.count } := by
  simp [totals]

/-- The quantity of product `n` in a list of picks. -/
def pickedCount (picks : List Pick) (n : ℕ) : ℤ :=
  ((picks.filter fun p ↦ p.sku = n).map Pick.count).sum

theorem pickedCount_eq_zero {picks : List Pick} {n : ℕ} (h : n ∉ picks.map Pick.sku) :
    pickedCount picks n = 0 := by
  have hnil : (picks.filter fun p ↦ p.sku = n) = [] := by
    refine List.filter_eq_nil_iff.2 fun p hp hn ↦ h ?_
    exact of_decide_eq_true hn ▸ List.mem_map_of_mem hp
  rw [pickedCount, hnil]
  rfl

/-- A receipt's lines count what its picks do. -/
theorem sum_lines_eq_pickedCount {orderId : Str} {picks : List Pick} {lines : List OrderGoods}
    (h : picks.map (fun p ↦ (p.line orderId).row?) = lines.map some) (n : ℕ) :
    ((lines.filter fun line ↦ line.sku = n).map fun line ↦ line.count.val).sum =
      pickedCount picks n := by
  induction picks generalizing lines with
  | nil =>
    obtain rfl : lines = [] := by simpa using h.symm
    rfl
  | cons p picks ih =>
    rcases lines with - | ⟨line, lines⟩
    · simp at h
    rw [List.map_cons, List.map_cons] at h
    obtain ⟨hline, hrest⟩ := List.cons.inj h
    obtain ⟨-, hsku, hcount, -, -⟩ := LineObject.row?_eq_some_iff.1 hline
    have hsku' : line.sku = p.sku := hsku
    have hcount' : line.count.val = p.count := hcount
    have hsum := ih hrest
    unfold pickedCount at hsum ⊢
    by_cases hn : p.sku = n
    · simp [hsku', hn, hcount', hsum]
    · simp [hsku', hn, hsum]

/-! ### Effects -/

/-- The input of a checkout that passes the checks before the order is created. -/
structure Checkout where
  user : ℕ
  addrId : Str
  payMethod : PayMethod
  skuIds : Str

/-- The checkout that a request asks for. -/
structure HttpRequest.Asks (request : HttpRequest) (c : Checkout) : Prop where
  user : request.user = some c.user
  addrId : nonempty (request.POST "addr_id".toList) = some c.addrId
  payMethod : ∃ s, nonempty (request.POST "pay_method".toList) = some s ∧
    PAY_METHODS.lookup s = some c.payMethod
  skuIds : nonempty (request.POST "sku_ids".toList) = some c.skuIds

/-- A request asks for one checkout. -/
theorem HttpRequest.Asks.unique {req : HttpRequest} {c c' : Checkout} (h : req.Asks c) (h' : req.Asks c') :
    c = c' := by
  obtain ⟨user, addrId, payMethod, skuIds⟩ := c
  obtain ⟨user', addrId', payMethod', skuIds'⟩ := c'
  obtain rfl : user = user' := Option.some.inj (h.user.symm.trans h'.user)
  obtain rfl : addrId = addrId' := Option.some.inj (h.addrId.symm.trans h'.addrId)
  obtain rfl : skuIds = skuIds' := Option.some.inj (h.skuIds.symm.trans h'.skuIds)
  obtain ⟨p, hp, hlookup⟩ := h.payMethod
  obtain ⟨p', hp', hlookup'⟩ := h'.payMethod
  obtain rfl := Option.some.inj (hp.symm.trans hp')
  obtain rfl : payMethod = payMethod' := Option.some.inj (hlookup.symm.trans hlookup')
  rfl

/-- The product ids of a checkout, as the client spelled them. -/
def Checkout.ids (c : Checkout) : List Str := split ',' c.skuIds

/-- The order with its totals, as it is saved at the end of the checkout. -/
def Checkout.order (c : Checkout) (now : LocalTime) (addr : ℕ) (picks : List Pick) : OrderObject :=
  { OrderCommitView.newOrder now c.user addr c.payMethod with
    totalCount := (totals picks).count
    totalPrice := (totals picks).price }

/-- What a committed checkout took, and where its address row is. -/
structure Receipt where
  now : LocalTime
  request : HttpRequest
  checkout : Checkout
  addr : ℕ
  picks : List Pick
  row : OrderInfo
  lines : List OrderGoods

/-- The order id of a committed checkout. -/
def Receipt.orderId (r : Receipt) : Str := r.now.strftime ++ str r.checkout.user

/-- The receipt is one of request `t`, as far as `t`'s log goes. -/
structure Receipt.Of (request : ι → Request) (r : Receipt) (t : ι) (log : List (Event ι)) :
    Prop where
  request : request t = .commit r.now r.request
  asks : r.request.Asks r.checkout
  row : (r.checkout.order r.now r.addr r.picks).row? = some r.row
  lines : r.picks.map (fun p ↦ (p.line r.orderId).row?) = r.lines.map some
  denotes : ∀ p ∈ r.picks, int p.raw = some (p.sku : ℤ)
  taken : takenItems log = r.picks.map fun p ↦ (p.raw, p.count)
  sublist : (r.picks.map Pick.raw).Sublist r.checkout.ids
  all : ¬ LostTwice (updateResults log) → r.picks.map Pick.raw = r.checkout.ids
  hdel : (⟨t, .hdel r.checkout.user r.checkout.ids, ()⟩ : Event ι) ∈ log

/-- **The commit of an order**: the picks are a trail of compare-and-sets over the committed
products, and the order and its lines are new. -/
structure Placed (request : ι → Request) (pick : Prop → Pick → Prop) (t : ι) (r : Receipt)
    (w w' : World ι) : Prop where
  of : r.Of request t (w.log t)
  addr : ∃ a, findRow w.db.address r.checkout.addrId = .ok (r.addr, a)
  skus : ∃ pending, Trail Pick.sku (PickOk pick) w.db.skus r.picks pending ∧
    w'.db.skus = pending.overlay w.db.skus
  absent : w.db.orders r.orderId = none
  orders : w'.db.orders = w.db.orders.set r.orderId r.row
  lines : w'.db.lines = w.db.lines ++ r.lines
  addrs : w'.db.addrs = w.db.addrs
  carts : w'.carts = w.carts
  history : w'.history = ⟨t, .commit, ()⟩ :: w.history
  histories : w'.histories = w.histories

/-- A command that leaves the committed tables, the carts and the browsing histories as they are. -/
structure Quiet (t : ι) (w w' : World ι) : Prop where
  db : w'.db = w.db
  carts : w'.carts = w.carts
  history : w'.history = w.history ∨ ∃ e : Event ι, w'.history = e :: w.history ∧ e.process = t ∧
    e.Plain w
  histories : w'.histories = w.histories

/-- The save of an order object whose row has the core of the row in the table. -/
structure Saved (t : ι) (order : OrderObject) (row : OrderInfo) (w w' : World ι) : Prop where
  fits : order.row? = some row
  old : ∃ old, w.db.orders order.orderId = some old ∧ old.core = row.core
  db : w'.db = { w.db with orders := w.db.orders.set order.orderId row }
  carts : w'.carts = w.carts
  history : w'.history = ⟨t, .orderSave order, .ok ()⟩ :: w.history
  histories : w'.histories = w.histories

/-- A view has read the order, with these filters. If nobody has disturbed it since, the order still
stands as it was read. -/
structure HasRead (t : ι) (payMethod : Option PayMethod) (orderStatus : Option OrderStatus)
    (order : OrderObject) (w : World ι) : Prop where
  read : (⟨t, .orderGet order.orderId order.user payMethod orderStatus, .ok order⟩ : Event ι) ∈
    w.history
  current : w.Undisturbed t →
    ∃ old, w.db.orders order.orderId = some old ∧ old.object order.orderId = order

/-- **The save of an order by a check**, after the gateway has said that it is paid. -/
structure Paid (request : ι → Request) (t : ι) (order : OrderObject) (answer : Answer)
    (row : OrderInfo) (w w' : World ι) : Prop where
  request : ∃ req, request t = .check req ∧ req.user = some order.user
  read : HasRead t (some .alipay) (some .toPay) order w
  payMethod : order.payMethod = .alipay
  orderStatus : order.orderStatus = .toPay
  query : (⟨t, .tradeQuery order.orderId, answer⟩ : Event ι) ∈ w.history
  success : OrderCheckView.paid answer = true
  saved : Saved t { order with tradeNo := answer.tradeNo, orderStatus := .toReview } row w w'

/-- **The save of an order by a review.** -/
structure Finished (request : ι → Request) (t : ι) (order : OrderObject) (row : OrderInfo)
    (w w' : World ι) : Prop where
  request : ∃ req orderId, request t = .comment req orderId ∧ req.user = some order.user
  read : HasRead t none none order w
  saved : Saved t { order with orderStatus := .finished } row w w'

/-- The lines with the comment of one line of an order of the reviewing user replaced. -/
def Reviews (request : ι → Request) (t : ι) (lines : List OrderGoods) (w : World ι) : Prop :=
  ∃ req orderId id line row, request t = .comment req orderId ∧ req.user = some row.user ∧
    w.db.orders line.order = some row ∧ w.db.coreLines[id]? = some line.core ∧
      lines = w.db.lines.set id line

/-- **The creation of an address**, after the user's default one has been looked for. -/
structure Addressed (request : ι → Request) (t : ι) (address : AddressObject) (row : Address)
    (w w' : World ι) : Prop where
  request : ∃ req, request t = .address req ∧ req.user = some address.user
  fits : address.row? = some row
  /-- An address that is no default one joins one that is. -/
  default : address.isDefault = false →
    ∃ n a, w.db.address n = some a ∧ a.user = address.user ∧ a.isDefault = true
  db : w'.db = { w.db with addrs := w.db.addrs.insert w.db.nextAddress row }
  carts : w'.carts = w.carts
  history : w'.history = ⟨t, .addressCreate address, .ok ()⟩ :: w.history
  histories : w'.histories = w.histories

/-- **What a command of `t`, or its death, can do** to the committed tables and the carts. -/
inductive Effect (request : ι → Request) (pick : Prop → Pick → Prop) (t : ι) (w w' : World ι) :
    Prop where
  /-- Nothing. -/
  | quiet (h : Quiet t w w')
  /-- A checkout whose order has been saved, or `CartDeleteView`, deletes from a cart. -/
  | hdel (user : ℕ) (fields : List Str)
      (request : (∃ now req c, request t = .commit now req ∧ req.Asks c ∧ user = c.user ∧
        fields = c.ids ∧ AllFit (w.log t)) ∨
          ∃ req, request t = .cartDelete req ∧ req.user = some user)
      (db : w'.db = w.db)
      (carts : w'.carts = Function.update w.carts user ((w.carts user).hdel fields))
      (history : w'.history = ⟨t, .hdel user fields, ()⟩ :: w.history)
      (histories : w'.histories = w.histories)
  /-- `CartAddView` or `CartUpdateView` writes a cart. -/
  | hset (user : ℕ) (field : Str) (value : ℤ)
      (request : Request.Writes user field (request t) ∧ (request t).quantity (w.log t) = some value)
      (db : w'.db = w.db)
      (carts : w'.carts = Function.update w.carts user ((w.carts user).insert field value))
      (history : w'.history = ⟨t, .hset user field value, ()⟩ :: w.history)
      (histories : w'.histories = w.histories)
  /-- A checkout commits its order. -/
  | placed (r : Receipt) (h : Placed request pick t r w w')
  /-- `OrderCheckView` saves the order it read. -/
  | paid (order : OrderObject) (answer : Answer) (row : OrderInfo)
      (h : Paid request t order answer row w w')
  /-- `CommentView` saves the order it read. -/
  | finished (order : OrderObject) (row : OrderInfo) (h : Finished request t order row w w')
  /-- `CommentView` saves a line. -/
  | commented (lines : List OrderGoods) (request : Reviews request t lines w)
      (core : lines.map OrderGoods.core = w.db.coreLines)
      (db : w'.db = { w.db with lines })
      (carts : w'.carts = w.carts)
      (history : ∃ id line comment, w'.history = ⟨t, .lineSave id line comment, .ok ()⟩ :: w.history)
      (histories : w'.histories = w.histories)
  /-- `UserAddressView` adds an address. -/
  | addressed (address : AddressObject) (row : Address) (h : Addressed request t address row w w')
  /-- An administrator's form saves a product. -/
  | edited (id : Str) (edit : GoodsSKU → GoodsSKU) (n : ℕ) (sku : GoodsSKU)
      (request : request t = .adminEdit id edit)
      (read : (⟨t, .skuGet id, .ok (n, sku)⟩ : Event ι) ∈ w.history)
      (db : w'.db = { w.db with skus := w.db.skus.set n (edit sku) })
      (carts : w'.carts = w.carts)
      (history : w'.history = ⟨t, .skuSave n (edit sku), .ok ()⟩ :: w.history)
      (histories : w'.histories = w.histories)
  /-- `DetailView` changes a browsing history. -/
  | browsed (user : ℕ) (list : List Str)
      (request : ∃ req id, request t = .detail req id ∧ req.user = some user)
      (db : w'.db = w.db)
      (carts : w'.carts = w.carts)
      (history : ∃ e : Event ι, w'.history = e :: w.history ∧ e.process = t ∧ e.Plain w)
      (histories : w'.histories = Function.update w.histories user list)

section Lemmas

variable {request : ι → Request} {pick : Prop → Pick → Prop} {t : ι} {w v w' : World ι}

omit [DecidableEq ι] in
theorem Saved.orders {order : OrderObject} {row : OrderInfo} (h : Saved t order row w w') :
    w'.db.orders = w.db.orders.set order.orderId row := by
  rw [h.db]

omit [DecidableEq ι] in
/-- A save changes no line, so every line still has its order. -/
theorem Saved.linked {order : OrderObject} {row : OrderInfo} (h : Saved t order row w w')
    (hlinked : w.db.Linked) : w'.db.Linked := by
  rw [h.db]
  intro line hline
  obtain ⟨old, hold⟩ := hlinked line hline
  by_cases hk : line.order = order.orderId
  · exact ⟨row, by simp [hk]⟩
  · exact ⟨old, (Table.set_of_ne hk).trans hold⟩

/-- The command that a quiet step has sent is plain. -/
theorem Quiet.plain (h : Quiet t w w') {e : Event ι} (hhistory : w'.history = e :: w.history) :
    e.Plain w := by
  obtain hsame | ⟨e', hcons, -, hplain⟩ := h.history
  · exact absurd (hhistory.symm.trans hsame) (List.cons_ne_self _ _)
  · obtain ⟨rfl, -⟩ := List.cons.inj (hhistory.symm.trans hcons)
    exact hplain

/-- The foreign key of the lines is kept. -/
theorem Effect.linked (h : Effect request pick t w w') (hlinked : w.db.Linked) : w'.db.Linked := by
  cases h with
  | quiet h => rwa [h.db]
  | hdel user fields _ hdb => rwa [hdb]
  | hset user field value _ hdb => rwa [hdb]
  | placed r h =>
    intro line hline
    rw [h.orders]
    rw [h.lines, List.mem_append] at hline
    rcases hline with hline | hline
    · obtain ⟨row, hrow⟩ := hlinked line hline
      have hne : line.order ≠ r.orderId := fun hk ↦ by
        rw [hk, h.absent] at hrow
        cases hrow
      exact ⟨row, by rw [Table.set_of_ne hne, hrow]⟩
    · -- a new line comes from a pick, so it names the new order
      have hmem : some line ∈ r.lines.map some := List.mem_map_of_mem hline
      rw [← h.of.lines] at hmem
      obtain ⟨p, -, hp⟩ := List.mem_map.1 hmem
      have horder : line.order = r.orderId := (LineObject.row?_eq_some_iff.1 hp).1
      exact ⟨r.row, by rw [horder, Table.set_self]⟩
  | paid order answer row h => exact h.saved.linked hlinked
  | finished order row h => exact h.saved.linked hlinked
  | commented lines _ hcore hdb =>
    intro line hline
    rw [hdb] at hline ⊢
    have hmem : line.core ∈ w.db.coreLines := hcore ▸ List.mem_map_of_mem hline
    obtain ⟨line₀, hline₀, heq⟩ := List.mem_map.1 hmem
    have horder : line₀.core.order = line.core.order := congrArg OrderGoods.order heq
    have hrow : ∃ row, w.db.orders line₀.core.order = some row := hlinked line₀ hline₀
    rwa [horder] at hrow
  | addressed address row h => rwa [h.db]
  | edited id edit n sku _ _ hdb => rwa [hdb]
  | browsed user list _ hdb => rwa [hdb]

/-- What a command of each kind of request can do, if it does anything. -/
def Does (request : ι → Request) (pick : Prop → Pick → Prop) (t : ι) (w w' : World ι) : Prop :=
  match request t with
  | .commit _ req => (∃ c, req.Asks c ∧ AllFit (w.log t) ∧ w'.db = w.db ∧
      w'.carts = Function.update w.carts c.user ((w.carts c.user).hdel c.ids) ∧
      w'.history = ⟨t, .hdel c.user c.ids, ()⟩ :: w.history) ∨
    ∃ r, Placed request pick t r w w'
  | .cartDelete req => ∃ user fields, req.user = some user ∧ w'.db = w.db ∧
      w'.carts = Function.update w.carts user ((w.carts user).hdel fields) ∧
      w'.history = ⟨t, .hdel user fields, ()⟩ :: w.history
  | .cartAdd _ | .cartUpdate _ => ∃ user field value, w'.db = w.db ∧
      w'.carts = Function.update w.carts user ((w.carts user).insert field value) ∧
      w'.history = ⟨t, .hset user field value, ()⟩ :: w.history
  | .check _ => ∃ order answer row, Paid request t order answer row w w'
  | .comment .. => (∃ order row, Finished request t order row w w') ∨
    ∃ lines, Reviews request t lines w ∧ w'.db = { w.db with lines } ∧ w'.carts = w.carts
  | .address _ => ∃ address row, Addressed request t address row w w'
  | .adminEdit _ edit => ∃ n sku, w'.db = { w.db with skus := w.db.skus.set n (edit sku) } ∧
      w'.history = ⟨t, .skuSave n (edit sku), .ok ()⟩ :: w.history
  | .detail .. => w'.db = w.db ∧ w'.carts = w.carts
  | _ => False

/-- **What a command can do, by the kind of its request.** -/
theorem Effect.quiet_or_does (h : Effect request pick t w w') :
    Quiet t w w' ∨ Does request pick t w w' := by
  cases h with
  | quiet h => exact .inl h
  | hdel user fields h hdb hcarts hhistory =>
    right
    obtain ⟨now, req, c, hreq, hasks, rfl, rfl, hfit⟩ | ⟨req, hreq, huser⟩ := h
    · rw [Does, hreq]
      exact .inl ⟨c, hasks, hfit, hdb, hcarts, hhistory⟩
    · rw [Does, hreq]
      exact ⟨user, fields, huser, hdb, hcarts, hhistory⟩
  | hset user field value h hdb hcarts hhistory =>
    right
    obtain ⟨hwrites, -⟩ := h
    rcases hreq : request t <;> rw [hreq] at hwrites
    case cartAdd | cartUpdate =>
      rw [Does, hreq]
      exact ⟨user, field, value, hdb, hcarts, hhistory⟩
    all_goals exact hwrites.elim
  | placed r h =>
    right
    rw [Does, h.of.request]
    exact .inr ⟨r, h⟩
  | paid order answer row h =>
    right
    obtain ⟨req, hreq, -⟩ := h.request
    rw [Does, hreq]
    exact ⟨order, answer, row, h⟩
  | finished order row h =>
    right
    obtain ⟨req, orderId, hreq, -⟩ := h.request
    rw [Does, hreq]
    exact .inl ⟨order, row, h⟩
  | commented lines h _ hdb hcarts =>
    right
    have hreq := h
    obtain ⟨req, orderId, _, _, _, hreq, -⟩ := hreq
    rw [Does, hreq]
    exact .inr ⟨lines, h, hdb, hcarts⟩
  | addressed address row h =>
    right
    obtain ⟨req, hreq, -⟩ := h.request
    rw [Does, hreq]
    exact ⟨address, row, h⟩
  | edited id edit n sku hreq _ hdb _ hhistory =>
    right
    rw [Does, hreq]
    exact ⟨n, sku, hdb, hhistory⟩
  | browsed user list h hdb hcarts =>
    right
    obtain ⟨req, id, hreq, -⟩ := h
    rw [Does, hreq]
    exact ⟨hdb, hcarts⟩

/-- **What a command of a checkout can do**: nothing, clear the cart it was asked to clear, or commit
its order. -/
theorem Effect.commit_cases {now : LocalTime} {req : HttpRequest} (hreq : request t = .commit now req)
    (h : Effect request pick t w w') :
    Quiet t w w' ∨
    (∃ c, req.Asks c ∧ AllFit (w.log t) ∧ w'.db = w.db ∧
      w'.carts = Function.update w.carts c.user ((w.carts c.user).hdel c.ids) ∧
      w'.history = ⟨t, .hdel c.user c.ids, ()⟩ :: w.history) ∨
    ∃ r, Placed request pick t r w w' := by
  have hdoes := h.quiet_or_does
  rwa [Does, hreq] at hdoes

/-- **What a command of a check can do**: nothing to the tables, unless the gateway has told it that
an order is paid. -/
theorem Effect.check_cases {req : HttpRequest} (hreq : request t = .check req)
    (h : Effect request pick t w w') :
    w'.db = w.db ∨ ∃ (order : OrderObject) (answer : Answer),
      (⟨t, .tradeQuery order.orderId, answer⟩ : Event ι) ∈ w.history ∧
        OrderCheckView.paid answer = true := by
  have hdoes := h.quiet_or_does
  rw [Does, hreq] at hdoes
  obtain hquiet | ⟨order, answer, row, hpaid⟩ := hdoes
  · exact .inl hquiet.db
  · exact .inr ⟨order, answer, hpaid.query, hpaid.success⟩

/-- What a command that commits no order leaves: the cores of orders and lines; and if it ends a
transaction, its request has not cleared a cart. -/
structure Unplaced (t : ι) (w w' : World ι) : Prop where
  orders : ∀ k row, w'.db.orders k = some row → ∃ old, w.db.orders k = some old ∧ row.core = old.core
  lines : w'.db.coreLines = w.db.coreLines
  commit : w'.history = ⟨t, .commit, ()⟩ :: w.history → NoHdel (w.log t)

theorem core_of_set {orders : Table Str OrderInfo} {k₀ : Str} {new : OrderInfo}
    (hold : ∃ old, orders k₀ = some old ∧ old.core = new.core) {k : Str} {row : OrderInfo}
    (hrow : orders.set k₀ new k = some row) : ∃ old, orders k = some old ∧ row.core = old.core := by
  rcases eq_or_ne k k₀ with rfl | hk
  · obtain ⟨old, hold, hcore⟩ := hold
    rw [Table.set_self] at hrow
    exact ⟨old, hold, Option.some.inj hrow ▸ hcore.symm⟩
  · rw [Table.set_of_ne hk] at hrow
    exact ⟨row, hrow, rfl⟩

/-- **What a command can do to the orders**: a checkout, a check or a review writes one, or all stay. -/
theorem Effect.orders_cases (h : Effect request pick t w w') :
    w'.db.orders = w.db.orders ∨ (∃ r, Placed request pick t r w w') ∨
      (∃ order answer row, Paid request t order answer row w w') ∨
        ∃ order row, Finished request t order row w w' := by
  cases h with
  | quiet h => exact .inl (by rw [h.db])
  | hdel _ _ _ hdb => exact .inl (by rw [hdb])
  | hset _ _ _ _ hdb => exact .inl (by rw [hdb])
  | placed r h => exact .inr (.inl ⟨r, h⟩)
  | paid order answer row h => exact .inr (.inr (.inl ⟨order, answer, row, h⟩))
  | finished order row h => exact .inr (.inr (.inr ⟨order, row, h⟩))
  | commented _ _ _ hdb => exact .inl (by rw [hdb])
  | addressed _ _ h => exact .inl (by rw [h.db])
  | edited _ _ _ _ _ _ hdb => exact .inl (by rw [hdb])
  | browsed _ _ _ hdb => exact .inl (by rw [hdb])

/-- A command commits an order or does not. -/
theorem Effect.placed_or (h : Effect request pick t w w') :
    (∃ r, Placed request pick t r w w') ∨ Unplaced t w w' := by
  have hsame : w'.db = w.db → (w'.history = ⟨t, .commit, ()⟩ :: w.history → NoHdel (w.log t)) →
      Unplaced t w w' :=
    fun hdb hcommit ↦ ⟨fun k row hrow ↦ ⟨row, hdb ▸ hrow, rfl⟩, by rw [hdb], hcommit⟩
  -- the newest command is another one than a commit
  have hother : ∀ {e : Event ι}, w'.history = e :: w.history → e.cmd ≠ .commit →
      w'.history = ⟨t, .commit, ()⟩ :: w.history → NoHdel (w.log t) := by
    intro e he hcmd hcommit
    obtain ⟨hevent, -⟩ := List.cons.inj (he.symm.trans hcommit)
    exact absurd (congrArg Event.cmd hevent) hcmd
  have hplain : ∀ {e : Event ι}, w'.history = e :: w.history → e.Plain w →
      w'.history = ⟨t, .commit, ()⟩ :: w.history → NoHdel (w.log t) := by
    intro e he hplain hcommit
    obtain ⟨hevent, -⟩ := List.cons.inj (he.symm.trans hcommit)
    rw [hevent] at hplain
    exact hplain
  cases h with
  | quiet h => exact .inr (hsame h.db fun hcommit ↦ hplain hcommit (h.plain hcommit) hcommit)
  | hdel _ _ _ hdb _ hhistory => exact .inr (hsame hdb (hother hhistory nofun))
  | hset _ _ _ _ hdb _ hhistory => exact .inr (hsame hdb (hother hhistory nofun))
  | placed r h => exact .inl ⟨r, h⟩
  | paid _ _ _ h =>
    exact .inr ⟨fun k row hrow ↦ core_of_set h.saved.old (h.saved.orders ▸ hrow),
      by rw [h.saved.db]; rfl, hother h.saved.history nofun⟩
  | finished _ _ h =>
    exact .inr ⟨fun k row hrow ↦ core_of_set h.saved.old (h.saved.orders ▸ hrow),
      by rw [h.saved.db]; rfl, hother h.saved.history nofun⟩
  | commented lines _ hcore hdb _ hhistory =>
    obtain ⟨id, line, comment, hhistory⟩ := hhistory
    exact .inr ⟨fun k row hrow ↦ ⟨row, by rwa [hdb] at hrow, rfl⟩, by rw [hdb]; exact hcore,
      hother hhistory nofun⟩
  | addressed _ _ h =>
    exact .inr ⟨fun k row hrow ↦ ⟨row, by rwa [h.db] at hrow, rfl⟩, by rw [h.db]; rfl,
      hother h.history nofun⟩
  | edited _ _ _ _ _ _ hdb _ hhistory =>
    exact .inr ⟨fun k row hrow ↦ ⟨row, by rwa [hdb] at hrow, rfl⟩, by rw [hdb]; rfl,
      hother hhistory nofun⟩
  | browsed _ _ _ hdb _ hhistory =>
    obtain ⟨e, hhistory, -, he⟩ := hhistory
    exact .inr (hsame hdb (hplain hhistory he))

/-- A request of somebody else leaves the user's cart. -/
theorem Effect.cart_of_other (h : Effect request pick t w w') {user : ℕ}
    (hother : (request t).user ≠ some user) : w'.carts user = w.carts user := by
  have hupdate : ∀ {user' : ℕ} {cart : Cart}, (request t).user = some user' →
      w'.carts = Function.update w.carts user' cart → w'.carts user = w.carts user := by
    intro user' cart huser hcarts
    have hne : user ≠ user' := fun heq ↦ hother (heq ▸ huser)
    rw [hcarts, Function.update_of_ne hne]
  cases h with
  | quiet h => rw [h.carts]
  | hdel user' fields hreq _ hcarts =>
    refine hupdate ?_ hcarts
    obtain ⟨_, _, _, hreq, hasks, rfl, -⟩ | ⟨_, hreq, huser⟩ := hreq
    · rw [hreq]
      exact hasks.user
    · rw [hreq]
      exact huser
  | hset user' field value hreq _ hcarts =>
    refine hupdate ?_ hcarts
    have hwrites := hreq.1
    rcases hr : request t <;> rw [hr] at hwrites <;> first | exact hwrites.1 | exact hwrites.elim
  | placed r h => rw [h.carts]
  | paid _ _ _ h => rw [h.saved.carts]
  | finished _ _ h => rw [h.saved.carts]
  | commented _ _ _ _ hcarts => rw [hcarts]
  | addressed _ _ h => rw [h.carts]
  | edited _ _ _ _ _ _ _ hcarts => rw [hcarts]
  | browsed _ _ _ _ hcarts => rw [hcarts]

omit [DecidableEq ι] in
theorem Saved.history_suffix {order : OrderObject} {row : OrderInfo} (h : Saved t order row w w') :
    w.history <:+ w'.history :=
  h.history ▸ List.suffix_cons _ _

/-- The history only grows. -/
theorem Effect.history_suffix (h : Effect request pick t w w') : w.history <:+ w'.history := by
  cases h with
  | quiet h =>
    obtain hhistory | ⟨e, hhistory, -⟩ := h.history
    · rw [hhistory]
    · exact hhistory ▸ List.suffix_cons _ _
  | hdel _ _ _ _ _ hhistory => exact hhistory ▸ List.suffix_cons _ _
  | hset _ _ _ _ _ _ hhistory => exact hhistory ▸ List.suffix_cons _ _
  | placed r h => exact h.history ▸ List.suffix_cons _ _
  | paid _ _ _ h => exact h.saved.history_suffix
  | finished _ _ h => exact h.saved.history_suffix
  | commented _ _ _ _ _ hhistory =>
    obtain ⟨_, _, _, hhistory⟩ := hhistory
    exact hhistory ▸ List.suffix_cons _ _
  | addressed _ _ h => exact h.history ▸ List.suffix_cons _ _
  | edited _ _ _ _ _ _ _ _ hhistory => exact hhistory ▸ List.suffix_cons _ _
  | browsed _ _ _ _ _ hhistory =>
    obtain ⟨e, hhistory, -⟩ := hhistory
    exact hhistory ▸ List.suffix_cons _ _

/-- A command that changes neither tables nor carts, and of the locks only `t`'s own. -/
structure Unseen (t : ι) (w v : World ι) : Prop where
  db : v.db = w.db
  carts : v.carts = w.carts
  history : v.history = w.history
  histories : v.histories = w.histories
  skuLock : ∀ u, u ≠ t → ∀ n, w.skuLock n = some u → v.skuLock n = some u
  orderLock : ∀ u, u ≠ t → ∀ k, w.orderLock k = some u → v.orderLock k = some u

namespace Unseen

omit [DecidableEq ι] in
theorem refl (t : ι) (w : World ι) : Unseen t w w :=
  ⟨rfl, rfl, rfl, rfl, fun _ _ _ ↦ id, fun _ _ _ ↦ id⟩

omit [DecidableEq ι] in
theorem popAnswer (t : ι) (w : World ι) : Unseen t w w.popAnswer :=
  ⟨rfl, rfl, rfl, rfl, fun _ _ _ ↦ id, fun _ _ _ ↦ id⟩

theorem release (t : ι) (w : World ι) : Unseen t w (w.release t) :=
  ⟨rfl, rfl, rfl, rfl, fun _ hu _ ↦ (Locks.release_eq_some_iff hu).2,
    fun _ hu _ ↦ (Locks.release_eq_some_iff hu).2⟩

theorem writeSku {l : Session} (hl : l.inAtomic = true) {n : ℕ} (hfree : w.skuLock.free t n = true)
    (sku : GoodsSKU) : Unseen t w (w.writeSku t l n sku).1 := by
  rw [World.writeSku, if_pos hl]
  exact ⟨rfl, rfl, rfl, rfl, fun _ hu _ ↦ (Locks.acquire_eq_some_iff hfree hu).2, fun _ _ _ ↦ id⟩

theorem writeOrder {l : Session} (hl : l.inAtomic = true) {k : Str}
    (hfree : w.orderLock.free t k = true) (row : OrderInfo) :
    Unseen t w (w.writeOrder t l k row).1 := by
  rw [World.writeOrder, if_pos hl]
  exact ⟨rfl, rfl, rfl, rfl, fun _ _ _ ↦ id, fun _ hu _ ↦ (Locks.acquire_eq_some_iff hfree hu).2⟩

theorem record_considerate (h : Unseen t w v) (c : Cmd) (r : c.Resp) :
    Considerate t w (v.record t c r) where
  history := ⟨[⟨t, c, r⟩], by rw [World.record, h.history]; rfl⟩
  log u hu := (World.log_record_of_ne v hu c r).trans (World.log_eq_of_history h.history)
  skuLock := h.skuLock
  orderLock := h.orderLock
  skus _ _ _ _ := congrFun (congrArg Db.skus h.db) _
  orders _ _ _ _ := congrFun (congrArg Db.orders h.db) _
  addrs := by
    show w.db.address.Sub v.db.address
    rw [h.db]
    exact .refl _
  core k row hrow := ⟨row, (congrFun (congrArg Db.orders h.db) k).trans hrow, rfl⟩
  lines := by
    rw [show (v.record t c r).db.coreLines = w.db.coreLines from congrArg Db.coreLines h.db]
  linesOf k _ _ := congrArg (Db.linesOf · k) h.db
  recorded _ := h.db

theorem record_quiet (h : Unseen t w v) {c : Cmd} (r : c.Resp)
    (hplain : Event.Plain w ⟨t, c, r⟩) :
    Quiet t w (v.record t c r) where
  db := h.db
  carts := h.carts
  history := .inr ⟨⟨t, c, r⟩, by rw [World.record, h.history], rfl, hplain⟩
  histories := h.histories

end Unseen

end Lemmas

/-! ### The contract -/

/-- What a result about runs chooses: an invariant of the world, what a checkout may keep in mind of
a committed product row it has read (`seen`), and what it then knows when the cart has answered a
count (`pick`; the flag says that it has not written that product itself). -/
structure Discipline (request : ι → Request) where
  inv : World ι → Prop
  seen : ι → ℕ → GoodsSKU → World ι → Prop
  pick : ι → Prop → Pick → Prop
  seen_of : ∀ {t w n sku}, inv w → w.db.skus n = some sku → seen t n sku w
  seen_mono : ∀ {t w w' n sku}, seen t n sku w → w.history <:+ w'.history → seen t n sku w'
  pick_of : ∀ {t w p fresh now req c}, inv w → request t = .commit now req → req.Asks c →
    (fresh → seen t p.sku p.read w) → NoHdel (w.log t) →
    (w.carts c.user).lookup (str p.sku) = some p.count → pick t fresh p
  keeps : ∀ {t w w'}, w.db.Linked → inv w → Effect request (pick t) t w w' → inv w'

variable {request : ι → Request}

/-- The discipline of an invariant that follows from the effects alone. -/
def Discipline.ofInvariant (inv : World ι → Prop)
    (keeps : ∀ {t w w'}, w.db.Linked → inv w → Effect request (fun _ _ ↦ True) t w w' → inv w') :
    Discipline request where
  inv := inv
  seen _ _ _ _ := True
  pick _ _ _ := True
  seen_of _ _ := trivial
  seen_mono _ _ := trivial
  pick_of _ _ _ _ _ _ := trivial
  keeps := keeps

/-- The discipline that asks for nothing. -/
def noDiscipline (request : ι → Request) : Discipline request :=
  .ofInvariant (fun _ ↦ True) fun _ _ _ ↦ trivial

/-- What a move of `t` promises. -/
structure Promise (D : Discipline request) (t : ι) (w w' : World ι) : Prop where
  effect : Effect request (D.pick t) t w w'
  considerate : Considerate t w w'

/-- The contract of the site's requests under a discipline. -/
def contract (D : Discipline request) : Contract ι (World ι) where
  inv w := w.db.Linked ∧ D.inv w
  rely := Rely
  promise := Promise D
  rely_refl := Rely.refl
  rely_trans := Rely.trans

section Guarantee

variable {D : Discipline request} {t : ι} {w v w' : World ι}

/-- A considerate move with one of the effects owes nothing more. -/
theorem guar (hi : (contract D).inv w) (hc : Considerate t w w')
    (he : Effect request (D.pick t) t w w') : (contract D).Guar t w w' where
  inv := ⟨he.linked hi.1, D.keeps hi.1 hi.2 he⟩
  rely _ hu := hc.rely hu
  promise := ⟨he, hc⟩

/-- A command that only `t` notices owes nothing. -/
theorem guar_unseen (hi : (contract D).inv w) (h : Unseen t w v) {c : Cmd} {r : c.Resp}
    (hplain : Event.Plain w ⟨t, c, r⟩) :
    (contract D).Guar t w (v.record t c r) :=
  guar hi (h.record_considerate c r) (.quiet (h.record_quiet r hplain))

/-- Dying owes nothing: the transaction is rolled back. -/
theorem guar_abort (hi : (contract D).inv w) : (contract D).Guar t w (w.release t) := by
  have h := Unseen.release t w
  refine guar hi ?_ (.quiet ⟨rfl, rfl, .inl rfl, rfl⟩)
  exact ⟨List.suffix_rfl, fun _ _ ↦ rfl, h.skuLock, h.orderLock, fun _ _ _ _ ↦ rfl,
    fun _ _ _ _ ↦ rfl, .refl _, fun _ row hrow ↦ ⟨row, hrow, rfl⟩, List.prefix_rfl, fun _ _ _ ↦ rfl,
    fun _ ↦ rfl⟩

end Guarantee

end DailyFresh
