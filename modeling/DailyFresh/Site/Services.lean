import DailyFresh.Interleave.System
import DailyFresh.Site.Models
import DailyFresh.Store.Serial
import DailyFresh.Store.Table

/-!
# What the views talk to

The views of the site send commands to three services: the MySQL database through Django's ORM,
Redis, and the Alipay gateway. This module says what each command does.

*Database.* The committed tables are `Db`. A request has a `Session`; inside `transaction.atomic` its
writes are pending, it reads them over the committed tables (READ COMMITTED), and it keeps the locks
of the rows it wrote until the transaction ends. A conditional `UPDATE` looks at the latest version
of its row under the row's lock, waits while another transaction holds that lock — also when the
condition turns out not to match — and answers the number of matched rows. An `INSERT` waits for a
pending insert of the same key. A value that a column refuses is a `DataError`; a failed write inside
a transaction marks it broken (`needs_rollback`), and a broken transaction refuses every query until
it is rolled back (`Cmd.refusal`). Texts are compared exactly. A line's surrogate id is its
position in the table.

*Redis.* A command acts on the hash of one cart or on one browsing history, atomically.

*Gateway.* The answers to `alipay.trade.query` are an arbitrary stream, one answer a query.

*Ends.* A killed request — a crash, a lost connection, a deadlock victim, a lock wait timeout, a
`COMMIT` that fails — loses its pending writes and its locks.

The world also carries the **history** of all commands with their answers, newest first. No command
reads it: statements do.
-/

namespace DailyFresh

open Python Store Interleave

/-! ### Commands -/

/-- Exceptions of the ORM. -/
inductive DbError where
  | doesNotExist
  | multipleObjectsReturned
  /-- A parameter that is not a number where an integer column is compared. -/
  | valueError
  | integrityError
  | dataError
  /-- A query in a transaction that is marked broken. -/
  | transactionManagementError
  deriving DecidableEq

/-- What `api_alipay_trade_query` returns, as far as the site reads it. -/
structure Answer where
  code : Option Str
  tradeStatus : Option Str
  tradeNo : Option Str
  deriving DecidableEq

/-- The commands the views send. -/
inductive Cmd where
  /-- `with transaction.atomic():` begins. -/
  | atomicEnter
  /-- The block is left without an exception. -/
  | commit
  /-- The block is left by an exception. -/
  | rollback
  /-- `transaction.savepoint()`. -/
  | savepoint
  /-- `transaction.savepoint_rollback(save_id)`. -/
  | savepointRollback
  /-- `Address.objects.get(id=id)`. -/
  | addressGet (id : Str)
  /-- `Address.objects.get(user=user, is_default=True)`. -/
  | addressDefault (user : ℕ)
  /-- `Address.objects.filter(user=user)`. -/
  | addressFilter (user : ℕ)
  /-- `Address.objects.create(...)`. -/
  | addressCreate (address : AddressObject)
  /-- `GoodsType.objects.get(id=id)`. -/
  | typeGet (id : Str)
  /-- `GoodsSKU.objects.get(id=id)`. -/
  | skuGet (id : Str)
  /-- `GoodsSKU.objects.filter(id=id, stock=orginStock).update(stock=newStock, sales=newSales)`. -/
  | skuUpdate (id : Str) (orginStock newStock newSales : ℤ)
  /-- `sku.save()`, all columns. -/
  | skuSave (id : ℕ) (sku : GoodsSKU)
  /-- `OrderInfo.objects.create(...)`. -/
  | orderCreate (order : OrderObject)
  /-- `order.save()`, all columns. -/
  | orderSave (order : OrderObject)
  /-- `OrderInfo.objects.get(order_id=..., user=..., ...)`; an absent filter is `none`. -/
  | orderGet (orderId : Str) (user : ℕ) (payMethod : Option PayMethod)
      (orderStatus : Option OrderStatus)
  /-- `OrderGoods.objects.create(...)`. -/
  | lineCreate (line : LineObject)
  /-- `OrderGoods.objects.get(order=..., sku_id=...)`. -/
  | lineGet (order : Str) (skuId : Option Str)
  /-- `OrderGoods.objects.filter(order_id=orderId)`. -/
  | lineFilter (orderId : Str)
  /-- `order_goods.save()`, all columns, after `order_goods.comment = comment`. -/
  | lineSave (id : ℕ) (line : OrderGoods) (comment : Str)
  /-- `conn.hget('cart_%d' % user, field)`. -/
  | hget (user : ℕ) (field : Str)
  /-- `conn.hset('cart_%d' % user, field, value)`. -/
  | hset (user : ℕ) (field : Str) (value : ℤ)
  /-- `conn.hlen('cart_%d' % user)`. -/
  | hlen (user : ℕ)
  /-- `conn.hvals('cart_%d' % user)`. -/
  | hvals (user : ℕ)
  /-- `conn.hdel('cart_%d' % user, *fields)`. -/
  | hdel (user : ℕ) (fields : List Str)
  /-- `conn.hgetall('cart_%d' % user)`. -/
  | hgetall (user : ℕ)
  /-- `conn.lrem('history_%d' % user, 0, value)`. -/
  | lrem (user : ℕ) (value : Str)
  /-- `conn.lpush('history_%d' % user, value)`. -/
  | lpush (user : ℕ) (value : Str)
  /-- `conn.ltrim('history_%d' % user, 0, 4)`. -/
  | ltrim (user : ℕ)
  /-- `conn.lrange('history_%d' % user, 0, 4)`. -/
  | lrange (user : ℕ)
  /-- `alipay.api_alipay_trade_query(orderId)`. -/
  | tradeQuery (orderId : Str)
  deriving DecidableEq

/-- The answers to each command. -/
@[reducible] def Cmd.Resp : Cmd → Type
  | atomicEnter | commit | rollback | savepoint => Unit
  | savepointRollback => Except DbError Unit
  | addressGet _ | addressDefault _ => Except DbError (ℕ × Address)
  | addressFilter _ => Except DbError (List (ℕ × Address))
  | addressCreate _ => Except DbError Unit
  | typeGet _ => Except DbError (ℕ × GoodsType)
  | skuGet _ => Except DbError (ℕ × GoodsSKU)
  | skuUpdate .. => Except DbError ℕ
  | skuSave .. | orderCreate _ | orderSave _ | lineCreate _ | lineSave .. => Except DbError Unit
  | orderGet .. => Except DbError OrderObject
  | lineGet .. => Except DbError (ℕ × OrderGoods)
  | lineFilter _ => Except DbError (List OrderGoods)
  | hget .. => Option ℤ
  | hset .. | hdel .. => Unit
  | hlen _ => ℕ
  | hvals _ => List ℤ
  | hgetall _ => List (Str × ℤ)
  | lrem .. | lpush .. | ltrim _ => Unit
  | lrange _ => List Str
  | tradeQuery _ => Answer

/-- The signature of the site's programs. -/
abbrev Services : Signature where
  Cmd := Cmd
  Resp := Cmd.Resp

/-- Send a command to the services. -/
abbrev ask (c : Services.Cmd) : Program Services (Services.Resp c) := Program.send c

/-- What a command answers in a broken transaction; `none` for what is not a database query. -/
def Cmd.refusal : (c : Cmd) → Option c.Resp
  | savepointRollback => some (.error .transactionManagementError)
  | addressGet _ => some (.error .transactionManagementError)
  | addressDefault _ => some (.error .transactionManagementError)
  | addressFilter _ => some (.error .transactionManagementError)
  | addressCreate _ => some (.error .transactionManagementError)
  | typeGet _ => some (.error .transactionManagementError)
  | skuGet _ => some (.error .transactionManagementError)
  | skuUpdate .. => some (.error .transactionManagementError)
  | skuSave .. => some (.error .transactionManagementError)
  | orderCreate _ => some (.error .transactionManagementError)
  | orderSave _ => some (.error .transactionManagementError)
  | orderGet .. => some (.error .transactionManagementError)
  | lineCreate _ => some (.error .transactionManagementError)
  | lineGet .. => some (.error .transactionManagementError)
  | lineFilter _ => some (.error .transactionManagementError)
  | lineSave .. => some (.error .transactionManagementError)
  | _ => none

/-! ### State -/

/-- The committed tables. -/
structure Db where
  skus : Table ℕ GoodsSKU
  types : Table ℕ GoodsType
  addrs : AList fun _ : ℕ ↦ Address
  orders : Table Str OrderInfo
  lines : List OrderGoods

/-- The address rows. -/
def Db.address (db : Db) : Table ℕ Address := fun n ↦ db.addrs.lookup n

/-- The writes of a transaction that has not committed. -/
structure Pending where
  skus : Table ℕ GoodsSKU
  orders : Table Str OrderInfo
  lines : List OrderGoods

/-- No writes. -/
def Pending.empty : Pending where
  skus := Table.empty
  orders := Table.empty
  lines := []

/-- The state of a request's database connection. -/
structure Session where
  inAtomic : Bool
  needsRollback : Bool
  pending : Pending
  /-- The writes that were pending at the savepoint. -/
  saved : Pending

/-- A connection outside any transaction. -/
def Session.idle : Session where
  inAtomic := false
  needsRollback := false
  pending := .empty
  saved := .empty

/-- A write has failed: inside a transaction that marks it broken. -/
def Session.fail (l : Session) : Session :=
  { l with needsRollback := l.needsRollback || l.inAtomic }

variable {ι : Type}

/-- One command, sent by one request and answered. -/
structure Event (ι : Type) where
  process : ι
  cmd : Cmd
  resp : cmd.Resp

/-- Everything the requests share. -/
structure World (ι : Type) where
  db : Db
  skuLock : Locks ℕ ι
  orderLock : Locks Str ι
  /-- The hash `cart_<user id>` of each user. -/
  carts : ℕ → Cart
  /-- The list `history_<user id>` of each user. -/
  histories : ℕ → List Str
  /-- The answers the gateway is still going to give. -/
  gateway : ℕ → Answer
  /-- What has been sent and answered, newest first. -/
  history : List (Event ι)

/-- `GoodsSKU.objects.get(id=id)` and its like on a table: the row whose key the text denotes. -/
def findRow {R : Type} (tbl : Table ℕ R) (id : Str) : Except DbError (ℕ × R) :=
  match int id with
  | some (.ofNat n) =>
    match tbl n with
    | some r => .ok (n, r)
    | none => .error .doesNotExist
  | some (.negSucc _) => .error .doesNotExist
  | none => .error .valueError

theorem findRow_eq_ok_iff {R : Type} {tbl : Table ℕ R} {id : Str} {n : ℕ} {r : R} :
    findRow tbl id = .ok (n, r) ↔ int id = some (n : ℤ) ∧ tbl n = some r := by
  unfold findRow
  rcases h : int id with - | m | m
  · simp
  · rcases hr : tbl m with - | r'
    · have hne : (m : ℤ) = n → tbl n ≠ some r := fun hmn ↦ by
        rw [← Int.ofNat.inj hmn, hr]
        exact Option.some_ne_none r |>.symm
      simpa [hr] using hne
    · have hiff : (m, r') = (n, r) ↔ (m : ℤ) = n ∧ tbl n = some r := by
        constructor
        · rintro ⟨rfl, rfl⟩
          exact ⟨rfl, hr⟩
        · rintro ⟨hmn, hn⟩
          obtain rfl := Int.ofNat.inj hmn
          rw [Option.some.inj (hr.symm.trans hn)]
      simpa [hr] using hiff
  · simp

theorem findRow_of_none {R : Type} {tbl : Table ℕ R} {id : Str} {n : ℕ} (hid : int id = some (n : ℤ))
    (h : tbl n = none) : findRow tbl id = .error .doesNotExist := by
  rcases hfind : findRow tbl id with e | ⟨m, r⟩
  · unfold findRow at hfind
    split at hfind
    · split at hfind
      · cases hfind
      · exact hfind.symm
    · exact hfind.symm
    · rename_i hnone
      cases hid.symm.trans hnone
  · obtain ⟨hid', hr⟩ := findRow_eq_ok_iff.1 hfind
    obtain rfl := Int.ofNat_inj.1 (Option.some.inj (hid.symm.trans hid'))
    cases h.symm.trans hr

/-- A row that is found is found again when rows are added. -/
theorem findRow_mono {R : Type} {tbl tbl' : Table ℕ R} (h : tbl.Sub tbl') {id : Str} {n : ℕ} {r : R}
    (hfind : findRow tbl id = .ok (n, r)) : findRow tbl' id = .ok (n, r) := by
  obtain ⟨hid, hr⟩ := findRow_eq_ok_iff.1 hfind
  exact findRow_eq_ok_iff.2 ⟨hid, h n r hr⟩

/-- `UPDATE ... SET stock=newStock, sales=newSales` on a row; `none` if a column refuses. -/
def GoodsSKU.update? (sku : GoodsSKU) (newStock newSales : ℤ) : Option GoodsSKU := do
  let stock ← Column.store? _ _ newStock
  let sales ← Column.store? _ _ newSales
  some { sku with stock, sales }

theorem GoodsSKU.update?_eq_some_iff {sku new : GoodsSKU} {newStock newSales : ℤ} :
    sku.update? newStock newSales = some new ↔
      new.stock.val = newStock ∧ new.sales.val = newSales ∧ new.price = sku.price := by
  obtain ⟨price, stock, sales⟩ := new
  simp only [update?, Option.bind_eq_bind, Option.bind_eq_some_iff, Column.store?_eq_some_iff,
    Option.some.injEq, GoodsSKU.mk.injEq]
  constructor
  · rintro ⟨a, ha, b, hb, hp, rfl, rfl⟩
    exact ⟨ha, hb, hp.symm⟩
  · rintro ⟨ha, hb, hp⟩
    exact ⟨stock, ha, sales, hb, hp.symm, rfl, rfl⟩

/-- `conn.hdel(key, *fields)` on a cart. -/
def Cart.hdel (cart : Cart) (fields : List Str) : Cart :=
  fields.foldl (fun cart field ↦ cart.erase field) cart

@[simp] theorem Cart.lookup_hdel (cart : Cart) (fields : List Str) (field : Str) :
    (cart.hdel fields).lookup field = if field ∈ fields then none else cart.lookup field := by
  unfold Cart.hdel
  induction fields generalizing cart with
  | nil => simp
  | cons f fields ih =>
    rw [List.foldl_cons, ih]
    by_cases hf : field = f
    · subst hf
      simp
    · simp [hf, AList.lookup_erase_ne hf]

namespace World

variable [DecidableEq ι]

/-- Replace the browsing history of one user. -/
def setHistory (w : World ι) (user : ℕ) (list : List Str) : World ι :=
  { w with histories := Function.update w.histories user list }

/-- Replace the cart of one user. -/
def setCart (w : World ι) (user : ℕ) (cart : Cart) : World ι :=
  { w with carts := Function.update w.carts user cart }

/-- The gateway has given its next answer. -/
def popAnswer (w : World ι) : World ι :=
  { w with gateway := fun i ↦ w.gateway (i + 1) }

/-- The transaction of `t` ends: its locks go. -/
def release (w : World ι) (t : ι) : World ι :=
  { w with skuLock := w.skuLock.release t, orderLock := w.orderLock.release t }

/-- The pending writes become the committed ones. -/
def install (w : World ι) (p : Pending) : World ι :=
  { w with db := { w.db with skus := p.skus.overlay w.db.skus
                             orders := p.orders.overlay w.db.orders
                             lines := w.db.lines ++ p.lines } }

/-- A command and its answer go down in the history. -/
def record (w : World ι) (t : ι) (c : Cmd) (r : c.Resp) : World ι :=
  { w with history := ⟨t, c, r⟩ :: w.history }

/-- Write a product row: pending and under its lock in a transaction, at once outside. -/
def writeSku (w : World ι) (t : ι) (l : Session) (n : ℕ) (sku : GoodsSKU) : World ι × Session :=
  if l.inAtomic then
    ({ w with skuLock := w.skuLock.acquire t n },
      { l with pending := { l.pending with skus := l.pending.skus.set n sku } })
  else
    ({ w with db := { w.db with skus := w.db.skus.set n sku } }, l)

/-- Write an order row. -/
def writeOrder (w : World ι) (t : ι) (l : Session) (orderId : Str) (row : OrderInfo) :
    World ι × Session :=
  if l.inAtomic then
    ({ w with orderLock := w.orderLock.acquire t orderId },
      { l with pending := { l.pending with orders := l.pending.orders.set orderId row } })
  else
    ({ w with db := { w.db with orders := w.db.orders.set orderId row } }, l)

/-- Append a line. -/
def writeLine (w : World ι) (l : Session) (row : OrderGoods) : World ι × Session :=
  if l.inAtomic then
    (w, { l with pending := { l.pending with lines := l.pending.lines ++ [row] } })
  else
    ({ w with db := { w.db with lines := w.db.lines ++ [row] } }, l)

/-- The product rows that a session sees. -/
def skus (w : World ι) (l : Session) : Table ℕ GoodsSKU := l.pending.skus.overlay w.db.skus

/-- The order rows that a session sees. -/
def orders (w : World ι) (l : Session) : Table Str OrderInfo := l.pending.orders.overlay w.db.orders

/-- The lines that a session sees. -/
def lines (w : World ι) (l : Session) : List OrderGoods := w.db.lines ++ l.pending.lines

end World

/-- Does an order match the filters of a query? -/
def OrderInfo.satisfies (row : OrderInfo) (user : ℕ) (payMethod : Option PayMethod)
    (orderStatus : Option OrderStatus) : Bool :=
  row.user = user && payMethod.all (row.payMethod = ·) && orderStatus.all (row.orderStatus = ·)

/-- `OrderGoods.objects.get(order=order, sku_id=skuId)` on a list of lines; `sku_id=None` matches no
line. -/
def findLine (lines : List OrderGoods) (order : Str) (skuId : Option Str) :
    Except DbError (ℕ × OrderGoods) :=
  match skuId with
  | none => .error .doesNotExist
  | some skuId =>
    match int skuId with
    | none => .error .valueError
    | some n =>
      match lines.zipIdx.filter fun x ↦ x.1.order = order ∧ (x.1.sku : ℤ) = n with
      | [] => .error .doesNotExist
      | [x] => .ok (x.2, x.1)
      | _ => .error .multipleObjectsReturned

/-- The addresses with their ids that satisfy a test. -/
def Db.addresses (db : Db) (test : Address → Bool) : List (ℕ × Address) :=
  (db.addrs.entries.map fun e ↦ (e.1, e.2)).filter fun x ↦ test x.2

/-- `objects.get(...)` on the rows that match. -/
def getOne {R : Type} : List R → Except DbError R
  | [] => .error .doesNotExist
  | [r] => .ok r
  | _ :: _ :: _ => .error .multipleObjectsReturned

theorem getOne_eq_ok_iff {R : Type} {rows : List R} {r : R} : getOne rows = .ok r ↔ rows = [r] := by
  rcases rows with - | ⟨r₁, - | ⟨r₂, rows⟩⟩ <;> simp [getOne]

/-- The id that `AUTO_INCREMENT` gives a new address. -/
def Db.nextAddress (db : Db) : ℕ := db.addrs.keys.foldr max 0 + 1

theorem Db.mem_addresses_iff {db : Db} {test : Address → Bool} {n : ℕ} {a : Address} :
    (n, a) ∈ db.addresses test ↔ db.address n = some a ∧ test a = true := by
  have hentry : (⟨n, a⟩ : Sigma fun _ : ℕ ↦ Address) ∈ db.addrs.entries ↔ db.address n = some a :=
    AList.mem_lookup_iff.symm
  rw [addresses, List.mem_filter, ← hentry]
  refine and_congr_left fun _ ↦ ⟨fun h ↦ ?_, fun h ↦ List.mem_map_of_mem (f := fun e ↦ (e.1, e.2)) h⟩
  obtain ⟨e, he, heq⟩ := List.mem_map.1 h
  obtain ⟨rfl, rfl⟩ := Prod.mk.inj heq
  exact he

/-- No row has the new id yet. -/
theorem Db.address_nextAddress (db : Db) : db.address db.nextAddress = none :=
  lookup_nextKey db.addrs

/-- A new address joins the old ones. -/
theorem Db.address_insert {db : Db} {row : Address} {addrs : AList fun _ : ℕ ↦ Address}
    (h : addrs = db.addrs.insert db.nextAddress row) :
    ({ db with addrs } : Db).address = db.address.set db.nextAddress row := by
  funext n
  rw [h]
  by_cases hn : n = db.nextAddress
  · subst hn
    rw [Table.set_self]
    exact AList.lookup_insert ..
  · rw [Table.set_of_ne hn]
    exact AList.lookup_insert_ne hn

theorem OrderInfo.satisfies_iff {row : OrderInfo} {user : ℕ} {payMethod : Option PayMethod}
    {orderStatus : Option OrderStatus} : row.satisfies user payMethod orderStatus = true ↔
      row.user = user ∧ (∀ m, payMethod = some m → row.payMethod = m) ∧
        ∀ s, orderStatus = some s → row.orderStatus = s := by
  cases payMethod <;> cases orderStatus <;> simp [OrderInfo.satisfies, and_assoc]

/-- A line that is found is at the place that its id says. -/
theorem findLine_eq_ok {lines : List OrderGoods} {order : Str} {skuId : Option Str} {id : ℕ}
    {line : OrderGoods} (h : findLine lines order skuId = .ok (id, line)) :
    lines[id]? = some line ∧ line.order = order := by
  unfold findLine at h
  split at h
  · cases h
  split at h
  · cases h
  split at h
  · cases h
  · rename_i x hx
    cases h
    have hmem : x ∈ lines.zipIdx.filter _ := hx ▸ List.mem_singleton_self x
    obtain ⟨hmem, hmatch⟩ := List.mem_filter.1 hmem
    exact ⟨List.mem_zipIdx_iff_getElem?.1 hmem, (of_decide_eq_true hmatch).1⟩
  · cases h

/-! ### Execution -/

variable [DecidableEq ι]

/-- One command of `t` in a transaction that is not broken; `none` while it has to wait. -/
def run (t : ι) (w : World ι) (l : Session) : (c : Cmd) → Option (c.Resp × World ι × Session)
  | .atomicEnter => some ((), w, { l with inAtomic := true })
  | .commit =>
    -- `atomic` rolls a broken transaction back even when no exception leaves its block
    if l.needsRollback then some ((), w.release t, .idle)
    else some ((), (w.install l.pending).release t, .idle)
  | .rollback => some ((), w.release t, .idle)
  | .savepoint => some ((), w, { l with saved := l.pending })
  | .savepointRollback => some (.ok (), w, { l with pending := l.saved })
  | .addressGet id => some (findRow w.db.address id, w, l)
  | .addressDefault user =>
    some (getOne (w.db.addresses fun a ↦ a.user = user && a.isDefault), w, l)
  | .addressFilter user => some (.ok (w.db.addresses fun a ↦ a.user = user), w, l)
  | .addressCreate address =>
    -- sent outside transactions only
    match address.row? with
    | none => some (.error .dataError, w, l.fail)
    | some row =>
      some (.ok (), { w with db := { w.db with addrs := w.db.addrs.insert w.db.nextAddress row } }, l)
  | .typeGet id => some (findRow w.db.types id, w, l)
  | .skuGet id => some (findRow (w.skus l) id, w, l)
  | .skuUpdate id orginStock newStock newSales =>
    match findRow (w.skus l) id with
    | .error .doesNotExist => some (.ok 0, w, l)
    | .error e => some (.error e, w, l)
    | .ok (n, sku) =>
      if w.skuLock.free t n then
        if sku.stock.val = orginStock then
          match sku.update? newStock newSales with
          | some new => some (.ok 1, w.writeSku t l n new)
          | none => some (.error .dataError, w, l.fail)
        else some (.ok 0, w, l)
      else none
  | .skuSave n sku => if w.skuLock.free t n then some (.ok (), w.writeSku t l n sku) else none
  | .orderCreate order =>
    match order.row? with
    | none => some (.error .dataError, w, l.fail)
    | some row =>
      if w.orderLock.free t order.orderId then
        match w.orders l order.orderId with
        | some _ => some (.error .integrityError, w, l.fail)
        | none => some (.ok (), w.writeOrder t l order.orderId row)
      else none
  | .orderSave order =>
    match order.row? with
    | none => some (.error .dataError, w, l.fail)
    | some row =>
      if w.orderLock.free t order.orderId then
        some (.ok (), w.writeOrder t l order.orderId row)
      else none
  | .orderGet orderId user payMethod orderStatus =>
    match w.orders l orderId with
    | some row =>
      if row.satisfies user payMethod orderStatus then some (.ok (row.object orderId), w, l)
      else some (.error .doesNotExist, w, l)
    | none => some (.error .doesNotExist, w, l)
  | .lineCreate line =>
    match line.row? with
    | none => some (.error .dataError, w, l.fail)
    | some row => some (.ok (), w.writeLine l row)
  | .lineGet order skuId => some (findLine (w.lines l) order skuId, w, l)
  | .lineFilter orderId => some (.ok ((w.lines l).filter fun line ↦ line.order = orderId), w, l)
  | .lineSave id line comment =>
    -- sent outside transactions only
    match TextColumn.store? 156 comment with
    | none => some (.error .dataError, w, l.fail)
    | some comment =>
      some (.ok (), { w with db := { w.db with lines := w.db.lines.set id { line with comment } } },
        l)
  | .hget user field => some ((w.carts user).lookup field, w, l)
  | .hset user field value => some ((), w.setCart user ((w.carts user).insert field value), l)
  | .hlen user => some ((w.carts user).keys.length, w, l)
  | .hvals user => some ((w.carts user).entries.map (·.2), w, l)
  | .hdel user fields => some ((), w.setCart user ((w.carts user).hdel fields), l)
  | .hgetall user => some ((w.carts user).entries.map fun e ↦ (e.1, e.2), w, l)
  | .lrem user value => some ((), w.setHistory user ((w.histories user).filter (· ≠ value)), l)
  | .lpush user value => some ((), w.setHistory user (value :: w.histories user), l)
  | .ltrim user => some ((), w.setHistory user ((w.histories user).take 5), l)
  | .lrange user => some ((w.histories user).take 5, w, l)
  | .tradeQuery _ => some (w.gateway 0, w.popAnswer, l)

/-- One command of `t`, with its entry in the history. -/
def exec (t : ι) (w : World ι) (l : Session) (c : Cmd) : Option (c.Resp × World ι × Session) :=
  let answered : Option (c.Resp × World ι × Session) :=
    match if l.needsRollback then c.refusal else none with
    | some r => some (r, w, l)
    | none => run t w l c
  answered.map fun x ↦ (x.1, x.2.1.record t c x.1, x.2.2)

/-- The machine of the site. -/
def site (ι : Type) [DecidableEq ι] : Machine Services ι (World ι) Session Reply where
  exec := exec
  abort t w _ := (w.release t, .idle)
  crash := .error

theorem exec_eq_some_iff {t : ι} {w : World ι} {l : Session} (h : l.needsRollback = false) {c : Cmd}
    {r : c.Resp} {w' : World ι} {l' : Session} :
    exec t w l c = some (r, w', l') ↔
      ∃ v, run t w l c = some (r, v, l') ∧ w' = v.record t c r := by
  simp only [exec, h, Bool.false_eq_true, if_false, Option.map_eq_some_iff, Prod.mk.injEq,
    Prod.exists]
  constructor
  · rintro ⟨r', v, l'', hrun, rfl, rfl, rfl⟩
    exact ⟨v, hrun, rfl⟩
  · rintro ⟨v, hrun, rfl⟩
    exact ⟨r, v, l', hrun, rfl, rfl, rfl⟩

/-! ### What a write can do -/

section Writes

variable {t : ι} {w w' : World ι} {l l' : Session}

/-- **The conditional update**: it matches nothing, raises, or writes the row it found with the
stock it was told. -/
theorem run_skuUpdate_cases {id : Str} {orginStock newStock newSales : ℤ} {r : Except DbError ℕ}
    (h : run t w l (.skuUpdate id orginStock newStock newSales) = some (r, w', l')) :
    (r = .ok 0 ∧ w' = w ∧ l' = l ∧
      ∀ n sku, findRow (w.skus l) id = .ok (n, sku) → sku.stock.val ≠ orginStock) ∨
    (∃ e, r = .error e ∧ w' = w ∧ (l' = l ∨ l' = l.fail)) ∨
    (∃ n old new, r = .ok 1 ∧ findRow (w.skus l) id = .ok (n, old) ∧ w.skuLock.free t n = true ∧
      old.stock.val = orginStock ∧ old.update? newStock newSales = some new ∧
      (w', l') = w.writeSku t l n new) := by
  rw [run] at h
  split at h
  · rename_i hfind
    cases h
    exact .inl ⟨rfl, rfl, rfl, fun n sku hok ↦ by rw [hfind] at hok; cases hok⟩
  · cases h
    exact .inr (.inl ⟨_, rfl, rfl, .inl rfl⟩)
  · rename_i n sku hfind
    by_cases hfree : w.skuLock.free t n = true
    · rw [if_pos hfree] at h
      by_cases hstock : sku.stock.val = orginStock
      · rw [if_pos hstock] at h
        rcases hupdate : sku.update? newStock newSales with - | new
        · rw [hupdate] at h
          cases h
          exact .inr (.inl ⟨_, rfl, rfl, .inr rfl⟩)
        · rw [hupdate] at h
          obtain ⟨rfl, hw⟩ := Prod.mk.inj (Option.some.inj h)
          exact .inr (.inr ⟨n, sku, new, rfl, hfind, hfree, hstock, hupdate, hw.symm⟩)
      · rw [if_neg hstock] at h
        cases h
        refine .inl ⟨rfl, rfl, rfl, fun m sku' hok ↦ ?_⟩
        rw [hfind] at hok
        cases hok
        exact hstock
    · rw [if_neg hfree] at h
      cases h

/-- **The creation of an order**: it raises, or writes a row under a key that had none. -/
theorem run_orderCreate_cases {order : OrderObject} {r : Except DbError Unit}
    (h : run t w l (.orderCreate order) = some (r, w', l')) :
    (∃ e, r = .error e ∧ w' = w ∧ l' = l.fail) ∨
    (∃ row, r = .ok () ∧ order.row? = some row ∧ w.orderLock.free t order.orderId = true ∧
      w.orders l order.orderId = none ∧ (w', l') = w.writeOrder t l order.orderId row) := by
  rw [run] at h
  split at h
  · cases h
    exact .inl ⟨_, rfl, rfl, rfl⟩
  · rename_i row hrow
    by_cases hfree : w.orderLock.free t order.orderId = true
    · rw [if_pos hfree] at h
      split at h
      · cases h
        exact .inl ⟨_, rfl, rfl, rfl⟩
      · rename_i hnone
        obtain ⟨rfl, hw⟩ := Prod.mk.inj (Option.some.inj h)
        exact .inr ⟨row, rfl, hrow, hfree, hnone, hw.symm⟩
    · rw [if_neg hfree] at h
      cases h

/-- **The save of an order**: it raises, or writes the object's row. -/
theorem run_orderSave_cases {order : OrderObject} {r : Except DbError Unit}
    (h : run t w l (.orderSave order) = some (r, w', l')) :
    (∃ e, r = .error e ∧ order.row? = none ∧ w' = w ∧ l' = l.fail) ∨
    (∃ row, r = .ok () ∧ order.row? = some row ∧ w.orderLock.free t order.orderId = true ∧
      (w', l') = w.writeOrder t l order.orderId row) := by
  rw [run] at h
  split at h
  · rename_i hrow
    cases h
    exact .inl ⟨_, rfl, hrow, rfl, rfl⟩
  · rename_i row hrow
    by_cases hfree : w.orderLock.free t order.orderId = true
    · rw [if_pos hfree] at h
      obtain ⟨rfl, hw⟩ := Prod.mk.inj (Option.some.inj h)
      exact .inr ⟨row, rfl, hrow, hfree, hw.symm⟩
    · rw [if_neg hfree] at h
      cases h

/-- **The creation of a line**: it raises, or appends the object's row. -/
theorem run_lineCreate_cases {line : LineObject} {r : Except DbError Unit}
    (h : run t w l (.lineCreate line) = some (r, w', l')) :
    (∃ e, r = .error e ∧ line.row? = none ∧ w' = w ∧ l' = l.fail) ∨
    (∃ row, r = .ok () ∧ line.row? = some row ∧ (w', l') = w.writeLine l row) := by
  rw [run] at h
  split at h
  · rename_i hrow
    cases h
    exact .inl ⟨_, rfl, hrow, rfl, rfl⟩
  · rename_i row hrow
    obtain ⟨rfl, hw⟩ := Prod.mk.inj (Option.some.inj h)
    exact .inr ⟨row, rfl, hrow, hw.symm⟩

/-- **The lookup of an order**: the row it finds matches the filters. -/
theorem run_orderGet_cases {orderId : Str} {user : ℕ} {payMethod : Option PayMethod}
    {orderStatus : Option OrderStatus} {r : Except DbError OrderObject}
    (h : run t w l (.orderGet orderId user payMethod orderStatus) = some (r, w', l')) :
    w' = w ∧ l' = l ∧ ((∃ e, r = .error e) ∨ ∃ row, w.orders l orderId = some row ∧
      row.satisfies user payMethod orderStatus = true ∧ r = .ok (row.object orderId)) := by
  rw [run] at h
  split at h
  · rename_i row hrow
    split at h
    · rename_i hmatches
      cases h
      exact ⟨rfl, rfl, .inr ⟨row, hrow, hmatches, rfl⟩⟩
    · cases h
      exact ⟨rfl, rfl, .inl ⟨_, rfl⟩⟩
  · cases h
    exact ⟨rfl, rfl, .inl ⟨_, rfl⟩⟩

/-- **The creation of an address**: it raises, or adds a row. -/
theorem run_addressCreate_cases {address : AddressObject} {r : Except DbError Unit}
    (h : run t w l (.addressCreate address) = some (r, w', l')) :
    (∃ e, r = .error e ∧ w' = w ∧ l' = l.fail) ∨
    (∃ row, r = .ok () ∧ address.row? = some row ∧ l' = l ∧
      w' = { w with db := { w.db with addrs := w.db.addrs.insert w.db.nextAddress row } }) := by
  rw [run] at h
  split at h
  · cases h
    exact .inl ⟨_, rfl, rfl, rfl⟩
  · rename_i row hrow
    cases h
    exact .inr ⟨row, rfl, hrow, rfl, rfl⟩

/-- **The rollback to the savepoint**: a broken transaction refuses it, any other loses what it has
written since. -/
theorem exec_savepointRollback_cases {r : Except DbError Unit}
    (h : exec t w l .savepointRollback = some (r, w', l')) :
    (∃ e, r = .error e ∧ w' = w.record t .savepointRollback r ∧ l' = l) ∨
    (r = .ok () ∧ l.needsRollback = false ∧ w' = w.record t .savepointRollback r ∧
      l' = { l with pending := l.saved }) := by
  obtain ⟨inAtomic, needsRollback, pending, saved⟩ := l
  cases needsRollback with
  | true =>
    cases h
    exact .inl ⟨_, rfl, rfl, rfl⟩
  | false =>
    cases h
    exact .inr ⟨rfl, rfl, rfl, rfl⟩

omit [DecidableEq ι] in
theorem World.writeSku_history (n : ℕ) (sku : GoodsSKU) :
    (w.writeSku t l n sku).1.history = w.history := by
  unfold World.writeSku
  split <;> rfl

omit [DecidableEq ι] in
theorem World.writeOrder_history (k : Str) (row : OrderInfo) :
    (w.writeOrder t l k row).1.history = w.history := by
  unfold World.writeOrder
  split <;> rfl

omit [DecidableEq ι] in
theorem World.writeLine_history (row : OrderGoods) :
    (w.writeLine l row).1.history = w.history := by
  unfold World.writeLine
  split <;> rfl

/-- Running a command does not touch the history. -/
theorem run_history {c : Cmd} {r : c.Resp} {v : World ι} (h : run t w l c = some (r, v, l')) :
    v.history = w.history := by
  cases c with
  | skuUpdate id a b d =>
    obtain ⟨-, rfl, -⟩ | ⟨_, -, rfl, -⟩ | ⟨n, old, new, -, -, -, -, -, hv⟩ := run_skuUpdate_cases h
    · rfl
    · rfl
    · exact (congrArg (fun x ↦ x.1.history) hv).trans (World.writeSku_history ..)
  | orderCreate order =>
    obtain ⟨_, -, rfl, -⟩ | ⟨row, -, -, -, -, hv⟩ := run_orderCreate_cases h
    · rfl
    · exact (congrArg (fun x ↦ x.1.history) hv).trans (World.writeOrder_history ..)
  | orderSave order =>
    obtain ⟨_, -, -, rfl, -⟩ | ⟨row, -, -, -, hv⟩ := run_orderSave_cases h
    · rfl
    · exact (congrArg (fun x ↦ x.1.history) hv).trans (World.writeOrder_history ..)
  | lineCreate line =>
    obtain ⟨_, -, -, rfl, -⟩ | ⟨row, -, -, hv⟩ := run_lineCreate_cases h
    · rfl
    · exact (congrArg (fun x ↦ x.1.history) hv).trans (World.writeLine_history ..)
  | orderGet => exact congrArg _ (run_orderGet_cases h).1
  | skuSave n sku =>
    rw [run] at h
    split at h
    · obtain ⟨-, hv⟩ := Prod.mk.inj (Option.some.inj h)
      exact (congrArg (fun x ↦ x.1.history) hv.symm).trans (World.writeSku_history ..)
    · cases h
  | lineSave =>
    rw [run] at h
    split at h
    all_goals
      cases h
      rfl
  | commit =>
    rw [run] at h
    split at h
    all_goals
      cases h
      rfl
  | addressCreate address =>
    obtain ⟨_, -, rfl, -⟩ | ⟨row, -, -, -, rfl⟩ := run_addressCreate_cases h
    · rfl
    · rfl
  | _ =>
    cases h
    rfl

/-- **Every executed command is recorded.** -/
theorem exec_history {c : Cmd} {r : c.Resp} (h : exec t w l c = some (r, w', l')) :
    w'.history = ⟨t, c, r⟩ :: w.history := by
  obtain ⟨x, hx, hxw⟩ := Option.map_eq_some_iff.1 h
  obtain ⟨rfl, hw⟩ := Prod.mk.inj hxw
  obtain ⟨rfl, rfl⟩ := Prod.mk.inj hw
  split at hx
  · cases hx
    rfl
  · exact congrArg (List.cons _) (run_history hx)

end Writes

end DailyFresh
