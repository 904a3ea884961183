import DailyFresh.Interleave.Program
import DailyFresh.Site.Services

/-!
# The order app's views

`OrderPlaceView`, `OrderCommitView`, `OrderPayView`, `OrderCheckView` and `CommentView` as programs
over the site's services. They follow the source statement by statement: an exception that leaves a
Python block is the result `Flow.raised` (or `none`) of the block's program, an early `return` is
`Flow.reply`.

`OrderCommitView.post` is `OrderCommitView.postOn id`: the loop over the items runs over all elements
of the split `sku_ids`. `postOn positions` is the same view with its loop restricted to a selection of
them; statements about the view's effect use it.
-/

namespace DailyFresh

open Python Store Interleave Program

/-- A request as the views read it. -/
structure HttpRequest where
  /-- The id of the authenticated `request.user`; `none` for an anonymous one. -/
  user : Option ℕ
  /-- `request.POST.get`. -/
  POST : Str → Option Str

/-- How a block of Python statements ends. -/
inductive Flow (α : Type) where
  /-- The statements after it run. -/
  | next (a : α)
  /-- It returns from the view. -/
  | reply (r : Reply)
  /-- It raises an exception. -/
  | raised

/-- Where `LoginRequiredMixin` sends an anonymous user. -/
def Reply.login : Reply := .redirect "user:login"

/-- The decorator `transaction.atomic`, around a view body that returns a reply or raises. -/
def atomic (body : Program Services (Option Reply)) : Program Services Reply := do
  let _ ← ask .atomicEnter
  match ← body with
  | some reply =>
    let _ ← ask .commit
    pure reply
  | none =>
    let _ ← ask .rollback
    pure .error

/-! ### Placing an order -/

namespace OrderPlaceView

/-- The loop `for sku_id in sku_ids:`; `none` when it raises. -/
def showItems (user : ℕ) : List Str → Program Services (Option (List ShownSKU))
  | [] => pure (some [])
  | skuId :: rest => do
    match ← ask (.skuGet skuId) with
    | .error _ => pure none
    | .ok (n, sku) =>
      match ← ask (.hget user skuId) with
      | none => pure none -- `int(None)`
      | some count =>
        let shown ← showItems user rest
        pure (shown.map fun skus ↦ { id := n, sku, count, amount := sku.price.val * count } :: skus)

/-- `OrderPlaceView.post`; `skuIds` is `request.POST.getlist('sku_ids')`. -/
def post (request : HttpRequest) (skuIds : List Str) : Program Services Reply := do
  match request.user with
  | none => pure .login
  | some user =>
    if skuIds = [] then pure (.redirect "cart:show")
    else
      match ← showItems user skuIds with
      | none => pure .error
      | some skus =>
        let totalCount := (skus.map ShownSKU.count).sum
        let totalPrice := (skus.map ShownSKU.amount).sum
        let transitPrice := 1000
        let totalPay := totalPrice + transitPrice
        match ← ask (.addressFilter user) with
        | .error _ => pure .error
        | .ok addrs =>
          pure (.html (.placeOrder skus totalCount totalPrice transitPrice totalPay addrs
            (List.intercalate [','] skuIds)))

end OrderPlaceView

namespace OrderCommitView

/-- `total_count` and `total_price`. -/
structure Totals where
  count : ℤ
  price : ℤ

/-- `transaction.savepoint_rollback(save_id)`, then `return JsonResponse(...)`. -/
def rollbackAndReply {α : Type} (res : ℤ) (errmsg : String) : Program Services (Flow α) := do
  match ← ask .savepointRollback with
  | .ok () => pure (.reply (.errmsg res errmsg))
  | .error _ => pure .raised

/-- The end of a successful attempt: the line is created and the totals grow. -/
def recordItem (orderId : Str) (n : ℕ) (sku : GoodsSKU) (count : ℤ) (totals : Totals) :
    Program Services (Flow Totals) := do
  match ← ask (.lineCreate { order := orderId, sku := n, count, price := sku.price }) with
  | .error _ => pure .raised
  | .ok () =>
    let amount := sku.price.val * count
    pure (.next { count := totals.count + count, price := totals.price + amount })

/-- The loop `for i in range(2):` over the attempts at one item, from a list of them on. -/
def tryItem (user : ℕ) (orderId skuId : Str) (totals : Totals) :
    List ℕ → Program Services (Flow Totals)
  | [] => pure (.next totals)
  | i :: rest => do
    match ← ask (.skuGet skuId) with
    | .error _ => rollbackAndReply 4 "商品不存在"
    | .ok (n, sku) =>
      match ← ask (.hget user (str n)) with
      | none => pure .raised -- `int(None)`
      | some count =>
        if count > sku.stock.val then
          rollbackAndReply 6 "商品库存不足"
        else
          let orginStock := sku.stock.val
          let newStock := orginStock - count
          let newSales := sku.sales.val + count
          match ← ask (.skuUpdate skuId orginStock newStock newSales) with
          | .error _ => pure .raised
          | .ok 0 =>
            if i = 2 then rollbackAndReply 7 "下单失败"
            else tryItem user orderId skuId totals rest
          | .ok _ => recordItem orderId n sku count totals

/-- The loop `for sku_id in sku_ids:`. -/
def takeItems (user : ℕ) (orderId : Str) : List Str → Totals → Program Services (Flow Totals)
  | [], totals => pure (.next totals)
  | skuId :: rest, totals => do
    match ← tryItem user orderId skuId totals (List.range 2) with
    | .next totals => takeItems user orderId rest totals
    | .reply r => pure (.reply r)
    | .raised => pure .raised

/-- The totals are put into the order, which is saved. -/
def saveTotals (order : OrderObject) (totals : Totals) : Program Services (Flow Unit) := do
  match ← ask (.orderSave { order with totalCount := totals.count, totalPrice := totals.price }) with
  | .error _ => pure .raised
  | .ok () => pure (.next ())

/-- The `try:` block, from the creation of the order to the save of its totals. -/
def placeOrder (order : OrderObject) (skuIds : List Str) : Program Services (Flow Unit) := do
  match ← ask (.orderCreate order) with
  | .error _ => pure .raised
  | .ok () =>
    match ← takeItems order.user order.orderId skuIds { count := 0, price := 0 } with
    | .raised => pure .raised
    | .reply r => pure (.reply r)
    | .next totals => saveTotals order totals

/-- The order object that the view creates; the status and the payment number take the defaults of
their columns. -/
def newOrder (now : LocalTime) (user addr : ℕ) (payMethod : PayMethod) : OrderObject where
  orderId := now.strftime ++ str user
  user := user
  addr := addr
  payMethod := payMethod
  totalCount := 0
  totalPrice := 0
  transitPrice := 1000
  orderStatus := .toPay
  tradeNo := some []

/-- The view without its decorator; `none` when an exception leaves it. -/
def body (positions : List Str → List Str) (now : LocalTime) (request : HttpRequest) :
    Program Services (Option Reply) := do
  match request.user with
  | none => pure (some (.errmsg 0 "请登录"))
  | some user =>
    match nonempty (request.POST "addr_id".toList), nonempty (request.POST "pay_method".toList),
      nonempty (request.POST "sku_ids".toList) with
    | some addrId, some payMethod, some skuIds =>
      match PAY_METHODS.lookup payMethod with
      | none => pure (some (.errmsg 2 "支付方式错误"))
      | some payMethod =>
        match ← ask (.addressGet addrId) with
        | .error .doesNotExist => pure (some (.errmsg 3 "地址非法"))
        | .error _ => pure none
        | .ok (addr, _) =>
          let _ ← ask .savepoint
          let skuIds := split ',' skuIds
          match ← placeOrder (newOrder now user addr payMethod) (positions skuIds) with
          | .raised =>
            match ← ask .savepointRollback with
            | .ok () => pure (some (.errmsg 7 "添加订单失败"))
            | .error _ => pure none
          | .reply r => pure (some r)
          | .next () =>
            let _ ← ask (.hdel user skuIds)
            pure (some (.message 5 "添加成功"))
    | _, _, _ => pure (some (.errmsg 1 "数据不完整"))

/-- The view with its loop over a selection of the items. -/
def postOn (positions : List Str → List Str) (now : LocalTime) (request : HttpRequest) :
    Program Services Reply :=
  atomic (body positions now request)

/-- `OrderCommitView.post`; `now` is what `datetime.now()` returns. -/
def post (now : LocalTime) (request : HttpRequest) : Program Services Reply :=
  postOn id now request

end OrderCommitView

/-! ### Paying -/

/-- `OrderPayView.post`. -/
def OrderPayView.post (request : HttpRequest) : Program Services Reply := do
  match request.user with
  | none => pure (.errmsg 0 "用户未登陆")
  | some user =>
    match nonempty (request.POST "order_id".toList) with
    | none => pure (.errmsg 1 "无效订单id")
    | some orderId =>
      match ← ask (.orderGet orderId user (some .alipay) (some .toPay)) with
      | .error .doesNotExist => pure (.errmsg 2 "订单错误")
      | .error _ => pure .error
      | .ok order =>
        let totalAmount := order.totalPrice + order.transitPrice
        pure (.json [("res", .int 3),
          ("pay_url", .payUrl orderId (decimalStr totalAmount) ("天天生鲜".toList ++ orderId))])

namespace OrderCheckView

/-- The answer says that the order has been paid. -/
def paid (response : Answer) : Bool :=
  response.code = some "10000".toList && response.tradeStatus = some "TRADE_SUCCESS".toList

/-- The answer says that the order may still be paid. -/
def waiting (response : Answer) : Bool :=
  response.code = some "40004".toList ||
    (response.code = some "10000".toList && response.tradeStatus = some "WAIT_BUYER_PAY".toList)

theorem paid_iff {response : Answer} : paid response = true ↔
    response.code = some "10000".toList ∧ response.tradeStatus = some "TRADE_SUCCESS".toList := by
  rw [paid, Bool.and_eq_true, decide_eq_true_iff, decide_eq_true_iff]

/-- No answer says both. -/
theorem paid_eq_false_of_waiting {response : Answer} (h : waiting response = true) :
    paid response = false := by
  rw [Bool.eq_false_iff]
  intro hpaid
  obtain ⟨hcode, hstatus⟩ := paid_iff.1 hpaid
  rw [waiting, hcode, hstatus] at h
  exact absurd h (by decide)

/-- The loop `while True:`, left by either `return`. -/
def awaitPayment (orderId : Str) (order : OrderObject) : Program Services Reply := do
  let response ← poll (Cmd.tradeQuery orderId) (fun r ↦ !paid r && waiting r) pure
  if paid response then
    match ← ask (.orderSave
        { order with tradeNo := response.tradeNo, orderStatus := .toReview }) with
    | .ok () => pure (.message 3 "支付成功")
    | .error _ => pure .error
  else
    pure (.errmsg 4 "支付失败")

/-- `OrderCheckView.post`. -/
def post (request : HttpRequest) : Program Services Reply := do
  match request.user with
  | none => pure (.errmsg 0 "用户未登陆")
  | some user =>
    match nonempty (request.POST "order_id".toList) with
    | none => pure (.errmsg 1 "无效订单id")
    | some orderId =>
      match ← ask (.orderGet orderId user (some .alipay) (some .toPay)) with
      | .error .doesNotExist => pure (.errmsg 2 "订单错误")
      | .error _ => pure .error
      | .ok order => awaitPayment orderId order

end OrderCheckView

/-! ### Reviewing -/

namespace CommentView

/-- `CommentView.get`. The early redirects raise `NoReverseMatch`, as in `post`. -/
def get (request : HttpRequest) (orderId : Str) : Program Services Reply := do
  match request.user with
  | none => pure .error
  | some user =>
    if orderId = [] then pure .error
    else
      match ← ask (.orderGet orderId user none none) with
      | .error _ => pure .error
      | .ok order =>
        match ← ask (.lineFilter orderId) with
        | .error _ => pure .error
        | .ok orderSkus => pure (.html (.orderComment order orderSkus))

/-- The fields of `order_comment.html` for the lines from `forloop.counter` on; `texts i` is what the
user writes into `content_i`. -/
def lineFields (texts : ℕ → Str) : ℕ → List OrderGoods → List (Str × Str)
  | _, [] => []
  | counter, orderSku :: rest =>
    ("sku_".toList ++ str counter, str orderSku.sku) ::
      ("content_".toList ++ str counter, texts counter) :: lineFields texts (counter + 1) rest

/-- What the browser sends when the user submits the form of `order_comment.html`. -/
def formFields (order : OrderObject) (orderSkus : List OrderGoods) (texts : ℕ → Str) :
    List (Str × Str) :=
  ("order_id".toList, order.orderId) :: ("total_count".toList, str orderSkus.length) ::
    lineFields texts 1 orderSkus

/-- The loop `for i in range(1, total_count+1):`; `false` when it raises. -/
def saveComments (request : HttpRequest) (orderId : Str) : List ℕ → Program Services Bool
  | [] => pure true
  | i :: rest => do
    let skuId := request.POST ("sku_".toList ++ str i)
    let content := (request.POST ("content_".toList ++ str i)).getD []
    match ← ask (.lineGet orderId skuId) with
    | .error .doesNotExist => saveComments request orderId rest
    | .error _ => pure false
    | .ok (id, line) =>
      match ← ask (.lineSave id line content) with
      | .ok () => saveComments request orderId rest
      | .error _ => pure false

/-- `CommentView.post`. The route of `reverse('user:order')` needs a page, so both early redirects
raise `NoReverseMatch`, and an anonymous user cannot be compared with a column. -/
def post (request : HttpRequest) (orderId : Str) : Program Services Reply := do
  match request.user with
  | none => pure .error
  | some user =>
    if orderId = [] then pure .error
    else
      match ← ask (.orderGet orderId user none none) with
      | .error _ => pure .error
      | .ok order =>
        match (request.POST "total_count".toList).bind int with
        | none => pure .error
        | some totalCount =>
          if ← saveComments request order.orderId (List.range' 1 totalCount.toNat) then
            match ← ask (.orderSave { order with orderStatus := .finished }) with
            | .ok () => pure (.userOrder 1)
            | .error _ => pure .error
          else
            pure .error

end CommentView

end DailyFresh
