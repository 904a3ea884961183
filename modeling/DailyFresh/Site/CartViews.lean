import DailyFresh.Site.OtherViews

/-!
# The cart app's views and the admin form

`CartAddView.post`, `CartInfoView.get`, `CartUpdateView.post` and `CartDeleteView.post`, and the change
form of `GoodsSKUAdmin`. The cart views look the product up with the client's `sku_id` string, and use the
same string as the field of the cart.
-/

namespace DailyFresh

open Python Store Interleave Program

/-- `CartAddView.post`. -/
def CartAddView.post (request : HttpRequest) : Program Services Reply := do
  match request.user with
  | none => pure (.json [("err", .int 0), ("errmsg", .str "请登录")])
  | some user =>
    match nonempty (request.POST "sku_id".toList), nonempty (request.POST "count".toList) with
    | some skuId, some count =>
      match int count with
      | none => pure (.json [("res", .int 2), ("errnsg", .str "商品数目出错")])
      | some count =>
        match ← ask (.skuGet skuId) with
        | .error _ => pure (.errmsg 3 "商品不存在")
        | .ok (_, sku) =>
          let cartCount ← ask (.hget user skuId)
          let count := count + cartCount.getD 0
          if count > sku.stock.val then
            pure (.errmsg 4 "商品库存不足")
          else
            let _ ← ask (.hset user skuId count)
            let totalCount ← ask (.hlen user)
            pure (.json [("res", .int 5), ("message", .str "添加成功"),
              ("total_count", .int (totalCount : ℕ))])
    | _, _ => pure (.errmsg 1 "数据不完整")

/-- The loop `for sku_id, count in cart_dict.items():`; `none` when it raises. The ids come from Redis as
bytes, and `int` does not read bytes that are not ASCII. -/
def CartInfoView.showItems : List (Str × ℤ) → Program Services (Option (List ShownSKU))
  | [] => pure (some [])
  | (skuId, count) :: rest => do
    if skuId.all fun c ↦ c.toNat < 128 then
      match ← ask (.skuGet skuId) with
      | .error _ => pure none
      | .ok (n, sku) =>
        let shown ← showItems rest
        pure (shown.map fun skus ↦ { id := n, sku, count, amount := sku.price.val * count } :: skus)
    else
      pure none

/-- `CartInfoView.get`. -/
def CartInfoView.get (request : HttpRequest) : Program Services Reply := do
  match request.user with
  | none => pure .login
  | some user =>
    let cartDict ← ask (.hgetall user)
    match ← CartInfoView.showItems cartDict with
    | none => pure .error
    | some skus =>
      pure (.html (.cart skus (skus.map ShownSKU.count).sum (skus.map ShownSKU.amount).sum))

/-- `CartUpdateView.post`. -/
def CartUpdateView.post (request : HttpRequest) : Program Services Reply := do
  match request.user with
  | none => pure (.errmsg 0 "用户未登录")
  | some user =>
    match nonempty (request.POST "sku_id".toList), nonempty (request.POST "count".toList) with
    | some skuId, some count =>
      match int count with
      | none => pure (.json [("res", .int 2), ("errnsg", .str "商品数目出错")])
      | some count =>
        match ← ask (.skuGet skuId) with
        | .error _ => pure (.errmsg 3 "商品不存在")
        | .ok (_, sku) =>
          if count > sku.stock.val then
            pure (.errmsg 4 "超出库存")
          else
            let _ ← ask (.hset user skuId count)
            let vals ← ask (.hvals user)
            pure (.json [("res", .int 5), ("message", .str "更新成功"),
              ("total_count", .int (List.sum vals))])
    | _, _ => pure (.errmsg 1 "数据不完整")

/-- `CartDeleteView.post`. -/
def CartDeleteView.post (request : HttpRequest) : Program Services Reply := do
  match request.user with
  | none => pure (.errmsg 0 "请登录")
  | some user =>
    match nonempty (request.POST "sku_id".toList) with
    | none => pure (.errmsg 1 "无效的商品id")
    | some skuId =>
      match ← ask (.skuGet skuId) with
      | .error _ => pure (.errmsg 2 "商品不存在")
      | .ok _ =>
        let _ ← ask (.hdel user [skuId])
        let vals ← ask (.hvals user)
        pure (.json [("res", .int 3), ("message", .str "删除成功"),
          ("total_count", .int (List.sum vals))])

/-- A product's change form in the admin site: `GoodsSKUAdmin` loads the row, puts the form's values
into it — `edit` — and `BaseModelAdmin.save_model` saves all columns. -/
def GoodsSKUAdmin.change (id : Str) (edit : GoodsSKU → GoodsSKU) : Program Services Reply := do
  match ← ask (.skuGet id) with
  | .error _ => pure .admin
  | .ok (n, sku) =>
    match ← ask (.skuSave n (edit sku)) with
    | .ok () => pure .admin
    | .error _ => pure .error

/-! ### The site -/

/-- The requests of this development. -/
inductive Request where
  /-- `POST /order/place` with this list of `sku_ids`. -/
  | place (request : HttpRequest) (skuIds : List Str)
  /-- `POST /order/commit`, handled at the local time `now`. -/
  | commit (now : LocalTime) (request : HttpRequest)
  /-- `POST /order/pay`. -/
  | pay (request : HttpRequest)
  /-- `POST /order/check`. -/
  | check (request : HttpRequest)
  /-- `GET /order/comment/<orderId>`. -/
  | commentForm (request : HttpRequest) (orderId : Str)
  /-- `POST /order/comment/<orderId>`. -/
  | comment (request : HttpRequest) (orderId : Str)
  /-- `POST /cart/add`. -/
  | cartAdd (request : HttpRequest)
  /-- `GET /cart/`. -/
  | cartInfo (request : HttpRequest)
  /-- `POST /cart/update`. -/
  | cartUpdate (request : HttpRequest)
  /-- `POST /cart/delete`. -/
  | cartDelete (request : HttpRequest)
  /-- `GET /index/`. -/
  | index (request : HttpRequest)
  /-- `GET /goods/<goodsId>`. -/
  | detail (request : HttpRequest) (goodsId : Str)
  /-- `GET /goods/list/<typeId>/<page>`. -/
  | list (request : HttpRequest) (typeId page : Str)
  /-- `GET /user/`. -/
  | userInfo (request : HttpRequest)
  /-- `POST /user/address`. -/
  | address (request : HttpRequest)
  /-- An administrator submits the change form of a product. -/
  | adminEdit (id : Str) (edit : GoodsSKU → GoodsSKU)

/-- The handler of a request. -/
def Request.handler : Request → Program Services Reply
  | place request skuIds => OrderPlaceView.post request skuIds
  | commit now request => OrderCommitView.post now request
  | pay request => OrderPayView.post request
  | check request => OrderCheckView.post request
  | commentForm request orderId => CommentView.get request orderId
  | comment request orderId => CommentView.post request orderId
  | cartAdd request => CartAddView.post request
  | cartInfo request => CartInfoView.get request
  | cartUpdate request => CartUpdateView.post request
  | cartDelete request => CartDeleteView.post request
  | index request => IndexView.get request
  | detail request goodsId => DetailView.get request goodsId
  | list request typeId page => ListView.get request typeId page
  | userInfo request => UserInfoView.get request
  | address request => UserAddressView.post request
  | adminEdit id edit => GoodsSKUAdmin.change id edit

/-- The authenticated user of a request; an administrator counts as none. -/
def Request.user : Request → Option ℕ
  | place request _ => request.user
  | commit _ request => request.user
  | pay request => request.user
  | check request => request.user
  | commentForm request _ => request.user
  | comment request _ => request.user
  | cartAdd request => request.user
  | cartInfo request => request.user
  | cartUpdate request => request.user
  | cartDelete request => request.user
  | index request => request.user
  | detail request _ => request.user
  | list request _ _ => request.user
  | userInfo request => request.user
  | address request => request.user
  | adminEdit _ _ => none

variable {ι : Type}

/-- The shared world when no request has started: nobody holds a lock, nothing has been browsed or
sent. -/
def World.initial (db : Db) (carts : ℕ → Cart) (gateway : ℕ → Answer) : World ι where
  db := db
  skuLock := fun _ ↦ none
  orderLock := fun _ ↦ none
  carts := carts
  histories := fun _ ↦ []
  gateway := gateway
  history := []

/-- The site about to handle the requests `request`. -/
def start (db : Db) (carts : ℕ → Cart) (gateway : ℕ → Answer) (request : ι → Request) :
    State Services ι (World ι) Session Reply where
  world := .initial db carts gateway
  loc := fun _ ↦ .idle
  prog := fun t ↦ (request t).handler

end DailyFresh
