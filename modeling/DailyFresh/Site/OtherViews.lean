import DailyFresh.Site.OrderViews

/-!
# The goods app's views and the user's pages

`IndexView.get`, `DetailView.get` and `ListView.get` send what they do to the cart and to the browsing
history of the user; what they read of the catalogue to show it, and the cached home page, are left
out. `UserInfoView.get` shows the user's default address and the products last viewed.
`UserAddressView.post` looks for the default address and then adds one; the two are separate commands
outside any transaction.
-/

namespace DailyFresh

open Python Store Interleave Program

/-! ### The goods app -/

/-- The number of products in the cart, as the page header shows it. -/
def cartCount : Option ℕ → Program Services ℕ
  | none => pure 0
  | some user => ask (.hlen user)

/-- `IndexView.get`. -/
def IndexView.get (request : HttpRequest) : Program Services Reply := do
  let cartCount ← cartCount request.user
  pure (.html (.index cartCount))

namespace DetailView

/-- The product moves to the front of the user's browsing history, which is cut to five entries. -/
def remember (user : ℕ) (goodsId : Str) : Program Services Unit := do
  let _ ← ask (.lrem user goodsId)
  let _ ← ask (.lpush user goodsId)
  let _ ← ask (.ltrim user)
  pure ()

/-- `DetailView.get`; `goodsId` is the part of the path that matches `\d+`. -/
def get (request : HttpRequest) (goodsId : Str) : Program Services Reply := do
  match ← ask (.skuGet goodsId) with
  | .error .doesNotExist => pure (.redirect "goods:index")
  | .error _ => pure .error
  | .ok (n, sku) =>
    match request.user with
    | none => pure (.html (.detail n sku 0))
    | some user =>
      let cartCount ← ask (.hlen user)
      let _ ← remember user goodsId
      pure (.html (.detail n sku cartCount))

end DetailView

/-- `ListView.get`; `page` is the part of the path that matches `\d+`. Page 0 is no page of the
paginator, and an unknown type renders a template that does not exist. -/
def ListView.get (request : HttpRequest) (typeId page : Str) : Program Services Reply := do
  match ← ask (.typeGet typeId) with
  | .error _ => pure .error
  | .ok (n, type) =>
    if int page = some 0 then pure .error
    else
      let cartCount ← cartCount request.user
      pure (.html (.list n type cartCount))

/-! ### The user's page -/

namespace UserInfoView

/-- The loop `for id in sku_ids:`; `none` when it raises. The ids come from Redis as bytes, and `int` does
not read bytes that are not ASCII. -/
def showGoods : List Str → Program Services (Option (List (ℕ × GoodsSKU)))
  | [] => pure (some [])
  | id :: rest => do
    if id.all fun c ↦ c.toNat < 128 then
      match ← ask (.skuGet id) with
      | .error _ => pure none
      | .ok goods =>
        let shown ← showGoods rest
        pure (shown.map fun goodsLi ↦ goods :: goodsLi)
    else
      pure none

/-- The page with the products last viewed, for this default address. -/
def showHistory (user : ℕ) (address : Option (ℕ × Address)) : Program Services Reply := do
  let skuIds ← ask (.lrange user)
  match ← showGoods skuIds with
  | none => pure .error
  | some goodsLi => pure (.html (.userCenterInfo address goodsLi))

/-- `UserInfoView.get`. `get_default_address` answers no address for `DoesNotExist` only. -/
def get (request : HttpRequest) : Program Services Reply := do
  match request.user with
  | none => pure .login
  | some user =>
    match ← ask (.addressDefault user) with
    | .ok address => showHistory user (some address)
    | .error .doesNotExist => showHistory user none
    | .error _ => pure .error

end UserInfoView

/-! ### The address form -/

namespace UserAddressView

/-- `re.match(r'^1[3|4|5|7|8][0-9]{9}$', phone)`: `$` also matches before a final newline. -/
def phoneMatches : Str → Bool
  | '1' :: c :: rest =>
    let digits := if rest.getLast? = some '\n' then rest.dropLast else rest
    "3|4578".toList.contains c && digits.length == 9 && digits.all fun c ↦ '0' ≤ c && c ≤ '9'
  | _ => false

/-- The end of the view: the address is created, as the default one if there was none. -/
def create (address : AddressObject) : Program Services Reply := do
  match ← ask (.addressCreate address) with
  | .error _ => pure .error
  | .ok () => pure (.redirect "user:address")

/-- `UserAddressView.post`. -/
def post (request : HttpRequest) : Program Services Reply := do
  match request.user with
  | none => pure .login
  | some user =>
    match nonempty (request.POST "receiver".toList), nonempty (request.POST "addr".toList),
      nonempty (request.POST "phone".toList) with
    | some receiver, some addr, some phone =>
      if phoneMatches phone = false then pure (.html (.userCenterSite "电话号码不正确"))
      else
        let zipCode := request.POST "zip_code".toList
        match ← ask (.addressDefault user) with
        | .ok _ => create { user, receiver, addr, zipCode, phone, isDefault := false }
        | .error .doesNotExist => create { user, receiver, addr, zipCode, phone, isDefault := true }
        | .error _ => pure .error
    | _, _, _ => pure (.html (.userCenterSite "数据不完整"))

end UserAddressView

end DailyFresh
