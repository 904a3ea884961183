import DailyFresh.Python.Text
import DailyFresh.Store.Column
import Mathlib.Data.List.AList

/-!
# The rows of the shop

The models of the goods, user and order apps, with the columns that the cart and order views read or
write. A stored row is built from column values that fit, so no row of a table violates its column
types. Money is a `DECIMAL(10, 2)`: an integer number of hundredths.

A view also handles an `OrderInfo` *object*, which lives in memory, is filled before it is saved and
may hold what the table refuses: `OrderObject`, with `OrderObject.row?` for the attempt to store it.

A shopping cart is a Redis hash from fields to counts. The fields are the strings that clients sent,
not numbers.
-/

namespace DailyFresh

open Python Store

/-- `models.IntegerField`. -/
abbrev IntegerField := Column (-2147483648) 2147483647

/-- `models.DecimalField(max_digits=10, decimal_places=2)`, in hundredths. -/
abbrev DecimalField := Column (-9999999999) 9999999999

/-- `models.CharField(max_length=n)`. -/
abbrev CharField (n : ℕ) := TextColumn Char n

/-- A product. -/
structure GoodsSKU where
  price : DecimalField
  stock : IntegerField
  sales : IntegerField
  deriving DecidableEq

/-- A kind of products. -/
structure GoodsType where
  name : CharField 20
  deriving DecidableEq

/-- A delivery address. -/
structure Address where
  user : ℕ
  receiver : CharField 20
  addr : CharField 256
  zipCode : Option (CharField 6)
  phone : CharField 11
  isDefault : Bool
  deriving DecidableEq

/-- An address, before the database has accepted it. -/
structure AddressObject where
  user : ℕ
  receiver : Str
  addr : Str
  zipCode : Option Str
  phone : Str
  isDefault : Bool
  deriving DecidableEq

/-- The row that stores a new address. -/
def AddressObject.row? (o : AddressObject) : Option Address := do
  let receiver ← TextColumn.store? 20 o.receiver
  let addr ← TextColumn.store? 256 o.addr
  let phone ← TextColumn.store? 11 o.phone
  match o.zipCode with
  | none => some { user := o.user, receiver, addr, zipCode := none, phone, isDefault := o.isDefault }
  | some zipCode =>
    let zipCode ← TextColumn.store? 6 zipCode
    some { user := o.user, receiver, addr, zipCode := some zipCode, phone, isDefault := o.isDefault }

theorem AddressObject.row?_user {o : AddressObject} {row : Address} (h : o.row? = some row) :
    row.user = o.user ∧ row.isDefault = o.isDefault := by
  simp only [row?, Option.bind_eq_bind, Option.bind_eq_some_iff] at h
  obtain ⟨receiver, -, addr, -, phone, -, h⟩ := h
  split at h
  · cases h
    exact ⟨rfl, rfl⟩
  · simp only [Option.bind_eq_some_iff] at h
    obtain ⟨zipCode, -, h⟩ := h
    cases h
    exact ⟨rfl, rfl⟩

/-- How an order is paid. -/
inductive PayMethod where
  /-- Cash on delivery. -/
  | cash
  | weixin
  | alipay
  | unionPay
  deriving DecidableEq, Repr

/-- The keys of `OrderInfo.PAY_METHODS`. -/
def PAY_METHODS : List (Str × PayMethod) :=
  [("1".toList, .cash), ("2".toList, .weixin), ("3".toList, .alipay), ("4".toList, .unionPay)]

/-- Where an order stands. -/
inductive OrderStatus where
  | toPay
  | toShip
  | toReceive
  | toReview
  | finished
  deriving DecidableEq, Repr

/-- The number stored for a status. -/
def OrderStatus.code : OrderStatus → ℕ
  | toPay => 1
  | toShip => 2
  | toReceive => 3
  | toReview => 4
  | finished => 5

/-- An order, without its primary key. -/
structure OrderInfo where
  user : ℕ
  addr : ℕ
  payMethod : PayMethod
  totalCount : IntegerField
  totalPrice : DecimalField
  transitPrice : DecimalField
  orderStatus : OrderStatus
  tradeNo : CharField 128
  deriving DecidableEq

/-- A line of an order. -/
structure OrderGoods where
  order : Str
  sku : ℕ
  count : IntegerField
  price : DecimalField
  comment : CharField 156
  deriving DecidableEq

/-- An `OrderInfo` object in memory. -/
structure OrderObject where
  orderId : Str
  user : ℕ
  addr : ℕ
  payMethod : PayMethod
  totalCount : ℤ
  totalPrice : ℤ
  transitPrice : ℤ
  orderStatus : OrderStatus
  tradeNo : Option Str
  deriving DecidableEq

/-- The row that stores an order object, if every column accepts its value; `trade_no` is not
nullable. -/
def OrderObject.row? (o : OrderObject) : Option OrderInfo := do
  if o.orderId.length ≤ 128 then
    let totalCount ← Column.store? _ _ o.totalCount
    let totalPrice ← Column.store? _ _ o.totalPrice
    let transitPrice ← Column.store? _ _ o.transitPrice
    let tradeNo ← o.tradeNo
    let tradeNo ← TextColumn.store? _ tradeNo
    some { user := o.user, addr := o.addr, payMethod := o.payMethod, totalCount, totalPrice,
           transitPrice, orderStatus := o.orderStatus, tradeNo }
  else
    none

/-- The object that loading a row gives. -/
def OrderInfo.object (orderId : Str) (row : OrderInfo) : OrderObject where
  orderId := orderId
  user := row.user
  addr := row.addr
  payMethod := row.payMethod
  totalCount := row.totalCount
  totalPrice := row.totalPrice
  transitPrice := row.transitPrice
  orderStatus := row.orderStatus
  tradeNo := some row.tradeNo

/-- **What storing an order object does**: the row holds the values of the object. -/
theorem OrderObject.row?_eq_some_iff {o : OrderObject} {row : OrderInfo} :
    o.row? = some row ↔ o.orderId.length ≤ 128 ∧ row.object o.orderId = o := by
  obtain ⟨orderId, user, addr, payMethod, totalCount, totalPrice, transitPrice, orderStatus,
    tradeNo⟩ := o
  obtain ⟨user', addr', payMethod', totalCount', totalPrice', transitPrice', orderStatus',
    tradeNo'⟩ := row
  unfold row? OrderInfo.object
  by_cases hlen : orderId.length ≤ 128
  · simp only [hlen, if_true, true_and, Option.bind_eq_bind, Option.bind_eq_some_iff,
      Column.store?_eq_some_iff, TextColumn.store?_eq_some_iff, Option.some.injEq,
      OrderInfo.mk.injEq, OrderObject.mk.injEq]
    constructor
    · rintro ⟨c, hc, p, hp, t, ht, n, rfl, m, hm, rfl, rfl, rfl, rfl, rfl, rfl, rfl, rfl⟩
      exact ⟨rfl, rfl, rfl, hc, hp, ht, rfl, congrArg some hm⟩
    · rintro ⟨rfl, rfl, rfl, hc, hp, ht, rfl, hn⟩
      exact ⟨_, hc, _, hp, _, ht, _, hn.symm, _, rfl, rfl, rfl, rfl, rfl, rfl, rfl, rfl, rfl⟩
  · simp [hlen]

/-- Reading back what was stored: another status and payment number are all that differs. -/
theorem OrderInfo.eq_of_object_eq {row new : OrderInfo} {orderId : Str} {tradeNo : Option Str}
    {orderStatus : OrderStatus}
    (h : new.object orderId = { row.object orderId with tradeNo, orderStatus }) :
    new = { row with orderStatus, tradeNo := new.tradeNo } ∧ tradeNo = some new.tradeNo.val := by
  obtain ⟨user, addr, payMethod, totalCount, totalPrice, transitPrice, status, tradeNo'⟩ := new
  simp only [object, OrderObject.mk.injEq, true_and] at h
  obtain ⟨rfl, rfl, rfl, hcount, hprice, htransit, rfl, htrade⟩ := h
  refine ⟨?_, htrade.symm⟩
  rw [Subtype.ext hcount, Subtype.ext hprice, Subtype.ext htransit]

/-- A line, before the database has accepted it. -/
structure LineObject where
  order : Str
  sku : ℕ
  count : ℤ
  price : DecimalField
  deriving DecidableEq

/-- The row that stores a new line; `comment` takes its default, the empty text. -/
def LineObject.row? (o : LineObject) : Option OrderGoods := do
  let count ← Column.store? _ _ o.count
  some { order := o.order, sku := o.sku, count, price := o.price, comment := .empty }

theorem LineObject.row?_eq_some_iff {o : LineObject} {row : OrderGoods} :
    o.row? = some row ↔ row.order = o.order ∧ row.sku = o.sku ∧ row.count.val = o.count ∧
      row.price = o.price ∧ row.comment.val = [] := by
  obtain ⟨order, sku, count, price, comment⟩ := row
  simp only [row?, Option.bind_eq_bind, Option.bind_eq_some_iff, Column.store?_eq_some_iff,
    Option.some.injEq, OrderGoods.mk.injEq, Subtype.ext_iff]
  constructor
  · rintro ⟨c, hc, rfl, rfl, hcount, hprice, hcomment⟩
    exact ⟨rfl, rfl, hcount ▸ hc, hprice.symm, hcomment.symm⟩
  · rintro ⟨rfl, rfl, hc, hprice, hcomment⟩
    exact ⟨count, hc, rfl, rfl, rfl, hprice.symm, hcomment.symm⟩

/-- The Redis hash `cart_<user id>`: a count for each field. -/
abbrev Cart := AList fun _ : Str ↦ ℤ

/-! ### Replies -/

/-- A value in a JSON reply. -/
inductive Json where
  | int (n : ℤ)
  | str (s : String)
  /-- The gateway's URL with the order string of `api_alipay_trade_page_pay` for these
  arguments. -/
  | payUrl (outTradeNo totalAmount subject : Str)
  deriving DecidableEq

/-- A product on a page, with the count and the amount that the view has put into it. -/
structure ShownSKU where
  id : ℕ
  sku : GoodsSKU
  count : ℤ
  amount : ℤ
  deriving DecidableEq

/-- A page and the context it is rendered with, as far as this development reads it. -/
inductive Page where
  /-- `place_order.html`. -/
  | placeOrder (skus : List ShownSKU) (totalCount totalPrice transitPrice totalPay : ℤ)
      (addrs : List (ℕ × Address)) (skuIds : Str)
  /-- `order_comment.html`: the order with its lines. -/
  | orderComment (order : OrderObject) (orderSkus : List OrderGoods)
  /-- `cart.html`. -/
  | cart (skus : List ShownSKU) (totalCount totalPrice : ℤ)
  /-- `user_center_site.html` with an error message. -/
  | userCenterSite (errmsg : String)
  /-- `user_center_info.html`: the default address and the products last viewed. -/
  | userCenterInfo (address : Option (ℕ × Address)) (goods : List (ℕ × GoodsSKU))
  /-- `index.html`, without the products it shows. -/
  | index (cartCount : ℕ)
  /-- `detail.html`, without the reviews and the other products it shows. -/
  | detail (id : ℕ) (sku : GoodsSKU) (cartCount : ℕ)
  /-- `list.html`, without the products it shows. -/
  | list (id : ℕ) (type : GoodsType) (cartCount : ℕ)
  deriving DecidableEq

/-- What a request is answered. -/
inductive Reply where
  /-- `JsonResponse`. -/
  | json (fields : List (String × Json))
  /-- `render`. -/
  | html (page : Page)
  /-- `redirect` to the view with this name. -/
  | redirect (name : String)
  /-- `redirect(reverse('user:order', kwargs={'page': page}))`. -/
  | userOrder (page : ℕ)
  /-- A page of the admin site. -/
  | admin
  /-- An exception left the view: status 500. -/
  | error
  deriving DecidableEq

/-- The field `res` of a JSON reply. -/
def Reply.res : Reply → Option ℤ
  | json fields =>
    match fields.lookup "res" with
    | some (.int n) => some n
    | _ => none
  | html _ => none
  | redirect _ => none
  | userOrder _ => none
  | admin => none
  | error => none

/-- The `out_trade_no` and the `total_amount` that a pay URL in a JSON reply asks for. -/
def Reply.payment : Reply → Option (Str × Str)
  | json fields =>
    match fields.lookup "pay_url" with
    | some (.payUrl outTradeNo totalAmount _) => some (outTradeNo, totalAmount)
    | _ => none
  | html _ => none
  | redirect _ => none
  | userOrder _ => none
  | admin => none
  | error => none

/-- `JsonResponse({'res': res, 'errmsg': errmsg})`. -/
def Reply.errmsg (res : ℤ) (errmsg : String) : Reply :=
  .json [("res", .int res), ("errmsg", .str errmsg)]

/-- `JsonResponse({'res': res, 'message': message})`. -/
def Reply.message (res : ℤ) (message : String) : Reply :=
  .json [("res", .int res), ("message", .str message)]

@[simp] theorem Reply.res_errmsg (res : ℤ) (text : String) :
    (Reply.errmsg res text).res = some res := rfl

@[simp] theorem Reply.res_message (res : ℤ) (text : String) :
    (Reply.message res text).res = some res := rfl

@[simp] theorem Reply.res_error : Reply.error.res = none := rfl

@[simp] theorem Reply.res_admin : Reply.admin.res = none := rfl

@[simp] theorem Reply.res_userOrder (page : ℕ) : (Reply.userOrder page).res = none := rfl

/-! ### The clock -/

/-- A local time, as `datetime.now()` gives it. -/
structure LocalTime where
  year : ℕ
  month : ℕ
  day : ℕ
  hour : ℕ
  minute : ℕ
  second : ℕ
  year_mem : 1 ≤ year ∧ year ≤ 9999
  month_mem : 1 ≤ month ∧ month ≤ 12
  day_mem : 1 ≤ day ∧ day ≤ 31
  hour_lt : hour < 24
  minute_lt : minute < 60
  second_lt : second < 60

/-- `strftime('%Y%m%d%H%M%S')`. -/
def LocalTime.strftime (now : LocalTime) : Str :=
  str now.year ++ pad2 now.month ++ pad2 now.day ++ pad2 now.hour ++ pad2 now.minute ++
    pad2 now.second

end DailyFresh
