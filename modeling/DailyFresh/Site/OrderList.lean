import DailyFresh.Site.Listing

/-!
# The list of a user's orders

What `UserOrderView.get` shows a user who is logged in: one page of the orders, each with its lines, with
links to the pages around it. As for `ListView`, what the view shows is a function of the answers of the
database: the user's orders, and the lines of each order.

The routes of both views take the number of the page from the URL by `(?P<page>\d+)` (`PageSegment`).
-/

namespace DailyFresh

open Python

/-- What `\d+` matches: decimal digits, of any script. -/
structure PageSegment where
  text : Str
  ne_nil : text ≠ []
  digits : ∀ c ∈ text, (digitValue c).isSome = true

/-- `OrderInfo.ORDER_STATUS`. -/
def ORDER_STATUS : OrderStatus → String
  | .toPay => "待支付"
  | .toShip => "待发货"
  | .toReceive => "待收货"
  | .toReview => "待评价"
  | .finished => "已完成"

namespace UserOrderView

/-- An order, with what the view has put into it: the lines with their amounts, and the name of its
status. -/
structure ShownOrder where
  order : OrderObject
  orderSkus : List (OrderGoods × ℤ)
  statusName : String
  deriving DecidableEq

/-- What the view shows. -/
structure Context where
  orderPage : List ShownOrder
  /-- `order_page.number`. -/
  number : ℤ
  pages : List ℤ
  deriving DecidableEq

/-- One round of the loop over the orders; `lines` answers
`OrderGoods.objects.filter(order_id=order.order_id)`. -/
def showOrder (lines : Str → List OrderGoods) (order : OrderObject) : ShownOrder where
  order := order
  orderSkus := (lines order.orderId).map fun line ↦ (line, line.count.val * line.price.val)
  statusName := ORDER_STATUS order.orderStatus

/-- The context of `user_center_order.html`, for an answer to the query for the user's orders; `none` when
`paginator.page` raises. The links are chosen as in `ListView`. -/
def context (orders : List OrderObject) (lines : Str → List OrderGoods) (page : Str) : Option Context :=
  let paginator : Paginator ShownOrder := { objectList := orders.map (showOrder lines), perPage := 1 }
  let page := (int page).getD 1
  let page := if page > paginator.numPages then 1 else page
  (paginator.page page).map fun orderPage ↦
    { orderPage, number := page, pages := ListView.pages paginator.numPages page }

end UserOrderView

end DailyFresh
