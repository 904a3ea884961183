import DailyFresh.Site.Models
import DailyFresh.Store.Pages
import Mathlib.Data.Int.Range

/-!
# The list page

What `ListView.get` shows of the catalogue: one page of the products of a type, in the order that the
request asks for, with links to the pages around it. Django's `Paginator` asks the database twice, for the
number of rows and for the rows of a page; the rows come in an order that agrees with `ORDER BY`
(`SortedBy`), so what the view shows is a function of one such answer.
-/

namespace DailyFresh

open Python Store

/-- A product as the list page reads it. -/
structure ListedSKU where
  id : ℕ
  type : ℕ
  price : DecimalField
  sales : IntegerField
  deriving DecidableEq

/-- The products of the shop. -/
structure Catalogue where
  skus : List ListedSKU
  nodup : (skus.map (·.id)).Nodup

/-- `GoodsSKU.objects.filter(type=type)`, as a set of rows. -/
def Catalogue.ofType (catalogue : Catalogue) (typeId : ℕ) : List ListedSKU :=
  catalogue.skus.filter fun sku ↦ sku.type = typeId

/-! ### `Paginator` -/

/-- `Paginator(object_list, per_page)`, with the defaults of its other arguments. -/
structure Paginator (α : Type) where
  objectList : List α
  perPage : ℕ

namespace Paginator

variable {α : Type} (paginator : Paginator α)

/-- `num_pages`: an empty list has one page. -/
def numPages : ℕ :=
  (max 1 paginator.objectList.length + paginator.perPage - 1) / paginator.perPage

/-- `page(number)`; `none` when it raises `EmptyPage`. -/
def page (number : ℤ) : Option (List α) :=
  if 1 ≤ number ∧ number ≤ paginator.numPages then
    some (slice paginator.perPage paginator.objectList (number.toNat - 1))
  else
    none

end Paginator

/-! ### `ListView` -/

namespace ListView

/-- The orders that `ListView.get` knows. -/
inductive SortBy where
  | price
  | hot
  | default
  deriving DecidableEq

/-- The order for the parameter `sort` of a request. -/
def SortBy.ofParam (sort : Option Str) : SortBy :=
  if sort = some "price".toList then .price
  else if sort = some "hot".toList then .hot
  else .default

/-- The expression of `order_by`. -/
def SortBy.key : SortBy → ListedSKU → ℤ
  | price, sku => sku.price.val
  | hot, sku => -sku.sales.val
  | default, sku => -sku.id

/-- What the view shows. -/
structure Context where
  skusPage : List ListedSKU
  /-- `skus_page.number`. -/
  number : ℤ
  sort : SortBy
  pages : List ℤ
  deriving DecidableEq

/-- The page numbers that are linked: all of them, the first five, the last five, or those around the
current page. -/
def pages (numPages page : ℤ) : List ℤ :=
  if numPages < 5 then Int.range 1 (numPages + 1)
  else if page < 3 then Int.range 1 6
  else if numPages - page ≤ 2 then Int.range (numPages - 4) (numPages + 1)
  else Int.range (page - 2) (page + 3)

/-- The context of `list.html`, for an answer to the query for the products of the type; `none` when
`paginator.page` raises. -/
def context (skus : List ListedSKU) (sort : Option Str) (page : Str) : Option Context :=
  let paginator : Paginator ListedSKU := { objectList := skus, perPage := 1 }
  let page := (int page).getD 1
  let page := if page > paginator.numPages then 1 else page
  (paginator.page page).map fun skusPage ↦
    { skusPage, number := page, sort := .ofParam sort, pages := pages paginator.numPages page }

end ListView

end DailyFresh
