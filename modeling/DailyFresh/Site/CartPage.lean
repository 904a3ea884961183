import DailyFresh.Interleave.Client
import DailyFresh.Site.CartViews
import DailyFresh.Site.Numbers

/-!
# The cart page

The script of `cart.html`. A row of the page has the number of its product, an input with the quantity and a
checkbox; below the rows are the select-all box and the number of checked pieces. Quantities are changed
with the plus and minus buttons or typed into the input, each with a synchronous request to `/cart/update`;
rows are deleted with an asynchronous one to `/cart/delete`.

The script's variables are global. `sku_ul` is the row that the callback of a deletion removes: the one whose
link was clicked *last*. The callback of `$.post` runs only if the request succeeds; `error_update` and
`total` have been set to `false` and `0` before, so a failed update is taken for a successful one.

The subtotals and the total price of the page are computed in floating point, and left out. So is the CSRF
token.
-/

namespace DailyFresh

open Python Store Interleave

/-! ### The page -/

/-- A row: `ul.cart_list_td`. A row that has been removed from the document keeps its index. -/
structure CartRow where
  /-- The attribute `sku_id` of the input. -/
  skuId : Str
  /-- The value of the input `.num_show`. -/
  val : Str
  checked : Bool
  attached : Bool
  deriving DecidableEq

/-- The page, with the variables of its script. -/
structure CartPage where
  rows : List CartRow
  /-- The checkbox in `.settlements`. -/
  selectAll : Bool
  /-- The number of checked pieces: the `b` in `.settlements`. -/
  pieces : Str
  /-- The number of all pieces: the `em` in `.total_count`. -/
  header : Str
  /-- The row whose input has the focus. -/
  focus : Option ℕ
  /-- `old_count`. -/
  oldCount : Str
  /-- `sku_ul`. -/
  skuUl : Option ℕ
  deriving DecidableEq

/-- What the user does. -/
inductive CartEvent where
  /-- The select-all box is clicked. -/
  | selectAll
  /-- The box of a row is clicked. -/
  | check (i : ℕ)
  | add (i : ℕ)
  | minus (i : ℕ)
  | focus (i : ℕ)
  | type (i : ℕ) (text : Str)
  | blur (i : ℕ)
  /-- The link 删除 of a row is clicked. -/
  | delete (i : ℕ)
  deriving DecidableEq

/-- What the page posts. -/
inductive Ajax where
  | update (skuId count : Str)
  | delete (skuId : Str)
  deriving DecidableEq

/-- The callbacks, with what they have closed over: `updated` is what follows the synchronous update of a row
in the handlers of the buttons or, if the quantity was typed, of `blur`. The callback of a deletion does not
know its row; statements do. -/
inductive Callback (Num : Type) where
  | updated (i : ℕ) (count : Num) (typed : Bool)
  | deleted (i : ℕ)

/-- The row that the request is about. -/
def Callback.row {Num : Type} : Callback Num → ℕ
  | updated i _ _ => i
  | deleted i => i

/-- `$.ajaxSettings.async = false`. -/
def Callback.sync {Num : Type} : Callback Num → Bool
  | updated .. => true
  | deleted _ => false

/-- `data.total_count`. -/
def Reply.totalCount : Reply → ℤ
  | .json fields =>
    match fields.lookup "total_count" with
    | some (.int n) => n
    | _ => 0
  | _ => 0

/-- A row as the server renders it. -/
def CartRow.render (sku : ShownSKU) : CartRow where
  skuId := str sku.id
  val := intStr sku.count
  checked := true
  attached := true

namespace CartPage

/-- `cart.html` as the server renders it. -/
def render (skus : List ShownSKU) (totalCount : ℤ) : CartPage where
  rows := skus.map CartRow.render
  selectAll := true
  pieces := intStr totalCount
  header := intStr totalCount
  focus := none
  oldCount := []
  skuUl := none

variable (N : Numbers) (page : CartPage)

/-- The rows of the document that are checked. -/
def checkedRows : List CartRow := page.rows.filter fun row ↦ row.attached && row.checked

/-- The row of an input, a box, a button or a link that the user can reach. -/
def row? (i : ℕ) : Option CartRow := page.rows[i]?.filter CartRow.attached

/-- The row of something that is clicked. A click takes the focus from an input first, so no input has it. -/
def clicked (i : ℕ) : Option CartRow := if page.focus = none then page.row? i else none

/-- Change a row. -/
def modify (i : ℕ) (f : CartRow → CartRow) : CartPage := { page with rows := page.rows.modify i f }

/-- `total_count` in `update_page_info`. What `parents` finds comes in reverse order. -/
def totalCount : N.Num :=
  page.checkedRows.reverse.foldl (fun totalCount row ↦ N.add totalCount (N.parseInt row.val)) (N.ofInt 0)

/-- `update_page_info`. -/
def updatePageInfo : CartPage := { page with pieces := N.text (page.totalCount N) }

/-- The inputs that `blur` refuses. -/
def illegal (count : Str) : Bool :=
  N.isNaN count || count.all isJsSpace || N.nonpos (N.parseInt count)

/-- The handlers of the script. -/
def act : CartEvent → Option (CartPage × Option (Ajax × Callback N.Num))
  | .selectAll =>
    if page.focus = none then
      let isChecked := !page.selectAll
      let rows := page.rows.map fun row ↦ if row.attached then { row with checked := isChecked } else row
      some (updatePageInfo N { page with selectAll := isChecked, rows }, none)
    else none
  | .check i =>
    (page.clicked i).map fun _ ↦
      let page := page.modify i fun row ↦ { row with checked := !row.checked }
      let allLen := (page.rows.filter CartRow.attached).length
      let checkedLen := page.checkedRows.length
      (updatePageInfo N { page with selectAll := !decide (checkedLen < allLen) }, none)
  | .add i =>
    (page.clicked i).map fun row ↦
      let count := N.add (N.parseInt row.val) (N.ofInt 1)
      (page, some (.update row.skuId (N.text count), .updated i count false))
  | .minus i =>
    (page.clicked i).map fun row ↦
      let count := N.sub (N.parseInt row.val) (N.ofInt 1)
      if N.nonpos count then (page, none)
      else (page, some (.update row.skuId (N.text count), .updated i count false))
  | .focus i =>
    (page.clicked i).map fun row ↦ ({ page with focus := some i, oldCount := row.val }, none)
  | .type i text =>
    if page.focus = some i then some (page.modify i fun row ↦ { row with val := text }, none) else none
  | .blur i =>
    if page.focus = some i then
      (page.row? i).map fun row ↦
        let page := { page with focus := none }
        if illegal N row.val then (page.modify i fun row ↦ { row with val := page.oldCount }, none)
        else
          let count := N.parseInt row.val
          (page, some (.update row.skuId (N.text count), .updated i count true))
    else none
  | .delete i =>
    (page.clicked i).map fun row ↦
      ({ page with skuUl := some i }, some (.delete row.skuId, .deleted i))

/-- `error_update` and `total` after the answer to an update. -/
def updateResult : Reply → Bool × ℤ
  | .error => (false, 0)
  | reply => if reply.res = some 5 then (false, reply.totalCount) else (true, 0)

/-- The row `sku_ul` leaves the document. -/
def removeSkuUl (totalCount : ℤ) : CartPage :=
  match page.skuUl with
  | none => page
  | some i =>
    match page.rows[i]? with
    | none => page
    | some row =>
      let page := page.modify i fun row ↦ { row with attached := false }
      let page := { page with focus := if page.focus = some i then none else page.focus }
      let page := if row.checked then updatePageInfo N page else page
      { page with header := N.text (N.ofInt totalCount) }

/-- The callbacks of the script. -/
def callback : Callback N.Num → Reply → CartPage
  | .updated i count typed, reply =>
    match updateResult reply with
    | (false, total) =>
      let page := page.modify i fun row ↦ { row with val := N.text count }
      if (page.rows[i]?.map CartRow.checked).getD false then
        { updatePageInfo N page with header := N.text (N.ofInt total) }
      else page
    | (true, _) => if typed then page.modify i fun row ↦ { row with val := page.oldCount } else page
  | .deleted _, .error => page
  | .deleted _, reply => if reply.res = some 3 then removeSkuUl N page reply.totalCount else page

end CartPage

/-- The script of the cart page. -/
def cartScript (N : Numbers) : Script CartPage CartEvent Ajax (Callback N.Num) Reply where
  act := CartPage.act N
  callback := CartPage.callback N
  sync := Callback.sync

/-! ### The page and the site -/

/-- The form of an update. -/
def Ajax.form : Ajax → Str → Option Str
  | update skuId count => fun key ↦
    if key = "count".toList then some count else if key = "sku_id".toList then some skuId else none
  | delete skuId => fun key ↦ if key = "sku_id".toList then some skuId else none

/-- A request of the page of this user. -/
def Ajax.request (user : ℕ) : Ajax → Request
  | update skuId count => .cartUpdate { user := some user, POST := (update skuId count).form }
  | delete skuId => .cartDelete { user := some user, POST := (delete skuId).form }

/-- The requests of the page, and the others. -/
def besides {ι : Type} (user : ℕ) (posts : ℕ → Ajax) (others : ι → Request) : ℕ ⊕ ι → Request :=
  Sum.elim (fun n ↦ (posts n).request user) others

/-- The cart page together with the site. -/
abbrev CartVisit (N : Numbers) (ι : Type) : Type :=
  Visit Services ι (World (ℕ ⊕ ι)) Session Reply CartPage (Callback N.Num)

/-- The page has just been loaded. -/
def CartVisit.opened {N : Numbers} {ι : Type} (site : State Services (ℕ ⊕ ι) (World (ℕ ⊕ ι)) Session Reply)
    (skus : List ShownSKU) (totalCount : ℤ) : CartVisit N ι where
  site := site
  page := .render skus totalCount
  posted := 0
  waiting := []

end DailyFresh
