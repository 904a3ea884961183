import DailyFresh.Interleave.Snapshot
import DailyFresh.Python.Text
import Mathlib.Data.List.Sort

/-!
# The home page and its copies

The home page shows the goods types with their banners, and there are two copies of what it shows.
`IndexView` keeps the data that it has read from the database in the cache, under `index_page_data`. A
worker that runs the task `generate_static_index_html` writes `static/index.html`. The admin classes of the
goods app queue the task and delete the cached data when a row is saved.

This module has the rows as far as the home page shows them, the commands of the programs, and the
programs: the views of the admin site, `IndexView.get` and the task.

*Database.* Queries outside transactions read what is committed. The rows of a table come in the order of
their primary keys. An administrator's request runs in a transaction that is committed after `save_model`
has returned; its write is seen by others from then on. What a column or a constraint refuses raises before
any hook and is left out.

*Lazy queries.* A queryset is read when it is first used. In `IndexView.get` that is the loop over the types
for the types, and for all others the moment when `cache.set` pickles the context: the banners of the types
first, as they hang on the types. The task uses them where the template does, and a banner's product is
one more query.

*Left out.* What `IndexView.get` shows from its data, together with the cart count, and all replies.
-/

namespace DailyFresh.HomePage

open Python Interleave Program

/-! ### The database -/

structure GoodsType where
  id : ℕ
  name : Str
  logo : Str
  image : Str
  deriving DecidableEq

/-- A product, as far as the home page shows it. -/
structure GoodsSKU where
  id : ℕ
  type : ℕ
  name : Str
  image : Str
  price : ℤ
  deriving DecidableEq

structure IndexGoodsBanner where
  id : ℕ
  sku : ℕ
  image : Str
  index : ℤ
  deriving DecidableEq

/-- A product in a type's part of the page: as a title (`displayType = 0`) or with its image (1). -/
structure IndexTypeBanner where
  id : ℕ
  type : ℕ
  sku : ℕ
  displayType : ℤ
  index : ℤ
  deriving DecidableEq

structure IndexPromotionBanner where
  id : ℕ
  name : Str
  url : Str
  image : Str
  index : ℤ
  deriving DecidableEq

/-- The tables that the home page shows. -/
structure Db where
  types : List GoodsType
  skus : List GoodsSKU
  goodsBanners : List IndexGoodsBanner
  typeBanners : List IndexTypeBanner
  promotionBanners : List IndexPromotionBanner

/-- A row of one of the models that are registered with the admin site. -/
inductive Row where
  | goodsType (row : GoodsType)
  | goodsSKU (row : GoodsSKU)
  | indexGoodsBanner (row : IndexGoodsBanner)
  | indexTypeBanner (row : IndexTypeBanner)
  | indexPromotionBanner (row : IndexPromotionBanner)

/-- Rows of one of these models, by their ids, selected for deletion. -/
inductive Selected where
  | goodsTypes (ids : List ℕ)
  | goodsSKUs (ids : List ℕ)
  | indexGoodsBanners (ids : List ℕ)
  | indexTypeBanners (ids : List ℕ)
  | indexPromotionBanners (ids : List ℕ)

/-- `obj.save()`: the row with this id is replaced, or a new one is added. -/
def saveRow {R : Type} (id : R → ℕ) (row : R) (rows : List R) : List R :=
  if rows.any fun r ↦ id r = id row then rows.map fun r ↦ if id r = id row then row else r
  else rows ++ [row]

/-- `order_by('index')`. -/
def orderByIndex {R : Type} (index : R → ℤ) (rows : List R) : List R :=
  rows.insertionSort fun a b ↦ index a ≤ index b

namespace Db

/-- A row is saved. -/
def save (db : Db) : Row → Db
  | .goodsType row => { db with types := saveRow GoodsType.id row db.types }
  | .goodsSKU row => { db with skus := saveRow GoodsSKU.id row db.skus }
  | .indexGoodsBanner row =>
    { db with goodsBanners := saveRow IndexGoodsBanner.id row db.goodsBanners }
  | .indexTypeBanner row => { db with typeBanners := saveRow IndexTypeBanner.id row db.typeBanners }
  | .indexPromotionBanner row =>
    { db with promotionBanners := saveRow IndexPromotionBanner.id row db.promotionBanners }

/-- Products are deleted, and the banners that show them. -/
def deleteSKUs (db : Db) (gone : GoodsSKU → Bool) : Db :=
  let ids := (db.skus.filter gone).map GoodsSKU.id
  { db with skus := db.skus.filter fun sku ↦ !gone sku
            goodsBanners := db.goodsBanners.filter fun banner ↦ banner.sku ∉ ids
            typeBanners := db.typeBanners.filter fun banner ↦ banner.sku ∉ ids }

/-- `queryset.delete()`, with what it cascades to. -/
def delete (db : Db) : Selected → Db
  | .goodsTypes ids =>
    let db := db.deleteSKUs fun sku ↦ sku.type ∈ ids
    { db with types := db.types.filter fun type ↦ type.id ∉ ids
              typeBanners := db.typeBanners.filter fun banner ↦ banner.type ∉ ids }
  | .goodsSKUs ids => db.deleteSKUs fun sku ↦ sku.id ∈ ids
  | .indexGoodsBanners ids =>
    { db with goodsBanners := db.goodsBanners.filter fun banner ↦ banner.id ∉ ids }
  | .indexTypeBanners ids =>
    { db with typeBanners := db.typeBanners.filter fun banner ↦ banner.id ∉ ids }
  | .indexPromotionBanners ids =>
    { db with promotionBanners := db.promotionBanners.filter fun banner ↦ banner.id ∉ ids }

/-- `IndexGoodsBanner.objects.all().order_by('index')`. -/
def indexGoodsBanners (db : Db) : List IndexGoodsBanner :=
  orderByIndex IndexGoodsBanner.index db.goodsBanners

/-- `IndexPromotionBanner.objects.all().order_by('index')`. -/
def indexPromotionBanners (db : Db) : List IndexPromotionBanner :=
  orderByIndex IndexPromotionBanner.index db.promotionBanners

/-- `IndexTypeBanner.objects.filter(type=type, display_type=displayType).order_by('index')`. -/
def indexTypeBanners (db : Db) (type : ℕ) (displayType : ℤ) : List IndexTypeBanner :=
  orderByIndex IndexTypeBanner.index
    (db.typeBanners.filter fun banner ↦ banner.type = type && banner.displayType = displayType)

/-- `banner.sku`; `none` when it does not exist. -/
def sku (db : Db) (id : ℕ) : Option GoodsSKU := db.skus.find? fun sku ↦ sku.id = id

end Db

/-! ### The copies -/

/-- A type in the cached data, with its banners. -/
structure TypeWithBanners where
  type : GoodsType
  imageBanner : List IndexTypeBanner
  titleBanner : List IndexTypeBanner
  deriving DecidableEq

/-- The data under `index_page_data`. -/
structure Context where
  types : List TypeWithBanners
  goodsBanners : List IndexGoodsBanner
  promotionBanners : List IndexPromotionBanner
  deriving DecidableEq

/-- A product with its image, as the static page shows it. -/
structure GoodsItem where
  name : Str
  image : Str
  price : ℤ
  deriving DecidableEq

/-- The part of the static page that shows one type. -/
structure ListModel where
  name : Str
  image : Str
  titles : List (Option Str)
  goods : List (Option GoodsItem)
  deriving DecidableEq

/-- What `static_index.html` shows: the menu of the types, the images of the slides, the links and images of
the promotions, and a part for each type. The template shows nothing for a product that does not exist. -/
structure StaticIndex where
  menu : List (Str × Str)
  slides : List Str
  adverts : List (Str × Str)
  models : List ListModel
  deriving DecidableEq

/-- `{{ banner.sku.name }}` and what stands beside it. -/
def GoodsSKU.item (sku : GoodsSKU) : GoodsItem where
  name := sku.name
  image := sku.image
  price := sku.price

/-- A type's part of the page, with the products of its banners. -/
def GoodsType.listModel (type : GoodsType) (titles images : List (Option GoodsSKU)) : ListModel where
  name := type.name
  image := type.image
  titles := titles.map fun sku ↦ sku.map GoodsSKU.name
  goods := images.map fun sku ↦ sku.map GoodsSKU.item

/-- The page with these rows. -/
def staticIndex (types : List GoodsType) (goodsBanners : List IndexGoodsBanner)
    (promotionBanners : List IndexPromotionBanner) (models : List ListModel) : StaticIndex where
  menu := types.map fun type ↦ (type.logo, type.name)
  slides := goodsBanners.map IndexGoodsBanner.image
  adverts := promotionBanners.map fun banner ↦ (banner.url, banner.image)
  models := models

namespace Db

/-- The data that the database yields for the cache. -/
def context (db : Db) : Context where
  types := db.types.map fun type ↦
    { type, imageBanner := db.indexTypeBanners type.id 1, titleBanner := db.indexTypeBanners type.id 0 }
  goodsBanners := db.indexGoodsBanners
  promotionBanners := db.indexPromotionBanners

/-- The static page that the database yields. -/
def staticIndex (db : Db) : StaticIndex :=
  HomePage.staticIndex db.types db.indexGoodsBanners db.indexPromotionBanners
    (db.types.map fun type ↦ type.listModel
      ((db.indexTypeBanners type.id 0).map fun banner ↦ db.sku banner.sku)
      ((db.indexTypeBanners type.id 1).map fun banner ↦ db.sku banner.sku))

end Db

/-! ### Commands -/

/-- The commands of the programs. -/
inductive Cmd where
  /-- `with transaction.atomic():` begins. -/
  | atomicEnter
  /-- The block is left without an exception. -/
  | commit
  /-- The block is left by an exception. -/
  | rollback
  /-- `super().save_model(request, obj, form, change)`. -/
  | save (row : Row)
  /-- `queryset.delete()`, in a transaction of its own. -/
  | deleteQueryset (selected : Selected)
  /-- `generate_static_index_html.delay()`. -/
  | delay
  /-- `cache.delete('index_page_data')`, and what the cache does when the timeout is over. -/
  | cacheDelete
  /-- `cache.get('index_page_data')`. -/
  | cacheGet
  /-- `cache.set('index_page_data', context, timeout=3600)`. -/
  | cacheSet (context : Context)
  /-- A worker takes a task from the queue; it waits while there is none. -/
  | takeTask
  /-- The page is written to `static/index.html`. -/
  | writeFile (page : StaticIndex)
  /-- `GoodsType.objects.all()`. -/
  | goodsTypes
  /-- `IndexGoodsBanner.objects.all().order_by('index')`. -/
  | indexGoodsBanners
  /-- `IndexPromotionBanner.objects.all().order_by('index')`. -/
  | indexPromotionBanners
  /-- `IndexTypeBanner.objects.filter(type=type, display_type=displayType).order_by('index')`. -/
  | indexTypeBanners (type : ℕ) (displayType : ℤ)
  /-- `banner.sku`. -/
  | sku (id : ℕ)

/-- The answers to each command. -/
@[reducible] def Cmd.Resp : Cmd → Type
  | atomicEnter | commit | rollback | save _ | deleteQueryset _ | delay => Unit
  | cacheDelete | cacheSet _ | takeTask | writeFile _ => Unit
  | cacheGet => Option Context
  | goodsTypes => List GoodsType
  | indexGoodsBanners => List IndexGoodsBanner
  | indexPromotionBanners => List IndexPromotionBanner
  | indexTypeBanners _ _ => List IndexTypeBanner
  | sku _ => Option GoodsSKU

/-- The signature of the programs. -/
abbrev Services : Signature where
  Cmd := Cmd
  Resp := Cmd.Resp

/-- Send a command. -/
abbrev ask (c : Services.Cmd) : Program Services (Services.Resp c) := Program.send c

/-! ### Programs -/

namespace BaseModelAdmin

/-- `BaseModelAdmin.save_model`. -/
def saveModel (obj : Row) : Program Services Unit := do
  let _ ← ask (.save obj)
  let _ ← ask .delay
  let _ ← ask .cacheDelete
  pure ()

/-- `BaseModelAdmin.delete_model`; `none` when it raises. `super().delete_model(self, request, obj)` passes
one argument too many, so that it raises a `TypeError`, before the hooks. -/
def deleteModel (_ : Row) : Program Services (Option Unit) := pure none

end BaseModelAdmin

/-- An administrator submits the form of a row. -/
def changeformView (obj : Row) : Program Services Unit := do
  let _ ← ask .atomicEnter
  BaseModelAdmin.saveModel obj
  let _ ← ask .commit
  pure ()

/-- An administrator deletes a row from its own page. -/
def deleteView (obj : Row) : Program Services Unit := do
  let _ ← ask .atomicEnter
  match ← BaseModelAdmin.deleteModel obj with
  | some () =>
    let _ ← ask .commit
    pure ()
  | none =>
    let _ ← ask .rollback
    pure ()

/-- An administrator deletes the selected rows: `delete_queryset`, which no admin class overrides. -/
def deleteSelected (selected : Selected) : Program Services Unit := do
  let _ ← ask (.deleteQueryset selected)
  pure ()

namespace IndexView

/-- The banners of the types. -/
def banners : List GoodsType → Program Services (List TypeWithBanners)
  | [] => pure []
  | type :: rest => do
    let imageBanner ← ask (.indexTypeBanners type.id 1)
    let titleBanner ← ask (.indexTypeBanners type.id 0)
    let shown ← banners rest
    pure ({ type, imageBanner, titleBanner } :: shown)

/-- `if context is None:`. -/
def setContext : Program Services Unit := do
  let types ← ask .goodsTypes
  let types ← banners types
  let goodsBanners ← ask .indexGoodsBanners
  let promotionBanners ← ask .indexPromotionBanners
  let _ ← ask (.cacheSet { types, goodsBanners, promotionBanners })
  pure ()

/-- `IndexView.get`, as far as it reads and writes the data of the page. -/
def get : Program Services Unit := do
  match ← ask .cacheGet with
  | some _ => pure ()
  | none => setContext

end IndexView

namespace GenerateStaticIndexHtml

/-- The products of the banners. -/
def skus : List IndexTypeBanner → Program Services (List (Option GoodsSKU))
  | [] => pure []
  | banner :: rest => do
    let sku ← ask (.sku banner.sku)
    let shown ← skus rest
    pure (sku :: shown)

/-- `{% for type in types %}`, the second time. -/
def listModels : List GoodsType → Program Services (List ListModel)
  | [] => pure []
  | type :: rest => do
    let titleBanner ← ask (.indexTypeBanners type.id 0)
    let titles ← skus titleBanner
    let imageBanner ← ask (.indexTypeBanners type.id 1)
    let images ← skus imageBanner
    let shown ← listModels rest
    pure (type.listModel titles images :: shown)

/-- `generate_static_index_html`. -/
def run : Program Services Unit := do
  let types ← ask .goodsTypes
  let goodsBanners ← ask .indexGoodsBanners
  let promotionBanners ← ask .indexPromotionBanners
  let models ← listModels types
  let _ ← ask (.writeFile (staticIndex types goodsBanners promotionBanners models))
  pure ()

/-- A worker that takes one task and runs it. -/
def worker : Program Services Unit := do
  let _ ← ask .takeTask
  run

end GenerateStaticIndexHtml

/-- What happens around the home page. -/
inductive Request where
  /-- An administrator saves a row. -/
  | save (obj : Row)
  /-- An administrator deletes a row from its own page. -/
  | delete (obj : Row)
  /-- An administrator deletes the selected rows of a list. -/
  | deleteSelected (selected : Selected)
  /-- `GET /index/`. -/
  | index
  /-- A worker takes a task and runs it. -/
  | generate
  /-- The timeout of the cached data is over. -/
  | expire

/-- The program of a request. -/
def Request.handler : Request → Program Services Unit
  | save obj => changeformView obj
  | delete obj => deleteView obj
  | deleteSelected selected => HomePage.deleteSelected selected
  | index => IndexView.get
  | generate => GenerateStaticIndexHtml.worker
  | expire => ask .cacheDelete

/-! ### Execution -/

/-- Everything the requests share. -/
structure World where
  /-- The committed tables. -/
  db : Db
  /-- The data under `index_page_data`. -/
  cache : Option Context
  /-- The number of tasks in the queue. -/
  queue : ℕ
  /-- `static/index.html`. -/
  file : StaticIndex

/-- The rows that a transaction has saved and not committed. -/
abbrev Session := List Row

/-- What the tables answer. -/
def answer (db : Db) : (c : Cmd) → Option c.Resp
  | .goodsTypes => some db.types
  | .indexGoodsBanners => some db.indexGoodsBanners
  | .indexPromotionBanners => some db.indexPromotionBanners
  | .indexTypeBanners type displayType => some (db.indexTypeBanners type displayType)
  | .sku id => some (db.sku id)
  | _ => none

/-- The tables after the commit of a transaction. -/
def Session.commit (l : Session) (db : Db) : Db := List.foldl Db.save db l

/-- One command; `none` while it has to wait. -/
def exec (w : World) (l : Session) : (c : Cmd) → Option (c.Resp × World × Session)
  | .atomicEnter => some ((), w, [])
  | .commit => some ((), { w with db := l.commit w.db }, [])
  | .rollback => some ((), w, [])
  | .save row => some ((), w, l ++ [row])
  | .deleteQueryset selected => some ((), { w with db := w.db.delete selected }, l)
  | .delay => some ((), { w with queue := w.queue + 1 }, l)
  | .cacheDelete => some ((), { w with cache := none }, l)
  | .cacheGet => some (w.cache, w, l)
  | .cacheSet context => some ((), { w with cache := some context }, l)
  | .takeTask => if w.queue = 0 then none else some ((), { w with queue := w.queue - 1 }, l)
  | .writeFile page => some ((), { w with file := page }, l)
  | .goodsTypes => some (w.db.types, w, l)
  | .indexGoodsBanners => some (w.db.indexGoodsBanners, w, l)
  | .indexPromotionBanners => some (w.db.indexPromotionBanners, w, l)
  | .indexTypeBanners type displayType => some (w.db.indexTypeBanners type displayType, w, l)
  | .sku id => some (w.db.sku id, w, l)

/-- The machine of the home page. A request that dies loses its transaction. -/
def site (ι : Type) : Machine Services ι World Session Unit where
  exec _ := exec
  abort _ w _ := (w, [])
  crash := ()

variable {ι : Type}

/-- The requests `request` are about to begin. -/
def start (w : World) (request : ι → Request) : State Services ι World Session Unit where
  world := w
  loc := fun _ ↦ []
  prog := fun t ↦ (request t).handler

/-! ### Reading an unchanging database -/

section Read

variable {db : Db}

/-- Other commands than queries are answered by no tables. -/
theorem answer_eq_none {c : Cmd} (h : answer db c = none) (db' : Db) : answer db' c = none := by
  cases c with
  | goodsTypes => cases h
  | indexGoodsBanners => cases h
  | indexPromotionBanners => cases h
  | indexTypeBanners type displayType => cases h
  | sku id => cases h
  | _ => rfl

/-- A query changes nothing. -/
theorem exec_of_answer {w : World} {l : Session} {c : Cmd} {r : c.Resp} (h : answer w.db c = some r) :
    exec w l c = some (r, w, l) := by
  cases c with
  | goodsTypes =>
    cases h
    rfl
  | indexGoodsBanners =>
    cases h
    rfl
  | indexPromotionBanners =>
    cases h
    rfl
  | indexTypeBanners type displayType =>
    cases h
    rfl
  | sku id =>
    cases h
    rfl
  | _ => cases h

theorem IndexView.ahead_banners (types : List GoodsType) :
    (IndexView.banners types).ahead (answer db) = .ret (types.map fun type ↦
      { type, imageBanner := db.indexTypeBanners type.id 1,
        titleBanner := db.indexTypeBanners type.id 0 }) := by
  induction types with
  | nil => rfl
  | cons type types ih =>
    rw [banners, ahead_send_bind rfl, ahead_send_bind rfl, ahead_bind ih]
    rfl

/-- **What `IndexView` puts into the cache**, if it reads an unchanging database. -/
theorem IndexView.ahead_setContext :
    IndexView.setContext.ahead (answer db) = .call (.cacheSet db.context) fun _ ↦ .ret () := by
  rw [setContext, ahead_send_bind rfl, ahead_bind (ahead_banners db.types), ahead_send_bind rfl,
    ahead_send_bind rfl]
  rfl

theorem GenerateStaticIndexHtml.ahead_skus (banners : List IndexTypeBanner) :
    (skus banners).ahead (answer db) = .ret (banners.map fun banner ↦ db.sku banner.sku) := by
  induction banners with
  | nil => rfl
  | cons banner banners ih =>
    rw [skus, ahead_send_bind rfl, ahead_bind ih]
    rfl

theorem GenerateStaticIndexHtml.ahead_listModels (types : List GoodsType) :
    (listModels types).ahead (answer db) = .ret (types.map fun type ↦ type.listModel
      ((db.indexTypeBanners type.id 0).map fun banner ↦ db.sku banner.sku)
      ((db.indexTypeBanners type.id 1).map fun banner ↦ db.sku banner.sku)) := by
  induction types with
  | nil => rfl
  | cons type types ih =>
    rw [listModels, ahead_send_bind rfl, ahead_bind (ahead_skus _), ahead_send_bind rfl,
      ahead_bind (ahead_skus _), ahead_bind ih]
    rfl

/-- **What the task writes**, if it reads an unchanging database. -/
theorem GenerateStaticIndexHtml.ahead_run :
    run.ahead (answer db) = .call (.writeFile db.staticIndex) fun _ ↦ .ret () := by
  rw [run, ahead_send_bind rfl, ahead_send_bind rfl, ahead_send_bind rfl,
    ahead_bind (ahead_listModels db.types)]
  rfl

end Read

end DailyFresh.HomePage
