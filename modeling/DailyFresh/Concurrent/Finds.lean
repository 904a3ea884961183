import DailyFresh.Concurrent.CommitPath

/-!
# Only products that were found are put

A view that puts an entry into a cart or a browsing history has looked its product up before, under the
same text; and the change form saves the row of a product that it has loaded. `putsFound_handler` says so
of every path of every request, by a monitor whose state are the lookups that have succeeded.
-/

namespace DailyFresh

open Python Store Interleave Program

/-- The text under which a command puts a product into a cart or a browsing history. -/
def Cmd.put? : Cmd → Option Str
  | hset _ field _ => some field
  | lpush _ value => some value
  | _ => none

/-- The monitor that remembers which product was found under which text. -/
def finds : Monitor Services (Str → ℕ → Prop) where
  allowed found
    | .hset _ field _ => ∃ n, found field n
    | .lpush _ value => ∃ n, found value n
    | .skuSave n _ => ∃ id, found id n
    | _ => True
  after found
    | .skuGet id, r => fun id' n ↦ found id' n ∨ id' = id ∧ ∃ sku, r = .ok (n, sku)
    | _, _ => found

/-- From here on the program puts only what it finds or has found. -/
def PutsFound {α : Type} (p : Program Services α) (found : Str → ℕ → Prop) : Prop :=
  finds.Accepts (fun _ _ ↦ True) p found

/-- A product is found under every text that is put. -/
theorem found_of_allowed {c : Cmd} {found : Str → ℕ → Prop} (h : finds.allowed found c) {text : Str}
    (hput : c.put? = some text) : ∃ n, found text n := by
  cases c with
  | hset user field value =>
    obtain rfl := Option.some.inj hput
    exact h
  | lpush user value =>
    obtain rfl := Option.some.inj hput
    exact h
  | _ => cases hput

namespace PutsFound

variable {α β : Type} {found : Str → ℕ → Prop}

theorem bind {p : Program Services α} {f : α → Program Services β} (hp : PutsFound p found)
    (hf : ∀ a found, PutsFound (f a) found) : PutsFound (p >>= f) found :=
  Monitor.Accepts.bind hp fun a found _ ↦ hf a found

theorem ask {c : Cmd} {f : c.Resp → Program Services β} (hc : finds.allowed found c)
    (hf : ∀ r, PutsFound (f r) (finds.after found c r)) : PutsFound (ask c >>= f) found :=
  Monitor.Accepts.send hc hf

end PutsFound

variable {found : Str → ℕ → Prop}

/-- What was just looked up is found. -/
theorem found_skuGet (id : Str) (n : ℕ) (sku : GoodsSKU) :
    finds.after found (.skuGet id) (.ok (n, sku)) id n := .inr ⟨rfl, sku, rfl⟩

/-! ### The requests that put entries -/

theorem putsFound_cartAdd (request : HttpRequest) : PutsFound (CartAddView.post request) found := by
  rw [CartAddView.post]
  rcases request.user with - | user
  · trivial
  rcases nonempty (request.POST "sku_id".toList) with - | skuId
  · trivial
  rcases nonempty (request.POST "count".toList) with - | text
  · trivial
  dsimp only
  rcases int text with - | count
  · trivial
  refine .ask trivial fun r ↦ ?_
  rcases r with e | ⟨n, sku⟩
  · trivial
  refine .ask trivial fun cartCount ↦ ?_
  show PutsFound (if count + cartCount.getD 0 > sku.stock.val then _ else _) _
  split
  · trivial
  · exact .ask ⟨n, found_skuGet skuId n sku⟩ fun _ ↦ .ask trivial fun _ ↦ trivial

theorem putsFound_cartUpdate (request : HttpRequest) :
    PutsFound (CartUpdateView.post request) found := by
  rw [CartUpdateView.post]
  rcases request.user with - | user
  · trivial
  rcases nonempty (request.POST "sku_id".toList) with - | skuId
  · trivial
  rcases nonempty (request.POST "count".toList) with - | text
  · trivial
  dsimp only
  rcases int text with - | count
  · trivial
  refine .ask trivial fun r ↦ ?_
  rcases r with e | ⟨n, sku⟩
  · trivial
  show PutsFound (if count > sku.stock.val then _ else _) _
  split
  · trivial
  · exact .ask ⟨n, found_skuGet skuId n sku⟩ fun _ ↦ .ask trivial fun _ ↦ trivial

theorem putsFound_detail (request : HttpRequest) (goodsId : Str) :
    PutsFound (DetailView.get request goodsId) found := by
  refine .ask trivial fun r ↦ ?_
  rcases r with e | ⟨n, sku⟩
  · cases e with
    | _ => trivial
  dsimp only
  rcases request.user with - | user
  · trivial
  have hfound : ∃ m, finds.after found (.skuGet goodsId) (.ok (n, sku)) goodsId m :=
    ⟨n, found_skuGet goodsId n sku⟩
  refine .ask trivial fun _ ↦ ?_
  exact .ask trivial fun _ ↦ .ask hfound fun _ ↦ .ask trivial fun _ ↦ trivial

/-- The change form saves what it has loaded. -/
theorem putsFound_adminEdit (id : Str) (edit : GoodsSKU → GoodsSKU) :
    PutsFound (GoodsSKUAdmin.change id edit) found := by
  refine .ask trivial fun r ↦ ?_
  rcases r with e | ⟨n, sku⟩
  · trivial
  refine .ask ⟨id, found_skuGet id n sku⟩ fun r ↦ ?_
  rcases r with e | ⟨⟩
  · trivial
  · trivial

/-! ### The checkout -/

section Checkout

open OrderCommitView

theorem putsFound_placeOrder (order : OrderObject) (ids : List Str) :
    PutsFound (placeOrder order ids) found := by
  have hitems : ∀ skuId, finds.Keeps (fun _ ↦ True) (Cmd.OfItem skuId) := by
    intro skuId found c _ hc
    cases c with
    | hset | lpush | skuSave => exact hc.elim
    | _ => exact ⟨trivial, fun _ ↦ trivial⟩
  exact accepts_placeOrder trivial (fun _ _ ↦ trivial)
    (accepts_takeItems hitems trivial order.user order.orderId ids _)

/-- A checkout puts nothing. -/
theorem putsFound_commit (now : LocalTime) (request : HttpRequest) :
    PutsFound (OrderCommitView.post now request) found := by
  refine accepts_post (fun found c hc ↦ ?_) fun c addr _ ↦ putsFound_placeOrder _ _
  cases c with
  | hset | lpush | skuSave | skuGet => exact hc.elim
  | _ => exact ⟨trivial, fun _ ↦ rfl⟩

end Checkout

/-! ### The other requests -/

theorem putsFound_place (request : HttpRequest) (skuIds : List Str) :
    PutsFound (OrderPlaceView.post request skuIds) found := by
  have hitems : ∀ user (ids : List Str) found, PutsFound (OrderPlaceView.showItems user ids) found := by
    intro user ids
    induction ids with
    | nil => exact fun _ ↦ trivial
    | cons skuId ids ih =>
      intro found
      refine .ask trivial fun r ↦ ?_
      rcases r with e | ⟨n, sku⟩
      · trivial
      refine .ask trivial fun count ↦ ?_
      rcases count with - | count
      · trivial
      · exact (ih _).bind fun _ _ ↦ trivial
  rw [OrderPlaceView.post]
  rcases request.user with - | user
  · trivial
  show PutsFound (if skuIds = [] then _ else _) _
  split
  · trivial
  refine (hitems user skuIds found).bind fun shown found ↦ ?_
  rcases shown with - | skus
  · trivial
  refine .ask trivial fun r ↦ ?_
  rcases r with e | addrs
  · trivial
  · trivial

theorem putsFound_pay (request : HttpRequest) : PutsFound (OrderPayView.post request) found := by
  rw [OrderPayView.post]
  rcases request.user with - | user
  · trivial
  rcases nonempty (request.POST "order_id".toList) with - | orderId
  · trivial
  refine .ask trivial fun r ↦ ?_
  rcases r with e | order
  · cases e with
    | _ => trivial
  · trivial

theorem putsFound_check (request : HttpRequest) : PutsFound (OrderCheckView.post request) found := by
  rw [OrderCheckView.post]
  rcases request.user with - | user
  · trivial
  rcases nonempty (request.POST "order_id".toList) with - | orderId
  · trivial
  refine .ask trivial fun r ↦ ?_
  rcases r with e | order
  · cases e with
    | _ => trivial
  refine ⟨trivial, fun response ↦ ⟨fun _ ↦ rfl, ?_⟩⟩
  show PutsFound (if OrderCheckView.paid response = true then _ else _) _
  split
  · refine .ask trivial fun r ↦ ?_
    rcases r with e | ⟨⟩
    · trivial
    · trivial
  · trivial

theorem putsFound_commentForm (request : HttpRequest) (orderId : Str) :
    PutsFound (CommentView.get request orderId) found := by
  rw [CommentView.get]
  rcases request.user with - | user
  · trivial
  show PutsFound (if orderId = [] then _ else _) _
  split
  · trivial
  refine .ask trivial fun r ↦ ?_
  rcases r with e | order
  · trivial
  refine .ask trivial fun r ↦ ?_
  rcases r with e | orderSkus
  · trivial
  · trivial

theorem putsFound_saveComments (request : HttpRequest) (orderId : Str) (indices : List ℕ) :
    PutsFound (CommentView.saveComments request orderId indices) found := by
  induction indices generalizing found with
  | nil => trivial
  | cons i indices ih =>
    refine .ask trivial fun r ↦ ?_
    rcases r with e | ⟨id, line⟩
    · cases e with
      | doesNotExist => exact ih
      | _ => trivial
    refine .ask trivial fun r ↦ ?_
    rcases r with e | ⟨⟩
    · trivial
    · exact ih

theorem putsFound_comment (request : HttpRequest) (orderId : Str) :
    PutsFound (CommentView.post request orderId) found := by
  rw [CommentView.post]
  rcases request.user with - | user
  · trivial
  show PutsFound (if orderId = [] then _ else _) _
  split
  · trivial
  refine .ask trivial fun r ↦ ?_
  rcases r with e | order
  · trivial
  dsimp only
  rcases (request.POST "total_count".toList).bind int with - | totalCount
  · trivial
  refine (putsFound_saveComments request order.orderId _).bind fun done found ↦ ?_
  cases done with
  | false => trivial
  | true =>
    refine .ask trivial fun r ↦ ?_
    rcases r with e | ⟨⟩
    · trivial
    · trivial

theorem putsFound_cartInfo (request : HttpRequest) : PutsFound (CartInfoView.get request) found := by
  have hitems : ∀ (entries : List (Str × ℤ)) found, PutsFound (CartInfoView.showItems entries) found := by
    intro entries
    induction entries with
    | nil => exact fun _ ↦ trivial
    | cons entry entries ih =>
      intro found
      show PutsFound (if (entry.1.all fun c ↦ c.toNat < 128) = true then _ else _) _
      split
      · refine .ask trivial fun r ↦ ?_
        rcases r with e | ⟨n, sku⟩
        · trivial
        · exact (ih _).bind fun _ _ ↦ trivial
      · trivial
  rw [CartInfoView.get]
  rcases request.user with - | user
  · trivial
  refine .ask trivial fun entries ↦ (hitems entries _).bind fun shown found ↦ ?_
  rcases shown with - | skus
  · trivial
  · trivial

theorem putsFound_cartDelete (request : HttpRequest) :
    PutsFound (CartDeleteView.post request) found := by
  rw [CartDeleteView.post]
  rcases request.user with - | user
  · trivial
  rcases nonempty (request.POST "sku_id".toList) with - | skuId
  · trivial
  refine .ask trivial fun r ↦ ?_
  rcases r with e | ⟨n, sku⟩
  · trivial
  · exact .ask trivial fun _ ↦ .ask trivial fun _ ↦ trivial

theorem putsFound_cartCount {α : Type} (user : Option ℕ) (f : ℕ → α) :
    PutsFound (cartCount user >>= fun n ↦ pure (f n)) found := by
  rcases user with - | user
  · trivial
  · exact .ask trivial fun _ ↦ trivial

theorem putsFound_list (request : HttpRequest) (typeId page : Str) :
    PutsFound (ListView.get request typeId page) found := by
  refine .ask trivial fun r ↦ ?_
  rcases r with e | ⟨n, type⟩
  · trivial
  show PutsFound (if int page = some 0 then _ else _) _
  split
  · trivial
  · exact putsFound_cartCount _ _

theorem putsFound_userInfo (request : HttpRequest) : PutsFound (UserInfoView.get request) found := by
  have hgoods : ∀ (ids : List Str) found, PutsFound (UserInfoView.showGoods ids) found := by
    intro ids
    induction ids with
    | nil => exact fun _ ↦ trivial
    | cons id ids ih =>
      intro found
      show PutsFound (if (id.all fun c ↦ c.toNat < 128) = true then _ else _) _
      split
      · refine .ask trivial fun r ↦ ?_
        rcases r with e | goods
        · trivial
        · exact (ih _).bind fun _ _ ↦ trivial
      · trivial
  have hshow : ∀ user address found, PutsFound (UserInfoView.showHistory user address) found := by
    intro user address found
    refine .ask trivial fun ids ↦ (hgoods ids _).bind fun shown found ↦ ?_
    rcases shown with - | goods
    · trivial
    · trivial
  rw [UserInfoView.get]
  rcases request.user with - | user
  · trivial
  refine .ask trivial fun r ↦ ?_
  rcases r with e | address
  · cases e with
    | doesNotExist => exact hshow user none _
    | _ => trivial
  · exact hshow user (some address) _

theorem putsFound_address (request : HttpRequest) :
    PutsFound (UserAddressView.post request) found := by
  have hcreate : ∀ address found, PutsFound (UserAddressView.create address) found := by
    intro address found
    refine .ask trivial fun r ↦ ?_
    rcases r with e | ⟨⟩
    · trivial
    · trivial
  rw [UserAddressView.post]
  rcases request.user with - | user
  · trivial
  rcases nonempty (request.POST "receiver".toList) with - | receiver
  · trivial
  rcases nonempty (request.POST "addr".toList) with - | addr
  · trivial
  rcases nonempty (request.POST "phone".toList) with - | phone
  · trivial
  dsimp only
  split
  · trivial
  refine .ask trivial fun r ↦ ?_
  rcases r with e | address
  · cases e with
    | doesNotExist => exact hcreate _ _
    | _ => trivial
  · exact hcreate _ _

/-- **Every request puts only what it has found.** -/
theorem putsFound_handler (r : Request) : PutsFound r.handler found := by
  cases r with
  | place request skuIds => exact putsFound_place request skuIds
  | commit now request => exact putsFound_commit now request
  | pay request => exact putsFound_pay request
  | check request => exact putsFound_check request
  | commentForm request orderId => exact putsFound_commentForm request orderId
  | comment request orderId => exact putsFound_comment request orderId
  | cartAdd request => exact putsFound_cartAdd request
  | cartInfo request => exact putsFound_cartInfo request
  | cartUpdate request => exact putsFound_cartUpdate request
  | cartDelete request => exact putsFound_cartDelete request
  | index request => exact putsFound_cartCount _ _
  | detail request goodsId => exact putsFound_detail request goodsId
  | list request typeId page => exact putsFound_list request typeId page
  | userInfo request => exact putsFound_userInfo request
  | address request => exact putsFound_address request
  | adminEdit id edit => exact putsFound_adminEdit id edit

end DailyFresh
