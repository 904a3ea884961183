import DailyFresh.Concurrent.Requests
import DailyFresh.Interleave.Monitor

/-!
# What the requests send

Each kind of request sends commands that only look, and a few kinds of commands that write; and it touches
no cart and no browsing history but its user's own, and the order views but checkout touch none at all
(`Request.May`). Nothing is repeated but the query of a trade (`Cmd.Repeats`). `sends_handler` says so of
every path of every request, whatever it is answered.
-/

namespace DailyFresh

open Python Store Interleave Program

/-- The command changes nothing. -/
def Cmd.looks : Cmd → Bool
  | addressGet _ | addressDefault _ | addressFilter _ | typeGet _ | skuGet _ => true
  | orderGet .. | lineGet .. | lineFilter _ => true
  | hget .. | hlen _ | hvals _ | hgetall _ | lrange _ => true
  | _ => false

/-- The user whose cart or browsing history the command reads or writes. -/
def Cmd.owner? : Cmd → Option ℕ
  | hget user _ | hset user _ _ | hlen user | hvals user | hdel user _ | hgetall user => some user
  | lrem user _ | lpush user _ | ltrim user | lrange user => some user
  | _ => none

/-- The commands of a checkout that do more than look. -/
def Cmd.ofCheckout : Cmd → Bool
  | atomicEnter | commit | rollback | savepoint | savepointRollback => true
  | skuUpdate .. | orderCreate _ | orderSave _ | lineCreate _ | hdel .. => true
  | _ => false

/-- The command begins or ends a transaction. -/
def Cmd.delimits : Cmd → Bool
  | atomicEnter | commit | rollback => true
  | _ => false

/-- What each kind of request sends besides commands that look. -/
def Request.writes : Request → Cmd → Bool
  | commit .., c => c.ofCheckout
  | check _, .tradeQuery _ => true
  | check _, .orderSave _ => true
  | comment .., .lineSave .. => true
  | comment .., .orderSave _ => true
  | cartAdd _, .hset .. => true
  | cartUpdate _, .hset .. => true
  | cartDelete _, .hdel .. => true
  | detail .., .lrem .. => true
  | detail .., .lpush .. => true
  | detail .., .ltrim _ => true
  | address _, .addressCreate _ => true
  | adminEdit .., .skuSave .. => true
  | _, _ => false

/-- What is sent again and again: the query of a trade, as long as it is waiting. -/
def Cmd.Repeats : (c : Cmd) → (c.Resp → Bool) → Prop
  | tradeQuery _, again => ∀ r, again r = true → OrderCheckView.waiting r = true
  | _, _ => False

/-- The request uses the cart or the browsing history of this user. -/
def Request.Uses (user : ℕ) : Request → Prop
  | place request _ => request.user = some user
  | commit _ request => request.user = some user
  | cartAdd request => request.user = some user
  | cartInfo request => request.user = some user
  | cartUpdate request => request.user = some user
  | cartDelete request => request.user = some user
  | index request => request.user = some user
  | detail request _ => request.user = some user
  | list request _ _ => request.user = some user
  | userInfo request => request.user = some user
  | _ => False

/-- What a request may send. -/
structure Request.May (r : Request) (c : Cmd) : Prop where
  kind : c.looks = true ∨ r.writes c = true
  owner : ∀ user, c.owner? = some user → r.Uses user

namespace Request.May

variable {r : Request} {c : Cmd}

/-- A look at the database. -/
theorem look (hlooks : c.looks = true) (howner : c.owner? = none) : r.May c where
  kind := .inl hlooks
  owner user huser := by cases howner.symm.trans huser

/-- A look at the user's own cart or browsing history. -/
theorem look_own {user : ℕ} (hlooks : c.looks = true) (howner : c.owner? = some user)
    (huser : r.Uses user) : r.May c where
  kind := .inl hlooks
  owner user' huser' := by rwa [← Option.some.inj (howner.symm.trans huser')]

/-- A write to the database. -/
theorem write (hwrites : r.writes c = true) (howner : c.owner? = none) : r.May c where
  kind := .inr hwrites
  owner user huser := by cases howner.symm.trans huser

/-- A write to the user's own cart or browsing history. -/
theorem write_own {user : ℕ} (hwrites : r.writes c = true) (howner : c.owner? = some user)
    (huser : r.Uses user) : r.May c where
  kind := .inr hwrites
  owner user' huser' := by rwa [← Option.some.inj (howner.symm.trans huser')]

end Request.May

variable {req : HttpRequest}

/-! ### The order app -/

theorem sends_place (skuIds : List Str) :
    Monitor.Only (Request.place req skuIds).May Cmd.Repeats (OrderPlaceView.post req skuIds) := by
  have hitems : ∀ user, req.user = some user → ∀ ids : List Str,
      Monitor.Only (Request.place req skuIds).May Cmd.Repeats (OrderPlaceView.showItems user ids) := by
    intro user huser ids
    induction ids with
    | nil => trivial
    | cons skuId ids ih =>
      refine .send (.look rfl rfl) fun r ↦ ?_
      rcases r with e | ⟨n, sku⟩
      · trivial
      refine .send (.look_own rfl rfl huser) fun count ↦ ?_
      rcases count with - | count
      · trivial
      · exact ih.bind fun _ ↦ trivial
  rw [OrderPlaceView.post]
  rcases huser : req.user with - | user
  · trivial
  show Monitor.Only _ _ (if skuIds = [] then _ else _)
  split
  · trivial
  refine (hitems user huser skuIds).bind fun shown ↦ ?_
  rcases shown with - | skus
  · trivial
  refine .send (.look rfl rfl) fun r ↦ ?_
  rcases r with e | addrs
  · trivial
  · trivial

section Checkout

open OrderCommitView

variable {now : LocalTime} {α : Type}

/-- What a checkout may send inside its transaction. -/
def InBody (now : LocalTime) (req : HttpRequest) (c : Cmd) : Prop :=
  (Request.commit now req).May c ∧ c.delimits = false

theorem sends_rollbackAndReply (res : ℤ) (errmsg : String) :
    Monitor.Only (InBody now req) Cmd.Repeats (rollbackAndReply (α := α) res errmsg) := by
  refine .send ⟨.write rfl rfl, rfl⟩ fun r ↦ ?_
  rcases r with e | ⟨⟩
  · trivial
  · trivial

/-- One item, by induction on the attempts that are left. -/
theorem sends_tryItem {user : ℕ} (huser : req.user = some user) (orderId skuId : Str) (totals : Totals)
    (attempts : List ℕ) :
    Monitor.Only (InBody now req) Cmd.Repeats (tryItem user orderId skuId totals attempts) := by
  induction attempts with
  | nil => trivial
  | cons i attempts ih =>
    rw [tryItem]
    refine .send ⟨.look rfl rfl, rfl⟩ fun r ↦ ?_
    rcases r with e | ⟨n, sku⟩
    · exact sends_rollbackAndReply _ _
    refine .send ⟨.look_own rfl rfl huser, rfl⟩ fun count ↦ ?_
    rcases count with - | count
    · trivial
    dsimp only
    split
    · exact sends_rollbackAndReply _ _
    refine .send ⟨.write rfl rfl, rfl⟩ fun res ↦ ?_
    rcases res with e | _ | k
    · trivial
    · show Monitor.Only _ _ (if i = 2 then _ else _)
      split
      · exact sends_rollbackAndReply _ _
      · exact ih
    · refine .send ⟨.write rfl rfl, rfl⟩ fun r ↦ ?_
      rcases r with e | ⟨⟩
      · trivial
      · trivial

/-- The loop over the items. -/
theorem sends_takeItems {user : ℕ} (huser : req.user = some user) (orderId : Str) (ids : List Str)
    (totals : Totals) :
    Monitor.Only (InBody now req) Cmd.Repeats (takeItems user orderId ids totals) := by
  induction ids generalizing totals with
  | nil => trivial
  | cons skuId ids ih =>
    refine (sends_tryItem huser orderId skuId totals (List.range 2)).bind fun flow ↦ ?_
    rcases flow with totals | reply | -
    · exact ih totals
    · trivial
    · trivial

/-- The `try` block. -/
theorem sends_placeOrder (order : OrderObject) (huser : req.user = some order.user) (ids : List Str) :
    Monitor.Only (InBody now req) Cmd.Repeats (placeOrder order ids) := by
  refine .send ⟨.write rfl rfl, rfl⟩ fun r ↦ ?_
  rcases r with e | ⟨⟩
  · trivial
  refine (sends_takeItems huser order.orderId ids _).bind fun flow ↦ ?_
  rcases flow with totals | reply | -
  · refine .send ⟨.write rfl rfl, rfl⟩ fun r ↦ ?_
    rcases r with e | ⟨⟩
    · trivial
    · trivial
  · trivial
  · trivial

theorem sends_body (positions : List Str → List Str) :
    Monitor.Only (InBody now req) Cmd.Repeats (body positions now req) := by
  rw [body]
  rcases huser : req.user with - | user
  · trivial
  rcases nonempty (req.POST "addr_id".toList) with - | addrId
  · trivial
  rcases nonempty (req.POST "pay_method".toList) with - | payMethod
  · trivial
  rcases nonempty (req.POST "sku_ids".toList) with - | skuIds
  · trivial
  dsimp only
  rcases PAY_METHODS.lookup payMethod with - | method
  · trivial
  refine .send ⟨.look rfl rfl, rfl⟩ fun r ↦ ?_
  rcases r with e | ⟨addr, a⟩
  · cases e with
    | _ => trivial
  refine .send ⟨.write rfl rfl, rfl⟩ fun _ ↦ ?_
  refine (sends_placeOrder (newOrder now user addr method) huser _).bind fun flow ↦ ?_
  rcases flow with - | reply | -
  · exact .send ⟨.write_own rfl rfl huser, rfl⟩ fun _ ↦ trivial
  · trivial
  · refine .send ⟨.write rfl rfl, rfl⟩ fun r ↦ ?_
    rcases r with e | ⟨⟩
    · trivial
    · trivial

theorem sends_commit : Monitor.Only (Request.commit now req).May Cmd.Repeats (post now req) := by
  have hbody : Monitor.Only (Request.commit now req).May Cmd.Repeats (body id now req) :=
    (sends_body id).mono fun _ hc ↦ hc.1
  refine .send (.write rfl rfl) fun _ ↦ hbody.bind fun reply ↦ ?_
  rcases reply with - | reply
  · exact .send (.write rfl rfl) fun _ ↦ trivial
  · exact .send (.write rfl rfl) fun _ ↦ trivial

end Checkout

theorem sends_pay : Monitor.Only (Request.pay req).May Cmd.Repeats (OrderPayView.post req) := by
  rw [OrderPayView.post]
  rcases req.user with - | user
  · trivial
  rcases nonempty (req.POST "order_id".toList) with - | orderId
  · trivial
  refine .send (.look rfl rfl) fun r ↦ ?_
  rcases r with e | order
  · cases e with
    | _ => trivial
  · trivial

theorem sends_check : Monitor.Only (Request.check req).May Cmd.Repeats (OrderCheckView.post req) := by
  rw [OrderCheckView.post]
  rcases req.user with - | user
  · trivial
  rcases nonempty (req.POST "order_id".toList) with - | orderId
  · trivial
  refine .send (.look rfl rfl) fun r ↦ ?_
  rcases r with e | order
  · cases e with
    | _ => trivial
  refine ⟨⟨.write rfl rfl, fun r hagain ↦ (Bool.and_eq_true_iff.1 hagain).2⟩, fun response ↦ ?_⟩
  show Monitor.Only _ _ (if OrderCheckView.paid response = true then _ else _)
  split
  · refine .send (.write rfl rfl) fun r ↦ ?_
    rcases r with e | ⟨⟩
    · trivial
    · trivial
  · trivial

theorem sends_commentForm (orderId : Str) :
    Monitor.Only (Request.commentForm req orderId).May Cmd.Repeats (CommentView.get req orderId) := by
  rw [CommentView.get]
  rcases req.user with - | user
  · trivial
  show Monitor.Only _ _ (if orderId = [] then _ else _)
  split
  · trivial
  refine .send (.look rfl rfl) fun r ↦ ?_
  rcases r with e | order
  · trivial
  refine .send (.look rfl rfl) fun r ↦ ?_
  rcases r with e | orderSkus
  · trivial
  · trivial

theorem sends_comment (orderId : Str) :
    Monitor.Only (Request.comment req orderId).May Cmd.Repeats (CommentView.post req orderId) := by
  have hlines : ∀ k (indices : List ℕ),
      Monitor.Only (Request.comment req orderId).May Cmd.Repeats (CommentView.saveComments req k indices) := by
    intro k indices
    induction indices with
    | nil => trivial
    | cons i indices ih =>
      refine .send (.look rfl rfl) fun r ↦ ?_
      rcases r with e | ⟨id, line⟩
      · cases e with
        | doesNotExist => exact ih
        | _ => trivial
      refine .send (.write rfl rfl) fun r ↦ ?_
      rcases r with e | ⟨⟩
      · trivial
      · exact ih
  rw [CommentView.post]
  rcases req.user with - | user
  · trivial
  show Monitor.Only _ _ (if orderId = [] then _ else _)
  split
  · trivial
  refine .send (.look rfl rfl) fun r ↦ ?_
  rcases r with e | order
  · trivial
  dsimp only
  rcases (req.POST "total_count".toList).bind int with - | totalCount
  · trivial
  refine (hlines order.orderId _).bind fun done ↦ ?_
  cases done with
  | false => trivial
  | true =>
    refine .send (.write rfl rfl) fun r ↦ ?_
    rcases r with e | ⟨⟩
    · trivial
    · trivial

/-! ### The cart app -/

theorem sends_cartAdd : Monitor.Only (Request.cartAdd req).May Cmd.Repeats (CartAddView.post req) := by
  rw [CartAddView.post]
  rcases huser : req.user with - | user
  · trivial
  rcases nonempty (req.POST "sku_id".toList) with - | skuId
  · trivial
  rcases nonempty (req.POST "count".toList) with - | text
  · trivial
  dsimp only
  rcases int text with - | count
  · trivial
  refine .send (.look rfl rfl) fun r ↦ ?_
  rcases r with e | ⟨n, sku⟩
  · trivial
  refine .send (.look_own rfl rfl huser) fun cartCount ↦ ?_
  show Monitor.Only _ _ (if count + cartCount.getD 0 > sku.stock.val then _ else _)
  split
  · trivial
  · exact .send (.write_own rfl rfl huser) fun _ ↦ .send (.look_own rfl rfl huser) fun _ ↦ trivial

theorem sends_cartInfo : Monitor.Only (Request.cartInfo req).May Cmd.Repeats (CartInfoView.get req) := by
  have hitems : ∀ entries : List (Str × ℤ),
      Monitor.Only (Request.cartInfo req).May Cmd.Repeats (CartInfoView.showItems entries) := by
    intro entries
    induction entries with
    | nil => trivial
    | cons entry entries ih =>
      show Monitor.Only _ _ (if (entry.1.all fun c ↦ c.toNat < 128) = true then _ else _)
      split
      · refine .send (.look rfl rfl) fun r ↦ ?_
        rcases r with e | ⟨n, sku⟩
        · trivial
        · exact ih.bind fun _ ↦ trivial
      · trivial
  rw [CartInfoView.get]
  rcases huser : req.user with - | user
  · trivial
  refine .send (.look_own rfl rfl huser) fun entries ↦ (hitems entries).bind fun shown ↦ ?_
  rcases shown with - | skus
  · trivial
  · trivial

theorem sends_cartUpdate : Monitor.Only (Request.cartUpdate req).May Cmd.Repeats (CartUpdateView.post req) := by
  rw [CartUpdateView.post]
  rcases huser : req.user with - | user
  · trivial
  rcases nonempty (req.POST "sku_id".toList) with - | skuId
  · trivial
  rcases nonempty (req.POST "count".toList) with - | text
  · trivial
  dsimp only
  rcases int text with - | count
  · trivial
  refine .send (.look rfl rfl) fun r ↦ ?_
  rcases r with e | ⟨n, sku⟩
  · trivial
  show Monitor.Only _ _ (if count > sku.stock.val then _ else _)
  split
  · trivial
  · exact .send (.write_own rfl rfl huser) fun _ ↦ .send (.look_own rfl rfl huser) fun _ ↦ trivial

theorem sends_cartDelete : Monitor.Only (Request.cartDelete req).May Cmd.Repeats (CartDeleteView.post req) := by
  rw [CartDeleteView.post]
  rcases huser : req.user with - | user
  · trivial
  rcases nonempty (req.POST "sku_id".toList) with - | skuId
  · trivial
  refine .send (.look rfl rfl) fun r ↦ ?_
  rcases r with e | ⟨n, sku⟩
  · trivial
  · exact .send (.write_own rfl rfl huser) fun _ ↦ .send (.look_own rfl rfl huser) fun _ ↦ trivial

/-! ### The goods app and the user's pages -/

theorem sends_cartCount {r : Request} (huses : ∀ user, req.user = some user → r.Uses user)
    (f : ℕ → Reply) : Monitor.Only r.May Cmd.Repeats (cartCount req.user >>= fun n ↦ pure (f n)) := by
  rcases huser : req.user with - | user
  · trivial
  · exact .send (.look_own rfl rfl (huses user huser)) fun _ ↦ trivial

theorem sends_detail (goodsId : Str) :
    Monitor.Only (Request.detail req goodsId).May Cmd.Repeats (DetailView.get req goodsId) := by
  refine .send (.look rfl rfl) fun r ↦ ?_
  rcases r with e | ⟨n, sku⟩
  · cases e with
    | _ => trivial
  dsimp only
  rcases huser : req.user with - | user
  · trivial
  have hwrite : ∀ {c : Cmd}, Request.writes (.detail req goodsId) c = true → c.owner? = some user →
      (Request.detail req goodsId).May c := fun hwrites howner ↦ .write_own hwrites howner huser
  refine .send (.look_own rfl rfl huser) fun _ ↦ ?_
  exact .send (hwrite rfl rfl) fun _ ↦ .send (hwrite rfl rfl) fun _ ↦ .send (hwrite rfl rfl) fun _ ↦ trivial

theorem sends_list (typeId page : Str) :
    Monitor.Only (Request.list req typeId page).May Cmd.Repeats (ListView.get req typeId page) := by
  refine .send (.look rfl rfl) fun r ↦ ?_
  rcases r with e | ⟨n, type⟩
  · trivial
  show Monitor.Only _ _ (if int page = some 0 then _ else _)
  split
  · trivial
  · exact sends_cartCount (fun _ ↦ id) _

theorem sends_userInfo : Monitor.Only (Request.userInfo req).May Cmd.Repeats (UserInfoView.get req) := by
  have hgoods : ∀ ids : List Str,
      Monitor.Only (Request.userInfo req).May Cmd.Repeats (UserInfoView.showGoods ids) := by
    intro ids
    induction ids with
    | nil => trivial
    | cons id ids ih =>
      show Monitor.Only _ _ (if (id.all fun c ↦ c.toNat < 128) = true then _ else _)
      split
      · refine .send (.look rfl rfl) fun r ↦ ?_
        rcases r with e | goods
        · trivial
        · exact ih.bind fun _ ↦ trivial
      · trivial
  have hshow : ∀ user, req.user = some user → ∀ address,
      Monitor.Only (Request.userInfo req).May Cmd.Repeats (UserInfoView.showHistory user address) := by
    intro user huser address
    refine .send (.look_own rfl rfl huser) fun ids ↦ (hgoods ids).bind fun shown ↦ ?_
    rcases shown with - | goods
    · trivial
    · trivial
  rw [UserInfoView.get]
  rcases huser : req.user with - | user
  · trivial
  refine .send (.look rfl rfl) fun r ↦ ?_
  rcases r with e | address
  · cases e with
    | doesNotExist => exact hshow user huser none
    | _ => trivial
  · exact hshow user huser (some address)

theorem sends_address : Monitor.Only (Request.address req).May Cmd.Repeats (UserAddressView.post req) := by
  have hcreate : ∀ address,
      Monitor.Only (Request.address req).May Cmd.Repeats (UserAddressView.create address) := by
    intro address
    refine .send (.write rfl rfl) fun r ↦ ?_
    rcases r with e | ⟨⟩
    · trivial
    · trivial
  rw [UserAddressView.post]
  rcases req.user with - | user
  · trivial
  rcases nonempty (req.POST "receiver".toList) with - | receiver
  · trivial
  rcases nonempty (req.POST "addr".toList) with - | addr
  · trivial
  rcases nonempty (req.POST "phone".toList) with - | phone
  · trivial
  dsimp only
  split
  · trivial
  refine .send (.look rfl rfl) fun r ↦ ?_
  rcases r with e | address
  · cases e with
    | doesNotExist => exact hcreate _
    | _ => trivial
  · exact hcreate _

theorem sends_adminEdit (id : Str) (edit : GoodsSKU → GoodsSKU) :
    Monitor.Only (Request.adminEdit id edit).May Cmd.Repeats (GoodsSKUAdmin.change id edit) := by
  refine .send (.look rfl rfl) fun r ↦ ?_
  rcases r with e | ⟨n, sku⟩
  · trivial
  refine .send (.write rfl rfl) fun r ↦ ?_
  rcases r with e | ⟨⟩
  · trivial
  · trivial

/-- **What every request sends, and what it repeats.** -/
theorem sends_handler (r : Request) : Monitor.Only r.May Cmd.Repeats r.handler := by
  cases r with
  | place request skuIds => exact sends_place skuIds
  | commit now request => exact sends_commit
  | pay request => exact sends_pay
  | check request => exact sends_check
  | commentForm request orderId => exact sends_commentForm orderId
  | comment request orderId => exact sends_comment orderId
  | cartAdd request => exact sends_cartAdd
  | cartInfo request => exact sends_cartInfo
  | cartUpdate request => exact sends_cartUpdate
  | cartDelete request => exact sends_cartDelete
  | index request => exact sends_cartCount (fun _ ↦ id) _
  | detail request goodsId => exact sends_detail goodsId
  | list request typeId page => exact sends_list typeId page
  | userInfo request => exact sends_userInfo
  | address request => exact sends_address
  | adminEdit id edit => exact sends_adminEdit id edit

end DailyFresh
