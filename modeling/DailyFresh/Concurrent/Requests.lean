import DailyFresh.Concurrent.Checkout

/-!
# Every request is safe

The remaining views under the contract: paying, checking, reviewing, the cart and the admin form. They
work outside transactions, so each of their writes is committed at once, and what they have read can
be stale by then.

`Held` is what a view knows of an order it has read some time ago: the order still stands, with the
core of the row that was read. That is enough to see that the save of the whole stale row rewrites
only the status and the payment number.

`allSafe_start` collects the requests: the site, about to handle any family of requests, is safe under
the contract of any discipline whose invariant holds at the start.
-/

namespace DailyFresh

open Python Store Interleave Program

variable {ι : Type} [DecidableEq ι] {request : ι → Request} {D : Discipline request} {t : ι}
  {α β : Type}

/-! ### Outside transactions -/

section Rules

variable {Q : β → World ι → Session → Prop} {w : World ι} {l : Session}

/-- A request that is not in a transaction. -/
def Outside (_ : World ι) (l : Session) : Prop := l = .idle

theorem Outside.stable : (contract D).Stable t Outside := fun _ _ _ h _ _ ↦ h

omit [DecidableEq ι] in
theorem Outside.sound (w : World ι) (l : Session) (h : Outside w l) : l.needsRollback = false := by
  rw [h]
  rfl

theorem safe_done {reply : Reply} {Q : Reply → World ι → Session → Prop}
    (hQ : ∀ w l, Q reply w l) : Safe (site ι) (contract D) t Q (pure reply) w l :=
  fun w' _ _ ↦ hQ w' l

/-- A command that only reads, outside a transaction. -/
theorem safe_look {c : Cmd} {f : c.Resp → Program Services β}
    (answer : World ι → Session → c.Resp) (hidle : Outside w l)
    (hrun : ∀ w l, run t w l c = some (answer w l, w, l))
    (hplain : ∀ w l, Event.Plain w ⟨t, c, answer w l⟩)
    (h : ∀ w l r, (contract D).inv w → Outside w l → Safe (site ι) (contract D) t Q (f r) w l) :
    Safe (site ι) (contract D) t Q (ask c >>= f) w l := by
  refine safe_ask Outside.stable Outside.sound hidle fun w l r v l' hi hidle hr ↦ ?_
  rw [hrun] at hr
  cases hr
  have hguar := guar_unseen hi (.refl t w) (hplain w l)
  exact ⟨hguar, h _ _ _ hguar.inv hidle⟩

end Rules

/-- What a command that leaves the tables alone does to others. -/
theorem considerate_setCart (w : World ι) (user : ℕ) (cart : Cart) (c : Cmd) (r : c.Resp) :
    Considerate t w ((w.setCart user cart).record t c r) :=
  have h := (Unseen.refl t w).record_considerate c r
  ⟨h.history, h.log, h.skuLock, h.orderLock, h.skus, h.orders, .refl _, h.core, h.lines, h.linesOf,
    fun hhistory ↦ absurd hhistory (List.cons_ne_self _ _)⟩

/-! ### The cart and the admin form -/

section Cart

variable {req : HttpRequest} {w : World ι} {l : Session} {Q : Reply → World ι → Session → Prop}

/-- Writing the quantity that was asked for. -/
theorem safe_hset {user : ℕ} {field : Str} {value : ℤ} {f : Unit → Program Services Reply}
    (hwrites : Request.Writes user field (request t))
    (hidle : Outside w l ∧ (request t).quantity (w.log t) = some value)
    (h : ∀ w l, Outside w l → Safe (site ι) (contract D) t Q (f ()) w l) :
    Safe (site ι) (contract D) t Q (ask (.hset user field value) >>= f) w l := by
  refine safe_ask (stable_log Outside.stable fun log ↦ (request t).quantity log = some value)
    (fun w l h ↦ Outside.sound w l h.1) hidle ?_
  rintro w l r v l' hi ⟨hidle, hquantity⟩ hrun
  cases hrun
  exact ⟨guar hi (considerate_setCart w user _ _ _)
    (.hset user field value ⟨hwrites, hquantity⟩ rfl rfl rfl rfl), h _ _ hidle⟩

theorem safe_cartAdd (hreq : request t = .cartAdd req) (harrived : Arrived t w l)
    (hQ : ∀ reply w l, Q reply w l) :
    Safe (site ι) (contract D) t Q (CartAddView.post req) w l := by
  rw [CartAddView.post]
  rcases huser : req.user with - | user
  · exact safe_done (hQ _)
  rcases hsku : nonempty (req.POST "sku_id".toList) with - | skuId
  · exact safe_done (hQ _)
  rcases htext : nonempty (req.POST "count".toList) with - | text
  · exact safe_done (hQ _)
  rcases hcount : int text with - | count
  · simp only [hcount]
    exact safe_done (hQ _)
  simp only [hcount]
  have hasked : (req.POST "count".toList).bind int = some count := by
    rw [(nonempty_eq_some_iff.1 htext).1, Option.bind_some, hcount]
  -- the log is known up to the write: it holds one answer of the cart
  refine safe_read Arrived.stable (fun w l h ↦ Outside.sound w l h.1) (c := .skuGet skuId) _ harrived
    (fun _ _ ↦ rfl) (fun _ _ ↦ by simp) fun w l _ h ↦ ?_
  rcases findRow (w.skus l) skuId with e | ⟨n, sku⟩
  · exact safe_done (hQ _)
  have hstable := stable_log (D := D) (t := t) Outside.stable
    fun log ↦ log = [⟨t, .skuGet skuId, .ok (n, sku)⟩]
  refine safe_read hstable (fun w l h ↦ Outside.sound w l h.1) (c := .hget user skuId) _
    ⟨h.1, by rw [World.log_record_self, h.2]⟩ (fun _ _ ↦ rfl) (fun _ _ ↦ by simp) fun w l _ h ↦ ?_
  rcases h with ⟨hidle, hlog⟩
  show Safe _ _ _ _ (if count + ((w.carts user).lookup skuId).getD 0 > sku.stock.val then _ else _) _ _
  split
  · exact safe_done (hQ _)
  have hwrites : Request.Writes user skuId (request t) := by
    rw [hreq]
    exact ⟨huser, (nonempty_eq_some_iff.1 hsku).1⟩
  refine safe_hset hwrites ⟨hidle, ?_⟩ fun w l hidle ↦ ?_
  · rw [World.log_record_self, hlog, hreq, Request.quantity, hasked]
    cases (w.carts user).lookup skuId <;> rfl
  refine safe_look (c := .hlen user) _ hidle (fun _ _ ↦ rfl) (fun _ _ ↦ by simp) ?_
  exact fun w l _ _ _ ↦ safe_done (hQ _)

theorem safe_cartUpdate (hreq : request t = .cartUpdate req) (hidle : Outside w l)
    (hQ : ∀ reply w l, Q reply w l) :
    Safe (site ι) (contract D) t Q (CartUpdateView.post req) w l := by
  rw [CartUpdateView.post]
  rcases huser : req.user with - | user
  · exact safe_done (hQ _)
  rcases hsku : nonempty (req.POST "sku_id".toList) with - | skuId
  · exact safe_done (hQ _)
  rcases htext : nonempty (req.POST "count".toList) with - | text
  · exact safe_done (hQ _)
  rcases hcount : int text with - | count
  · simp only [hcount]
    exact safe_done (hQ _)
  simp only [hcount]
  refine safe_look (c := .skuGet skuId) _ hidle (fun _ _ ↦ rfl) (fun _ _ ↦ by simp) ?_
  rintro w l (e | ⟨n, sku⟩) hi hidle
  · exact safe_done (hQ _)
  show Safe _ _ _ _ (if count > sku.stock.val then _ else _) _ _
  split
  · exact safe_done (hQ _)
  have hwrites : Request.Writes user skuId (request t) := by
    rw [hreq]
    exact ⟨huser, (nonempty_eq_some_iff.1 hsku).1⟩
  refine safe_hset hwrites ⟨hidle, ?_⟩ fun w l hidle ↦ ?_
  · rw [hreq, Request.quantity, (nonempty_eq_some_iff.1 htext).1, Option.bind_some, hcount]
  refine safe_look (c := .hvals user) _ hidle (fun _ _ ↦ rfl) (fun _ _ ↦ by simp) ?_
  exact fun w l _ _ _ ↦ safe_done (hQ _)

theorem safe_cartDelete (hreq : request t = .cartDelete req) (hidle : Outside w l)
    (hQ : ∀ reply w l, Q reply w l) :
    Safe (site ι) (contract D) t Q (CartDeleteView.post req) w l := by
  rw [CartDeleteView.post]
  rcases huser : req.user with - | user
  · exact safe_done (hQ _)
  rcases nonempty (req.POST "sku_id".toList) with - | skuId
  · exact safe_done (hQ _)
  refine safe_look (c := .skuGet skuId) _ hidle (fun _ _ ↦ rfl) (fun _ _ ↦ by simp) ?_
  rintro w l (e | ⟨n, sku⟩) hi hidle
  · exact safe_done (hQ _)
  refine safe_ask Outside.stable Outside.sound (c := .hdel user [skuId]) hidle ?_
  intro w l r v l' hi hidle hrun
  cases hrun
  refine ⟨guar hi (considerate_setCart w user _ _ _)
    (.hdel user [skuId] (.inr ⟨req, hreq, huser⟩) rfl rfl rfl rfl), ?_⟩
  refine safe_look (c := .hvals user) _ hidle (fun _ _ ↦ rfl) (fun _ _ ↦ by simp) ?_
  exact fun w l _ _ _ ↦ safe_done (hQ _)

/-- An edited product is written when nobody has locked its row. -/
theorem safe_adminEdit {id : Str} {edit : GoodsSKU → GoodsSKU} (hreq : request t = .adminEdit id edit)
    (hidle : Outside w l) (hQ : ∀ reply w l, Q reply w l) :
    Safe (site ι) (contract D) t Q (GoodsSKUAdmin.change id edit) w l := by
  refine safe_read Outside.stable Outside.sound (c := .skuGet id)
    (fun w l ↦ findRow (w.skus l) id) hidle (fun _ _ ↦ rfl) (fun _ _ ↦ by simp) ?_
  intro w l _ hidle
  rcases hfind : findRow (w.skus l) id with e | ⟨n, sku⟩
  · exact safe_done (hQ _)
  have hstable := stable_log (D := D) (t := t) Outside.stable
    fun log ↦ (⟨t, .skuGet id, .ok (n, sku)⟩ : Event ι) ∈ log
  refine safe_ask hstable (fun w l h ↦ Outside.sound w l h.1) (c := .skuSave n (edit sku))
    ⟨hidle, by rw [World.log_record_self]; exact List.mem_cons_self⟩ ?_
  rintro w l r v l' hi ⟨hidle, hread⟩ hrun
  rw [run] at hrun
  split at hrun
  · rename_i hfree
    rw [hidle] at hrun
    cases hrun
    have h := (Unseen.refl t w).record_considerate (.skuSave n (edit sku)) (.ok ())
    refine ⟨guar hi ?_ (.edited id edit n sku hreq (World.mem_log_iff.1 hread).1 rfl rfl rfl rfl),
      safe_done (hQ _)⟩
    refine ⟨h.history, h.log, h.skuLock, h.orderLock, fun u hu m hm ↦ ?_, h.orders, .refl _, h.core,
      h.lines, h.linesOf, fun hhistory ↦ absurd hhistory (List.cons_ne_self _ _)⟩
    have hne : m ≠ n := by
      rintro rfl
      exact Locks.free_iff.1 hfree u hu hm
    exact Table.set_of_ne hne
  · cases hrun

end Cart

/-! ### Pages and browsing -/

section Pages

variable {req : HttpRequest} {w : World ι} {l : Session} {Q : Reply → World ι → Session → Prop}

/-- The loop of `OrderPlaceView` only reads. -/
theorem safe_placeItems (user : ℕ) (skuIds : List Str) (hidle : Outside w l) :
    Safe (site ι) (contract D) t (fun _ w l ↦ Outside w l) (OrderPlaceView.showItems user skuIds) w l := by
  induction skuIds generalizing w l with
  | nil => exact Safe.ret Outside.stable hidle fun _ _ _ h ↦ h
  | cons skuId rest ih =>
    refine safe_look (c := .skuGet skuId) _ hidle (fun _ _ ↦ rfl) (fun _ _ ↦ by simp) ?_
    rintro w l (e | ⟨n, sku⟩) hi hidle
    · exact Safe.ret Outside.stable hidle fun _ _ _ h ↦ h
    refine safe_look (c := .hget user skuId) _ hidle (fun _ _ ↦ rfl) (fun _ _ ↦ by simp) ?_
    rintro w l (- | count) hi hidle
    · exact Safe.ret Outside.stable hidle fun _ _ _ h ↦ h
    refine safe_bind hi (ih hidle) fun shown w l _ hidle ↦ ?_
    exact Safe.ret Outside.stable hidle fun _ _ _ h ↦ h

theorem safe_place {skuIds : List Str} (hi : (contract D).inv w) (hidle : Outside w l)
    (hQ : ∀ reply w l, Q reply w l) :
    Safe (site ι) (contract D) t Q (OrderPlaceView.post req skuIds) w l := by
  rw [OrderPlaceView.post]
  rcases req.user with - | user
  · exact safe_done (hQ _)
  show Safe _ _ _ _ (if skuIds = [] then _ else _) _ _
  split
  · exact safe_done (hQ _)
  refine safe_bind hi (safe_placeItems user skuIds hidle) fun shown w l _ hidle ↦ ?_
  rcases shown with - | skus
  · exact safe_done (hQ _)
  refine safe_look (c := .addressFilter user) _ hidle (fun _ _ ↦ rfl) (fun _ _ ↦ by simp) ?_
  rintro w l (e | addrs) _ _
  · exact safe_done (hQ _)
  · exact safe_done (hQ _)

/-- The loop of `CartInfoView` only reads. -/
theorem safe_cartItems (entries : List (Str × ℤ)) (hidle : Outside w l) :
    Safe (site ι) (contract D) t (fun _ w l ↦ Outside w l) (CartInfoView.showItems entries) w l := by
  induction entries generalizing w l with
  | nil => exact Safe.ret Outside.stable hidle fun _ _ _ h ↦ h
  | cons entry rest ih =>
    show Safe _ _ _ _ (if (entry.1.all fun c ↦ c.toNat < 128) = true then _ else _) _ _
    split
    · refine safe_look (c := .skuGet entry.1) _ hidle (fun _ _ ↦ rfl) (fun _ _ ↦ by simp) ?_
      rintro w l (e | ⟨n, sku⟩) hi hidle
      · exact Safe.ret Outside.stable hidle fun _ _ _ h ↦ h
      refine safe_bind hi (ih hidle) fun shown w l _ hidle ↦ ?_
      exact Safe.ret Outside.stable hidle fun _ _ _ h ↦ h
    · exact Safe.ret Outside.stable hidle fun _ _ _ h ↦ h

theorem safe_cartInfo (hidle : Outside w l) (hQ : ∀ reply w l, Q reply w l) :
    Safe (site ι) (contract D) t Q (CartInfoView.get req) w l := by
  rw [CartInfoView.get]
  rcases req.user with - | user
  · exact safe_done (hQ _)
  refine safe_look (c := .hgetall user) _ hidle (fun _ _ ↦ rfl) (fun _ _ ↦ by simp) ?_
  intro w l entries hi hidle
  refine safe_bind hi (safe_cartItems entries hidle) fun shown w l _ _ ↦ ?_
  cases shown with
  | none => exact safe_done (hQ _)
  | some skus => exact safe_done (hQ _)

theorem safe_commentForm {orderId : Str} (hidle : Outside w l) (hQ : ∀ reply w l, Q reply w l) :
    Safe (site ι) (contract D) t Q (CommentView.get req orderId) w l := by
  rw [CommentView.get]
  rcases req.user with - | user
  · exact safe_done (hQ _)
  show Safe _ _ _ _ (if orderId = [] then _ else _) _ _
  split
  · exact safe_done (hQ _)
  refine safe_ask Outside.stable Outside.sound (c := .orderGet orderId user none none) hidle ?_
  intro w l r v l' hi hidle hrun
  obtain ⟨rfl, rfl, -⟩ := run_orderGet_cases hrun
  refine ⟨guar_unseen hi (.refl t v) (by simp), ?_⟩
  rcases r with e | order
  · exact safe_done (hQ _)
  refine safe_look (c := .lineFilter orderId) _ hidle (fun _ _ ↦ rfl) (fun _ _ ↦ by simp) ?_
  rintro w l (e | orderSkus) _ _
  · exact safe_done (hQ _)
  · exact safe_done (hQ _)

/-- Reading the number of products in the cart. -/
theorem safe_cartCount {user : Option ℕ} {f : ℕ → Reply} (hidle : Outside w l)
    (hQ : ∀ reply w l, Q reply w l) :
    Safe (site ι) (contract D) t Q (cartCount user >>= fun n ↦ pure (f n)) w l := by
  cases user with
  | none => exact safe_done (hQ _)
  | some user =>
    refine safe_look (c := .hlen user) _ hidle (fun _ _ ↦ rfl) (fun _ _ ↦ by simp) ?_
    exact fun w l _ _ _ ↦ safe_done (hQ _)

theorem safe_list {typeId page : Str} (hidle : Outside w l) (hQ : ∀ reply w l, Q reply w l) :
    Safe (site ι) (contract D) t Q (ListView.get req typeId page) w l := by
  rw [ListView.get]
  refine safe_look (c := .typeGet typeId) _ hidle (fun _ _ ↦ rfl) (fun _ _ ↦ by simp) ?_
  rintro w l (e | ⟨n, type⟩) hi hidle
  · exact safe_done (hQ _)
  show Safe _ _ _ _ (if int page = some 0 then _ else _) _ _
  split
  · exact safe_done (hQ _)
  · exact safe_cartCount hidle hQ

/-- The loop of `UserInfoView` only reads. -/
theorem safe_showGoods (ids : List Str) (hidle : Outside w l) :
    Safe (site ι) (contract D) t (fun _ w l ↦ Outside w l) (UserInfoView.showGoods ids) w l := by
  induction ids generalizing w l with
  | nil => exact Safe.ret Outside.stable hidle fun _ _ _ h ↦ h
  | cons id rest ih =>
    show Safe _ _ _ _ (if (id.all fun c ↦ c.toNat < 128) = true then _ else _) _ _
    split
    · refine safe_look (c := .skuGet id) _ hidle (fun _ _ ↦ rfl) (fun _ _ ↦ by simp) ?_
      rintro w l (e | goods) hi hidle
      · exact Safe.ret Outside.stable hidle fun _ _ _ h ↦ h
      refine safe_bind hi (ih hidle) fun shown w l _ hidle ↦ ?_
      exact Safe.ret Outside.stable hidle fun _ _ _ h ↦ h
    · exact Safe.ret Outside.stable hidle fun _ _ _ h ↦ h

theorem safe_showHistory {user : ℕ} {address : Option (ℕ × Address)} (hidle : Outside w l)
    (hQ : ∀ reply w l, Q reply w l) :
    Safe (site ι) (contract D) t Q (UserInfoView.showHistory user address) w l := by
  refine safe_look (c := .lrange user) _ hidle (fun _ _ ↦ rfl) (fun _ _ ↦ by simp) ?_
  intro w l ids hi hidle
  refine safe_bind hi (safe_showGoods ids hidle) fun shown w l _ _ ↦ ?_
  rcases shown with - | goods
  · exact safe_done (hQ _)
  · exact safe_done (hQ _)

theorem safe_userInfo (hidle : Outside w l) (hQ : ∀ reply w l, Q reply w l) :
    Safe (site ι) (contract D) t Q (UserInfoView.get req) w l := by
  rw [UserInfoView.get]
  rcases req.user with - | user
  · exact safe_done (hQ _)
  refine safe_look (c := .addressDefault user) _ hidle (fun _ _ ↦ rfl) (fun _ _ ↦ by simp) ?_
  rintro w l (e | address) hi hidle
  · cases e with
    | doesNotExist => exact safe_showHistory hidle hQ
    | _ => exact safe_done (hQ _)
  · exact safe_showHistory hidle hQ

/-- One command on the user's browsing history. -/
theorem safe_browse {user : ℕ} {goodsId : Str} {c : Cmd} {f : c.Resp → Program Services β}
    {Q : β → World ι → Session → Prop} (hreq : request t = .detail req goodsId)
    (huser : req.user = some user) (hidle : Outside w l) {answer : c.Resp}
    (hrun : ∀ w l, ∃ list, run t w l c = some (answer, w.setHistory user list, l))
    (hplain : ∀ w, Event.Plain w ⟨t, c, answer⟩)
    (h : ∀ w l, Outside w l → Safe (site ι) (contract D) t Q (f answer) w l) :
    Safe (site ι) (contract D) t Q (ask c >>= f) w l := by
  refine safe_ask Outside.stable Outside.sound hidle fun w l r v l' hi hidle hr ↦ ?_
  obtain ⟨list, hlist⟩ := hrun w l
  rw [hlist] at hr
  cases hr
  have hunseen := (Unseen.refl t w).record_considerate c answer
  refine ⟨guar hi ?_ (.browsed user list ⟨req, goodsId, hreq, huser⟩ rfl rfl
    ⟨_, rfl, rfl, hplain w⟩ rfl), h _ _ hidle⟩
  exact ⟨hunseen.history, hunseen.log, hunseen.skuLock, hunseen.orderLock, hunseen.skus,
    hunseen.orders, .refl _, hunseen.core, hunseen.lines, hunseen.linesOf, hunseen.recorded⟩

theorem safe_detail {goodsId : Str} (hreq : request t = .detail req goodsId) (hidle : Outside w l)
    (hQ : ∀ reply w l, Q reply w l) :
    Safe (site ι) (contract D) t Q (DetailView.get req goodsId) w l := by
  rw [DetailView.get]
  refine safe_look (c := .skuGet goodsId) _ hidle (fun _ _ ↦ rfl) (fun _ _ ↦ by simp) ?_
  rintro w l (e | ⟨n, sku⟩) hi hidle
  · cases e <;> exact safe_done (hQ _)
  rcases huser : req.user with - | user
  · exact safe_done (hQ _)
  refine safe_look (c := .hlen user) _ hidle (fun _ _ ↦ rfl) (fun _ _ ↦ by simp) ?_
  intro w l count hi hidle
  refine safe_browse (c := .lrem user goodsId) hreq huser hidle (fun _ _ ↦ ⟨_, rfl⟩)
    (fun _ ↦ by simp) fun w l hidle ↦ ?_
  refine safe_browse (c := .lpush user goodsId) hreq huser hidle (fun _ _ ↦ ⟨_, rfl⟩)
    (fun _ ↦ by simp) fun w l hidle ↦ ?_
  refine safe_browse (c := .ltrim user) hreq huser hidle (fun _ _ ↦ ⟨_, rfl⟩)
    (fun _ ↦ by simp) fun w l hidle ↦ ?_
  exact safe_done (hQ _)

/-- The creation of an address, after the user's default one has been looked for. -/
theorem safe_createAddress {address : AddressObject} (hreq : request t = .address req)
    (huser : req.user = some address.user) (hidle : Outside w l)
    (hdefault : address.isDefault = false →
      ∃ n a, w.db.address n = some a ∧ a.user = address.user ∧ a.isDefault = true)
    (hQ : ∀ reply w l, Q reply w l) :
    Safe (site ι) (contract D) t Q (UserAddressView.create address) w l := by
  have hstable : (contract D).Stable t fun w l ↦ Outside w l ∧ (address.isDefault = false →
      ∃ n a, w.db.address n = some a ∧ a.user = address.user ∧ a.isDefault = true) := by
    intro w l w' h hr _
    refine ⟨h.1, fun hfalse ↦ ?_⟩
    obtain ⟨n, a, ha, hrest⟩ := h.2 hfalse
    exact ⟨n, a, hr.addrs n a ha, hrest⟩
  rw [UserAddressView.create]
  refine safe_ask hstable (fun w l h ↦ Outside.sound w l h.1) ⟨hidle, hdefault⟩ ?_
  rintro w l r v l' hi ⟨hidle, hdefault⟩ hrun
  obtain ⟨e, rfl, rfl, rfl⟩ | ⟨row, rfl, hrow, rfl, rfl⟩ := run_addressCreate_cases hrun
  · exact ⟨guar_unseen hi (.refl t v) (by simp), safe_done (hQ _)⟩
  have hunseen := (Unseen.refl t w).record_considerate (.addressCreate address) (.ok ())
  refine ⟨guar hi ⟨hunseen.history, hunseen.log, hunseen.skuLock, hunseen.orderLock, hunseen.skus,
    hunseen.orders, ?_, hunseen.core, hunseen.lines, hunseen.linesOf,
    fun hhistory ↦ absurd hhistory (List.cons_ne_self _ _)⟩ (.addressed address row
      { request := ⟨req, hreq, huser⟩, fits := hrow, default := hdefault, db := rfl, carts := rfl
        history := rfl, histories := rfl }), safe_done (hQ _)⟩
  intro n a ha
  have hne : n ≠ w.db.nextAddress := by
    rintro rfl
    rw [w.db.address_nextAddress] at ha
    cases ha
  show Db.address { w.db with addrs := _ } n = some a
  rw [Db.address_insert rfl, Table.set_of_ne hne, ha]

theorem safe_address (hreq : request t = .address req) (hidle : Outside w l)
    (hQ : ∀ reply w l, Q reply w l) :
    Safe (site ι) (contract D) t Q (UserAddressView.post req) w l := by
  rw [UserAddressView.post]
  rcases huser : req.user with - | user
  · exact safe_done (hQ _)
  rcases nonempty (req.POST "receiver".toList) with - | receiver
  · exact safe_done (hQ _)
  rcases nonempty (req.POST "addr".toList) with - | addr
  · exact safe_done (hQ _)
  rcases nonempty (req.POST "phone".toList) with - | phone
  · exact safe_done (hQ _)
  show Safe _ _ _ _ (if UserAddressView.phoneMatches phone = false then _ else _) _ _
  split
  · exact safe_done (hQ _)
  refine safe_read Outside.stable Outside.sound (c := .addressDefault user) _ hidle (fun _ _ ↦ rfl)
    (fun _ _ ↦ by simp) fun w l _ hidle ↦ ?_
  rcases hfind : getOne (w.db.addresses fun a ↦ a.user = user && a.isDefault) with e | ⟨n, a⟩
  · cases e with
    | doesNotExist => exact safe_createAddress hreq huser hidle (fun h ↦ by cases h) hQ
    | _ => exact safe_done (hQ _)
  · refine safe_createAddress hreq huser hidle (fun _ ↦ ⟨n, a, ?_⟩) hQ
    have hmem : (n, a) ∈ w.db.addresses fun a ↦ a.user = user && a.isDefault := by
      rw [getOne_eq_ok_iff.1 hfind]
      exact List.mem_singleton_self _
    obtain ⟨ha, htest⟩ := Db.mem_addresses_iff.1 hmem
    rw [Bool.and_eq_true, decide_eq_true_iff] at htest
    exact ⟨ha, htest⟩

end Pages

/-! ### Orders read earlier -/

/-- The view has read `row` under `orderId`, and the order still stands with that core. -/
structure Held (t : ι) (payMethod : Option PayMethod) (orderStatus : Option OrderStatus)
    (orderId : Str) (row : OrderInfo) (w : World ι) (l : Session) : Prop where
  idle : Outside w l
  filters : row.satisfies row.user payMethod orderStatus = true
  read : (⟨t, .orderGet orderId row.user payMethod orderStatus, .ok (row.object orderId)⟩ : Event ι) ∈
    w.log t
  noHdel : NoHdel (w.log t)
  current : w.Undisturbed t → w.db.orders orderId = some row
  stands : ∃ row', w.db.orders orderId = some row' ∧ row'.core = row.core

section Held

variable {payMethod : Option PayMethod} {orderStatus : Option OrderStatus} {orderId : Str}
  {row : OrderInfo} {w : World ι} {l : Session}

theorem Held.stable : (contract D).Stable t (Held t payMethod orderStatus orderId row) := by
  intro w l w' h hr _
  obtain ⟨row', hrow', hcore⟩ := h.stands
  obtain ⟨row'', hrow'', hcore'⟩ := hr.core _ _ hrow'
  refine
    { idle := h.idle
      filters := h.filters
      read := hr.log.symm ▸ h.read
      noHdel := hr.log.symm ▸ h.noHdel
      current := fun hundisturbed ↦ ?_
      stands := ⟨row'', hrow'', hcore'.trans hcore⟩ }
  obtain ⟨hdb, hundisturbed'⟩ := hr.undisturbed (List.ne_nil_of_mem h.read) hundisturbed
  rw [hdb]
  exact h.current hundisturbed'

theorem Held.hasRead {w : World ι} {l : Session}
    (h : Held t payMethod orderStatus orderId row w l) :
    HasRead t payMethod orderStatus (row.object orderId) w where
  read := (World.mem_log_iff.1 h.read).1
  current hundisturbed := ⟨row, h.current hundisturbed, rfl⟩

theorem Held.sound (w : World ι) (l : Session)
    (h : Held t payMethod orderStatus orderId row w l) : l.needsRollback = false :=
  Outside.sound w l h.idle

theorem Held.record (h : Held t payMethod orderStatus orderId row w l) (c : Cmd) (r : c.Resp)
    (hhdel : ∀ user fields, c ≠ .hdel user fields) :
    Held t payMethod orderStatus orderId row (w.record t c r) l where
  idle := h.idle
  filters := h.filters
  read := by rw [World.log_record_self]; exact List.mem_cons_of_mem _ h.read
  noHdel := by rw [World.log_record_self]; exact noHdel_cons_iff.2 ⟨hhdel, h.noHdel⟩
  current hundisturbed := h.current ((World.undisturbed_cons_iff rfl).1 hundisturbed)
  stands := h.stands

/-- Reading an order outside a transaction: it is held, or the lookup raises. -/
theorem safe_orderGet {Q : β → World ι → Session → Prop} {user : ℕ}
    {f : Except DbError OrderObject → Program Services β} (hidle : Outside w l ∧ w.log t = [])
    (herror : ∀ e w l, (contract D).inv w → Outside w l →
      Safe (site ι) (contract D) t Q (f (.error e)) w l)
    (hok : ∀ row w l, (contract D).inv w → row.user = user →
      Held t payMethod orderStatus orderId row w l → w.log t =
        [⟨t, .orderGet orderId user payMethod orderStatus, .ok (row.object orderId)⟩] →
      Safe (site ι) (contract D) t Q (f (.ok (row.object orderId))) w l) :
    Safe (site ι) (contract D) t Q (ask (.orderGet orderId user payMethod orderStatus) >>= f) w l := by
  refine safe_ask (stable_log Outside.stable fun log ↦ log = [])
    (fun w l h ↦ Outside.sound w l h.1) hidle ?_
  rintro w l r v l' hi ⟨hidle, hlog⟩ hrun
  have hguar : (contract D).Guar t w (w.record t (.orderGet orderId user payMethod orderStatus) r) :=
    guar_unseen hi (.refl t w) (by simp)
  obtain ⟨rfl, rfl, ⟨e, rfl⟩ | ⟨row, hrow, hmatches, rfl⟩⟩ := run_orderGet_cases hrun
  · exact ⟨hguar, herror e _ _ hguar.inv hidle⟩
  · obtain rfl := (OrderInfo.satisfies_iff.1 hmatches).1
    have hlog' := World.log_record_self v t (.orderGet orderId row.user payMethod orderStatus)
      (.ok (row.object orderId))
    rw [hlog] at hlog'
    have hcommitted : v.db.orders orderId = some row := by
      rw [hidle] at hrow
      exact hrow
    have hheld : Held t payMethod orderStatus orderId row (v.record t
        (.orderGet orderId row.user payMethod orderStatus) (.ok (row.object orderId))) l' :=
      ⟨hidle, hmatches, by rw [hlog']; exact List.mem_singleton_self _,
        by rw [hlog']; exact noHdel_cons_iff.2 ⟨fun _ _ ↦ by simp, noHdel_nil⟩, fun _ ↦ hcommitted,
        row, hcommitted, rfl⟩
    exact ⟨hguar, hok row _ _ hguar.inv rfl hheld hlog'⟩

/-- Saving a held order with another status and payment number. -/
theorem Held.save (h : Held t payMethod orderStatus orderId row w l) (hi : (contract D).inv w)
    {tradeNo : Option Str} {status : OrderStatus} {r : Except DbError Unit} {v : World ι}
    {l' : Session}
    (hrun : run t w l (.orderSave { row.object orderId with tradeNo, orderStatus := status }) =
      some (r, v, l'))
    (heffect : ∀ new w', Saved t { row.object orderId with tradeNo, orderStatus := status } new w w' →
      Effect request (D.pick t) t w w') :
    (contract D).Guar t w
      (v.record t (.orderSave { row.object orderId with tradeNo, orderStatus := status }) r) := by
  obtain ⟨e, rfl, -, rfl, rfl⟩ | ⟨new, rfl, hrow, hfree, hv⟩ := run_orderSave_cases hrun
  · exact guar_unseen hi (.refl t _) fun _ ↦ h.noHdel
  obtain ⟨-, hobject⟩ := OrderObject.row?_eq_some_iff.1 hrow
  obtain ⟨old, hold, hcore⟩ := h.stands
  have hnew : new.core = row.core := by
    rw [(OrderInfo.eq_of_object_eq hobject).1]
    rfl
  rw [World.writeOrder, h.idle, if_neg (by simp [Session.idle])] at hv
  obtain ⟨rfl, rfl⟩ := Prod.mk.inj hv
  have hunseen := (Unseen.refl t w).record_considerate
    (.orderSave { row.object orderId with tradeNo, orderStatus := status }) (.ok ())
  refine guar hi ?_ (heffect new _
    { fits := hrow, old := ⟨old, hold, hcore.trans hnew.symm⟩, db := rfl, carts := rfl,
      history := rfl, histories := rfl })
  refine
    { history := hunseen.history
      log := hunseen.log
      skuLock := hunseen.skuLock
      orderLock := hunseen.orderLock
      skus := hunseen.skus
      orders := ?_
      addrs := .refl _
      core := ?_
      lines := hunseen.lines
      linesOf := fun _ _ _ ↦ rfl
      recorded := fun hhistory ↦ absurd hhistory (List.cons_ne_self _ _) }
  · intro u hu k hk
    have hne : k ≠ orderId := by
      rintro rfl
      exact Locks.free_iff.1 hfree u hu hk
    exact Table.set_of_ne hne
  · intro k row₀ hrow₀
    by_cases hk : k = orderId
    · subst hk
      obtain rfl := Option.some.inj (hold.symm.trans hrow₀)
      exact ⟨new, Table.set_self .., hnew.trans hcore.symm⟩
    · exact ⟨row₀, (Table.set_of_ne hk).trans hrow₀, rfl⟩

end Held

/-! ### Paying and checking -/

section Payment

variable {req : HttpRequest} {w : World ι} {l : Session}

/-- What a reply of `OrderPayView` says: the pay URL asks for the price and the transit fee of an order
that stands. -/
def PayOutcome (reply : Reply) (w : World ι) : Prop :=
  ∀ orderId amount, reply.payment = some (orderId, amount) → ∃ row, w.db.orders orderId = some row ∧
    amount = decimalStr (row.totalPrice.val + row.transitPrice.val)

/-- **`OrderPayView.post` keeps the contract.** -/
theorem safe_pay (harrived : Arrived t w l) :
    Safe (site ι) (contract D) t (fun reply w _ ↦ PayOutcome reply w) (OrderPayView.post req) w l := by
  rw [OrderPayView.post]
  rcases req.user with - | user
  · exact safe_done fun _ _ _ _ h ↦ by cases h
  rcases horder : nonempty (req.POST "order_id".toList) with - | orderId
  · exact safe_done fun _ _ _ _ h ↦ by cases h
  simp only
  refine safe_orderGet harrived (fun e w l _ _ ↦ ?_) fun row w l _ _ hheld _ ↦ ?_
  · cases e <;> exact safe_done fun _ _ _ _ h ↦ by cases h
  refine Safe.ret Held.stable hheld fun w l _ hheld k amount h ↦ ?_
  -- the row may have been saved in the meantime, but not its prices
  obtain ⟨row', hrow', hcore⟩ := hheld.stands
  obtain ⟨rfl, rfl⟩ := Prod.mk.inj (Option.some.inj h)
  obtain ⟨-, hprice, htransit⟩ := OrderInfo.figures_eq hcore
  refine ⟨row', hrow', ?_⟩
  rw [hprice, htransit]
  rfl

/-- No answer that `t` has got from the gateway says that an order is paid. -/
def Unpaid (t : ι) (log : List (Event ι)) : Prop :=
  ∀ orderId answer, (⟨t, .tradeQuery orderId, answer⟩ : Event ι) ∈ log →
    OrderCheckView.paid answer = false

/-- What a reply of `OrderCheckView` says: with `res` 4 the gateway has never said that the order is
paid. -/
def CheckOutcome (t : ι) (reply : Reply) (w : World ι) : Prop :=
  reply.res = some 4 → Unpaid t (w.log t)

/-- The polling loop and what follows it. -/
theorem safe_awaitPayment {row : OrderInfo} {orderId : Str} (hreq : request t = .check req)
    (huser : req.user = some row.user)
    (h : Held t (some .alipay) (some .toPay) orderId row w l ∧ Unpaid t (w.log t)) :
    Safe (site ι) (contract D) t (fun reply w _ ↦ CheckOutcome t reply w)
      (OrderCheckView.awaitPayment orderId (row.object orderId)) w l := by
  refine Safe.poll (stable_log Held.stable (Unpaid t)) h ?_
  rintro w l r w' l' hi ⟨h, hunpaid⟩ hx
  obtain ⟨v, hrun, rfl⟩ := (exec_eq_some_iff (Held.sound w l h)).1 hx
  cases hrun
  have hlog := World.log_record_self w.popAnswer t
    (.tradeQuery orderId) (w.gateway 0)
  refine ⟨guar_unseen hi (.popAnswer t w) (by simp), ?_⟩
  have hheld := h.record (.tradeQuery orderId) (w.gateway 0) fun _ _ ↦ by simp
  have hheld' : Held t (some .alipay) (some .toPay) orderId row
      (World.record w.popAnswer t (.tradeQuery orderId)
        (w.gateway 0)) l :=
    ⟨hheld.idle, hheld.filters, hheld.read, hheld.noHdel, hheld.current, hheld.stands⟩
  have hstill : OrderCheckView.paid (w.gateway 0) = false →
      Unpaid t (World.log (World.record w.popAnswer t
        (.tradeQuery orderId) (w.gateway 0)) t) := by
    intro hpaid k answer hmem
    rw [hlog] at hmem
    rcases List.mem_cons.1 hmem with heq | hmem
    · cases heq
      exact hpaid
    · exact hunpaid k answer hmem
  cases hpaid : OrderCheckView.paid (w.gateway 0) with
  | false =>
    split
    · exact ⟨hheld', hstill hpaid⟩
    · show Safe _ _ _ _ (if OrderCheckView.paid (w.gateway 0) = true then _ else _) _ _
      rw [hpaid]
      exact Safe.ret (stable_log Held.stable (Unpaid t)) ⟨hheld', hstill hpaid⟩
        fun w l _ h _ ↦ h.2
  | true =>
    show Safe _ _ _ _ (if OrderCheckView.paid (w.gateway 0) = true then _ else _) _ _
    rw [if_pos hpaid]
    refine safe_ask (stable_log Held.stable fun log ↦
      (⟨t, .tradeQuery orderId, w.gateway 0⟩ : Event ι) ∈ log)
      (fun w l h ↦ Held.sound w l h.1) ⟨hheld', by rw [hlog]; exact List.mem_cons_self⟩ ?_
    rintro v l r v' l' hi ⟨h, hquery⟩ hrun
    refine ⟨h.save hi hrun fun new w' hsaved ↦ ?_, ?_⟩
    · have hfilters := OrderInfo.satisfies_iff.1 h.filters
      exact .paid (row.object orderId) (w.gateway 0) new
        { request := ⟨req, hreq, huser⟩
          read := h.hasRead
          payMethod := hfilters.2.1 _ rfl
          orderStatus := hfilters.2.2 _ rfl
          query := (World.mem_log_iff.1 hquery).1
          success := hpaid
          saved := hsaved }
    · rcases r with e | u
      · exact fun _ _ _ h ↦ by cases h
      · exact fun _ _ _ h ↦ by cases h

/-- **`OrderCheckView.post` keeps the contract.** -/
theorem safe_check (hreq : request t = .check req) (harrived : Arrived t w l) :
    Safe (site ι) (contract D) t (fun reply w _ ↦ CheckOutcome t reply w)
      (OrderCheckView.post req) w l := by
  rw [OrderCheckView.post]
  rcases huser : req.user with - | user
  · exact safe_done fun _ _ h ↦ by cases h
  rcases horder : nonempty (req.POST "order_id".toList) with - | orderId
  · exact safe_done fun _ _ h ↦ by cases h
  simp only
  refine safe_orderGet harrived (fun e w l _ _ ↦ ?_) fun row w l hi hrow hheld hlog ↦ ?_
  · cases e <;> exact safe_done fun _ _ h ↦ by cases h
  · refine safe_awaitPayment hreq (hrow ▸ huser) ⟨hheld, ?_⟩
    intro k answer hmem
    rw [hlog] at hmem
    cases List.mem_singleton.1 hmem

end Payment

/-! ### Reviewing -/

section Review

variable {req : HttpRequest} {orderId : Str} {row : OrderInfo} {w : World ι} {l : Session}

/-- A line that was read still stands at its place, up to its comment. -/
def Stands (id : ℕ) (line : OrderGoods) (w : World ι) (_ : Session) : Prop :=
  w.db.coreLines[id]? = some line.core

theorem Stands.stable {id : ℕ} {line : OrderGoods} : (contract D).Stable t (Stands id line) := by
  intro w l w' h hr _
  obtain ⟨hid, hline⟩ := List.getElem?_eq_some_iff.1 h
  have hget := List.prefix_iff_getElem?.1 hr.lines id hid
  rwa [hline] at hget

omit [DecidableEq ι] in
/-- Saving a line with another comment keeps the cores of all lines. -/
theorem Stands.set {id : ℕ} {line : OrderGoods} (h : Stands id line w l) (comment : CharField 156) :
    (w.db.lines.set id { line with comment }).map OrderGoods.core = w.db.coreLines := by
  obtain ⟨hid, hline⟩ := List.getElem?_eq_some_iff.1 h
  have hcore : ({ line with comment } : OrderGoods).core = w.db.coreLines[id] := hline.symm
  rw [List.map_set, hcore]
  exact List.set_getElem_self hid

/-- Saving one comment. -/
theorem safe_lineSave {Q : β → World ι → Session → Prop} {id : ℕ} {line : OrderGoods} {comment : Str}
    {f : Except DbError Unit → Program Services β} (hreq : request t = .comment req orderId)
    (huser : req.user = some row.user) (horder : line.order = orderId)
    (h : Held t none none orderId row w l ∧ Stands id line w l)
    (hnext : ∀ r w l, (contract D).inv w → Held t none none orderId row w l →
      Safe (site ι) (contract D) t Q (f r) w l) :
    Safe (site ι) (contract D) t Q (ask (.lineSave id line comment) >>= f) w l := by
  refine safe_ask (stable_and Held.stable Stands.stable) (fun w l h ↦ Held.sound w l h.1) h ?_
  rintro w l r v l' hi ⟨h, hstands⟩ hrun
  rw [run] at hrun
  have hunseen := (Unseen.refl t w).record_considerate (.lineSave id line comment) r
  split at hrun
  · cases hrun
    have hguar := guar_unseen hi (.refl t w) (c := .lineSave id line comment)
      (r := .error .dataError) (by simp)
    have hfail : l.fail = l := by
      rw [h.idle]
      rfl
    rw [hfail]
    exact ⟨hguar, hnext _ _ _ hguar.inv (h.record _ _ fun _ _ ↦ by simp)⟩
  · rename_i text _
    cases hrun
    have hcore := hstands.set text
    have hguar : (contract D).Guar t w (World.record
        { w with db := { w.db with lines := w.db.lines.set id { line with comment := text } } } t
          (.lineSave id line comment) (.ok ())) := by
      obtain ⟨row', hrow', hcores⟩ := h.stands
      have howner : row'.user = row.user := (OrderInfo.mk.inj hcores).1
      refine guar hi ?_ (.commented _ ⟨req, orderId, id, { line with comment := text }, row', hreq,
        howner ▸ huser, horder ▸ hrow', hstands, rfl⟩ hcore rfl rfl ⟨id, line, comment, rfl⟩ rfl)
      exact
        { history := hunseen.history
          log := hunseen.log
          skuLock := hunseen.skuLock
          orderLock := hunseen.orderLock
          skus := hunseen.skus
          orders := hunseen.orders
          addrs := .refl _
          core := hunseen.core
          lines := by
            show w.db.coreLines <+: (w.db.lines.set id _).map OrderGoods.core
            rw [hcore]
          linesOf := fun k _ _ ↦ congrArg (List.filter fun line : OrderGoods ↦ line.order = k) hcore
          recorded := fun hhistory ↦ absurd hhistory (List.cons_ne_self _ _) }
    have hrecord := h.record (.lineSave id line comment) (.ok ()) fun _ _ ↦ by simp
    exact ⟨hguar, hnext _ _ _ hguar.inv ⟨hrecord.idle, hrecord.filters, hrecord.read,
      hrecord.noHdel, hrecord.current, hrecord.stands⟩⟩

/-- The loop over the comments keeps hold of the order. -/
theorem safe_saveComments (hreq : request t = .comment req orderId)
    (huser : req.user = some row.user) (indices : List ℕ)
    (h : Held t none none orderId row w l) :
    Safe (site ι) (contract D) t (fun _ w l ↦ Held t none none orderId row w l)
      (CommentView.saveComments req orderId indices) w l := by
  induction indices generalizing w l with
  | nil => exact Safe.ret Held.stable h fun _ _ _ h ↦ h
  | cons i rest ih =>
    refine safe_read Held.stable Held.sound (c := .lineGet orderId _)
      (fun w l ↦ findLine (w.lines l) orderId _) h (fun _ _ ↦ rfl) (fun _ _ ↦ by simp) ?_
    intro w l hi h
    have hrecord := h.record (.lineGet orderId (req.POST ("sku_".toList ++ str i)))
      (findLine (w.lines l) orderId (req.POST ("sku_".toList ++ str i))) fun _ _ ↦ by simp
    rcases hfind : findLine (w.lines l) orderId (req.POST ("sku_".toList ++ str i)) with e | ⟨id, line⟩
    · rw [hfind] at hrecord
      cases e with
      | doesNotExist => exact ih hrecord
      | _ => exact Safe.ret Held.stable hrecord fun _ _ _ h ↦ h
    · rw [hfind] at hrecord
      have hlines : w.lines l = w.db.lines := by
        rw [World.lines, h.idle]
        exact List.append_nil _
      rw [hlines] at hfind
      have hstands : w.db.coreLines[id]? = some line.core := by
        rw [Db.coreLines, List.getElem?_map, (findLine_eq_ok hfind).1]
        rfl
      refine safe_lineSave hreq huser (findLine_eq_ok hfind).2 ⟨hrecord, hstands⟩ ?_
      rintro (e | u) w l hi h
      · exact Safe.ret Held.stable h fun _ _ _ h ↦ h
      · exact ih h

/-- **`CommentView.post` keeps the contract.** -/
theorem safe_comment {Q : Reply → World ι → Session → Prop}
    (hreq : request t = .comment req orderId) (harrived : Arrived t w l)
    (hQ : ∀ reply w l, Q reply w l) :
    Safe (site ι) (contract D) t Q (CommentView.post req orderId) w l := by
  rw [CommentView.post]
  rcases huser : req.user with - | user
  · exact safe_done (hQ _)
  show Safe _ _ _ _ (if orderId = [] then _ else _) _ _
  split
  · exact safe_done (hQ _)
  refine safe_orderGet harrived (fun e w l _ _ ↦ ?_) fun row w l hi hrow hheld _ ↦ ?_
  · exact safe_done (hQ _)
  have huser' : req.user = some row.user := by rw [huser, hrow]
  rcases (req.POST "total_count".toList).bind int with - | n
  · exact safe_done (hQ _)
  simp only
  refine safe_bind hi (safe_saveComments hreq huser' _ hheld) fun done w l hi hheld ↦ ?_
  cases done with
  | false => exact safe_done (hQ _)
  | true =>
    refine safe_ask Held.stable Held.sound hheld fun w l r v l' hi h hrun ↦ ?_
    refine ⟨h.save hi hrun fun new w' hsaved ↦ ?_, ?_⟩
    · exact .finished (row.object orderId) new ⟨⟨req, orderId, hreq, huser'⟩, h.hasRead, hsaved⟩
    · rcases r with e | u
      · exact safe_done (hQ _)
      · exact safe_done (hQ _)

end Review

/-! ### The site -/

/-- What a reply says about what the request has done. -/
def Outcome (request : ι → Request) (t : ι) (reply : Reply) (w : World ι) (_ : Session) : Prop :=
  match request t with
  | .commit .. => CheckoutOutcome request t reply w
  | .pay _ => PayOutcome reply w
  | .check _ => CheckOutcome t reply w
  | _ => True

theorem safe_handler {w : World ι} {l : Session} (hi : (contract D).inv w) (h : Arrived t w l) :
    Safe (site ι) (contract D) t (Outcome request t) (request t).handler w l := by
  cases hreq : request t with
  | commit now req =>
    refine (safe_commit hreq h).mono fun reply w l _ ho ↦ ?_
    rw [Outcome, hreq]
    exact ho
  | pay req =>
    refine (safe_pay h).mono fun reply w l _ ho ↦ ?_
    rw [Outcome, hreq]
    exact ho
  | check req =>
    refine (safe_check hreq h).mono fun reply w l _ ho ↦ ?_
    rw [Outcome, hreq]
    exact ho
  | place req skuIds => exact safe_place hi h.1 fun _ _ _ ↦ by rw [Outcome, hreq]; trivial
  | commentForm req orderId => exact safe_commentForm h.1 fun _ _ _ ↦ by rw [Outcome, hreq]; trivial
  | comment req orderId => exact safe_comment hreq h fun _ _ _ ↦ by rw [Outcome, hreq]; trivial
  | cartAdd req => exact safe_cartAdd hreq h fun _ _ _ ↦ by rw [Outcome, hreq]; trivial
  | cartInfo req => exact safe_cartInfo h.1 fun _ _ _ ↦ by rw [Outcome, hreq]; trivial
  | cartUpdate req => exact safe_cartUpdate hreq h.1 fun _ _ _ ↦ by rw [Outcome, hreq]; trivial
  | cartDelete req => exact safe_cartDelete hreq h.1 fun _ _ _ ↦ by rw [Outcome, hreq]; trivial
  | index req => exact safe_cartCount h.1 fun _ _ _ ↦ by rw [Outcome, hreq]; trivial
  | detail req goodsId => exact safe_detail hreq h.1 fun _ _ _ ↦ by rw [Outcome, hreq]; trivial
  | list req typeId page => exact safe_list h.1 fun _ _ _ ↦ by rw [Outcome, hreq]; trivial
  | userInfo req => exact safe_userInfo h.1 fun _ _ _ ↦ by rw [Outcome, hreq]; trivial
  | address req => exact safe_address hreq h.1 fun _ _ _ ↦ by rw [Outcome, hreq]; trivial
  | adminEdit id edit => exact safe_adminEdit hreq h.1 fun _ _ _ ↦ by rw [Outcome, hreq]; trivial

/-- **The site is safe** when it starts. -/
theorem allSafe_start {db : Db} {carts : ℕ → Cart} {gateway : ℕ → Answer} (hlinked : db.Linked)
    (hinv : D.inv (.initial db carts gateway)) :
    AllSafe (site ι) (contract D) (Outcome request) (start db carts gateway request) :=
  ⟨⟨hlinked, hinv⟩, fun _ ↦ safe_handler ⟨hlinked, hinv⟩ ⟨rfl, rfl⟩⟩

/-- A request may die at any point. -/
theorem abortOk (D : Discipline request) : AbortOk (site ι) (contract D) (Outcome request) where
  guar _ _ _ hi := guar_abort hi
  crash t w l := by
    rw [Outcome]
    cases request t with
    | commit now req => exact ⟨fun h ↦ (by cases h), fun _ h ↦ (by cases h)⟩
    | pay req => exact fun _ _ h ↦ (by cases h)
    | check req => exact fun h ↦ (by cases h)
    | _ => trivial

/-! ### Runs of the site -/

section Runs

variable {db : Db} {carts : ℕ → Cart} {gateway : ℕ → Answer}
  {s s' : State Services ι (World ι) Session Reply} {m : Move ι}

/-- A step adds the executed command to the history. -/
theorem next_step_history (h : (site ι).next s (.step t) = some s') :
    ∃ c r l, (s.prog t).next? = some c ∧ exec t s.world (s.loc t) c = some (r, s'.world, l) ∧
      s'.world.history = ⟨t, c, r⟩ :: s.world.history := by
  obtain ⟨c, r, w, l, p, hc, hx, rfl⟩ := (site ι).next_step_exec h
  exact ⟨c, r, l, hc, hx, exec_history hx⟩

/-- A kill leaves the tables, the carts and the history. -/
theorem next_kill_world (h : (site ι).next s (.kill t) = some s') :
    s'.world = s.world.release t := by
  obtain ⟨-, rfl⟩ := (site ι).next_kill_cases h
  rfl

/-- The invariant of a discipline holds in every state of a run. -/
theorem inv_of_reach (D : Discipline request) (hlinked : db.Linked)
    (hinv : D.inv (.initial db carts gateway))
    (hs : (site ι).Reach AnyMove (start db carts gateway request) s) : D.inv s.world :=
  (Contract.sound (abortOk D) (allSafe_start hlinked hinv) hs).1.2

/-- Every line has its order in every state of a run. -/
theorem linked_of_reach (hlinked : db.Linked)
    (hs : (site ι).Reach AnyMove (start db carts gateway request) s) : s.world.db.Linked :=
  (Contract.sound (abortOk (noDiscipline request)) (allSafe_start hlinked trivial) hs).1.1

/-- What every move of a run promises. -/
theorem promise_of_reach (D : Discipline request) (hlinked : db.Linked)
    (hinv : D.inv (.initial db carts gateway))
    (hs : (site ι).Reach AnyMove (start db carts gateway request) s)
    (hn : (site ι).next s m = some s') : Promise D m.process s.world s'.world :=
  (Contract.sound_move (abortOk D) (allSafe_start hlinked hinv) hs hn).promise

/-- What a reply says, in every state of a run. -/
theorem outcome_of_reach (D : Discipline request) (hlinked : db.Linked)
    (hinv : D.inv (.initial db carts gateway))
    (hs : (site ι).Reach AnyMove (start db carts gateway request) s) {reply : Reply}
    (hreply : (s.prog t).result? = some reply) : Outcome request t reply s.world (s.loc t) :=
  Contract.sound_result (abortOk D) (allSafe_start hlinked hinv) hs
    (Program.result?_eq_some_iff.1 hreply)

/-- The history only grows. -/
theorem history_suffix (h : (site ι).Reach AnyMove s s') : s.world.history <:+ s'.world.history := by
  induction h with
  | refl => exact List.suffix_rfl
  | @move s₁ s₂ m _ _ hn ih =>
    cases m with
    | step t =>
      obtain ⟨c, r, l, -, -, hhistory⟩ := next_step_history hn
      exact ih.trans (hhistory ▸ List.suffix_cons _ _)
    | kill t =>
      rw [next_kill_world hn]
      exact ih

end Runs

end DailyFresh
