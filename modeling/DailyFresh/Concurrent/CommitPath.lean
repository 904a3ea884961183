import DailyFresh.Concurrent.Requests
import DailyFresh.Interleave.Monitor

/-!
# The paths of a checkout

Up to the point where its order has been saved, a checkout writes no cart; then it deletes the requested
fields, and the next thing it does is to commit. Its conditional updates ask for the stock that it has read
last, and write figures that follow from that row and one count. `CommitPath` says so for every point of
every path of `OrderCommitView.post`, whatever it is answered.

A monitor whose invariant is kept by what is sent for one item accepts the item (`accepts_tryItem`). If it
also leaves alone what is sent around the `try` block, it accepts the checkout as soon as it accepts the
block (`accepts_post`).
-/

namespace DailyFresh

open Python Store Interleave Program OrderCommitView

variable {ι : Type} {t : ι} {es : List (Event ι)} {α β : Type}

/-- The command writes a cart. -/
def Cmd.writesCart : Cmd → Bool
  | hset .. => true
  | hdel .. => true
  | _ => false

/-- The product row that a lookup has answered. -/
def Event.readSku : Event ι → Option (ℕ × GoodsSKU)
  | ⟨_, .skuGet _, .ok x⟩ => some x
  | _ => none

/-- The product row that has been read last. -/
def lastRead (es : List (Event ι)) : Option (ℕ × GoodsSKU) := es.findSome? Event.readSku

/-- What a checkout sends as long as it writes no cart: never a product as a whole, and a conditional
update only with the figures of the row that it has read last. -/
def Cmd.Carrying (es : List (Event ι)) : Cmd → Prop
  | hset .. => False
  | hdel .. => False
  | skuSave .. => False
  | skuUpdate _ orginStock newStock newSales => ∃ n sku count, lastRead es = some (n, sku) ∧
      orginStock = sku.stock.val ∧ newStock = sku.stock.val - count ∧ newSales = sku.sales.val + count
  | _ => True

/-- No cart has been deleted from, and nothing has been committed. -/
structure Ongoing (es : List (Event ι)) : Prop where
  noHdel : NoHdel es
  noCommit : ∀ e ∈ es, e.cmd ≠ .commit

/-- No cart has been deleted from, and none is written next. -/
structure CartUntouched (es : List (Event ι)) (p : Program Services α) : Prop extends Ongoing es where
  next : ∀ c, p.next? = some c → c.Carrying es

/-- How far a checkout has come. -/
inductive CommitStage (t : ι) (es : List (Event ι)) (p : Program Services Reply) : Prop where
  /-- It has not deleted from a cart. -/
  | carrying (noHdel : NoHdel es) (noCommit : ∀ e ∈ es, e.cmd ≠ .commit)
  /-- It has just deleted from the cart, and commits next. -/
  | cleared (user : ℕ) (fields : List Str) (es' : List (Event ι))
      (eq : es = ⟨t, .hdel user fields, ()⟩ :: es') (noHdel : NoHdel es')
      (next : p.next? = some .commit) (noCommit : ∀ e ∈ es', e.cmd ≠ .commit)
  /-- It has ended its transaction; if it has deleted from the cart before, it replies `res` 5. -/
  | ended (es' : List (Event ι)) (eq : es = ⟨t, .commit, ()⟩ :: es') (returned : p.next? = none)
      (reply : NoHdel es' ∨ ∃ reply, p.result? = some reply ∧ reply.res = some 5)

/-- What holds at every point of a path of `OrderCommitView.post`. -/
structure CommitPath (t : ι) (es : List (Event ι)) (p : Program Services Reply) : Prop where
  stage : CommitStage t es p
  next : ∀ c, p.next? = some c → (∃ user fields, c = .hdel user fields) ∨ c.Carrying es

theorem CommitPath.noHset {p : Program Services Reply} (h : CommitPath t es p) (user : ℕ) (field : Str)
    (value : ℤ) : p.next? ≠ some (.hset user field value) := by
  intro hnext
  obtain ⟨_, _, heq⟩ | hcarrying := h.next _ hnext
  · cases heq
  · exact hcarrying

/-- A deletion from the cart is the first one, and the commit is next. -/
theorem CommitPath.of_hdel {p : Program Services Reply} {user : ℕ} {fields : List Str}
    (h : CommitPath t (⟨t, .hdel user fields, ()⟩ :: es) p) :
    NoHdel es ∧ p.next? = some .commit := by
  cases h.stage with
  | carrying hnone => exact absurd rfl (hnone _ List.mem_cons_self _ _)
  | cleared user' fields' es' heq hnone hnext =>
    obtain ⟨-, rfl⟩ := List.cons.inj heq
    exact ⟨hnone, hnext⟩
  | ended es' heq => cases (List.cons.inj heq).1

/-- A commit after a deletion is the end, with `res` 5. -/
theorem CommitPath.of_commit {p : Program Services Reply} (h : CommitPath t (⟨t, .commit, ()⟩ :: es) p)
    (hsome : ¬ NoHdel es) : ∃ reply, p.result? = some reply ∧ reply.res = some 5 := by
  cases h.stage with
  | carrying hnone => exact absurd (noHdel_cons_iff.1 hnone).2 hsome
  | cleared user' fields' es' heq => cases (List.cons.inj heq).1
  | ended es' heq _ hreply =>
    obtain ⟨-, rfl⟩ := List.cons.inj heq
    exact hreply.resolve_left hsome

/-- A checkout that sends another command has not committed yet. -/
theorem CommitPath.noCommit {p : Program Services Reply} (h : CommitPath t es p) {c : Cmd}
    (hc : p.next? = some c) : ∀ e ∈ es, e.cmd ≠ .commit := by
  cases h.stage with
  | carrying _ hcommit => exact hcommit
  | cleared user fields es' heq _ _ hcommit =>
    intro e he
    rw [heq] at he
    rcases List.mem_cons.1 he with rfl | he
    · simp
    · exact hcommit e he
  | ended es' heq hreturned =>
    rw [hreturned] at hc
    cases hc

/-! ### Before the cart is cleared -/

theorem ongoing_nil : Ongoing ([] : List (Event ι)) := ⟨noHdel_nil, fun _ h ↦ by cases h⟩

theorem untouched_ret {a : α} (hes : Ongoing es) :
    Throughout (Event.mk t) CartUntouched (.ret a : Program Services α) es :=
  ⟨hes, fun _ h ↦ by cases h⟩

/-- A command that writes no cart and is no commit. -/
theorem Ongoing.cons {c : Cmd} (r : c.Resp) (hes : Ongoing es) (hc : c.Carrying es)
    (hcommit : c ≠ .commit) : Ongoing (⟨t, c, r⟩ :: es) where
  noHdel := by
    refine noHdel_cons_iff.2 ⟨fun user fields hcmd ↦ ?_, hes.noHdel⟩
    have hcmd' : c = .hdel user fields := hcmd
    rw [hcmd'] at hc
    exact hc
  noCommit e he := by
    rcases List.mem_cons.1 he with rfl | he
    · exact hcommit
    · exact hes.noCommit e he

theorem untouched_ask {c : Cmd} {f : c.Resp → Program Services α} (hes : Ongoing es)
    (hc : c.Carrying es) (hcommit : c ≠ .commit)
    (h : ∀ r, Ongoing (⟨t, c, r⟩ :: es) → Throughout (Event.mk t) CartUntouched (f r) (⟨t, c, r⟩ :: es)) :
    Throughout (Event.mk t) CartUntouched (ask c >>= f) es :=
  ⟨⟨hes, fun _ hc' ↦ Option.some.inj hc' ▸ hc⟩, fun r ↦ h r (hes.cons r hc hcommit)⟩

theorem untouched_bind {p : Program Services α} {f : α → Program Services β}
    (hp : Throughout (Event.mk t) CartUntouched p es)
    (hf : ∀ a es, Ongoing es → Throughout (Event.mk t) CartUntouched (f a) es) :
    Throughout (Event.mk t) CartUntouched (p >>= f) es := by
  refine hp.bind (fun es q hq hnone ↦ ⟨hq.toOngoing, fun c hc ↦ hq.next c ?_⟩) fun es a ha ↦
    hf a es ha.toOngoing
  cases q with
  | ret a => cases hnone
  | call c' k => exact hc
  | poll c' again k => exact hc

theorem untouched_rollbackAndReply (res : ℤ) (errmsg : String) (hes : Ongoing es) :
    Throughout (Event.mk t) CartUntouched (rollbackAndReply (α := α) res errmsg) es := by
  refine untouched_ask hes trivial nofun fun r hes ↦ ?_
  rcases r with e | u
  · exact untouched_ret hes
  · exact untouched_ret hes

theorem untouched_recordItem (orderId : Str) (n : ℕ) (sku : GoodsSKU) (count : ℤ) (totals : Totals)
    (hes : Ongoing es) :
    Throughout (Event.mk t) CartUntouched (recordItem orderId n sku count totals) es := by
  refine untouched_ask hes trivial nofun fun r hes ↦ ?_
  rcases r with e | u
  · exact untouched_ret hes
  · exact untouched_ret hes

/-- The attempts at one item, by induction on those that are left. -/
theorem untouched_tryItem (user : ℕ) (orderId skuId : Str) (totals : Totals) (attempts : List ℕ)
    (hes : Ongoing es) :
    Throughout (Event.mk t) CartUntouched (tryItem user orderId skuId totals attempts) es := by
  induction attempts generalizing es with
  | nil => exact untouched_ret hes
  | cons i rest ih =>
    refine untouched_ask hes trivial nofun fun r hes ↦ ?_
    rcases r with e | ⟨n, sku⟩
    · exact untouched_rollbackAndReply _ _ hes
    refine untouched_ask hes trivial nofun fun r hes ↦ ?_
    rcases r with - | count
    · exact untouched_ret hes
    dsimp only
    split
    · exact untouched_rollbackAndReply _ _ hes
    -- the row that has been read last is the one that this attempt has read
    refine untouched_ask hes ⟨n, sku, count, rfl, rfl, rfl, rfl⟩ nofun fun r hes ↦ ?_
    split
    · exact untouched_ret hes
    · split
      · exact untouched_rollbackAndReply _ _ hes
      · exact ih hes
    · exact untouched_recordItem _ _ _ _ _ hes

/-- The loop over the items, by induction on what is left of it. -/
theorem untouched_takeItems (user : ℕ) (orderId : Str) (ids : List Str) (totals : Totals)
    (hes : Ongoing es) :
    Throughout (Event.mk t) CartUntouched (takeItems user orderId ids totals) es := by
  induction ids generalizing es totals with
  | nil => exact untouched_ret hes
  | cons id ids ih =>
    refine untouched_bind (untouched_tryItem _ _ _ _ _ hes) fun flow es hes ↦ ?_
    rcases flow with totals | r | -
    · exact ih totals hes
    · exact untouched_ret hes
    · exact untouched_ret hes

theorem untouched_placeOrder (order : OrderObject) (ids : List Str) (hes : Ongoing es) :
    Throughout (Event.mk t) CartUntouched (placeOrder order ids) es := by
  refine untouched_ask hes trivial nofun fun r hes ↦ ?_
  rcases r with e | u
  · exact untouched_ret hes
  refine untouched_bind (untouched_takeItems _ _ _ _ hes) fun flow es hes ↦ ?_
  rcases flow with totals | r | -
  · refine untouched_ask hes trivial nofun fun r hes ↦ ?_
    rcases r with e | u
    · exact untouched_ret hes
    · exact untouched_ret hes
  · exact untouched_ret hes
  · exact untouched_ret hes

/-! ### The whole request -/

/-- What holds at every point of a path of the view without its decorator. -/
structure BodyPath (t : ι) (es : List (Event ι)) (p : Program Services (Option Reply)) : Prop where
  stage : Ongoing es ∨ ∃ user fields es' reply, es = ⟨t, .hdel user fields, ()⟩ :: es' ∧ Ongoing es' ∧
    p = .ret (some reply) ∧ reply.res = some 5
  next : ∀ c, p.next? = some c → (∃ user fields, c = .hdel user fields) ∨ c.Carrying es

theorem bodyPath_ret {reply : Option Reply} (hes : Ongoing es) :
    Throughout (Event.mk t) (BodyPath t) (.ret reply : Program Services (Option Reply)) es :=
  ⟨.inl hes, fun _ h ↦ by cases h⟩

theorem bodyPath_ask {c : Cmd} {f : c.Resp → Program Services (Option Reply)} (hes : Ongoing es)
    (hc : c.Carrying es) (hcommit : c ≠ .commit)
    (h : ∀ r, Ongoing (⟨t, c, r⟩ :: es) → Throughout (Event.mk t) (BodyPath t) (f r) (⟨t, c, r⟩ :: es)) :
    Throughout (Event.mk t) (BodyPath t) (ask c >>= f) es :=
  ⟨⟨.inl hes, fun _ hc' ↦ .inr (Option.some.inj hc' ▸ hc)⟩,
    fun r ↦ h r (hes.cons r hc hcommit)⟩

theorem throughout_body (positions : List Str → List Str) (now : LocalTime) (req : HttpRequest)
    (hes : Ongoing es) : Throughout (Event.mk t) (BodyPath t) (body positions now req) es := by
  rw [body]
  rcases req.user with - | user
  · exact bodyPath_ret hes
  rcases nonempty (req.POST "addr_id".toList) with - | addrId
  · exact bodyPath_ret hes
  rcases nonempty (req.POST "pay_method".toList) with - | payMethod
  · exact bodyPath_ret hes
  rcases nonempty (req.POST "sku_ids".toList) with - | skuIds
  · exact bodyPath_ret hes
  dsimp only
  split
  · exact bodyPath_ret hes
  refine bodyPath_ask hes trivial (fun h ↦ by cases h) fun r hes ↦ ?_
  rcases r with e | ⟨addr, a⟩
  · cases e <;> exact bodyPath_ret hes
  refine bodyPath_ask hes trivial (fun h ↦ by cases h) fun _ hes ↦ ?_
  refine (untouched_placeOrder _ _ hes).bind (fun es q hq hnone ↦ ?_) fun es flow hflow ↦ ?_
  · -- while the `try:` block runs, the view sends what the block sends
    refine ⟨.inl hq.toOngoing, fun c hc ↦ .inr (hq.next c ?_)⟩
    cases q with
    | ret a => cases hnone
    | call c' k => exact hc
    | poll c' again k => exact hc
  have hes := hflow.toOngoing
  rcases flow with u | r | -
  · -- the items are taken: the cart is cleared, and `res` 5 is what is left
    refine ⟨⟨.inl hes, fun c hc ↦ .inl ⟨_, _, (Option.some.inj hc).symm⟩⟩,
      fun _ ↦ ⟨?_, fun _ h ↦ by cases h⟩⟩
    exact .inr ⟨_, _, es, _, rfl, hes, rfl, rfl⟩
  · exact bodyPath_ret hes
  · refine bodyPath_ask hes trivial (fun h ↦ by cases h) fun r hes ↦ ?_
    rcases r with e | u
    · exact bodyPath_ret hes
    · exact bodyPath_ret hes

theorem Ongoing.carrying {p : Program Services Reply} (hes : Ongoing es) : CommitStage t es p :=
  .carrying hes.noHdel hes.noCommit

/-- **The paths of `OrderCommitView.post`.** -/
theorem throughout_post (now : LocalTime) (req : HttpRequest) :
    Throughout (Event.mk t) (CommitPath t) (post now req) [] := by
  have hsends : ∀ {es : List (Event ι)} {c c' : Cmd}, c.Carrying es → some c = some c' →
      (∃ user fields, c' = .hdel user fields) ∨ c'.Carrying es :=
    fun hc heq ↦ .inr (Option.some.inj heq ▸ hc)
  refine ⟨⟨ongoing_nil.carrying, fun _ ↦ hsends trivial⟩, fun r ↦ ?_⟩
  have hes := ongoing_nil.cons (t := t) (c := .atomicEnter) r trivial nofun
  refine (throughout_body id now req hes).bind (fun es q hq hnone ↦ ?_) fun es reply hreply ↦ ?_
  · refine ⟨?_, fun c hc ↦ hq.next c ?_⟩
    · obtain hes | ⟨_, _, _, _, _, _, rfl, -⟩ := hq.stage
      · exact hes.carrying
      · cases hnone
    · cases q with
      | ret a => cases hnone
      | call c' k => exact hc
      | poll c' again k => exact hc
  · -- the decorator: a rollback if an exception has left the view, else the commit
    rcases reply with - | reply
    · obtain hes | ⟨_, _, _, _, _, _, h, -⟩ := hreply.stage
      · exact ⟨⟨hes.carrying, fun _ ↦ hsends trivial⟩, fun r ↦
          ⟨(hes.cons (c := .rollback) r trivial nofun).carrying, fun _ h ↦ by cases h⟩⟩
      · cases h
    · obtain hes | ⟨user, fields, es', _, rfl, hes, hreply, hres⟩ := hreply.stage
      · exact ⟨⟨hes.carrying, fun _ ↦ hsends trivial⟩, fun _ ↦
          ⟨.ended es rfl rfl (.inl hes.noHdel), fun _ h ↦ by cases h⟩⟩
      · cases hreply
        exact ⟨⟨.cleared user fields es' rfl hes.noHdel rfl hes.noCommit, fun _ ↦ hsends trivial⟩,
          fun _ ↦ ⟨.ended _ rfl rfl (.inr ⟨_, rfl, hres⟩), fun _ h ↦ by cases h⟩⟩

/-! ### Monitors -/

section Monitors

variable {G : Type} {M : Monitor Services G} {I : G → Prop} {g : G} {skuId : Str}

/-- What a checkout sends for one item. -/
def Cmd.OfItem (skuId : Str) : Cmd → Prop
  | skuGet id => id = skuId
  | hget .. => True
  | skuUpdate id .. => id = skuId
  | lineCreate _ => True
  | savepointRollback => True
  | _ => False

theorem accepts_rollbackAndReply (h : M.Keeps I (Cmd.OfItem skuId)) (hg : I g) (res : ℤ)
    (errmsg : String) : M.Accepts (fun _ g ↦ I g) (rollbackAndReply (α := α) res errmsg) g := by
  refine .keep h hg trivial fun r g hg ↦ ?_
  rcases r with e | ⟨⟩
  · exact hg
  · exact hg

theorem accepts_recordItem (h : M.Keeps I (Cmd.OfItem skuId)) (hg : I g) (orderId : Str) (n : ℕ)
    (sku : GoodsSKU) (count : ℤ) (totals : Totals) :
    M.Accepts (fun _ g ↦ I g) (recordItem orderId n sku count totals) g := by
  refine .keep h hg trivial fun r g hg ↦ ?_
  rcases r with e | ⟨⟩
  · exact hg
  · exact hg

/-- **One item**, by induction on the attempts that are left. -/
theorem accepts_tryItem (h : M.Keeps I (Cmd.OfItem skuId)) (hg : I g) (user : ℕ) (orderId : Str)
    (totals : Totals) (attempts : List ℕ) :
    M.Accepts (fun _ g ↦ I g) (tryItem user orderId skuId totals attempts) g := by
  induction attempts generalizing g with
  | nil => exact hg
  | cons i attempts ih =>
    rw [tryItem]
    refine .keep h hg rfl fun r g hg ↦ ?_
    rcases r with e | ⟨n, sku⟩
    · exact accepts_rollbackAndReply h hg _ _
    refine .keep h hg trivial fun count g hg ↦ ?_
    rcases count with - | count
    · exact hg
    dsimp only
    split
    · exact accepts_rollbackAndReply h hg _ _
    refine .keep h hg rfl fun res g hg ↦ ?_
    rcases res with e | _ | k
    · exact hg
    · show M.Accepts _ (if i = 2 then _ else _) _
      split
      · exact accepts_rollbackAndReply h hg _ _
      · exact ih hg
    · exact accepts_recordItem h hg _ _ _ _ _

/-- **The loop** over the items. -/
theorem accepts_takeItems (h : ∀ skuId, M.Keeps I (Cmd.OfItem skuId)) (hg : I g) (user : ℕ) (orderId : Str)
    (ids : List Str) (totals : Totals) :
    M.Accepts (fun _ g ↦ I g) (takeItems user orderId ids totals) g := by
  induction ids generalizing g totals with
  | nil => exact hg
  | cons skuId ids ih =>
    refine (accepts_tryItem (h skuId) hg user orderId totals (List.range 2)).bind fun flow g hg ↦ ?_
    rcases flow with totals | reply | -
    · exact ih hg totals
    · exact hg
    · exact hg

/-- **The `try` block** creates the order, takes the items and saves the totals. -/
theorem accepts_placeOrder {Q : Flow Totals → G → Prop} {order : OrderObject} {ids : List Str}
    (hcreate : M.allowed g (.orderCreate order)) (hsave : ∀ g order, M.allowed g (.orderSave order))
    (hitems : M.Accepts Q (takeItems order.user order.orderId ids { count := 0, price := 0 })
      (M.after g (.orderCreate order) (.ok ()))) :
    M.Accepts (fun _ _ ↦ True) (placeOrder order ids) g := by
  refine .send hcreate fun r ↦ ?_
  rcases r with e | ⟨⟩
  · trivial
  refine hitems.bind fun flow g _ ↦ ?_
  rcases flow with totals | reply | -
  · refine .send (hsave g _) fun r ↦ ?_
    rcases r with e | ⟨⟩
    · trivial
    · trivial
  · trivial
  · trivial

/-- What a checkout sends around its `try` block. -/
def Cmd.Around : Cmd → Prop
  | atomicEnter => True
  | addressGet _ => True
  | savepoint => True
  | savepointRollback => True
  | hdel .. => True
  | commit => True
  | rollback => True
  | _ => False

/-- **A monitor of a checkout**: if it always allows what is sent around the `try` block, and stays where it
is, it accepts the checkout if it accepts the block. -/
theorem accepts_post {now : LocalTime} {req : HttpRequest}
    (haround : ∀ g c, Cmd.Around c → M.allowed g c ∧ ∀ r, M.after g c r = g)
    (htry : ∀ c addr, req.Asks c →
      M.Accepts (fun _ _ ↦ True) (placeOrder (newOrder now c.user addr c.payMethod) c.ids) g) :
    M.Accepts (fun _ _ ↦ True) (post now req) g := by
  have hsend : ∀ {β : Type} {c : Cmd} {f : c.Resp → Program Services β} {g : G}, Cmd.Around c →
      (∀ r, M.Accepts (fun _ _ ↦ True) (f r) g) → M.Accepts (fun _ _ ↦ True) (ask c >>= f) g := by
    intro β c f g hc hf
    obtain ⟨hallowed, hafter⟩ := haround g c hc
    exact .send hallowed fun r ↦ (hafter r).symm ▸ hf r
  have hbody : M.Accepts (fun _ _ ↦ True) (body id now req) g := by
    rw [body]
    rcases huser : req.user with - | user
    · trivial
    rcases haddr : nonempty (req.POST "addr_id".toList) with - | addrId
    · trivial
    rcases hpay : nonempty (req.POST "pay_method".toList) with - | payMethod
    · trivial
    rcases hids : nonempty (req.POST "sku_ids".toList) with - | skuIds
    · trivial
    dsimp only
    rcases hmethod : PAY_METHODS.lookup payMethod with - | method
    · trivial
    have hasks : req.Asks ⟨user, addrId, method, skuIds⟩ := ⟨huser, haddr, ⟨payMethod, hpay, hmethod⟩, hids⟩
    refine hsend trivial fun r ↦ ?_
    rcases r with e | ⟨addr, a⟩
    · cases e with
      | _ => trivial
    refine hsend trivial fun _ ↦ (htry _ addr hasks).bind fun flow g _ ↦ ?_
    rcases flow with - | reply | -
    · exact hsend trivial fun _ ↦ trivial
    · trivial
    · refine hsend trivial fun r ↦ ?_
      rcases r with e | ⟨⟩
      · trivial
      · trivial
  refine hsend trivial fun _ ↦ hbody.bind fun reply g _ ↦ ?_
  rcases reply with - | reply
  · exact hsend trivial fun _ ↦ trivial
  · exact hsend trivial fun _ ↦ trivial

end Monitors

/-! ### About to commit -/

/-- The command of a checkout that deletes from the cart. -/
def Event.clears : Event ι → Bool
  | ⟨_, .hdel .., _⟩ => true
  | _ => false

theorem noHdel_of_clears {es : List (Event ι)} (h : es.any Event.clears = true) : ¬ NoHdel es := by
  intro hnone
  obtain ⟨e, he, hclears⟩ := List.any_eq_true.1 h
  unfold Event.clears at hclears
  split at hclears
  · exact hnone _ he _ _ rfl
  · cases hclears

variable [DecidableEq ι] {request : ι → Request}
  {s s' : State Services ι (World ι) Session Reply} {m : Move ι}

theorem Event.Plain.writesCart {w : World ι} {c : Cmd} {r : c.Resp}
    (h : Event.Plain w ⟨t, c, r⟩) : c.writesCart = false := by
  cases c with
  | hset => cases h
  | hdel => cases h
  | _ => rfl

/-- The request is about to commit, and has cleared a cart. -/
def committing (s : State Services ι (World ι) Session Reply) (t : ι) : Bool :=
  (s.prog t).next? = some .commit && (s.world.log t).any Event.clears

/-- A step of a checkout that changes neither tables nor carts: it is not about to commit an order, neither
before nor after. -/
theorem not_committing_of_quiet {t : ι} {c : Cmd} {r : c.Resp} (hc : (s.prog t).next? = some c)
    (hhistory : s'.world.history = ⟨t, c, r⟩ :: s.world.history) (hquiet : Quiet t s.world s'.world)
    (hpath : CommitPath t (s'.world.log t) (s'.prog t)) :
    c.writesCart = false ∧ committing s t = false ∧ committing s' t = false := by
  have hplain := hquiet.plain hhistory
  have hwrites := hplain.writesCart
  refine ⟨hwrites, Bool.eq_false_iff.2 fun h ↦ ?_, Bool.eq_false_iff.2 fun h ↦ ?_⟩
  · -- before: the command would be the commit, and a plain commit has cleared no cart
    obtain ⟨hnext, hclears⟩ := Bool.and_eq_true_iff.1 h
    obtain rfl := Option.some.inj (hc.symm.trans (of_decide_eq_true hnext))
    exact noHdel_of_clears hclears hplain
  · obtain ⟨hnext, hclears⟩ := Bool.and_eq_true_iff.1 h
    cases hpath.stage with
    | carrying hnone => exact noHdel_of_clears hclears hnone
    | cleared user fields es' heq =>
      rw [World.log_cons_self hhistory] at heq
      cases (List.cons.inj heq).1
      cases hwrites
    | ended es' heq hreturned => cases hreturned.symm.trans (of_decide_eq_true hnext)

/-- A move that commits an order is the step of a checkout that has cleared the cart. -/
theorem committing_of_placed {pick : Prop → Pick → Prop} {r : Receipt}
    (hn : (site ι).next s m = some s') (h : Placed request pick m.process r s.world s'.world) :
    m = .step m.process ∧ committing s m.process = true := by
  cases m with
  | kill t =>
    have hhistory : s'.world.history = s.world.history := by
      rw [next_kill_world hn]
      rfl
    exact absurd (h.history.symm.trans hhistory) (List.cons_ne_self _ _)
  | step t =>
    obtain ⟨c, x, l, hc, -, hhistory⟩ := next_step_history hn
    obtain ⟨hevent, -⟩ := List.cons.inj (hhistory.symm.trans h.history)
    cases hevent
    refine ⟨rfl, ?_⟩
    show (decide ((s.prog t).next? = some .commit) && (s.world.log t).any Event.clears) = true
    rw [hc, decide_eq_true rfl, Bool.true_and]
    exact List.any_eq_true.2 ⟨_, h.of.hdel, rfl⟩

/-! ### Checkouts in a run -/

section Reach

variable {db : Db} {carts : ℕ → Cart} {gateway : ℕ → Answer}
  {ok : State Services ι (World ι) Session Reply → Move ι → Prop} {now : LocalTime} {req : HttpRequest}

omit [DecidableEq ι] in
theorem throughout_handler (hreq : request t = .commit now req) :
    Throughout (Event.mk t) (CommitPath t) (request t).handler [] := by
  rw [hreq]
  exact throughout_post now req

/-- A checkout that is about to send a command is on one of its paths. -/
theorem commitPath_of_next (hreq : request t = .commit now req)
    (hs : (site ι).Reach ok (start db carts gateway request) s) {c : Cmd}
    (hc : (s.prog t).next? = some c) :
    Throughout (Event.mk t) (CommitPath t) (s.prog t) (s.world.log t) :=
  Throughout.of_reach_of_next site_logs (throughout_handler hreq) hs hc

/-- A checkout that takes a step is on one of its paths, before and after it. -/
theorem commitPath_of_step (hreq : request t = .commit now req)
    (hs : (site ι).Reach ok (start db carts gateway request) s)
    (hn : (site ι).next s (.step t) = some s') :
    CommitPath t (s.world.log t) (s.prog t) ∧ CommitPath t (s'.world.log t) (s'.prog t) := by
  obtain ⟨c, r, l, hc, -⟩ := next_step_history hn
  have hpath := commitPath_of_next hreq hs hc
  exact ⟨hpath.now, (hpath.next site_logs hn (by simp)).now⟩

end Reach

end DailyFresh
