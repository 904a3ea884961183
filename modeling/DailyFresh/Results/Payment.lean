import DailyFresh.Results.StaleSave

/-!
# No order is paid without the gateway

The status "to review" stands for money received. Three views save whole order rows: a checkout saves
its own new order with status 1, a review saves status 5, and only `OrderCheckView` saves status 4 —
the object it read, after the gateway has answered *its* query for *that* order with success, with the
payment number of that answer. Any number of polling loops of any length run interleaved with stale
saves of the other views, and none of them can forge the status or carry a payment number from one
order to another.

* `PaidFor`: what the history of all commands says about a paid order;
* `paid_by_gateway`: every order in status 4 stood so at the start or is `PaidFor`, and a check whose
  answers do not say that the order is paid has changed no row.
-/

namespace DailyFresh

open Python Store Interleave

variable {ι : Type} [DecidableEq ι] {request : ι → Request} {db : Db} {carts : ℕ → Cart}
  {gateway : ℕ → Answer} {s : State Services ι (World ι) Session Reply}

/-- The order is an Alipay order, and the gateway has answered a query for its id, sent by a check of
its owner, with code 10000 and `TRADE_SUCCESS`; its payment number is that of the answer. -/
structure PaidFor (request : ι → Request) (orderId : Str) (row : OrderInfo)
    (history : List (Event ι)) : Prop where
  payMethod : row.payMethod = .alipay
  answered : ∃ t req answer, request t = .check req ∧ req.user = some row.user ∧
    (⟨t, .tradeQuery orderId, answer⟩ : Event ι) ∈ history ∧
    answer.code = some "10000".toList ∧ answer.tradeStatus = some "TRADE_SUCCESS".toList ∧
    answer.tradeNo = some row.tradeNo.val

omit [DecidableEq ι] in
theorem PaidFor.mono {orderId : Str} {row : OrderInfo} {history history' : List (Event ι)}
    (h : PaidFor request orderId row history) (hsuffix : history <:+ history') :
    PaidFor request orderId row history' := by
  obtain ⟨t, req, answer, hreq, huser, hmem, hanswer⟩ := h.answered
  exact ⟨h.payMethod, t, req, answer, hreq, huser, hsuffix.subset hmem, hanswer⟩

omit [DecidableEq ι] in
/-- A row with the same owner, pay method and payment number. -/
theorem PaidFor.congr {orderId : Str} {row row' : OrderInfo} {history : List (Event ι)}
    (h : PaidFor request orderId row history) (huser : row'.user = row.user)
    (hpayMethod : row'.payMethod = row.payMethod) (htradeNo : row'.tradeNo = row.tradeNo) :
    PaidFor request orderId row' history := by
  refine ⟨hpayMethod.trans h.payMethod, ?_⟩
  rw [huser, htradeNo]
  exact h.answered

/-- An order that a check has saved is paid for. -/
theorem Paid.paidFor {t : ι} {order : OrderObject} {answer : Answer} {row : OrderInfo}
    {w w' : World ι} (h : Paid request t order answer row w w') :
    PaidFor request order.orderId row w'.history := by
  have hobject := (OrderObject.row?_eq_some_iff.1 h.saved.fits).2
  obtain ⟨req, hreq, huser⟩ := h.request
  have hrowUser : row.user = order.user := congrArg OrderObject.user hobject
  have hrowPay : row.payMethod = order.payMethod := congrArg OrderObject.payMethod hobject
  have hrowTrade : some row.tradeNo.val = answer.tradeNo := congrArg OrderObject.tradeNo hobject
  have hanswer := OrderCheckView.paid_iff.1 h.success
  exact ⟨hrowPay.trans h.payMethod, t, req, answer, hreq, hrowUser ▸ huser,
    h.saved.history_suffix.subset h.query, hanswer.1, hanswer.2, hrowTrade.symm⟩

/-- Every order in status 4 stood so in `db`, or it is paid for. -/
def GatewayBacked (request : ι → Request) (db : Db) (w : World ι) : Prop :=
  ∀ k row, w.db.orders k = some row → row.orderStatus = .toReview →
    db.orders k = some row ∨ PaidFor request k row w.history

section Step

variable {t : ι} {w w' : World ι} {pick : Prop → Pick → Prop}

omit [DecidableEq ι] in
/-- The orders stay. -/
theorem GatewayBacked.of_orders_eq (h : GatewayBacked request db w)
    (horders : w'.db.orders = w.db.orders) (hhistory : w.history <:+ w'.history) :
    GatewayBacked request db w' := by
  intro k row hrow hstatus
  rw [horders] at hrow
  exact (h k row hrow hstatus).imp_right fun hpaid ↦ hpaid.mono hhistory

omit [DecidableEq ι] in
/-- One order is written; if its new status is 4, it has to be paid for. -/
theorem GatewayBacked.set (h : GatewayBacked request db w) {orderId : Str} {new : OrderInfo}
    (horders : w'.db.orders = w.db.orders.set orderId new) (hhistory : w.history <:+ w'.history)
    (hnew : new.orderStatus = .toReview → PaidFor request orderId new w'.history) :
    GatewayBacked request db w' := by
  intro k row hrow hstatus
  rw [horders] at hrow
  rcases eq_or_ne k orderId with rfl | hk
  · rw [Table.set_self] at hrow
    obtain rfl := Option.some.inj hrow
    exact .inr (hnew hstatus)
  · rw [Table.set_of_ne hk] at hrow
    exact (h k row hrow hstatus).imp_right fun hpaid ↦ hpaid.mono hhistory

/-- **No command forges a payment.** -/
theorem GatewayBacked.effect (h : GatewayBacked request db w)
    (heffect : Effect request pick t w w') : GatewayBacked request db w' := by
  have hhistory := heffect.history_suffix
  obtain hsame | ⟨r, hplaced⟩ | ⟨order, answer, row, hpaid⟩ | ⟨order, row, hfinished⟩ :=
    heffect.orders_cases
  · exact h.of_orders_eq hsame hhistory
  · -- a new order waits to be paid
    refine h.set hplaced.orders hhistory fun hstatus ↦ ?_
    have hobject := (OrderObject.row?_eq_some_iff.1 hplaced.of.row).2
    have htoPay : r.row.orderStatus = .toPay := congrArg OrderObject.orderStatus hobject
    rw [htoPay] at hstatus
    cases hstatus
  · exact h.set hpaid.saved.orders hhistory fun _ ↦ hpaid.paidFor
  · -- a review ends in status 5, not 4
    refine h.set hfinished.saved.orders hhistory fun hstatus ↦ ?_
    have hobject := (OrderObject.row?_eq_some_iff.1 hfinished.saved.fits).2
    have hrow : row.orderStatus = .finished := congrArg OrderObject.orderStatus hobject
    rw [hrow] at hstatus
    cases hstatus

end Step

/-- The discipline of payments. -/
def payments (request : ι → Request) (db : Db) : Discipline request :=
  .ofInvariant (GatewayBacked request db) fun _ h heffect ↦ h.effect heffect

/-! ### Checks without success -/

/-- All answers that the gateway has given to `t` say that the order may still be paid. -/
def OnlyWaiting (t : ι) (w : World ι) : Prop :=
  ∀ orderId answer, (⟨t, .tradeQuery orderId, answer⟩ : Event ι) ∈ w.history →
    OrderCheckView.waiting answer = true

/-- A check whose answers do not say that the order is paid has changed no row. -/
theorem unpaid_unchanged {t : ι} {req : HttpRequest} (hreq : request t = .check req)
    (hlinked : db.Linked) {ms : List (Move ι)}
    (hms : (site ι).perform (start db carts gateway request) ms = some s)
    (hunpaid : Unpaid t (s.world.log t)) :
    (site ι).AllMoves (fun s m s' ↦ m.process = t → s'.world.db = s.world.db) ms
      (start db carts gateway request) := by
  refine Machine.allMoves_of_perform (fun s₁ m s₂ hs hnext hs' hm ↦ ?_) .refl hms
  have heffect := (promise_of_reach (noDiscipline request) hlinked trivial hs hnext).effect
  rw [hm] at heffect
  rcases heffect.check_cases hreq with hq | ⟨order, answer, hquery, hsuccess⟩
  · exact hq
  · -- the success that allowed the save is an answer that `t` has got
    have hstep : (site ι).Reach AnyMove s₁ s₂ := .move .refl trivial hnext
    have hmem := (history_suffix hstep).subset hquery
    have hlog := World.mem_log_iff.2 ⟨(history_suffix hs').subset hmem, rfl⟩
    exact absurd hsuccess (by rw [hunpaid _ _ hlog]; exact Bool.false_ne_true)

/-- **No order is marked paid without the gateway saying so**, in any run of the site: an order in
status 4 stood so at the start or is paid for; and a check that ends in the failure reply, or has only
seen waiting answers, has changed no row. -/
theorem paid_by_gateway (hlinked : db.Linked) {ms : List (Move ι)}
    (hms : (site ι).perform (start db carts gateway request) ms = some s) :
    (∀ k row, s.world.db.orders k = some row → row.orderStatus = .toReview →
      db.orders k = some row ∨ PaidFor request k row s.world.history) ∧
    ∀ t req, request t = .check req →
      ((∃ reply, (s.prog t).result? = some reply ∧ reply.res = some 4) ∨ OnlyWaiting t s.world) →
      (site ι).AllMoves (fun s m s' ↦ m.process = t → s'.world.db = s.world.db) ms
        (start db carts gateway request) := by
  have hreach := (site ι).reach_of_perform hms
  refine ⟨?_, fun t req hreq h ↦ unpaid_unchanged hreq hlinked hms ?_⟩
  · exact inv_of_reach (payments request db) hlinked (fun k row hrow _ ↦ .inl hrow) hreach
  · rcases h with ⟨reply, hreply, hres⟩ | hwaiting
    · have houtcome := outcome_of_reach (noDiscipline request) hlinked trivial hreach hreply
      rw [Outcome, hreq] at houtcome
      exact houtcome hres
    · intro orderId answer hmem
      exact OrderCheckView.paid_eq_false_of_waiting
        (hwaiting _ _ (World.mem_log_iff.1 hmem).1)

/-- A gateway that waits for the buyer, then refuses one query, and then says that all is paid. -/
def hesitant : ℕ → Answer
  | 0 => { code := some "10000".toList, tradeStatus := some "WAIT_BUYER_PAY".toList, tradeNo := none }
  | 1 => { code := some "40006".toList, tradeStatus := none, tradeNo := none }
  | _ + 2 => paying 0

/-- Two checks of one order: the first one waits, the second one is refused, then the first one
succeeds. -/
theorem paid_by_gateway_hesitant : ∃ s row, (site (Fin 2)).perform
      (start orderedShop (fun _ ↦ ∅) hesitant fun _ ↦ checkIt)
      [.step 0, .step 0, .step 1, .step 1, .step 0, .step 0] = some s ∧
    s.world.db.orders "202004210930007".toList = some row ∧ row.orderStatus = .toReview ∧
    PaidFor (fun _ ↦ checkIt) "202004210930007".toList row s.world.history ∧
    (site (Fin 2)).AllMoves (fun s m s' ↦ m.process = 1 → s'.world.db = s.world.db)
      [.step 0, .step 0, .step 1, .step 1, .step 0, .step 0]
      (start orderedShop (fun _ ↦ ∅) hesitant fun _ ↦ checkIt) := by
  have hrun : ((site (Fin 2)).perform (start orderedShop (fun _ ↦ ∅) hesitant fun _ ↦ checkIt)
      [.step 0, .step 0, .step 1, .step 1, .step 0, .step 0]).map
      (fun s ↦ (s.world.db.orders "202004210930007".toList, (s.prog 1).result?)) =
        some (some { toBePaid with
          orderStatus := .toReview
          tradeNo := ⟨"2017032121001004070200176844".toList, by decide⟩ },
          some (.errmsg 4 "支付失败")) := by rfl
  obtain ⟨s, hs, hvalues⟩ := Option.map_eq_some_iff.1 hrun
  obtain ⟨hrow, hreply⟩ := Prod.mk.inj hvalues
  obtain ⟨hpaid, hunchanged⟩ := paid_by_gateway orderedShop_linked hs
  refine ⟨s, _, hs, hrow, rfl, ?_, hunchanged 1 _ rfl (.inl ⟨_, hreply, rfl⟩)⟩
  refine (hpaid _ _ hrow rfl).resolve_left fun h ↦ ?_
  have hstatus : OrderStatus.toPay = .toReview :=
    congrArg OrderInfo.orderStatus (Option.some.inj ((rfl : some toBePaid = _).trans h))
  cases hstatus

end DailyFresh
