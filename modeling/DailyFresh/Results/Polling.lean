import DailyFresh.Alone.Commands
import DailyFresh.Results.StaleSave

/-!
# How long a payment is polled

The loop of `OrderCheckView.post` has no counter and no deadline: it asks the gateway until an answer
says something else than that the order may still be paid. `check_replies_iff` says when that is the end
of it: for an order that waits for payment, the view comes to one of the loop's replies exactly if the
stream of answers is `Decisive`. With a gateway that knows of no trade it never does
(`check_never_replies`).
-/

namespace DailyFresh

open Python Store Interleave OrderCommitView OrderCheckView

/-- Some answer is not one to wait after; and the first one of these, if it says that the order has been
paid, comes with a payment number that fits its column. -/
def Decisive (answers : ℕ → Answer) : Prop :=
  ∃ n, (∀ i < n, waiting (answers i) = true) ∧ waiting (answers n) = false ∧
    (paid (answers n) = true → ∃ tradeNo, (answers n).tradeNo = some tradeNo ∧ tradeNo.length ≤ 128)

variable {ι : Type} [DecidableEq ι] {t : ι} {w : World ι}

/-- The world after one query of the gateway. -/
def afterQuery (t : ι) (orderId : Str) (w : World ι) : World ι :=
  w.popAnswer.record t (.tradeQuery orderId) (w.gateway 0)

omit [DecidableEq ι] in
/-- Queries only use up answers. -/
theorem afterQuery_iterate (t : ι) (orderId : Str) (k : ℕ) (w : World ι) :
    (∀ i, ((afterQuery t orderId)^[k] w).gateway i = w.gateway (i + k)) ∧
      ((afterQuery t orderId)^[k] w).db = w.db ∧
      ((afterQuery t orderId)^[k] w).orderLock = w.orderLock := by
  induction k generalizing w with
  | zero => exact ⟨fun _ ↦ rfl, rfl, rfl⟩
  | succ k ih =>
    obtain ⟨hgateway, hdb, hlock⟩ := ih (afterQuery t orderId w)
    rw [Function.iterate_succ_apply]
    refine ⟨fun i ↦ ?_, hdb, hlock⟩
    rw [hgateway i]
    show w.gateway (i + k + 1) = w.gateway (i + (k + 1))
    rw [Nat.add_assoc]

/-- The loop goes on exactly after the answers that say to wait. -/
theorem again_eq_waiting (answer : Answer) : (!paid answer && waiting answer) = waiting answer := by
  by_cases h : waiting answer = true
  · rw [h, paid_eq_false_of_waiting h]
    rfl
  · rw [Bool.eq_false_iff.2 h, Bool.and_false]

/-- **The loop's queries**: it asks until the first answer that does not say to wait. -/
theorem pollUntil_tradeQuery_iff {orderId : Str} {n : ℕ} {x : Answer × World ι × Session} :
    (site ι).pollUntil t (.tradeQuery orderId) (fun r ↦ !paid r && waiting r) n w .idle = some x ↔
      ∃ k < n, (∀ i < k, waiting (w.gateway i) = true) ∧ waiting (w.gateway k) = false ∧
        x = (w.gateway k, (afterQuery t orderId)^[k + 1] w, .idle) := by
  have hanswer : ∀ k, ((afterQuery t orderId)^[k] w).gateway 0 = w.gateway k := fun k ↦ by
    rw [(afterQuery_iterate t orderId k w).1, Nat.zero_add]
  have hexec : ∀ v : World ι, (site ι).exec t v .idle (.tradeQuery orderId) =
      some (v.gateway 0, afterQuery t orderId v, .idle) := fun _ ↦ rfl
  rw [Machine.pollUntil_eq_some_iff hexec]
  simp only [hanswer, again_eq_waiting]

/-- What the loop does with the answer that ends it. -/
def conclude (order : OrderObject) (response : Answer) : Program Services Reply := do
  if paid response then
    match ← ask (.orderSave
        { order with tradeNo := response.tradeNo, orderStatus := .toReview }) with
    | .ok () => pure (.message 3 "支付成功")
    | .error _ => pure .error
  else
    pure (.errmsg 4 "支付失败")

/-- An order with another payment number can be stored exactly if that number fits its column. -/
theorem row?_paid_iff {orderId : Str} (hlen : orderId.length ≤ 128) (row : OrderInfo)
    (tradeNo : Option Str) :
    (∃ new, ({ row.object orderId with tradeNo, orderStatus := .toReview } : OrderObject).row? =
      some new) ↔ ∃ number, tradeNo = some number ∧ number.length ≤ 128 := by
  constructor
  · rintro ⟨new, hnew⟩
    obtain ⟨-, hobject⟩ := OrderObject.row?_eq_some_iff.1 hnew
    obtain ⟨-, htrade⟩ := OrderInfo.eq_of_object_eq hobject
    exact ⟨new.tradeNo.val, htrade, new.tradeNo.2⟩
  · rintro ⟨number, rfl, hnumber⟩
    exact ⟨{ row with orderStatus := .toReview, tradeNo := ⟨number, hnumber⟩ },
      OrderObject.row?_eq_some_iff.2 ⟨hlen, rfl⟩⟩

/-- The end of the loop is one of its replies unless a payment number does not fit. -/
theorem ends_conclude {orderId : Str} (hlen : orderId.length ≤ 128) (row : OrderInfo)
    (hfree : w.orderLock orderId = none) (answer : Answer) (n : ℕ) :
    (site ι).Ends t n (fun reply _ _ ↦ (reply.res = some 3 ∨ reply.res = some 4) ↔
        (paid answer = true →
          ∃ tradeNo, answer.tradeNo = some tradeNo ∧ tradeNo.length ≤ 128))
      (conclude (row.object orderId) answer) w .idle := by
  rw [conclude]
  by_cases hpaid : paid answer = true
  · rw [if_pos hpaid]
    have hstore := row?_paid_iff hlen row answer.tradeNo
    refine ends_orderSave hfree (fun hnone ↦ .ret ?_) fun new hnew ↦ .ret ?_
    · have hrefused : ¬ ∃ tradeNo, answer.tradeNo = some tradeNo ∧ tradeNo.length ≤ 128 := by
        rw [← hstore, hnone]
        simp
      simp [hpaid, hrefused]
    · have hfits := hstore.1 ⟨new, hnew⟩
      simp [hfits]
  · rw [if_neg hpaid]
    exact .ret (by simp [hpaid])

/-- The loop is a poll and its end. -/
theorem solo_awaitPayment (orderId : Str) (order : OrderObject) (n : ℕ) :
    (site ι).solo t n (awaitPayment orderId order) w .idle =
      ((site ι).pollUntil t (.tradeQuery orderId) (fun r ↦ !paid r && waiting r) n w .idle).bind
        fun x ↦ (site ι).solo t n (conclude order x.1) x.2.1 x.2.2 := by
  have hloop : awaitPayment orderId order =
      .poll (.tradeQuery orderId) (fun r ↦ !paid r && waiting r) (conclude order) := by
    rw [awaitPayment, Program.poll_bind]
    refine congrArg _ (funext fun response ↦ ?_)
    rw [Program.pure_eq, Program.ret_bind, conclude]
    refine congrArg (ite _ · _) (congrArg (Program.call _) (funext fun r ↦ ?_))
    rcases r with e | ⟨⟩
    · rfl
    · rfl
  rw [hloop, Machine.solo_poll]

/-- **The loop alone** ends in one of its replies exactly with a decisive answer within its rounds. -/
theorem ends_awaitPayment_iff {orderId : Str} (hlen : orderId.length ≤ 128) (row : OrderInfo)
    (hfree : w.orderLock orderId = none) (n : ℕ) :
    (site ι).Ends t n (fun reply _ _ ↦ reply.res = some 3 ∨ reply.res = some 4)
        (awaitPayment orderId (row.object orderId)) w .idle ↔
      ∃ k < n, (∀ i < k, waiting (w.gateway i) = true) ∧ waiting (w.gateway k) = false ∧
        (paid (w.gateway k) = true →
          ∃ tradeNo, (w.gateway k).tradeNo = some tradeNo ∧ tradeNo.length ≤ 128) := by
  have hend : ∀ k, (site ι).Ends t n (fun reply _ _ ↦ (reply.res = some 3 ∨ reply.res = some 4) ↔
      (paid (w.gateway k) = true →
        ∃ tradeNo, (w.gateway k).tradeNo = some tradeNo ∧ tradeNo.length ≤ 128))
      (conclude (row.object orderId) (w.gateway k)) ((afterQuery t orderId)^[k + 1] w) .idle := by
    intro k
    refine ends_conclude hlen row ?_ (w.gateway k) n
    rw [(afterQuery_iterate t orderId (k + 1) w).2.2, hfree]
  constructor
  · rintro ⟨reply, w', l', hrun, hres⟩
    rw [solo_awaitPayment] at hrun
    obtain ⟨x, hpoll, hrest⟩ := Option.bind_eq_some_iff.1 hrun
    obtain ⟨k, hk, hbefore, hlast, rfl⟩ := pollUntil_tradeQuery_iff.1 hpoll
    exact ⟨k, hk, hbefore, hlast, ((hend k).of_solo hrest).1 hres⟩
  · rintro ⟨k, hk, hbefore, hlast, hfits⟩
    obtain ⟨reply, w', l', hrest, hiff⟩ := hend k
    refine ⟨reply, w', l', ?_, hiff.2 hfits⟩
    rw [solo_awaitPayment, pollUntil_tradeQuery_iff.2 ⟨k, hk, hbefore, hlast, rfl⟩, Option.bind_some, hrest]

/-- With answers that all say to wait, the loop does not come to an end. -/
theorem awaitPayment_never (orderId : Str) (order : OrderObject)
    (hwaiting : ∀ i, waiting (w.gateway i) = true) (n : ℕ) :
    (site ι).solo t n (awaitPayment orderId order) w .idle = none := by
  rw [solo_awaitPayment, Option.bind_eq_none_iff]
  intro x hpoll
  obtain ⟨k, -, -, hlast, -⟩ := pollUntil_tradeQuery_iff.1 hpoll
  exact absurd hlast (by rw [hwaiting k]; simp)

/-- The check of an order that waits for its Alipay payment is the loop. -/
theorem solo_check {request : HttpRequest} {orderId : Str} {row : OrderInfo}
    (huser : request.user = some row.user)
    (hid : nonempty (request.POST "order_id".toList) = some orderId)
    (hrow : w.db.orders orderId = some row) (hmethod : row.payMethod = .alipay)
    (hstatus : row.orderStatus = .toPay) (n : ℕ) :
    (site ι).solo t n (OrderCheckView.post request) w .idle =
      (site ι).solo t n (awaitPayment orderId (row.object orderId))
        (w.record t (.orderGet orderId row.user (some .alipay) (some .toPay))
          (.ok (row.object orderId))) .idle := by
  have hsatisfies : row.satisfies row.user (some .alipay) (some .toPay) = true := by
    rw [OrderInfo.satisfies_iff]
    exact ⟨rfl, fun m hm ↦ hmethod.trans (Option.some.inj hm),
      fun s hs ↦ hstatus.trans (Option.some.inj hs)⟩
  have hrun : run t w .idle (.orderGet orderId row.user (some .alipay) (some .toPay)) =
      some (.ok (row.object orderId), w, .idle) :=
    run_orderGet_of_satisfies hrow hsatisfies
  have hexec : (site ι).exec t w .idle _ = _ := (exec_eq_some_iff rfl).2 ⟨w, hrun, rfl⟩
  rw [OrderCheckView.post]
  simp only [huser, hid]
  exact Machine.solo_call_of_exec hexec

/-- **When polling ends.** An order of the user waits for its Alipay payment, and nobody else is moving:
then the view comes to one of the loop's replies exactly if the gateway's answers are decisive. -/
theorem check_replies_iff {request : HttpRequest} {orderId : Str} {row : OrderInfo}
    (huser : request.user = some row.user)
    (hid : nonempty (request.POST "order_id".toList) = some orderId) (hlen : orderId.length ≤ 128)
    (hrow : w.db.orders orderId = some row) (hmethod : row.payMethod = .alipay)
    (hstatus : row.orderStatus = .toPay) (hfree : w.orderLock orderId = none) :
    (∃ n reply w' l', (site ι).solo t n (OrderCheckView.post request) w .idle =
        some (reply, w', l') ∧ (reply.res = some 3 ∨ reply.res = some 4)) ↔
      Decisive w.gateway := by
  have hsolo := solo_check (t := t) huser hid hrow hmethod hstatus
  have hloop := fun n ↦ ends_awaitPayment_iff (t := t) (w := w.record t
    (.orderGet orderId row.user (some .alipay) (some .toPay)) (.ok (row.object orderId))) hlen row
    hfree n
  constructor
  · rintro ⟨n, reply, w', l', h, hres⟩
    rw [hsolo] at h
    obtain ⟨k, -, hk⟩ := (hloop n).1 ⟨reply, w', l', h, hres⟩
    exact ⟨k, hk⟩
  · rintro ⟨k, hk⟩
    obtain ⟨reply, w', l', h, hres⟩ := (hloop (k + 1)).2 ⟨k, by omega, hk⟩
    exact ⟨k + 1, reply, w', l', by rw [hsolo, h], hres⟩

/-- User 7's form to check the order. -/
def checkForm : HttpRequest where
  user := some 7
  POST := formData [("order_id", "202004210930007")]

/-- The buyer pays while the view is waiting. -/
def paidLate : ℕ → Answer
  | 0 => { code := some "40004".toList, tradeStatus := none, tradeNo := none }
  | 1 => { code := some "10000".toList, tradeStatus := some "WAIT_BUYER_PAY".toList, tradeNo := none }
  | _ + 2 => paying 0

/-- Two answers to wait after, then the payment. -/
theorem check_replies_paidLate : ∃ n reply w' l', (site (Fin 1)).solo 0 n
      (OrderCheckView.post checkForm) (.initial orderedShop (fun _ ↦ ∅) paidLate) .idle =
        some (reply, w', l') ∧ (reply.res = some 3 ∨ reply.res = some 4) := by
  have hrow : orderedShop.orders "202004210930007".toList = some toBePaid := rfl
  refine (check_replies_iff (by rfl) (by rfl) (by decide) hrow (by rfl) (by rfl) (by rfl)).2 ?_
  refine ⟨2, ?_, rfl, fun _ ↦ ⟨_, rfl, by decide⟩⟩
  show ∀ i < 2, waiting (paidLate i) = true
  decide

/-- A gateway that knows of no trade. -/
def noTrade : ℕ → Answer := fun _ ↦ { code := some "40004".toList, tradeStatus := none, tradeNo := none }

/-- **Polling for ever**: the buyer never opens the payment page, and the view never returns. -/
theorem check_never_replies : ¬ ∃ n reply w' l', (site (Fin 1)).solo 0 n
    (OrderCheckView.post checkForm) (.initial orderedShop (fun _ ↦ ∅) noTrade) .idle =
      some (reply, w', l') := by
  rintro ⟨n, reply, w', l', hsolo⟩
  have hrow : orderedShop.orders "202004210930007".toList = some toBePaid := rfl
  rw [solo_check (by rfl) (by rfl) hrow (by rfl) (by rfl)] at hsolo
  rw [awaitPayment_never _ _ (fun _ ↦ rfl)] at hsolo
  cases hsolo

end DailyFresh
