import DailyFresh.Results.Payment
import Mathlib.Data.Fintype.Basic

/-!
# The life cycle of an order

Requests handled one at a time: no read is stale. An order is meant to go from status 1 (to pay) to 4
(to review) by a check, and from 4 to 5 (finished) by a review. `OrderPayView` and `OrderCheckView`
look for orders in status 1 only; `CommentView.post` looks for an order of any status, so it finishes
orders that have never been paid (`unpaid_finished`), which neither of the other two finds any more.

`life_cycle_iff` says that this is all that goes wrong: a run keeps to the life cycle, and its finished
Alipay orders are paid, if and only if reviews are saved over orders in status 4 or 5 only.
-/

namespace DailyFresh

open Python Store Interleave

variable {ι : Type} [DecidableEq ι] {request : ι → Request} {db : Db} {carts : ℕ → Cart}
  {gateway : ℕ → Answer} {s s' : State Services ι (World ι) Session Reply}

/-! ### One request at a time -/

/-- The move does not interrupt another request: every other one has returned or has not begun. -/
def OneAtATime (s : State Services ι (World ι) Session Reply) (m : Move ι) : Prop :=
  ∀ u, u ≠ m.process → (s.prog u).result?.isSome = true ∨ s.world.log u = []

instance [Fintype ι] (s : State Services ι (World ι) Session Reply) :
    DecidablePred (OneAtATime s) :=
  fun m ↦ inferInstanceAs (Decidable (∀ u, u ≠ m.process →
    (s.prog u).result?.isSome = true ∨ s.world.log u = []))

/-- Among requests handled one at a time, a request under way is undisturbed. -/
theorem undisturbed_of_oneAtATime (hs : (site ι).Reach OneAtATime (start db carts gateway request) s)
    (t : ι) : (s.prog t).result?.isSome = true ∨ s.world.Undisturbed t := by
  refine hs.invariant (I := fun s ↦ (s.prog t).result?.isSome = true ∨ s.world.Undisturbed t)
    (.inr List.prefix_rfl) fun s m s' ih hone hn ↦ ?_
  rcases eq_or_ne t m.process with rfl | ht
  · cases m with
    | step t =>
      obtain ⟨c, r, l, hc, -, hhistory⟩ := next_step_history hn
      rcases ih with hreturned | hundisturbed
      · cases hprog : s.prog t with
        | ret a =>
          rw [hprog] at hc
          cases hc
        | _ =>
          rw [Move.process, hprog] at hreturned
          cases hreturned
      · exact .inr ((World.undisturbed_cons_iff hhistory).2 hundisturbed)
    | kill t =>
      obtain ⟨-, rfl⟩ := (site ι).next_kill_cases hn
      exact .inl (by rw [Move.process, State.put_prog_self]; rfl)
  · -- the request that stands still has returned, or has not begun
    obtain ⟨hprog, -⟩ := (site ι).next_other hn ht
    rcases hone t ht with hreturned | hlog
    · exact .inl (by rw [hprog, hreturned])
    · right
      have hlog' : s'.world.log t = [] := by
        cases m with
        | step u =>
          obtain ⟨c, r, l, -, -, hhistory⟩ := next_step_history hn
          rw [World.log_cons_of_ne ht hhistory, hlog]
        | kill u =>
          rw [next_kill_world hn]
          exact hlog
      rw [World.Undisturbed, hlog']
      exact List.nil_prefix

/-- A request that moves is under way, so it is undisturbed. -/
theorem undisturbed_of_next (hs : (site ι).Reach OneAtATime (start db carts gateway request) s)
    {t : ι} (hn : (site ι).next s (.step t) = some s') : s.world.Undisturbed t := by
  refine (undisturbed_of_oneAtATime hs t).resolve_left fun hreturned ↦ ?_
  -- a request that has returned does not move
  obtain ⟨c, r, l, hc, -, -⟩ := next_step_history hn
  cases hprog : s.prog t with
  | ret a =>
    rw [hprog] at hc
    cases hc
  | _ =>
    rw [hprog] at hreturned
    cases hreturned

/-! ### Status changes -/

/-- From `row` to `row'` request `t` has kept the status, or it is a check and has taken it from 1 to 4,
or it is a review and has taken it from 4 to 5. -/
def Advances (request : ι → Request) (t : ι) (row row' : OrderInfo) : Prop :=
  row'.orderStatus = row.orderStatus ∨
  (row.orderStatus = .toPay ∧ row'.orderStatus = .toReview ∧ ∃ req, request t = .check req) ∨
  (row.orderStatus = .toReview ∧ row'.orderStatus = .finished ∧
    ∃ req orderId, request t = .comment req orderId)

/-- Every order advances. -/
def Cycle (request : ι → Request) (s : State Services ι (World ι) Session Reply) (m : Move ι)
    (s' : State Services ι (World ι) Session Reply) : Prop :=
  ∀ k row row', s.world.db.orders k = some row → s'.world.db.orders k = some row' →
    Advances request m.process row row'

/-- If the move is about to write a row with status 5, the order in the table is in status 4 or 5. -/
def Reviewable (s : State Services ι (World ι) Session Reply) : Move ι → Prop
  | .kill _ => True
  | .step t => ∀ x ∈ saving s t, x.2.orderStatus = .finished → ∀ old ∈ s.world.db.orders x.1,
      old.orderStatus = .toReview ∨ old.orderStatus = .finished

instance (s : State Services ι (World ι) Session Reply) : DecidablePred (Reviewable s)
  | .kill _ => isTrue trivial
  | .step t => by
    unfold Reviewable
    infer_instance

omit [DecidableEq ι] in
theorem Cycle.of_orders_eq {m : Move ι} (h : s'.world.db.orders = s.world.db.orders) :
    Cycle request s m s' := by
  intro k row row' hrow hrow'
  rw [h, hrow] at hrow'
  exact .inl (congrArg OrderInfo.orderStatus (Option.some.inj hrow').symm)

omit [DecidableEq ι] in
/-- Writing one row advances everything if it advances that order. -/
theorem Cycle.of_set {m : Move ι} {orderId : Str} {new : OrderInfo}
    (h : s'.world.db.orders = s.world.db.orders.set orderId new)
    (hnew : ∀ old, s.world.db.orders orderId = some old → Advances request m.process old new) :
    Cycle request s m s' := by
  intro k row row' hrow hrow'
  rw [h] at hrow'
  rcases eq_or_ne k orderId with rfl | hk
  · rw [Table.set_self] at hrow'
    exact Option.some.inj hrow' ▸ hnew row hrow
  · rw [Table.set_of_ne hk, hrow] at hrow'
    exact .inl (congrArg OrderInfo.orderStatus (Option.some.inj hrow').symm)

/-- A move that keeps to the cycle finishes reviewable orders only. -/
theorem reviewable_of_cycle {m : Move ι} (hn : (site ι).next s m = some s')
    (h : Cycle request s m s') : Reviewable s m := by
  cases m with
  | kill t => trivial
  | step t =>
    intro x hx hfinished old hold
    have hnew : s'.world.db.orders x.1 = some x.2 := by
      rw [next_saving hn hx, Table.set_self]
    rcases h x.1 old x.2 hold hnew with hsame | ⟨-, htoReview, -⟩ | ⟨htoReview, -⟩
    · exact .inr (hsame.symm.trans hfinished)
    · rw [hfinished] at htoReview
      cases htoReview
    · exact .inl htoReview

section Step

variable {t : ι} {pick : Prop → Pick → Prop} {order : OrderObject} {row : OrderInfo}

/-- What an undisturbed review writes over: the row it has read. -/
theorem Finished.row_eq {w w' : World ι} (h : Finished request t order row w w')
    (hundisturbed : w.Undisturbed t) : ∃ old, w.db.orders order.orderId = some old ∧
      row.orderStatus = .finished ∧ row.user = old.user ∧ row.payMethod = old.payMethod ∧
      row.tradeNo = old.tradeNo := by
  obtain ⟨old, hold, hread⟩ := h.read.current hundisturbed
  have hobject := (OrderObject.row?_eq_some_iff.1 h.saved.fits).2
  have hwrite : row.object order.orderId = { old.object order.orderId with orderStatus := .finished } := by
    rw [hread]
    exact hobject
  refine ⟨old, hold, congrArg OrderObject.orderStatus hwrite, congrArg OrderObject.user hwrite,
    congrArg OrderObject.payMethod hwrite, Subtype.ext ?_⟩
  exact Option.some.inj (congrArg OrderObject.tradeNo hwrite)

/-- A move that finishes reviewable orders only keeps to the cycle. -/
theorem cycle_of_reviewable {m : Move ι}
    (hs : (site ι).Reach OneAtATime (start db carts gateway request) s)
    (hn : (site ι).next s m = some s') (heffect : Effect request pick m.process s.world s'.world)
    (h : Reviewable s m) : Cycle request s m s' := by
  cases m with
  | kill t =>
    refine Cycle.of_orders_eq ?_
    rw [next_kill_world hn]
    rfl
  | step t =>
    have hundisturbed : s.world.Undisturbed t := undisturbed_of_next hs hn
    obtain hsame | ⟨r, hplaced⟩ | ⟨order, answer, row, hpaid⟩ | ⟨order, row, hfinished⟩ :=
      heffect.orders_cases
    · exact Cycle.of_orders_eq hsame
    · refine Cycle.of_set hplaced.orders fun old hold ↦ ?_
      rw [hplaced.absent] at hold
      cases hold
    · -- the check writes over the row it has read, which was to be paid
      refine Cycle.of_set hpaid.saved.orders fun old hold ↦ .inr (.inl ?_)
      obtain ⟨old', hold', hread⟩ := hpaid.read.current hundisturbed
      obtain rfl := Option.some.inj (hold'.symm.trans hold)
      have hobject := (OrderObject.row?_eq_some_iff.1 hpaid.saved.fits).2
      have hstatus : old'.orderStatus = order.orderStatus := congrArg OrderObject.orderStatus hread
      obtain ⟨req, hreq, -⟩ := hpaid.request
      exact ⟨hstatus.trans hpaid.orderStatus, congrArg OrderObject.orderStatus hobject, req, hreq⟩
    · obtain hdb | hsaving := hfinished.saved.saving hn
      · exact Cycle.of_orders_eq (by rw [hdb])
      refine Cycle.of_set hfinished.saved.orders fun old hold ↦ ?_
      obtain ⟨-, -, hstatus, -⟩ := hfinished.row_eq hundisturbed
      rcases h _ hsaving hstatus old hold with htoReview | hfinishedOld
      · obtain ⟨req, orderId, hreq, -⟩ := hfinished.request
        exact .inr (.inr ⟨htoReview, hstatus, req, orderId, hreq⟩)
      · exact .inl (hstatus.trans hfinishedOld.symm)

end Step

/-! ### Paid orders -/

/-- The order is past payment. -/
def OrderInfo.PastPayment (row : OrderInfo) : Prop :=
  row.orderStatus = .toReview ∨ row.orderStatus = .finished

/-- The order is paid for with its payment number, or was past payment with it in `db`. -/
def Accounted (request : ι → Request) (db : Db) (k : Str) (row : OrderInfo)
    (history : List (Event ι)) : Prop :=
  PaidFor request k row history ∨
    ∃ old, db.orders k = some old ∧ old.PastPayment ∧ old.tradeNo = row.tradeNo

/-- Every Alipay order that is past payment is accounted for. -/
def AllAccounted (request : ι → Request) (db : Db) (w : World ι) : Prop :=
  ∀ k row, w.db.orders k = some row → row.payMethod = .alipay → row.PastPayment →
    Accounted request db k row w.history

section Accounts

variable {t : ι} {w w' : World ι} {pick : Prop → Pick → Prop}

omit [DecidableEq ι] in
theorem Accounted.mono {k : Str} {row : OrderInfo} {history history' : List (Event ι)}
    (h : Accounted request db k row history) (hsuffix : history <:+ history') :
    Accounted request db k row history' :=
  h.imp_left fun hpaid ↦ hpaid.mono hsuffix

omit [DecidableEq ι] in
theorem AllAccounted.of_orders_eq (h : AllAccounted request db w)
    (horders : w'.db.orders = w.db.orders) (hhistory : w.history <:+ w'.history) :
    AllAccounted request db w' := by
  intro k row hrow hpay hpast
  rw [horders] at hrow
  exact (h k row hrow hpay hpast).mono hhistory

omit [DecidableEq ι] in
theorem AllAccounted.set (h : AllAccounted request db w) {orderId : Str} {new : OrderInfo}
    (horders : w'.db.orders = w.db.orders.set orderId new) (hhistory : w.history <:+ w'.history)
    (hnew : new.payMethod = .alipay → new.PastPayment → Accounted request db orderId new w'.history) :
    AllAccounted request db w' := by
  intro k row hrow hpay hpast
  rw [horders] at hrow
  rcases eq_or_ne k orderId with rfl | hk
  · rw [Table.set_self] at hrow
    obtain rfl := Option.some.inj hrow
    exact hnew hpay hpast
  · rw [Table.set_of_ne hk] at hrow
    exact (h k row hrow hpay hpast).mono hhistory

/-- **One undisturbed move** that finishes reviewable orders only leaves every paid order accounted
for. -/
theorem AllAccounted.effect (h : AllAccounted request db w) (hundisturbed : w.Undisturbed t)
    (hreviewable : ∀ order row, Finished request t order row w w' → w'.db = w.db ∨
      ∀ old, w.db.orders order.orderId = some old → old.PastPayment)
    (heffect : Effect request pick t w w') : AllAccounted request db w' := by
  have hhistory := heffect.history_suffix
  obtain hsame | ⟨r, hplaced⟩ | ⟨order, answer, row, hpaid⟩ | ⟨order, row, hfinished⟩ :=
    heffect.orders_cases
  · exact h.of_orders_eq hsame hhistory
  · refine h.set hplaced.orders hhistory fun _ hpast ↦ ?_
    have hobject := (OrderObject.row?_eq_some_iff.1 hplaced.of.row).2
    have htoPay : r.row.orderStatus = .toPay := congrArg OrderObject.orderStatus hobject
    rw [OrderInfo.PastPayment, htoPay] at hpast
    rcases hpast with hpast | hpast <;> cases hpast
  · exact h.set hpaid.saved.orders hhistory fun _ _ ↦ .inl hpaid.paidFor
  · obtain hdb | hpast := hreviewable order row hfinished
    · exact h.of_orders_eq (by rw [hdb]) hhistory
    -- the review hands on the payment number that it has read
    refine h.set hfinished.saved.orders hhistory fun hpay _ ↦ ?_
    obtain ⟨old, hold, -, huser, hpayMethod, htradeNo⟩ := hfinished.row_eq hundisturbed
    have haccounted := h _ old hold (hpayMethod.symm.trans hpay) (hpast old hold)
    refine (haccounted.mono hhistory).imp (fun hpaid ↦ hpaid.congr huser hpayMethod htradeNo) ?_
    exact fun ⟨first, hfirst, hfirstPast, hfirstTrade⟩ ↦
      ⟨first, hfirst, hfirstPast, hfirstTrade.trans htradeNo.symm⟩

end Accounts

/-- In a run one at a time that finishes reviewable orders only, every order past payment is accounted
for. -/
theorem allAccounted_of_reach (hlinked : db.Linked)
    (hs : (site ι).Reach (fun s m ↦ OneAtATime s m ∧ Reviewable s m)
      (start db carts gateway request) s) : AllAccounted request db s.world := by
  induction hs with
  | refl => exact fun k row hrow _ hpast ↦ .inr ⟨row, hrow, hpast, rfl⟩
  | @move s₁ s₂ m hs₁ hok hn ih =>
    have hone : (site ι).Reach OneAtATime (start db carts gateway request) s₁ :=
      hs₁.mono fun _ _ h ↦ h.1
    have heffect := (promise_of_reach (noDiscipline request) hlinked trivial
      (hs₁.mono fun _ _ _ ↦ trivial) hn).effect
    cases m with
    | kill t =>
      rw [next_kill_world hn]
      exact ih
    | step t =>
      refine ih.effect (undisturbed_of_next hone hn) (fun order row hfinished ↦ ?_) heffect
      refine (hfinished.saved.saving hn).imp_right fun hsaving old hold ↦ ?_
      have hobject := (OrderObject.row?_eq_some_iff.1 hfinished.saved.fits).2
      exact hok.2 _ hsaving (congrArg OrderObject.orderStatus hobject) old hold

/-- What the life cycle of orders is meant to be, for a run from `db` that ends in `s`: statuses change
from 1 to 4 by a check and from 4 to 5 by a review only, and a finished Alipay order has been paid and
carries its payment number. -/
structure LifeCycle (request : ι → Request) (db : Db) (ms : List (Move ι))
    (s₀ s : State Services ι (World ι) Session Reply) : Prop where
  cycle : (site ι).AllMoves (Cycle request) ms s₀
  paid : ∀ k row, s.world.db.orders k = some row → row.payMethod = .alipay →
    row.orderStatus = .finished → Accounted request db k row s.world.history

/-- **Requests handled one at a time keep to the life cycle if and only if reviews are saved over
orders in status 4 or 5 only.** -/
theorem life_cycle_iff (hlinked : db.Linked) {ms : List (Move ι)}
    (hms : (site ι).perform (start db carts gateway request) ms = some s)
    (hone : (site ι).AllMoves (fun s m _ ↦ OneAtATime s m) ms (start db carts gateway request)) :
    LifeCycle request db ms (start db carts gateway request) s ↔
      (site ι).AllMoves (fun s m _ ↦ Reviewable s m) ms (start db carts gateway request) := by
  have hcycle : (site ι).AllMoves (Cycle request) ms (start db carts gateway request) ↔
      (site ι).AllMoves (fun s m _ ↦ Reviewable s m) ms (start db carts gateway request) := by
    refine Machine.allMoves_congr (fun s m s' hs _ hn ↦ ?_) .refl hone
    have heffect := (promise_of_reach (noDiscipline request) hlinked trivial
      (hs.mono fun _ _ _ ↦ trivial) hn).effect
    exact ⟨reviewable_of_cycle hn, cycle_of_reviewable hs hn heffect⟩
  refine ⟨fun h ↦ hcycle.1 h.cycle, fun h ↦ ⟨hcycle.2 h, fun k row hrow hpay hfinished ↦ ?_⟩⟩
  have hboth : (site ι).AllMoves (fun s m _ ↦ OneAtATime s m ∧ Reviewable s m) ms
      (start db carts gateway request) := hone.and h
  have hreach := Machine.reach_of_allMoves .refl hms hboth
  exact allAccounted_of_reach hlinked hreach k row hrow hpay (.inr hfinished)

/-- Checked first, reviewed afterwards. -/
theorem life_cycle_iff_in_order : ∃ s, (site (Fin 2)).perform
      (start orderedShop (fun _ ↦ ∅) paying ![checkIt, reviewIt])
      [.step 0, .step 0, .step 0, .step 1, .step 1] = some s ∧
    LifeCycle ![checkIt, reviewIt] orderedShop [.step 0, .step 0, .step 0, .step 1, .step 1]
      (start orderedShop (fun _ ↦ ∅) paying ![checkIt, reviewIt]) s := by
  have hrun : ((site (Fin 2)).perform (start orderedShop (fun _ ↦ ∅) paying ![checkIt, reviewIt])
      [.step 0, .step 0, .step 0, .step 1, .step 1]).isSome = true := by rfl
  obtain ⟨s, hs⟩ := Option.isSome_iff_exists.1 hrun
  exact ⟨s, hs, (life_cycle_iff orderedShop_linked hs (by decide)).2 (by decide)⟩

/-- **A finished order that was never paid.** User 7 posts a review for an order that waits to be
paid. -/
theorem unpaid_finished : ∃ s, (site (Fin 1)).perform
      (start orderedShop (fun _ ↦ ∅) paying fun _ ↦ reviewIt) [.step 0, .step 0] = some s ∧
    s.world.db.orders "202004210930007".toList = some { toBePaid with orderStatus := .finished } ∧
    ¬ LifeCycle (fun _ ↦ reviewIt) orderedShop [.step 0, .step 0]
      (start orderedShop (fun _ ↦ ∅) paying fun _ ↦ reviewIt) s := by
  have hbefore : orderAfter (fun _ : Fin 1 ↦ reviewIt) [.step 0] = some toBePaid := by rfl
  have hafter : orderAfter (fun _ : Fin 1 ↦ reviewIt) [.step 0, .step 0] =
      some { toBePaid with orderStatus := .finished } := by rfl
  obtain ⟨s₁, s, hs₁, hn, hrow₁, hrow⟩ := orderAfter_last hbefore hafter
  have hs : (site (Fin 1)).perform (start orderedShop (fun _ ↦ ∅) paying fun _ ↦ reviewIt)
      ([.step 0] ++ [.step 0]) = some s := by
    rw [Machine.perform_append, hs₁, Option.bind_some, Machine.perform, hn]
    rfl
  refine ⟨s, hs, hrow, fun h ↦ ?_⟩
  rcases Machine.allMoves_last h.cycle hs₁ hn _ _ _ hrow₁ hrow with
    hsame | ⟨-, htoReview, -⟩ | ⟨htoReview, -⟩
  · cases hsame
  · cases htoReview
  · cases htoReview

end DailyFresh
