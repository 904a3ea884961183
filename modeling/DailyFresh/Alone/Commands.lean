import DailyFresh.Alone.Checkout

/-!
# Commands outside transactions

Rules for requests that run alone and are in no transaction: what the lookup and the save of an order do,
and what they leave. A save outside a transaction is committed at once (`World.withOrder`).
-/

namespace DailyFresh

open Python Store Interleave OrderCommitView

variable {ι β : Type} [DecidableEq ι] {t : ι} {k : ℕ} {w : World ι} {l : Session}
  {Q : β → World ι → Session → Prop}

omit [DecidableEq ι] in
/-- The world after an order row was written. -/
def World.withOrder (w : World ι) (orderId : Str) (row : OrderInfo) : World ι :=
  { w with db := { w.db with orders := w.db.orders.set orderId row } }

/-- The lookup of an order finds the row that matches. -/
theorem run_orderGet_of_satisfies {orderId : Str} {row : OrderInfo} {user : ℕ}
    {payMethod : Option PayMethod} {orderStatus : Option OrderStatus}
    (hrow : w.orders l orderId = some row) (h : row.satisfies user payMethod orderStatus = true) :
    run t w l (.orderGet orderId user payMethod orderStatus) =
      some (.ok (row.object orderId), w, l) := by
  rw [run, hrow]
  simp only [h, if_true]

/-- **The save of an order** outside transactions: a column refuses, or the row is written. -/
theorem ends_orderSave {order : OrderObject} {f : Except DbError Unit → Program Services β}
    (hfree : w.orderLock order.orderId = none)
    (hnone : order.row? = none → (site ι).Ends t k Q (f (.error .dataError))
      (w.record t (.orderSave order) (.error .dataError)) .idle)
    (hsome : ∀ row, order.row? = some row → (site ι).Ends t k Q (f (.ok ()))
      ((w.withOrder order.orderId row).record t (.orderSave order) (.ok ())) .idle) :
    (site ι).Ends t k Q (ask (.orderSave order) >>= f) w .idle := by
  have hfree' : w.orderLock.free t order.orderId = true :=
    Locks.free_iff.2 fun u _ ↦ by simp [hfree]
  rcases hrow : order.row? with - | row
  · have hrun : run t w .idle (.orderSave order) = some (.error .dataError, w, .idle) := by
      rw [run, hrow]
      rfl
    exact ends_ask rfl hrun (hnone hrow)
  · have hrun : run t w .idle (.orderSave order) =
        some (.ok (), w.withOrder order.orderId row, .idle) := by
      rw [run, hrow]
      simp only [hfree', if_true]
      rfl
    exact ends_ask rfl hrun (hsome row hrow)

end DailyFresh
