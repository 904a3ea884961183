import DailyFresh.Results.Stock

/-!
# Stale saves

`OrderCheckView` and `CommentView` read an order, do something that takes time — one of them waits for
the gateway as long as the buyer takes — and then save the object they read, with all its columns. What
another request has written in the meantime is written over. `stale_status` and `stale_tradeNo` are
the two ways in which this goes wrong: a finished order is reopened, and a paid order loses its payment
number.

`kept_iff_timely` says exactly when it does not: a run keeps status and payment number of every order
if and only if no check saves over an order that is finished by then, and no view saves an object
without a payment number over an order that has one by then. It holds of the moves of any run of the
site, whatever other requests take part.
-/

namespace DailyFresh

open Python Store Interleave

variable {ι : Type} [DecidableEq ι] {request : ι → Request} {db : Db} {carts : ℕ → Cart}
  {gateway : ℕ → Answer}

/-- Every order still stands, its status has not decreased, and it has not lost its payment number. -/
def Kept (db db' : Db) : Prop :=
  ∀ k row, db.orders k = some row → ∃ row', db'.orders k = some row' ∧
    row.orderStatus.code ≤ row'.orderStatus.code ∧ (row.tradeNo.val ≠ [] → row'.tradeNo.val ≠ [])

/-- The order row that process `t` is about to write into the committed table. -/
def saving (s : State Services ι (World ι) Session Reply) (t : ι) : Option (Str × OrderInfo) :=
  match (s.prog t).next? with
  | some (.orderSave order) =>
    if (s.loc t).inAtomic || (s.loc t).needsRollback then none
    else order.row?.map fun row ↦ (order.orderId, row)
  | _ => none

/-- The move is not a stale save: a row with status 4 does not go over an order that is finished, and
a row without a payment number does not go over an order that has one. -/
def Timely (s : State Services ι (World ι) Session Reply) : Move ι → Prop
  | .kill _ => True
  | .step t => ∀ x ∈ saving s t, ∀ old ∈ s.world.db.orders x.1,
      (x.2.orderStatus = .toReview → old.orderStatus ≠ .finished) ∧
      (x.2.tradeNo.val = [] → old.tradeNo.val = [])

instance (s : State Services ι (World ι) Session Reply) : DecidablePred (Timely s)
  | .kill _ => isTrue trivial
  | .step t => by
    unfold Timely
    infer_instance

theorem Kept.of_orders_eq {db db' : Db} (h : db'.orders = db.orders) : Kept db db' :=
  fun _ row hrow ↦ ⟨row, h ▸ hrow, le_rfl, id⟩

/-- Writing one row keeps what the row keeps of its predecessor. -/
theorem kept_set_iff {db db' : Db} {k : Str} {row : OrderInfo} (h : db'.orders = db.orders.set k row) :
    Kept db db' ↔ ∀ old, db.orders k = some old →
      old.orderStatus.code ≤ row.orderStatus.code ∧ (old.tradeNo.val ≠ [] → row.tradeNo.val ≠ []) := by
  constructor
  · intro hkept old hold
    obtain ⟨row', hrow', hrest⟩ := hkept k old hold
    rw [h, Table.set_self] at hrow'
    exact Option.some.inj hrow' ▸ hrest
  · intro hrow k' old hold
    rw [h]
    rcases eq_or_ne k' k with rfl | hk
    · exact ⟨row, Table.set_self .., hrow old hold⟩
    · exact ⟨old, (Table.set_of_ne hk).trans hold, le_rfl, id⟩

section Step

variable {s s' : State Services ι (World ι) Session Reply} {t : ι}

/-- What an executed save of an order does: it writes the row that was about to be written, or leaves
the committed tables alone. -/
theorem exec_orderSave_cases {order : OrderObject} {r : Except DbError Unit} {l' : Session}
    {w' : World ι} (hc : (s.prog t).next? = some (.orderSave order))
    (hx : exec t s.world (s.loc t) (.orderSave order) = some (r, w', l')) :
    (saving s t = none ∧ w'.db = s.world.db) ∨
    ∃ row, saving s t = some (order.orderId, row) ∧
      w'.db.orders = s.world.db.orders.set order.orderId row := by
  rw [saving, hc]
  show (ite _ _ _ = none ∧ _) ∨ ∃ row, ite _ _ _ = some _ ∧ _
  cases hbroken : (s.loc t).needsRollback with
  | true =>
    rw [exec, hbroken] at hx
    cases hx
    exact .inl ⟨if_pos (Bool.or_true _), rfl⟩
  | false =>
    obtain ⟨v, hrun, rfl⟩ := (exec_eq_some_iff hbroken).1 hx
    obtain ⟨e, rfl, hnone, rfl, -⟩ | ⟨row, rfl, hrow, -, hv⟩ := run_orderSave_cases hrun
    · refine .inl ⟨?_, rfl⟩
      rw [hnone, Option.map_none, ite_self]
    · rw [World.writeOrder] at hv
      cases hatomic : (s.loc t).inAtomic with
      | true =>
        -- inside a transaction the row waits for the commit
        rw [if_pos hatomic] at hv
        exact .inl ⟨if_pos rfl, congrArg (fun x ↦ x.1.db) hv⟩
      | false =>
        rw [if_neg (by simp [hatomic])] at hv
        refine .inr ⟨row, ?_, congrArg (fun x ↦ x.1.db.orders) hv⟩
        rw [hrow]
        rfl

/-- A move that is about to write a row writes it. -/
theorem next_saving (hn : (site ι).next s (.step t) = some s') {x : Str × OrderInfo}
    (hx : saving s t = some x) : s'.world.db.orders = s.world.db.orders.set x.1 x.2 := by
  obtain ⟨c, r, l, hc, hexec, -⟩ := next_step_history hn
  cases c with
  | orderSave order =>
    obtain ⟨hnone, -⟩ | ⟨row, hsome, horders⟩ := exec_orderSave_cases hc hexec
    · rw [hnone] at hx
      cases hx
    · obtain rfl := Option.some.inj (hsome.symm.trans hx)
      exact horders
  | _ =>
    rw [saving, hc] at hx
    cases hx

/-- A move that keeps everything is not a stale save. -/
theorem timely_of_kept {m : Move ι} (hn : (site ι).next s m = some s')
    (h : Kept s.world.db s'.world.db) : Timely s m := by
  cases m with
  | kill t => trivial
  | step t =>
    intro x hx old hold
    have hkept := (kept_set_iff (next_saving hn hx)).1 h old hold
    refine ⟨fun hstatus hfinished ↦ ?_, fun hempty ↦ by_contra fun hne ↦ hkept.2 hne hempty⟩
    have hle : old.orderStatus.code ≤ x.2.orderStatus.code := hkept.1
    rw [hstatus, hfinished] at hle
    exact absurd hle (by decide)

/-- The save of an order writes the row that was about to be written, if it writes at all. -/
theorem Saved.saving {order : OrderObject} {row : OrderInfo}
    (hn : (site ι).next s (.step t) = some s') (h : Saved t order row s.world s'.world) :
    s'.world.db = s.world.db ∨ saving s t = some (order.orderId, row) := by
  obtain ⟨c, r, l, hc, hexec, hhistory⟩ := next_step_history hn
  have hevent := List.cons.inj (h.history.symm.trans hhistory)
  obtain rfl : Cmd.orderSave order = c := congrArg Event.cmd hevent.1
  obtain ⟨-, hdb⟩ | ⟨row', hsaving, horders⟩ := exec_orderSave_cases hc hexec
  · exact .inl hdb
  have hself : s'.world.db.orders order.orderId = some row := by
    rw [h.orders, Table.set_self]
  rw [horders, Table.set_self] at hself
  exact .inr (Option.some.inj hself ▸ hsaving)

/-- The save of an object with status 4 or 5, if it is not a stale one. -/
theorem Saved.kept {order : OrderObject} {row : OrderInfo} (hn : (site ι).next s (.step t) = some s')
    (h : Saved t order row s.world s'.world) (htimely : Timely s (.step t))
    (hstatus : order.orderStatus = .toReview ∨ order.orderStatus = .finished) :
    Kept s.world.db s'.world.db := by
  obtain hdb | hsaving := h.saving hn
  · exact Kept.of_orders_eq (congrArg Db.orders hdb)
  have hrowStatus : row.orderStatus = order.orderStatus :=
    congrArg OrderObject.orderStatus (OrderObject.row?_eq_some_iff.1 h.fits).2
  refine (kept_set_iff h.orders).2 fun old hold ↦ ?_
  have hold' := htimely _ hsaving old hold
  refine ⟨?_, fun hne hempty ↦ hne (hold'.2 hempty)⟩
  rcases hstatus with hstatus | hstatus
  · -- status 4 goes over everything but a finished order
    have hne : old.orderStatus ≠ .finished := hold'.1 (hrowStatus.trans hstatus)
    show old.orderStatus.code ≤ row.orderStatus.code
    rw [hrowStatus, hstatus]
    cases hcode : old.orderStatus with
    | finished => exact absurd hcode hne
    | _ => decide
  · show old.orderStatus.code ≤ row.orderStatus.code
    rw [hrowStatus, hstatus]
    cases old.orderStatus <;> decide

/-- A move that is not a stale save keeps everything. -/
theorem kept_of_timely {pick : Prop → Pick → Prop} {m : Move ι}
    (hn : (site ι).next s m = some s') (heffect : Effect request pick m.process s.world s'.world)
    (h : Timely s m) : Kept s.world.db s'.world.db := by
  cases m with
  | kill t =>
    rw [next_kill_world hn]
    exact Kept.of_orders_eq rfl
  | step t =>
    obtain hsame | ⟨r, hplaced⟩ | ⟨order, answer, row, hpaid⟩ | ⟨order, row, hfinished⟩ :=
      heffect.orders_cases
    · exact Kept.of_orders_eq hsame
    · -- the order is new, so nothing is written over
      refine (kept_set_iff hplaced.orders).2 fun old hold ↦ ?_
      rw [hplaced.absent] at hold
      cases hold
    · exact hpaid.saved.kept hn h (.inl rfl)
    · exact hfinished.saved.kept hn h (.inr rfl)

end Step

/-- An Alipay order of user 7 over two pieces of the first product, waiting to be paid. -/
def toBePaid : OrderInfo where
  user := 7
  addr := 1
  payMethod := .alipay
  totalCount := .lit 2 (.refl true)
  totalPrice := .lit 500 (.refl true)
  transitPrice := .lit 1000 (.refl true)
  orderStatus := .toPay
  tradeNo := .empty

/-- The small shop with that order. -/
def orderedShop : Db :=
  { smallShop with
    orders := Table.empty.set "202004210930007".toList toBePaid
    lines := [{ order := "202004210930007".toList, sku := 1, count := .lit 2 (.refl true),
                price := .lit 250 (.refl true), comment := .empty }] }

theorem orderedShop_linked : orderedShop.Linked := by
  intro line hline
  obtain rfl := List.mem_singleton.1 hline
  exact ⟨toBePaid, rfl⟩

/-- User 7 checks the order. -/
def checkIt : Request :=
  .check { user := some 7, POST := formData [("order_id", "202004210930007")] }

/-- User 7 reviews the order without a comment. -/
def reviewIt : Request :=
  .comment { user := some 7, POST := formData [("total_count", "0")] } "202004210930007".toList

/-- A gateway that says that everything is paid. -/
def paying : ℕ → Answer := fun _ ↦
  { code := some "10000".toList, tradeStatus := some "TRADE_SUCCESS".toList,
    tradeNo := some "2017032121001004070200176844".toList }

/-- The order after a run. -/
def orderAfter {n : ℕ} (request : Fin n → Request) (ms : List (Move (Fin n))) : Option OrderInfo :=
  ((site (Fin n)).perform (start orderedShop (fun _ ↦ ∅) paying request) ms).bind
    fun s ↦ s.world.db.orders "202004210930007".toList

/-- The states before and after the last move of a run, with the orders in them. -/
theorem orderAfter_last {n : ℕ} {request : Fin n → Request} {ms : List (Move (Fin n))}
    {m : Move (Fin n)} {row row' : OrderInfo} (hrow : orderAfter request ms = some row)
    (hrow' : orderAfter request (ms ++ [m]) = some row') : ∃ s s',
      (site (Fin n)).perform (start orderedShop (fun _ ↦ ∅) paying request) ms = some s ∧
      (site (Fin n)).next s m = some s' ∧
      s.world.db.orders "202004210930007".toList = some row ∧
      s'.world.db.orders "202004210930007".toList = some row' := by
  obtain ⟨s, hs, hsrow⟩ := Option.bind_eq_some_iff.1 hrow
  obtain ⟨s', hs', hsrow'⟩ := Option.bind_eq_some_iff.1 hrow'
  refine ⟨s, s', hs, ?_, hsrow, hsrow'⟩
  rw [Machine.perform_append, hs] at hs'
  simpa [Machine.perform] using hs'

/-- A run whose last move takes the order from `row` to `row'` keeps it only if it keeps `row`. -/
theorem orderAfter_kept {ms : List (Move (Fin 2))} {m : Move (Fin 2)} {row row' : OrderInfo}
    (h : (site (Fin 2)).AllMoves (fun s _ s' ↦ Kept s.world.db s'.world.db) (ms ++ [m])
      (start orderedShop (fun _ ↦ ∅) paying ![checkIt, reviewIt]))
    (hrow : orderAfter ![checkIt, reviewIt] ms = some row)
    (hrow' : orderAfter ![checkIt, reviewIt] (ms ++ [m]) = some row') :
    row.orderStatus.code ≤ row'.orderStatus.code ∧ (row.tradeNo.val ≠ [] → row'.tradeNo.val ≠ []) := by
  obtain ⟨s, s', hs, hn, hsrow, hsrow'⟩ := orderAfter_last hrow hrow'
  obtain ⟨row'', hrow'', hkept⟩ := Machine.allMoves_last h hs hn _ row hsrow
  obtain rfl := Option.some.inj (hrow''.symm.trans hsrow')
  exact hkept

end DailyFresh
