import DailyFresh.Results.Retry
import DailyFresh.Results.StaleSave

/-!
# Order totals match the lines

A checkout creates its order with zero totals, adds the totals up in local variables while it creates
the lines, and saves them at the end. Only then does it commit, so the zero totals are never seen.
Later saves rewrite the whole row, but of an object whose totals were read from the table, and an
order's lines only change their comments. So in every committed state the totals are those of the
lines (`Totalled`), and the amount that `OrderPayView` asks for is the sum over the lines plus the
transit fee.

Totals that their columns refuse end the checkout: the failed save marks the transaction as broken
before the cart is touched (`noHdel_of_unfit`).
-/

namespace DailyFresh

open Python Store Interleave OrderCommitView

variable {ι : Type} {request : ι → Request} {db : Db} {carts : ℕ → Cart} {gateway : ℕ → Answer}

/-- The number of pieces and the price of a list of lines. -/
def lineTotals (lines : List OrderGoods) : Totals where
  count := (lines.map fun line ↦ line.count.val).sum
  price := (lines.map fun line ↦ line.price.val * line.count.val).sum

/-- Every order's totals are those of its lines. -/
def Db.Totalled (db : Db) : Prop :=
  ∀ k row, db.orders k = some row →
    row.totalCount.val = (lineTotals (db.linesOf k)).count ∧
      row.totalPrice.val = (lineTotals (db.linesOf k)).price

/-- The totals of a receipt's lines are those of its picks. -/
theorem lineTotals_eq_totals {orderId : Str} {picks : List Pick} {lines : List OrderGoods}
    (h : picks.map (fun p ↦ (p.line orderId).row?) = lines.map some) :
    lineTotals lines = totals picks := by
  induction picks generalizing lines with
  | nil =>
    obtain rfl : lines = [] := by simpa using h.symm
    rfl
  | cons p picks ih =>
    rcases lines with - | ⟨line, lines⟩
    · simp at h
    rw [List.map_cons, List.map_cons] at h
    obtain ⟨hline, hrest⟩ := List.cons.inj h
    obtain ⟨-, -, hcount, hprice, -⟩ := LineObject.row?_eq_some_iff.1 hline
    have hcount' : line.count.val = p.count := hcount
    have hprice' : line.price = p.read.price := hprice
    obtain ⟨hsumCount, hsumPrice⟩ := Totals.mk.inj (ih hrest)
    unfold lineTotals totals
    simp only [List.map_cons, List.sum_cons, hcount', hprice', hsumCount, hsumPrice]

variable [DecidableEq ι] {s : State Services ι (World ι) Session Reply}

section Step

variable {t : ι} {w w' : World ι} {pick : Prop → Pick → Prop}

omit [DecidableEq ι] in
/-- Orders and lines stay, up to status, payment number and comments. -/
theorem Totalled.of_cores (h : w.db.Totalled) (hlines : w'.db.coreLines = w.db.coreLines)
    (horders : ∀ k row, w'.db.orders k = some row →
      ∃ old, w.db.orders k = some old ∧ old.core = row.core) : w'.db.Totalled := by
  intro k row hrow
  obtain ⟨old, hold, hcore⟩ := horders k row hrow
  obtain ⟨hcount, hprice, -⟩ := OrderInfo.figures_eq hcore
  have hlinesOf : w'.db.linesOf k = w.db.linesOf k := congrArg (List.filter _) hlines
  rw [hlinesOf, ← hcount, ← hprice]
  exact h k old hold

omit [DecidableEq ι] in
/-- Tables without new orders or lines keep the totals. -/
theorem Totalled.of_same (h : w.db.Totalled) (hlines : w'.db.coreLines = w.db.coreLines)
    (horders : w'.db.orders = w.db.orders) : w'.db.Totalled :=
  Totalled.of_cores h hlines fun _ row hrow ↦ ⟨row, horders ▸ hrow, rfl⟩

omit [DecidableEq ι] in
/-- The save of an order keeps the totals: its object has those of the table. -/
theorem Totalled.saved (h : w.db.Totalled) {order : OrderObject} {row : OrderInfo}
    (hsaved : Saved t order row w w') : w'.db.Totalled := by
  refine Totalled.of_cores h (by rw [hsaved.db]; rfl) fun k new hnew ↦ ?_
  rw [hsaved.orders] at hnew
  rcases eq_or_ne k order.orderId with rfl | hk
  · rw [Table.set_self] at hnew
    exact Option.some.inj hnew ▸ hsaved.old
  · rw [Table.set_of_ne hk] at hnew
    exact ⟨new, hnew, rfl⟩

/-- The commit of an order: its totals were added up line by line. -/
theorem Totalled.placed (h : w.db.Totalled) (hlinked : w.db.Linked) {r : Receipt}
    (hplaced : Placed request pick t r w w') : w'.db.Totalled := by
  intro k row hrow
  rw [hplaced.orders] at hrow
  rcases eq_or_ne k r.orderId with rfl | hk
  · rw [Table.set_self] at hrow
    obtain rfl := Option.some.inj hrow
    have hobject := (OrderObject.row?_eq_some_iff.1 hplaced.of.row).2
    have hcount : r.row.totalCount.val = (totals r.picks).count :=
      congrArg OrderObject.totalCount hobject
    have hprice : r.row.totalPrice.val = (totals r.picks).price :=
      congrArg OrderObject.totalPrice hobject
    rw [hplaced.linesOf_self hlinked, lineTotals_eq_totals hplaced.of.lines]
    exact ⟨hcount, hprice⟩
  · rw [Table.set_of_ne hk] at hrow
    rw [hplaced.linesOf_of_ne hk]
    exact h k row hrow

/-- **Every command keeps the totals.** -/
theorem Totalled.effect (h : w.db.Totalled) (hlinked : w.db.Linked)
    (heffect : Effect request pick t w w') : w'.db.Totalled := by
  cases heffect with
  | quiet hq => exact hq.db ▸ h
  | hdel _ _ _ hdb => exact hdb ▸ h
  | hset _ _ _ _ hdb => exact hdb ▸ h
  | placed r hplaced => exact Totalled.placed h hlinked hplaced
  | paid _ _ _ hpaid => exact Totalled.saved h hpaid.saved
  | finished _ _ hfinished => exact Totalled.saved h hfinished.saved
  | commented lines _ hcore hdb =>
    exact Totalled.of_same h (by rw [hdb]; exact hcore) (by rw [hdb])
  | addressed _ _ haddressed =>
    exact Totalled.of_same h (by rw [haddressed.db]; rfl) (by rw [haddressed.db])
  | edited _ _ _ _ _ _ hdb => exact Totalled.of_same h (by rw [hdb]; rfl) (by rw [hdb])
  | browsed _ _ _ hdb => exact hdb ▸ h

end Step

/-- The discipline of the totals. -/
def totalling (request : ι → Request) : Discipline request :=
  .ofInvariant (fun w ↦ w.db.Totalled) fun hlinked h heffect ↦ Totalled.effect h hlinked heffect

/-! ### Totals that do not fit -/

/-- A checkout that has tried to save an order that does not fit has not touched a cart, and never
will. -/
theorem noHdel_of_unfit {t : ι} {now : LocalTime} {req : HttpRequest}
    (hreq : request t = .commit now req) (hlinked : db.Linked)
    (hs : (site ι).Reach AnyMove (start db carts gateway request) s)
    (hunfit : ¬ AllFit (s.world.log t)) : NoHdel (s.world.log t) := by
  induction hs with
  | refl => exact absurd allFit_nil hunfit
  | @move s₁ s₂ m hs₁ _ hn ih =>
    have hpromise := promise_of_reach (noDiscipline request) hlinked trivial hs₁ hn
    rcases eq_or_ne t m.process with rfl | ht
    · obtain hq | ⟨c, -, hfit, -, -, hhistory⟩ | ⟨r, hplaced⟩ := hpromise.effect.commit_cases hreq
      · obtain hhistory | ⟨⟨t', c, r⟩, hhistory, rfl, hplain⟩ := hq.history
        · rw [World.log_eq_of_history hhistory] at hunfit ⊢
          exact ih hunfit
        · rw [World.log_cons_self hhistory] at hunfit ⊢
          refine noHdel_cons_iff.2 ⟨hplain.not_hdel, ?_⟩
          by_cases hold : AllFit (s₁.world.log m.process)
          · -- the save that does not fit is the new command, and the cart is still untouched
            cases c with
            | orderSave order =>
              refine hplain (Classical.byContradiction fun hrow ↦ hunfit ?_)
              refine allFit_cons_iff.2 ⟨fun order' horder ↦ ?_, hold⟩
              obtain rfl := Cmd.orderSave.inj horder
              exact hrow
            | _ => exact absurd (hold.cons fun _ ↦ by simp) hunfit
          · exact ih hold
      · rw [World.log_cons_self hhistory] at hunfit
        exact absurd (hfit.cons fun _ ↦ by simp) hunfit
      · rw [World.log_cons_self hplaced.history] at hunfit
        have hold : ¬ AllFit (s₁.world.log m.process) :=
          fun hfit ↦ hunfit (hfit.cons fun _ ↦ by simp)
        exact absurd rfl (ih hold _ hplaced.of.hdel _ _)
    · rw [hpromise.considerate.log t ht] at hunfit ⊢
      exact ih hunfit

/-- **Order totals match the lines**, in every state of every run of the site; every pay URL asks for
the sum over the lines plus the transit fee; and a checkout whose total price does not fit its column
changes no row and no cart. -/
theorem totals_match (hlinked : db.Linked) (htotalled : db.Totalled) {ms : List (Move ι)}
    (hms : (site ι).perform (start db carts gateway request) ms = some s) :
    s.world.db.Totalled ∧
    (∀ t req reply k amount, request t = .pay req → (s.prog t).result? = some reply →
      reply.payment = some (k, amount) → ∃ row, s.world.db.orders k = some row ∧
        amount = decimalStr ((lineTotals (s.world.db.linesOf k)).price + row.transitPrice.val)) ∧
    ∀ t now req order r, request t = .commit now req →
      (⟨t, .orderSave order, r⟩ : Event ι) ∈ s.world.history →
      ¬ (-9999999999 ≤ order.totalPrice ∧ order.totalPrice ≤ 9999999999) →
        Untouched t ms (start db carts gateway request) := by
  have hreach := (site ι).reach_of_perform hms
  have hmatch : s.world.db.Totalled := inv_of_reach (totalling request) hlinked htotalled hreach
  refine ⟨hmatch, fun t req reply k amount hreq hreply hpayment ↦ ?_, ?_⟩
  · have houtcome := outcome_of_reach (noDiscipline request) hlinked trivial hreach hreply
    rw [Outcome, hreq] at houtcome
    obtain ⟨row, hrow, hamount⟩ := houtcome k amount hpayment
    exact ⟨row, hrow, by rw [hamount, (hmatch k row hrow).2]⟩
  · intro t now req order r hreq hmem hprice
    refine untouched_of_noHdel hreq hlinked hms (noHdel_of_unfit hreq hlinked hreach fun hfit ↦ ?_)
    obtain ⟨row, hrow⟩ :=
      Option.ne_none_iff_exists'.1 (hfit _ (World.mem_log_iff.2 ⟨hmem, rfl⟩) order rfl)
    have hobject := (OrderObject.row?_eq_some_iff.1 hrow).2
    have htotal : row.totalPrice.val = order.totalPrice := congrArg OrderObject.totalPrice hobject
    exact hprice (htotal ▸ row.totalPrice.2)

/-- The small shop with its order, and a third product at the highest price there is. -/
def dearShop : Db :=
  { orderedShop with
    skus := smallShop.skus.set 3
      { price := .lit 9999999999 (.refl true), stock := .lit 5 (.refl true), sales := .lit 0 (.refl true) } }

theorem dearShop_linked : dearShop.Linked := orderedShop_linked

theorem dearShop_totalled : dearShop.Totalled := by
  intro k row hrow
  rcases eq_or_ne k "202004210930007".toList with rfl | hk
  · have horder : dearShop.orders "202004210930007".toList = some toBePaid := rfl
    obtain rfl := Option.some.inj (horder.symm.trans hrow)
    decide
  · have hnone : dearShop.orders k = none := Table.set_of_ne hk
    rw [hnone] at hrow
    cases hrow

/-- User 8 buys two products and the first one again, user 7 asks for a pay URL, and user 9 wants two
pieces of the third product. -/
def shopping : Fin 3 → Request :=
  ![checkoutOf 8 0 "1,2,1",
    .pay { user := some 7, POST := formData [("order_id", "202004210930007")] },
    checkoutOf 9 0 "3"]

/-- A run of `shopping`: the total price of the third request does not fit. -/
def shoppingRun : List (Move (Fin 3)) :=
  .replicate 9 (.step 2) ++ .replicate 19 (.step 0) ++ [.step 1] ++ .replicate 2 (.step 2)

/-- The new order counts three pieces, the old one costs 5.00 and 10.00 for its transit, and nothing
comes of the third request. -/
theorem totals_match_shopping : ∃ s, (site (Fin 3)).perform
      (start dearShop (fun _ ↦ cartOf [("1", 1), ("2", 1), ("3", 2)]) silent shopping) shoppingRun =
        some s ∧
    s.world.db.Totalled ∧ (lineTotals (s.world.db.linesOf "202004210930008".toList)).count = 3 ∧
    (∃ row, s.world.db.orders "202004210930007".toList = some row ∧ "15.00".toList = decimalStr
      ((lineTotals (s.world.db.linesOf "202004210930007".toList)).price + row.transitPrice.val)) ∧
    Untouched 2 shoppingRun
      (start dearShop (fun _ ↦ cartOf [("1", 1), ("2", 1), ("3", 2)]) silent shopping) := by
  have hrun : ((site (Fin 3)).perform
      (start dearShop (fun _ ↦ cartOf [("1", 1), ("2", 1), ("3", 2)]) silent shopping)
      shoppingRun).map (fun s ↦ ((lineTotals (s.world.db.linesOf "202004210930008".toList)).count,
        (s.prog 1).result?.bind Reply.payment,
        s.world.history.find? fun e ↦ e.process = 2 ∧ e.cmd ≠ .rollback ∧ e.cmd ≠ .savepointRollback)) =
          some (3, some ("202004210930007".toList, "15.00".toList),
            some ⟨2, .orderSave (Checkout.order
              { user := 9, addrId := "1".toList, payMethod := .alipay, skuIds := "3".toList } (clock 0) 1
              [{ raw := "3".toList, sku := 3, count := 2,
                 read := { price := .lit 9999999999 (.refl true), stock := .lit 5 (.refl true),
                           sales := .lit 0 (.refl true) } }]), .error .dataError⟩) := by rfl
  obtain ⟨s, hs, hvalues⟩ := Option.map_eq_some_iff.1 hrun
  obtain ⟨hcount, hvalues⟩ := Prod.mk.inj hvalues
  obtain ⟨hpayment, hsave⟩ := Prod.mk.inj hvalues
  obtain ⟨reply, hreply, hpayment⟩ := Option.bind_eq_some_iff.1 hpayment
  have hmem := List.mem_of_find?_eq_some hsave
  obtain ⟨hmatch, hpay, hunfit⟩ := totals_match dearShop_linked dearShop_totalled hs
  exact ⟨s, hs, hmatch, hcount, hpay 1 _ reply _ _ rfl hreply hpayment,
    hunfit 2 _ _ _ _ rfl hmem (by decide)⟩

end DailyFresh
