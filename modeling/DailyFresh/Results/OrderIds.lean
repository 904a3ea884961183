import DailyFresh.Concurrent.CommitPath
import DailyFresh.Results.Stock
import Mathlib.Data.Fin.VecNotation

/-!
# Order ids

The id of an order is the time in fourteen digits, followed by the id of the user without a separator.
Six fields of fixed width and injective printing make it injective in the second and the user
(`orderId_inj`), as long as the year has four digits.

An order is only ever inserted, so `orderId_unique` follows for whole runs: the database refuses a checkout's
order for its id only when an order of the same user from the same second stands in the table, which was
there at the start or which another checkout has committed; and a checkout whose order is refused changes
nothing in any table.
-/

namespace DailyFresh

open Python Store Interleave OrderCommitView

/-! ### The text -/

namespace LocalTime

theorem length_strftime {now : LocalTime} (h : 1000 ≤ now.year) : now.strftime.length = 14 := by
  have hyear : (str now.year).length = 3 + 1 := length_str h (Nat.lt_succ_of_le now.year_mem.2)
  have hmonth := length_pad2 (n := now.month) (now.month_mem.2.trans_lt (by decide))
  have hday := length_pad2 (n := now.day) (now.day_mem.2.trans_lt (by decide))
  have hhour := length_pad2 (n := now.hour) (now.hour_lt.trans (by decide))
  have hminute := length_pad2 (n := now.minute) (now.minute_lt.trans (by decide))
  have hsecond := length_pad2 (n := now.second) (now.second_lt.trans (by decide))
  simp only [strftime, List.length_append, hyear, hmonth, hday, hhour, hminute, hsecond]

/-- The fields are taken off the text from its end. -/
theorem strftime_injective : Function.Injective strftime := by
  intro now now' h
  obtain ⟨h, hsecond⟩ := append_pad2_inj (now.second_lt.trans (by decide))
    (now'.second_lt.trans (by decide)) h
  obtain ⟨h, hminute⟩ := append_pad2_inj (now.minute_lt.trans (by decide))
    (now'.minute_lt.trans (by decide)) h
  obtain ⟨h, hhour⟩ := append_pad2_inj (now.hour_lt.trans (by decide))
    (now'.hour_lt.trans (by decide)) h
  obtain ⟨h, hday⟩ := append_pad2_inj (now.day_mem.2.trans_lt (by decide))
    (now'.day_mem.2.trans_lt (by decide)) h
  obtain ⟨h, hmonth⟩ := append_pad2_inj (now.month_mem.2.trans_lt (by decide))
    (now'.month_mem.2.trans_lt (by decide)) h
  have hyear := str_injective h
  obtain ⟨year, month, day, hour, minute, second⟩ := now
  obtain ⟨year', month', day', hour', minute', second'⟩ := now'
  dsimp only at hsecond hminute hhour hday hmonth hyear
  subst hsecond hminute hhour hday hmonth hyear
  rfl

end LocalTime

/-- **An order id determines the second and the user.** -/
theorem orderId_inj {now now' : LocalTime} {user user' : ℕ} (h : 1000 ≤ now.year) (h' : 1000 ≤ now'.year)
    (heq : now.strftime ++ str user = now'.strftime ++ str user') : now = now' ∧ user = user' := by
  obtain ⟨htime, huser⟩ := List.append_inj heq
    ((LocalTime.length_strftime h).trans (LocalTime.length_strftime h').symm)
  exact ⟨LocalTime.strftime_injective htime, str_injective huser⟩

/-! ### Creating an order -/

/-- The monitor of a checkout: its state says that an order may have been written. An order is created
once, before any is written, under the id of the time and the user. -/
def orderOnce (now : LocalTime) (req : HttpRequest) : Monitor Services Bool where
  allowed written
    | .orderCreate order => written = false ∧
        ∃ c addr, req.Asks c ∧ order = newOrder now c.user addr c.payMethod
    | _ => True
  after written
    | .orderCreate _, _ => true
    | .orderSave _, _ => true
    | _, _ => written

section Programs

variable {now : LocalTime} {req : HttpRequest}

/-- The items come after the creation. -/
theorem keeps_orderOnce (skuId : Str) : (orderOnce now req).Keeps (· = true) (Cmd.OfItem skuId) := by
  intro written c hwritten hc
  cases c with
  | orderCreate => exact hc.elim
  | orderSave => exact hc.elim
  | _ => exact ⟨trivial, fun _ ↦ hwritten⟩

/-- The `try` block: the order is created first. -/
theorem orderOnce_placeOrder {c : Checkout} (hasks : req.Asks c) (addr : ℕ) (ids : List Str) :
    (orderOnce now req).Accepts (fun _ _ ↦ True)
      (placeOrder (newOrder now c.user addr c.payMethod) ids) false := by
  exact accepts_placeOrder ⟨rfl, c, addr, hasks, rfl⟩ (fun _ _ ↦ trivial)
    (accepts_takeItems keeps_orderOnce rfl _ _ ids _)

/-- **The checkout.** -/
theorem orderOnce_post : (orderOnce now req).Accepts (fun _ _ ↦ True) (post now req) false := by
  refine accepts_post (fun written c hc ↦ ?_) fun c addr hasks ↦ orderOnce_placeOrder hasks addr c.ids
  cases c with
  | orderCreate => exact hc.elim
  | orderSave => exact hc.elim
  | _ => exact ⟨trivial, fun _ ↦ rfl⟩

end Programs

/-! ### Sessions without orders -/

/-- The session has no order to commit. -/
structure NoOrder (l : Session) : Prop where
  pending : l.pending.orders = Table.empty
  saved : l.saved.orders = Table.empty

/-- The command writes an order. -/
def Cmd.writesOrder : Cmd → Bool
  | orderCreate _ => true
  | orderSave _ => true
  | _ => false

variable {ι : Type} [DecidableEq ι] {t : ι}

theorem noOrder_idle : NoOrder .idle := ⟨rfl, rfl⟩

section Exec

variable {w w' v : World ι} {l l' : Session} {c : Cmd} {r : c.Resp}

omit [DecidableEq ι] in
theorem NoOrder.writeSku (h : NoOrder l) (w : World ι) (t : ι) (n : ℕ) (sku : GoodsSKU) :
    NoOrder (w.writeSku t l n sku).2 := by
  unfold World.writeSku
  split
  · exact ⟨h.pending, h.saved⟩
  · exact h

omit [DecidableEq ι] in
theorem NoOrder.writeLine (h : NoOrder l) (w : World ι) (row : OrderGoods) :
    NoOrder (w.writeLine l row).2 := by
  unfold World.writeLine
  split
  · exact ⟨h.pending, h.saved⟩
  · exact h

/-- Only a command that writes an order brings one into the session. -/
theorem NoOrder.of_run (h : NoOrder l) (hx : run t w l c = some (r, v, l'))
    (hc : c.writesOrder = false) : NoOrder l' := by
  have hfail : NoOrder l.fail := ⟨h.pending, h.saved⟩
  cases c with
  | orderCreate => cases hc
  | orderSave => cases hc
  | skuUpdate id orginStock newStock newSales =>
    obtain ⟨-, -, rfl, -⟩ | ⟨_, -, -, rfl | rfl⟩ | ⟨n, old, new, -, -, -, -, -, hv⟩ :=
      run_skuUpdate_cases hx
    · exact h
    · exact h
    · exact hfail
    · have hl : l' = (w.writeSku t l n new).2 := congrArg Prod.snd hv
      rw [hl]
      exact h.writeSku w t n new
  | skuSave n sku =>
    rw [run] at hx
    split at hx
    · obtain ⟨-, hv⟩ := Prod.mk.inj (Option.some.inj hx)
      have hl : l' = (w.writeSku t l n sku).2 := (congrArg Prod.snd hv).symm
      rw [hl]
      exact h.writeSku w t n sku
    · cases hx
  | lineCreate line =>
    obtain ⟨_, -, -, -, rfl⟩ | ⟨row, -, -, hv⟩ := run_lineCreate_cases hx
    · exact hfail
    · have hl : l' = (w.writeLine l row).2 := congrArg Prod.snd hv
      rw [hl]
      exact h.writeLine w row
  | orderGet =>
    obtain ⟨-, rfl, -⟩ := run_orderGet_cases hx
    exact h
  | addressCreate address =>
    obtain ⟨_, -, -, rfl⟩ | ⟨row, -, -, rfl, -⟩ := run_addressCreate_cases hx
    · exact hfail
    · exact h
  | lineSave n line comment =>
    rw [run] at hx
    split at hx
    · cases hx
      exact hfail
    · cases hx
      exact h
  | commit =>
    rw [run] at hx
    split at hx
    all_goals
      cases hx
      exact noOrder_idle
  | rollback =>
    cases hx
    exact noOrder_idle
  | savepoint =>
    cases hx
    exact ⟨h.pending, h.pending⟩
  | savepointRollback =>
    cases hx
    exact ⟨h.saved, h.saved⟩
  | _ =>
    cases hx
    exact ⟨h.pending, h.saved⟩

theorem NoOrder.of_exec (h : NoOrder l) (hx : exec t w l c = some (r, w', l'))
    (hc : c.writesOrder = false) : NoOrder l' := by
  obtain ⟨⟨r', v, l''⟩, hanswered, hxw⟩ := Option.map_eq_some_iff.1 hx
  obtain ⟨rfl, hw⟩ := Prod.mk.inj hxw
  obtain ⟨-, rfl⟩ := Prod.mk.inj hw
  split at hanswered
  · cases hanswered
    exact h
  · exact h.of_run hanswered hc

/-- **The refusal of an order for its id**: the session sees an order with the id. -/
theorem exec_integrityError {order : OrderObject}
    (hx : exec t w l (.orderCreate order) = some (.error .integrityError, w', l')) :
    (∃ row, w.orders l order.orderId = some row) ∧ w'.db = w.db := by
  obtain ⟨⟨r', v, l''⟩, hanswered, hxw⟩ := Option.map_eq_some_iff.1 hx
  obtain ⟨rfl, hw⟩ := Prod.mk.inj hxw
  obtain ⟨rfl, rfl⟩ := Prod.mk.inj hw
  have hrun : run t w l (.orderCreate order) = some (.error .integrityError, v, l'') := by
    split at hanswered
    · -- a broken transaction refuses with another error
      rename_i hrefusal
      split at hrefusal
      · cases hrefusal
        cases hanswered
      · cases hrefusal
    · exact hanswered
  rw [run] at hrun
  split at hrun
  · cases hrun
  split at hrun
  · rcases hold : w.orders l order.orderId with - | row
    · rw [hold] at hrun
      cases hrun
    · rw [hold] at hrun
      cases hrun
      exact ⟨⟨row, rfl⟩, rfl⟩
  · cases hrun

end Exec

/-! ### Checkouts in a run -/

/-- The monitor of a request, which watches checkouts only. -/
def Request.orderMonitor : Request → Monitor Services Bool
  | commit now req => orderOnce now req
  | _ => Monitor.anything Services Bool

/-- As long as a checkout has written no order, its session has none. -/
def Unwritten (request : ι → Request) (t : ι) (_ : World ι) (l : Session) (written : Bool) : Prop :=
  ∀ now req, request t = .commit now req → written = false → NoOrder l

theorem follows_orderMonitor (request : ι → Request) :
    Monitor.Follows (fun t ↦ (request t).orderMonitor) (site ι) (Unwritten request) where
  own {t w l written c r w' l'} h hx now req hreq hafter := by
    rw [hreq] at hafter
    have hkept : c.writesOrder = false ∧ written = false := by
      cases c with
      | orderCreate => cases hafter
      | orderSave => cases hafter
      | _ => exact ⟨rfl, hafter⟩
    exact (h now req hreq hkept.2).of_exec hx hkept.1
  other _ h _ := h
  abort _ _ _ _ _ := noOrder_idle
  abortOther _ h := h

section Runs

variable {request : ι → Request} {db : Db} {carts : ℕ → Cart} {gateway : ℕ → Answer}
  {s s' sf : State Services ι (World ι) Session Reply} {m : Move ι} {now : LocalTime} {req : HttpRequest}
  {order : OrderObject}

/-- A checkout that is about to create an order has written none, and the order is its own. -/
theorem creates_of_next (hs : (site ι).Reach AnyMove (start db carts gateway request) s)
    (hreq : request t = .commit now req) (hnext : (s.prog t).next? = some (.orderCreate order)) :
    NoOrder (s.loc t) ∧ ∃ c addr, req.Asks c ∧ order = newOrder now c.user addr c.payMethod := by
  have hstart : Monitor.Watched (fun t ↦ (request t).orderMonitor) (Unwritten request)
      (start db carts gateway request) := by
    intro u
    refine ⟨false, fun _ _ _ _ ↦ noOrder_idle, ?_⟩
    show (request u).orderMonitor.Accepts _ (request u).handler _
    rcases hu : request u
    case commit => exact orderOnce_post
    all_goals exact Monitor.accepts_anything _ _
  obtain ⟨written, hunwritten, haccepts⟩ := (follows_orderMonitor request).sound hstart hs t
  have hallowed : (request t).orderMonitor.allowed written (.orderCreate order) := haccepts.allowed hnext
  rw [hreq] at hallowed
  exact ⟨hunwritten now req hreq hallowed.1, hallowed.2⟩

/-- Every order of the table has the user that its id says. -/
def Db.Stamped (db : Db) : Prop :=
  ∀ k row, db.orders k = some row → ∃ now : LocalTime, 1000 ≤ now.year ∧ k = now.strftime ++ str row.user

/-- Checkouts take place in years of four digits. -/
def FourDigitYears (request : ι → Request) : Prop :=
  ∀ t now req, request t = .commit now req → 1000 ≤ now.year

omit [DecidableEq ι] in
theorem FourDigitYears.orderId_inj (hyears : FourDigitYears request) {u : ι} {now' : LocalTime}
    {req' : HttpRequest} (hreq : request t = .commit now req) (hreq' : request u = .commit now' req')
    {user user' : ℕ} (heq : now.strftime ++ str user = now'.strftime ++ str user') :
    now = now' ∧ user = user' :=
  DailyFresh.orderId_inj (hyears t now req hreq) (hyears u now' req' hreq') heq

/-- The checkout `u` of the user at this time has committed its order: it has cleared the cart, as it does
once the order is saved. -/
structure Committed (request : ι → Request) (u : ι) (now : LocalTime) (user : ℕ) (history : List (Event ι)) :
    Prop where
  cleared : ∃ req c, request u = .commit now req ∧ req.Asks c ∧ c.user = user ∧
    (⟨u, .hdel user c.ids, ()⟩ : Event ι) ∈ history
  commit : (⟨u, .commit, ()⟩ : Event ι) ∈ history

omit [DecidableEq ι] in
theorem Committed.mono {u : ι} {user : ℕ} {history history' : List (Event ι)}
    (h : Committed request u now user history) (hgrown : history <:+ history') :
    Committed request u now user history' := by
  obtain ⟨req, c, hreq, hasks, huser, hdel⟩ := h.cleared
  exact ⟨⟨req, c, hreq, hasks, huser, hgrown.subset hdel⟩, hgrown.subset h.commit⟩

/-- Every order stood in the table at the start, with the same user, or has been committed under the id of
its time and its user. -/
def Traced (request : ι → Request) (db : Db) (w : World ι) : Prop :=
  ∀ k row, w.db.orders k = some row →
    (∃ old, db.orders k = some old ∧ old.user = row.user) ∨
    ∃ u now, k = now.strftime ++ str row.user ∧ Committed request u now row.user w.history

theorem Traced.effect {pick : Prop → Pick → Prop} {w w' : World ι} (h : Traced request db w)
    (heffect : Effect request pick t w w') : Traced request db w' := by
  have hold : ∀ k (row : OrderInfo) old, w.db.orders k = some old → row.user = old.user →
      (∃ old, db.orders k = some old ∧ old.user = row.user) ∨
      ∃ u now, k = now.strftime ++ str row.user ∧ Committed request u now row.user w'.history := by
    intro k row old hold huser
    rw [huser]
    obtain hstood | ⟨u, now, hid, hcommitted⟩ := h k old hold
    · exact .inl hstood
    · exact .inr ⟨u, now, hid, hcommitted.mono heffect.history_suffix⟩
  intro k row hrow
  obtain ⟨r, hplaced⟩ | hunplaced := heffect.placed_or
  · rw [hplaced.orders] at hrow
    by_cases hid : k = r.orderId
    · subst hid
      rw [Table.set_self] at hrow
      obtain rfl := Option.some.inj hrow
      have huser : r.row.user = r.checkout.user :=
        congrArg OrderObject.user (OrderObject.row?_eq_some_iff.1 hplaced.of.row).2
      have hdel := heffect.history_suffix.subset (World.mem_log_iff.1 hplaced.of.hdel).1
      have hcommit : (⟨t, .commit, ()⟩ : Event ι) ∈ w'.history := hplaced.history ▸ List.mem_cons_self
      rw [huser]
      exact .inr ⟨t, r.now, rfl,
        ⟨⟨r.request, r.checkout, hplaced.of.request, hplaced.of.asks, rfl, hdel⟩, hcommit⟩⟩
    · rw [Table.set_of_ne hid] at hrow
      exact hold k row row hrow rfl
  · obtain ⟨old, hrow', hcore⟩ := hunplaced.orders k row hrow
    have huser : row.core.user = old.core.user := congrArg OrderInfo.user hcore
    exact hold k row old hrow' huser

theorem traced_of_reach (hlinked : db.Linked)
    (hs : (site ι).Reach AnyMove (start db carts gateway request) s) : Traced request db s.world := by
  induction hs with
  | refl => exact fun k row hrow ↦ .inl ⟨row, hrow, rfl⟩
  | move hs _ hn ih =>
    exact ih.effect (promise_of_reach (noDiscipline request) hlinked trivial hs hn).effect

/-- The database refuses the order of `t` for its id. -/
def Refuses (t : ι) (order : OrderObject) (w w' : World ι) : Prop :=
  w'.history = ⟨t, .orderCreate order, .error .integrityError⟩ :: w.history

/-- **A refusal**: an order with the id of the checkout's time and user stands in the table. -/
theorem stands_of_refuses (hs : (site ι).Reach AnyMove (start db carts gateway request) s)
    (hn : (site ι).next s m = some s') (hreq : request t = .commit now req)
    (hrefuses : Refuses t order s.world s'.world) :
    ∃ c row, req.Asks c ∧ order.orderId = now.strftime ++ str c.user ∧
      s.world.db.orders order.orderId = some row ∧ s'.world.db = s.world.db ∧
        ∀ e ∈ s.world.log t, e.cmd ≠ .commit := by
  cases m with
  | kill u =>
    rw [Refuses, next_kill_world hn] at hrefuses
    exact absurd hrefuses.symm (List.cons_ne_self _ _)
  | step u =>
    obtain ⟨c, r, l, hc, hx, hhistory⟩ := next_step_history hn
    obtain ⟨hevent, -⟩ := List.cons.inj (hhistory.symm.trans hrefuses)
    cases hevent
    obtain ⟨hnone, checkout, addr, hasks, rfl⟩ := creates_of_next hs hreq hc
    obtain ⟨⟨row, hrow⟩, hdb⟩ := exec_integrityError hx
    rw [World.orders, hnone.pending, Table.overlay_empty] at hrow
    exact ⟨checkout, row, hasks, rfl, hrow, hdb, (commitPath_of_next hreq hs hc).now.noCommit hc⟩

/-- After its commit, a checkout is refused nothing. -/
theorem refused_of_committed (hs : (site ι).Reach AnyMove (start db carts gateway request) s)
    (hreq : request t = .commit now req) (hcommit : (⟨t, .commit, ()⟩ : Event ι) ∈ s.world.history)
    (hreach : (site ι).Reach AnyMove s sf)
    (hrefused : (⟨t, .orderCreate order, .error .integrityError⟩ : Event ι) ∈ sf.world.history) :
    (⟨t, .orderCreate order, .error .integrityError⟩ : Event ι) ∈ s.world.history := by
  induction hreach with
  | refl => exact hrefused
  | @move s₁ s₂ m hs₁ _ hn ih =>
    cases m with
    | kill u =>
      rw [next_kill_world hn] at hrefused
      exact ih hrefused
    | step u =>
      obtain ⟨c, r, l, hc, -, hhistory⟩ := next_step_history hn
      rw [hhistory] at hrefused
      rcases List.mem_cons.1 hrefused with hevent | hrefused
      · -- a new refusal: the checkout has not committed
        cases hevent
        have hmem : (⟨t, .commit, ()⟩ : Event ι) ∈ s₁.world.log t :=
          World.mem_log_iff.2 ⟨(history_suffix hs₁).subset hcommit, rfl⟩
        exact absurd rfl ((commitPath_of_next hreq (hs.trans hs₁) hc).now.noCommit hc _ hmem)
      · exact ih hrefused

/-- The order for whose id a checkout has been refused still stands. -/
theorem stands_of_refused (hlinked : db.Linked)
    (hs : (site ι).Reach AnyMove (start db carts gateway request) s) (hreq : request t = .commit now req)
    (hrefused : (⟨t, .orderCreate order, .error .integrityError⟩ : Event ι) ∈ s.world.history) :
    ∃ c row, req.Asks c ∧ order.orderId = now.strftime ++ str c.user ∧
      s.world.db.orders order.orderId = some row := by
  induction hs with
  | refl => cases hrefused
  | @move s₁ s₂ m hs _ hn ih =>
    have hkept : (⟨t, .orderCreate order, .error .integrityError⟩ : Event ι) ∈ s₁.world.history →
        ∃ c row, req.Asks c ∧ order.orderId = now.strftime ++ str c.user ∧
          s₂.world.db.orders order.orderId = some row := by
      intro hrefused
      obtain ⟨c, row, hasks, hid, hrow⟩ := ih hrefused
      obtain ⟨row', hrow', -⟩ :=
        (promise_of_reach (noDiscipline request) hlinked trivial hs hn).considerate.core _ _ hrow
      exact ⟨c, row', hasks, hid, hrow'⟩
    cases m with
    | kill u =>
      refine hkept ?_
      rwa [next_kill_world hn] at hrefused
    | step u =>
      obtain ⟨c, r, l, -, -, hhistory⟩ := next_step_history hn
      rcases List.mem_cons.1 (hhistory ▸ hrefused) with hevent | hrefused
      · have hrefuses : Refuses t order s₁.world s₂.world := by rw [Refuses, hhistory, hevent]
        obtain ⟨c, row, hasks, hid, hrow, hdb, -⟩ := stands_of_refuses hs hn hreq hrefuses
        exact ⟨c, row, hasks, hid, hdb ▸ hrow⟩
      · exact hkept hrefused

/-- **A refused checkout writes no table**, before its refusal and after it. -/
theorem db_of_refused (hlinked : db.Linked)
    (hs : (site ι).Reach AnyMove (start db carts gateway request) s)
    (hn : (site ι).next s m = some s') (hreach : (site ι).Reach AnyMove s' sf) (hm : m.process = t)
    (hreq : request t = .commit now req)
    (hrefused : (⟨t, .orderCreate order, .error .integrityError⟩ : Event ι) ∈ sf.world.history) :
    s'.world.db = s.world.db := by
  subst hm
  obtain hquiet | ⟨_, -, -, hdb, -⟩ | ⟨r, hplaced⟩ :=
    (promise_of_reach (noDiscipline request) hlinked trivial hs hn).effect.commit_cases hreq
  · exact hquiet.db
  · exact hdb
  · -- the order that it commits is absent, and the one for whose id it is refused stands
    have hcommit : (⟨m.process, .commit, ()⟩ : Event ι) ∈ s'.world.history := by
      rw [hplaced.history]
      exact List.mem_cons_self
    have hbefore := refused_of_committed (hs.move trivial hn) hreq hcommit hreach hrefused
    rw [hplaced.history] at hbefore
    rcases List.mem_cons.1 hbefore with hevent | hbefore
    · cases hevent
    obtain ⟨c, row, hasks, hid, hrow⟩ := stands_of_refused hlinked hs hreq hbefore
    have hof := hplaced.of.request
    rw [hreq] at hof
    obtain ⟨hnow, hreq'⟩ := Request.commit.inj hof
    have hsame : order.orderId = r.orderId := by
      rw [hid, Receipt.orderId, hnow, hasks.unique (hreq' ▸ hplaced.of.asks)]
    rw [hsame, hplaced.absent] at hrow
    cases hrow

/-- The order of the user at this time, under its id, stood in the table at the start, or has been committed
by another checkout. -/
def Earlier (request : ι → Request) (db : Db) (t : ι) (now : LocalTime) (user : ℕ)
    (history : List (Event ι)) : Prop :=
  (∃ old, db.orders (now.strftime ++ str user) = some old ∧ old.user = user) ∨
    ∃ u, u ≠ t ∧ Committed request u now user history

/-- A checkout is refused for the id of an order of its own user, from its own second. -/
def OwnClash (request : ι → Request) (db : Db) (t : ι) (now : LocalTime) (req : HttpRequest)
    (order : OrderObject) (w : World ι) : Prop :=
  ∃ c row, req.Asks c ∧ order.orderId = now.strftime ++ str c.user ∧
    w.db.orders order.orderId = some row ∧ row.user = c.user ∧ Earlier request db t now c.user w.history

theorem ownClash_of_refuses (hlinked : db.Linked) (hstamped : db.Stamped) (hyears : FourDigitYears request)
    (hs : (site ι).Reach AnyMove (start db carts gateway request) s)
    (hn : (site ι).next s m = some s') (hreq : request t = .commit now req)
    (hrefuses : Refuses t order s.world s'.world) : OwnClash request db t now req order s.world := by
  obtain ⟨c, row, hasks, hid, hrow, -, hnone⟩ := stands_of_refuses hs hn hreq hrefuses
  rw [hid] at hrow
  have hown : row.user = c.user ∧ Earlier request db t now c.user s.world.history := by
    obtain ⟨old, hold, huser⟩ | ⟨u, now', hid', hcommitted⟩ := traced_of_reach hlinked hs _ row hrow
    · obtain ⟨now', hyear, hid'⟩ := hstamped _ old hold
      have hsame : c.user = old.user := (orderId_inj (hyears t now req hreq) hyear hid').2
      exact ⟨huser.symm.trans hsame.symm, .inl ⟨old, hold, hsame.symm⟩⟩
    · obtain ⟨req', c', hreq', -⟩ := hcommitted.cleared
      obtain ⟨rfl, huser⟩ := hyears.orderId_inj hreq hreq' hid'
      refine ⟨huser.symm, .inr ⟨u, ?_, huser ▸ hcommitted⟩⟩
      rintro rfl
      exact hnone _ (World.mem_log_iff.2 ⟨hcommitted.commit, rfl⟩) rfl
  exact ⟨c, row, hasks, hid, hid ▸ hrow, hown⟩

/-- **Order ids do not clash across users**: an order id determines the second and the user; in any run, the
database refuses a checkout's order for its id only when an order of the same user from the same second
stands in the table, which was there at the start or which another checkout has committed; and no move of a
checkout that is refused in the run changes a table. -/
theorem orderId_unique (hlinked : db.Linked) (hstamped : db.Stamped) (hyears : FourDigitYears request)
    {ms : List (Move ι)} (hms : (site ι).perform (start db carts gateway request) ms = some sf) :
    (∀ (now now' : LocalTime) (user user' : ℕ), 1000 ≤ now.year → 1000 ≤ now'.year →
      now.strftime ++ str user = now'.strftime ++ str user' → now = now' ∧ user = user') ∧
    (site ι).AllMoves (fun s _ s' ↦ ∀ t now req order, request t = .commit now req →
      Refuses t order s.world s'.world → OwnClash request db t now req order s.world)
      ms (start db carts gateway request) ∧
    ∀ t now req order, request t = .commit now req →
      (⟨t, .orderCreate order, .error .integrityError⟩ : Event ι) ∈ sf.world.history →
      (site ι).AllMoves (fun s m s' ↦ m.process = t → s'.world.db = s.world.db)
        ms (start db carts gateway request) := by
  refine ⟨fun now now' user user' ↦ orderId_inj, ?_, ?_⟩
  · refine Machine.allMoves_of_perform (fun s m s' hs hn _ ↦ ?_) .refl hms
    intro t now req order hreq hrefuses
    exact ownClash_of_refuses hlinked hstamped hyears hs hn hreq hrefuses
  · intro t now req order hreq hrefused
    refine Machine.allMoves_of_perform (fun s m s' hs hn hreach hm ↦ ?_) .refl hms
    exact db_of_refused hlinked hs hn hreach hm hreq hrefused

end Runs

/-- User 7 buys the first product twice in one second. -/
def sameSecond : Fin 2 → Request := ![checkoutOf 7 0 "1", checkoutOf 7 0 "1"]

theorem sameSecond_fourDigitYears : FourDigitYears sameSecond := by
  intro t now req hreq
  match t, hreq with
  | 0, rfl => exact (by decide : 1000 ≤ 2020)
  | 1, rfl => exact (by decide : 1000 ≤ 2020)

theorem smallShop_stamped : smallShop.Stamped := fun _ _ h ↦ by cases h

/-- The first checkout has committed when the second one creates its order. -/
theorem orderId_unique_sameSecond : ∃ s, (site (Fin 2)).perform
      (start smallShop (fun _ ↦ cartOf [("1", 2)]) silent sameSecond)
      (.replicate 11 (.step 0) ++ .replicate 6 (.step 1)) = some s ∧
    (⟨1, .orderCreate (newOrder (clock 0) 7 1 .alipay), .error .integrityError⟩ : Event (Fin 2)) ∈
      s.world.history ∧
    (site (Fin 2)).AllMoves (fun s m s' ↦ m.process = 1 → s'.world.db = s.world.db)
      (.replicate 11 (.step 0) ++ .replicate 6 (.step 1))
      (start smallShop (fun _ ↦ cartOf [("1", 2)]) silent sameSecond) := by
  have hrun : ((site (Fin 2)).perform (start smallShop (fun _ ↦ cartOf [("1", 2)]) silent sameSecond)
      (.replicate 11 (.step 0) ++ .replicate 6 (.step 1))).map (fun s ↦ s.world.history[2]?) =
      some (some ⟨1, .orderCreate (newOrder (clock 0) 7 1 .alipay), .error .integrityError⟩) := by rfl
  obtain ⟨s, hs, hrefused⟩ := Option.map_eq_some_iff.1 hrun
  have hmem := List.mem_of_getElem? hrefused
  obtain ⟨-, -, hunchanged⟩ :=
    orderId_unique smallShop_linked smallShop_stamped sameSecond_fourDigitYears hs
  exact ⟨s, hs, hmem, hunchanged 1 _ _ _ rfl hmem⟩

end DailyFresh
