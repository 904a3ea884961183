import DailyFresh.Results.Stock

/-!
# Everybody else's records

A request takes ids of products, addresses, orders and lines from its client. What keeps it away from
the records of other users is different each time: the key of the Redis hash or list, the filter
`user=user` of an order lookup, the order that a line was found through, the primary key that a new order
or address must not share with an old one.

`others_untouched` collects them. One move of a request of user `u` leaves the others' records as they
are (`Apart`), which is read off the effects of a command one by one, and so does any list of moves of
requests of `u`, from any state that any interleaving of any requests has reached.
-/

namespace DailyFresh

open Python Store Interleave

variable {ι : Type} {request : ι → Request}

/-- From `w` to `w'`, nothing that belongs to another user than `u` has changed. -/
structure Apart (u : ℕ) (w w' : World ι) : Prop where
  carts : ∀ other, other ≠ u → w'.carts other = w.carts other
  histories : ∀ other, other ≠ u → w'.histories other = w.histories other
  addrs : ∀ n a, a.user ≠ u → (w'.db.address n = some a ↔ w.db.address n = some a)
  orders : ∀ k row, row.user ≠ u → (w'.db.orders k = some row ↔ w.db.orders k = some row)
  /-- Lines, each under its id. -/
  lines : ∀ (id : ℕ) (line : OrderGoods) (row : OrderInfo), w.db.orders line.order = some row → row.user ≠ u →
    (w'.db.lines[id]? = some line ↔ w.db.lines[id]? = some line)

/-- No product is created or deleted, and none changes in another column than stock and sales. -/
def PricesKept (db db' : Db) : Prop :=
  ∀ n, (db'.skus n).map GoodsSKU.price = (db.skus n).map GoodsSKU.price

theorem Apart.refl (u : ℕ) (w : World ι) : Apart u w w :=
  ⟨fun _ _ ↦ rfl, fun _ _ ↦ rfl, fun _ _ _ ↦ .rfl, fun _ _ _ ↦ .rfl, fun _ _ _ _ _ ↦ .rfl⟩

theorem Apart.trans {u : ℕ} {w₁ w₂ w₃ : World ι} (h₁ : Apart u w₁ w₂) (h₂ : Apart u w₂ w₃) :
    Apart u w₁ w₃ where
  carts other hother := (h₂.carts other hother).trans (h₁.carts other hother)
  histories other hother := (h₂.histories other hother).trans (h₁.histories other hother)
  addrs n a ha := (h₂.addrs n a ha).trans (h₁.addrs n a ha)
  orders k row hrow := (h₂.orders k row hrow).trans (h₁.orders k row hrow)
  lines id line row horder hrow :=
    (h₂.lines id line row ((h₁.orders _ _ hrow).2 horder) hrow).trans (h₁.lines id line row horder hrow)

/-- A change of the order table under one key, from a row of `u` to a row of `u`. -/
theorem orders_set_iff {orders : Table Str OrderInfo} {u : ℕ} {k₀ : Str} {new : OrderInfo}
    (hnew : new.user = u) (hold : ∀ old, orders k₀ = some old → old.user = u) {k : Str} {row : OrderInfo}
    (hrow : row.user ≠ u) : orders.set k₀ new k = some row ↔ orders k = some row := by
  rcases eq_or_ne k k₀ with rfl | hk
  · rw [Table.set_self]
    constructor
    · intro h
      exact absurd (Option.some.inj h ▸ hnew) hrow
    · intro h
      exact absurd (hold row h) hrow
  · rw [Table.set_of_ne hk]

variable [DecidableEq ι] {t : ι} {w w' : World ι} {u : ℕ}

omit [DecidableEq ι] in
/-- The tables, the carts and the browsing histories have not changed. -/
theorem Apart.of_eq (hdb : w'.db = w.db) (hcarts : w'.carts = w.carts)
    (hhistories : w'.histories = w.histories) : Apart u w w' := by
  constructor
  · exact fun _ _ ↦ by rw [hcarts]
  · exact fun _ _ ↦ by rw [hhistories]
  all_goals
    rw [hdb]
    intros
    exact .rfl

omit [DecidableEq ι] in
/-- One cart of `u` has changed. -/
theorem Apart.of_cart {cart : Cart} (hdb : w'.db = w.db) (hcarts : w'.carts = Function.update w.carts u cart)
    (hhistories : w'.histories = w.histories) : Apart u w w' where
  carts other hother := by rw [hcarts, Function.update_of_ne hother]
  histories _ _ := by rw [hhistories]
  addrs _ _ _ := by rw [hdb]
  orders _ _ _ := by rw [hdb]
  lines _ _ _ _ _ := by rw [hdb]

omit [DecidableEq ι] in
/-- An order of `u` has been saved. -/
theorem Apart.of_saved {order : OrderObject} {row : OrderInfo} (h : Saved t order row w w')
    (huser : order.user = u) : Apart u w w' where
  carts _ _ := by rw [h.carts]
  histories _ _ := by rw [h.histories]
  addrs _ _ _ := by rw [h.db]; rfl
  orders k row' hrow' := by
    have hnew : row.user = u := by
      rw [← huser]
      exact congrArg OrderObject.user (OrderObject.row?_eq_some_iff.1 h.fits).2
    obtain ⟨old, hold, hcore⟩ := h.old
    rw [h.orders]
    refine orders_set_iff hnew (fun old' hold' ↦ ?_) hrow'
    obtain rfl := Option.some.inj (hold.symm.trans hold')
    exact (OrderInfo.mk.inj hcore).1.trans hnew
  lines _ _ _ _ _ := by rw [h.db]

omit [DecidableEq ι] in
/-- A new address of `u` has been added. -/
theorem Apart.of_addressed {address : AddressObject} {row : Address}
    (h : Addressed request t address row w w') (huser : address.user = u) : Apart u w w' where
  carts _ _ := by rw [h.carts]
  histories _ _ := by rw [h.histories]
  addrs n a ha := by
    rw [h.db, Db.address_insert rfl]
    rcases eq_or_ne n w.db.nextAddress with rfl | hn
    · rw [Table.set_self, Db.address_nextAddress]
      have hrow : row.user = u := (AddressObject.row?_user h.fits).1.trans huser
      constructor
      · intro heq
        exact absurd (Option.some.inj heq ▸ hrow) ha
      · intro heq
        cases heq
    · rw [Table.set_of_ne hn]
  orders _ _ _ := by rw [h.db]
  lines _ _ _ _ _ := by rw [h.db]

/-- An order of `u` has been committed: its id was free, and all new lines are its own. -/
theorem Apart.of_placed {pick : Prop → Pick → Prop} {r : Receipt} (h : Placed request pick t r w w')
    (huser : r.checkout.user = u) : Apart u w w' where
  carts _ _ := by rw [h.carts]
  histories _ _ := by rw [h.histories]
  addrs n _ _ := by
    have haddress : w'.db.address n = w.db.address n := by rw [Db.address, h.addrs]; rfl
    rw [haddress]
  orders k row hrow := by
    have hnew : r.row.user = u := by
      rw [← huser]
      exact congrArg OrderObject.user (OrderObject.row?_eq_some_iff.1 h.of.row).2
    rw [h.orders]
    refine orders_set_iff hnew (fun old hold ↦ ?_) hrow
    rw [h.absent] at hold
    cases hold
  lines id line row horder hrow := by
    rw [h.lines]
    by_cases hid : id < w.db.lines.length
    · rw [List.getElem?_append_left hid]
    · rw [List.getElem?_append_right (Nat.le_of_not_lt hid), List.getElem?_eq_none (Nat.le_of_not_lt hid)]
      constructor
      · intro hline
        have hnew := (Receipt.line_eq h.of.lines (List.mem_of_getElem? hline)).1
        rw [hnew, h.absent] at horder
        cases horder
      · intro hline
        cases hline

omit [DecidableEq ι] in
/-- The comment of a line of `u` has been saved. -/
theorem Apart.of_commented {lines : List OrderGoods} (hreviews : Reviews request t lines w)
    (huser : (request t).user = some u) (hdb : w'.db = { w.db with lines }) (hcarts : w'.carts = w.carts)
    (hhistories : w'.histories = w.histories) : Apart u w w' where
  carts _ _ := by rw [hcarts]
  histories _ _ := by rw [hhistories]
  addrs _ _ _ := by rw [hdb]; rfl
  orders _ _ _ := by rw [hdb]
  lines id line row horder hrow := by
    obtain ⟨req, orderId, id₀, line₀, row₀, hreq, hreq', horder₀, hcore, rfl⟩ := hreviews
    have hrow₀ : row₀.user = u := by
      rw [hreq] at huser
      exact Option.some.inj (hreq'.symm.trans huser)
    -- a line of another user has another order than the reviewed one
    have hne : line.order ≠ line₀.order := by
      intro heq
      rw [heq, horder₀] at horder
      exact hrow (Option.some.inj horder ▸ hrow₀)
    rw [hdb]
    show (w.db.lines.set id₀ line₀)[id]? = some line ↔ _
    rcases eq_or_ne id₀ id with rfl | hid
    · rw [Db.coreLines, List.getElem?_map, Option.map_eq_some_iff] at hcore
      obtain ⟨old, hold, hcore⟩ := hcore
      have hlength : id₀ < w.db.lines.length := (List.getElem?_eq_some_iff.1 hold).1
      rw [List.getElem?_set_self hlength, hold]
      have horders : old.order = line₀.order := (OrderGoods.mk.inj hcore).1
      constructor
      · intro heq
        exact absurd (congrArg OrderGoods.order (Option.some.inj heq)).symm hne
      · intro heq
        exact absurd (congrArg OrderGoods.order (Option.some.inj heq) ▸ horders) hne
    · rw [List.getElem?_set_ne hid]

/-- **One command** of a request of `u`. -/
theorem Apart.of_effect {pick : Prop → Pick → Prop} (huser : (request t).user = some u)
    (h : Effect request pick t w w') : Apart u w w' := by
  have hown : ∀ {r : Request} {v : ℕ}, request t = r → r.user = some v → v = u := by
    intro r v hr hv
    rw [hr] at huser
    exact Option.some.inj (hv.symm.trans huser)
  cases h with
  | quiet h => exact .of_eq h.db h.carts h.histories
  | hdel user fields hreq hdb hcarts _ hhistories =>
    obtain ⟨now, req, c, hreq, hasks, rfl, rfl, -⟩ | ⟨req, hreq, hreq'⟩ := hreq
    · obtain rfl := hown hreq hasks.user
      exact .of_cart hdb hcarts hhistories
    · obtain rfl := hown hreq hreq'
      exact .of_cart hdb hcarts hhistories
  | hset user field value hreq hdb hcarts _ hhistories =>
    have hwriter : (request t).user = some user := by
      have hwrites := hreq.1
      rcases hr : request t <;> rw [hr] at hwrites <;> first | exact hwrites.1 | exact hwrites.elim
    obtain rfl := Option.some.inj (hwriter.symm.trans huser)
    exact .of_cart hdb hcarts hhistories
  | placed r h => exact .of_placed h (hown h.of.request h.of.asks.user)
  | paid order answer row h =>
    obtain ⟨req, hreq, hreq'⟩ := h.request
    exact .of_saved h.saved (hown hreq hreq')
  | finished order row h =>
    obtain ⟨req, orderId, hreq, hreq'⟩ := h.request
    exact .of_saved h.saved (hown hreq hreq')
  | commented lines hreviews _ hdb hcarts _ hhistories =>
    exact .of_commented hreviews huser hdb hcarts hhistories
  | addressed address row h =>
    obtain ⟨req, hreq, hreq'⟩ := h.request
    exact .of_addressed h (hown hreq hreq')
  | edited id edit n sku hreq =>
    rw [hreq] at huser
    cases huser
  | browsed user list hreq hdb hcarts _ hhistories =>
    obtain ⟨req, id, hreq, hreq'⟩ := hreq
    obtain rfl := hown hreq hreq'
    refine ⟨fun _ _ ↦ by rw [hcarts], fun other hother ↦ ?_, ?_, ?_, ?_⟩
    · rw [hhistories, Function.update_of_ne hother]
    all_goals
      rw [hdb]
      intros
      exact .rfl

/-! ### Products -/

omit [DecidableEq ι] in
theorem PricesKept.of_skus {db db' : Db} (h : db'.skus = db.skus) : PricesKept db db' :=
  fun _ ↦ by rw [h]

/-- A committed order changes products in stock and sales. -/
theorem PricesKept.of_placed {pick : Prop → Pick → Prop} {r : Receipt}
    (h : Placed request pick t r w w') : PricesKept w.db w'.db := by
  obtain ⟨pending, htrail, hskus⟩ := h.skus
  obtain ⟨-, hprice⟩ := htrail.refine (fun _ _ _ _ ↦ True)
    (J := fun n row ↦ (w.db.skus n).map GoodsSKU.price = some row.price)
    (fun n row hrow ↦ by rw [hrow]; rfl)
    fun p _ old new hold hok ↦ ⟨trivial, by rw [hold, hok.price]⟩
  intro n
  rw [hskus]
  rcases hrow : pending.overlay w.db.skus n with - | row
  · rcases hold : w.db.skus n with - | old
    · rfl
    · obtain ⟨new, hnew⟩ := Table.exists_overlay hold pending
      rw [hrow] at hnew
      cases hnew
  · exact (hprice n row hrow).symm

/-- **One command and the products**: nothing, unless a checkout commits. -/
theorem Effect.skus_cases {pick : Prop → Pick → Prop} (huser : (request t).user = some u)
    (h : Effect request pick t w w') :
    w'.db.skus = w.db.skus ∨ ∃ r, Placed request pick t r w w' := by
  cases h with
  | quiet h => exact .inl (by rw [h.db])
  | hdel _ _ _ hdb => exact .inl (by rw [hdb])
  | hset _ _ _ _ hdb => exact .inl (by rw [hdb])
  | placed r h => exact .inr ⟨r, h⟩
  | paid _ _ _ h => exact .inl (by rw [h.saved.db])
  | finished _ _ h => exact .inl (by rw [h.saved.db])
  | commented _ _ _ hdb => exact .inl (by rw [hdb])
  | addressed _ _ h => exact .inl (by rw [h.db])
  | edited _ _ _ _ hreq =>
    rw [hreq] at huser
    cases huser
  | browsed _ _ _ hdb => exact .inl (by rw [hdb])

/-! ### Runs -/

/-- **Users cannot touch each other's records.** From any reachable state, moves of requests of `u` leave
the records of all others as they are; they change products in stock and sales only, and only if some of
them are moves of a checkout. -/
theorem others_untouched {db : Db} (hlinked : db.Linked) {carts : ℕ → Cart} {gateway : ℕ → Answer}
    {s s' : State Services ι (World ι) Session Reply} {ms : List (Move ι)}
    (hs : (site ι).Reach AnyMove (start db carts gateway request) s)
    (hms : ∀ m ∈ ms, (request m.process).user = some u) (hrun : (site ι).perform s ms = some s') :
    Apart u s.world s'.world ∧ PricesKept s.world.db s'.world.db ∧
      ((∀ m ∈ ms, ∀ now req, request m.process ≠ .commit now req) →
        s'.world.db.skus = s.world.db.skus) := by
  induction ms generalizing s with
  | nil =>
    obtain rfl := Option.some.inj hrun
    exact ⟨.refl u _, .of_skus rfl, fun _ ↦ rfl⟩
  | cons m ms ih =>
    obtain ⟨s₁, hn, hrest⟩ := Option.bind_eq_some_iff.1 hrun
    have heffect := (promise_of_reach (noDiscipline request) hlinked trivial hs hn).effect
    have huser := hms m List.mem_cons_self
    obtain ⟨hapart, hprices, hskus⟩ := ih (hs.move trivial hn)
      (fun m hm ↦ hms m (List.mem_cons_of_mem _ hm)) hrest
    refine ⟨(Apart.of_effect huser heffect).trans hapart, fun n ↦ (hprices n).trans ?_, fun hcommit ↦ ?_⟩
    · obtain hsame | ⟨r, hplaced⟩ := heffect.skus_cases huser
      · exact PricesKept.of_skus hsame n
      · exact PricesKept.of_placed hplaced n
    · rw [hskus fun m hm ↦ hcommit m (List.mem_cons_of_mem _ hm)]
      obtain hsame | ⟨r, hplaced⟩ := heffect.skus_cases huser
      · exact hsame
      · exact absurd hplaced.of.request (hcommit m List.mem_cons_self _ _)

/-- User 7 buys after user 8; the order of user 8 stays. -/
theorem others_untouched_rush : ∃ s s', (site (Fin 2)).perform
      (start smallShop (fun _ ↦ cartOf [("1", 2)]) silent rush) (.replicate 11 (.step 1)) = some s ∧
    (site (Fin 2)).perform s (.replicate 11 (.step 0)) = some s' ∧
    s.world.db.sold 1 = 2 ∧ s'.world.db.sold 1 = 4 ∧ Apart 7 s.world s'.world := by
  have hrun : ((site (Fin 2)).perform (start smallShop (fun _ ↦ cartOf [("1", 2)]) silent rush)
      (.replicate 11 (.step 1))).map (fun s ↦ (s.world.db.sold 1,
        ((site (Fin 2)).perform s (.replicate 11 (.step 0))).map fun s' ↦ s'.world.db.sold 1)) =
      some (2, some 4) := by rfl
  obtain ⟨s, hs, heq⟩ := Option.map_eq_some_iff.1 hrun
  obtain ⟨hsold, heq⟩ := Prod.mk.inj heq
  obtain ⟨s', hs', hsold'⟩ := Option.map_eq_some_iff.1 heq
  have hothers : ∀ m ∈ List.replicate 11 (Move.step (0 : Fin 2)), (rush m.process).user = some 7 :=
    fun m hm ↦ by rw [List.eq_of_mem_replicate hm]; rfl
  exact ⟨s, s', hs, hs', hsold, hsold',
    (others_untouched smallShop_linked ((site (Fin 2)).reach_of_perform hs) hothers hs').1⟩

end DailyFresh
