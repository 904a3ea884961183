import DailyFresh.Results.Totals
import Mathlib.Algebra.Order.BigOperators.Group.List
import Mathlib.Algebra.Order.Group.Int

/-!
# Quantities

A quantity goes through three operations: `CartAddView` adds the count of the form to the stored one,
`CartUpdateView` overwrites it, and the checkout reads it back. Each of them has an upper bound, the
stock, and none of them has a lower one: only the minus buttons of the pages stop at one piece. So
`count=-3` is written to the cart, and the checkout of that cart puts three pieces *back* on stock and
makes an order with a negative price (`goods_returned`).

`quantities_iff` says that nothing else goes wrong: as long as the cart requests ask for at least one
piece, all quantities in carts and lines are positive, no stock rises, no sales fall, and no order costs
less than one of its lines. What a checkout knows of its picks is that their counts are answers of the
cart (`Positive.answers`), and that the rows it read have the sums and prices of the start
(`Regular`).
-/

namespace DailyFresh

open Python Store Interleave

variable {ι : Type} {request : ι → Request} {db : Db} {gateway : ℕ → Answer}

/-- No administrator edits a product. -/
def Customers (request : ι → Request) : Prop :=
  ∀ t id edit, request t ≠ .adminEdit id edit

/-- Every quantity in a cart and every quantity in a line is at least one. -/
structure Quantities (w : World ι) : Prop where
  carts : ∀ user field count, (w.carts user).lookup field = some count → 1 ≤ count
  lines : ∀ line ∈ w.db.lines, 1 ≤ line.count.val

/-- From `db` to `db'` no stock has risen and no sales have fallen, and an order that is new costs
nothing negative and not less than any of its lines. -/
structure Fair (db db' : Db) : Prop where
  skus : ∀ n old new, db.skus n = some old → db'.skus n = some new →
    new.stock.val ≤ old.stock.val ∧ old.sales.val ≤ new.sales.val
  orders : ∀ k row, db.orders k = none → db'.orders k = some row →
    0 ≤ row.totalPrice.val ∧ ∀ line ∈ db'.linesOf k, line.price.val * line.count.val ≤ row.totalPrice.val

theorem Fair.of_eq {db db' : Db} (hskus : db'.skus = db.skus)
    (horders : ∀ k, db.orders k = none → db'.orders k = none) : Fair db db' where
  skus n old new hold hnew := by
    rw [hskus, hold] at hnew
    obtain rfl := Option.some.inj hnew
    exact ⟨le_rfl, le_rfl⟩
  orders k row hnone hrow := by
    rw [horders k hnone] at hrow
    cases hrow

/-- Is a request about to write to a cart? -/
def writesCart (s : State Services ι (World ι) Session Reply) (t : ι) : Bool :=
  match (s.prog t).next? with
  | some (.hset ..) => true
  | _ => false

variable [DecidableEq ι] {s s' : State Services ι (World ι) Session Reply}

/-- If the move is about to write a quantity to a cart, the form — added to what the cart has
answered, for `CartAddView` — asks for at least one piece. -/
def AsksPositive (request : ι → Request) (s : State Services ι (World ι) Session Reply) :
    Move ι → Prop
  | .kill _ => True
  | .step t => writesCart s t = true → ∀ count ∈ (request t).quantity (s.world.log t), 1 ≤ count

instance (s : State Services ι (World ι) Session Reply) : DecidablePred (AsksPositive request s)
  | .kill _ => isTrue trivial
  | .step t => by
    unfold AsksPositive
    infer_instance

/-! ### Rows -/

/-- A row with the sum of the start, and a price that is not negative. -/
def Regular (db : Db) (n : ℕ) (sku : GoodsSKU) : Prop := SameSum db n sku ∧ 0 ≤ sku.price.val

/-- What a pick does to a regular row. -/
structure Took (p : Pick) (old new : GoodsSKU) : Prop where
  stock : new.stock.val = old.stock.val - p.count
  sales : new.sales.val = old.sales.val + p.count
  price : 0 ≤ p.read.price.val

theorem PickOk.took {p : Pick} {fresh : Prop} {old new : GoodsSKU}
    (h : PickOk (fun fresh p ↦ fresh → Regular db p.sku p.read) p fresh old new)
    (hold : Regular db p.sku old) : Took p old new ∧ Regular db p.sku new := by
  have hbooked : PickOk (fun fresh p ↦ fresh → SameSum db p.sku p.read) p fresh old new :=
    { h with pick := fun hfresh ↦ (h.pick hfresh).1 }
  obtain ⟨hstock, hsum, -⟩ := hbooked.booked hold.1
  have hsales : new.sales.val = old.sales.val + p.count := by
    obtain ⟨row, hrow, hnew⟩ := hsum
    obtain ⟨row', hrow', hold'⟩ := hold.1
    obtain rfl := Option.some.inj (hrow.symm.trans hrow')
    omega
  have hread : 0 ≤ p.read.price.val := by
    by_cases hfresh : fresh
    · exact (h.pick hfresh).2
    · rw [← h.own hfresh]
      exact hold.2
  refine ⟨⟨hstock, hsales, hread⟩, hsum, ?_⟩
  rw [h.price]
  exact hold.2

section Step

variable {t : ι} {w w' : World ι} {r : Receipt}

omit [DecidableEq ι] in
theorem Receipt.Of.exists_pick {log : List (Event ι)} (h : r.Of request t log) {line : OrderGoods}
    (hline : line ∈ r.lines) :
    ∃ p ∈ r.picks, line.count.val = p.count ∧ line.price = p.read.price := by
  have hmem : some line ∈ r.lines.map some := List.mem_map_of_mem hline
  rw [← h.lines] at hmem
  obtain ⟨p, hp, hrow⟩ := List.mem_map.1 hmem
  obtain ⟨-, -, hcount, hprice, -⟩ := LineObject.row?_eq_some_iff.1 hrow
  exact ⟨p, hp, hcount, hprice⟩

/-- The trail of a committed checkout, over regular rows. -/
theorem Placed.took (hplaced : Placed request (fun fresh p ↦ fresh → Regular db p.sku p.read) t r w w')
    (hregular : ∀ n sku, w.db.skus n = some sku → Regular db n sku) :
    (∃ pending, Trail Pick.sku (fun p _ ↦ Took p) w.db.skus r.picks pending ∧
      w'.db.skus = pending.overlay w.db.skus) ∧
    ∀ n sku, w'.db.skus n = some sku → Regular db n sku := by
  obtain ⟨pending, htrail, hskus⟩ := hplaced.skus
  obtain ⟨htook, hregular'⟩ := htrail.refine (fun p _ ↦ Took p) hregular
    fun p fresh old new hold hok ↦ hok.took hold
  exact ⟨⟨pending, htook, hskus⟩, hskus ▸ hregular'⟩

/-- The discipline of regular rows. -/
def regularity (hcustomers : Customers request) (db : Db) : Discipline request where
  inv w := ∀ n sku, w.db.skus n = some sku → Regular db n sku
  seen _ n sku _ := Regular db n sku
  pick _ fresh p := fresh → Regular db p.sku p.read
  seen_of h hrow := h _ _ hrow
  seen_mono h _ := h
  pick_of _ _ _ hseen _ _ := hseen
  keeps _ h heffect := by
    cases heffect with
    | quiet hq => exact hq.db ▸ h
    | hdel _ _ _ hdb => exact hdb ▸ h
    | hset _ _ _ _ hdb => exact hdb ▸ h
    | placed r hplaced => exact (hplaced.took h).2
    | paid _ _ _ hpaid => exact hpaid.saved.db ▸ h
    | finished _ _ hfinished => exact hfinished.saved.db ▸ h
    | commented _ _ _ hdb => exact hdb ▸ h
    | addressed _ _ haddressed => exact haddressed.db ▸ h
    | edited id edit _ _ hreq => exact absurd hreq (hcustomers _ id edit)
    | browsed _ _ _ hdb => exact hdb ▸ h

/-- The commit of an order with positive quantities is fair. -/
theorem Placed.fair (hplaced : Placed request (fun fresh p ↦ fresh → Regular db p.sku p.read) t r w w')
    (hlinked : w.db.Linked) (hregular : ∀ n sku, w.db.skus n = some sku → Regular db n sku)
    (hcounts : ∀ p ∈ r.picks, 1 ≤ p.count) : Fair w.db w'.db := by
  obtain ⟨⟨pending, htrail, hskus⟩, -⟩ := hplaced.took hregular
  refine ⟨fun n old new hold hnew ↦ ?_, fun k row hnone hrow ↦ ?_⟩
  · rw [hskus] at hnew
    have hnonneg : 0 ≤ pickedCount r.picks n := by
      refine List.sum_nonneg fun count hcount ↦ ?_
      obtain ⟨p, hp, rfl⟩ := List.mem_map.1 hcount
      have := hcounts p (List.mem_of_mem_filter hp)
      omega
    -- one measure of a row goes up by what was picked, and the other, its negated stock, does too
    obtain ⟨old₁, hold₁, hsales⟩ := htrail.measure_overlay (f := fun sku ↦ sku.sales.val)
      (g := Pick.count) (fun p _ old new hok ↦ hok.sales) n new hnew
    obtain ⟨old₂, hold₂, hstock⟩ := htrail.measure_overlay (f := fun sku ↦ -sku.stock.val)
      (g := Pick.count) (fun p _ old new hok ↦ by have := hok.stock; omega) n new hnew
    obtain rfl := Option.some.inj (hold.symm.trans hold₁)
    obtain rfl := Option.some.inj (hold.symm.trans hold₂)
    have hsales' : new.sales.val = old.sales.val + pickedCount r.picks n := hsales
    have hstock' : -new.stock.val = -old.stock.val + pickedCount r.picks n := hstock
    omega
  · rw [hplaced.orders] at hrow
    rcases eq_or_ne k r.orderId with rfl | hk
    · rw [Table.set_self] at hrow
      obtain rfl := Option.some.inj hrow
      -- the only new order is the committed one: its total is the sum of its lines
      have hobject := (OrderObject.row?_eq_some_iff.1 hplaced.of.row).2
      have hprice : r.row.totalPrice.val = (totals r.picks).price :=
        congrArg OrderObject.totalPrice hobject
      have hnonneg : ∀ amount ∈ r.lines.map (fun line ↦ line.price.val * line.count.val),
          0 ≤ amount := by
        intro amount hamount
        obtain ⟨line, hline, rfl⟩ := List.mem_map.1 hamount
        obtain ⟨p, hp, hcount, hread⟩ := hplaced.of.exists_pick hline
        obtain ⟨_, old, new, htook⟩ := htrail.forall_entry p hp
        have hpositive := hcounts p hp
        rw [hcount, hread]
        exact Int.mul_nonneg htook.price (by omega)
      rw [hplaced.linesOf_self hlinked, hprice, ← lineTotals_eq_totals hplaced.of.lines]
      exact ⟨List.sum_nonneg hnonneg, fun line hline ↦
        List.single_le_sum hnonneg _ (List.mem_map_of_mem hline)⟩
    · rw [Table.set_of_ne hk, hnone] at hrow
      cases hrow

/-! ### Positive quantities -/

/-- All quantities are positive, and so is every count that a cart has ever answered. -/
structure Positive (w : World ι) : Prop extends Quantities w where
  answers : ∀ e ∈ w.history, ∀ count, e.counted = some count → 1 ≤ count

/-- The counts of a receipt's picks are positive: the cart has answered them. -/
theorem Positive.picked (h : Positive w) (hof : r.Of request t (w.log t)) :
    ∀ p ∈ r.picks, 1 ≤ p.count := by
  intro p hp
  have hmem : (p.raw, p.count) ∈ takenItems (w.log t) := by
    rw [hof.taken]
    exact List.mem_map_of_mem (f := fun p : Pick ↦ (p.raw, p.count)) hp
  obtain ⟨e, he, hcounted⟩ := counted_of_mem_takenItems hmem
  exact h.answers e (World.mem_log_iff.1 he).1 _ hcounted

omit [DecidableEq ι] in
/-- Lines stay or are positive, cart entries stay or are written positive, and the command was answered
no count or a positive one. -/
theorem Positive.same (h : Positive w) (hlines : ∀ line ∈ w'.db.lines, 1 ≤ line.count.val)
    (hcarts : ∀ user field count, (w'.carts user).lookup field = some count →
      (w.carts user).lookup field = some count ∨ 1 ≤ count)
    {e : Event ι} (hhistory : w'.history = e :: w.history)
    (he : ∀ count, e.counted = some count → 1 ≤ count) : Positive w' where
  carts user field count hcount := (hcarts user field count hcount).elim (h.carts _ _ _) id
  lines := hlines
  answers e' he' := by
    rw [hhistory] at he'
    rcases List.mem_cons.1 he' with rfl | he'
    · exact he
    · exact h.answers e' he'

/-- What a cart answers is its entry, and so positive. -/
theorem Positive.counted (h : Positive w) {e : Event ι} (hplain : e.Plain w) (count : ℤ)
    (hcount : e.counted = some count) : 1 ≤ count := by
  obtain ⟨u, c, answer⟩ := e
  cases c with
  | hget user field =>
    have hlookup : answer = (w.carts user).lookup field := hplain
    exact h.carts user field count (hlookup.symm.trans hcount)
  | _ => cases hcount

/-- **Every command keeps the quantities positive**, if what it writes to a cart is. -/
theorem Positive.effect {pick : Prop → Pick → Prop} (h : Positive w)
    (hasks : ∀ user field value, w'.history = ⟨t, .hset user field value, ()⟩ :: w.history →
      1 ≤ value) (heffect : Effect request pick t w w') : Positive w' := by
  cases heffect with
  | quiet hq =>
    obtain hhistory | ⟨e, hhistory, -, hplain⟩ := hq.history
    · exact ⟨⟨hq.carts ▸ h.carts, hq.db ▸ h.lines⟩, hhistory ▸ h.answers⟩
    exact h.same (hq.db ▸ h.lines) (fun _ _ _ ↦ hq.carts ▸ .inl) hhistory (h.counted hplain)
  | hdel user fields _ hdb hcarts hhistory =>
    refine h.same (hdb ▸ h.lines) (fun user' field count hcount ↦ .inl ?_) hhistory
      fun _ hcount ↦ by cases hcount
    rw [hcarts] at hcount
    rcases eq_or_ne user' user with rfl | huser
    · rw [Function.update_self, Cart.lookup_hdel] at hcount
      split at hcount
      · cases hcount
      · exact hcount
    · rwa [Function.update_of_ne huser] at hcount
  | hset user field value _ hdb hcarts hhistory =>
    refine h.same (hdb ▸ h.lines) (fun user' field' count hcount ↦ ?_) hhistory
      fun _ hcount ↦ by cases hcount
    rw [hcarts] at hcount
    rcases eq_or_ne user' user with rfl | huser
    · rw [Function.update_self] at hcount
      rcases eq_or_ne field' field with rfl | hfield
      · rw [AList.lookup_insert] at hcount
        exact .inr (Option.some.inj hcount ▸ hasks _ _ _ hhistory)
      · rw [AList.lookup_insert_ne hfield] at hcount
        exact .inl hcount
    · rw [Function.update_of_ne huser] at hcount
      exact .inl hcount
  | placed r hplaced =>
    refine h.same (fun line hline ↦ ?_) (fun _ _ _ ↦ hplaced.carts ▸ .inl) hplaced.history
      fun _ hcount ↦ by cases hcount
    rw [hplaced.lines] at hline
    rcases List.mem_append.1 hline with hline | hline
    · exact h.lines line hline
    · -- a new line has the count of its pick, which the cart has answered
      obtain ⟨p, hp, hcount, -⟩ := hplaced.of.exists_pick hline
      exact hcount ▸ h.picked hplaced.of p hp
  | paid order answer row hpaid =>
    exact h.same (hpaid.saved.db ▸ h.lines) (fun _ _ _ ↦ hpaid.saved.carts ▸ .inl)
      hpaid.saved.history fun _ hcount ↦ by cases hcount
  | finished order row hfinished =>
    exact h.same (hfinished.saved.db ▸ h.lines) (fun _ _ _ ↦ hfinished.saved.carts ▸ .inl)
      hfinished.saved.history fun _ hcount ↦ by cases hcount
  | commented lines _ hcore hdb hcarts hhistory =>
    obtain ⟨id, line, comment, hhistory⟩ := hhistory
    refine h.same (fun line hline ↦ ?_) (fun _ _ _ ↦ hcarts ▸ .inl) hhistory
      fun _ hcount ↦ by cases hcount
    rw [hdb] at hline
    -- a comment changes no core, so the line is one of before
    have hmem : line.core ∈ w.db.coreLines := hcore ▸ List.mem_map_of_mem hline
    obtain ⟨line₀, hline₀, heq⟩ := List.mem_map.1 hmem
    have hcount : line₀.core.count = line.core.count := by rw [heq]
    exact hcount ▸ h.lines line₀ hline₀
  | addressed address row haddressed =>
    exact h.same (haddressed.db ▸ h.lines) (fun _ _ _ ↦ haddressed.carts ▸ .inl) haddressed.history
      fun _ hcount ↦ by cases hcount
  | edited id edit n sku _ _ hdb hcarts hhistory =>
    exact h.same (hdb ▸ h.lines) (fun _ _ _ ↦ hcarts ▸ .inl) hhistory
      fun _ hcount ↦ by cases hcount
  | browsed user list _ hdb hcarts hhistory =>
    obtain ⟨e, hhistory, -, hplain⟩ := hhistory
    exact h.same (hdb ▸ h.lines) (fun _ _ _ ↦ hcarts ▸ .inl) hhistory (h.counted hplain)

/-- A write to a cart writes the quantity that was asked for. -/
theorem Effect.of_hset {pick : Prop → Pick → Prop} {user : ℕ} {field : Str} {value : ℤ}
    (hhistory : w'.history = ⟨t, .hset user field value, ()⟩ :: w.history)
    (heffect : Effect request pick t w w') : (request t).quantity (w.log t) = some value ∧
      w'.carts = Function.update w.carts user ((w.carts user).insert field value) := by
  have hcmd : ∀ {e : Event ι}, w'.history = e :: w.history → e = ⟨t, .hset user field value, ()⟩ :=
    fun h ↦ (List.cons.inj (h.symm.trans hhistory)).1
  cases heffect with
  | quiet hq => cases hq.plain hhistory
  | hset user' field' value' hrequest _ hcarts hcons =>
    cases hcmd hcons
    exact ⟨hrequest.2, hcarts⟩
  | hdel _ _ _ _ _ hcons => cases hcmd hcons
  | placed r hplaced => cases hcmd hplaced.history
  | paid _ _ _ hpaid => cases hcmd hpaid.saved.history
  | finished _ _ hfinished => cases hcmd hfinished.saved.history
  | commented _ _ _ _ _ hcons =>
    obtain ⟨_, _, _, hcons⟩ := hcons
    cases hcmd hcons
  | addressed _ _ haddressed => cases hcmd haddressed.history
  | edited _ _ _ _ _ _ _ _ hcons => cases hcmd hcons
  | browsed _ _ _ _ _ hcons =>
    obtain ⟨e, hcons, -, hplain⟩ := hcons
    rw [hcmd hcons] at hplain
    cases hplain

end Step

/-! ### Runs -/

section Runs

variable {carts : ℕ → Cart} {m : Move ι}

/-- A move that leaves positive quantities asks for a positive quantity. -/
theorem asksPositive_of_quantities (hn : (site ι).next s m = some s') {pick : Prop → Pick → Prop}
    (heffect : Effect request pick m.process s.world s'.world) (h : Quantities s'.world) :
    AsksPositive request s m := by
  cases m with
  | kill t => trivial
  | step t =>
    intro hwrites count hcount
    obtain ⟨c, r, l, hc, -, hhistory⟩ := next_step_history hn
    cases c with
    | hset user field value =>
      obtain ⟨hquantity, hcarts⟩ := heffect.of_hset hhistory
      obtain rfl := Option.some.inj (hcount.symm.trans hquantity)
      refine h.carts user field count ?_
      rw [hcarts, Function.update_self, AList.lookup_insert]
    | _ =>
      rw [writesCart, hc] at hwrites
      cases hwrites

/-- A move that asks for a positive quantity keeps the quantities positive. -/
theorem Positive.next (h : Positive s.world) (hn : (site ι).next s m = some s')
    {pick : Prop → Pick → Prop} (heffect : Effect request pick m.process s.world s'.world)
    (hasks : AsksPositive request s m) : Positive s'.world := by
  cases m with
  | kill t =>
    rw [next_kill_world hn]
    exact ⟨⟨h.carts, h.lines⟩, h.answers⟩
  | step t =>
    refine h.effect (fun user field value hset ↦ ?_) heffect
    obtain ⟨c, r, l, hc, -, hhistory⟩ := next_step_history hn
    cases (List.cons.inj (hhistory.symm.trans hset)).1
    have hwrites : writesCart s t = true := by rw [writesCart, hc]
    exact hasks hwrites value (heffect.of_hset hset).1

variable (hcustomers : Customers request) (hlinked : db.Linked)
  (hlines : ∀ line ∈ db.lines, 1 ≤ line.count.val)
  (hprices : ∀ n sku, db.skus n = some sku → 0 ≤ sku.price.val)

include hprices

omit [DecidableEq ι] in
theorem regular_initial (n : ℕ) (sku : GoodsSKU)
    (hsku : (World.initial (ι := ι) db carts gateway).db.skus n = some sku) : Regular db n sku :=
  ⟨⟨sku, hsku, rfl⟩, hprices n sku hsku⟩

include hcustomers hlinked hlines

/-- In a run whose moves ask for positive quantities, all quantities are positive. -/
theorem positive_of_reach
    (hs : (site ι).Reach (AsksPositive request) (start db (fun _ ↦ ∅) gateway request) s) :
    Positive s.world := by
  induction hs with
  | refl =>
    refine ⟨⟨fun user field count h ↦ ?_, hlines⟩, fun _ h ↦ by cases h⟩
    cases (AList.lookup_empty field).symm.trans h
  | @move s₁ s₂ m hs₁ hasks hn ih =>
    have heffect := (promise_of_reach (regularity hcustomers db) hlinked (regular_initial hprices)
      (hs₁.mono fun _ _ _ ↦ trivial) hn).effect
    exact ih.next hn heffect hasks

/-- One move of such a run is fair. -/
theorem fair_of_next
    (hs : (site ι).Reach (AsksPositive request) (start db (fun _ ↦ ∅) gateway request) s)
    (hn : (site ι).next s m = some s') : Fair s.world.db s'.world.db := by
  have hreach : (site ι).Reach AnyMove (start db (fun _ ↦ ∅) gateway request) s :=
    hs.mono fun _ _ _ ↦ trivial
  have hpositive := positive_of_reach hcustomers hlinked hlines hprices hs
  have hregular := inv_of_reach (regularity hcustomers db) hlinked (regular_initial hprices) hreach
  have hlinked' := linked_of_reach hlinked hreach
  have hset : ∀ {k row}, s'.world.db.orders = s.world.db.orders.set k row →
      (∃ old, s.world.db.orders k = some old) →
      ∀ k', s.world.db.orders k' = none → s'.world.db.orders k' = none := by
    rintro k row horders ⟨old, hold⟩ k' hnone
    have hne : k' ≠ k := fun hk ↦ by
      rw [hk, hold] at hnone
      cases hnone
    rw [horders, Table.set_of_ne hne, hnone]
  cases (promise_of_reach (regularity hcustomers db) hlinked (regular_initial hprices)
      hreach hn).effect with
  | quiet hq => exact .of_eq (by rw [hq.db]) fun _ ↦ hq.db ▸ id
  | hdel _ _ _ hdb => exact .of_eq (by rw [hdb]) fun _ ↦ hdb ▸ id
  | hset _ _ _ _ hdb => exact .of_eq (by rw [hdb]) fun _ ↦ hdb ▸ id
  | placed r hplaced => exact hplaced.fair hlinked' hregular (hpositive.picked hplaced.of)
  | paid order answer row hpaid =>
    obtain ⟨old, hold, -⟩ := hpaid.saved.old
    exact .of_eq (by rw [hpaid.saved.db]) (hset hpaid.saved.orders ⟨old, hold⟩)
  | finished order row hfinished =>
    obtain ⟨old, hold, -⟩ := hfinished.saved.old
    exact .of_eq (by rw [hfinished.saved.db]) (hset hfinished.saved.orders ⟨old, hold⟩)
  | commented _ _ _ hdb => exact .of_eq (by rw [hdb]) fun _ ↦ hdb ▸ id
  | addressed _ _ haddressed =>
    exact .of_eq (by rw [haddressed.db]) fun _ ↦ haddressed.db ▸ id
  | edited id edit _ _ hreq => exact absurd hreq (hcustomers _ id edit)
  | browsed _ _ _ hdb => exact .of_eq (by rw [hdb]) fun _ ↦ hdb ▸ id

/-- **Quantities stay positive, and orders fair, if and only if the cart requests ask for positive
quantities.** -/
theorem quantities_iff {ms : List (Move ι)} :
    (site ι).AllMoves (fun s _ s' ↦ Quantities s'.world ∧ Fair s.world.db s'.world.db) ms
      (start db (fun _ ↦ ∅) gateway request) ↔
    (site ι).AllMoves (fun s m _ ↦ AsksPositive request s m) ms
      (start db (fun _ ↦ ∅) gateway request) := by
  constructor
  · refine Machine.AllMoves.imp AnyMove (fun s m s' hs _ hn h ↦ ?_) .refl
      (Machine.allMoves_of_forall (fun _ _ _ ↦ trivial) ms _)
    exact asksPositive_of_quantities hn (promise_of_reach (noDiscipline request) hlinked trivial hs
      hn).effect h.1
  · intro hasks
    refine Machine.AllMoves.imp _ (fun s m s' hs hm hn _ ↦ ⟨?_, ?_⟩) .refl hasks hasks
    · exact (positive_of_reach hcustomers hlinked hlines hprices (hs.move hm hn)).toQuantities
    · exact fair_of_next hcustomers hlinked hlines hprices hs hn

end Runs


/-- User 7 sets the quantity of the first product. -/
def updateTo (count : String) : Request :=
  .cartUpdate { user := some 7, POST := formData [("sku_id", "1"), ("count", count)] }

/-- User 7 sets a quantity and buys the first product. -/
def buying (count : String) : Fin 2 → Request := ![updateTo count, checkoutOf 7 0 "1"]

theorem buying_customers (count : String) : Customers (buying count) := by
  intro t id edit h
  match t with
  | 0 => cases h
  | 1 => cases h

/-- The update, and then the checkout. -/
def buyingRun : List (Move (Fin 2)) := .replicate 3 (.step 0) ++ .replicate 11 (.step 1)

/-- Two pieces are bought. -/
theorem quantities_iff_buying : (site (Fin 2)).AllMoves
      (fun s _ s' ↦ Quantities s'.world ∧ Fair s.world.db s'.world.db) buyingRun
      (start smallShop (fun _ ↦ ∅) silent (buying "2")) ∧
    (site (Fin 2)).AllMoves (fun s m _ ↦ AsksPositive (buying "2") s m) buyingRun
      (start smallShop (fun _ ↦ ∅) silent (buying "2")) :=
  have hasks : (site (Fin 2)).AllMoves (fun s m _ ↦ AsksPositive (buying "2") s m) buyingRun
      (start smallShop (fun _ ↦ ∅) silent (buying "2")) := by decide
  ⟨(quantities_iff (buying_customers "2") smallShop_linked (fun _ h ↦ by cases h)
    fun _ _ h ↦ (smallShop_nonneg h).1).2 hasks, hasks⟩

/-- **Minus three pieces**: the commit of the checkout puts them back on stock and lowers the sales, and
the line that it leaves counts minus three. -/
theorem goods_returned : ∃ s s', (site (Fin 2)).perform
      (start smallShop (fun _ ↦ ∅) silent (buying "-3")) buyingRun.dropLast = some s ∧
    (site (Fin 2)).next s (.step 1) = some s' ∧
    (s.world.db.skus 1).map (fun sku ↦ (sku.stock.val, sku.sales.val)) = some (5, 0) ∧
    (s'.world.db.skus 1).map (fun sku ↦ (sku.stock.val, sku.sales.val)) = some (8, -3) ∧
    s'.world.db.lines.map (fun line ↦ line.count.val) = [-3] ∧
    ¬ (site (Fin 2)).AllMoves (fun s _ s' ↦ Quantities s'.world ∧ Fair s.world.db s'.world.db)
      buyingRun (start smallShop (fun _ ↦ ∅) silent (buying "-3")) := by
  have hrun : ((site (Fin 2)).perform (start smallShop (fun _ ↦ ∅) silent (buying "-3"))
      buyingRun.dropLast).bind (fun s ↦ ((site (Fin 2)).next s (.step 1)).map fun s' ↦
        ((s.world.db.skus 1).map (fun sku ↦ (sku.stock.val, sku.sales.val)),
          (s'.world.db.skus 1).map (fun sku ↦ (sku.stock.val, sku.sales.val)),
          s'.world.db.lines.map fun line ↦ line.count.val)) =
      some (some (5, 0), some (8, -3), [-3]) := by rfl
  obtain ⟨s, hs, hnext⟩ := Option.bind_eq_some_iff.1 hrun
  obtain ⟨s', hn, hvalues⟩ := Option.map_eq_some_iff.1 hnext
  obtain ⟨hold, hvalues⟩ := Prod.mk.inj hvalues
  obtain ⟨hnew, hcounts⟩ := Prod.mk.inj hvalues
  refine ⟨s, s', hs, hn, hold, hnew, hcounts, fun hall ↦ ?_⟩
  have hall : (site (Fin 2)).AllMoves (fun s _ s' ↦ Quantities s'.world ∧ Fair s.world.db s'.world.db)
    (buyingRun.dropLast ++ [.step 1]) _ := hall
  have hlast := Machine.allMoves_last hall hs hn
  obtain ⟨line, hline, hcount⟩ := List.mem_map.1 (hcounts ▸ List.mem_singleton_self (-3 : ℤ))
  have := hlast.1.lines line hline
  omega

end DailyFresh
