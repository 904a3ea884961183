import DailyFresh.Results.Stock

/-!
# A cart entry is bought at most once

Any number of checkouts of one user, with overlapping lists of products: a double click, two tabs. The
count is read from the cart early and the entry is deleted late, and no lock is held on the cart. What
ties the two together is the order of a checkout's commands. It deletes its entries *before* it
commits, so whoever finds the changed stock of a product in the committed table cannot find the entry
in the cart any more (`Once.cleared`, `Once.products`); and whoever read both before the change has
his conditional update refused, because the stock is no longer what he read.

The entry may hold a negative count, since neither cart view refuses one. A user who buys nothing then
has bought more than the entry says (`entry_not_bought`); `entry_bought_once` bounds the quantity by
the larger of the count and zero.
-/

namespace DailyFresh

open Python Store Interleave

variable {ι : Type} [DecidableEq ι] {request : ι → Request} {db : Db} {cart : Cart} {user n : ℕ}

/-- All requests are checkouts of one user, and each lists distinct products by their canonical
ids. -/
def OneBuyer (request : ι → Request) (user : ℕ) : Prop :=
  ∀ t, ∃ now req, request t = .commit now req ∧ req.user = some user ∧
    ∀ text, req.POST "sku_ids".toList = some text →
      ∃ ns : List ℕ, ns.Nodup ∧ split ',' text = ns.map str

omit [DecidableEq ι] in
theorem OneBuyer.asks (h : OneBuyer request user) {t : ι} {now : LocalTime} {req : HttpRequest}
    {c : Checkout} (hreq : request t = .commit now req) (hasks : req.Asks c) :
    c.user = user ∧ ∃ ns : List ℕ, ns.Nodup ∧ c.ids = ns.map str := by
  obtain ⟨now', req', hreq', huser, hids⟩ := h t
  obtain ⟨rfl, rfl⟩ := Request.commit.inj (hreq.symm.trans hreq')
  have htext : req.POST "sku_ids".toList = some c.skuIds := (nonempty_eq_some_iff.1 hasks.skuIds).1
  exact ⟨Option.some.inj (hasks.user.symm.trans huser), hids _ htext⟩

/-- Some checkout has deleted the entry of product `n` from the user's cart. -/
def Cleared (user n : ℕ) (w : World ι) : Prop :=
  ∃ e ∈ w.history, ∃ fields, e.cmd = .hdel user fields ∧ str n ∈ fields

/-- Since `db`, product `n` has not been bought, or the entry of `cart` has been bought once and is
cleared. -/
inductive BoughtOnce (db : Db) (cart : Cart) (user n : ℕ) (w : World ι) : Prop where
  | untouched
      (stock : (w.db.skus n).map GoodsSKU.stock = (db.skus n).map GoodsSKU.stock)
      (sold : w.db.sold n = db.sold n)
  | bought (count : ℤ) (old new : GoodsSKU)
      (entry : cart.lookup (str n) = some count)
      (old_eq : db.skus n = some old) (new_eq : w.db.skus n = some new)
      (stock : new.stock.val = old.stock.val - count)
      (sold : w.db.sold n = db.sold n + count)
      (cleared : Cleared user n w)

/-- The invariant: entries only go, those that were deleted are gone, and every product has been
bought at most once. -/
structure Once (db : Db) (cart : Cart) (user : ℕ) (w : World ι) : Prop where
  entries : ∀ n, (w.carts user).lookup (str n) = none ∨
    (w.carts user).lookup (str n) = cart.lookup (str n)
  cleared : ∀ n, Cleared user n w → (w.carts user).lookup (str n) = none
  products : ∀ n, BoughtOnce db cart user n w

/-- A row with the stock that the product had at the start. -/
def FirstStock (db : Db) (n : ℕ) (sku : GoodsSKU) : Prop :=
  ∃ old, db.skus n = some old ∧ sku.stock = old.stock

/-- What a pick knows: its count is the entry of the cart, and the row it read had the first stock. -/
def FirstPick (db : Db) (cart : Cart) (fresh : Prop) (p : Pick) : Prop :=
  cart.lookup (str p.sku) = some p.count ∧ (fresh → FirstStock db p.sku p.read)

section Steps

variable {t : ι} {w w' : World ι}

omit [DecidableEq ι] in
theorem Cleared.mono (h : Cleared user n w) (hw : w.history <:+ w'.history) : Cleared user n w' := by
  obtain ⟨e, he, hfields⟩ := h
  exact ⟨e, hw.subset he, hfields⟩

omit [DecidableEq ι] in
/-- A committed row has the first stock, or the entry of its product is cleared. -/
theorem Once.seen (h : Once db cart user w) {sku : GoodsSKU} (hsku : w.db.skus n = some sku) :
    FirstStock db n sku ∨ Cleared user n w := by
  cases h.products n with
  | untouched hstock _ =>
    rw [hsku] at hstock
    obtain ⟨old, hold, heq⟩ := Option.map_eq_some_iff.1 hstock.symm
    exact .inl ⟨old, hold, heq.symm⟩
  | bought _ _ _ _ _ _ _ _ hcleared => exact .inr hcleared

omit [DecidableEq ι] in
/-- Tables and carts stay, and nothing is deleted. -/
theorem Once.same (h : Once db cart user w) (hdb : w'.db = w.db) (hcarts : w'.carts = w.carts)
    (hcleared : ∀ n, Cleared user n w' ↔ Cleared user n w) : Once db cart user w' where
  entries n := hcarts ▸ h.entries n
  cleared n hn := hcarts ▸ h.cleared n ((hcleared n).1 hn)
  products n := by
    cases h.products n with
    | untouched hstock hsold => exact .untouched (hdb ▸ hstock) (hdb ▸ hsold)
    | bought count old new hentry hold hnew hstock hsold hc =>
      exact .bought count old new hentry hold (hdb ▸ hnew) hstock (hdb ▸ hsold) ((hcleared n).2 hc)

omit [DecidableEq ι] in
/-- A recorded command that is no `hdel` clears nothing. -/
theorem cleared_cons_iff {e : Event ι} (hhistory : w'.history = e :: w.history)
    (he : ∀ user fields, e.cmd ≠ .hdel user fields) : Cleared user n w' ↔ Cleared user n w := by
  constructor
  · rintro ⟨e', he', fields, hcmd, hmem⟩
    rw [hhistory] at he'
    rcases List.mem_cons.1 he' with rfl | he'
    · exact absurd hcmd (he user fields)
    · exact ⟨e', he', fields, hcmd, hmem⟩
  · exact fun h ↦ h.mono (hhistory ▸ List.suffix_cons _ _)

omit [DecidableEq ι] in
/-- Deleting entries of the user's cart. -/
theorem Once.hdel (h : Once db cart user w) {fields : List Str} (hdb : w'.db = w.db)
    (hcarts : w'.carts = Function.update w.carts user ((w.carts user).hdel fields))
    (hhistory : w'.history = ⟨t, .hdel user fields, ()⟩ :: w.history) : Once db cart user w' := by
  have hlookup : ∀ f, (w'.carts user).lookup f =
      if f ∈ fields then none else (w.carts user).lookup f := by
    intro f
    rw [hcarts, Function.update_self, Cart.lookup_hdel]
  have hmono : w.history <:+ w'.history := hhistory ▸ List.suffix_cons _ _
  refine ⟨fun n ↦ ?_, fun n ↦ ?_, fun n ↦ ?_⟩
  · rw [hlookup]
    split
    · exact .inl rfl
    · exact h.entries n
  · rintro ⟨e, he, fields', hcmd, hmem⟩
    rw [hhistory] at he
    rw [hlookup]
    rcases List.mem_cons.1 he with rfl | he
    · obtain ⟨-, rfl⟩ := Cmd.hdel.inj hcmd
      exact if_pos hmem
    · rw [h.cleared n ⟨e, he, fields', hcmd, hmem⟩, ite_self]
  · cases h.products n with
    | untouched hstock hsold => exact .untouched (hdb ▸ hstock) (hdb ▸ hsold)
    | bought count old new hentry hold hnew hstock hsold hc =>
      exact .bought count old new hentry hold (hdb ▸ hnew) hstock (hdb ▸ hsold) (hc.mono hmono)

omit [DecidableEq ι] in
/-- The picks of a receipt name distinct products, by their canonical ids. -/
theorem Receipt.Of.canonical {r : Receipt} {log : List (Event ι)} (h : r.Of request t log)
    {ns : List ℕ} (hnodup : ns.Nodup) (hids : r.checkout.ids = ns.map str) :
    (∀ p ∈ r.picks, p.raw = str p.sku) ∧ (r.picks.map Pick.sku).Nodup := by
  have hraw : ∀ p ∈ r.picks, p.raw = str p.sku := by
    intro p hp
    have hmem : p.raw ∈ ns.map str := hids ▸ h.sublist.subset (List.mem_map_of_mem hp)
    obtain ⟨m, -, hm⟩ := List.mem_map.1 hmem
    have hint : (m : ℤ) = p.sku := by
      have hdenotes := h.denotes p hp
      rw [← hm, int_str] at hdenotes
      exact Option.some.inj hdenotes
    rw [← hm, Int.ofNat.inj hint]
  refine ⟨hraw, List.Nodup.of_map str ?_⟩
  have hmap : (r.picks.map Pick.sku).map str = r.picks.map Pick.raw := by
    rw [List.map_map]
    exact List.map_congr_left fun p hp ↦ (hraw p hp).symm
  rw [hmap]
  exact (hids ▸ h.sublist).nodup (hnodup.map str_injective)

/-- **The commit of an order buys each of its entries for the first time.** -/
theorem Once.placed (h : Once db cart user w) {r : Receipt}
    (hplaced : Placed request (FirstPick db cart) t r w w') (huser : r.checkout.user = user)
    {ns : List ℕ} (hnodup : ns.Nodup) (hids : r.checkout.ids = ns.map str) :
    Once db cart user w' := by
  obtain ⟨hraw, hskusNodup⟩ := hplaced.of.canonical hnodup hids
  obtain ⟨pending, htrail, hskus⟩ := hplaced.skus
  have hcommit : ∀ user fields, Cmd.commit ≠ .hdel user fields := fun _ _ ↦ by simp
  have hcleared : ∀ n, Cleared user n w' ↔ Cleared user n w :=
    fun n ↦ cleared_cons_iff hplaced.history hcommit
  refine ⟨fun n ↦ hplaced.carts ▸ h.entries n, fun n hn ↦ ?_, fun n ↦ ?_⟩
  · exact hplaced.carts ▸ h.cleared n ((hcleared n).1 hn)
  have hsold := hplaced.sold n
  by_cases hn : n ∈ r.picks.map Pick.sku
  · obtain ⟨p, hp, rfl⟩ := List.mem_map.1 hn
    obtain ⟨fresh, old, new, hfresh, hold, hnew, hok⟩ := htrail.entry_of_nodup hskusNodup p hp
    obtain ⟨hentry, hfirst⟩ := hok.pick
    obtain ⟨first, hfirst, hread⟩ := hfirst hfresh
    -- the pick is the only one of its product, so what the stock lost is its count
    obtain ⟨old', hold', hmeasure⟩ := htrail.measure_overlay (f := fun sku ↦ -sku.stock.val)
      (g := Pick.count) (fun p _ old new hok ↦ by
        have hstock := congrArg Subtype.val hok.stock_eq
        have hnew := hok.stock
        omega) p.sku new hnew
    obtain rfl := Option.some.inj (hold.symm.trans hold')
    have hcounts : -new.stock.val = -old.stock.val + pickedCount r.picks p.sku := hmeasure
    have hstock : new.stock.val = p.read.stock.val - p.count := hok.stock
    have holdRead : old.stock.val = p.read.stock.val := congrArg Subtype.val hok.stock_eq
    have hreadFirst : p.read.stock.val = first.stock.val := congrArg Subtype.val hread
    have hclear : Cleared user p.sku w' := by
      have hmem := hplaced.of.hdel
      rw [World.mem_log_iff, huser] at hmem
      have hin : str p.sku ∈ r.checkout.ids :=
        hplaced.of.sublist.subset (hraw p hp ▸ List.mem_map_of_mem hp)
      exact (hcleared _).2 ⟨_, hmem.1, _, rfl, hin⟩
    refine .bought p.count first new hentry hfirst (hskus ▸ hnew) (by omega) ?_ hclear
    cases h.products p.sku with
    | untouched _ hsold₀ => omega
    | bought count first' row hentry' hfirst' hrow hlost hsold₀ _ =>
      -- bought before, and the stock is still the first one: the entry holds zero
      obtain rfl := Option.some.inj (hfirst.symm.trans hfirst')
      obtain rfl := Option.some.inj (hrow.symm.trans hold)
      obtain rfl := Option.some.inj (hentry.symm.trans hentry')
      omega
  · have hrow : w'.db.skus n = w.db.skus n := by
      rw [hskus, Table.overlay_of_none (htrail.pending_eq_none hn)]
    rw [pickedCount_eq_zero hn, add_zero] at hsold
    cases h.products n with
    | untouched hstock hsold₀ => exact .untouched (hrow ▸ hstock) (hsold.trans hsold₀)
    | bought count old new hentry hold hnew hstock hsold₀ hc =>
      exact .bought count old new hentry hold (hrow ▸ hnew) hstock (hsold.trans hsold₀)
        ((hcleared n).2 hc)

end Steps

/-- **The discipline of entries that are bought once.** -/
def buyingOnce (hbuyer : OneBuyer request user) (db : Db) (cart : Cart) : Discipline request where
  inv := Once db cart user
  seen _ n sku w := FirstStock db n sku ∨ Cleared user n w
  pick _ := FirstPick db cart
  seen_of h hrow := h.seen hrow
  seen_mono h hw := h.imp_right fun hc ↦ hc.mono hw
  pick_of {t w p fresh now req c} h hreq hasks hseen _ hcount := by
    obtain ⟨rfl, -⟩ := hbuyer.asks hreq hasks
    have hentry : (w.carts c.user).lookup (str p.sku) = cart.lookup (str p.sku) := by
      rcases h.entries p.sku with hnone | hentry
      · rw [hnone] at hcount
        cases hcount
      · exact hentry
    refine ⟨hentry.symm.trans hcount, fun hfresh ↦ (hseen hfresh).resolve_right fun hc ↦ ?_⟩
    rw [h.cleared _ hc] at hcount
    cases hcount
  keeps {t w w'} _ h heffect := by
    obtain ⟨now, req, hreq, -⟩ := hbuyer t
    obtain hq | ⟨c, hasks, -, hdb, hcarts, hhistory⟩ | ⟨r, hplaced⟩ := heffect.commit_cases hreq
    · refine h.same hq.db hq.carts fun n ↦ ?_
      obtain hhistory | ⟨e, hhistory, -, hplain⟩ := hq.history
      · rw [Cleared, hhistory, Cleared]
      · exact cleared_cons_iff hhistory hplain.not_hdel
    · obtain ⟨rfl, -⟩ := hbuyer.asks hreq hasks
      exact h.hdel hdb hcarts hhistory
    · obtain ⟨huser, ns, hnodup, hids⟩ := hbuyer.asks hplaced.of.request hplaced.of.asks
      exact h.placed hplaced huser hnodup hids

/-- **A cart entry is bought at most once.** Whatever checkouts of the user are handled, in whatever
order their commands run and wherever they die: the quantity of a product in the lines committed
since is at most the count that the cart held for it, or zero if that was negative. -/
theorem entry_bought_once (hbuyer : OneBuyer request user) (hlinked : db.Linked) {carts : ℕ → Cart}
    {gateway : ℕ → Answer} {s : State Services ι (World ι) Session Reply}
    (hs : (site ι).Reach AnyMove (start db carts gateway request) s) (n : ℕ) :
    s.world.db.sold n - db.sold n ≤ max 0 (((carts user).lookup (str n)).getD 0) := by
  let D := buyingOnce hbuyer db (carts user)
  have hstart : D.inv (.initial db carts gateway) := by
    refine ⟨fun _ ↦ .inr rfl, fun n hn ↦ ?_, fun _ ↦ .untouched rfl rfl⟩
    obtain ⟨e, he, -⟩ := hn
    cases he
  have honce : Once db (carts user) user s.world := inv_of_reach D hlinked hstart hs
  cases honce.products n with
  | untouched _ hsold =>
    rw [hsold, sub_self]
    exact le_max_left ..
  | bought count old new hentry _ _ _ hsold _ =>
    rw [hsold, hentry, add_sub_cancel_left]
    exact le_max_right ..

/-- A double click across the boundary of a second. -/
def doubleClick : Fin 2 → Request := ![checkoutOf 7 0 "1,2", checkoutOf 7 1 "1"]

/-- The second click has read row and entry before the first one takes them; it takes nothing. -/
theorem entry_bought_once_doubleClick : ∃ s, (site (Fin 2)).perform
      (start smallShop (fun _ ↦ cartOf [("1", 2), ("2", 3)]) silent doubleClick)
      (.replicate 6 (.step 0) ++ .replicate 6 (.step 1) ++ .replicate 9 (.step 0) ++
        .replicate 5 (.step 1)) = some s ∧
    (s.prog 1).result? = some (.errmsg 7 "添加订单失败") ∧ s.world.db.sold 1 = 2 ∧
    s.world.db.sold 1 - smallShop.sold 1 ≤
      max 0 (((cartOf [("1", 2), ("2", 3)]).lookup (str 1)).getD 0) := by
  have hrun : ((site (Fin 2)).perform
      (start smallShop (fun _ ↦ cartOf [("1", 2), ("2", 3)]) silent doubleClick)
      (.replicate 6 (.step 0) ++ .replicate 6 (.step 1) ++ .replicate 9 (.step 0) ++
        .replicate 5 (.step 1))).map (fun s ↦ ((s.prog 1).result?, s.world.db.sold 1)) =
          some (some (.errmsg 7 "添加订单失败"), 2) := by rfl
  obtain ⟨s, hs, hvalues⟩ := Option.map_eq_some_iff.1 hrun
  obtain ⟨hreply, hsold⟩ := Prod.mk.inj hvalues
  have hlists : ∀ t, ∃ ns : List ℕ, ns.Nodup ∧
      split ',' (![ "1,2".toList, "1".toList] t) = ns.map str
    | 0 => ⟨[1, 2], by decide, by decide⟩
    | 1 => ⟨[1], by decide, by decide⟩
  have hbuyer : OneBuyer doubleClick 7
    | 0 => ⟨_, _, rfl, rfl, fun _ h ↦ Option.some.inj h ▸ hlists 0⟩
    | 1 => ⟨_, _, rfl, rfl, fun _ h ↦ Option.some.inj h ▸ hlists 1⟩
  exact ⟨s, hs, hreply, hsold,
    entry_bought_once hbuyer smallShop_linked ((site (Fin 2)).reach_of_perform hs) 1⟩

/-- **An entry that nobody buys.** The cart holds −1 of the first product; the checkout is for the
second one, and the first is bought zero times. -/
theorem entry_not_bought : ∃ s, (site (Fin 1)).perform
      (start smallShop (fun _ ↦ cartOf [("1", -1), ("2", 1)]) silent fun _ ↦ checkoutOf 7 0 "2")
      (.replicate 11 (.step 0)) = some s ∧
    (s.prog 0).result? = some (.message 5 "添加成功") ∧
    ¬ s.world.db.sold 1 - smallShop.sold 1 ≤
      ((cartOf [("1", -1), ("2", 1)]).lookup (str 1)).getD 0 := by
  have hrun : ((site (Fin 1)).perform
      (start smallShop (fun _ ↦ cartOf [("1", -1), ("2", 1)]) silent fun _ ↦ checkoutOf 7 0 "2")
      (.replicate 11 (.step 0))).map (fun s ↦ ((s.prog 0).result?, s.world.db.sold 1)) =
          some (some (.message 5 "添加成功"), 0) := by rfl
  obtain ⟨s, hs, hvalues⟩ := Option.map_eq_some_iff.1 hrun
  obtain ⟨hreply, hsold⟩ := Prod.mk.inj hvalues
  refine ⟨s, hs, hreply, ?_⟩
  rw [hsold]
  decide

end DailyFresh
