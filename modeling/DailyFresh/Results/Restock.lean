import DailyFresh.Concurrent.Rows
import DailyFresh.Results.Stock

/-!
# Restocking

The conditional update of a checkout compares the stock with what was read, and writes stock and sales.
Among checkouts the sales are then those that were read as well (`DailyFresh.Results.Stock`); an
administrator who restocks the product breaks that: the stock may come back to a value that a checkout
has read before others bought, and the update overwrites their sales (`restocked_between`).

`sales_eq_sold_of_current` says when the sales are right in every state of a run, with any number of
checkouts and of forms that keep the sales: whenever a conditional update finds the stock it asks for, it
also finds the sales that were read. As everywhere, a form that is saved after somebody has bought
since it was loaded loses that sale; so it is assumed that forms are saved undisturbed (`EditsAlone`).
-/

namespace DailyFresh

open Python Store Interleave

variable {ι : Type}

/-- Only checkouts, and forms of administrators that keep the sales, are handled. -/
def Restocking (request : ι → Request) : Prop :=
  ∀ t, (∃ now req, request t = .commit now req) ∨
    ∃ id edit, request t = .adminEdit id edit ∧ ∀ sku : GoodsSKU, (edit sku).sales = sku.sales

/-- The sum of stock and sales is the same. -/
def SumKept (row old : GoodsSKU) : Prop :=
  row.stock.val + row.sales.val = old.stock.val + old.sales.val

variable [DecidableEq ι]

/-- A checkout that took product `n` has committed since the last command of `t`. -/
def SoldSince (t : ι) (n : ℕ) (w : World ι) : Prop :=
  ∃ e ∈ w.history.takeWhile fun e ↦ e.process ≠ t, e.cmd = .commit ∧
    (w.log e.process).any Event.clears = true ∧ ∃ x ∈ takenItems (w.log e.process), int x.1 = some (n : ℤ)

instance (t : ι) (n : ℕ) (w : World ι) : Decidable (SoldSince t n w) :=
  inferInstanceAs (Decidable (∃ e ∈ _, _ ∧ _ ∧ ∃ x ∈ _, _))

/-- A form is saved only if nobody has bought the product since it was loaded. -/
def EditsAlone (s : State Services ι (World ι) Session Reply) : Move ι → Prop
  | .kill _ => True
  | .step t =>
    match (s.prog t).next? with
    | some (.skuSave n _) => ¬ SoldSince t n s.world
    | _ => True

instance (s : State Services ι (World ι) Session Reply) : DecidablePred (EditsAlone s)
  | .kill _ => isTrue trivial
  | .step t => by
    show Decidable (match (s.prog t).next? with
      | some (.skuSave n _) => _
      | _ => True)
    rcases (s.prog t).next? with - | c
    · infer_instance
    · rcases c <;> infer_instance

/-- A conditional update that finds the stock it asks for also finds the sales that have been read. -/
def SalesAsRead (s : State Services ι (World ι) Session Reply) : Move ι → Prop
  | .kill _ => True
  | .step t =>
    match (s.prog t).next? with
    | some (.skuUpdate id orginStock _ _) =>
      ∀ found ∈ (findRow (s.world.skus (s.loc t)) id).toOption, found.2.stock.val = orginStock →
        ∀ read ∈ lastRead (s.world.log t), read.2.sales = found.2.sales
    | _ => True

instance (s : State Services ι (World ι) Session Reply) : DecidablePred (SalesAsRead s)
  | .kill _ => isTrue trivial
  | .step t => by
    show Decidable (match (s.prog t).next? with
      | some (.skuUpdate id orginStock _ _) => _
      | _ => True)
    rcases (s.prog t).next? with - | c
    · infer_instance
    · rcases c <;> infer_instance

/-- The condition on the moves of a run. -/
def Current (s : State Services ι (World ι) Session Reply) (m : Move ι) : Prop :=
  EditsAlone s m ∧ SalesAsRead s m

instance (s : State Services ι (World ι) Session Reply) : DecidablePred (Current s) :=
  fun _ ↦ inferInstanceAs (Decidable (_ ∧ _))

section Moves

variable {s : State Services ι (World ι) Session Reply} {t : ι}

theorem EditsAlone.not_soldSince (h : EditsAlone s (.step t)) {n : ℕ} {x : GoodsSKU}
    (hc : (s.prog t).next? = some (.skuSave n x)) : ¬ SoldSince t n s.world := by
  have h' : (match (s.prog t).next? with
    | some (.skuSave n _) => ¬ SoldSince t n s.world
    | _ => True) := h
  rwa [hc] at h'

theorem SalesAsRead.sales_eq (h : SalesAsRead s (.step t)) {id : Str} {orginStock newStock newSales : ℤ}
    (hc : (s.prog t).next? = some (.skuUpdate id orginStock newStock newSales)) {n m : ℕ}
    {found read : GoodsSKU} (hfound : findRow (s.world.skus (s.loc t)) id = .ok (n, found))
    (hstock : found.stock.val = orginStock) (hread : lastRead (s.world.log t) = some (m, read)) :
    read.sales = found.sales := by
  have h' : (match (s.prog t).next? with
    | some (.skuUpdate id orginStock _ _) =>
      ∀ found ∈ (findRow (s.world.skus (s.loc t)) id).toOption, found.2.stock.val = orginStock →
        ∀ read ∈ lastRead (s.world.log t), read.2.sales = found.2.sales
    | _ => True) := h
  rw [hc] at h'
  exact h' (n, found) (by rw [hfound]; rfl) hstock (m, read) hread

end Moves

/-! ### The form of an administrator -/

/-- What holds at every point of a form: it loads the product, and then saves what it has loaded, edited. -/
structure EditPath (t : ι) (id : Str) (edit : GoodsSKU → GoodsSKU) (es : List (Event ι))
    (p : Program Services Reply) : Prop where
  next : ∀ c, p.next? = some c → (c = .skuGet id ∧ es = []) ∨
    ∃ n sku, c = .skuSave n (edit sku) ∧ es = [⟨t, .skuGet id, .ok (n, sku)⟩]

omit [DecidableEq ι] in
theorem throughout_change (t : ι) (id : Str) (edit : GoodsSKU → GoodsSKU) :
    Throughout (Event.mk t) (EditPath t id edit) (GoodsSKUAdmin.change id edit) [] := by
  have hret : ∀ {reply : Reply} {es : List (Event ι)},
      Throughout (Event.mk t) (EditPath t id edit) (.ret reply) es := ⟨fun _ h ↦ by cases h⟩
  refine ⟨⟨fun c hc ↦ .inl ⟨(Option.some.inj hc).symm, rfl⟩⟩, fun r ↦ ?_⟩
  rcases r with e | ⟨n, sku⟩
  · exact hret
  refine ⟨⟨fun c hc ↦ .inr ⟨n, sku, (Option.some.inj hc).symm, rfl⟩⟩, fun r ↦ ?_⟩
  rcases r with e | u
  · exact hret
  · exact hret

section Steps

variable {request : ι → Request} {pick : Prop → Pick → Prop} {t : ι} {w w' : World ι}

/-- **What a command of a form can do**: nothing, or save the product it has loaded. -/
theorem Effect.adminEdit_cases {id : Str} {edit : GoodsSKU → GoodsSKU}
    (hreq : request t = .adminEdit id edit) (h : Effect request pick t w w') :
    Quiet t w w' ∨ ∃ n sku, w'.db = { w.db with skus := w.db.skus.set n (edit sku) } ∧
      w'.history = ⟨t, .skuSave n (edit sku), .ok ()⟩ :: w.history := by
  have hdoes := h.quiet_or_does
  rwa [Does, hreq] at hdoes

end Steps

/-! ### Bought since -/

omit [DecidableEq ι] in
theorem mem_takenItems_of_suffix {es es' : List (Event ι)} (h : es <:+ es') {x : Str × ℤ}
    (hx : x ∈ takenItems es) : x ∈ takenItems es' := by
  obtain ⟨newer, rfl⟩ := h
  induction newer with
  | nil => exact hx
  | cons e newer ih =>
    rw [List.cons_append, takenItems]
    split
    · exact List.mem_append_left _ ih
    · exact ih

section Sold

variable {request : ι → Request} {pick : Prop → Pick → Prop} {t u : ι} {n : ℕ} {w w' : World ι}

/-- What others send afterwards does not undo a sale. -/
theorem SoldSince.of_cons (h : SoldSince t n w) {e : Event ι} (hhistory : w'.history = e :: w.history)
    (he : e.process ≠ t) : SoldSince t n w' := by
  obtain ⟨e', he', hcmd, hclears, x, hx, hint⟩ := h
  have hsuffix : w.log e'.process <:+ w'.log e'.process :=
    World.log_suffix (hhistory ▸ List.suffix_cons _ _)
  refine ⟨e', ?_, hcmd, ?_, x, mem_takenItems_of_suffix hsuffix hx, hint⟩
  · rw [hhistory, List.takeWhile_cons_of_pos (by simpa using he)]
    exact List.mem_cons_of_mem _ he'
  · obtain ⟨e₀, he₀, hclears₀⟩ := List.any_eq_true.1 hclears
    exact List.any_eq_true.2 ⟨e₀, hsuffix.subset he₀, hclears₀⟩

/-- The commit of an order sells what it took. -/
theorem soldSince_of_placed {r : Receipt} (h : Placed request pick u r w w') (hu : u ≠ t)
    (hn : n ∈ r.picks.map Pick.sku) : SoldSince t n w' := by
  have hlog := World.log_cons_self h.history
  obtain ⟨p, hp, rfl⟩ := List.mem_map.1 hn
  refine ⟨⟨u, .commit, ()⟩, ?_, rfl, ?_, (p.raw, p.count), ?_, h.of.denotes p hp⟩
  · rw [h.history, List.takeWhile_cons_of_pos (by simpa using hu)]
    exact List.mem_cons_self
  · show (w'.log u).any Event.clears = true
    rw [hlog]
    exact List.any_eq_true.2 ⟨_, List.mem_cons_of_mem _ h.of.hdel, rfl⟩
  · show (p.raw, p.count) ∈ takenItems (w'.log u)
    rw [hlog, takenItems_cons_of_none rfl, h.of.taken]
    exact List.mem_map_of_mem hp

/-- What a checkout has not taken, its commit leaves. -/
theorem Placed.skus_of_not_mem {r : Receipt} (h : Placed request pick u r w w')
    (hn : n ∉ r.picks.map Pick.sku) : w'.db.skus n = w.db.skus n := by
  obtain ⟨pending, htrail, hskus⟩ := h.skus
  rw [hskus, Table.overlay_of_none (htrail.pending_eq_none hn)]

/-- What a checkout takes from the stock is what it has picked. -/
theorem Placed.stock_eq {r : Receipt} (h : Placed request pick u r w w') {old new : GoodsSKU}
    (hold : w.db.skus n = some old) (hnew : w'.db.skus n = some new) :
    new.stock.val = old.stock.val - pickedCount r.picks n := by
  obtain ⟨pending, htrail, hskus⟩ := h.skus
  rw [hskus] at hnew
  obtain ⟨old', hold', hmeasure⟩ := htrail.measure_overlay (f := fun sku ↦ -sku.stock.val)
    (g := Pick.count) (fun p _ old new hok ↦ by
      have hread : old.stock.val = p.read.stock.val := congrArg Subtype.val hok.stock_eq
      have hleft := hok.stock
      omega) n new hnew
  obtain rfl := Option.some.inj (hold.symm.trans hold')
  have hcounts : -new.stock.val = -old.stock.val + pickedCount r.picks n := hmeasure
  omega

end Sold

/-! ### What is known at every point -/

section Reach

variable {request : ι → Request} {db : Db} {carts : ℕ → Cart} {gateway : ℕ → Answer} {t : ι}
  {s s' : State Services ι (World ι) Session Reply} {m : Move ι}

/-- What a checkout that has not been killed is about to send. -/
theorem carrying_of_reach {now : LocalTime} {req : HttpRequest} (hreq : request t = .commit now req)
    (hs : (site ι).Reach AnyMove (start db carts gateway request) s) {c : Cmd}
    (hc : (s.prog t).next? = some c) :
    (∃ user fields, c = .hdel user fields) ∨ c.Carrying (s.world.log t) :=
  (commitPath_of_next hreq hs hc).now.next c hc

/-- What a form that has not been killed is about to send. -/
theorem editPath_of_reach {id : Str} {edit : GoodsSKU → GoodsSKU} (hreq : request t = .adminEdit id edit)
    (hs : (site ι).Reach AnyMove (start db carts gateway request) s) {c : Cmd}
    (hc : (s.prog t).next? = some c) : (c = .skuGet id ∧ s.world.log t = []) ∨
      ∃ n sku, c = .skuSave n (edit sku) ∧ s.world.log t = [⟨t, .skuGet id, .ok (n, sku)⟩] := by
  have hstart : Throughout (Event.mk t) (EditPath t id edit) (request t).handler [] := by
    rw [hreq]
    exact throughout_change t id edit
  exact (Throughout.of_reach_of_next site_logs hstart hs hc).now.next c hc

/-- A form works outside any transaction. -/
theorem idle_of_reach {id : Str} {edit : GoodsSKU → GoodsSKU} (hreq : request t = .adminEdit id edit)
    (hs : (site ι).Reach AnyMove (start db carts gateway request) s) : s.loc t = .idle := by
  induction hs with
  | refl => rfl
  | @move s s' m hs _ hn ih =>
    by_cases hm : t = m.process
    · cases m with
      | kill u =>
        obtain rfl : t = u := hm
        obtain ⟨-, rfl⟩ := (site ι).next_kill_cases hn
        exact State.put_loc_self ..
      | step u =>
        obtain rfl : t = u := hm
        obtain ⟨c, r, w, l, p, hc, hx, rfl⟩ := (site ι).next_step_exec hn
        rw [State.put_loc_self]
        have hx' : exec t s.world (s.loc t) c = some (r, w, l) := hx
        rw [ih] at hx'
        obtain ⟨v, hrun, -⟩ := (exec_eq_some_iff rfl).1 hx'
        obtain ⟨rfl, -⟩ | ⟨n, sku, rfl, -⟩ := editPath_of_reach hreq hs hc
        · cases hrun
          rfl
        · rw [run] at hrun
          split at hrun
          · cases hrun
            rfl
          · cases hrun
    · rw [((site ι).next_other hn hm).2, ih]

/-- Nobody but a form saves a product. -/
theorem Restocking.edit_of_skuSave (hrequest : Restocking request)
    (hs : (site ι).Reach AnyMove (start db carts gateway request) s) {n : ℕ} {x : GoodsSKU}
    (hc : (s.prog t).next? = some (.skuSave n x)) : ∃ id edit sku, request t = .adminEdit id edit ∧
      x = edit sku ∧ x.sales = sku.sales ∧ s.world.log t = [⟨t, .skuGet id, .ok (n, sku)⟩] := by
  rcases hrequest t with ⟨now, req, hreq⟩ | ⟨id, edit, hreq, hkeeps⟩
  · obtain ⟨_, _, heq⟩ | hcarrying := carrying_of_reach hreq hs hc
    · cases heq
    · exact hcarrying.elim
  · obtain ⟨heq, -⟩ | ⟨n', sku, heq, hlog⟩ := editPath_of_reach hreq hs hc
    · cases heq
    · obtain ⟨rfl, rfl⟩ := Cmd.skuSave.inj heq
      exact ⟨id, edit, sku, hreq, rfl, hkeeps sku, hlog⟩

/-- A conditional update writes a row with the sum of the committed one. -/
theorem sumKept_of_update (hrequest : Restocking request)
    (hs : (site ι).Reach AnyMove (start db carts gateway request) s) (hbacked : Backed SumKept s)
    (hread : SalesAsRead s (.step t)) {id : Str} {orginStock newStock newSales : ℤ}
    (hc : (s.prog t).next? = some (.skuUpdate id orginStock newStock newSales)) {n : ℕ}
    {old new : GoodsSKU} (hfind : findRow (s.world.skus (s.loc t)) id = .ok (n, old))
    (hstock : old.stock.val = orginStock) (hupdate : old.update? newStock newSales = some new) :
    ∃ committed, s.world.db.skus n = some committed ∧ SumKept new committed := by
  have hnew : new.stock.val + new.sales.val = old.stock.val + old.sales.val := by
    obtain ⟨hnewStock, hnewSales, -⟩ := GoodsSKU.update?_eq_some_iff.1 hupdate
    rcases hrequest t with ⟨now, req, hreq⟩ | ⟨_, edit, hreq, -⟩
    · obtain ⟨_, _, heq⟩ | ⟨m, read, count, hlast, horgin, htold, hsold⟩ := carrying_of_reach hreq hs hc
      · cases heq
      · -- the sales that the checkout has read are still the row's
        have hsales : read.sales.val = old.sales.val :=
          congrArg Subtype.val (hread.sales_eq hc hfind hstock hlast)
        omega
    · obtain ⟨heq, -⟩ | ⟨_, _, heq, -⟩ := editPath_of_reach hreq hs hc
      · cases heq
      · cases heq
  -- the row that was found is the transaction's own or a committed one
  obtain ⟨-, hseen⟩ := findRow_eq_ok_iff.1 hfind
  obtain hholds | hcommitted := skus_cases hseen
  · obtain ⟨-, committed, hcommitted, hsum⟩ := hbacked t n old hholds
    exact ⟨committed, hcommitted, hnew.trans hsum⟩
  · exact ⟨old, hcommitted, hnew⟩

/-- **What is written and not committed has the sum of stock and sales of the committed row.** -/
theorem backed_next (hrequest : Restocking request)
    (hs : (site ι).Reach AnyMove (start db carts gateway request) s) (h : Backed SumKept s)
    (hm : SalesAsRead s m) (hn : (site ι).next s m = some s') : Backed SumKept s' := by
  refine h.next hn ?_ ?_
  · intro t c n new l ht hc hwrites hatomic
    subst ht
    obtain rfl | ⟨id, _, _, _, old, rfl, hfind, hstock, hupdate⟩ := hwrites.cmd
    · obtain ⟨id, edit, -, hreq, -⟩ := hrequest.edit_of_skuSave hs hc
      rw [idle_of_reach hreq hs] at hatomic
      cases hatomic
    · exact sumKept_of_update hrequest hs h hm hc hfind hstock hupdate
  · intro t c n new l ht hc hwrites _ row hholds
    subst ht
    obtain rfl | ⟨id, _, _, _, old, rfl, hfind, hstock, hupdate⟩ := hwrites.cmd
    · obtain ⟨id, edit, -, hreq, -⟩ := hrequest.edit_of_skuSave hs hc
      rw [idle_of_reach hreq hs] at hholds
      exact absurd hholds (not_holds_idle n row)
    · obtain ⟨committed, hcommitted, hsum⟩ :=
        sumKept_of_update hrequest hs h hm hc hfind hstock hupdate
      obtain ⟨-, committed', hcommitted', hsum'⟩ := h t n row hholds
      obtain rfl := Option.some.inj (hcommitted.symm.trans hcommitted')
      exact hsum'.trans hsum.symm

/-- What a form is about to save has the sales of the committed row, unless somebody has bought since. -/
def Loaded (s : State Services ι (World ι) Session Reply) : Prop :=
  ∀ t n x, (s.prog t).next? = some (.skuSave n x) → ¬ SoldSince t n s.world →
    ∃ old, s.world.db.skus n = some old ∧ x.sales = old.sales

/-- The row that a form has just loaded is the committed one. -/
theorem loaded_self (hrequest : Restocking request)
    (hs : (site ι).Reach AnyMove (start db carts gateway request) s)
    (hn : (site ι).next s (.step t) = some s') {n : ℕ} {x : GoodsSKU}
    (hc' : (s'.prog t).next? = some (.skuSave n x)) :
    ∃ old, s'.world.db.skus n = some old ∧ x.sales = old.sales := by
  obtain ⟨id, edit, sku, hreq, -, hsales, hlog'⟩ :=
    hrequest.edit_of_skuSave (hs.move trivial hn) hc'
  obtain ⟨c, r, l, hc, hx, hhistory⟩ := next_step_history hn
  rw [World.log_cons_self hhistory] at hlog'
  obtain ⟨hevent, -⟩ := List.cons.inj hlog'
  rw [idle_of_reach hreq hs] at hx
  obtain ⟨v, hrun, hworld⟩ := (exec_eq_some_iff rfl).1 hx
  cases hevent
  -- the session is idle, so the row is looked for in the committed table
  have hrun' : some (findRow s.world.db.skus id, s.world, Session.idle) =
      some (.ok (n, sku), v, l) := hrun
  obtain ⟨hfind, hrest⟩ := Prod.mk.inj (Option.some.inj hrun')
  obtain ⟨rfl, -⟩ := Prod.mk.inj hrest
  refine ⟨sku, ?_, hsales⟩
  rw [hworld]
  exact (findRow_eq_ok_iff.1 hfind).2

/-- A move commits an order, or leaves the sales of every product and the lines. -/
theorem sales_cases {pick : Prop → Pick → Prop} (hrequest : Restocking request) (hloaded : Loaded s)
    (hm : EditsAlone s m) (hn : (site ι).next s m = some s')
    (heffect : Effect request pick m.process s.world s'.world) :
    (∃ r, Placed request pick m.process r s.world s'.world) ∨
      s'.world.db.lines = s.world.db.lines ∧ ∀ n old, s.world.db.skus n = some old →
        ∃ new, s'.world.db.skus n = some new ∧ new.sales = old.sales := by
  have hsame : s'.world.db = s.world.db → s'.world.db.lines = s.world.db.lines ∧
      ∀ n old, s.world.db.skus n = some old → ∃ new, s'.world.db.skus n = some new ∧
        new.sales = old.sales :=
    fun hdb ↦ ⟨by rw [hdb], fun n old hold ↦ ⟨old, by rw [hdb, hold], rfl⟩⟩
  rcases hrequest m.process with ⟨now, req, hreq⟩ | ⟨id, edit, hreq, -⟩
  · obtain hquiet | ⟨c, -, -, hdb, -⟩ | hplaced := heffect.commit_cases hreq
    · exact .inr (hsame hquiet.db)
    · exact .inr (hsame hdb)
    · exact .inl hplaced
  · right
    obtain hquiet | ⟨n, sku, hdb, hhistory⟩ := heffect.adminEdit_cases hreq
    · exact hsame hquiet.db
    refine ⟨by rw [hdb], fun n' old hold ↦ ?_⟩
    rw [hdb]
    by_cases hn' : n' = n
    · -- the row that the form saves is the one it has loaded, with nothing bought since
      subst hn'
      refine ⟨edit sku, Table.set_self .., ?_⟩
      cases m with
      | kill t =>
        rw [next_kill_world hn] at hhistory
        exact absurd hhistory.symm (List.cons_ne_self _ _)
      | step t =>
        obtain ⟨c, r, l, hc, -, hevent⟩ := next_step_history hn
        obtain ⟨he, -⟩ := List.cons.inj (hevent.symm.trans hhistory)
        cases he
        obtain ⟨old', hold', hsales⟩ := hloaded t n' (edit sku) hc (hm.not_soldSince hc)
        obtain rfl := Option.some.inj (hold.symm.trans hold')
        exact hsales
    · exact ⟨old, (Table.set_of_ne hn').trans hold, rfl⟩

/-- One move and the forms. -/
theorem Loaded.next {pick : Prop → Pick → Prop} (h : Loaded s) (hrequest : Restocking request)
    (hs : (site ι).Reach AnyMove (start db carts gateway request) s)
    (hm : EditsAlone s m) (hn : (site ι).next s m = some s')
    (heffect : Effect request pick m.process s.world s'.world) : Loaded s' := by
  intro t n x hc' hnot'
  by_cases ht : t = m.process
  · cases m with
    | kill u =>
      obtain rfl : t = u := ht
      obtain ⟨-, rfl⟩ := (site ι).next_kill_cases hn
      rw [State.put_prog_self] at hc'
      cases hc'
    | step u =>
      obtain rfl : t = u := ht
      exact loaded_self hrequest hs hn hc'
  · rw [((site ι).next_other hn ht).1] at hc'
    have hnot : ¬ SoldSince t n s.world := by
      cases m with
      | kill u =>
        rw [next_kill_world hn] at hnot'
        exact hnot'
      | step u =>
        obtain ⟨c, r, l, -, -, hhistory⟩ := next_step_history hn
        exact fun hsold ↦ hnot' (hsold.of_cons hhistory fun hu ↦ ht hu.symm)
    obtain ⟨old, hold, hsales⟩ := h t n x hc' hnot
    obtain ⟨r, hplaced⟩ | ⟨-, hkept⟩ := sales_cases hrequest h hm hn heffect
    · refine ⟨old, ?_, hsales⟩
      rw [hplaced.skus_of_not_mem fun hmem ↦ hnot' (soldSince_of_placed hplaced
        (fun hu ↦ ht hu.symm) hmem), hold]
    · obtain ⟨new, hnew, heq⟩ := hkept n old hold
      exact ⟨new, hnew, hsales.trans heq.symm⟩

/-- The commit of an order keeps the sums of stock and sales. -/
theorem sumKept_of_placed {pick : Prop → Pick → Prop} {receipt : Receipt} (h : Backed SumKept s)
    (hn : (site ι).next s m = some s')
    (hplaced : Placed request pick m.process receipt s.world s'.world) {n : ℕ} {old new : GoodsSKU}
    (hold : s.world.db.skus n = some old) (hnew : s'.world.db.skus n = some new) : SumKept new old := by
  have hsame : s'.world.db.skus = s.world.db.skus → SumKept new old := by
    intro hskus
    rw [hskus, hold] at hnew
    obtain rfl := Option.some.inj hnew
    exact rfl
  obtain ⟨hstep, -⟩ := committing_of_placed hn hplaced
  rw [hstep] at hn
  obtain ⟨c, r, l, -, hx, hevent⟩ := next_step_history hn
  obtain ⟨he, -⟩ := List.cons.inj (hevent.symm.trans hplaced.history)
  cases he
  obtain hkeeps | ⟨-, hends⟩ | ⟨n', row, hwrites⟩ := exec_rows_cases hx
  · exact hsame hkeeps.skus
  · rcases hends.skus with hskus | hskus
    · exact hsame hskus
    rw [hskus] at hnew
    -- a row the checkout has not written stays, and one that it has written has the sum
    rcases hpending : (s.loc m.process).pending.skus n with - | row
    · rw [Table.overlay_of_none hpending, hold] at hnew
      obtain rfl := Option.some.inj hnew
      exact rfl
    · rw [Table.overlay_of_some hpending] at hnew
      obtain rfl := Option.some.inj hnew
      obtain ⟨-, old', hold', hsum⟩ := h m.process n row (.inl hpending)
      obtain rfl := Option.some.inj (hold.symm.trans hold')
      exact hsum
  · obtain heq | ⟨_, _, _, _, _, heq, -⟩ := hwrites.cmd
    · cases heq
    · cases heq

/-! ### The sales -/

/-- The sales of every product have gained, since `db`, what the committed lines count. -/
def SalesRight (db db' : Db) : Prop :=
  ∀ n old, db.skus n = some old → ∃ sku, db'.skus n = some sku ∧
    sku.sales.val - old.sales.val = db'.sold n - db.sold n

/-- **One move keeps the sales right.** -/
theorem SalesRight.next {pick : Prop → Pick → Prop} (h : SalesRight db s.world.db)
    (hrequest : Restocking request) (hbacked : Backed SumKept s) (hloaded : Loaded s) (hm : EditsAlone s m)
    (hn : (site ι).next s m = some s') (heffect : Effect request pick m.process s.world s'.world) :
    SalesRight db s'.world.db := by
  intro n old hold
  obtain ⟨sku, hsku, hsales⟩ := h n old hold
  obtain ⟨receipt, hplaced⟩ | ⟨hlines, hkept⟩ := sales_cases hrequest hloaded hm hn heffect
  · obtain ⟨pending, -, hskus⟩ := hplaced.skus
    obtain ⟨new, hnew⟩ := Table.exists_overlay hsku pending
    rw [← hskus] at hnew
    -- the stock has lost what the lines count, and the sum is kept: the sales have gained it
    have hstock := hplaced.stock_eq hsku hnew
    have hsum : new.stock.val + new.sales.val = sku.stock.val + sku.sales.val :=
      sumKept_of_placed hbacked hn hplaced hsku hnew
    have hsold := hplaced.sold n
    exact ⟨new, hnew, by omega⟩
  · obtain ⟨new, hnew, heq⟩ := hkept n sku hsku
    have hsold : s'.world.db.sold n = s.world.db.sold n := by
      rw [Db.sold, hlines, Db.sold]
    exact ⟨new, hnew, by rw [heq, hsold, hsales]⟩

end Reach

/-- **Restocking and the sales.** Any number of checkouts and of forms that keep the sales, in any
interleaving, any of them killed at any point. As long as no form is saved after a sale since it was
loaded, and every conditional update that finds the stock it asks for finds the sales that were read, the
sales of every product have gained what the committed lines count. -/
theorem sales_eq_sold_of_current {request : ι → Request} (hrequest : Restocking request) {db : Db}
    (hlinked : db.Linked) {carts : ℕ → Cart} {gateway : ℕ → Answer}
    {s : State Services ι (World ι) Session Reply}
    (hs : (site ι).Reach Current (start db carts gateway request) s) : SalesRight db s.world.db := by
  have hinv : Backed SumKept s ∧ Loaded s ∧ SalesRight db s.world.db := by
    induction hs with
    | refl =>
      refine ⟨fun t n row h ↦ absurd h (not_holds_idle n row), fun t n x hc ↦ ?_, fun n old hold ↦ ?_⟩
      · obtain ⟨_, _, _, -, -, -, hlog⟩ := hrequest.edit_of_skuSave .refl hc
        cases hlog
      · refine ⟨old, hold, ?_⟩
        show _ = db.sold n - db.sold n
        omega
    | @move s s' m hs hm hn ih =>
      obtain ⟨hbacked, hloaded, hright⟩ := ih
      have hreach := hs.mono fun _ _ _ ↦ trivial
      have heffect := (promise_of_reach (noDiscipline request) hlinked trivial hreach hn).effect
      exact ⟨backed_next hrequest hreach hbacked hm.2 hn,
        hloaded.next hrequest hreach hm.1 hn heffect,
        hright.next hrequest hbacked hloaded hm.1 hn heffect⟩
  exact hinv.2.2

/-! ### A restock between two buyers -/

/-- Users 7 and 8 buy the first product, and an administrator sets its stock to five. -/
def buyersAndRestock : Fin 3 → Request :=
  ![checkoutOf 7 0 "1", checkoutOf 8 0 "1",
    .adminEdit "1".toList fun sku ↦ { sku with stock := .lit 5 (.refl true) }]

theorem restocking_buyersAndRestock : Restocking buyersAndRestock
  | 0 => .inl ⟨_, _, rfl⟩
  | 1 => .inl ⟨_, _, rfl⟩
  | 2 => .inr ⟨_, _, rfl, fun _ ↦ rfl⟩

/-- One buyer after the other, and the restock between them. -/
theorem sales_eq_sold_of_current_in_order : ∃ s, (site (Fin 3)).perform
      (start smallShop (fun _ ↦ cartOf [("1", 2)]) silent buyersAndRestock)
      ((.replicate 11 0 ++ [2, 2] ++ .replicate 11 1 : List (Fin 3)).map .step) = some s ∧
    s.world.db.sold 1 = 4 ∧ SalesRight smallShop s.world.db := by
  have hrun : ((site (Fin 3)).perform
      (start smallShop (fun _ ↦ cartOf [("1", 2)]) silent buyersAndRestock)
      ((.replicate 11 0 ++ [2, 2] ++ .replicate 11 1 : List (Fin 3)).map .step)).map (fun s ↦
        s.world.db.sold 1) = some 4 := by rfl
  obtain ⟨s, hs, hsold⟩ := Option.map_eq_some_iff.1 hrun
  have hcurrent : (site (Fin 3)).AllMoves (fun s m _ ↦ Current s m)
      ((.replicate 11 0 ++ [2, 2] ++ .replicate 11 1 : List (Fin 3)).map .step)
      (start smallShop (fun _ ↦ cartOf [("1", 2)]) silent buyersAndRestock) := by decide
  exact ⟨s, hs, hsold, sales_eq_sold_of_current restocking_buyersAndRestock smallShop_linked
    (Machine.reach_of_allMoves .refl hs hcurrent)⟩

/-- **A restock between two buyers**: the first one has read the product when the second one buys it; the
restock brings the stock back to what the first one has read. The form is saved undisturbed. -/
theorem restocked_between : ∃ s, (site (Fin 3)).perform
      (start smallShop (fun _ ↦ cartOf [("1", 2)]) silent buyersAndRestock)
      ((.replicate 6 0 ++ .replicate 11 1 ++ [2, 2] ++ .replicate 5 0 : List (Fin 3)).map .step) = some s ∧
    (site (Fin 3)).AllMoves (fun s m _ ↦ EditsAlone s m)
      ((.replicate 6 0 ++ .replicate 11 1 ++ [2, 2] ++ .replicate 5 0 : List (Fin 3)).map .step)
      (start smallShop (fun _ ↦ cartOf [("1", 2)]) silent buyersAndRestock) ∧
    ¬ SalesRight smallShop s.world.db := by
  have hrun : ((site (Fin 3)).perform
      (start smallShop (fun _ ↦ cartOf [("1", 2)]) silent buyersAndRestock)
      ((.replicate 6 0 ++ .replicate 11 1 ++ [2, 2] ++ .replicate 5 0 : List (Fin 3)).map .step)).map
      (fun s ↦ (s.world.db.sold 1, (s.world.db.skus 1).map fun sku ↦ sku.sales.val)) =
        some (4, some 2) := by rfl
  obtain ⟨s, hs, heq⟩ := Option.map_eq_some_iff.1 hrun
  obtain ⟨hsold, hsku⟩ := Prod.mk.inj heq
  refine ⟨s, hs, by decide, fun hright ↦ ?_⟩
  obtain ⟨sku, hrow, hsales⟩ := hright 1 _ rfl
  rw [hrow] at hsku
  have htwo : sku.sales.val = 2 := Option.some.inj hsku
  rw [htwo, hsold] at hsales
  exact absurd hsales (by decide)

end DailyFresh
