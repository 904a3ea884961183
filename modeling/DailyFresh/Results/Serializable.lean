import DailyFresh.Concurrent.CommitPath
import DailyFresh.Results.ExactCommit

/-!
# Concurrent checkouts are serializable

Any number of checkouts of different users, with nobody else at work. A checkout reads product rows and
its cart without locking them, and validates by its conditional update no more than the stock. That is
enough: `serializable` says that what is committed at any time is what the requests that have replied
`res` 5 commit when they run one after another, each alone, in the order of their commits.

A replay does not lose an update, and the request itself may have lost some. So the request runs again
over those ids of its list only whose product it has taken (`recorded`), which may be none of them.

## What a pick is known to be

At the commit every picked row still has the stock that was read (`PickOk.stock_eq`). The prices do not
change, and neither do the sums of stock and sales (`SameFigures`); two rows of one product that have these and
the stock in common are equal. So the row that was read is the row that the replay reads. The
count is the entry of the cart at the start (`Frozen.carts`): the cart belongs to this request alone,
which has not deleted from it yet.

With that the trail of the commit is a trail of picks in the sense of a checkout that runs alone
(`PickOk.picked`), `Placed.alone` says what the replay of the commit does, and the theorem follows by
induction on the run: a move commits nothing and changes no order, or it appends one request to both.
-/

namespace DailyFresh

open Python Store Interleave OrderCommitView

variable {ι : Type} {request : ι → Request} {db : Db} {carts : ℕ → Cart} {gateway : ℕ → Answer}

/-- No two requests come from one user. -/
def DifferentUsers (request : ι → Request) : Prop :=
  ∀ t u user, (request t).user = some user → (request u).user = some user → t = u

/-! ### What the rows keep -/

/-- The row `sku` of product `n` has the price that its row in `db` has, and the sum of stock and
sales. -/
structure SameFigures (db : Db) (n : ℕ) (sku : GoodsSKU) : Prop where
  sum : SameSum db n sku
  price : ∃ old, db.skus n = some old ∧ sku.price = old.price

/-- Such rows differ in their stock or not at all. -/
theorem SameFigures.eq_of_stock {n : ℕ} {sku sku' : GoodsSKU} (h : SameFigures db n sku)
    (h' : SameFigures db n sku') (hstock : sku.stock = sku'.stock) : sku = sku' := by
  obtain ⟨⟨old, hold, hsum⟩, old₁, hold₁, hprice⟩ := h
  obtain ⟨⟨old', hold', hsum'⟩, old₁', hold₁', hprice'⟩ := h'
  obtain rfl := Option.some.inj (hold.symm.trans hold')
  obtain rfl := Option.some.inj (hold₁.symm.trans hold₁')
  obtain ⟨price, stock, sales⟩ := sku
  obtain ⟨price', stock', sales'⟩ := sku'
  have hprice : price = price' := hprice.trans hprice'.symm
  have hstock : stock = stock' := hstock
  have hsales : sales = sales' := by
    refine Subtype.ext ?_
    have hsum : stock.val + sales.val = old.stock.val + old.sales.val := hsum
    have hsum' : stock'.val + sales'.val = old.stock.val + old.sales.val := hsum'
    rw [hstock] at hsum
    omega
  rw [hprice, hstock, hsales]

/-- What a request's pick knows: the row that it read has the price and the sum of the start, and the
count is the entry of its user's cart. -/
structure KnownPick (request : ι → Request) (db : Db) (carts : ℕ → Cart) (t : ι) (fresh : Prop)
    (p : Pick) : Prop where
  kept : fresh → SameFigures db p.sku p.read
  entry : ∀ user, (request t).user = some user → (carts user).lookup (str p.sku) = some p.count

/-- **The compare-and-set validates everything**: the row that it found is the row that was read. -/
theorem PickOk.picked {t : ι} {user : ℕ} {p : Pick} {fresh : Prop} {old new : GoodsSKU}
    (h : PickOk (KnownPick request db carts t) p fresh old new) (huser : (request t).user = some user)
    (hold : SameFigures db p.sku old) : Picked (carts user) p old new ∧ SameFigures db p.sku new := by
  have hread : old = p.read := by
    by_cases hfresh : fresh
    · exact hold.eq_of_stock (h.pick.kept hfresh) h.stock_eq
    · exact h.own hfresh
  have hnew := h.stock
  have hsales := h.sales
  refine ⟨⟨hread, h.int_raw, h.pick.entry user huser, h.count_le, hnew, hsales, ?_⟩, ?_, ?_⟩
  · rw [h.price, hread]
  · obtain ⟨row, hrow, hsum⟩ := hold.sum
    rw [hread] at hsum
    exact ⟨row, hrow, by omega⟩
  · rw [h.price]
    exact hold.price

variable [DecidableEq ι]

/-! ### The invariant -/

/-- The products keep prices and sums, and a cart is what it was at the start as long as the request of
its user has not deleted from it. -/
structure Frozen (request : ι → Request) (db : Db) (carts : ℕ → Cart) (w : World ι) : Prop where
  skus : ∀ n sku, w.db.skus n = some sku → SameFigures db n sku
  carts : ∀ t user, (request t).user = some user → NoHdel (w.log t) → w.carts user = carts user

section Step

variable {t : ι} {w w' : World ι} {r : Receipt}

/-- The trail of a commit, as a trail of picks that each found what it had read. -/
theorem Placed.picked (h : Placed request (KnownPick request db carts t) t r w w')
    (hfrozen : Frozen request db carts w) :
    (∃ pending, Trail Pick.sku (fun p _ ↦ Picked (carts r.checkout.user) p) w.db.skus r.picks pending ∧
      w'.db.skus = pending.overlay w.db.skus) ∧
    ∀ n sku, w'.db.skus n = some sku → SameFigures db n sku := by
  have huser : (request t).user = some r.checkout.user := by
    rw [h.of.request]
    exact h.of.asks.user
  obtain ⟨pending, htrail, hskus⟩ := h.skus
  obtain ⟨hpicked, hkept⟩ := htrail.refine (fun p _ ↦ Picked (carts r.checkout.user) p)
    hfrozen.skus fun p fresh old new hold hok ↦ hok.picked huser hold
  exact ⟨⟨pending, hpicked, hskus⟩, hskus ▸ hkept⟩

/-- Every command keeps what is frozen. -/
theorem Frozen.effect (h : Frozen request db carts w) (hcheckouts : Checkouts request)
    (husers : DifferentUsers request)
    (heffect : Effect request (KnownPick request db carts t) t w w') : Frozen request db carts w' := by
  have hbefore : ∀ u, NoHdel (w'.log u) → NoHdel (w.log u) :=
    fun u hnone ↦ hnone.of_suffix (World.log_suffix heffect.history_suffix)
  obtain ⟨now, req, hreq⟩ := hcheckouts t
  obtain hquiet | ⟨c, hasks, -, hdb, hcarts, hhistory⟩ | ⟨r, hplaced⟩ := heffect.commit_cases hreq
  · refine ⟨hquiet.db ▸ h.skus, fun u user huser hnone ↦ ?_⟩
    rw [hquiet.carts]
    exact h.carts u user huser (hbefore u hnone)
  · refine ⟨hdb ▸ h.skus, fun u user huser hnone ↦ ?_⟩
    -- the cart that is written is the cart of the request that has deleted from it
    have hother : user ≠ c.user := by
      rintro rfl
      have hown : (request t).user = some c.user := by
        rw [hreq]
        exact hasks.user
      obtain rfl := husers u t _ huser hown
      rw [World.log_cons_self hhistory] at hnone
      exact hnone _ List.mem_cons_self _ _ rfl
    rw [hcarts, Function.update_of_ne hother]
    exact h.carts u user huser (hbefore u hnone)
  · refine ⟨(hplaced.picked h).2, fun u user huser hnone ↦ ?_⟩
    rw [hplaced.carts]
    exact h.carts u user huser (hbefore u hnone)

/-- The discipline of checkouts of different users. -/
def freezing (hcheckouts : Checkouts request) (husers : DifferentUsers request) (db : Db)
    (carts : ℕ → Cart) : Discipline request where
  inv := Frozen request db carts
  seen _ n sku _ := SameFigures db n sku
  pick := KnownPick request db carts
  seen_of h hrow := h.skus _ _ hrow
  seen_mono h _ := h
  pick_of {t w p fresh now req c} h hreq hasks hseen hnone hcount := by
    refine ⟨hseen, fun user huser ↦ ?_⟩
    have hsame : c.user = user := by
      rw [hreq] at huser
      exact Option.some.inj (hasks.user.symm.trans huser)
    rw [← h.carts t user huser hnone, ← hsame]
    exact hcount
  keeps _ h heffect := h.effect hcheckouts husers heffect

end Step

/-! ### The serial run -/

/-- The request has replied `res` 5. -/
def Accepted (s : State Services ι (World ι) Session Reply) (t : ι) : Prop :=
  (s.prog t).result?.bind Reply.res = some 5

instance (s : State Services ι (World ι) Session Reply) : DecidablePred (Accepted s) := fun _ ↦
  inferInstanceAs (Decidable (_ = _))

/-- The requests that have replied `res` 5, in the order of their commits. -/
def commitOrder (s : State Services ι (World ι) Session Reply) : List ι :=
  ((s.world.history.filter fun e ↦ e.cmd = .commit ∧ Accepted s e.process).map Event.process).reverse

/-- The ids of the list of request `t` whose products it has taken. -/
def recorded (s : State Services ι (World ι) Session Reply) (t : ι) : List Str :=
  (takenItems (s.world.log t)).map Prod.fst

/-- Request `t` once more, over the ids whose products it has taken. -/
def replay (request : ι → Request) (s : State Services ι (World ι) Session Reply) (t : ι) :
    Program Services Reply :=
  match request t with
  | .commit now req => postOn (fun _ ↦ recorded s t) now req
  | other => other.handler

/-! ### Commits and replies -/

section Moves

variable {s s' : State Services ι (World ι) Session Reply} {m : Move ι} {t : ι}

/-- What a process that moves has not yet replied. -/
theorem not_accepted_of_next (hn : (site ι).next s m = some s') : ¬ Accepted s m.process := by
  have hnone : (s.prog m.process).result? = none := by
    rcases hresult : (s.prog m.process).result? with - | reply
    · rfl
    have hreturned := Program.result?_eq_some_iff.1 hresult
    cases m with
    | kill u => exact absurd hreturned (((site ι).next_kill_cases hn).1 reply)
    | step u =>
      obtain ⟨c, x, l, hc, -⟩ := next_step_history hn
      have hreturned : s.prog u = .ret reply := hreturned
      rw [hreturned] at hc
      cases hc
  rw [Accepted, hnone]
  simp

theorem accepted_of_other (hn : (site ι).next s m = some s') {u : ι} (hu : u ≠ m.process) :
    Accepted s' u ↔ Accepted s u := by
  rw [Accepted, Accepted, ((site ι).next_other hn hu).1]

/-- A killed request replies nothing. -/
theorem not_accepted_of_kill (hn : (site ι).next s (.kill t) = some s') : ¬ Accepted s' t := by
  obtain ⟨-, rfl⟩ := (site ι).next_kill_cases hn
  rw [Accepted, State.put_prog_self]
  show ¬ (some Reply.error).bind Reply.res = some 5
  simp

variable {pick : Prop → Pick → Prop} {now : LocalTime} {req : HttpRequest}
  (hreq : request t = .commit now req) (hlinked : db.Linked)
  (hs : (site ι).Reach AnyMove (start db carts gateway request) s)
  (hn : (site ι).next s (.step t) = some s')

include hreq hlinked hs hn

/-- The step by which a request comes to reply `res` 5 is the commit of its order. -/
theorem placed_of_accepted (heffect : Effect request pick t s.world s'.world) (h : Accepted s' t) :
    ∃ r, Placed request pick t r s.world s'.world := by
  obtain ⟨reply, hreply, hres⟩ := Option.bind_eq_some_iff.1 h
  have houtcome := outcome_of_reach (noDiscipline request) hlinked trivial (hs.move trivial hn) hreply
  rw [Outcome, hreq] at houtcome
  obtain ⟨r, hsettled⟩ := houtcome.settled hres
  obtain ⟨c, x, l, hc, -, hhistory⟩ := next_step_history hn
  -- the log has a commit, and that is the command of this step
  have hcommit : c = .commit := by
    have hmem := hsettled.commit
    rw [World.log_cons_self hhistory] at hmem
    rcases List.mem_cons.1 hmem with hfirst | hbefore
    · exact (congrArg Event.cmd hfirst).symm
    · exact absurd rfl ((commitPath_of_step hreq hs hn).1.noCommit hc _ hbefore)
  subst hcommit
  have hsome : ¬ NoHdel (s.world.log t) := by
    have hmem := hsettled.of.hdel
    rw [World.log_cons_self hhistory] at hmem
    rcases List.mem_cons.1 hmem with hfirst | hbefore
    · cases hfirst
    · exact fun hnone ↦ hnone _ hbefore _ _ rfl
  obtain hquiet | ⟨c', -, -, -, -, hcleared⟩ | hplaced := heffect.commit_cases hreq
  · exact absurd (hquiet.plain hhistory) hsome
  · cases (List.cons.inj (hhistory.symm.trans hcleared)).1
  · exact hplaced

omit hlinked in
/-- The commit of an order is the only commit of its request, and the request replies `res` 5. -/
theorem accepted_of_placed {r : Receipt} (hplaced : Placed request pick t r s.world s'.world) :
    Accepted s' t ∧ ∀ e ∈ s.world.log t, e.cmd ≠ .commit := by
  obtain ⟨hpath, hpath'⟩ := commitPath_of_step hreq hs hn
  obtain ⟨c, x, l, hc, -⟩ := next_step_history hn
  rw [World.log_cons_self hplaced.history] at hpath'
  obtain ⟨reply, hreply, hres⟩ := hpath'.of_commit fun hnone ↦ hnone _ hplaced.of.hdel _ _ rfl
  refine ⟨?_, hpath.noCommit hc⟩
  rw [Accepted, hreply]
  exact hres

end Moves

section Order

variable {s s' : State Services ι (World ι) Session Reply} {t u : ι}

theorem mem_commitOrder_iff : u ∈ commitOrder s ↔ Accepted s u ∧ ∃ e ∈ s.world.log u, e.cmd = .commit := by
  rw [commitOrder, List.mem_reverse, List.mem_map]
  constructor
  · rintro ⟨e, he, rfl⟩
    obtain ⟨hmem, hwanted⟩ := List.mem_filter.1 he
    obtain ⟨hcommit, haccepted⟩ := of_decide_eq_true hwanted
    exact ⟨haccepted, e, World.mem_log_iff.2 ⟨hmem, rfl⟩, hcommit⟩
  · rintro ⟨haccepted, e, he, hcommit⟩
    obtain ⟨hmem, rfl⟩ := World.mem_log_iff.1 he
    exact ⟨e, List.mem_filter.2 ⟨hmem, decide_eq_true ⟨hcommit, haccepted⟩⟩, rfl⟩

omit [DecidableEq ι] in
/-- A command of a request that is not accepted leaves the order of the commits. -/
theorem commitOrder_of_not_accepted {e : Event ι} (hhistory : s'.world.history = e :: s.world.history)
    (hsame : ∀ u, Accepted s' u ↔ Accepted s u) (he : ¬ Accepted s' e.process) :
    commitOrder s' = commitOrder s := by
  rw [commitOrder, commitOrder, hhistory, List.filter_cons_of_neg (by simp [he])]
  simp only [hsame]

/-- The commit of an order comes last. -/
theorem commitOrder_of_commit (hhistory : s'.world.history = ⟨t, .commit, ()⟩ :: s.world.history)
    (hsame : ∀ u, u ≠ t → (Accepted s' u ↔ Accepted s u)) (ht : Accepted s' t)
    (hfirst : ∀ e ∈ s.world.log t, e.cmd ≠ .commit) : commitOrder s' = commitOrder s ++ [t] := by
  have hfilter : (s.world.history.filter fun e ↦ e.cmd = .commit ∧ Accepted s' e.process) =
      s.world.history.filter fun e ↦ e.cmd = .commit ∧ Accepted s e.process := by
    refine List.filter_congr fun e he ↦ decide_eq_decide.2 (and_congr_right fun hcommit ↦ hsame _ ?_)
    rintro rfl
    exact hfirst e (World.mem_log_iff.2 ⟨he, rfl⟩) hcommit
  rw [commitOrder, commitOrder, hhistory, List.filter_cons_of_pos (by simp [ht]), List.map_cons,
    List.reverse_cons, hfilter]

/-- The replay of a request depends on its log alone. -/
theorem replay_congr (hlog : s'.world.log u = s.world.log u) :
    replay request s' u = replay request s u := by
  have hrecorded : recorded s' u = recorded s u := by rw [recorded, hlog, recorded]
  unfold replay
  rw [hrecorded]

end Order

/-! ### One commit, replayed -/

/-- **The replay of a commit**: alone on the same rows, orders and addresses, and with the cart of the
start, the request commits the same. -/
theorem Placed.alone {t : ι} {r : Receipt} {w w' : World ι} {db₀ : Db} {carts₀ : ℕ → Cart}
    (h : Placed request (KnownPick request db carts t) t r w w') (hfrozen : Frozen request db carts w)
    (hskus : db₀.skus = w.db.skus) (horders : db₀.orders = w.db.orders) (haddrs : db₀.addrs = w.db.addrs)
    (hcart : carts₀ r.checkout.user = carts r.checkout.user) :
    alone (fun _ ↦ r.picks.map Pick.raw) r.now r.request db₀ carts₀ =
      .ok { checkout := r.checkout, addr := r.addr, orderId := r.orderId, row := r.row,
            basket := { skus := w'.db.skus, lines := r.lines, totals := totals r.picks } } := by
  obtain ⟨⟨pending, htrail, hpending⟩, -⟩ := h.picked hfrozen
  obtain ⟨a, hfind⟩ := h.addr
  have haddress : db₀.address = w.db.address := by
    funext n
    show db₀.addrs.lookup n = w.db.addrs.lookup n
    rw [haddrs]
  obtain ⟨hlength, -⟩ := OrderObject.row?_eq_some_iff.1 h.of.row
  refine alone_eq_ok_iff.2 ⟨r.checkout, r.addr, a, h.of.asks, haddress ▸ hfind, ?_⟩
  exact
    { checkout := rfl
      address := rfl
      orderId := rfl
      fits := by
        have hrow := row?_newOrder r.addr r.checkout.payMethod ⟨0, by decide⟩ ⟨0, by decide⟩ hlength
        exact Option.ne_none_iff_exists'.2 ⟨_, hrow⟩
      absent := horders ▸ h.absent
      taken := by
        refine taken_iff.2 ⟨r.picks, rfl, ⟨⟨pending, ?_, ?_⟩, h.of.lines, rfl⟩⟩
        · rw [hskus, hcart]
          exact htrail
        · rw [hskus]
          exact hpending
      row := h.of.row }

/-! ### The whole run -/

/-- The world `v` of the serial run so far. -/
structure Mirrors (request : ι → Request) (carts : ℕ → Cart)
    (s : State Services ι (World ι) Session Reply) (v : World ι) : Prop where
  skus : v.db.skus = s.world.db.skus
  orders : v.db.orders = s.world.db.orders
  lines : v.db.lines = s.world.db.lines
  addrs : v.db.addrs = s.world.db.addrs
  unlocked : Unlocked v
  carts : ∀ t user, (request t).user = some user → ¬ Accepted s t → v.carts user = carts user

section Run

variable {s s' : State Services ι (World ι) Session Reply} {m : Move ι} {t : ι} {v : World ι} {k : ℕ}

/-- The accepted requests in the order of their commits, each with its replay. -/
def serialRun (request : ι → Request) (s : State Services ι (World ι) Session Reply) :
    List (ι × Program Services Reply) :=
  (commitOrder s).map fun t ↦ (t, replay request s t)

/-- A move by which nobody comes to reply `res` 5 leaves the serial run. -/
theorem serialRun_of_same (horder : commitOrder s' = commitOrder s)
    (hlog : ∀ u, Accepted s u → s'.world.log u = s.world.log u) :
    serialRun request s' = serialRun request s := by
  rw [serialRun, serialRun, horder]
  refine List.map_congr_left fun u hu ↦ ?_
  rw [replay_congr (hlog u (mem_commitOrder_iff.1 hu).1)]

omit [DecidableEq ι] in
theorem Mirrors.same (h : Mirrors request carts s v) (hdb : s'.world.db = s.world.db)
    (hsame : ∀ u, Accepted s' u ↔ Accepted s u) : Mirrors request carts s' v where
  skus := hdb ▸ h.skus
  orders := hdb ▸ h.orders
  lines := hdb ▸ h.lines
  addrs := hdb ▸ h.addrs
  unlocked := h.unlocked
  carts u user huser hu := h.carts u user huser ((hsame u).not.1 hu)

/-- One more commit, one more replay. -/
theorem Mirrors.placed (h : Mirrors request carts s v) (husers : DifferentUsers request) {r : Receipt}
    (hfrozen : Frozen request db carts s.world)
    (hplaced : Placed request (KnownPick request db carts t) t r s.world s'.world)
    (ht : ¬ Accepted s t) (ht' : Accepted s' t) (hsame : ∀ u, u ≠ t → (Accepted s' u ↔ Accepted s u)) :
    (site ι).Ends t k (fun _ w _ ↦ Mirrors request carts s' w) (replay request s' t) v .idle := by
  have huser : (request t).user = some r.checkout.user := by
    rw [hplaced.of.request]
    exact hplaced.of.asks.user
  have hrecorded : recorded s' t = r.picks.map Pick.raw := by
    rw [recorded, World.log_cons_self hplaced.history, takenItems_cons_of_none rfl, hplaced.of.taken,
      List.map_map]
    rfl
  have halone := hplaced.alone hfrozen h.skus h.orders h.addrs (h.carts t _ huser ht)
  have hreplay : replay request s' t = postOn (fun _ ↦ r.picks.map Pick.raw) r.now r.request := by
    unfold replay
    rw [hplaced.of.request, hrecorded]
  rw [hreplay]
  refine (ends_postOn _ _ _ h.unlocked).mono fun reply w l hleft ↦ ?_
  rw [halone] at hleft
  have hdb := hleft.db
  exact
    { skus := by rw [hdb]; rfl
      orders := by
        rw [hdb, hplaced.orders, ← h.orders]
        rfl
      lines := by
        rw [hdb, hplaced.lines, ← h.lines]
        rfl
      addrs := by
        rw [hdb, hplaced.addrs, ← h.addrs]
        rfl
      unlocked := hleft.unlocked
      carts := by
        intro u user hu hnot
        have hne : u ≠ t := by
          rintro rfl
          exact hnot ht'
        -- nobody else buys from the cart that the replay deletes from
        have hother : user ≠ r.checkout.user := by
          rintro rfl
          exact hne (husers u t _ hu huser)
        rw [hleft.carts]
        show Function.update v.carts r.checkout.user _ user = carts user
        rw [Function.update_of_ne hother]
        exact h.carts u user hu ((hsame u hne).not.1 hnot) }

/-- **The serial run mirrors the run**, by induction on its moves. -/
theorem mirrors_of_reach (hcheckouts : Checkouts request) (husers : DifferentUsers request)
    (hlinked : db.Linked) (hs : (site ι).Reach AnyMove (start db carts gateway request) s) :
    (commitOrder s).Nodup ∧ ∃ v,
      (site ι).series k .idle (serialRun request s) (.initial db carts gateway) = some v ∧
        Mirrors request carts s v := by
  have hstart : (freezing hcheckouts husers db carts).inv (.initial (ι := ι) db carts gateway) :=
    ⟨fun n sku hsku ↦ ⟨⟨sku, hsku, rfl⟩, sku, hsku, rfl⟩, fun _ _ _ _ ↦ rfl⟩
  induction hs with
  | refl =>
    exact ⟨List.nodup_nil, _, rfl, rfl, rfl, rfl, rfl, ⟨fun _ ↦ rfl, fun _ ↦ rfl⟩, fun _ _ _ _ ↦ rfl⟩
  | @move s s' m hs _ hn ih =>
    obtain ⟨hnodup, v, hv, hmirrors⟩ := ih
    have hpromise := promise_of_reach (freezing hcheckouts husers db carts) hlinked hstart hs hn
    have hnot : ¬ Accepted s m.process := not_accepted_of_next hn
    have hother : ∀ u, u ≠ m.process → (Accepted s' u ↔ Accepted s u) :=
      fun u hu ↦ accepted_of_other hn hu
    have hlog : ∀ u, Accepted s u → s'.world.log u = s.world.log u := by
      intro u hu
      refine hpromise.considerate.log u ?_
      rintro rfl
      exact hnot hu
    by_cases hnot' : Accepted s' m.process
    · -- the move commits an order: one more replay at the end of the serial run
      cases m with
      | kill t => exact absurd hnot' (not_accepted_of_kill hn)
      | step t =>
        obtain ⟨now, req, hreq⟩ := hcheckouts t
        obtain ⟨r, hplaced⟩ := placed_of_accepted hreq hlinked hs hn hpromise.effect hnot'
        have hfirst := (accepted_of_placed hreq hs hn hplaced).2
        have horder := commitOrder_of_commit hplaced.history hother hnot' hfirst
        have hserial : serialRun request s' = serialRun request s ++ [(t, replay request s' t)] := by
          rw [serialRun, horder, List.map_append]
          refine congrArg (· ++ _) (List.map_congr_left fun u hu ↦ ?_)
          rw [replay_congr (hlog u (mem_commitOrder_iff.1 hu).1)]
        have hfrozen : Frozen request db carts s.world :=
          inv_of_reach (freezing hcheckouts husers db carts) hlinked hstart hs
        obtain ⟨reply, v', l, hv', hmirrors'⟩ :=
          (hmirrors.placed husers hfrozen hplaced hnot hnot' hother).series hv
        refine ⟨?_, v', hserial ▸ hv', hmirrors'⟩
        rw [horder, ← List.concat_eq_append]
        refine hnodup.concat ?_
        exact fun hmem ↦ hnot (mem_commitOrder_iff.1 hmem).1
    · -- nobody comes to be accepted: neither the tables nor the order of the commits change
      have hsame : ∀ u, Accepted s' u ↔ Accepted s u := by
        intro u
        rcases eq_or_ne u m.process with rfl | hu
        · exact iff_of_false hnot' hnot
        · exact hother u hu
      have hquiet : commitOrder s' = commitOrder s ∧ s'.world.db = s.world.db := by
        cases m with
        | kill t =>
          have hworld := next_kill_world hn
          refine ⟨?_, by rw [hworld]; rfl⟩
          rw [commitOrder, commitOrder, hworld]
          simp only [hsame]
          rfl
        | step t =>
          obtain ⟨c, x, l, -, -, hhistory⟩ := next_step_history hn
          refine ⟨commitOrder_of_not_accepted hhistory hsame hnot', ?_⟩
          obtain hdb | ⟨r, hplaced⟩ := hcheckouts.effect_cases hpromise.effect
          · exact hdb
          · obtain ⟨now, req, hreq⟩ := hcheckouts t
            exact absurd (accepted_of_placed hreq hs hn hplaced).1 hnot'
      obtain ⟨horder, hdb⟩ := hquiet
      refine ⟨horder ▸ hnodup, v, ?_, hmirrors.same hdb hsame⟩
      rw [serialRun_of_same horder hlog]
      exact hv

/-- The ids for which the request has recorded lines are some of its list, in the order of the list: its
order has one line for each of them. -/
def RecordedLines (request : ι → Request) (s : State Services ι (World ι) Session Reply) (t : ι) : Prop :=
  ∃ now req c, request t = .commit now req ∧ req.Asks c ∧ (recorded s t).Sublist c.ids ∧
    List.Forall₂ (fun id line ↦ int id = some (line.sku : ℤ)) (recorded s t)
      (s.world.db.linesOf (now.strftime ++ str c.user))

theorem Settled.recordedLines {r : Receipt} (h : Settled request t r s.world) :
    RecordedLines request s t := by
  have hrecorded : recorded s t = r.picks.map Pick.raw := by
    rw [recorded, h.of.taken, List.map_map]
    rfl
  refine ⟨r.now, r.request, r.checkout, h.of.request, h.of.asks, hrecorded ▸ h.of.sublist, ?_⟩
  show List.Forall₂ _ (recorded s t) (s.world.db.linesOf r.orderId)
  rw [hrecorded, h.lines]
  exact h.of.denoted

/-- **Concurrent checkouts are serializable.** -/
theorem serializable (hcheckouts : Checkouts request) (husers : DifferentUsers request)
    (hlinked : db.Linked) (k : ℕ) (hs : (site ι).Reach AnyMove (start db carts gateway request) s) :
    ((commitOrder s).Nodup ∧ ∀ t, t ∈ commitOrder s ↔ Accepted s t) ∧
    (∀ t, Accepted s t → RecordedLines request s t) ∧
    ∃ v, (site ι).series k .idle (serialRun request s) (.initial db carts gateway) = some v ∧
      v.db.skus = s.world.db.skus ∧ v.db.orders = s.world.db.orders ∧
        v.db.lines = s.world.db.lines := by
  obtain ⟨hnodup, v, hv, hmirrors⟩ := mirrors_of_reach (k := k) hcheckouts husers hlinked hs
  -- who has replied 5 has an order with exactly its lines in the tables
  have hsettled : ∀ t, Accepted s t → ∃ r, Settled request t r s.world := by
    intro t ht
    obtain ⟨now, req, hreq⟩ := hcheckouts t
    obtain ⟨reply, hreply, hres⟩ := Option.bind_eq_some_iff.1 ht
    have houtcome := outcome_of_reach (noDiscipline request) hlinked trivial hs hreply
    rw [Outcome, hreq] at houtcome
    exact houtcome.settled hres
  refine ⟨⟨hnodup, fun t ↦ ⟨fun h ↦ (mem_commitOrder_iff.1 h).1, fun ht ↦ ?_⟩⟩, fun t ht ↦ ?_, v, hv,
    hmirrors.skus, hmirrors.orders, hmirrors.lines⟩
  · obtain ⟨r, hr⟩ := hsettled t ht
    exact mem_commitOrder_iff.2 ⟨ht, _, hr.commit, rfl⟩
  · obtain ⟨r, hr⟩ := hsettled t ht
    exact hr.recordedLines

end Run

/-! ### Three buyers -/

/-- The users 7, 8 and 9 buy the first product in the same second. -/
def threeBuyers : Fin 3 → Request := fun t ↦ checkoutOf (7 + t) 0 "1"

theorem threeBuyers_users : DifferentUsers threeBuyers := by
  intro t u user ht hu
  have heq : 7 + t.val = 7 + u.val := (Option.some.inj ht).trans (Option.some.inj hu).symm
  exact Fin.ext (by omega)

/-- User 9 reads, user 7 buys, user 9 reads again, user 8 buys, and user 9 has given up. -/
def buyersRun : List (Move (Fin 3)) :=
  .replicate 6 (.step 2) ++ .replicate 11 (.step 0) ++ .replicate 3 (.step 2) ++
    .replicate 11 (.step 1) ++ .replicate 4 (.step 2)

/-- The third request has an order without lines. -/
theorem serializable_buyers : ∃ s, (site (Fin 3)).perform
      (start smallShop (fun _ ↦ cartOf [("1", 2)]) silent threeBuyers) buyersRun = some s ∧
    commitOrder s = [0, 1, 2] ∧ (recorded s 1, recorded s 2) = (["1".toList], []) ∧
    ((commitOrder s).Nodup ∧ ∀ t, t ∈ commitOrder s ↔ Accepted s t) ∧
    (∀ t, Accepted s t → RecordedLines threeBuyers s t) ∧
    ∃ v, (site (Fin 3)).series 0 .idle (serialRun threeBuyers s)
        (.initial smallShop (fun _ ↦ cartOf [("1", 2)]) silent) = some v ∧
      v.db.skus = s.world.db.skus ∧ v.db.orders = s.world.db.orders ∧
        v.db.lines = s.world.db.lines := by
  have hrun : ((site (Fin 3)).perform
      (start smallShop (fun _ ↦ cartOf [("1", 2)]) silent threeBuyers) buyersRun).map
        (fun s ↦ (commitOrder s, recorded s 1, recorded s 2)) =
      some ([0, 1, 2], ["1".toList], []) := by rfl
  obtain ⟨s, hs, heq⟩ := Option.map_eq_some_iff.1 hrun
  obtain ⟨horder, hrecorded⟩ := Prod.mk.inj heq
  have hcheckouts : Checkouts threeBuyers := fun t ↦ ⟨_, _, rfl⟩
  exact ⟨s, hs, horder, hrecorded, serializable hcheckouts threeBuyers_users smallShop_linked 0
    ((site (Fin 3)).reach_of_perform hs)⟩

end DailyFresh
