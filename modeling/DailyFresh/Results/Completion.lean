import DailyFresh.Concurrent.Holders
import DailyFresh.Interleave.Completion
import DailyFresh.Results.LockOrder
import DailyFresh.Results.Polling

/-!
# Every request is answered

Requests of all kinds at once, finitely many. A request that cannot take its step waits for the lock of a
row, and whoever holds that lock is a checkout in the middle of its loop: it holds the lock of its own order
as well, so nothing but a conditional update can hold it up (`Stage`). So the site stops before all have
replied only in a deadlock of conditional updates (`stopped_only_by_deadlock`).

If no cycle of checkouts can block each other by the order of their lists, and the gateway says only finitely
often that an order may still be paid, then every request is answered, whatever the scheduler does and
whoever is killed: no run is infinite, and where no step is possible all have replied (`all_answered`).
-/

namespace DailyFresh

open Python Store Interleave Program

variable {ι : Type} [DecidableEq ι] {t u : ι} {w w' v : World ι} {l l' : Session} {c : Cmd} {r : c.Resp}

/-! ### What a command waits for -/

theorem exists_of_not_free {K : Type} {locks : Locks K ι} {k : K} (h : ¬ locks.free t k = true) :
    ∃ u, u ≠ t ∧ locks k = some u := by
  by_contra hnone
  exact h (Locks.free_iff.2 fun u hu hlock ↦ hnone ⟨u, hu, hlock⟩)

/-- A command of `t` waits for the lock of a row that `u` holds. -/
inductive WaitsLock (w : World ι) (l : Session) (u : ι) : Cmd → Prop where
  | skuUpdate {id : Str} {orginStock newStock newSales : ℤ} {n : ℕ} {sku : GoodsSKU}
      (find : findRow (w.skus l) id = .ok (n, sku)) (lock : w.skuLock n = some u) :
      WaitsLock w l u (.skuUpdate id orginStock newStock newSales)
  | skuSave {n : ℕ} {sku : GoodsSKU} (lock : w.skuLock n = some u) : WaitsLock w l u (.skuSave n sku)
  | orderCreate {order : OrderObject} (lock : w.orderLock order.orderId = some u) :
      WaitsLock w l u (.orderCreate order)
  | orderSave {order : OrderObject} (lock : w.orderLock order.orderId = some u) :
      WaitsLock w l u (.orderSave order)

/-- **Why a command waits.** -/
theorem waitsLock_of_run (h : run t w l c = none) : ∃ u, u ≠ t ∧ WaitsLock w l u c := by
  cases c with
  | skuUpdate id orginStock newStock newSales =>
    rw [run] at h
    split at h
    · cases h
    · cases h
    · rename_i n sku hfind
      split at h
      · split at h
        · split at h
          · cases h
          · cases h
        · cases h
      · rename_i hfree
        obtain ⟨u, hu, hlock⟩ := exists_of_not_free hfree
        exact ⟨u, hu, .skuUpdate hfind hlock⟩
  | skuSave n sku =>
    rw [run] at h
    split at h
    · cases h
    · rename_i hfree
      obtain ⟨u, hu, hlock⟩ := exists_of_not_free hfree
      exact ⟨u, hu, .skuSave hlock⟩
  | orderCreate order =>
    rw [run] at h
    split at h
    · cases h
    · split at h
      · split at h
        · cases h
        · cases h
      · rename_i hfree
        obtain ⟨u, hu, hlock⟩ := exists_of_not_free hfree
        exact ⟨u, hu, .orderCreate hlock⟩
  | orderSave order =>
    rw [run] at h
    split at h
    · cases h
    · split at h
      · cases h
      · rename_i hfree
        obtain ⟨u, hu, hlock⟩ := exists_of_not_free hfree
        exact ⟨u, hu, .orderSave hlock⟩
  | orderGet =>
    rw [run] at h
    split at h
    · split at h
      · cases h
      · cases h
    · cases h
  | addressCreate | lineCreate | lineSave =>
    rw [run] at h
    split at h
    · cases h
    · cases h
  | commit =>
    rw [run] at h
    split at h
    · cases h
    · cases h
  | _ => cases h

theorem waitsLock_of_exec (h : exec t w l c = none) : ∃ u, u ≠ t ∧ WaitsLock w l u c := by
  rw [exec, Option.map_eq_none_iff] at h
  split at h
  · cases h
  · exact waitsLock_of_run h

/-! ### How far a transaction has come -/

/-- How far a request has come, as far as locks are concerned. -/
inductive Stage where
  /-- It is in no transaction. -/
  | outside
  /-- It has written nothing in its transaction. -/
  | clean
  /-- It has created the order `k`. -/
  | created (k : Str)
  /-- It has written another row first. -/
  | lost

/-- The monitor of the stages. A transaction creates its order before it writes another row, and saves no other
order. -/
def stages : Monitor Services Stage where
  allowed
    | .outside, _ => True
    | .clean, .orderCreate _ => True
    | .clean, .orderSave _ => False
    | .clean, .skuUpdate .. => False
    | .clean, .skuSave .. => False
    | .clean, _ => True
    | .created _, .orderCreate _ => False
    | .created k, .orderSave order => order.orderId = k
    | .created _, .skuSave .. => False
    | .created _, _ => True
    | .lost, _ => False
  after
    | .outside, .atomicEnter, _ => .clean
    | .outside, _, _ => .outside
    | .clean, .commit, _ => .outside
    | .clean, .rollback, _ => .outside
    | .clean, .orderCreate order, .ok _ => .created order.orderId
    | .clean, .orderCreate _, .error _ => .clean
    | .clean, .orderSave _, _ => .lost
    | .clean, .skuUpdate .., _ => .lost
    | .clean, .skuSave .., _ => .lost
    | .clean, _, _ => .clean
    | .created _, .commit, _ => .outside
    | .created _, .rollback, _ => .outside
    | .created k, _, _ => .created k
    | .lost, _, _ => .lost

/-- Request `t` holds the lock of a row. -/
def Holds (w : World ι) (t : ι) : Prop := (∃ n, w.skuLock n = some t) ∨ ∃ k, w.orderLock k = some t

/-- What a stage says about the locks of the request and its session. -/
def Stage.Fits (t : ι) (w : World ι) (l : Session) : Stage → Prop
  | outside => l.inAtomic = false ∧ ¬ Holds w t
  | clean => l.inAtomic = true ∧ ¬ Holds w t
  | created k => l.inAtomic = true ∧ w.orderLock k = some t
  | lost => True

theorem not_holds_of_release (hsku : w'.skuLock = w.skuLock.release t)
    (horder : w'.orderLock = w.orderLock.release t) : ¬ Holds w' t := by
  have hrelease : ∀ {K : Type} {locks : Locks K ι} {k : K}, locks.release t k ≠ some t := by
    intro K locks k hlock
    unfold Locks.release at hlock
    split at hlock
    · cases hlock
    · rename_i hne
      exact hne hlock
  rw [Holds, hsku, horder]
  rintro (⟨n, hn⟩ | ⟨k, hk⟩)
  · exact hrelease hn
  · exact hrelease hk

/-- Who holds nothing still holds nothing after a command that writes no row, and after a command outside any
transaction. -/
theorem not_holds_of_exec (h : exec t w l c = some (r, w', l')) (hnone : ¬ Holds w t)
    (hc : c.locksSku = false ∧ c.locksOrder = false ∨ l'.inAtomic = false) : ¬ Holds w' t := by
  cases exec_lockEffect h with
  | keeps hsku horder =>
    rw [Holds, hsku, horder]
    exact hnone
  | ends _ hsku horder => exact not_holds_of_release hsku horder
  | takesSku n hwrites _ _ _ hsession =>
    rcases hc with hc | hc
    · exact absurd (hc.1.symm.trans hwrites) Bool.false_ne_true
    · exact absurd (hc.symm.trans hsession) Bool.false_ne_true
  | takesOrder k hwrites _ _ _ hsession =>
    rcases hc with hc | hc
    · exact absurd (hc.2.symm.trans hwrites) Bool.false_ne_true
    · exact absurd (hc.symm.trans hsession) Bool.false_ne_true

/-- An order that is created in a transaction is locked. -/
theorem exec_orderCreate {order : OrderObject} (hatomic : l.inAtomic = true)
    (h : exec t w l (.orderCreate order) = some (.ok (), w', l')) :
    l'.inAtomic = true ∧ w'.orderLock order.orderId = some t := by
  refine ⟨(exec_inAtomic h).trans hatomic, ?_⟩
  obtain ⟨-, hrefusal, -⟩ | ⟨-, v, hrun, rfl⟩ := exec_cases h
  · cases hrefusal
  · obtain ⟨_, hr, -⟩ | ⟨row, -, -, -, -, hv⟩ := run_orderCreate_cases hrun
    · cases hr
    · rw [World.writeOrder, if_pos hatomic] at hv
      cases hv
      exact Locks.acquire_self ..

/-- A lock is kept until the transaction ends. -/
theorem orderLock_kept {k : Str} (h : exec t w l c = some (r, w', l')) (hc : ¬ (c = .commit ∨ c = .rollback))
    (hlock : w.orderLock k = some t) : w'.orderLock k = some t := by
  cases exec_lockEffect h with
  | keeps _ horder => rw [horder, hlock]
  | ends hends => exact absurd hends hc
  | takesSku n _ _ _ horder => rw [horder, hlock]
  | takesOrder k' _ _ _ horder =>
    rw [horder]
    exact Locks.acquire_of_held hlock

/-- **The stages fit the locks**, after every command of the request. -/
theorem Stage.Fits.own {g : Stage} (h : g.Fits t w l) (hx : exec t w l c = some (r, w', l')) :
    (stages.after g c r).Fits t w' l' := by
  have hatomic := exec_inAtomic hx
  cases g with
  | outside =>
    obtain ⟨houtside, hnone⟩ := h
    rw [houtside] at hatomic
    cases c with
    | atomicEnter => exact ⟨hatomic, not_holds_of_exec hx hnone (.inl ⟨rfl, rfl⟩)⟩
    | _ => exact ⟨hatomic, not_holds_of_exec hx hnone (.inr hatomic)⟩
  | clean =>
    obtain ⟨hinside, hnone⟩ := h
    rw [hinside] at hatomic
    cases c with
    | orderCreate order =>
      rcases r with e | ⟨⟩
      · refine ⟨hatomic, ?_⟩
        obtain ⟨-, -, rfl, -⟩ | ⟨-, v, hrun, rfl⟩ := exec_cases hx
        · exact hnone
        · obtain ⟨_, -, rfl, -⟩ | ⟨row, hr, -⟩ := run_orderCreate_cases hrun
          · exact hnone
          · cases hr
      · exact exec_orderCreate hinside hx
    | orderSave | skuUpdate | skuSave => trivial
    | commit | rollback => exact ⟨hatomic, not_holds_of_exec hx hnone (.inl ⟨rfl, rfl⟩)⟩
    | _ => exact ⟨hatomic, not_holds_of_exec hx hnone (.inl ⟨rfl, rfl⟩)⟩
  | created k =>
    obtain ⟨hinside, hlock⟩ := h
    rw [hinside] at hatomic
    cases c with
    | commit =>
      obtain ⟨hsku, horder⟩ := exec_ends (.inl rfl) hx
      exact ⟨hatomic, not_holds_of_release hsku horder⟩
    | rollback =>
      obtain ⟨hsku, horder⟩ := exec_ends (.inr rfl) hx
      exact ⟨hatomic, not_holds_of_release hsku horder⟩
    | _ => exact ⟨hatomic, orderLock_kept hx (by simp) hlock⟩
  | lost => trivial

/-- The stages of the others still fit. -/
theorem Stage.Fits.other {g : Stage} {lu : Session} (hu : u ≠ t) (h : g.Fits u w lu)
    (heffect : LockEffect t c w w' l l') : g.Fits u w' lu := by
  have hsame : Holds w' u → Holds w u := by
    rintro (⟨n, hn⟩ | ⟨k, hk⟩)
    · obtain ⟨hold, -⟩ | ⟨heq, -⟩ := heffect.of_skuLock hn
      · exact .inl ⟨n, hold⟩
      · exact absurd heq hu
    · obtain ⟨hold, -⟩ | ⟨heq, -⟩ := heffect.of_orderLock hk
      · exact .inr ⟨k, hold⟩
      · exact absurd heq hu
  cases g with
  | outside => exact h.imp_right fun hnone hholds ↦ hnone (hsame hholds)
  | clean => exact h.imp_right fun hnone hholds ↦ hnone (hsame hholds)
  | created k =>
    refine h.imp_right fun hlock ↦ ?_
    cases heffect with
    | keeps _ horder => rw [horder, hlock]
    | ends _ _ horder =>
      rw [horder]
      exact (Locks.release_eq_some_iff hu).2 hlock
    | takesSku n _ _ _ horder => rw [horder, hlock]
    | takesOrder k' _ hfree _ horder =>
      rw [horder]
      exact (Locks.acquire_eq_some_iff hfree hu).2 hlock
  | lost => trivial

/-! ### The stages of the requests -/

section Programs

open OrderCommitView

/-- The request is inside a transaction. -/
def Stage.Inside (g : Stage) : Prop := g = .clean ∨ ∃ k, g = .created k

/-- What a checkout sends for an item leaves the order created. -/
theorem keeps_stages (k skuId : Str) : stages.Keeps (fun g ↦ g = .created k) (Cmd.OfItem skuId) := by
  rintro g c rfl hc
  cases c with
  | skuGet | hget | skuUpdate | lineCreate | savepointRollback => exact ⟨trivial, fun _ ↦ rfl⟩
  | _ => exact hc.elim

/-- The `try` block. -/
theorem stages_placeOrder (order : OrderObject) (ids : List Str) :
    stages.Accepts (fun _ g ↦ g.Inside) (placeOrder order ids) .clean := by
  refine .send trivial fun r ↦ ?_
  rcases r with e | ⟨⟩
  · exact .inl rfl
  have hitems := accepts_takeItems (keeps_stages order.orderId) rfl order.user order.orderId ids
    { count := 0, price := 0 }
  refine hitems.bind fun flow g hg ↦ ?_
  subst hg
  rcases flow with totals | reply | -
  · refine .send rfl fun r ↦ ?_
    rcases r with e | ⟨⟩
    · exact .inr ⟨_, rfl⟩
    · exact .inr ⟨_, rfl⟩
  · exact .inr ⟨_, rfl⟩
  · exact .inr ⟨_, rfl⟩

/-- The commands after the `try` block leave the stage as it is. -/
theorem Stage.Inside.send {α : Type} {g : Stage} (hg : g.Inside) {c : Cmd}
    (hc : c = .savepointRollback ∨ ∃ user fields, c = .hdel user fields) {f : c.Resp → Program Services α}
    {Q : α → Stage → Prop} (hf : ∀ r, stages.Accepts Q (f r) g) : stages.Accepts Q (ask c >>= f) g := by
  obtain rfl | ⟨k, rfl⟩ := hg
  · obtain rfl | ⟨user, fields, rfl⟩ := hc
    · exact .send trivial hf
    · exact .send trivial hf
  · obtain rfl | ⟨user, fields, rfl⟩ := hc
    · exact .send trivial hf
    · exact .send trivial hf

theorem stages_body (now : LocalTime) (req : HttpRequest) :
    stages.Accepts (fun _ g ↦ g.Inside) (body id now req) .clean := by
  have hclean : Stage.clean.Inside := .inl rfl
  rw [body]
  rcases req.user with - | user
  · exact hclean
  rcases nonempty (req.POST "addr_id".toList) with - | addrId
  · exact hclean
  rcases nonempty (req.POST "pay_method".toList) with - | payMethod
  · exact hclean
  rcases nonempty (req.POST "sku_ids".toList) with - | skuIds
  · exact hclean
  dsimp only
  rcases PAY_METHODS.lookup payMethod with - | method
  · exact hclean
  refine .send trivial fun r ↦ ?_
  rcases r with e | ⟨addr, a⟩
  · cases e with
    | _ => exact hclean
  refine .send trivial fun _ ↦ (stages_placeOrder _ _).bind fun flow g hg ↦ ?_
  rcases flow with - | reply | -
  · exact hg.send (.inr ⟨_, _, rfl⟩) fun _ ↦ hg
  · exact hg
  · refine hg.send (.inl rfl) fun r ↦ ?_
    rcases r with e | ⟨⟩
    · exact hg
    · exact hg

theorem stages_commit (now : LocalTime) (req : HttpRequest) :
    stages.Accepts (fun _ _ ↦ True) (post now req) .outside := by
  refine .send trivial fun _ ↦ (stages_body now req).bind fun reply g hg ↦ ?_
  obtain rfl | ⟨k, rfl⟩ := hg
  · rcases reply with - | reply
    · exact .send trivial fun _ ↦ trivial
    · exact .send trivial fun _ ↦ trivial
  · rcases reply with - | reply
    · exact .send trivial fun _ ↦ trivial
    · exact .send trivial fun _ ↦ trivial

/-- **Every request goes through the stages**, on every path. -/
theorem stages_handler (r : Request) : stages.Accepts (fun _ _ ↦ True) r.handler .outside := by
  by_cases hr : ∃ now req, r = .commit now req
  · obtain ⟨now, req, rfl⟩ := hr
    exact stages_commit now req
  have hkeeps : stages.Keeps (fun g ↦ g = .outside) r.May := by
    rintro g c rfl hc
    refine ⟨trivial, fun _ ↦ ?_⟩
    have hdelimits := hc.not_delimits fun now req heq ↦ hr ⟨now, req, heq⟩
    cases c with
    | atomicEnter => cases hdelimits
    | _ => rfl
  have hrepeats : ∀ g (c : Cmd) (again : c.Resp → Bool), g = Stage.outside → c.Repeats again →
      ∀ r, again r = true → stages.after g c r = g := by
    rintro g c again rfl hc r -
    cases c with
    | tradeQuery => rfl
    | _ => exact hc.elim
  exact ((sends_handler r).accepts hkeeps hrepeats rfl).mono fun _ _ _ ↦ trivial

end Programs

/-! ### Who is waited for -/

section Runs

variable {s s' : State Services ι (World ι) Session Reply} {m : Move ι} {request : ι → Request} {db : Db}
  {carts : ℕ → Cart} {gateway : ℕ → Answer}

/-- Every request is at a stage that fits its locks and from which its program goes on. -/
abbrev Staged (s : State Services ι (World ι) Session Reply) : Prop :=
  Monitor.Watched (fun _ ↦ stages) (fun t w l g ↦ g.Fits t w l) s

theorem Staged.next (h : Staged s) (hn : (site ι).next s m = some s') : Staged s' := by
  cases m with
  | step t =>
    obtain ⟨g, hfits, haccepts⟩ := h t
    obtain ⟨c, k, r, w, l, hp, hx, rfl⟩ | ⟨c, again, k, r, w, l, hp, hx, rfl⟩ := (site ι).next_step_cases hn
    · rw [hp] at haccepts
      exact h.put (hfits.own hx) (haccepts.2 r) fun u hu g' hg' ↦ hg'.other hu (exec_lockEffect hx)
    · rw [hp] at haccepts
      exact h.put (hfits.own hx) (haccepts.answered r) fun u hu g' hg' ↦ hg'.other hu (exec_lockEffect hx)
  | kill t =>
    obtain ⟨-, rfl⟩ := (site ι).next_kill_cases hn
    have heffect : LockEffect t .rollback s.world (s.world.release t) (s.loc t) .idle :=
      .ends (.inr rfl) rfl rfl
    have hidle : Stage.outside.Fits t (s.world.release t) .idle := ⟨rfl, not_holds_of_release rfl rfl⟩
    exact h.put hidle trivial fun u hu g' hg' ↦ hg'.other hu heffect

theorem staged_of_reach (hs : (site ι).Reach AnyMove (start db carts gateway request) s) : Staged s := by
  refine hs.invariant (I := Staged) (fun t ↦ ?_) fun _ _ _ h _ hn ↦ h.next hn
  refine ⟨.outside, ⟨rfl, ?_⟩, stages_handler (request t)⟩
  rintro (⟨n, hn⟩ | ⟨k, hk⟩)
  · cases hn
  · cases hk

/-- **Whoever holds a lock** has not returned, and has created an order in his transaction. -/
theorem created_of_holds (hs : (site ι).Reach AnyMove (start db carts gateway request) s)
    (ht : Holds s.world t) : (s.prog t).result? = none ∧ ∃ k, s.world.orderLock k = some t ∧
      stages.Accepts (fun _ _ ↦ True) (s.prog t) (.created k) := by
  have hresult : (s.prog t).result? = none := by
    rcases hresult : (s.prog t).result? with - | reply
    · rfl
    · obtain ⟨-, hsku, horder⟩ := returned_of_reach hs hresult
      rcases ht with ⟨n, hn⟩ | ⟨k, hk⟩
      · exact absurd hn (hsku n)
      · exact absurd hk (horder k)
  refine ⟨hresult, ?_⟩
  obtain ⟨g, hfits, haccepts⟩ := staged_of_reach hs t
  cases g with
  | outside => exact absurd ht hfits.2
  | clean => exact absurd ht hfits.2
  | created k => exact ⟨k, hfits.2, haccepts⟩
  | lost =>
    obtain ⟨c, hc⟩ := Program.exists_next? hresult
    exact (haccepts.allowed hc).elim

/-- **A holder waits in a conditional update**, and for another holder. -/
theorem waitsFor_of_holds (hs : (site ι).Reach AnyMove (start db carts gateway request) s)
    (ht : Holds s.world t) (hc : (s.prog t).next? = some c)
    (hx : exec t s.world (s.loc t) c = none) : ∃ u, Holds s.world u ∧ ∃ n, WaitsFor s t n u := by
  obtain ⟨-, k, hk, haccepts⟩ := created_of_holds hs ht
  have hallowed := haccepts.allowed hc
  obtain ⟨u, hu, hwaits⟩ := waitsLock_of_exec hx
  cases hwaits with
  | skuUpdate hfind hlock =>
    exact ⟨u, .inl ⟨_, hlock⟩, _, ⟨_, _, _, _, _, hc, hx, hfind⟩, hlock⟩
  | skuSave => exact hallowed.elim
  | orderCreate => exact hallowed.elim
  | orderSave hlock =>
    -- the order that is saved is the one that was created, and its lock is the request's own
    rw [show _ = k from hallowed, hk] at hlock
    exact absurd (Option.some.inj hlock).symm hu

/-- **Only deadlocks stop the site.** In every reachable state all requests have been answered, or one of them
can take its next step, or there is a cycle of checkouts that wait for each other in conditional updates. -/
theorem stopped_only_by_deadlock [Finite ι]
    (hs : (site ι).Reach AnyMove (start db carts gateway request) s) :
    (∀ t, ∃ reply, (s.prog t).result? = some reply) ∨ (∃ t s', (site ι).next s (.step t) = some s') ∨
      ∃ t, Relation.TransGen (fun t u ↦ ∃ n, WaitsFor s t n u) t t := by
  have hsome : ∀ t c, (s.prog t).next? = some c → exec t s.world (s.loc t) c = none →
      ∃ u, Holds s.world u := by
    intro t c hc hx
    obtain ⟨u, -, hwaits⟩ := waitsLock_of_exec hx
    cases hwaits with
    | skuUpdate _ hlock => exact ⟨u, .inl ⟨_, hlock⟩⟩
    | skuSave hlock => exact ⟨u, .inl ⟨_, hlock⟩⟩
    | orderCreate hlock => exact ⟨u, .inr ⟨_, hlock⟩⟩
    | orderSave hlock => exact ⟨u, .inr ⟨_, hlock⟩⟩
  exact Machine.progress (fun t ht ↦ (created_of_holds hs ht).1) hsome
    fun t c ht hc hx ↦ waitsFor_of_holds hs ht hc hx

/-! ### The order of the locks -/

/-- **What any request may have locked** when it sends a conditional update. -/
theorem lockOrder_handler (r : Request) :
    (lockOrder r.ids).Accepts (fun _ _ ↦ True) r.handler fun _ ↦ False := by
  by_cases hr : ∃ now req, r = .commit now req
  · obtain ⟨now, req, rfl⟩ := hr
    exact lockOrder_post now req
  have hkeeps : (lockOrder r.ids).Keeps (fun _ ↦ True) r.May := by
    intro held c _ hc
    refine ⟨?_, fun _ ↦ trivial⟩
    cases c with
    | skuUpdate =>
      obtain h | h := hc.kind
      · cases h
      · cases r with
        | commit now req => exact absurd ⟨now, req, rfl⟩ hr
        | _ => cases h
    | _ => trivial
  have hrepeats : ∀ held (c : Cmd) (again : c.Resp → Bool), True → c.Repeats again →
      ∀ a, again a = true → (lockOrder r.ids).after held c a = held := by
    intro held c again _ hc a _
    cases c with
    | tradeQuery => rfl
    | _ => exact hc.elim
  exact (sends_handler r).accepts hkeeps hrepeats trivial

/-- What a request that waits for product `n` has locked, its list names before `n`. -/
theorem named_before_of_reach (hs : (site ι).Reach AnyMove (start db carts gateway request) s) {id : Str}
    {a b d : ℤ} {m n : ℕ} (hnext : (s.prog t).next? = some (.skuUpdate id a b d))
    (hid : int id = some (n : ℤ)) (hlocked : s.world.skuLock m = some t) (hne : m ≠ n) :
    NamesBefore (request t).ids m n := by
  have hstart : Monitor.Watched (fun t ↦ lockOrder (request t).ids) KnownLocks
      (start db carts gateway request) := by
    intro u
    exact ⟨fun _ ↦ False, fun _ hn ↦ (by cases hn), lockOrder_handler (request u)⟩
  obtain ⟨held, hheld, haccepts⟩ := (follows_lockOrder request).sound hstart hs t
  exact haccepts.allowed hnext m n (hheld m hlocked) hid hne

/-- Whoever is waited for while waiting can block the one who waits for him. -/
theorem canBlock_of_reach (hs : (site ι).Reach AnyMove (start db carts gateway request) s) {m n : ℕ}
    (h : WaitsFor s t m u) {x : ι} (h' : WaitsFor s u n x) : CanBlock request (t, m) (u, n) := by
  obtain ⟨id, _, _, _, _, hnext, -, hfind⟩ := h'.blocked
  have hne : m ≠ n := by
    rintro rfl
    exact h'.ne (Option.some.inj (h'.lock.symm.trans h.lock))
  exact .mk h.ne.symm hne (named_before_of_reach hs hnext (findRow_eq_ok_iff.1 hfind).1 h.lock hne)

/-! ### The answers of the gateway -/

/-- The answers that are left after a command. -/
def Cmd.answersLeft (answers : ℕ → Answer) : Cmd → ℕ → Answer
  | tradeQuery _ => fun i ↦ answers (i + 1)
  | _ => answers

omit [DecidableEq ι] in
theorem World.write_gateway (w : World ι) (t : ι) (l : Session) :
    (∀ n sku, (w.writeSku t l n sku).1.gateway = w.gateway) ∧
      (∀ k row, (w.writeOrder t l k row).1.gateway = w.gateway) ∧
        ∀ row, (w.writeLine l row).1.gateway = w.gateway := by
  refine ⟨fun n sku ↦ ?_, fun k row ↦ ?_, fun row ↦ ?_⟩
  · unfold World.writeSku
    split <;> rfl
  · unfold World.writeOrder
    split <;> rfl
  · unfold World.writeLine
    split <;> rfl

theorem run_gateway (h : run t w l c = some (r, v, l')) : v.gateway = c.answersLeft w.gateway := by
  obtain ⟨hsku, horder, hline⟩ := w.write_gateway t l
  cases c with
  | skuUpdate id orginStock newStock newSales =>
    obtain ⟨-, rfl, -⟩ | ⟨_, -, rfl, -⟩ | ⟨n, old, new, -, -, -, -, -, hv⟩ := run_skuUpdate_cases h
    · rfl
    · rfl
    · exact (congrArg (fun x ↦ x.1.gateway) hv).trans (hsku n new)
  | skuSave n sku =>
    rw [run] at h
    split at h
    · obtain ⟨-, hv⟩ := Prod.mk.inj (Option.some.inj h)
      exact (congrArg (fun x ↦ x.1.gateway) hv.symm).trans (hsku n sku)
    · cases h
  | orderCreate order =>
    obtain ⟨_, -, rfl, -⟩ | ⟨row, -, -, -, -, hv⟩ := run_orderCreate_cases h
    · rfl
    · exact (congrArg (fun x ↦ x.1.gateway) hv).trans (horder _ row)
  | orderSave order =>
    obtain ⟨_, -, -, rfl, -⟩ | ⟨row, -, -, -, hv⟩ := run_orderSave_cases h
    · rfl
    · exact (congrArg (fun x ↦ x.1.gateway) hv).trans (horder _ row)
  | lineCreate line =>
    obtain ⟨_, -, -, rfl, -⟩ | ⟨row, -, -, hv⟩ := run_lineCreate_cases h
    · rfl
    · exact (congrArg (fun x ↦ x.1.gateway) hv).trans (hline row)
  | orderGet =>
    obtain ⟨rfl, -, -⟩ := run_orderGet_cases h
    rfl
  | addressCreate address =>
    obtain ⟨_, -, rfl, -⟩ | ⟨row, -, -, -, rfl⟩ := run_addressCreate_cases h
    · rfl
    · rfl
  | lineSave n line comment =>
    rw [run] at h
    split at h
    all_goals
      cases h
      rfl
  | commit =>
    rw [run] at h
    split at h
    all_goals
      cases h
      rfl
  | _ =>
    cases h
    rfl

/-- Only queries of trades take answers of the gateway. -/
theorem exec_gateway (h : exec t w l c = some (r, w', l')) : w'.gateway = c.answersLeft w.gateway := by
  obtain ⟨-, hrefusal, rfl, -⟩ | ⟨-, v, hrun, rfl⟩ := exec_cases h
  · cases c with
    | tradeQuery => cases hrefusal
    | _ => rfl
  · have hv := run_gateway hrun
    exact hv

/-- From its `n`-th answer on, the gateway says of no order that it may still be paid. -/
def DecidedFrom (n : ℕ) (w : World ι) : Prop := ∀ i, n ≤ i → OrderCheckView.waiting (w.gateway i) = false

/-- The queries that are repeated are bounded by the answers that say so. -/
theorem bounded_decidedFrom : Bounded (site ι) Cmd.Repeats DecidedFrom where
  exec {n t w l c r w' l'} hw hx i hi := by
    rw [exec_gateway hx]
    cases c with
    | tradeQuery => exact hw (i + 1) (hi.trans (Nat.le_succ i))
    | _ => exact hw i hi
  again {n t w l c again r w' l'} hR hagain hw hx := by
    cases c with
    | tradeQuery k =>
      obtain ⟨-, hrefusal, -⟩ | ⟨-, v, hrun, rfl⟩ := exec_cases hx
      · cases hrefusal
      cases hrun
      have hwaiting : OrderCheckView.waiting (w.gateway 0) = true := hR _ hagain
      have hn : 0 < n := by
        refine Nat.pos_of_ne_zero fun hzero ↦ ?_
        rw [hw 0 hzero.le] at hwaiting
        cases hwaiting
      exact ⟨n - 1, Nat.sub_one_lt_of_lt hn, fun i hi ↦ hw (i + 1) (Nat.sub_le_iff_le_add.1 hi)⟩
    | _ => exact hR.elim
  abort hw := hw

/-- **Every request is answered.** If no cycle of checkouts can block each other by the order of their lists,
and the gateway says only finitely often that an order may still be paid, then the site goes through finitely
many moves, whatever the scheduler does and whoever is killed, and where it stops all have been answered. -/
theorem all_answered [Finite ι] (hcycle : ∀ x, ¬ Relation.TransGen (CanBlock request) x x)
    (hgateway : ∃ n, ∀ i, n ≤ i → OrderCheckView.waiting (gateway i) = false)
    (hs : (site ι).Reach AnyMove (start db carts gateway request) s) :
    (¬ ∃ run : ℕ → State Services ι (World ι) Session Reply, run 0 = s ∧
        ∀ i, ∃ m, (site ι).next (run i) m = some (run (i + 1))) ∧
      ((∀ t, (site ι).next s (.step t) = none) → ∀ t, ∃ reply, (s.prog t).result? = some reply) := by
  constructor
  · obtain ⟨n, hn⟩ := hgateway
    have hstart : Acc (fun s' s ↦ ∃ m, (site ι).next s m = some s') (start db carts gateway request) :=
      Machine.acc_moves (n := n) bounded_decidedFrom (P := fun _ ↦ True)
        (fun t ↦ (sends_handler (request t)).mono fun _ _ ↦ trivial) hn
    exact Machine.no_infinite_run (hs.invariant (I := Acc fun s' s ↦ ∃ m, (site ι).next s m = some s') hstart
      fun _ m _ h _ hn ↦ h.inv ⟨m, hn⟩)
  · intro hstuck
    obtain hall | ⟨t, s', hn⟩ | ⟨t, hwaits⟩ := stopped_only_by_deadlock hs
    · exact hall
    · rw [hstuck t] at hn
      cases hn
    · have hunique : ∀ {t m u n x}, WaitsFor s t m u → WaitsFor s t n x → m = n := fun h h' ↦ h.unique h'
      have hblocks : ∀ {t m u n x}, WaitsFor s t m u → WaitsFor s u n x →
          CanBlock request (t, m) (u, n) := fun h h' ↦ canBlock_of_reach hs h h'
      obtain ⟨x, hx⟩ := transGen_of_waits (WaitsFor s) hunique hblocks hwaits
      exact absurd hx (hcycle x)

end Runs

/-! ### Three requests -/

/-- Two checkouts with opposite lists, each with the first product of its list: neither can go on. -/
theorem stopped_only_by_deadlock_opposite : ∃ s, (site (Fin 2)).perform
      (start smallShop (fun _ ↦ oneOfEach) silent (twoLists "1,2" "2,1"))
      (.replicate 10 (.step 0) ++ .replicate 10 (.step 1)) = some s ∧
    (((site (Fin 2)).next s (.step 0)).isNone ∧ ((site (Fin 2)).next s (.step 1)).isNone) ∧
    ((∀ t, ∃ reply, (s.prog t).result? = some reply) ∨
      (∃ t s', (site (Fin 2)).next s (.step t) = some s') ∨
        ∃ t, Relation.TransGen (fun t u ↦ ∃ n, WaitsFor s t n u) t t) := by
  have hrun : ((site (Fin 2)).perform (start smallShop (fun _ ↦ oneOfEach) silent (twoLists "1,2" "2,1"))
      (.replicate 10 (.step 0) ++ .replicate 10 (.step 1))).map (fun s ↦
        (((site (Fin 2)).next s (.step 0)).isNone, ((site (Fin 2)).next s (.step 1)).isNone)) =
      some (true, true) := by rfl
  obtain ⟨s, hs, hvalues⟩ := Option.map_eq_some_iff.1 hrun
  obtain ⟨hzero, hone⟩ := Prod.mk.inj hvalues
  exact ⟨s, hs, ⟨hzero, hone⟩, stopped_only_by_deadlock ((site (Fin 2)).reach_of_perform hs)⟩

/-- Users 7 and 8 check out the same two products, while user 8 asks whether an order is paid. -/
def threeRequests : Fin 3 → Request := ![checkoutOf 7 0 "1,2", checkoutOf 8 0 "1,2",
  .check { user := some 8, POST := formData [("order_id", "x")] }]

/-- In the middle of the first checkout the second one has to wait. -/
theorem all_answered_threeRequests : ∃ s, (site (Fin 3)).perform
      (start smallShop (fun _ ↦ oneOfEach) paidLate threeRequests)
      (.replicate 7 (.step 0) ++ .replicate 6 (.step 1)) = some s ∧
    ((site (Fin 3)).next s (.step 1)).isNone ∧
    (¬ ∃ run : ℕ → State Services (Fin 3) (World (Fin 3)) Session Reply, run 0 = s ∧
        ∀ i, ∃ m, (site (Fin 3)).next (run i) m = some (run (i + 1))) ∧
      ((∀ t, (site (Fin 3)).next s (.step t) = none) → ∀ t, ∃ reply, (s.prog t).result? = some reply) := by
  have hrun : ((site (Fin 3)).perform (start smallShop (fun _ ↦ oneOfEach) paidLate threeRequests)
      (.replicate 7 (.step 0) ++ .replicate 6 (.step 1))).map (fun s ↦
        ((site (Fin 3)).next s (.step 1)).isNone) = some true := by rfl
  obtain ⟨s, hs, hwaits⟩ := Option.map_eq_some_iff.1 hrun
  have hrank : ∀ t m n, NamesBefore (threeRequests t).ids m n → m ≠ n → id m < id n := by
    rintro t m n ⟨x, y, hsublist, hx, hy⟩ -
    have hids : (threeRequests t).ids = ["1".toList, "2".toList] ∨ (threeRequests t).ids = [] := by
      match t with
      | 0 => exact .inl rfl
      | 1 => exact .inl rfl
      | 2 => exact .inr rfl
    obtain hids | hids := hids
    · rw [hids] at hsublist
      cases hsublist.eq_of_length rfl
      have hm : m = 1 := Int.ofNat_inj.1 (Option.some.inj (hx.symm.trans (by rfl)))
      have hn : n = 2 := Int.ofNat_inj.1 (Option.some.inj (hy.symm.trans (by rfl)))
      rw [hm, hn]
      decide
    · rw [hids] at hsublist
      cases hsublist
  have hgateway : ∃ n, ∀ i, n ≤ i → OrderCheckView.waiting (paidLate i) = false := by
    refine ⟨2, fun i hi ↦ ?_⟩
    obtain ⟨j, rfl⟩ := Nat.exists_eq_add_of_le' hi
    rfl
  exact ⟨s, hs, hwaits, all_answered (noCycle_of_rank hrank) hgateway
    ((site (Fin 3)).reach_of_perform hs)⟩

end DailyFresh
