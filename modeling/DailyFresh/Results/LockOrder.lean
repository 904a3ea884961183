import DailyFresh.Concurrent.Rows
import DailyFresh.Results.Stock

/-!
# Deadlocks of checkouts

A conditional `UPDATE` that succeeds keeps the lock of its row until the transaction ends, so a checkout
that waits for one row holds those of the items before it in its list. `locked_before` says this of every
reachable state, by a monitor that follows the rows a checkout may have locked.

`no_deadlock`: if no cycle of checkouts can block each other by the order of their lists, then no reachable
state has a cycle of waiting checkouts. Lists that name their products in one common order are a special
case (`noCycle_of_rank`). `both_wait` is a deadlock of two checkouts with opposite lists.
-/

namespace DailyFresh

open Python Store Interleave OrderCommitView

/-! ### The order of a list -/

/-- The product ids that a checkout asks for. -/
def Request.ids : Request → List Str
  | commit _ request =>
    match nonempty (request.POST "sku_ids".toList) with
    | some skuIds => split ',' skuIds
    | none => []
  | _ => []

/-- The list names product `m` at a place before one where it names product `n`. -/
def NamesBefore (ids : List Str) (m n : ℕ) : Prop :=
  ∃ x y, [x, y].Sublist ids ∧ int x = some (m : ℤ) ∧ int y = some (n : ℤ)

/-- A product that these ids name. -/
def Named (ids : List Str) (m : ℕ) : Prop := ∃ x ∈ ids, int x = some (m : ℤ)

theorem Named.before {front rest : List Str} {skuId : Str} {m n : ℕ} (h : Named front m)
    (hn : int skuId = some (n : ℤ)) : NamesBefore (front ++ skuId :: rest) m n := by
  obtain ⟨x, hx, hm⟩ := h
  refine ⟨x, skuId, ?_, hm, hn⟩
  exact (List.singleton_sublist.2 hx).append (List.singleton_sublist.2 List.mem_cons_self)

/-! ### What a checkout may have locked -/

/-- The monitor of a checkout: its state are the products whose rows may be locked, and an update of
another product is allowed if the list names it after all of them. -/
def lockOrder (ids : List Str) : Monitor Services (ℕ → Prop) where
  allowed held
    | .skuUpdate id _ _ _ => ∀ m n : ℕ, held m → int id = some (n : ℤ) → m ≠ n → NamesBefore ids m n
    | _ => True
  after held
    | .skuUpdate id _ _ _, _ => fun m ↦ held m ∨ int id = some (m : ℤ)
    | .skuSave n _, _ => fun m ↦ held m ∨ m = n
    | _, _ => held

section Programs

variable {ids : List Str} {held : ℕ → Prop}

/-- One item: what may be locked then is this product, or named before it. -/
theorem keeps_lockOrder {front rest : List Str} {skuId : Str} (hids : ids = front ++ skuId :: rest) :
    (lockOrder ids).Keeps (fun held ↦ ∀ m, held m → Named (front ++ [skuId]) m) (Cmd.OfItem skuId) := by
  intro held c hheld hc
  cases c with
  | skuUpdate id orginStock newStock newSales =>
    obtain rfl : id = skuId := hc
    refine ⟨fun m n hm hn hne ↦ ?_, fun r m hm ↦ ?_⟩
    · obtain ⟨x, hx, hxm⟩ := hheld m hm
      rcases List.mem_append.1 hx with hx | hx
      · rw [hids]
        exact Named.before ⟨x, hx, hxm⟩ hn
      · obtain rfl := List.mem_singleton.1 hx
        exact absurd (Int.ofNat_inj.1 (Option.some.inj (hxm.symm.trans hn))) hne
    · rcases hm with hm | hm
      · exact hheld m hm
      · exact ⟨id, List.mem_append_right _ (List.mem_singleton_self _), hm⟩
  | skuSave => exact hc.elim
  | _ => exact ⟨trivial, fun _ ↦ hheld⟩

/-- **The loop** over the items, with the ones before it in `front`. -/
theorem lockOrder_takeItems (user : ℕ) (orderId : Str) (rest : List Str) {front : List Str}
    (hids : ids = front ++ rest) (totals : Totals) (hheld : ∀ m, held m → Named front m) :
    (lockOrder ids).Accepts (fun _ _ ↦ True) (takeItems user orderId rest totals) held := by
  induction rest generalizing front totals held with
  | nil => trivial
  | cons skuId rest ih =>
    have hheld' : ∀ m, held m → Named (front ++ [skuId]) m := by
      intro m hm
      obtain ⟨x, hx, hxm⟩ := hheld m hm
      exact ⟨x, List.mem_append_left _ hx, hxm⟩
    have hitem := accepts_tryItem (keeps_lockOrder hids) hheld' user orderId totals (List.range 2)
    refine hitem.bind fun flow held h ↦ ?_
    rcases flow with totals | reply | -
    · exact ih (by rw [hids, List.append_assoc]; rfl) totals h
    · trivial
    · trivial

/-- The `try` block. -/
theorem lockOrder_placeOrder (order : OrderObject) :
    (lockOrder ids).Accepts (fun _ _ ↦ True) (placeOrder order ids) fun _ ↦ False := by
  exact accepts_placeOrder trivial (fun _ _ ↦ trivial)
    (lockOrder_takeItems order.user order.orderId ids (List.nil_append ids).symm _ nofun)

/-- **The checkout.** -/
theorem lockOrder_post (now : LocalTime) (req : HttpRequest) :
    (lockOrder (Request.commit now req).ids).Accepts (fun _ _ ↦ True) (post now req) fun _ ↦ False := by
  refine accepts_post (fun held c hc ↦ ?_) fun c addr hasks ↦ ?_
  · cases c with
    | skuUpdate => exact hc.elim
    | skuSave => exact hc.elim
    | _ => exact ⟨trivial, fun _ ↦ rfl⟩
  · have hids : (Request.commit now req).ids = c.ids := by
      rw [Request.ids, hasks.skuIds]
      rfl
    rw [hids]
    exact lockOrder_placeOrder _

end Programs

/-! ### Waiting -/

section Runs

variable {ι : Type} [DecidableEq ι] {request : ι → Request} {db : Db} {carts : ℕ → Cart}
  {gateway : ℕ → Answer} {s : State Services ι (World ι) Session Reply} {t u v : ι} {m n : ℕ}

/-- A write of a product row locks that row at most. -/
theorem WritesRow.locked {w w' : World ι} {l l' : Session} {c : Cmd} {new : GoodsSKU}
    (h : WritesRow t w w' l l' c n new) (hm : w'.skuLock m = some u) :
    w.skuLock m = some u ∨ u = t ∧ m = n := by
  rw [h.skuLock, World.writeSku] at hm
  split at hm
  · by_cases hmn : m = n
    · subst hmn
      have hu : some t = some u := (Locks.acquire_self w.skuLock t m).symm.trans hm
      exact .inr ⟨(Option.some.inj hu).symm, rfl⟩
    · have hkept : w.skuLock m = some u := (Locks.acquire_of_ne hmn).symm.trans hm
      exact .inl hkept
  · exact .inl hm

theorem skuLock_release {w : World ι} (hn : (w.release t).skuLock n = some t) :
    w.skuLock n = some t := by
  have hn : w.skuLock.release t n = some t := hn
  unfold Locks.release at hn
  split at hn
  · cases hn
  · exact hn

/-- The rows that a process has locked are among those that its monitor knows of. -/
def KnownLocks (t : ι) (w : World ι) (_ : Session) (held : ℕ → Prop) : Prop :=
  ∀ n, w.skuLock n = some t → held n

theorem follows_lockOrder (request : ι → Request) :
    Monitor.Follows (fun t ↦ lockOrder (request t).ids) (site ι) KnownLocks where
  own {t w l held c r w' l'} h hx n hn := by
    have hgrows : ∀ m, held m → (lockOrder (request t).ids).after held c r m := by
      intro m hm
      cases c with
      | skuUpdate => exact .inl hm
      | skuSave => exact .inl hm
      | _ => exact hm
    obtain hkeeps | ⟨-, hends⟩ | ⟨row, new, hwrites⟩ := exec_rows_cases hx
    · rw [hkeeps.skuLock] at hn
      exact hgrows n (h n hn)
    · rw [hends.skuLock] at hn
      exact hgrows n (h n (skuLock_release hn))
    · obtain hold | ⟨-, rfl⟩ := hwrites.locked hn
      · exact hgrows n (h n hold)
      · obtain rfl | ⟨id, _, _, _, old, rfl, hfind, -⟩ := hwrites.cmd
        · exact .inr rfl
        · exact .inr (findRow_eq_ok_iff.1 hfind).1
  other {t u w l lu held c r w' l'} hu h hx n hn := by
    obtain hkeeps | ⟨-, hends⟩ | ⟨row, new, hwrites⟩ := exec_rows_cases hx
    · rw [hkeeps.skuLock] at hn
      exact h n hn
    · rw [hends.skuLock, Locks.release_eq_some_iff hu] at hn
      exact h n hn
    · obtain hold | ⟨rfl, -⟩ := hwrites.locked hn
      · exact h n hold
      · exact absurd rfl hu
  abort {t w l held} h n hn := h n (skuLock_release hn)
  abortOther {t u w l lu held} hu h n hn := h n ((Locks.release_eq_some_iff hu).1 hn)

/-- **What a waiting checkout has locked**: products that its list names before the one it asks for. -/
theorem locked_before (hcheckouts : Checkouts request)
    (hs : (site ι).Reach AnyMove (start db carts gateway request) s) {id : Str} {a b d : ℤ}
    (hnext : (s.prog t).next? = some (.skuUpdate id a b d)) (hid : int id = some (n : ℤ))
    (hlocked : s.world.skuLock m = some t) (hne : m ≠ n) : NamesBefore (request t).ids m n := by
  have hstart : Monitor.Watched (fun t ↦ lockOrder (request t).ids) KnownLocks
      (start db carts gateway request) := by
    intro u
    obtain ⟨now, req, hreq⟩ := hcheckouts u
    refine ⟨fun _ ↦ False, nofun, ?_⟩
    show (lockOrder (request u).ids).Accepts _ (request u).handler _
    rw [hreq]
    exact lockOrder_post now req
  obtain ⟨held, hheld, haccepts⟩ := (follows_lockOrder request).sound hstart hs t
  exact haccepts.allowed hnext m n (hheld m hlocked) hid hne

/-- The checkout `t` waits, in its conditional update of product `n`, for the lock that `u` holds. -/
structure WaitsFor (s : State Services ι (World ι) Session Reply) (t : ι) (n : ℕ) (u : ι) : Prop where
  blocked : ∃ id a b d sku, (s.prog t).next? = some (.skuUpdate id a b d) ∧
    exec t s.world (s.loc t) (.skuUpdate id a b d) = none ∧
    findRow (s.world.skus (s.loc t)) id = .ok (n, sku)
  lock : s.world.skuLock n = some u

/-- The checkouts `t` and `u` can be in each other's way: `t` asks for product `m`, and `u`'s list names
`m` and later another product `n`. -/
def CanBlock (request : ι → Request) (x y : ι × ℕ) : Prop :=
  x.1 ≠ y.1 ∧ x.2 ≠ y.2 ∧ NamesBefore (request y.1).ids x.2 y.2

omit [DecidableEq ι] in
theorem CanBlock.mk {request : ι → Request} (htu : t ≠ u) (hmn : m ≠ n)
    (h : NamesBefore (request u).ids m n) : CanBlock request (t, m) (u, n) := ⟨htu, hmn, h⟩

theorem WaitsFor.unique (h : WaitsFor s t m u) (h' : WaitsFor s t n v) : m = n := by
  obtain ⟨id, _, _, _, _, hnext, -, hfind⟩ := h.blocked
  obtain ⟨id', _, _, _, _, hnext', -, hfind'⟩ := h'.blocked
  cases hnext.symm.trans hnext'
  cases hfind.symm.trans hfind'
  rfl

/-- Nobody waits for a lock of his own. -/
theorem WaitsFor.ne (h : WaitsFor s t n u) : u ≠ t := by
  obtain ⟨id, a, b, d, sku, -, hblocked, hfind⟩ := h.blocked
  rintro rfl
  have hfree : s.world.skuLock.free u n = true := by
    refine Locks.free_iff.2 fun v hv hlock ↦ hv ?_
    exact Option.some.inj (hlock.symm.trans h.lock)
  rw [exec, Option.map_eq_none_iff] at hblocked
  split at hblocked
  · cases hblocked
  · rw [run, hfind] at hblocked
    dsimp only at hblocked
    rw [if_pos hfree] at hblocked
    split at hblocked
    · split at hblocked
      · cases hblocked
      · cases hblocked
    · cases hblocked

/-- Whoever is waited for while waiting can block the one who waits for him. -/
theorem WaitsFor.canBlock (hcheckouts : Checkouts request)
    (hs : (site ι).Reach AnyMove (start db carts gateway request) s) (h : WaitsFor s t m u)
    (h' : WaitsFor s u n v) : CanBlock request (t, m) (u, n) := by
  obtain ⟨id, _, _, _, _, hnext, -, hfind⟩ := h'.blocked
  have hne : m ≠ n := by
    rintro rfl
    exact h'.ne (Option.some.inj (h'.lock.symm.trans h.lock))
  exact .mk h.ne.symm hne
    (locked_before hcheckouts hs hnext (findRow_eq_ok_iff.1 hfind).1 h.lock hne)

/-- **No deadlocks.** If no cycle of checkouts can block each other by the order of their lists, then no
reachable state has a cycle of checkouts that wait for each other. -/
theorem no_deadlock (hcheckouts : Checkouts request)
    (hcycle : ∀ x, ¬ Relation.TransGen (CanBlock request) x x)
    (hs : (site ι).Reach AnyMove (start db carts gateway request) s) :
    ¬ ∃ t, Relation.TransGen (fun t u ↦ ∃ n, WaitsFor s t n u) t t := by
  -- along a chain of waiting checkouts, each can block the one before it
  have hchain : ∀ {t u : ι}, Relation.TransGen (fun t u ↦ ∃ n, WaitsFor s t n u) t u →
      ∀ {m n : ℕ} {v w : ι}, WaitsFor s t m v → WaitsFor s u n w →
        Relation.TransGen (CanBlock request) (t, m) (u, n) := by
    intro t u htu
    induction htu with
    | single htu =>
      intro m n v w ht hu
      obtain ⟨m', htu⟩ := htu
      obtain rfl := ht.unique htu
      exact .single (htu.canBlock hcheckouts hs hu)
    | tail _ huv ih =>
      intro m n v w ht hv
      obtain ⟨m', huv⟩ := huv
      exact (ih ht huv).tail (huv.canBlock hcheckouts hs hv)
  rintro ⟨t, hwaits⟩
  have hfirst : ∃ u n, WaitsFor s t n u := by
    obtain ⟨u, hu, -⟩ := Relation.TransGen.head'_iff.1 hwaits
    exact ⟨u, hu⟩
  obtain ⟨u, n, hn⟩ := hfirst
  exact hcycle (t, n) (hchain hwaits hn hn)

omit [DecidableEq ι] in
/-- Lists that name their products in one common order cannot block each other in a cycle. -/
theorem noCycle_of_rank {rank : ℕ → ℕ}
    (h : ∀ t m n, NamesBefore (request t).ids m n → m ≠ n → rank m < rank n) (x : ι × ℕ) :
    ¬ Relation.TransGen (CanBlock request) x x := by
  have hrank : ∀ {x y}, Relation.TransGen (CanBlock request) x y → rank x.2 < rank y.2 := by
    intro x y hxy
    induction hxy with
    | single hxy => exact h _ _ _ hxy.2.2 hxy.2.1
    | tail _ hyz ih => exact ih.trans (h _ _ _ hyz.2.2 hyz.2.1)
  exact fun hx ↦ lt_irrefl _ (hrank hx)

end Runs

/-! ### Two checkouts -/

/-- Users 7 and 8 check out two products each. -/
def twoLists (first second : String) : Fin 2 → Request := ![checkoutOf 7 0 first, checkoutOf 8 0 second]

theorem twoLists_checkouts (first second : String) : Checkouts (twoLists first second) := by
  rw [Checkouts, Fin.forall_fin_two]
  exact ⟨⟨_, _, rfl⟩, ⟨_, _, rfl⟩⟩

/-- Both carts have one piece of each product. -/
def oneOfEach : Cart := cartOf [("1", 1), ("2", 1)]

/-- Lists with one order: the second checkout waits for the first one, and that is all. -/
theorem no_deadlock_sameOrder : ∃ s, (site (Fin 2)).perform
      (start smallShop (fun _ ↦ oneOfEach) silent (twoLists "1,2" "1,2"))
      (.replicate 7 (.step 0) ++ .replicate 6 (.step 1)) = some s ∧
    ¬ ∃ t, Relation.TransGen (fun t u ↦ ∃ n, WaitsFor s t n u) t t := by
  obtain ⟨s, hs, -⟩ := Option.map_eq_some_iff.1 (show ((site (Fin 2)).perform
      (start smallShop (fun _ ↦ oneOfEach) silent (twoLists "1,2" "1,2"))
      (.replicate 7 (.step 0) ++ .replicate 6 (.step 1))).map (fun s ↦ s.world.skuLock 1) =
    some (some 0) by rfl)
  have hrank : ∀ t m n, NamesBefore (twoLists "1,2" "1,2" t).ids m n → m ≠ n → id m < id n := by
    rintro t m n ⟨x, y, hsublist, hx, hy⟩ -
    have hids : ∀ t, (twoLists "1,2" "1,2" t).ids = ["1".toList, "2".toList] :=
      Fin.forall_fin_two.2 ⟨by rfl, by rfl⟩
    rw [hids] at hsublist
    cases hsublist.eq_of_length rfl
    have hm : m = 1 := Int.ofNat_inj.1 (Option.some.inj (hx.symm.trans (by rfl)))
    have hn : n = 2 := Int.ofNat_inj.1 (Option.some.inj (hy.symm.trans (by rfl)))
    rw [hm, hn]
    decide
  exact ⟨s, hs, no_deadlock (twoLists_checkouts _ _) (noCycle_of_rank hrank)
    ((site (Fin 2)).reach_of_perform hs)⟩

/-- What the process is about to send, whether it has to wait, and for whom. -/
def waiting? (s : State Services (Fin 2) (World (Fin 2)) Session Reply) (t : Fin 2) (id : Str) (a b d : ℤ)
    (n : ℕ) : Option Cmd × Bool × Option ℕ × Option (Fin 2) :=
  ((s.prog t).next?, (exec t s.world (s.loc t) (.skuUpdate id a b d)).isNone,
    (findRow (s.world.skus (s.loc t)) id).toOption.map (·.1), s.world.skuLock n)

theorem waitsFor_of_waiting? {s : State Services (Fin 2) (World (Fin 2)) Session Reply} {t u : Fin 2}
    {id : Str} {a b d : ℤ} {n : ℕ}
    (h : waiting? s t id a b d n = (some (.skuUpdate id a b d), true, some n, some u)) :
    WaitsFor s t n u := by
  obtain ⟨hnext, h⟩ := Prod.mk.inj h
  obtain ⟨hblocked, h⟩ := Prod.mk.inj h
  obtain ⟨hfind, hlock⟩ := Prod.mk.inj h
  obtain ⟨⟨m, sku⟩, hfound, rfl⟩ := Option.map_eq_some_iff.1 hfind
  have hfind : findRow (s.world.skus (s.loc t)) id = .ok (m, sku) := by
    rcases hfind : findRow (s.world.skus (s.loc t)) id with e | x
    · rw [hfind] at hfound
      cases hfound
    · rw [hfind] at hfound
      rw [Option.some.inj hfound]
  exact ⟨⟨id, a, b, d, sku, hnext, Option.isNone_iff_eq_none.1 hblocked, hfind⟩, hlock⟩

/-- **A deadlock**: each of the two has locked the first product of its list and waits for the second. -/
theorem both_wait : ∃ s, (site (Fin 2)).perform
      (start smallShop (fun _ ↦ oneOfEach) silent (twoLists "1,2" "2,1"))
      (.replicate 10 (.step 0) ++ .replicate 10 (.step 1)) = some s ∧
    WaitsFor s 0 2 1 ∧ WaitsFor s 1 1 0 ∧
      Relation.TransGen (fun t u ↦ ∃ n, WaitsFor s t n u) 0 0 := by
  have hrun : ((site (Fin 2)).perform
      (start smallShop (fun _ ↦ oneOfEach) silent (twoLists "1,2" "2,1"))
      (.replicate 10 (.step 0) ++ .replicate 10 (.step 1))).map (fun s ↦
        (waiting? s 0 "2".toList 3 2 1 2, waiting? s 1 "1".toList 5 4 1 1)) =
      some ((some (.skuUpdate "2".toList 3 2 1), true, some 2, some 1),
        some (.skuUpdate "1".toList 5 4 1), true, some 1, some 0) := by rfl
  obtain ⟨s, hs, hvalues⟩ := Option.map_eq_some_iff.1 hrun
  obtain ⟨hzero, hone⟩ := Prod.mk.inj hvalues
  have hzero := waitsFor_of_waiting? hzero
  have hone := waitsFor_of_waiting? hone
  exact ⟨s, hs, hzero, hone, (Relation.TransGen.single ⟨2, hzero⟩).tail ⟨1, hone⟩⟩

end DailyFresh
