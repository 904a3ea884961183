import DailyFresh.Concurrent.Footprint

/-!
# Who holds locks

`LockEffect` says all that a command can do to the locks of rows: keep them, give up those of its own
request at the end of a transaction, or take one inside a transaction. So whoever holds a lock is inside a
transaction (`tidy_of_reach`). And a request leaves its transaction before it replies, on every path
(`leaves_handler`); so nobody holds a lock any more who has replied or died (`returned_of_reach`).
-/

namespace DailyFresh

open Python Store Interleave Program

variable {ι : Type} [DecidableEq ι] {t u : ι} {w w' v : World ι} {l l' : Session} {c : Cmd} {r : c.Resp}

/-! ### What a command does to the locks -/

/-- The command writes a product row. -/
def Cmd.locksSku : Cmd → Bool
  | skuUpdate .. | skuSave .. => true
  | _ => false

/-- The command writes an order row. -/
def Cmd.locksOrder : Cmd → Bool
  | orderCreate _ | orderSave _ => true
  | _ => false

/-- What the command `c` of `t` does to the locks. -/
inductive LockEffect (t : ι) (c : Cmd) (w w' : World ι) (l l' : Session) : Prop where
  | keeps (skuLock : w'.skuLock = w.skuLock) (orderLock : w'.orderLock = w.orderLock)
      (session : l.inAtomic = true → l'.inAtomic = true)
  | ends (cmd : c = .commit ∨ c = .rollback) (skuLock : w'.skuLock = w.skuLock.release t)
      (orderLock : w'.orderLock = w.orderLock.release t)
  | takesSku (n : ℕ) (cmd : c.locksSku = true) (free : w.skuLock.free t n = true)
      (skuLock : w'.skuLock = w.skuLock.acquire t n) (orderLock : w'.orderLock = w.orderLock)
      (session : l'.inAtomic = true)
  | takesOrder (k : Str) (cmd : c.locksOrder = true) (free : w.orderLock.free t k = true)
      (skuLock : w'.skuLock = w.skuLock) (orderLock : w'.orderLock = w.orderLock.acquire t k)
      (session : l'.inAtomic = true)

namespace LockEffect

theorem refl (t : ι) (c : Cmd) (w : World ι) (l : Session) : LockEffect t c w w l l := .keeps rfl rfl id

theorem fail (t : ι) (c : Cmd) (w : World ι) (l : Session) : LockEffect t c w w l l.fail :=
  .keeps rfl rfl id

theorem writeSku (hc : c.locksSku = true) {n : ℕ} (hfree : w.skuLock.free t n = true) (l : Session)
    (sku : GoodsSKU) : LockEffect t c w (w.writeSku t l n sku).1 l (w.writeSku t l n sku).2 := by
  unfold World.writeSku
  split
  · rename_i hatomic
    exact .takesSku n hc hfree rfl rfl hatomic
  · exact .keeps rfl rfl id

theorem writeOrder (hc : c.locksOrder = true) {k : Str} (hfree : w.orderLock.free t k = true) (l : Session)
    (row : OrderInfo) : LockEffect t c w (w.writeOrder t l k row).1 l (w.writeOrder t l k row).2 := by
  unfold World.writeOrder
  split
  · rename_i hatomic
    exact .takesOrder k hc hfree rfl rfl hatomic
  · exact .keeps rfl rfl id

theorem writeLine (t : ι) (c : Cmd) (w : World ι) (l : Session) (row : OrderGoods) :
    LockEffect t c w (w.writeLine l row).1 l (w.writeLine l row).2 := by
  unfold World.writeLine
  split
  · exact .keeps rfl rfl id
  · exact .keeps rfl rfl id

/-- Whoever has the lock of a product row after a command had it before, and is still in his transaction, or
has taken it in his transaction. -/
theorem of_skuLock (h : LockEffect t c w w' l l') {n : ℕ} (hlock : w'.skuLock n = some u) :
    (w.skuLock n = some u ∧ (u = t → l.inAtomic = true → l'.inAtomic = true)) ∨
      u = t ∧ l'.inAtomic = true := by
  cases h with
  | keeps hsku _ hsession =>
    rw [hsku] at hlock
    exact .inl ⟨hlock, fun _ ↦ hsession⟩
  | ends _ hsku =>
    rw [hsku, Locks.release] at hlock
    split at hlock
    · cases hlock
    · rename_i hne
      refine .inl ⟨hlock, fun hu ↦ absurd hlock ?_⟩
      rwa [hu]
  | takesSku m _ _ hsku _ hsession =>
    rw [hsku] at hlock
    by_cases hn : n = m
    · subst hn
      rw [Locks.acquire_self] at hlock
      exact .inr ⟨(Option.some.inj hlock).symm, hsession⟩
    · rw [Locks.acquire_of_ne hn] at hlock
      exact .inl ⟨hlock, fun _ _ ↦ hsession⟩
  | takesOrder k _ _ hsku _ hsession =>
    rw [hsku] at hlock
    exact .inl ⟨hlock, fun _ _ ↦ hsession⟩

/-- The same for the lock of an order row. -/
theorem of_orderLock (h : LockEffect t c w w' l l') {k : Str} (hlock : w'.orderLock k = some u) :
    (w.orderLock k = some u ∧ (u = t → l.inAtomic = true → l'.inAtomic = true)) ∨
      u = t ∧ l'.inAtomic = true := by
  cases h with
  | keeps _ horder hsession =>
    rw [horder] at hlock
    exact .inl ⟨hlock, fun _ ↦ hsession⟩
  | ends _ _ horder =>
    rw [horder, Locks.release] at hlock
    split at hlock
    · cases hlock
    · rename_i hne
      refine .inl ⟨hlock, fun hu ↦ absurd hlock ?_⟩
      rwa [hu]
  | takesSku n _ _ _ horder hsession =>
    rw [horder] at hlock
    exact .inl ⟨hlock, fun _ _ ↦ hsession⟩
  | takesOrder k' _ _ _ horder hsession =>
    rw [horder] at hlock
    by_cases hk : k = k'
    · subst hk
      rw [Locks.acquire_self] at hlock
      exact .inr ⟨(Option.some.inj hlock).symm, hsession⟩
    · rw [Locks.acquire_of_ne hk] at hlock
      exact .inl ⟨hlock, fun _ _ ↦ hsession⟩

end LockEffect

theorem run_lockEffect (h : run t w l c = some (r, v, l')) : LockEffect t c w v l l' := by
  cases c with
  | skuUpdate id orginStock newStock newSales =>
    obtain ⟨-, rfl, rfl, -⟩ | ⟨_, -, rfl, rfl | rfl⟩ | ⟨n, old, new, -, -, hfree, -, -, hv⟩ :=
      run_skuUpdate_cases h
    · exact .refl t _ v l'
    · exact .refl t _ v l'
    · exact .fail t _ v l
    · have heffect := LockEffect.writeSku (c := .skuUpdate id orginStock newStock newSales) rfl hfree l new
      rwa [← hv] at heffect
  | skuSave n sku =>
    rw [run] at h
    split at h
    · rename_i hfree
      obtain ⟨-, hv⟩ := Prod.mk.inj (Option.some.inj h)
      have heffect := LockEffect.writeSku (c := .skuSave n sku) rfl hfree l sku
      rwa [hv] at heffect
    · cases h
  | orderCreate order =>
    obtain ⟨_, -, rfl, rfl⟩ | ⟨row, -, -, hfree, -, hv⟩ := run_orderCreate_cases h
    · exact .fail t _ v l
    · have heffect := LockEffect.writeOrder (c := .orderCreate order) rfl hfree l row
      rwa [← hv] at heffect
  | orderSave order =>
    obtain ⟨_, -, -, rfl, rfl⟩ | ⟨row, -, -, hfree, hv⟩ := run_orderSave_cases h
    · exact .fail t _ v l
    · have heffect := LockEffect.writeOrder (c := .orderSave order) rfl hfree l row
      rwa [← hv] at heffect
  | lineCreate line =>
    obtain ⟨_, -, -, rfl, rfl⟩ | ⟨row, -, -, hv⟩ := run_lineCreate_cases h
    · exact .fail t _ v l
    · have heffect := LockEffect.writeLine t (.lineCreate line) w l row
      rwa [← hv] at heffect
  | orderGet =>
    obtain ⟨rfl, rfl, -⟩ := run_orderGet_cases h
    exact .refl t _ v l'
  | addressCreate address =>
    obtain ⟨_, -, rfl, rfl⟩ | ⟨row, -, -, rfl, rfl⟩ := run_addressCreate_cases h
    · exact .fail t _ v l
    · exact .keeps rfl rfl id
  | lineSave n line comment =>
    rw [run] at h
    split at h
    all_goals
      cases h
      exact .keeps rfl rfl id
  | commit =>
    rw [run] at h
    split at h
    all_goals
      cases h
      exact .ends (.inl rfl) rfl rfl
  | rollback =>
    cases h
    exact .ends (.inr rfl) rfl rfl
  | atomicEnter =>
    cases h
    exact .keeps rfl rfl fun _ ↦ rfl
  | _ =>
    cases h
    exact .keeps rfl rfl id

/-- A command is refused in a broken transaction, or it is run; either way it is recorded. -/
theorem exec_cases (h : exec t w l c = some (r, w', l')) :
    (l.needsRollback = true ∧ c.refusal = some r ∧ w' = w.record t c r ∧ l' = l) ∨
      (l.needsRollback = false ∨ c.refusal = none) ∧
        ∃ v, run t w l c = some (r, v, l') ∧ w' = v.record t c r := by
  obtain ⟨⟨r', v, l''⟩, hx, hxw⟩ := Option.map_eq_some_iff.1 h
  obtain ⟨rfl, hw⟩ := Prod.mk.inj hxw
  obtain ⟨rfl, rfl⟩ := Prod.mk.inj hw
  split at hx
  · rename_i hrefusal
    cases hx
    split at hrefusal
    · rename_i hbroken
      exact .inl ⟨hbroken, hrefusal, rfl, rfl⟩
    · cases hrefusal
  · rename_i hrefusal
    refine .inr ⟨?_, v, hx, rfl⟩
    split at hrefusal
    · exact .inr hrefusal
    · rename_i hbroken
      exact .inl (Bool.eq_false_iff.2 hbroken)

/-- A command that is refused. -/
theorem exec_of_refusal (hbroken : l.needsRollback = true) (hrefusal : c.refusal = some r) :
    exec t w l c = some (r, w.record t c r, l) := by
  rw [exec, if_pos hbroken, hrefusal]
  rfl

/-- A command that is run. -/
theorem exec_of_run (hsound : l.needsRollback = false ∨ c.refusal = none)
    (h : run t w l c = some (r, v, l')) : exec t w l c = some (r, v.record t c r, l') := by
  have hnone : (if l.needsRollback = true then c.refusal else none) = none := by
    rcases hsound with hsound | hrefusal
    · rw [hsound]
      rfl
    · rw [hrefusal]
      exact ite_self _
  rw [exec, hnone]
  dsimp only
  rw [h]
  rfl

theorem exec_lockEffect (h : exec t w l c = some (r, w', l')) : LockEffect t c w w' l l' := by
  obtain ⟨-, -, rfl, rfl⟩ | ⟨-, v, hrun, rfl⟩ := exec_cases h
  · exact .keeps rfl rfl id
  · have heffect := run_lockEffect hrun
    cases heffect with
    | keeps hsku horder hsession => exact .keeps hsku horder hsession
    | ends hc hsku horder => exact .ends hc hsku horder
    | takesSku n hc hfree hsku horder hsession => exact .takesSku n hc hfree hsku horder hsession
    | takesOrder k hc hfree hsku horder hsession => exact .takesOrder k hc hfree hsku horder hsession

/-- The end of a transaction gives up all locks. -/
theorem exec_ends (hc : c = .commit ∨ c = .rollback) (h : exec t w l c = some (r, w', l')) :
    w'.skuLock = w.skuLock.release t ∧ w'.orderLock = w.orderLock.release t := by
  rcases hc with rfl | rfl
  · obtain ⟨-, hrefusal, -⟩ | ⟨-, v, hrun, rfl⟩ := exec_cases h
    · cases hrefusal
    · rw [run] at hrun
      split at hrun
      all_goals
        cases hrun
        exact ⟨rfl, rfl⟩
  · obtain ⟨-, hrefusal, -⟩ | ⟨-, v, hrun, rfl⟩ := exec_cases h
    · cases hrefusal
    · cases hrun
      exact ⟨rfl, rfl⟩

/-! ### Locks belong to transactions -/

section Runs

variable {s s' : State Services ι (World ι) Session Reply} {m : Move ι} {request : ι → Request} {db : Db}
  {carts : ℕ → Cart} {gateway : ℕ → Answer}
  {ok : State Services ι (World ι) Session Reply → Move ι → Prop}

/-- Whoever holds a lock is inside a transaction. -/
structure Tidy (s : State Services ι (World ι) Session Reply) : Prop where
  skuLock : ∀ n t, s.world.skuLock n = some t → (s.loc t).inAtomic = true
  orderLock : ∀ k t, s.world.orderLock k = some t → (s.loc t).inAtomic = true

theorem Tidy.step (h : Tidy s) {p : Program Services Reply}
    (heffect : LockEffect t c s.world w' (s.loc t) l') : Tidy (s.put t w' l' p) where
  skuLock n u hu := by
    rcases eq_or_ne u t with rfl | hne
    · rw [State.put_loc_self]
      obtain ⟨hold, hkept⟩ | ⟨-, hsession⟩ := heffect.of_skuLock hu
      · exact hkept rfl (h.skuLock n u hold)
      · exact hsession
    · rw [s.put_loc_of_ne _ _ _ hne]
      obtain ⟨hold, -⟩ | ⟨heq, -⟩ := heffect.of_skuLock hu
      · exact h.skuLock n u hold
      · exact absurd heq hne
  orderLock k u hu := by
    rcases eq_or_ne u t with rfl | hne
    · rw [State.put_loc_self]
      obtain ⟨hold, hkept⟩ | ⟨-, hsession⟩ := heffect.of_orderLock hu
      · exact hkept rfl (h.orderLock k u hold)
      · exact hsession
    · rw [s.put_loc_of_ne _ _ _ hne]
      obtain ⟨hold, -⟩ | ⟨heq, -⟩ := heffect.of_orderLock hu
      · exact h.orderLock k u hold
      · exact absurd heq hne

theorem Tidy.next (h : Tidy s) (hn : (site ι).next s m = some s') : Tidy s' := by
  cases m with
  | step t =>
    obtain ⟨c, r, w', l', p, -, hx, rfl⟩ := (site ι).next_step_exec hn
    exact h.step (exec_lockEffect hx)
  | kill t =>
    obtain ⟨-, rfl⟩ := (site ι).next_kill_cases hn
    exact h.step (c := .rollback) (.ends (.inr rfl) rfl rfl)

/-- **Locks belong to transactions**, in every state of a run. -/
theorem tidy_of_reach (hs : (site ι).Reach ok (start db carts gateway request) s) : Tidy s :=
  hs.invariant (I := Tidy) ⟨fun _ _ h ↦ (by cases h), fun _ _ h ↦ (by cases h)⟩
    fun _ _ _ h _ hn ↦ h.next hn

/-! ### Transactions end -/

/-- The monitor of transactions: its state says whether one has begun. -/
def transactions : Monitor Services Bool where
  allowed inside
    | .atomicEnter => inside = false
    | .commit => inside = true
    | .rollback => inside = true
    | _ => True
  after inside
    | .atomicEnter, _ => true
    | .commit, _ => false
    | .rollback, _ => false
    | _, _ => inside

omit [DecidableEq ι] in
theorem transactions_still (hc : c.delimits = false) {inside inside' : Bool} (h : inside = inside') :
    transactions.allowed inside c ∧ ∀ r, transactions.after inside c r = inside' := by
  subst h
  cases c with
  | atomicEnter => cases hc
  | commit => cases hc
  | rollback => cases hc
  | _ => exact ⟨trivial, fun _ ↦ rfl⟩

omit [DecidableEq ι] in
theorem transactions_repeats {I : Bool → Prop} (inside : Bool) (c : Cmd) (again : c.Resp → Bool) (_ : I inside)
    (hc : c.Repeats again) (r : c.Resp) (_ : again r = true) : transactions.after inside c r = inside := by
  cases c with
  | tradeQuery => rfl
  | _ => exact hc.elim

theorem leaves_commit (now : LocalTime) (req : HttpRequest) :
    transactions.Accepts (fun _ inside ↦ inside = false) (OrderCommitView.post now req) false := by
  have hbody : transactions.Accepts (fun _ inside ↦ inside = true) (OrderCommitView.body id now req) true :=
    (sends_body id).accepts (fun inside c h hc ↦ transactions_still hc.2 h) transactions_repeats rfl
  refine .send rfl fun _ ↦ hbody.bind fun reply inside hinside ↦ ?_
  rcases reply with - | reply
  · exact .send hinside fun _ ↦ rfl
  · exact .send hinside fun _ ↦ rfl

omit [DecidableEq ι] in
/-- Only checkouts begin transactions. -/
theorem Request.May.not_delimits {r : Request} (hr : ∀ now req, r ≠ .commit now req) (hc : r.May c) :
    c.delimits = false := by
  cases c with
  | atomicEnter | commit | rollback =>
    obtain h | h := hc.kind
    · cases h
    · cases r with
      | commit now req => exact absurd rfl (hr now req)
      | _ => cases h
  | _ => rfl

/-- **A request is outside any transaction when it replies**, on every path. -/
theorem leaves_handler (r : Request) :
    transactions.Accepts (fun _ inside ↦ inside = false) r.handler false := by
  by_cases hr : ∃ now req, r = .commit now req
  · obtain ⟨now, req, rfl⟩ := hr
    exact leaves_commit now req
  · exact (sends_handler r).accepts
      (fun inside c h hc ↦ transactions_still (hc.not_delimits fun now req heq ↦ hr ⟨now, req, heq⟩) h)
      transactions_repeats rfl

omit [DecidableEq ι] in
theorem World.write_inAtomic (w : World ι) (t : ι) (l : Session) :
    (∀ n sku, (w.writeSku t l n sku).2.inAtomic = l.inAtomic) ∧
      (∀ k row, (w.writeOrder t l k row).2.inAtomic = l.inAtomic) ∧
        ∀ row, (w.writeLine l row).2.inAtomic = l.inAtomic := by
  refine ⟨fun n sku ↦ ?_, fun k row ↦ ?_, fun row ↦ ?_⟩
  · unfold World.writeSku
    split <;> rfl
  · unfold World.writeOrder
    split <;> rfl
  · unfold World.writeLine
    split <;> rfl

/-- The session is in a transaction exactly if the monitor says so. -/
theorem run_inAtomic (h : run t w l c = some (r, v, l')) :
    l'.inAtomic = transactions.after l.inAtomic c r := by
  obtain ⟨hsku, horder, hline⟩ := w.write_inAtomic t l
  cases c with
  | skuUpdate id orginStock newStock newSales =>
    obtain ⟨-, -, rfl, -⟩ | ⟨_, -, -, rfl | rfl⟩ | ⟨n, old, new, -, -, -, -, -, hv⟩ :=
      run_skuUpdate_cases h
    · rfl
    · rfl
    · rfl
    · exact (congrArg (fun x ↦ x.2.inAtomic) hv).trans (hsku n new)
  | skuSave n sku =>
    rw [run] at h
    split at h
    · obtain ⟨-, hv⟩ := Prod.mk.inj (Option.some.inj h)
      exact (congrArg (fun x ↦ x.2.inAtomic) hv.symm).trans (hsku n sku)
    · cases h
  | orderCreate order =>
    obtain ⟨_, -, -, rfl⟩ | ⟨row, -, -, -, -, hv⟩ := run_orderCreate_cases h
    · rfl
    · exact (congrArg (fun x ↦ x.2.inAtomic) hv).trans (horder _ row)
  | orderSave order =>
    obtain ⟨_, -, -, -, rfl⟩ | ⟨row, -, -, -, hv⟩ := run_orderSave_cases h
    · rfl
    · exact (congrArg (fun x ↦ x.2.inAtomic) hv).trans (horder _ row)
  | lineCreate line =>
    obtain ⟨_, -, -, -, rfl⟩ | ⟨row, -, -, hv⟩ := run_lineCreate_cases h
    · rfl
    · exact (congrArg (fun x ↦ x.2.inAtomic) hv).trans (hline row)
  | orderGet =>
    obtain ⟨-, rfl, -⟩ := run_orderGet_cases h
    rfl
  | addressCreate address =>
    obtain ⟨_, -, -, rfl⟩ | ⟨row, -, -, rfl, -⟩ := run_addressCreate_cases h
    · rfl
    · rfl
  | lineSave n line comment =>
    rw [run] at h
    split at h
    all_goals
      cases h
      rfl
  | commit =>
    rw [run] at h
    split at h
    all_goals
      cases h
      rfl
  | _ =>
    cases h
    rfl

omit [DecidableEq ι] in
theorem delimits_of_refusal (h : c.refusal = some r) : c.delimits = false := by
  cases c with
  | atomicEnter => cases h
  | commit => cases h
  | rollback => cases h
  | _ => rfl

theorem exec_inAtomic (h : exec t w l c = some (r, w', l')) :
    l'.inAtomic = transactions.after l.inAtomic c r := by
  obtain ⟨-, hrefusal, -, rfl⟩ | ⟨-, v, hrun, -⟩ := exec_cases h
  · exact ((transactions_still (delimits_of_refusal hrefusal) rfl).2 r).symm
  · exact run_inAtomic hrun

/-- What a request still has to run ends outside any transaction, in every state of a run. -/
theorem leaves_of_reach (hs : (site ι).Reach ok (start db carts gateway request) s) (t : ι) :
    transactions.Accepts (fun _ inside ↦ inside = false) (s.prog t) (s.loc t).inAtomic :=
  Monitor.Accepts.of_reach exec_inAtomic (fun _ _ _ ↦ rfl) (fun u ↦ leaves_handler (request u)) hs t

/-- **Whoever has replied or died** is in no transaction and holds no lock. -/
theorem returned_of_reach (hs : (site ι).Reach ok (start db carts gateway request) s) {reply : Reply}
    (hreply : (s.prog t).result? = some reply) :
    (s.loc t).inAtomic = false ∧ (∀ n, s.world.skuLock n ≠ some t) ∧
      ∀ k, s.world.orderLock k ≠ some t := by
  have hleaves := leaves_of_reach hs t
  rw [Program.result?_eq_some_iff.1 hreply] at hleaves
  have hidle : (s.loc t).inAtomic = false := hleaves
  have htidy := tidy_of_reach hs
  refine ⟨hidle, fun n hlock ↦ ?_, fun k hlock ↦ ?_⟩
  · exact absurd (htidy.skuLock n t hlock) (by rw [hidle]; exact Bool.false_ne_true)
  · exact absurd (htidy.orderLock k t hlock) (by rw [hidle]; exact Bool.false_ne_true)

end Runs

end DailyFresh
