import DailyFresh.Site.CartViews

/-!
# What a command does to Redis and to the addresses

The carts and the browsing histories change by their own commands only: `Cmd.cartsAfter` and
`Cmd.historiesAfter` say how, and `exec_redis` that nothing else happens to them. Addresses are only added
(`exec_addrs_cases`).
-/

namespace DailyFresh

open Python Store Interleave

variable {ι : Type} [DecidableEq ι] {t : ι} {w v w' : World ι} {l l' : Session} {c : Cmd}

/-- The carts after a command. -/
def Cmd.cartsAfter (carts : ℕ → Cart) : Cmd → ℕ → Cart
  | hset user field value => Function.update carts user ((carts user).insert field value)
  | hdel user fields => Function.update carts user ((carts user).hdel fields)
  | _ => carts

/-- The browsing histories after a command. -/
def Cmd.historiesAfter (histories : ℕ → List Str) : Cmd → ℕ → List Str
  | lrem user value => Function.update histories user ((histories user).filter (· ≠ value))
  | lpush user value => Function.update histories user (value :: histories user)
  | ltrim user => Function.update histories user ((histories user).take 5)
  | _ => histories

/-- **What a command does to one user's list.** -/
theorem Cmd.historiesAfter_cases (histories : ℕ → List Str) (user : ℕ) (c : Cmd) :
    (∃ value, c = .lrem user value ∧
      c.historiesAfter histories user = (histories user).filter (· ≠ value)) ∨
    (∃ value, c = .lpush user value ∧ c.historiesAfter histories user = value :: histories user) ∨
    (c = .ltrim user ∧ c.historiesAfter histories user = (histories user).take 5) ∨
    (c.historiesAfter histories user = histories user ∧ (∀ value, c ≠ .lrem user value) ∧
      (∀ value, c ≠ .lpush user value) ∧ c ≠ .ltrim user) := by
  cases c with
  | lrem u value =>
    by_cases hu : u = user
    · subst hu
      exact .inl ⟨value, rfl, Function.update_self ..⟩
    · exact .inr (.inr (.inr ⟨Function.update_of_ne (Ne.symm hu) .., by simp [hu], by simp, by simp⟩))
  | lpush u value =>
    by_cases hu : u = user
    · subst hu
      exact .inr (.inl ⟨value, rfl, Function.update_self ..⟩)
    · exact .inr (.inr (.inr ⟨Function.update_of_ne (Ne.symm hu) .., by simp, by simp [hu], by simp⟩))
  | ltrim u =>
    by_cases hu : u = user
    · subst hu
      exact .inr (.inr (.inl ⟨rfl, Function.update_self ..⟩))
    · exact .inr (.inr (.inr ⟨Function.update_of_ne (Ne.symm hu) .., by simp, by simp, by simp [hu]⟩))
  | _ => exact .inr (.inr (.inr ⟨rfl, by simp, by simp, by simp⟩))

/-- The addresses after a command that is not refused. -/
def Cmd.addrsAfter (db : Db) : Cmd → AList fun _ : ℕ ↦ Address
  | addressCreate address =>
    match address.row? with
    | some row => db.addrs.insert db.nextAddress row
    | none => db.addrs
  | _ => db.addrs

/-- The addresses stay, or one is added. -/
theorem Cmd.addrsAfter_cases (db : Db) (c : Cmd) : c.addrsAfter db = db.addrs ∨
    ∃ address row, c = .addressCreate address ∧ address.row? = some row ∧
      c.addrsAfter db = db.addrs.insert db.nextAddress row := by
  cases c with
  | addressCreate address =>
    rcases hrow : address.row? with - | row
    · exact .inl (by rw [addrsAfter, hrow])
    · exact .inr ⟨address, row, rfl, hrow, by rw [addrsAfter, hrow]⟩
  | _ => exact .inl rfl

/-- What a command does to the carts, the browsing histories and the addresses. -/
structure Stored (c : Cmd) (w v : World ι) : Prop where
  carts : v.carts = c.cartsAfter w.carts
  histories : v.histories = c.historiesAfter w.histories
  addrs : v.db.addrs = c.addrsAfter w.db

/-- The carts, the browsing histories and the addresses are as they were. -/
def SameStores (w v : World ι) : Prop :=
  v.carts = w.carts ∧ v.histories = w.histories ∧ v.db.addrs = w.db.addrs

omit [DecidableEq ι] in
theorem World.writeSku_stores (n : ℕ) (sku : GoodsSKU) : SameStores w (w.writeSku t l n sku).1 := by
  unfold World.writeSku
  split
  · exact ⟨rfl, rfl, rfl⟩
  · exact ⟨rfl, rfl, rfl⟩

omit [DecidableEq ι] in
theorem World.writeOrder_stores (k : Str) (row : OrderInfo) :
    SameStores w (w.writeOrder t l k row).1 := by
  unfold World.writeOrder
  split
  · exact ⟨rfl, rfl, rfl⟩
  · exact ⟨rfl, rfl, rfl⟩

omit [DecidableEq ι] in
theorem World.writeLine_stores (row : OrderGoods) : SameStores w (w.writeLine l row).1 := by
  unfold World.writeLine
  split
  · exact ⟨rfl, rfl, rfl⟩
  · exact ⟨rfl, rfl, rfl⟩

/-- **What a command that runs** does to these stores. -/
theorem run_stored {r : c.Resp} (h : run t w l c = some (r, v, l')) : Stored c w v := by
  cases c with
  | skuUpdate id a b d =>
    obtain ⟨-, rfl, -⟩ | ⟨_, -, rfl, -⟩ | ⟨n, old, new, -, -, -, -, -, hv⟩ := run_skuUpdate_cases h
    · exact ⟨rfl, rfl, rfl⟩
    · exact ⟨rfl, rfl, rfl⟩
    · obtain ⟨rfl, -⟩ := Prod.mk.inj hv
      obtain ⟨hcarts, hhistories, haddrs⟩ := World.writeSku_stores (t := t) (w := w) (l := l) n new
      exact ⟨hcarts, hhistories, haddrs⟩
  | orderCreate order =>
    obtain ⟨_, -, rfl, -⟩ | ⟨row, -, -, -, -, hv⟩ := run_orderCreate_cases h
    · exact ⟨rfl, rfl, rfl⟩
    · obtain ⟨rfl, -⟩ := Prod.mk.inj hv
      obtain ⟨hcarts, hhistories, haddrs⟩ :=
        World.writeOrder_stores (t := t) (w := w) (l := l) order.orderId row
      exact ⟨hcarts, hhistories, haddrs⟩
  | orderSave order =>
    obtain ⟨_, -, -, rfl, -⟩ | ⟨row, -, -, -, hv⟩ := run_orderSave_cases h
    · exact ⟨rfl, rfl, rfl⟩
    · obtain ⟨rfl, -⟩ := Prod.mk.inj hv
      obtain ⟨hcarts, hhistories, haddrs⟩ :=
        World.writeOrder_stores (t := t) (w := w) (l := l) order.orderId row
      exact ⟨hcarts, hhistories, haddrs⟩
  | lineCreate line =>
    obtain ⟨_, -, -, rfl, -⟩ | ⟨row, -, -, hv⟩ := run_lineCreate_cases h
    · exact ⟨rfl, rfl, rfl⟩
    · obtain ⟨rfl, -⟩ := Prod.mk.inj hv
      obtain ⟨hcarts, hhistories, haddrs⟩ := World.writeLine_stores (w := w) (l := l) row
      exact ⟨hcarts, hhistories, haddrs⟩
  | orderGet =>
    obtain ⟨rfl, -⟩ := run_orderGet_cases h
    exact ⟨rfl, rfl, rfl⟩
  | skuSave n sku =>
    rw [run] at h
    split at h
    · obtain ⟨-, hv⟩ := Prod.mk.inj (Option.some.inj h)
      obtain ⟨rfl, -⟩ := Prod.mk.inj hv
      obtain ⟨hcarts, hhistories, haddrs⟩ := World.writeSku_stores (t := t) (w := w) (l := l) n sku
      exact ⟨hcarts, hhistories, haddrs⟩
    · cases h
  | lineSave =>
    rw [run] at h
    split at h
    all_goals
      cases h
      exact ⟨rfl, rfl, rfl⟩
  | commit =>
    rw [run] at h
    split at h
    all_goals
      cases h
      exact ⟨rfl, rfl, rfl⟩
  | addressCreate address =>
    rw [run] at h
    split at h
    · rename_i hrow
      cases h
      exact ⟨rfl, rfl, by rw [Cmd.addrsAfter, hrow]⟩
    · rename_i row hrow
      cases h
      exact ⟨rfl, rfl, by rw [Cmd.addrsAfter, hrow]⟩
  | _ =>
    cases h
    exact ⟨rfl, rfl, rfl⟩

/-- **What an executed command does to Redis.** A broken transaction refuses no Redis command. -/
theorem exec_redis {r : c.Resp} (h : exec t w l c = some (r, w', l')) :
    w'.carts = c.cartsAfter w.carts ∧ w'.histories = c.historiesAfter w.histories := by
  obtain ⟨⟨answer, v, l''⟩, hx, hxw⟩ := Option.map_eq_some_iff.1 h
  cases hxw
  split at hx
  · rename_i refused hrefused
    cases hx
    have hquery : c.refusal = some answer := by
      split at hrefused
      · exact hrefused
      · cases hrefused
    cases c with
    | hset => cases hquery
    | hdel => cases hquery
    | lrem => cases hquery
    | lpush => cases hquery
    | ltrim => cases hquery
    | _ => exact ⟨rfl, rfl⟩
  · have hstored := run_stored hx
    exact ⟨hstored.carts, hstored.histories⟩

/-- **What an executed command does to the addresses**: they stay, or one is added, outside any broken
transaction. -/
theorem exec_addrs_cases {r : c.Resp} (h : exec t w l c = some (r, w', l')) :
    w'.db.addrs = w.db.addrs ∨ ∃ address row, c = .addressCreate address ∧ l.needsRollback = false ∧
      address.row? = some row ∧ w'.db.addrs = w.db.addrs.insert w.db.nextAddress row := by
  rcases hbroken : l.needsRollback with - | -
  · obtain ⟨v, hrun, rfl⟩ := (exec_eq_some_iff hbroken).1 h
    have haddrs := (run_stored hrun).addrs
    obtain hsame | ⟨address, row, hc, hrow, hinsert⟩ := Cmd.addrsAfter_cases w.db c
    · exact .inl (haddrs.trans hsame)
    · exact .inr ⟨address, row, hc, rfl, hrow, haddrs.trans hinsert⟩
  · obtain ⟨⟨answer, v, l''⟩, hx, hxw⟩ := Option.map_eq_some_iff.1 h
    cases hxw
    rw [hbroken, if_pos rfl] at hx
    left
    split at hx
    · cases hx
      rfl
    · rename_i hquery
      obtain hsame | ⟨address, row, rfl, -⟩ := Cmd.addrsAfter_cases w.db c
      · exact (run_stored hx).addrs.trans hsame
      · cases hquery

end DailyFresh
