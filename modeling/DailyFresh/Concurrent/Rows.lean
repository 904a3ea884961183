import DailyFresh.Concurrent.CommitPath

/-!
# Product rows that are written and not committed

A session *holds* the product rows that it has written and may still commit: they are pending, or they
were pending at its savepoint. `exec_rows_cases` says all that a command can do to product rows: write one
that nobody else has locked, end the session, or neither.

`Backed R s` is an invariant for any relation `R` between a row and the row of the committed table: whoever
holds a row has locked it, and the row is related to the committed one. The locks make it survive what
others do (`Backed.next`); the mover itself owes `R` for what it writes.
-/

namespace DailyFresh

open Python Store Interleave

variable {ι : Type}

/-- The session has written this row of product `n` and may still commit it. -/
def Session.Holds (l : Session) (n : ℕ) (row : GoodsSKU) : Prop :=
  l.pending.skus n = some row ∨ l.saved.skus n = some row

theorem not_holds_idle (n : ℕ) (row : GoodsSKU) : ¬ Session.Holds .idle n row := by
  rintro (h | h)
  · cases h
  · cases h

/-- A command that writes no product row and ends no transaction. -/
structure KeepsRows (w w' : World ι) (l l' : Session) : Prop where
  skus : w'.db.skus = w.db.skus
  skuLock : w'.skuLock = w.skuLock
  holds : ∀ n row, l'.Holds n row → l.Holds n row

theorem KeepsRows.refl (w : World ι) (l : Session) : KeepsRows w w l l := ⟨rfl, rfl, fun _ _ ↦ id⟩

theorem KeepsRows.fail (w : World ι) (l : Session) : KeepsRows w w l l.fail :=
  ⟨rfl, rfl, fun _ _ ↦ id⟩

theorem KeepsRows.writeOrder (w : World ι) (t : ι) (l : Session) (k : Str) (row : OrderInfo) :
    KeepsRows w (w.writeOrder t l k row).1 l (w.writeOrder t l k row).2 := by
  unfold World.writeOrder
  split
  · exact ⟨rfl, rfl, fun _ _ ↦ id⟩
  · exact ⟨rfl, rfl, fun _ _ ↦ id⟩

theorem KeepsRows.writeLine (w : World ι) (l : Session) (row : OrderGoods) :
    KeepsRows w (w.writeLine l row).1 l (w.writeLine l row).2 := by
  unfold World.writeLine
  split
  · exact ⟨rfl, rfl, fun _ _ ↦ id⟩
  · exact ⟨rfl, rfl, fun _ _ ↦ id⟩

variable [DecidableEq ι]

/-- The end of a transaction: its rows are committed or lost. -/
structure EndsRows (t : ι) (w w' : World ι) (l l' : Session) : Prop where
  idle : l' = .idle
  skuLock : w'.skuLock = w.skuLock.release t
  skus : w'.db.skus = w.db.skus ∨ w'.db.skus = l.pending.skus.overlay w.db.skus

/-- The write of a product row: of a whole row, or a conditional update that has found the stock it asked
for. -/
structure WritesRow (t : ι) (w w' : World ι) (l l' : Session) (c : Cmd) (n : ℕ) (new : GoodsSKU) :
    Prop where
  free : w.skuLock.free t n = true
  cmd : c = .skuSave n new ∨ ∃ id orginStock newStock newSales old,
    c = .skuUpdate id orginStock newStock newSales ∧ findRow (w.skus l) id = .ok (n, old) ∧
      old.stock.val = orginStock ∧ old.update? newStock newSales = some new
  session : l' = (w.writeSku t l n new).2
  skus : w'.db.skus = (w.writeSku t l n new).1.db.skus
  skuLock : w'.skuLock = (w.writeSku t l n new).1.skuLock

section Exec

variable {t : ι} {w w' v : World ι} {l l' : Session} {c : Cmd} {r : c.Resp}

/-- What a command does to product rows, in a transaction that is not broken. -/
theorem run_rows_cases (h : run t w l c = some (r, v, l')) :
    KeepsRows w v l l' ∨ (c = .commit ∨ c = .rollback) ∧ EndsRows t w v l l' ∨
      ∃ n new, WritesRow t w v l l' c n new := by
  cases c with
  | skuUpdate id orginStock newStock newSales =>
    obtain ⟨-, rfl, rfl, -⟩ | ⟨_, -, rfl, rfl | rfl⟩ |
      ⟨n, old, new, -, hfind, hfree, hstock, hupdate, hv⟩ := run_skuUpdate_cases h
    · exact .inl (.refl v l')
    · exact .inl (.refl v l')
    · exact .inl (.fail v l)
    · have hworld : v = (w.writeSku t l n new).1 := congrArg Prod.fst hv
      exact .inr (.inr ⟨n, new, hfree, .inr ⟨_, _, _, _, old, rfl, hfind, hstock, hupdate⟩,
        congrArg Prod.snd hv, by rw [hworld], by rw [hworld]⟩)
  | skuSave n sku =>
    rw [run] at h
    split at h
    · rename_i hfree
      obtain ⟨-, hv⟩ := Prod.mk.inj (Option.some.inj h)
      have hworld : (w.writeSku t l n sku).1 = v := congrArg Prod.fst hv
      exact .inr (.inr ⟨n, sku, hfree, .inl rfl, (congrArg Prod.snd hv).symm, by rw [hworld],
        by rw [hworld]⟩)
    · cases h
  | orderCreate order =>
    obtain ⟨_, -, rfl, rfl⟩ | ⟨row, -, -, -, -, hv⟩ := run_orderCreate_cases h
    · exact .inl (.fail v l)
    · have hkeeps := KeepsRows.writeOrder w t l order.orderId row
      rw [← hv] at hkeeps
      exact .inl hkeeps
  | orderSave order =>
    obtain ⟨_, -, -, rfl, rfl⟩ | ⟨row, -, -, -, hv⟩ := run_orderSave_cases h
    · exact .inl (.fail v l)
    · have hkeeps := KeepsRows.writeOrder w t l order.orderId row
      rw [← hv] at hkeeps
      exact .inl hkeeps
  | lineCreate line =>
    obtain ⟨_, -, -, rfl, rfl⟩ | ⟨row, -, -, hv⟩ := run_lineCreate_cases h
    · exact .inl (.fail v l)
    · have hkeeps := KeepsRows.writeLine w l row
      rw [← hv] at hkeeps
      exact .inl hkeeps
  | orderGet =>
    obtain ⟨rfl, rfl, -⟩ := run_orderGet_cases h
    exact .inl (.refl v l')
  | addressCreate address =>
    obtain ⟨_, -, rfl, rfl⟩ | ⟨row, -, -, rfl, rfl⟩ := run_addressCreate_cases h
    · exact .inl (.fail v l)
    · exact .inl ⟨rfl, rfl, fun _ _ ↦ id⟩
  | lineSave n line comment =>
    rw [run] at h
    split at h
    all_goals
      cases h
      exact .inl ⟨rfl, rfl, fun _ _ ↦ id⟩
  | commit =>
    rw [run] at h
    split at h
    · cases h
      exact .inr (.inl ⟨.inl rfl, rfl, rfl, .inl rfl⟩)
    · cases h
      exact .inr (.inl ⟨.inl rfl, rfl, rfl, .inr rfl⟩)
  | rollback =>
    cases h
    exact .inr (.inl ⟨.inr rfl, rfl, rfl, .inl rfl⟩)
  | savepoint =>
    cases h
    exact .inl ⟨rfl, rfl, fun n row h ↦ h.elim .inl .inl⟩
  | savepointRollback =>
    cases h
    exact .inl ⟨rfl, rfl, fun n row h ↦ h.elim .inr .inr⟩
  | _ =>
    cases h
    exact .inl ⟨rfl, rfl, fun _ _ ↦ id⟩

/-- **What a command does to product rows.** -/
theorem exec_rows_cases (h : exec t w l c = some (r, w', l')) :
    KeepsRows w w' l l' ∨ (c = .commit ∨ c = .rollback) ∧ EndsRows t w w' l l' ∨
      ∃ n new, WritesRow t w w' l l' c n new := by
  obtain ⟨⟨r', v, l''⟩, hx, hxw⟩ := Option.map_eq_some_iff.1 h
  obtain ⟨rfl, hw⟩ := Prod.mk.inj hxw
  obtain ⟨rfl, rfl⟩ := Prod.mk.inj hw
  split at hx
  · cases hx
    exact .inl ⟨rfl, rfl, fun _ _ ↦ id⟩
  · obtain hkeeps | ⟨hc, hends⟩ | ⟨n, new, hwrites⟩ := run_rows_cases hx
    · exact .inl ⟨hkeeps.skus, hkeeps.skuLock, hkeeps.holds⟩
    · exact .inr (.inl ⟨hc, hends.idle, hends.skuLock, hends.skus⟩)
    · exact .inr (.inr ⟨n, new, hwrites.free, hwrites.cmd, hwrites.session, hwrites.skus,
        hwrites.skuLock⟩)

/-- Commands remove no product. -/
theorem exec_skus_mono (h : exec t w l c = some (r, w', l')) {n : ℕ} {row : GoodsSKU}
    (hrow : w.db.skus n = some row) : ∃ row', w'.db.skus n = some row' := by
  obtain hkeeps | ⟨-, hends⟩ | ⟨m, new, hwrites⟩ := exec_rows_cases h
  · exact ⟨row, by rw [hkeeps.skus, hrow]⟩
  · rcases hends.skus with hskus | hskus
    · exact ⟨row, by rw [hskus, hrow]⟩
    · rw [hskus]
      exact Table.exists_overlay hrow _
  · rw [hwrites.skus, World.writeSku]
    split
    · exact ⟨row, hrow⟩
    · show ∃ row', w.db.skus.set m new n = some row'
      by_cases hn : n = m
      · subst hn
        exact ⟨new, Table.set_self ..⟩
      · exact ⟨row, (Table.set_of_ne hn).trans hrow⟩

end Exec

/-! ### Rows that are held are backed -/

/-- Whoever holds a row has locked it, and the row is related to the committed one. -/
def Backed (R : GoodsSKU → GoodsSKU → Prop) (s : State Services ι (World ι) Session Reply) : Prop :=
  ∀ t n row, (s.loc t).Holds n row →
    s.world.skuLock n = some t ∧ ∃ old, s.world.db.skus n = some old ∧ R row old

section Step

variable {R : GoodsSKU → GoodsSKU → Prop} {s s' : State Services ι (World ι) Session Reply} {m : Move ι}
  {t : ι} {n : ℕ} {row : GoodsSKU}

omit [DecidableEq ι] in
/-- The row that a session sees is the committed one or one that it holds. -/
theorem skus_cases {w : World ι} {l : Session} (h : w.skus l n = some row) :
    l.Holds n row ∨ w.db.skus n = some row := by
  rcases hpending : l.pending.skus n with - | row'
  · right
    rwa [World.skus, Table.overlay_of_none hpending] at h
  · left
    rw [World.skus, Table.overlay_of_some hpending] at h
    exact .inl (hpending.trans h)

/-- What others hold, nobody writes. -/
theorem Backed.ne_of_free (h : Backed R s) {u : ι} (hu : u ≠ t) (hfree : s.world.skuLock.free t n = true)
    {n' : ℕ} (hholds : (s.loc u).Holds n' row) : n' ≠ n := by
  rintro rfl
  exact Locks.free_iff.1 hfree u hu (h u n' row hholds).1

/-- The end of a session, by a command or by a kill. -/
theorem Backed.of_ends (h : Backed R s) (hother : ∀ u, u ≠ t → s'.loc u = s.loc u)
    (hends : EndsRows t s.world s'.world (s.loc t) (s'.loc t)) : Backed R s' := by
  intro u n row hholds
  have hu : u ≠ t := by
    rintro rfl
    rw [hends.idle] at hholds
    exact not_holds_idle n row hholds
  rw [hother u hu] at hholds
  obtain ⟨hlock, old, hold, hR⟩ := h u n row hholds
  refine ⟨?_, old, ?_, hR⟩
  · rw [hends.skuLock]
    exact (Locks.release_eq_some_iff hu).2 hlock
  · rcases hends.skus with hskus | hskus
    · rw [hskus, hold]
    · rw [hskus]
      rcases hpending : (s.loc t).pending.skus n with - | row'
      · rw [Table.overlay_of_none hpending, hold]
      · have hlock' := (h t n row' (.inl hpending)).1
        exact absurd (Option.some.inj (hlock.symm.trans hlock')) hu

omit [DecidableEq ι] in
/-- A command that keeps the rows. -/
theorem Backed.of_keeps (h : Backed R s) (hother : ∀ u, u ≠ t → s'.loc u = s.loc u)
    (hkeeps : KeepsRows s.world s'.world (s.loc t) (s'.loc t)) : Backed R s' := by
  intro u n row hholds
  rw [hkeeps.skuLock, hkeeps.skus]
  refine h u n row ?_
  rcases eq_or_ne u t with rfl | hu
  · exact hkeeps.holds n row hholds
  · rwa [hother u hu] at hholds

section Write

variable {c : Cmd} {new : GoodsSKU} (h : Backed R s) (hother : ∀ u, u ≠ t → s'.loc u = s.loc u)
  (hwrites : WritesRow t s.world s'.world (s.loc t) (s'.loc t) c n new)

include h hother hwrites

/-- A write inside a transaction: the row is pending, and locked. -/
theorem Backed.of_pending (hatomic : (s.loc t).inAtomic = true)
    (hnew : ∃ old, s.world.db.skus n = some old ∧ R new old) : Backed R s' := by
  have hsession := hwrites.session
  rw [World.writeSku, if_pos hatomic] at hsession
  intro u n' row hholds
  rw [hwrites.skuLock, hwrites.skus, World.writeSku, if_pos hatomic]
  show s.world.skuLock.acquire t n n' = some u ∧ ∃ old, s.world.db.skus n' = some old ∧ R row old
  rcases eq_or_ne u t with rfl | hu
  · rw [hsession] at hholds
    by_cases hn' : n' = n
    · subst hn'
      refine ⟨Locks.acquire_self .., ?_⟩
      rcases hholds with hset | hsaved
      · have hset' : (s.loc u).pending.skus.set n' new n' = some row := hset
        rw [Table.set_self] at hset'
        exact Option.some.inj hset' ▸ hnew
      · exact (h u n' row (.inr hsaved)).2
    · have hholds' : (s.loc u).Holds n' row := by
        refine hholds.imp_left fun hset ↦ ?_
        have hset' : (s.loc u).pending.skus.set n new n' = some row := hset
        rwa [Table.set_of_ne hn'] at hset'
      exact ⟨Locks.acquire_of_held (h u n' row hholds').1, (h u n' row hholds').2⟩
  · rw [hother u hu] at hholds
    exact ⟨(Locks.acquire_eq_some_iff hwrites.free hu).2 (h u n' row hholds).1, (h u n' row hholds).2⟩

/-- A write outside any transaction: the row is committed at once. -/
theorem Backed.of_committed (hatomic : (s.loc t).inAtomic = false)
    (hnew : ∀ row, (s.loc t).Holds n row → R row new) : Backed R s' := by
  have hsession := hwrites.session
  rw [World.writeSku, if_neg (by simp [hatomic])] at hsession
  intro u n' row hholds
  rw [hwrites.skuLock, hwrites.skus, World.writeSku, if_neg (by simp [hatomic])]
  show s.world.skuLock n' = some u ∧ ∃ old, s.world.db.skus.set n new n' = some old ∧ R row old
  have hholds' : (s.loc u).Holds n' row := by
    rcases eq_or_ne u t with rfl | hu
    · rwa [hsession] at hholds
    · rwa [hother u hu] at hholds
  obtain ⟨hlock, old, hold, hR⟩ := h u n' row hholds'
  refine ⟨hlock, ?_⟩
  by_cases hn' : n' = n
  · subst hn'
    have hu : u = t := by
      by_contra hu
      exact h.ne_of_free hu hwrites.free hholds' rfl
    subst hu
    exact ⟨new, Table.set_self .., hnew row hholds'⟩
  · exact ⟨old, (Table.set_of_ne hn').trans hold, hR⟩

end Write

/-- **One move.** What others hold stays backed; the mover owes the relation for what it writes. -/
theorem Backed.next (h : Backed R s) (hn : (site ι).next s m = some s')
    (hpending : ∀ t c n new l, m = .step t → (s.prog t).next? = some c →
      WritesRow t s.world s'.world (s.loc t) l c n new → (s.loc t).inAtomic = true →
        ∃ old, s.world.db.skus n = some old ∧ R new old)
    (hcommitted : ∀ t c n new l, m = .step t → (s.prog t).next? = some c →
      WritesRow t s.world s'.world (s.loc t) l c n new → (s.loc t).inAtomic = false →
        ∀ row, (s.loc t).Holds n row → R row new) : Backed R s' := by
  have hother : ∀ u, u ≠ m.process → s'.loc u = s.loc u := fun u hu ↦ ((site ι).next_other hn hu).2
  cases m with
  | kill t =>
    refine h.of_ends hother ⟨?_, ?_, .inl ?_⟩
    · obtain ⟨-, rfl⟩ := (site ι).next_kill_cases hn
      exact State.put_loc_self ..
    · rw [next_kill_world hn]
      rfl
    · rw [next_kill_world hn]
      rfl
  | step t =>
    obtain ⟨c, r, w', l', p, hc, hx, rfl⟩ := (site ι).next_step_exec hn
    have hself : (s.put t w' l' p).loc t = l' := State.put_loc_self ..
    rw [← hself] at hx
    obtain hkeeps | ⟨-, hends⟩ | ⟨n, new, hwrites⟩ := exec_rows_cases hx
    · exact h.of_keeps hother hkeeps
    · exact h.of_ends hother hends
    · cases hatomic : (s.loc t).inAtomic with
      | true => exact h.of_pending hother hwrites hatomic (hpending t c n new _ rfl hc hwrites hatomic)
      | false =>
        exact h.of_committed hother hwrites hatomic (hcommitted t c n new _ rfl hc hwrites hatomic)

end Step

end DailyFresh
