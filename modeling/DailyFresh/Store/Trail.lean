import DailyFresh.Store.Table
import Mathlib.Algebra.BigOperators.Group.List.Basic
import Mathlib.Algebra.Order.Ring.Int

/-!
# The trail of an optimistic transaction

An optimistic transaction reads rows without locking them and validates what it read when it writes:
a compare-and-set that locks the row. `Trail key ok base es pending` says that the entries `es`,
in this order, took the transaction from no writes to the pending writes `pending` over the committed
table `base`: each entry `e` found a row `old` under its key — its own earlier write, if there is
one — and left a row `new` with `ok e fresh old new`, where `fresh` says that the transaction had not
written that key before.

What makes the optimistic scheme work is that a trail can be moved to another base
(`Trail.congr_base`): only the rows under its own keys matter, and those are locked. So the trail of a
running transaction goes on describing it while others commit, and when it commits in turn its trail
describes a run of its entries alone on the table of that moment.

* `Trail.pending_isSome_iff`: the pending rows are exactly those the entries name;
* `Trail.refine`: what holds of all rows at the start, and is handed on by the entries, may be used to
  strengthen what an entry did;
* `Trail.measure_overlay`: a quantity of rows that each entry changes by a fixed amount changes, row
  by row, by the sum of the amounts of the entries under its key.
-/

namespace Store

open Table

variable {K R E : Type} [DecidableEq K] {key : E → K} {ok : E → Prop → R → R → Prop}

/-- The entries `es` lead from no writes to the pending writes over the committed table. -/
inductive Trail (key : E → K) (ok : E → Prop → R → R → Prop) (base : Table K R) :
    List E → Table K R → Prop where
  /-- No entry, no write. -/
  | nil : Trail key ok base [] empty
  /-- One more entry. -/
  | snoc {es : List E} {pending : Table K R} {e : E} {old new : R} :
      Trail key ok base es pending → overlay pending base (key e) = some old →
      ok e (key e ∉ es.map key) old new → Trail key ok base (es ++ [e]) (pending.set (key e) new)

namespace Trail

variable {base base' : Table K R} {es : List E} {pending : Table K R}

/-- Without entries nothing is pending. -/
theorem eq_empty (h : Trail key ok base [] pending) : pending = empty := by
  generalize hes : ([] : List E) = es at h
  cases h with
  | nil => rfl
  | snoc => simp at hes

/-- What the last entry did. -/
theorem snoc_cases {e : E} (h : Trail key ok base (es ++ [e]) pending) :
    ∃ pending₀ old new, Trail key ok base es pending₀ ∧ overlay pending₀ base (key e) = some old ∧
      ok e (key e ∉ es.map key) old new ∧ pending = pending₀.set (key e) new := by
  generalize hes : es ++ [e] = es' at h
  cases h with
  | nil => simp at hes
  | snoc htrail hold hstep =>
    obtain ⟨rfl, he⟩ := List.append_inj' hes rfl
    obtain rfl := List.singleton_inj.1 he
    exact ⟨_, _, _, htrail, hold, hstep, rfl⟩

/-- The pending rows are those the entries name. -/
theorem pending_isSome_iff (h : Trail key ok base es pending) (k : K) :
    (pending k).isSome = true ↔ k ∈ es.map key := by
  induction h with
  | nil => simp
  | @snoc es pending e old new _ _ _ ih =>
    rw [List.map_append, List.mem_append]
    by_cases hk : k = key e
    · subst hk
      simp
    · rw [set_of_ne hk, ih]
      simp [hk]

theorem pending_eq_none (h : Trail key ok base es pending) {k : K} (hk : k ∉ es.map key) :
    pending k = none :=
  Option.not_isSome_iff_eq_none.1 fun hs ↦ hk ((h.pending_isSome_iff k).1 hs)

/-- Every entry did what `ok` says to some row. -/
theorem forall_entry (h : Trail key ok base es pending) :
    ∀ e ∈ es, ∃ fresh old new, ok e fresh old new := by
  induction h with
  | nil => exact fun e he ↦ by cases he
  | @snoc es pending e old new _ _ hstep ih =>
    intro e' he'
    rcases List.mem_append.1 he' with he' | he'
    · exact ih e' he'
    · obtain rfl := List.mem_singleton.1 he'
      exact ⟨_, old, new, hstep⟩

/-- When no key is named twice, every entry found the row of the table, and what it left is what the
overlay shows. -/
theorem entry_of_nodup (h : Trail key ok base es pending) (hnodup : (es.map key).Nodup) :
    ∀ e ∈ es, ∃ fresh old new, fresh ∧ base (key e) = some old ∧
      overlay pending base (key e) = some new ∧ ok e fresh old new := by
  induction h with
  | nil => exact fun e he ↦ by cases he
  | @snoc es pending e old new htrail hold hstep ih =>
    rw [List.map_append, List.nodup_append] at hnodup
    obtain ⟨hnodup, -, hdisjoint⟩ := hnodup
    have hfresh : key e ∉ es.map key :=
      fun hmem ↦ hdisjoint _ hmem _ (List.mem_singleton_self _) rfl
    intro e' he'
    rcases List.mem_append.1 he' with he' | he'
    · obtain ⟨fresh, old', new', hf, hold', hnew', hok⟩ := ih hnodup e' he'
      have hne : key e' ≠ key e := fun heq ↦ hfresh (heq ▸ List.mem_map_of_mem he')
      exact ⟨fresh, old', new', hf, hold', by rw [overlay_set, set_of_ne hne, hnew'], hok⟩
    · obtain rfl := List.mem_singleton.1 he'
      rw [overlay_of_none (htrail.pending_eq_none hfresh)] at hold
      exact ⟨_, old, new, hfresh, hold, overlay_of_some (set_self ..), hstep⟩

/-- **A trail only looks at the rows its entries name**, so it can be moved to any table that agrees
there. -/
theorem congr_base (h : Trail key ok base es pending)
    (hbase : ∀ k ∈ es.map key, base' k = base k) : Trail key ok base' es pending := by
  induction h with
  | nil => exact .nil
  | @snoc es pending e old new _ hold hstep ih =>
    rw [List.map_append] at hbase
    refine .snoc (ih fun k hk ↦ hbase k (List.mem_append_left _ hk)) ?_ hstep
    rw [overlay_apply, hbase (key e) (List.mem_append_right _ (by simp)), ← overlay_apply, hold]

/-- Strengthening along the trail: if the rows of `base` satisfy `J`, and every entry that finds a
row with `J` leaves one with `J` and did `ok'`, then the trail is an `ok'` trail, and the rows of the
overlay satisfy `J`. -/
theorem refine {J : K → R → Prop} (h : Trail key ok base es pending)
    (ok' : E → Prop → R → R → Prop)
    (hbase : ∀ k r, base k = some r → J k r)
    (hok : ∀ e fresh old new, J (key e) old → ok e fresh old new →
      ok' e fresh old new ∧ J (key e) new) :
    Trail key ok' base es pending ∧ ∀ k r, overlay pending base k = some r → J k r := by
  induction h with
  | nil => exact ⟨.nil, hbase⟩
  | @snoc es pending e old new _ hold hstep ih =>
    obtain ⟨htrail, hJ⟩ := ih
    obtain ⟨hstep', hnew⟩ := hok e _ old new (hJ _ _ hold) hstep
    refine ⟨.snoc htrail hold hstep', fun k r hr ↦ ?_⟩
    rw [overlay_set] at hr
    by_cases hk : k = key e
    · subst hk
      rw [set_self] at hr
      exact Option.some.inj hr ▸ hnew
    · rw [set_of_ne hk] at hr
      exact hJ k r hr

/-- **Bookkeeping along a trail.** If every entry `e` changes the quantity `f` of the row it writes
by `g e`, then each row of the overlay comes from a row of the table, with `f` changed by the sum of
`g` over the entries under its key. -/
theorem measure_overlay {f : R → ℤ} {g : E → ℤ} (h : Trail key ok base es pending)
    (hok : ∀ e fresh old new, ok e fresh old new → f new = f old + g e) (k : K) :
    ∀ r, overlay pending base k = some r →
      ∃ r₀, base k = some r₀ ∧ f r = f r₀ + ((es.filter fun e ↦ key e = k).map g).sum := by
  induction h with
  | nil => exact fun r hr ↦ ⟨r, hr, by simp⟩
  | @snoc es pending e old new _ hold hstep ih =>
    intro r hr
    rw [overlay_set] at hr
    by_cases hk : k = key e
    · subst hk
      rw [set_self] at hr
      obtain ⟨r₀, hr₀, hsum⟩ := ih old hold
      refine ⟨r₀, hr₀, ?_⟩
      rw [← Option.some.inj hr, hok e _ old new hstep, hsum, List.filter_append]
      simp [add_assoc]
    · rw [set_of_ne hk] at hr
      obtain ⟨r₀, hr₀, hsum⟩ := ih r hr
      refine ⟨r₀, hr₀, ?_⟩
      rw [hsum, List.filter_append]
      simp [Ne.symm hk]

end Trail

end Store
