import DailyFresh.Concurrent.Effect

/-!
# Checkout is safe

`safe_commit` proves, for any discipline, that `OrderCommitView.post` keeps the contract at every
command, whatever other requests do in between; it is the only proof in this development that follows
the view's text under interleaving.

The assertion that carries it is `Working`: the transaction is sound, its product writes are a trail
of the picks taken so far, the picked rows and the order's key are locked by it, its pending lines are
the picks' lines, and its log says which items were taken and how many updates matched. Nothing in it
depends on a row that another request could change, which is why it is stable.

The result of the request is `CheckoutOutcome`: with `res` 5 its order stands in the tables with exactly
the lines of its receipt, with any other `res` it has not touched the cart.
-/

namespace DailyFresh

open Python Store Interleave

variable {ι : Type} [DecidableEq ι] {request : ι → Request} {D : Discipline request} {t : ι}
  {addrs : Table ℕ Address} {α β : Type}

/-! ### Rules for commands -/

section Rules

variable {Q : β → World ι → Session → Prop} {A : World ι → Session → Prop} {w : World ι} {l : Session}

/-- A command under an assertion that excludes a broken transaction. -/
theorem safe_ask (hstable : (contract D).Stable t A)
    (hsound : ∀ w l, A w l → l.needsRollback = false) {c : Cmd} {f : c.Resp → Program Services β}
    (hA : A w l)
    (h : ∀ w l r v l', (contract D).inv w → A w l → run t w l c = some (r, v, l') →
      (contract D).Guar t w (v.record t c r) ∧
        Safe (site ι) (contract D) t Q (f r) (v.record t c r) l') :
    Safe (site ι) (contract D) t Q (ask c >>= f) w l := by
  refine Safe.call hstable hA fun w l r w' l' hi hA hx ↦ ?_
  obtain ⟨v, hrun, rfl⟩ := (exec_eq_some_iff (hsound w l hA)).1 hx
  exact h w l r v l' hi hA hrun

/-- A command that only reads. -/
theorem safe_read (hstable : (contract D).Stable t A)
    (hsound : ∀ w l, A w l → l.needsRollback = false) {c : Cmd} {f : c.Resp → Program Services β}
    (answer : World ι → Session → c.Resp) (hA : A w l)
    (hrun : ∀ w l, run t w l c = some (answer w l, w, l))
    (hplain : ∀ w l, Event.Plain w ⟨t, c, answer w l⟩)
    (h : ∀ w l, (contract D).inv w → A w l →
      Safe (site ι) (contract D) t Q (f (answer w l)) (w.record t c (answer w l)) l) :
    Safe (site ι) (contract D) t Q (ask c >>= f) w l := by
  refine safe_ask hstable hsound hA fun w l r v l' hi hA hr ↦ ?_
  rw [hrun] at hr
  cases hr
  exact ⟨guar_unseen hi (.refl t w) (hplain w l), h w l hi hA⟩

/-- Sequencing, with the postcondition of the first program. -/
theorem safe_bind {P : α → World ι → Session → Prop} {p : Program Services α}
    {f : α → Program Services β} (hi : (contract D).inv w)
    (hp : Safe (site ι) (contract D) t P p w l)
    (hf : ∀ a w l, (contract D).inv w → P a w l → Safe (site ι) (contract D) t Q (f a) w l) :
    Safe (site ι) (contract D) t Q (p >>= f) w l :=
  Safe.bind hi (hp.mono fun a w l _ hP hi ↦ hf a w l hi hP)

end Rules

/-! ### What holds during a checkout -/

/-- The transaction has a savepoint without writes, and has not touched a cart. -/
structure Started (t : ι) (addrs : Table ℕ Address) (w : World ι) (l : Session) : Prop where
  inAtomic : l.inAtomic = true
  addrs : addrs.Sub w.db.address
  saved : l.saved = .empty
  noHdel : NoHdel (w.log t)

/-- The transaction is sound, has no writes, and has not touched a cart. -/
structure Undone (t : ι) (w : World ι) (l : Session) : Prop where
  inAtomic : l.inAtomic = true
  sound : l.needsRollback = false
  pending : l.pending = .empty
  noHdel : NoHdel (w.log t)

/-- The loop has taken `picks` and recorded lines for `lined`; `results` are the numbers of rows its
updates have matched. -/
structure Working (D : Discipline request) (t : ι) (addrs : Table ℕ Address) (orderId : Str)
    (picks lined : List Pick) (results : List ℕ) (w : World ι) (l : Session) : Prop extends Started t addrs w l where
  sound : l.needsRollback = false
  trail : Trail Pick.sku (PickOk (D.pick t)) w.db.skus picks l.pending.skus
  locked : ∀ p ∈ picks, w.skuLock p.sku = some t
  orders : ∃ row, l.pending.orders = Table.empty.set orderId row
  orderLock : w.orderLock orderId = some t
  absent : w.db.orders orderId = none
  lines : lined.map (fun p ↦ (p.line orderId).row?) = l.pending.lines.map some
  fit : AllFit (w.log t)
  results : updateResults (w.log t) = results
  taken : takenItems (w.log t) = picks.map fun p ↦ (p.raw, p.count)

theorem Started.stable : (contract D).Stable t (Started t addrs) := by
  intro w l w' h hr _
  exact ⟨h.inAtomic, h.addrs.trans hr.addrs, h.saved, hr.log.symm ▸ h.noHdel⟩

theorem Undone.stable : (contract D).Stable t (Undone t) := by
  intro w l w' h hr _
  exact ⟨h.inAtomic, h.sound, h.pending, hr.log.symm ▸ h.noHdel⟩

section Working

variable {orderId : Str} {picks lined : List Pick} {results : List ℕ} {w : World ι} {l : Session}

/-- The rows that the trail names are locked, so the trail goes with the table. -/
theorem trail_rely {ok : Pick → Prop → GoodsSKU → GoodsSKU → Prop} {pending : Table ℕ GoodsSKU}
    {w' : World ι} (htrail : Trail Pick.sku ok w.db.skus picks pending)
    (hlocked : ∀ p ∈ picks, w.skuLock p.sku = some t) (hr : Rely t w w') :
    Trail Pick.sku ok w'.db.skus picks pending := by
  refine htrail.congr_base fun n hn ↦ ?_
  obtain ⟨p, hp, rfl⟩ := List.mem_map.1 hn
  exact hr.skus _ (hlocked p hp)

theorem Working.stable : (contract D).Stable t (Working D t addrs orderId picks lined results) := by
  intro w l w' h hr hi
  exact
    { toStarted := Started.stable _ _ _ h.toStarted hr hi
      sound := h.sound
      trail := trail_rely h.trail h.locked hr
      locked := fun p hp ↦ hr.skuLock _ (h.locked p hp)
      orders := h.orders
      orderLock := hr.orderLock _ h.orderLock
      absent := (hr.orders _ h.orderLock).trans h.absent
      lines := h.lines
      fit := hr.log.symm ▸ h.fit
      results := hr.log.symm ▸ h.results
      taken := hr.log.symm ▸ h.taken }

theorem Started.record (h : Started t addrs w l) (c : Cmd) (r : c.Resp)
    (hhdel : ∀ user fields, c ≠ .hdel user fields) : Started t addrs (w.record t c r) l :=
  ⟨h.inAtomic, h.addrs, h.saved, by rw [World.log_record_self]; exact noHdel_cons_iff.2 ⟨hhdel, h.noHdel⟩⟩

/-- A command that takes no item only goes down in the log. -/
theorem Working.logged (h : Working D t addrs orderId picks lined results w l) {c : Cmd} {r : c.Resp}
    {results' : List ℕ} (hhdel : ∀ user fields, c ≠ .hdel user fields)
    (hfit : ∀ order, c = .orderSave order → order.row? ≠ none)
    (hresults : updateResults (⟨t, c, r⟩ :: w.log t) = results')
    (htaken : takenItems (⟨t, c, r⟩ :: w.log t) = takenItems (w.log t)) :
    Working D t addrs orderId picks lined results' (w.record t c r) l where
  toStarted := h.toStarted.record c r hhdel
  sound := h.sound
  trail := h.trail
  locked := h.locked
  orders := h.orders
  orderLock := h.orderLock
  absent := h.absent
  lines := h.lines
  fit := by rw [World.log_record_self]; exact allFit_cons_iff.2 ⟨hfit, h.fit⟩
  results := by rw [World.log_record_self, hresults]
  taken := by rw [World.log_record_self, htaken, h.taken]

/-- A command that is not an update leaves the working state as it is. -/
theorem Working.record (h : Working D t addrs orderId picks lined results w l) {c : Cmd} {r : c.Resp}
    (hmatched : (⟨t, c, r⟩ : Event ι).matched = none)
    (hhdel : ∀ user fields, c ≠ .hdel user fields)
    (hfit : ∀ order, c = .orderSave order → order.row? ≠ none) :
    Working D t addrs orderId picks lined results (w.record t c r) l := by
  refine h.logged hhdel hfit ?_ (takenItems_cons_of_none hmatched _)
  rw [updateResults_cons_of_none hmatched, h.results]

/-- An update that matched nothing goes down in the results. -/
theorem Working.record_lost (h : Working D t addrs orderId picks lined results w l) {id : Str}
    {a b c : ℤ} : Working D t addrs orderId picks lined (0 :: results)
      (w.record t (.skuUpdate id a b c) (.ok 0)) l := by
  refine h.logged (fun _ _ ↦ by simp) (fun _ ↦ by simp) ?_ (takenItems_cons_of_lost rfl _)
  rw [updateResults_cons_of_matched rfl, h.results]

/-- A matched update adds its pick to the trail; the pick's line is still missing. -/
theorem Working.taken_pick (h : Working D t addrs orderId picks picks results w l) {p : Pick}
    {a b c : ℤ} {old new : GoodsSKU} (hold : w.skus l p.sku = some old)
    (hok : PickOk (D.pick t) p (p.sku ∉ picks.map Pick.sku) old new)
    (hcount : (w.log t).findSome? Event.counted = some p.count) :
    Working D t addrs orderId (picks ++ [p]) picks (1 :: results)
      ((w.writeSku t l p.sku new).1.record t (.skuUpdate p.raw a b c) (.ok 1))
      (w.writeSku t l p.sku new).2 := by
  have hevent : (⟨t, .skuUpdate p.raw a b c, .ok 1⟩ : Event ι).matched = some (p.raw, 1) := rfl
  rw [World.writeSku, if_pos h.inAtomic]
  exact
    { inAtomic := h.inAtomic
      addrs := h.addrs
      saved := h.saved
      noHdel := by
        rw [World.log_record_self]
        exact noHdel_cons_iff.2 ⟨fun _ _ ↦ by simp, h.noHdel⟩
      sound := h.sound
      trail := .snoc h.trail hold hok
      locked := by
        intro q hq
        rcases List.mem_append.1 hq with hq | hq
        · exact Locks.acquire_of_held (h.locked q hq)
        · obtain rfl := List.mem_singleton.1 hq
          exact Locks.acquire_self ..
      orders := h.orders
      orderLock := h.orderLock
      absent := h.absent
      lines := h.lines
      fit := by
        rw [World.log_record_self]
        exact h.fit.cons fun _ ↦ by simp
      results := by
        rw [World.log_record_self, updateResults_cons_of_matched hevent]
        exact congrArg _ h.results
      taken := by
        rw [World.log_record_self, List.map_append]
        exact (takenItems_cons_of_taken hevent hcount).trans (congrArg (· ++ _) h.taken) }

/-- Recording the line of the last pick. -/
theorem Working.record_line {p : Pick} {row : OrderGoods}
    (h : Working D t addrs orderId (picks ++ [p]) picks results w l)
    (hrow : (p.line orderId).row? = some row) :
    Working D t addrs orderId (picks ++ [p]) (picks ++ [p]) results
      ((w.writeLine l row).1.record t (.lineCreate (p.line orderId)) (.ok ()))
      (w.writeLine l row).2 := by
  have hline : (⟨t, .lineCreate (p.line orderId), .ok ()⟩ : Event ι).matched = none := rfl
  rw [World.writeLine, if_pos h.inAtomic]
  have hw := h.record hline (fun _ _ ↦ by simp) fun _ ↦ by simp
  exact
    { toStarted := ⟨hw.inAtomic, hw.addrs, hw.saved, hw.noHdel⟩
      sound := hw.sound
      trail := hw.trail
      locked := hw.locked
      orders := hw.orders
      orderLock := hw.orderLock
      absent := hw.absent
      lines := by
        rw [List.map_append, List.map_append, List.map_singleton, List.map_singleton, hrow, hw.lines]
      fit := hw.fit
      results := hw.results
      taken := hw.taken }

end Working

/-! ### One item -/

/-- A reply other than success, with the transaction undone. -/
def Refused (t : ι) (r : Reply) (w : World ι) (l : Session) : Prop :=
  Undone t w l ∧ ∃ n, r.res = some n ∧ n ≠ 5

/-- What a block of the view leaves when it does not run on: a refusal, or an exception. -/
def Stopped (t : ι) (addrs : Table ℕ Address) : Flow β → World ι → Session → Prop
  | .next _, _, _ => False
  | .reply r, w, l => Refused t r w l
  | .raised, w, l => Started t addrs w l

theorem safe_raised {Q : Flow β → World ι → Session → Prop}
    (hQ : ∀ w l, Started t addrs w l → Q .raised w l) {w : World ι} {l : Session} (h : Started t addrs w l) :
    Safe (site ι) (contract D) t Q (pure .raised) w l :=
  Safe.ret Started.stable h fun w l _ ↦ hQ w l

/-- Rolling back to the savepoint undoes the transaction; it raises if the transaction is broken. -/
theorem safe_savepointRollback {Q : β → World ι → Session → Prop}
    {f : Except DbError Unit → Program Services β} {w : World ι} {l : Session} (hstarted : Started t addrs w l)
    (hok : ∀ w l, (contract D).inv w → Undone t w l →
      Safe (site ι) (contract D) t Q (f (.ok ())) w l)
    (herror : ∀ e w l, (contract D).inv w → Started t addrs w l →
      Safe (site ι) (contract D) t Q (f (.error e)) w l) :
    Safe (site ι) (contract D) t Q (ask .savepointRollback >>= f) w l := by
  refine Safe.call Started.stable hstarted fun w l r w' l' hi h hx ↦ ?_
  have hguar : (contract D).Guar t w (w.record t .savepointRollback r) :=
    guar_unseen hi (.refl t w) (by simp)
  have hrecord := h.record .savepointRollback r fun _ _ ↦ by simp
  obtain ⟨e, rfl, rfl, rfl⟩ | ⟨rfl, hsound, rfl, rfl⟩ := exec_savepointRollback_cases hx
  · exact ⟨hguar, herror e _ _ hguar.inv hrecord⟩
  · exact ⟨hguar, hok _ _ hguar.inv ⟨h.inAtomic, hsound, h.saved, hrecord.noHdel⟩⟩

theorem safe_rollbackAndReply {Q : Flow β → World ι → Session → Prop}
    (hQ : ∀ a w l, Stopped t addrs a w l → Q a w l) {n : ℤ} (hn : n ≠ 5) (text : String) {w : World ι}
    {l : Session} (h : Started t addrs w l) :
    Safe (site ι) (contract D) t Q (OrderCommitView.rollbackAndReply n text) w l := by
  refine safe_savepointRollback h (fun w l _ hu ↦ ?_) fun e w l _ hs ↦ ?_
  · exact Safe.ret Undone.stable hu fun w l _ hu ↦ hQ _ w l ⟨hu, n, rfl, hn⟩
  · exact safe_raised (fun w l hs ↦ hQ .raised w l hs) hs

/-- What the loop knows of its next attempts from the results of the last ones. -/
def Retrying (results : List ℕ) : List ℕ → Prop
  | [] => LostTwice results
  | [_] => results.head? = some 0
  | _ :: _ :: _ => True

theorem Retrying.lost {results : List ℕ} {i : ℕ} {rest : List ℕ}
    (h : Retrying results (i :: rest)) : Retrying (0 :: results) rest := by
  match rest, h with
  | [], h =>
    obtain ⟨results, rfl⟩ := List.head?_eq_some_iff.1 h
    exact lostTwice_zero_zero results
  | [_], _ => rfl
  | _ :: _ :: _, _ => trivial

/-- The result of the loop over the attempts at the item `skuId`. -/
def Attempted (D : Discipline request) (t : ι) (addrs : Table ℕ Address) (orderId skuId : Str)
    (picks : List Pick) (results : List ℕ) : Flow OrderCommitView.Totals → World ι → Session → Prop
  | .next tot, w, l => ∃ picks' results', Working D t addrs orderId picks' picks' results' w l ∧
      tot = totals picks' ∧ (LostTwice results → LostTwice results') ∧
      ((∃ p, p.raw = skuId ∧ picks' = picks ++ [p]) ∨ (picks' = picks ∧ LostTwice results'))
  | .reply r, w, l => Refused t r w l
  | .raised, w, l => Started t addrs w l

theorem Attempted.of_stopped {orderId skuId : Str} {picks : List Pick} {results : List ℕ}
    {a : Flow OrderCommitView.Totals} {w : World ι} {l : Session} (h : Stopped t addrs a w l) :
    Attempted D t addrs orderId skuId picks results a w l := by
  cases a with
  | next tot => exact h.elim
  | reply r => exact h
  | raised => exact h

/-- What is known of the product row `sku` that was read under the id `skuId`. -/
structure Seen (D : Discipline request) (t : ι) (skuId : Str) (n : ℕ) (sku : GoodsSKU)
    (picks : List Pick) (w : World ι) (l : Session) : Prop where
  int_raw : int skuId = some (n : ℤ)
  fresh : n ∉ picks.map Pick.sku → D.seen t n sku w
  own : n ∈ picks.map Pick.sku → l.pending.skus n = some sku

theorem Seen.stable {skuId : Str} {n : ℕ} {sku : GoodsSKU} {picks : List Pick} :
    (contract D).Stable t (Seen D t skuId n sku picks) := by
  intro w l w' h hr _
  exact ⟨h.int_raw, fun hn ↦ D.seen_mono (h.fresh hn) hr.history, h.own⟩

/-- A row read in the working state is either a committed one or the transaction's own. -/
theorem Working.seen {orderId skuId : Str} {picks lined : List Pick} {results : List ℕ}
    {w : World ι} {l : Session} (h : Working D t addrs orderId picks lined results w l)
    (hi : (contract D).inv w) {n : ℕ} {sku : GoodsSKU}
    (hfind : findRow (w.skus l) skuId = .ok (n, sku)) : Seen D t skuId n sku picks w l := by
  obtain ⟨hint, hrow⟩ := findRow_eq_ok_iff.1 hfind
  refine ⟨hint, fun hn ↦ ?_, fun hn ↦ ?_⟩
  · -- no pick of this product yet: the transaction has no row of its own
    rw [World.skus, Table.overlay_of_none (h.trail.pending_eq_none hn)] at hrow
    exact D.seen_of hi.2 hrow
  · obtain ⟨row, hpending⟩ := Option.isSome_iff_exists.1 ((h.trail.pending_isSome_iff n).2 hn)
    rw [World.skus, Table.overlay_of_some hpending] at hrow
    rw [hpending, hrow]

/-- What is known of the pick `p` once the cart has answered its count. -/
structure Counted (D : Discipline request) (t : ι) (picks : List Pick) (p : Pick) (w : World ι)
    (l : Session) : Prop where
  int_raw : int p.raw = some (p.sku : ℤ)
  pick : D.pick t (p.sku ∉ picks.map Pick.sku) p
  own : p.sku ∈ picks.map Pick.sku → l.pending.skus p.sku = some p.read
  count : (w.log t).findSome? Event.counted = some p.count

theorem Counted.stable {picks : List Pick} {p : Pick} :
    (contract D).Stable t (Counted D t picks p) := by
  intro w l w' h hr _
  exact ⟨h.int_raw, h.pick, h.own, hr.log.symm ▸ h.count⟩

theorem stable_and {A B : World ι → Session → Prop} (hA : (contract D).Stable t A)
    (hB : (contract D).Stable t B) : (contract D).Stable t fun w l ↦ A w l ∧ B w l :=
  fun w l w' h hr hi ↦ ⟨hA w l w' h.1 hr hi, hB w l w' h.2 hr hi⟩

section TryItem

variable {now : LocalTime} {req : HttpRequest} {c : Checkout} {orderId : Str} {picks : List Pick}
  {results : List ℕ} {p : Pick} {w : World ι} {l : Session}

/-- The row that a matched update found and the row it left fit the pick. -/
theorem Counted.ok (h : Counted D t picks p w l) {n : ℕ} {old new : GoodsSKU}
    (hfind : findRow (w.skus l) p.raw = .ok (n, old)) (hle : p.count ≤ p.read.stock.val)
    (hstock : old.stock.val = p.read.stock.val)
    (hupdate : old.update? (p.read.stock.val - p.count) (p.read.sales.val + p.count) = some new) :
    n = p.sku ∧ w.skus l p.sku = some old ∧
      PickOk (D.pick t) p (p.sku ∉ picks.map Pick.sku) old new := by
  obtain ⟨hint, hrow⟩ := findRow_eq_ok_iff.1 hfind
  have hn : n = p.sku := by
    have hcast := hint.symm.trans h.int_raw
    exact_mod_cast Option.some.inj hcast
  subst hn
  obtain ⟨hnewStock, hnewSales, hprice⟩ := GoodsSKU.update?_eq_some_iff.1 hupdate
  refine ⟨rfl, hrow, ?_⟩
  exact
    { pick := h.pick
      int_raw := h.int_raw
      own := by
        intro hnot
        have hpending := h.own (not_not.1 hnot)
        rw [World.skus, Table.overlay_of_some hpending] at hrow
        exact (Option.some.inj hrow).symm
      stock_eq := Subtype.ext hstock
      count_le := hle
      stock := hnewStock
      sales := hnewSales
      price := hprice }

/-- Recording the line after a matched update. -/
theorem safe_recordItem (h : Working D t addrs orderId (picks ++ [p]) picks (1 :: results) w l) :
    Safe (site ι) (contract D) t (Attempted D t addrs orderId p.raw picks results)
      (OrderCommitView.recordItem orderId p.sku p.read p.count (totals picks)) w l := by
  refine safe_ask Working.stable (fun _ _ h ↦ h.sound) h fun w l r v l' hi h hrun ↦ ?_
  obtain ⟨e, rfl, -, rfl, rfl⟩ | ⟨row, rfl, hrow, hv⟩ := run_lineCreate_cases hrun
  · -- the count does not fit its column: the line breaks the transaction
    refine ⟨guar_unseen hi (.refl t _) (by simp), ?_⟩
    have hs : Started t addrs v l.fail := ⟨h.inAtomic, h.addrs, h.saved, h.noHdel⟩
    exact safe_raised (fun _ _ ↦ Attempted.of_stopped (a := .raised))
      (hs.record (.lineCreate _) _ fun _ _ ↦ by simp)
  · have hnext := h.record_line hrow
    rw [← hv] at hnext
    have hvw : v = w := by
      rw [World.writeLine, if_pos h.inAtomic] at hv
      exact (Prod.mk.inj hv).1
    subst hvw
    refine ⟨guar_unseen hi (.refl t v) (by simp), ?_⟩
    refine Safe.ret Working.stable hnext fun w l _ hw ↦ ?_
    refine ⟨picks ++ [p], 1 :: results, hw, (totals_append picks p).symm, fun hl ↦ hl.cons 1, ?_⟩
    exact .inl ⟨p, rfl, rfl⟩

/-- **The loop over the attempts at one item.** -/
theorem safe_tryItem (hreq : request t = .commit now req) (hasks : req.Asks c) (skuId : Str)
    (tries : List ℕ) (h : Working D t addrs orderId picks picks results w l)
    (hretry : Retrying results tries) :
    Safe (site ι) (contract D) t (Attempted D t addrs orderId skuId picks results)
      (OrderCommitView.tryItem c.user orderId skuId (totals picks) tries) w l := by
  induction tries generalizing results w l with
  | nil =>
    refine Safe.ret Working.stable h fun w l _ hw ↦ ?_
    exact ⟨picks, results, hw, rfl, id, .inr ⟨rfl, hretry⟩⟩
  | cons i rest ih =>
    -- the row is read, then the count of the cart
    refine safe_read Working.stable (fun _ _ h ↦ h.sound) (c := .skuGet skuId)
      (fun w l ↦ findRow (w.skus l) skuId) h (fun _ _ ↦ rfl) (fun _ _ ↦ by simp) ?_
    intro w l hi h
    have hworking := h.record (c := .skuGet skuId) (r := findRow (w.skus l) skuId) rfl
      (fun _ _ ↦ by simp) fun _ ↦ by simp
    rcases hfind : findRow (w.skus l) skuId with e | ⟨n, sku⟩
    · rw [hfind] at hworking
      exact safe_rollbackAndReply (fun _ _ _ ↦ Attempted.of_stopped) (by decide) _
        hworking.toStarted
    rw [hfind] at hworking
    have hseen := h.seen hi hfind
    have hseen' : Seen D t skuId n sku picks (w.record t (.skuGet skuId) (.ok (n, sku))) l :=
      ⟨hseen.int_raw, fun hn ↦ D.seen_mono (hseen.fresh hn) (List.suffix_cons _ _), hseen.own⟩
    refine safe_read (stable_and Working.stable Seen.stable) (fun _ _ h ↦ h.1.sound)
      (c := .hget c.user (str n)) (fun w _ ↦ (w.carts c.user).lookup (str n)) ⟨hworking, hseen'⟩
      (fun _ _ ↦ rfl) (fun _ _ ↦ by simp) ?_
    rintro w l hi ⟨h, hseen⟩
    have hworking := h.record (c := .hget c.user (str n)) (r := (w.carts c.user).lookup (str n)) rfl
      (fun _ _ ↦ by simp) fun _ ↦ by simp
    rcases hcount : (w.carts c.user).lookup (str n) with - | count
    · rw [hcount] at hworking
      exact safe_raised (fun _ _ ↦ Attempted.of_stopped (a := .raised)) hworking.toStarted
    rw [hcount] at hworking
    -- both reads are known: this is the pick, if the update matches
    let p : Pick := { raw := skuId, sku := n, read := sku, count }
    have hcounted : Counted D t picks p (w.record t (.hget c.user (str n)) (some count)) l := by
      refine ⟨hseen.int_raw, D.pick_of hi.2 hreq hasks hseen.fresh h.noHdel hcount, hseen.own, ?_⟩
      rw [World.log_record_self]
      rfl
    show Safe _ _ _ _ (if count > sku.stock.val then _ else _) _ _
    split
    · exact safe_rollbackAndReply (fun _ _ _ ↦ Attempted.of_stopped) (by decide) _
        hworking.toStarted
    rename_i hle
    refine safe_ask (stable_and Working.stable Counted.stable) (fun _ _ h ↦ h.1.sound)
      ⟨hworking, hcounted⟩ ?_
    rintro w l r v l' hi ⟨h, hcounted⟩ hrun
    obtain ⟨rfl, rfl, rfl, -⟩ | ⟨e, rfl, rfl, hl⟩ | ⟨m, old, new, rfl, hfind, hfree, hstock, hnew, hv⟩ :=
      run_skuUpdate_cases hrun
    · -- nothing matched: the next attempt, if there is one
      refine ⟨guar_unseen hi (.refl t v) (by simp), ?_⟩
      show Safe _ _ _ _ (if i = 2 then _ else _) _ _
      split
      · exact safe_rollbackAndReply (fun _ _ _ ↦ Attempted.of_stopped) (by decide) _
          h.record_lost.toStarted
      · refine (ih h.record_lost hretry.lost).mono fun a w l _ ha ↦ ?_
        cases a with
        | next tot =>
          obtain ⟨picks', results', hw, htot, hlost, hpick⟩ := ha
          exact ⟨picks', results', hw, htot, fun hl ↦ hlost (hl.cons 0), hpick⟩
        | reply r => exact ha
        | raised => exact ha
    · refine ⟨guar_unseen hi (.refl t v) (by simp), ?_⟩
      have hs : Started t addrs v l' := by
        rcases hl with rfl | rfl
        · exact h.toStarted
        · exact ⟨h.inAtomic, h.addrs, h.saved, h.noHdel⟩
      exact safe_raised (fun _ _ ↦ Attempted.of_stopped (a := .raised))
        (hs.record (.skuUpdate ..) _ fun _ _ ↦ by simp)
    · obtain ⟨rfl, hrow, hok⟩ := hcounted.ok hfind (Int.not_lt.1 hle) hstock hnew
      have hnext := h.taken_pick (a := sku.stock.val) (b := sku.stock.val - count)
        (c := sku.sales.val + count) hrow hok hcounted.count
      have hunseen := Unseen.writeSku h.inAtomic hfree new
      rw [← hv] at hnext hunseen
      refine ⟨guar_unseen hi hunseen (by simp), ?_⟩
      exact safe_recordItem hnext

/-! ### The whole loop -/

/-- The picks cover the ids up to items that were given up. -/
structure Covers (picks : List Pick) (results : List ℕ) (ids : List Str) : Prop where
  sublist : (picks.map Pick.raw).Sublist ids
  all : ¬ LostTwice results → picks.map Pick.raw = ids

/-- The result of the loop over the items `ids`. -/
def Looped (D : Discipline request) (t : ι) (addrs : Table ℕ Address) (orderId : Str)
    (ids : List Str) : Flow OrderCommitView.Totals → World ι → Session → Prop
  | .next tot, w, l => ∃ picks results, Working D t addrs orderId picks picks results w l ∧
      tot = totals picks ∧ Covers picks results ids
  | .reply r, w, l => Refused t r w l
  | .raised, w, l => Started t addrs w l

/-- **The loop over the items.** -/
theorem safe_takeItems (hreq : request t = .commit now req) (hasks : req.Asks c) (rest : List Str)
    {done : List Str} (hi : (contract D).inv w)
    (h : Working D t addrs orderId picks picks results w l) (hcovers : Covers picks results done) :
    Safe (site ι) (contract D) t (Looped D t addrs orderId (done ++ rest))
      (OrderCommitView.takeItems c.user orderId rest (totals picks)) w l := by
  induction rest generalizing done picks results w l with
  | nil =>
    refine Safe.ret Working.stable h fun w l _ hw ↦ ?_
    exact ⟨picks, results, hw, rfl, by rwa [List.append_nil]⟩
  | cons skuId rest ih =>
    refine safe_bind hi (safe_tryItem hreq hasks skuId (List.range 2) h trivial) ?_
    intro a w l hi ha
    cases a with
    | next tot =>
      obtain ⟨picks', results', hw, rfl, hlost, hpick⟩ := ha
      have hcovers' : Covers picks' results' (done ++ [skuId]) := by
        obtain ⟨p, rfl, rfl⟩ | ⟨rfl, hgiven⟩ := hpick
        · refine ⟨?_, fun hl ↦ ?_⟩
          · rw [List.map_append]
            exact hcovers.sublist.append (.refl _)
          · rw [List.map_append, hcovers.all fun hl' ↦ hl (hlost hl')]
            rfl
        · exact ⟨hcovers.sublist.trans (List.sublist_append_left ..), fun hl ↦ absurd hgiven hl⟩
      have hrest := ih hi hw hcovers'
      rwa [List.append_assoc] at hrest
    | reply r => exact Safe.ret Undone.stable ha.1 fun w l _ hu ↦ ⟨hu, ha.2⟩
    | raised => exact Safe.ret Started.stable ha fun w l _ hs ↦ hs

end TryItem

/-! ### The order -/

/-- The transaction has begun and done nothing yet. -/
structure Opened (t : ι) (addrs : Table ℕ Address) (w : World ι) (l : Session) : Prop
    extends Started t addrs w l where
  sound : l.needsRollback = false
  pending : l.pending = .empty
  fit : AllFit (w.log t)
  results : updateResults (w.log t) = []
  taken : takenItems (w.log t) = []

/-- Everything of the receipt `r` is written, and waits for the commit. -/
structure Ready (D : Discipline request) (t : ι) (r : Receipt)
    (w : World ι) (l : Session) : Prop where
  inAtomic : l.inAtomic = true
  sound : l.needsRollback = false
  addr : ∃ a, findRow w.db.address r.checkout.addrId = .ok (r.addr, a)
  trail : Trail Pick.sku (PickOk (D.pick t)) w.db.skus r.picks l.pending.skus
  locked : ∀ p ∈ r.picks, w.skuLock p.sku = some t
  orderLock : w.orderLock r.orderId = some t
  absent : w.db.orders r.orderId = none
  orders : l.pending.orders = Table.empty.set r.orderId r.row
  lines : l.pending.lines = r.lines
  request : request t = .commit r.now r.request
  asks : r.request.Asks r.checkout
  fits : (r.checkout.order r.now r.addr r.picks).row? = some r.row
  pickLines : r.picks.map (fun p ↦ (p.line r.orderId).row?) = r.lines.map some
  taken : takenItems (w.log t) = r.picks.map fun p ↦ (p.raw, p.count)
  covers : Covers r.picks (updateResults (w.log t)) r.checkout.ids

theorem Opened.stable : (contract D).Stable t (Opened t addrs) := by
  intro w l w' h hr hi
  exact
    { toStarted := Started.stable _ _ _ h.toStarted hr hi
      sound := h.sound
      pending := h.pending
      fit := hr.log.symm ▸ h.fit
      results := hr.log.symm ▸ h.results
      taken := hr.log.symm ▸ h.taken }

theorem Ready.stable {r : Receipt} : (contract D).Stable t (Ready D t r) := by
  intro w l w' h hr _
  exact
    { inAtomic := h.inAtomic
      sound := h.sound
      addr := h.addr.imp fun _ ha ↦ findRow_mono hr.addrs ha
      trail := trail_rely h.trail h.locked hr
      locked := fun p hp ↦ hr.skuLock _ (h.locked p hp)
      orderLock := hr.orderLock _ h.orderLock
      absent := (hr.orders _ h.orderLock).trans h.absent
      orders := h.orders
      lines := h.lines
      request := h.request
      asks := h.asks
      fits := h.fits
      pickLines := h.pickLines
      taken := hr.log.symm ▸ h.taken
      covers := hr.log.symm ▸ h.covers }

theorem stable_log {A : World ι → Session → Prop} (hA : (contract D).Stable t A)
    (P : List (Event ι) → Prop) : (contract D).Stable t fun w l ↦ A w l ∧ P (w.log t) :=
  fun w l w' h hr hi ↦ ⟨hA w l w' h.1 hr hi, hr.log.symm ▸ h.2⟩

theorem Opened.record {w : World ι} {l : Session} (h : Opened t addrs w l) {c : Cmd} {r : c.Resp}
    (hmatched : (⟨t, c, r⟩ : Event ι).matched = none)
    (hhdel : ∀ user fields, c ≠ .hdel user fields)
    (hfit : ∀ order, c = .orderSave order → order.row? ≠ none) :
    Opened t addrs (w.record t c r) l where
  toStarted := h.toStarted.record c r hhdel
  sound := h.sound
  pending := h.pending
  fit := by rw [World.log_record_self]; exact allFit_cons_iff.2 ⟨hfit, h.fit⟩
  results := by rw [World.log_record_self, updateResults_cons_of_none hmatched, h.results]
  taken := by rw [World.log_record_self, takenItems_cons_of_none hmatched, h.taken]

theorem Opened.undone {w : World ι} {l : Session} (h : Opened t addrs w l) : Undone t w l :=
  ⟨h.inAtomic, h.sound, h.pending, h.noHdel⟩

section PlaceOrder

variable {now : LocalTime} {req : HttpRequest} {c : Checkout} {addr : ℕ} {w : World ι} {l : Session}

/-- The result of the `try:` block. -/
def Ordered (D : Discipline request) (t : ι) (addrs : Table ℕ Address) (c : Checkout) :
    Flow Unit → World ι → Session → Prop
  | .next (), w, l => ∃ r, r.checkout = c ∧ Ready D t r w l ∧
      NoHdel (w.log t) ∧ AllFit (w.log t)
  | .reply r, w, l => Refused t r w l
  | .raised, w, l => Started t addrs w l

/-- Creating the order opens the working state, without picks. -/
theorem Opened.working (h : Opened t addrs w l) {order : OrderObject} (row : OrderInfo)
    (habsent : w.orders l order.orderId = none) :
    Working D t addrs order.orderId [] [] []
      ((w.writeOrder t l order.orderId row).1.record t (.orderCreate order) (.ok ()))
      (w.writeOrder t l order.orderId row).2 := by
  have hcreate : (⟨t, .orderCreate order, .ok ()⟩ : Event ι).matched = none := rfl
  have hrecord := h.record hcreate (fun _ _ ↦ by simp) fun _ ↦ by simp
  rw [World.writeOrder, if_pos h.inAtomic]
  rw [World.orders, h.pending] at habsent
  exact
    { inAtomic := h.inAtomic
      addrs := h.addrs
      saved := h.saved
      noHdel := hrecord.noHdel
      sound := h.sound
      trail := by rw [h.pending]; exact .nil
      locked := fun p hp ↦ by cases hp
      orders := ⟨row, by rw [h.pending]; rfl⟩
      orderLock := Locks.acquire_self ..
      absent := habsent
      lines := by rw [h.pending]; rfl
      fit := hrecord.fit
      results := hrecord.results
      taken := hrecord.taken }

/-- Saving the totals makes the order ready. -/
theorem safe_saveTotals (hreq : request t = .commit now req) (hasks : req.Asks c) {a : Address}
    (haddr : findRow addrs c.addrId = .ok (addr, a)) {picks : List Pick} {results : List ℕ}
    (h : Working D t addrs (OrderCommitView.newOrder now c.user addr c.payMethod).orderId picks picks
      results w l) (hcovers : Covers picks results c.ids) :
    Safe (site ι) (contract D) t (Ordered D t addrs c)
      (OrderCommitView.saveTotals (OrderCommitView.newOrder now c.user addr c.payMethod)
        (totals picks)) w l := by
  refine safe_ask Working.stable (fun _ _ h ↦ h.sound) (c := .orderSave (c.order now addr picks)) h
    fun w l r v l' hi h hrun ↦ ?_
  obtain ⟨e, rfl, -, rfl, rfl⟩ | ⟨row, rfl, hrow, hfree, hv⟩ := run_orderSave_cases hrun
  · -- the totals do not fit their columns
    refine ⟨guar_unseen hi (.refl t _) fun _ ↦ h.noHdel, ?_⟩
    have hs : Started t addrs v l.fail := ⟨h.inAtomic, h.addrs, h.saved, h.noHdel⟩
    exact Safe.ret Started.stable (hs.record (.orderSave _) _ fun _ _ ↦ by simp) fun _ _ _ hs ↦ hs
  · have hunseen := Unseen.writeOrder h.inAtomic hfree row
    rw [← hv] at hunseen
    refine ⟨guar_unseen hi hunseen fun _ ↦ h.noHdel, ?_⟩
    let r : Receipt :=
      { now, request := req, checkout := c, addr, picks, row, lines := l.pending.lines }
    have hsave : (⟨t, .orderSave (c.order now addr picks), .ok ()⟩ : Event ι).matched = none := rfl
    have hrecord := h.record hsave (fun _ _ ↦ by simp) fun order horder ↦ by
      obtain rfl := Cmd.orderSave.inj horder
      exact hrow ▸ Option.some_ne_none row
    have hready : Ready D t r (v.record t (.orderSave (c.order now addr picks)) (.ok ())) l' := by
      rw [World.writeOrder, if_pos h.inAtomic] at hv
      obtain ⟨rfl, rfl⟩ := Prod.mk.inj hv
      exact
        { inAtomic := h.inAtomic
          sound := h.sound
          addr := ⟨a, findRow_mono h.addrs haddr⟩
          trail := h.trail
          locked := h.locked
          orderLock := Locks.acquire_self ..
          absent := h.absent
          orders := by
            obtain ⟨row₀, hrow₀⟩ := h.orders
            show l.pending.orders.set _ row = _
            rw [hrow₀]
            exact Table.set_set ..
          lines := rfl
          request := hreq
          asks := hasks
          fits := hrow
          pickLines := h.lines
          taken := hrecord.taken
          covers := by
            have hcovers' := hcovers
            rw [← hrecord.results] at hcovers'
            exact hcovers' }
    have hlog : (v.record t (.orderSave (c.order now addr picks)) (.ok ())).log t =
        (w.record t (.orderSave (c.order now addr picks)) (.ok ())).log t := by
      rw [World.log_record_self, World.log_record_self, World.log_eq_of_history hunseen.history]
    exact Safe.ret (stable_log Ready.stable fun log ↦ NoHdel log ∧ AllFit log)
      ⟨hready, by rw [hlog]; exact ⟨hrecord.noHdel, hrecord.fit⟩⟩ fun w l _ h ↦ ⟨r, rfl, h⟩

/-- **The `try:` block.** -/
theorem safe_placeOrder (hreq : request t = .commit now req) (hasks : req.Asks c) {a : Address}
    (haddr : findRow addrs c.addrId = .ok (addr, a)) (h : Opened t addrs w l) :
    Safe (site ι) (contract D) t (Ordered D t addrs c)
      (OrderCommitView.placeOrder (OrderCommitView.newOrder now c.user addr c.payMethod) c.ids)
      w l := by
  refine safe_ask Opened.stable (fun _ _ h ↦ h.sound) h fun w l r v l' hi h hrun ↦ ?_
  obtain ⟨e, rfl, rfl, rfl⟩ | ⟨row, rfl, -, hfree, habsent, hv⟩ := run_orderCreate_cases hrun
  · -- the order id is taken, or does not fit
    refine ⟨guar_unseen hi (.refl t v) (by simp), ?_⟩
    have hs : Started t addrs v l.fail := ⟨h.inAtomic, h.addrs, h.saved, h.noHdel⟩
    exact Safe.ret Started.stable (hs.record (.orderCreate _) _ fun _ _ ↦ by simp) fun _ _ _ hs ↦ hs
  · have hworking := h.working (D := D) row habsent
    have hunseen := Unseen.writeOrder h.inAtomic hfree row
    rw [← hv] at hworking hunseen
    have hguar : (contract D).Guar t w (v.record t
        (.orderCreate (OrderCommitView.newOrder now c.user addr c.payMethod)) (.ok ())) :=
      guar_unseen hi hunseen (by simp)
    refine ⟨hguar, safe_bind hguar.inv (safe_takeItems hreq hasks c.ids hguar.inv hworking
      ⟨.refl _, fun _ ↦ rfl⟩) ?_⟩
    intro flow w l hi hflow
    cases flow with
    | next tot =>
      obtain ⟨picks, results, hw, rfl, hcovers⟩ := hflow
      exact safe_saveTotals hreq hasks haddr hw hcovers
    | reply r => exact Safe.ret Undone.stable hflow.1 fun w l _ hu ↦ ⟨hu, hflow.2⟩
    | raised => exact Safe.ret Started.stable hflow fun w l _ hs ↦ hs

end PlaceOrder

/-! ### The commit -/

/-- **A settled checkout**: its order stands in the committed tables with the lines of its receipt,
and no others. -/
structure Settled (request : ι → Request) (t : ι) (r : Receipt) (w : World ι) : Prop where
  of : r.Of request t (w.log t)
  order : ∃ row, w.db.orders r.orderId = some row ∧ row.core = r.row.core
  lines : w.db.linesOf r.orderId = r.lines
  commit : (⟨t, .commit, ()⟩ : Event ι) ∈ w.log t

theorem Settled.stable {r : Receipt} :
    (contract D).Stable t fun w (_ : Session) ↦ Settled request t r w := by
  intro w l w' h hr _
  obtain ⟨row, hrow, hcore⟩ := h.order
  obtain ⟨row', hrow', hcore'⟩ := hr.core _ row hrow
  exact ⟨hr.log.symm ▸ h.of, ⟨row', hrow', hcore'.trans hcore⟩,
    (hr.linesOf _ row hrow).trans h.lines, hr.log.symm ▸ h.commit⟩

section Commit

variable {r : Receipt} {w : World ι} {l : Session}

/-- The lines of a receipt are lines of its order, without comments. -/
theorem Receipt.line_eq {orderId : Str} {picks : List Pick} {lines : List OrderGoods}
    (h : picks.map (fun p ↦ (p.line orderId).row?) = lines.map some) {line : OrderGoods}
    (hline : line ∈ lines) : line.order = orderId ∧ line.core = line := by
  have hmem : some line ∈ lines.map some := List.mem_map_of_mem hline
  rw [← h] at hmem
  obtain ⟨p, -, hp⟩ := List.mem_map.1 hmem
  obtain ⟨horder, -, -, -, hcomment⟩ := LineObject.row?_eq_some_iff.1 hp
  refine ⟨horder, ?_⟩
  have hempty : (.empty : CharField 156) = line.comment := Subtype.ext hcomment.symm
  rw [OrderGoods.core, hempty]

theorem Ready.receiptOf (h : Ready D t r w l)
    (hhdel : (⟨t, .hdel r.checkout.user r.checkout.ids, ()⟩ : Event ι) ∈ w.log t) :
    r.Of request t (w.log t) :=
  { request := h.request
    asks := h.asks
    row := h.fits
    lines := h.pickLines
    denotes := by
      intro p hp
      obtain ⟨_, _, _, hok⟩ := h.trail.forall_entry p hp
      exact hok.int_raw
    taken := h.taken
    sublist := h.covers.sublist
    all := h.covers.all
    hdel := hhdel }

/-- The commit of a ready order places it. -/
theorem Ready.placed (h : Ready D t r w l)
    (hhdel : (⟨t, .hdel r.checkout.user r.checkout.ids, ()⟩ : Event ι) ∈ w.log t) :
    Placed request (D.pick t) t r w (((w.install l.pending).release t).record t .commit ()) where
  of := h.receiptOf hhdel
  addr := h.addr
  skus := ⟨l.pending.skus, h.trail, rfl⟩
  absent := h.absent
  orders := by
    show Table.overlay l.pending.orders w.db.orders = _
    rw [h.orders, Table.overlay_set, Table.overlay_empty]
  lines := congrArg (w.db.lines ++ ·) h.lines
  addrs := rfl
  carts := rfl
  history := rfl
  histories := rfl

theorem Placed.linesOf_self {pick : Prop → Pick → Prop} {w' : World ι}
    (h : Placed request pick t r w w') (hlinked : w.db.Linked) :
    w'.db.linesOf r.orderId = r.lines := by
  have hlines : ∀ line ∈ r.lines, line.order = r.orderId ∧ line.core = line :=
    fun line ↦ Receipt.line_eq h.of.lines
  have hcore : r.lines.map OrderGoods.core = r.lines := by
    conv_rhs => rw [← List.map_id r.lines]
    exact List.map_congr_left fun line hline ↦ (hlines line hline).2
  have hold : w.db.linesOf r.orderId = [] := Db.linesOf_eq_nil hlinked h.absent
  rw [Db.linesOf, Db.coreLines] at hold ⊢
  rw [h.lines, List.map_append, List.filter_append, hold, hcore, List.nil_append]
  exact List.filter_eq_self.2 fun line hline ↦ by simpa using (hlines line hline).1

theorem Placed.linesOf_of_ne {pick : Prop → Pick → Prop} {w' : World ι}
    (h : Placed request pick t r w w') {k : Str} (hk : k ≠ r.orderId) :
    w'.db.linesOf k = w.db.linesOf k := by
  have hnil : ((r.lines.map OrderGoods.core).filter fun line ↦ line.order = k) = [] := by
    refine List.filter_eq_nil_iff.2 fun line hline ↦ ?_
    obtain ⟨line, hmem, rfl⟩ := List.mem_map.1 hline
    have horder : line.core.order = r.orderId := (Receipt.line_eq h.of.lines hmem).1
    simpa [horder] using Ne.symm hk
  rw [Db.linesOf, Db.coreLines, h.lines, List.map_append, List.filter_append, hnil, List.append_nil]
  rfl

/-- Nobody else has locked what the commit writes. -/
theorem Ready.considerate (h : Ready D t r w l)
    (hplaced : Placed request (D.pick t) t r w
      (((w.install l.pending).release t).record t .commit ())) :
    Considerate t w (((w.install l.pending).release t).record t .commit ()) where
  history := List.suffix_cons _ _
  log u hu := World.log_record_of_ne _ hu _ _
  skuLock := (Unseen.release t w).skuLock
  orderLock := (Unseen.release t w).orderLock
  skus u hu n hn := by
    have hnot : n ∉ r.picks.map Pick.sku := by
      intro hmem
      obtain ⟨p, hp, rfl⟩ := List.mem_map.1 hmem
      exact hu (Option.some.inj (hn.symm.trans (h.locked p hp)))
    exact Table.overlay_of_none (h.trail.pending_eq_none hnot)
  orders u hu k hk := by
    have hne : k ≠ r.orderId := by
      rintro rfl
      exact hu (Option.some.inj (hk.symm.trans h.orderLock))
    rw [hplaced.orders, Table.set_of_ne hne]
  addrs := .refl _
  core k row hrow := by
    have hne : k ≠ r.orderId := by
      rintro rfl
      rw [h.absent] at hrow
      cases hrow
    exact ⟨row, by rw [hplaced.orders, Table.set_of_ne hne, hrow], rfl⟩
  lines := by
    rw [Db.coreLines, Db.coreLines, hplaced.lines, List.map_append]
    exact List.prefix_append ..
  linesOf k row hrow := by
    refine hplaced.linesOf_of_ne ?_
    rintro rfl
    rw [h.absent] at hrow
    cases hrow
  recorded hhistory := absurd hhistory (List.cons_ne_self _ _)

theorem Placed.settled {pick : Prop → Pick → Prop} {w' : World ι} (h : Placed request pick t r w w')
    (hlinked : w.db.Linked) : Settled request t r w' := by
  have hlog : w'.log t = ⟨t, .commit, ()⟩ :: w.log t := by
    rw [World.log, h.history]
    simp [World.log]
  have hof := h.of
  exact
    { of :=
        { request := hof.request
          asks := hof.asks
          row := hof.row
          lines := hof.lines
          denotes := hof.denotes
          taken := hlog ▸ hof.taken
          sublist := hof.sublist
          all := hlog ▸ hof.all
          hdel := hlog ▸ List.mem_cons_of_mem _ hof.hdel }
      order := ⟨r.row, by rw [h.orders, Table.set_self], rfl⟩
      lines := h.linesOf_self hlinked
      commit := hlog ▸ List.mem_cons_self }

end Commit

/-! ### The whole request -/

/-- The result of the view's body. -/
def Answered (D : Discipline request) (t : ι) :
    Option Reply → World ι → Session → Prop
  | some reply, w, l =>
    (reply.res = some 5 ∧ ∃ r, Ready D t r w l ∧
      (⟨t, .hdel r.checkout.user r.checkout.ids, ()⟩ : Event ι) ∈ w.log t) ∨
    (Undone t w l ∧ ∃ n, reply.res = some n ∧ n ≠ 5)
  | none, _, _ => True

theorem safe_answer {reply : Reply} {n : ℤ} (hres : reply.res = some n) (hn : n ≠ 5) {w : World ι}
    {l : Session} (h : Undone t w l) :
    Safe (site ι) (contract D) t (Answered D t) (pure (some reply)) w l :=
  Safe.ret Undone.stable h fun _ _ _ hu ↦ .inr ⟨hu, n, hres, hn⟩

theorem safe_escape {w : World ι} {l : Session} :
    Safe (site ι) (contract D) t (Answered D t) (pure none) w l :=
  fun _ _ _ ↦ trivial

section Request

variable {now : LocalTime} {req : HttpRequest} {w : World ι} {l : Session}

/-- After the `try:` block has run through, the cart is cleared. -/
theorem safe_clearCart {c : Checkout} {r : Receipt} (hr : r.checkout = c)
    (h : Ready D t r w l ∧ NoHdel (w.log t) ∧ AllFit (w.log t)) :
    Safe (site ι) (contract D) t (Answered D t)
      (do
        let _ ← ask (.hdel c.user c.ids)
        pure (some (.message 5 "添加成功"))) w l := by
  subst hr
  refine safe_ask (stable_log Ready.stable fun log ↦ NoHdel log ∧ AllFit log)
    (fun _ _ h ↦ h.1.sound) h ?_
  rintro w l _ v l' hi ⟨h, -, hfit⟩ hrun
  cases hrun
  have hlog : ((w.setCart r.checkout.user ((w.carts r.checkout.user).hdel r.checkout.ids)).record t
      (.hdel r.checkout.user r.checkout.ids) ()).log t = ⟨t, .hdel r.checkout.user r.checkout.ids, ()⟩ ::
        w.log t := World.log_record_self ..
  have hunseen := (Unseen.refl t w).record_considerate (.hdel r.checkout.user r.checkout.ids) ()
  refine ⟨guar hi ⟨hunseen.history, hunseen.log, hunseen.skuLock, hunseen.orderLock, hunseen.skus,
    hunseen.orders, .refl _, hunseen.core, hunseen.lines, hunseen.linesOf, hunseen.recorded⟩ ?_, ?_⟩
  · exact .hdel _ _ (.inl ⟨_, _, _, h.request, h.asks, rfl, rfl, hfit⟩) rfl rfl rfl rfl
  · have hready : Ready D t r ((w.setCart r.checkout.user
        ((w.carts r.checkout.user).hdel r.checkout.ids)).record t
          (.hdel r.checkout.user r.checkout.ids) ()) l :=
      { h with
        taken := by rw [hlog, takenItems_cons_of_none rfl]; exact h.taken
        covers := by rw [hlog, updateResults_cons_of_none rfl]; exact h.covers }
    refine Safe.ret (stable_log Ready.stable
      (fun log ↦ (⟨t, .hdel r.checkout.user r.checkout.ids, ()⟩ : Event ι) ∈ log)) ⟨hready, ?_⟩
      fun w l _ h ↦ .inl ⟨rfl, r, h⟩
    rw [hlog]
    exact List.mem_cons_self

/-- **The view's body.** -/
theorem safe_body (hreq : request t = .commit now req)
    (h : Opened t addrs w l) :
    Safe (site ι) (contract D) t (Answered D t) (OrderCommitView.body id now req) w l := by
  rw [OrderCommitView.body]
  rcases huser : req.user with - | user
  · exact safe_answer rfl (by decide) h.undone
  rcases haddr : nonempty (req.POST "addr_id".toList) with - | addrId
  · exact safe_answer rfl (by decide) h.undone
  rcases hpay : nonempty (req.POST "pay_method".toList) with - | payMethod
  · exact safe_answer rfl (by decide) h.undone
  rcases hskus : nonempty (req.POST "sku_ids".toList) with - | skuIds
  · exact safe_answer rfl (by decide) h.undone
  rcases hlookup : PAY_METHODS.lookup payMethod with - | method
  · simp only [hlookup]
    exact safe_answer rfl (by decide) h.undone
  let c : Checkout := { user, addrId, payMethod := method, skuIds }
  have hasks : req.Asks c := ⟨huser, haddr, ⟨payMethod, hpay, hlookup⟩, hskus⟩
  simp only [hlookup]
  refine safe_read Opened.stable (fun _ _ h ↦ h.sound) (c := .addressGet addrId)
    (fun w _ ↦ findRow w.db.address addrId) h (fun _ _ ↦ rfl) (fun _ _ ↦ by simp) ?_
  intro w l hi h
  -- from here on the checkout counts on the addresses of this moment
  have hnow : Opened t w.db.address w l := { h with addrs := .refl _ }
  have hopened := hnow.record (c := .addressGet addrId) (r := findRow w.db.address addrId) rfl
    (fun _ _ ↦ by simp) fun _ ↦ by simp
  rcases hfind : findRow w.db.address addrId with e | ⟨addr, a⟩
  · rw [hfind] at hopened
    cases e with
    | doesNotExist => exact safe_answer rfl (by decide) hopened.undone
    | _ => exact safe_escape
  rw [hfind] at hopened
  refine safe_ask Opened.stable (fun _ _ h ↦ h.sound) hopened fun v l _ v' l' hi h hrun ↦ ?_
  cases hrun
  have hguar : (contract D).Guar t v (v.record t .savepoint ()) :=
    guar_unseen hi (.refl t v) (by simp)
  have hsavepoint : Opened t w.db.address (v.record t .savepoint ()) { l with saved := l.pending } :=
    { h.record (c := .savepoint) (r := ()) rfl (fun _ _ ↦ by simp) fun _ ↦ by simp with
      saved := h.pending }
  have htry := safe_placeOrder (D := D) hreq hasks hfind hsavepoint
  refine ⟨hguar, safe_bind hguar.inv htry ?_⟩
  intro flow w l hi hflow
  cases flow with
  | raised =>
    refine safe_savepointRollback hflow (fun w l _ hu ↦ ?_) fun e w l _ _ ↦ ?_
    · exact safe_answer rfl (by decide) hu
    · exact safe_escape
  | reply reply =>
    obtain ⟨hundone, n, hres, hn⟩ := hflow
    exact safe_answer hres hn hundone
  | next u =>
    obtain ⟨r, hr, hready⟩ := hflow
    exact safe_clearCart hr hready

/-- What a reply of the view says: with `res` 5 its order is settled, with another `res` no cart was
touched. -/
structure CheckoutOutcome (request : ι → Request) (t : ι) (reply : Reply) (w : World ι) : Prop where
  settled : reply.res = some 5 → ∃ r, Settled request t r w
  failed : ∀ n, reply.res = some n → n ≠ 5 → NoHdel (w.log t)

/-- A request that has not started. -/
def Arrived (t : ι) (w : World ι) (l : Session) : Prop := l = .idle ∧ w.log t = []

theorem Arrived.stable : (contract D).Stable t (Arrived t) :=
  fun _ _ _ h hr _ ↦ ⟨h.1, hr.log.trans h.2⟩

theorem Arrived.opened (h : Arrived t w l) :
    Opened t w.db.address (w.record t .atomicEnter ()) { l with inAtomic := true } := by
  obtain ⟨rfl, hlog⟩ := h
  have hlog' : (w.record t .atomicEnter ()).log t = [⟨t, .atomicEnter, ()⟩] := by
    rw [World.log_record_self, hlog]
  exact
    { inAtomic := rfl
      addrs := .refl _
      saved := rfl
      noHdel := by
        rw [hlog']
        exact noHdel_cons_iff.2 ⟨fun _ _ ↦ by simp, noHdel_nil⟩
      sound := rfl
      pending := rfl
      fit := by
        rw [hlog']
        exact allFit_nil.cons fun _ ↦ by simp
      results := by rw [hlog']; rfl
      taken := by rw [hlog']; rfl }

/-- Leaving the transaction with a reply. -/
theorem safe_commitReply {reply : Reply} (h : Answered D t (some reply) w l) :
    Safe (site ι) (contract D) t (fun reply w _ ↦ CheckoutOutcome request t reply w)
      (do
        let _ ← ask .commit
        pure reply) w l := by
  obtain ⟨hres, r, hready⟩ | ⟨hundone, n, hres, hn⟩ := h
  · refine safe_ask (stable_log Ready.stable
      (fun log ↦ (⟨t, .hdel r.checkout.user r.checkout.ids, ()⟩ : Event ι) ∈ log))
      (fun _ _ h ↦ h.1.sound) hready ?_
    rintro w l _ v l' hi ⟨h, hhdel⟩ hrun
    rw [run, if_neg (by simp [h.sound])] at hrun
    cases hrun
    have hplaced := h.placed hhdel
    refine ⟨guar hi (h.considerate hplaced) (.placed r hplaced), ?_⟩
    refine Safe.ret Settled.stable (hplaced.settled hi.1) fun w l _ h ↦ ⟨fun _ ↦ ⟨r, h⟩, ?_⟩
    intro m hm hne
    exact absurd (Option.some.inj (hm.symm.trans hres)) hne
  · refine safe_ask Undone.stable (fun _ _ h ↦ h.sound) hundone ?_
    rintro w l _ v l' hi h hrun
    rw [run, if_neg (by simp [h.sound])] at hrun
    cases hrun
    have hinstall : w.install l.pending = w := by
      rw [h.pending, World.install]
      simp [Pending.empty]
    rw [hinstall]
    refine ⟨guar_unseen hi (.release t w) h.noHdel, ?_⟩
    have hstable : (contract D).Stable t fun w (_ : Session) ↦ NoHdel (w.log t) := by
      intro w _ w' h hr _
      show NoHdel (w'.log t)
      rwa [hr.log]
    refine Safe.ret hstable ?_ fun w l _ h ↦ ⟨fun h5 ↦ ?_, fun _ _ _ ↦ h⟩
    · rw [World.log_record_self]
      exact noHdel_cons_iff.2 ⟨fun _ _ ↦ by simp, h.noHdel⟩
    · exact absurd (Option.some.inj (hres.symm.trans h5)) hn

/-- **`OrderCommitView.post` keeps the contract**, and its reply says what it has done. -/
theorem safe_commit (hreq : request t = .commit now req) (h : Arrived t w l) :
    Safe (site ι) (contract D) t (fun reply w _ ↦ CheckoutOutcome request t reply w)
      (OrderCommitView.post now req) w l := by
  refine safe_ask Arrived.stable (fun _ _ h ↦ by rw [h.1]; rfl) h fun w l _ v l' hi h hrun ↦ ?_
  cases hrun
  have hguar : (contract D).Guar t w (w.record t .atomicEnter ()) :=
    guar_unseen hi (.refl t w) (by simp)
  refine ⟨hguar, safe_bind hguar.inv (safe_body hreq h.opened) ?_⟩
  intro answer w l _ hanswer
  cases answer with
  | some reply => exact safe_commitReply hanswer
  | none =>
    refine Safe.call (A := fun _ _ ↦ True) (fun _ _ _ _ _ _ ↦ trivial) trivial ?_
    rintro w l _ w' l' hi - hx
    have hexec : exec t w l .rollback = some ((), (w.release t).record t .rollback (), .idle) := by
      cases hbroken : l.needsRollback <;> simp [exec, Cmd.refusal, run, hbroken]
    cases hexec.symm.trans hx
    refine ⟨guar_unseen hi (.release t w) (by simp), ?_⟩
    exact fun _ _ _ ↦ ⟨fun h ↦ (by cases h), fun _ h ↦ (by cases h)⟩

end Request

end DailyFresh
