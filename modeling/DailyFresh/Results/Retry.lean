import DailyFresh.Results.Stock

/-!
# What success means under contention

The loop over the attempts at one item runs over `range(2)`, and its last attempt is meant to be the
one with `i == 2`. So an item whose second conditional update is lost as well falls out of the loop
without a line and without a reply, and the checkout goes on to `res` 5 (`success_without_line`).

What is true instead:

* `success_takes_everything`: in every run in which a checkout does not lose an update it repeats
  (`StockHeld`), its `res` 5 means that the order has one line for each position, with the count read
  for it; other requests — buyers, administrators, reviewers — may do what they like in between;
* in any run whatever, a reply with another `res` comes from a request none of whose moves has changed
  a row or a cart (`failed_checkout_untouched`).
-/

namespace DailyFresh

open Python Store Interleave

variable {ι : Type} [DecidableEq ι] {request : ι → Request} {db : Db} {carts : ℕ → Cart}
  {gateway : ℕ → Answer} {s : State Services ι (World ι) Session Reply} {t : ι} {now : LocalTime}
  {req : HttpRequest}

/-- The order id of a checkout. -/
def orderIdOf (now : LocalTime) (c : Checkout) : Str := now.strftime ++ str c.user

/-- The order of the checkout stands with exactly one line for each position of its `sku_ids`: the
line's product is the one that the id at that position denotes, its count is the count that the cart
had answered for it. -/
structure Whole (t : ι) (now : LocalTime) (c : Checkout) (w : World ι) : Prop where
  order : ∃ row, w.db.orders (orderIdOf now c) = some row ∧ row.user = c.user
  positions : (takenItems (w.log t)).map Prod.fst = c.ids
  lines : List.Forall₂ (fun x line ↦ int x.1 = some (line.sku : ℤ) ∧ line.count.val = x.2)
    (takenItems (w.log t)) (w.db.linesOf (orderIdOf now c))

/-- The stock of the product that a session sees under an id. -/
def visibleStock (w : World ι) (l : Session) (id : Str) : Option ℤ :=
  match findRow (w.skus l) id with
  | .ok (_, sku) => some sku.stock.val
  | .error _ => none

/-- The move does not lose an update for the second time: if the process is about to repeat a
conditional update that has matched no row, the row still has the stock that was read again. -/
def StockHeld (s : State Services ι (World ι) Session Reply) : Move ι → Prop
  | .kill _ => True
  | .step t =>
    match (s.prog t).next? with
    | some (.skuUpdate id orginStock _ _) =>
      (updateResults (s.world.log t)).head? = some 0 →
        visibleStock s.world (s.loc t) id = some orginStock
    | _ => True

instance (s : State Services ι (World ι) Session Reply) : DecidablePred (StockHeld s)
  | .kill _ => isTrue trivial
  | .step t => by
    show Decidable (match (s.prog t).next? with
      | some (.skuUpdate id orginStock _ _) => _
      | _ => True)
    rcases (s.prog t).next? with - | c
    · infer_instance
    · rcases c <;> infer_instance

/-! ### No item is given up -/

theorem lostTwice_cons_iff {n : ℕ} {results : List ℕ} :
    LostTwice (n :: results) ↔ n = 0 ∧ results.head? = some 0 ∨ LostTwice results := by
  rw [LostTwice, LostTwice, List.infix_cons_iff, List.cons_prefix_cons]
  refine or_congr_left (and_congr eq_comm ?_)
  rcases results with - | ⟨m, results⟩
  · simp
  · simp [eq_comm]

/-- An update that matches nothing has not found the stock it was told. -/
theorem exec_lost {w w' : World ι} {l l' : Session} {id : Str} {orginStock newStock newSales : ℤ}
    (h : exec t w l (.skuUpdate id orginStock newStock newSales) = some (.ok 0, w', l')) :
    visibleStock w l id ≠ some orginStock := by
  cases hbroken : l.needsRollback with
  | true =>
    rw [exec, hbroken] at h
    cases h
  | false =>
    obtain ⟨v, hrun, -⟩ := (exec_eq_some_iff hbroken).1 h
    obtain ⟨-, -, -, hne⟩ | ⟨e, he, -⟩ | ⟨m, old, new, he, -⟩ := run_skuUpdate_cases hrun
    · unfold visibleStock
      split
      · rename_i n sku hfind
        exact fun hstock ↦ hne n sku hfind (Option.some.inj hstock)
      · exact Option.some_ne_none _ |>.symm
    · cases he
    · cases he

/-- In a run in which the moves of `t` satisfy `StockHeld`, `t` never loses an item twice. -/
theorem not_lostTwice (hs : (site ι).Reach (fun s m ↦ m.process = t → StockHeld s m)
    (start db carts gateway request) s) : ¬ LostTwice (updateResults (s.world.log t)) := by
  refine hs.invariant (I := fun s ↦ ¬ LostTwice (updateResults (s.world.log t))) ?_ ?_
  · rintro ⟨pre, post, h⟩
    exact absurd h (by simp [start, World.initial, World.log, updateResults])
  · intro s m s' ih hheld hn
    cases m with
    | kill u =>
      rw [next_kill_world hn]
      exact ih
    | step u =>
      obtain ⟨c, r, l, hc, hx, hhistory⟩ := next_step_history hn
      by_cases htu : t = u
      · subst htu
        rw [World.log_cons_self hhistory]
        rcases hmatched : (⟨t, c, r⟩ : Event ι).matched with - | ⟨id, n⟩
        · rw [updateResults_cons_of_none hmatched]
          exact ih
        · rw [updateResults_cons_of_matched hmatched, lostTwice_cons_iff]
          rintro (⟨rfl, hhead⟩ | hlost)
          · -- the only command that reports a number of matched rows is the conditional update
            cases c with
            | skuUpdate id' a b d =>
              rcases r with e | n
              · cases hmatched
              · obtain ⟨rfl, rfl⟩ := Prod.mk.inj (Option.some.inj hmatched)
                have hstock := hheld rfl
                rw [StockHeld, hc] at hstock
                exact exec_lost hx (hstock hhead)
            | _ => cases hmatched
          · exact ih hlost
      · rw [World.log_cons_of_ne htu hhistory]
        exact ih

/-! ### Success -/

theorem forall₂_of_map_eq {α β : Type} {f : α → Option β} {l : List α} {l' : List β}
    (h : l.map f = l'.map some) : List.Forall₂ (fun a b ↦ f a = some b) l l' := by
  rw [← List.forall₂_eq_eq_eq, List.forall₂_map_left_iff, List.forall₂_map_right_iff] at h
  exact h

omit [DecidableEq ι] in
/-- The lines of a receipt are of the products and counts that its picks name. -/
theorem Receipt.Of.recorded {r : Receipt} {t : ι} {log : List (Event ι)} (h : r.Of request t log) :
    List.Forall₂ (fun p line ↦ int p.raw = some (line.sku : ℤ) ∧ line.count.val = p.count) r.picks
      r.lines := by
  refine ((List.forall₂_and_left _ _).2 ⟨h.denotes, forall₂_of_map_eq h.lines⟩).imp fun p line hp ↦ ?_
  obtain ⟨hdenotes, hline⟩ := hp
  obtain ⟨-, hsku, hcount, -, -⟩ := LineObject.row?_eq_some_iff.1 hline
  have hsku : line.sku = p.sku := hsku
  exact ⟨by rw [hdenotes, hsku], hcount⟩

omit [DecidableEq ι] in
/-- The lines of a receipt are of the products that its picks name. -/
theorem Receipt.Of.denoted {r : Receipt} {t : ι} {log : List (Event ι)} (h : r.Of request t log) :
    List.Forall₂ (fun id line ↦ int id = some (line.sku : ℤ)) (r.picks.map Pick.raw) r.lines := by
  rw [List.forall₂_map_left_iff]
  exact h.recorded.imp fun p line hp ↦ hp.1

/-- A settled checkout that has given up no item is whole. -/
theorem Settled.whole {r : Receipt} {w : World ι} (h : Settled request t r w)
    (hlost : ¬ LostTwice (updateResults (w.log t))) : Whole t r.now r.checkout w where
  order := by
    obtain ⟨row, hrow, hcore⟩ := h.order
    obtain ⟨-, hobject⟩ := OrderObject.row?_eq_some_iff.1 h.of.row
    have huser : r.row.user = r.checkout.user := congrArg OrderObject.user hobject
    have hcore' : row.core.user = r.row.core.user := congrArg OrderInfo.user hcore
    exact ⟨row, hrow, hcore'.trans huser⟩
  positions := by
    rw [h.of.taken, List.map_map]
    exact h.of.all hlost
  lines := by
    show List.Forall₂ _ _ (w.db.linesOf r.orderId)
    rw [h.of.taken, h.lines, List.forall₂_map_left_iff]
    exact h.of.recorded

/-! ### Failure -/

/-- A move of a checkout that changes a row or a cart leaves a `hdel` in its log. -/
theorem noHdel_untouched (hreq : request t = .commit now req) (hlinked : db.Linked)
    {s' : State Services ι (World ι) Session Reply} {m : Move ι}
    (hs : (site ι).Reach AnyMove (start db carts gateway request) s)
    (hn : (site ι).next s m = some s') (hm : m.process = t) (hlog : NoHdel (s'.world.log t)) :
    s'.world.db = s.world.db ∧ s'.world.carts = s.world.carts := by
  subst hm
  have heffect := (promise_of_reach (noDiscipline request) hlinked trivial hs hn).effect
  obtain h | ⟨c, -, -, -, -, hhistory⟩ | ⟨r, h⟩ := heffect.commit_cases hreq
  · exact ⟨h.db, h.carts⟩
  · rw [World.log_cons_self hhistory] at hlog
    exact absurd rfl ((noHdel_cons_iff.1 hlog).1 c.user c.ids)
  · rw [World.log_cons_self h.history] at hlog
    exact absurd rfl ((noHdel_cons_iff.1 hlog).2 _ h.of.hdel _ _)

/-- No move of `t` in the run changes a row or a cart. -/
def Untouched (t : ι) (ms : List (Move ι)) (s₀ : State Services ι (World ι) Session Reply) : Prop :=
  (site ι).AllMoves (fun s m s' ↦ m.process = t →
    s'.world.db = s.world.db ∧ s'.world.carts = s.world.carts) ms s₀

/-- A checkout that has not deleted from a cart by the end of a run has changed nothing in it. -/
theorem untouched_of_noHdel (hreq : request t = .commit now req) (hlinked : db.Linked)
    {ms : List (Move ι)} (hms : (site ι).perform (start db carts gateway request) ms = some s)
    (hlog : NoHdel (s.world.log t)) : Untouched t ms (start db carts gateway request) := by
  refine Machine.allMoves_of_perform (fun s m s' hs hnext hs' hm ↦ ?_) .refl hms
  exact noHdel_untouched hreq hlinked hs hnext hm
    (hlog.of_suffix (World.log_suffix (history_suffix hs')))

/-- **A checkout that replies with another `res` than 5 has changed nothing**, in any run. -/
theorem failed_checkout_untouched (hreq : request t = .commit now req) (hlinked : db.Linked)
    {ms : List (Move ι)} (hms : (site ι).perform (start db carts gateway request) ms = some s)
    {reply : Reply} (hreply : (s.prog t).result? = some reply) {n : ℤ} (hres : reply.res = some n)
    (hn : n ≠ 5) : Untouched t ms (start db carts gateway request) := by
  have hreach := (site ι).reach_of_perform hms
  have houtcome := outcome_of_reach (noDiscipline request) hlinked trivial hreach hreply
  rw [Outcome, hreq] at houtcome
  exact untouched_of_noHdel hreq hlinked hms (houtcome.failed n hres hn)

/-- What success is meant to mean for the checkout `t` at the end `s` of a run: with `res` 5 the whole
order was taken; if some item was given up the reply is `res` 7; and a reply other than 5 has changed
nothing. -/
structure Honest (t : ι) (now : LocalTime) (req : HttpRequest) (ms : List (Move ι))
    (s₀ s : State Services ι (World ι) Session Reply) (reply : Reply) : Prop where
  whole : reply.res = some 5 → ∃ c, req.Asks c ∧ Whole t now c s.world
  given_up : LostTwice (updateResults (s.world.log t)) → reply.res = some 7
  untouched : ∀ n, reply.res = some n → n ≠ 5 → Untouched t ms s₀

/-- **Success means the whole order was taken**, in every run in which the checkout does not lose an
update that it repeats. -/
theorem success_takes_everything (hreq : request t = .commit now req) (hlinked : db.Linked)
    {ms : List (Move ι)} (hms : (site ι).perform (start db carts gateway request) ms = some s)
    (hheld : (site ι).AllMoves (fun s m _ ↦ m.process = t → StockHeld s m) ms
      (start db carts gateway request))
    {reply : Reply} (hreply : (s.prog t).result? = some reply) :
    Honest t now req ms (start db carts gateway request) s reply := by
  have hreach := (site ι).reach_of_perform hms
  have hlost := not_lostTwice (Machine.reach_of_allMoves .refl hms hheld)
  have houtcome := outcome_of_reach (noDiscipline request) hlinked trivial hreach hreply
  rw [Outcome, hreq] at houtcome
  refine ⟨fun h5 ↦ ?_, fun h ↦ absurd h hlost, fun n hres hn ↦ ?_⟩
  · obtain ⟨r, hsettled⟩ := houtcome.settled h5
    have hrequest := hsettled.of.request
    rw [hreq] at hrequest
    cases hrequest
    exact ⟨r.checkout, hsettled.of.asks, hsettled.whole hlost⟩
  · exact failed_checkout_untouched hreq hlinked hms hreply hres hn

/-- The second buyer of `rush` loses one update and takes everything at the second attempt. -/
theorem success_takes_everything_rush : ∃ s reply, (site (Fin 2)).perform
      (start smallShop (fun _ ↦ cartOf [("1", 2)]) silent rush)
      (.replicate 6 (.step 0) ++ .replicate 6 (.step 1) ++ .replicate 5 (.step 0) ++
        .replicate 8 (.step 1)) = some s ∧
    reply.res = some 5 ∧
    Honest 1 (clock 0)
      { user := some 8,
        POST := formData [("addr_id", "1"), ("pay_method", "3"), ("sku_ids", "1")] }
      (.replicate 6 (.step 0) ++ .replicate 6 (.step 1) ++ .replicate 5 (.step 0) ++
        .replicate 8 (.step 1)) (start smallShop (fun _ ↦ cartOf [("1", 2)]) silent rush) s reply := by
  have hrun : ((site (Fin 2)).perform (start smallShop (fun _ ↦ cartOf [("1", 2)]) silent rush)
      (.replicate 6 (.step 0) ++ .replicate 6 (.step 1) ++ .replicate 5 (.step 0) ++
        .replicate 8 (.step 1))).map (fun s ↦ (s.prog 1).result?) =
          some (some (.message 5 "添加成功")) := by rfl
  obtain ⟨s, hs, hreply⟩ := Option.map_eq_some_iff.1 hrun
  have hreq : rush 1 = checkoutOf 8 0 "1" := rfl
  refine ⟨s, _, hs, ?_, success_takes_everything hreq smallShop_linked hs (by decide) hreply⟩
  rfl

/-- Three buyers of one product: the first one loses both of its attempts. -/
def crowd : Fin 3 → Request := ![checkoutOf 7 0 "1", checkoutOf 8 0 "1", checkoutOf 9 0 "1"]

/-- **Success without a line.** Another buyer commits between each read of the first buyer and the
update that follows it. -/
theorem success_without_line : ∃ s reply, (site (Fin 3)).perform
      (start smallShop (fun _ ↦ cartOf [("1", 1)]) silent crowd)
      (.replicate 6 (.step 0) ++ .replicate 11 (.step 1) ++ .replicate 3 (.step 0) ++
        .replicate 11 (.step 2) ++ .replicate 4 (.step 0)) = some s ∧
    (s.prog 0).result? = some reply ∧ reply.res = some 5 ∧
    s.world.db.linesOf "202004210930007".toList = [] ∧
    ¬ Honest 0 (clock 0)
      { user := some 7,
        POST := formData [("addr_id", "1"), ("pay_method", "3"), ("sku_ids", "1")] }
      (.replicate 6 (.step 0) ++ .replicate 11 (.step 1) ++ .replicate 3 (.step 0) ++
        .replicate 11 (.step 2) ++ .replicate 4 (.step 0))
      (start smallShop (fun _ ↦ cartOf [("1", 1)]) silent crowd) s reply := by
  have hrun : ((site (Fin 3)).perform (start smallShop (fun _ ↦ cartOf [("1", 1)]) silent crowd)
      (.replicate 6 (.step 0) ++ .replicate 11 (.step 1) ++ .replicate 3 (.step 0) ++
        .replicate 11 (.step 2) ++ .replicate 4 (.step 0))).map
      (fun s ↦ ((s.prog 0).result?, s.world.db.linesOf "202004210930007".toList,
        takenItems (s.world.log 0))) = some (some (.message 5 "添加成功"), [], []) := by rfl
  obtain ⟨s, hs, hvalues⟩ := Option.map_eq_some_iff.1 hrun
  obtain ⟨hreply, hvalues⟩ := Prod.mk.inj hvalues
  obtain ⟨hlines, htaken⟩ := Prod.mk.inj hvalues
  refine ⟨s, _, hs, hreply, rfl, hlines, fun h ↦ ?_⟩
  obtain ⟨c, hasks, hwhole⟩ := h.whole rfl
  have hids : c.ids = ["1".toList] := congrArg (split ',') (Option.some.inj hasks.skuIds.symm)
  have hpositions := hwhole.positions
  rw [htaken, hids] at hpositions
  cases hpositions

end DailyFresh
