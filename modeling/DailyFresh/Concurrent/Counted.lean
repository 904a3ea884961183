import DailyFresh.Concurrent.CartReads
import DailyFresh.Concurrent.CommitPath

/-!
# What a checkout takes from a cart

Each conditional update of a checkout comes right after the lookup of its product and the answer of the cart for
this product (`UpdatesCounted`). While nobody else changes the cart, the cart is what it was until the checkout
deletes its ids from it (`CartAt`), and all answers come from before that; so every item that is taken has the
count of its entry (`takenItems_of_reach`).
-/

namespace DailyFresh

open Python Store Interleave Program OrderCommitView

variable {ι : Type} {t : ι} {user : ℕ} {es : List (Event ι)} {α β : Type}

/-! ### On the paths of a checkout -/

/-- Each conditional update follows the lookup of its product and the answer of the cart for it. -/
def UpdatesCounted (t : ι) (user : ℕ) : List (Event ι) → Prop
  | [] => True
  | e :: es => UpdatesCounted t user es ∧ ∀ id n, e.matched = some (id, n) → ∃ k sku count older,
      es = ⟨t, .hget user (str k), some count⟩ :: ⟨t, .skuGet id, .ok (k, sku)⟩ :: older

/-- An item that was taken has been looked up, and its count is an answer of the cart for it. -/
theorem UpdatesCounted.read (h : UpdatesCounted t user es) {x : Str × ℤ} (hx : x ∈ takenItems es) :
    ∃ k sku, (⟨t, .hget user (str k), some x.2⟩ : Event ι) ∈ es ∧
      (⟨t, .skuGet x.1, .ok (k, sku)⟩ : Event ι) ∈ es := by
  induction es with
  | nil => cases hx
  | cons e es ih =>
    have hlater : x ∈ takenItems es → ∃ k sku, (⟨t, .hget user (str k), some x.2⟩ : Event ι) ∈ e :: es ∧
        (⟨t, .skuGet x.1, .ok (k, sku)⟩ : Event ι) ∈ e :: es := by
      intro hx
      obtain ⟨k, sku, hget, hsku⟩ := ih h.1 hx
      exact ⟨k, sku, List.mem_cons_of_mem _ hget, List.mem_cons_of_mem _ hsku⟩
    rw [takenItems] at hx
    split at hx
    · rename_i id n count hmatched hcounted
      rcases List.mem_append.1 hx with hx | hx
      · exact hlater hx
      obtain rfl := List.mem_singleton.1 hx
      obtain ⟨k, sku, count', older, rfl⟩ := h.2 id _ hmatched
      obtain rfl : count' = count := Option.some.inj hcounted
      exact ⟨k, sku, List.mem_cons_of_mem _ List.mem_cons_self,
        List.mem_cons_of_mem _ (List.mem_cons_of_mem _ List.mem_cons_self)⟩
    · exact hlater hx

/-- A command that is no conditional update. -/
theorem UpdatesCounted.cons {c : Cmd} (hes : UpdatesCounted t user es)
    (hc : ∀ r, (⟨t, c, r⟩ : Event ι).matched = none) (r : c.Resp) : UpdatesCounted t user (⟨t, c, r⟩ :: es) :=
  ⟨hes, fun _ _ hmatched ↦ by cases (hc r).symm.trans hmatched⟩

theorem counted_ask {c : Cmd} {f : c.Resp → Program Services α} (hes : UpdatesCounted t user es)
    (hc : ∀ r, UpdatesCounted t user (⟨t, c, r⟩ :: es))
    (h : ∀ r, UpdatesCounted t user (⟨t, c, r⟩ :: es) →
      Throughout (Event.mk t) (fun es _ ↦ UpdatesCounted t user es) (f r) (⟨t, c, r⟩ :: es)) :
    Throughout (Event.mk t) (fun es _ ↦ UpdatesCounted t user es) (ask c >>= f) es :=
  ⟨hes, fun r ↦ h r (hc r)⟩

theorem counted_bind {p : Program Services α} {f : α → Program Services β}
    (hp : Throughout (Event.mk t) (fun es _ ↦ UpdatesCounted t user es) p es)
    (hf : ∀ a es, UpdatesCounted t user es →
      Throughout (Event.mk t) (fun es _ ↦ UpdatesCounted t user es) (f a) es) :
    Throughout (Event.mk t) (fun es _ ↦ UpdatesCounted t user es) (p >>= f) es :=
  hp.bind (fun _ _ hes _ ↦ hes) fun es a hes ↦ hf a es hes

theorem counted_rollbackAndReply (res : ℤ) (errmsg : String) (hes : UpdatesCounted t user es) :
    Throughout (Event.mk t) (fun es _ ↦ UpdatesCounted t user es) (rollbackAndReply (α := α) res errmsg) es := by
  refine counted_ask hes (hes.cons fun _ ↦ rfl) fun r hes ↦ ?_
  rcases r with e | u
  · exact hes
  · exact hes

/-- The attempts at one item, by induction on those that are left. -/
theorem counted_tryItem (orderId skuId : Str) (totals : Totals) (attempts : List ℕ)
    (hes : UpdatesCounted t user es) :
    Throughout (Event.mk t) (fun es _ ↦ UpdatesCounted t user es)
      (tryItem user orderId skuId totals attempts) es := by
  induction attempts generalizing es with
  | nil => exact hes
  | cons i rest ih =>
    refine counted_ask hes (hes.cons fun _ ↦ rfl) fun r hes ↦ ?_
    rcases r with e | ⟨k, sku⟩
    · exact counted_rollbackAndReply _ _ hes
    refine counted_ask hes (hes.cons fun _ ↦ rfl) fun r hes ↦ ?_
    rcases r with - | count
    · exact hes
    dsimp only
    split
    · exact counted_rollbackAndReply _ _ hes
    -- the two events before the update are those of this attempt
    refine counted_ask hes (fun r ↦ ⟨hes, fun id n hmatched ↦ ⟨k, sku, count, es, ?_⟩⟩) fun r hes ↦ ?_
    · rcases r with e | n'
      · cases hmatched
      · obtain ⟨rfl, -⟩ := Prod.mk.inj (Option.some.inj hmatched)
        rfl
    split
    · exact hes
    · split
      · exact counted_rollbackAndReply _ _ hes
      · exact ih hes
    · refine counted_ask hes (hes.cons fun _ ↦ rfl) fun r hes ↦ ?_
      rcases r with e | u
      · exact hes
      · exact hes

/-- The loop over the items, by induction on what is left of it. -/
theorem counted_takeItems (orderId : Str) (ids : List Str) (totals : Totals) (hes : UpdatesCounted t user es) :
    Throughout (Event.mk t) (fun es _ ↦ UpdatesCounted t user es) (takeItems user orderId ids totals) es := by
  induction ids generalizing es totals with
  | nil => exact hes
  | cons id ids ih =>
    refine counted_bind (counted_tryItem _ _ _ _ hes) fun flow es hes ↦ ?_
    rcases flow with totals | r | -
    · exact ih totals hes
    · exact hes
    · exact hes

theorem counted_placeOrder (order : OrderObject) (huser : order.user = user) (ids : List Str)
    (hes : UpdatesCounted t user es) :
    Throughout (Event.mk t) (fun es _ ↦ UpdatesCounted t user es) (placeOrder order ids) es := by
  refine counted_ask hes (hes.cons fun _ ↦ rfl) fun r hes ↦ ?_
  rcases r with e | u
  · exact hes
  rw [huser]
  refine counted_bind (counted_takeItems _ _ _ hes) fun flow es hes ↦ ?_
  rcases flow with totals | r | -
  · refine counted_ask hes (hes.cons fun _ ↦ rfl) fun r hes ↦ ?_
    rcases r with e | u
    · exact hes
    · exact hes
  · exact hes
  · exact hes

variable {now : LocalTime} {req : HttpRequest}

theorem counted_body (positions : List Str → List Str) (huser : req.user = some user)
    (hes : UpdatesCounted t user es) :
    Throughout (Event.mk t) (fun es _ ↦ UpdatesCounted t user es) (body positions now req) es := by
  rw [body, huser]
  rcases nonempty (req.POST "addr_id".toList) with - | addrId
  · exact hes
  rcases nonempty (req.POST "pay_method".toList) with - | payMethod
  · exact hes
  rcases nonempty (req.POST "sku_ids".toList) with - | skuIds
  · exact hes
  dsimp only
  split
  · exact hes
  refine counted_ask hes (hes.cons fun _ ↦ rfl) fun r hes ↦ ?_
  rcases r with e | ⟨addr, a⟩
  · cases e <;> exact hes
  refine counted_ask hes (hes.cons fun _ ↦ rfl) fun _ hes ↦ ?_
  refine counted_bind (counted_placeOrder (newOrder ..) rfl _ hes) fun flow es hes ↦ ?_
  rcases flow with u | r | -
  · exact counted_ask hes (hes.cons fun _ ↦ rfl) fun _ hes ↦ hes
  · exact hes
  · refine counted_ask hes (hes.cons fun _ ↦ rfl) fun r hes ↦ ?_
    rcases r with e | u
    · exact hes
    · exact hes

/-- **What a checkout has read before it updates.** -/
theorem counted_post (huser : req.user = some user) :
    Throughout (Event.mk t) (fun es _ ↦ UpdatesCounted t user es) (post now req) [] := by
  have hnil : UpdatesCounted t user ([] : List (Event ι)) := trivial
  refine counted_ask hnil (hnil.cons fun _ ↦ rfl) fun _ hes ↦ ?_
  refine counted_bind (counted_body _ huser hes) fun reply es hes ↦ ?_
  rcases reply with - | reply
  · exact counted_ask hes (hes.cons fun _ ↦ rfl) fun _ hes ↦ hes
  · exact counted_ask hes (hes.cons fun _ ↦ rfl) fun _ hes ↦ hes

/-! ### The cart of a checkout -/

/-- What the request has read of the cart is what is in it, and the products that it has looked up are those that
it has asked for. -/
def Event.Answers (user : ℕ) (cart : Cart) : Event ι → Prop
  | ⟨_, .hget user' field, r⟩ => user' = user → r = cart.lookup field
  | ⟨_, .skuGet id, r⟩ => ∀ n row, r = .ok (n, row) → int id = some (n : ℤ)
  | _ => True

/-- The cart is as it was, until the checkout deletes its ids from it. -/
def CartAt [DecidableEq ι] (t : ι) (req : HttpRequest) (user : ℕ) (cart : Cart) (w : World ι) : Prop :=
  NoHdel (w.log t) ∧ w.carts user = cart ∨
    ¬ NoHdel (w.log t) ∧ ∃ c, req.Asks c ∧ w.carts user = cart.hdel c.ids

/-- A checkout that sends another command than the commit has not deleted from the cart. -/
theorem CommitPath.noHdel_of_next {p : Program Services Reply} (h : CommitPath t es p) {c : Cmd}
    (hc : p.next? = some c) (hcommit : c ≠ .commit) : NoHdel es := by
  cases h.stage with
  | carrying hnone => exact hnone
  | cleared _ _ _ _ _ hnext => exact absurd (Option.some.inj (hc.symm.trans hnext)) hcommit
  | ended _ _ hreturned => cases hreturned.symm.trans hc

section Runs

variable [DecidableEq ι] {request : ι → Request} {db : Db} {carts : ℕ → Cart} {gateway : ℕ → Answer}
  {s₀ s s' : State Services ι (World ι) Session Reply} {m : Move ι}
  {ok : State Services ι (World ι) Session Reply → Move ι → Prop} {w w' : World ι} {l l' : Session}

theorem answers_of_exec {c : Cmd} {r : c.Resp} (h : exec t w l c = some (r, w', l')) :
    (⟨t, c, r⟩ : Event ι).Answers user (w.carts user) := by
  obtain ⟨-, hrefusal, -⟩ | ⟨-, v, hrun, -⟩ := exec_cases h
  · cases c with
    | hget => cases hrefusal
    | skuGet id =>
      intro n row hr
      rw [hr] at hrefusal
      cases hrefusal
    | _ => trivial
  · cases c with
    | hget user' field =>
      cases hrun
      rintro rfl
      rfl
    | skuGet id =>
      rintro n row rfl
      exact (findRow_eq_ok_iff.1 (Prod.mk.inj (Option.some.inj hrun)).1).1
    | _ => trivial

theorem CartAt.congr {req : HttpRequest} {cart : Cart} (h : CartAt t req user cart w)
    (hcarts : w'.carts user = w.carts user) (hlog : NoHdel (w'.log t) ↔ NoHdel (w.log t)) :
    CartAt t req user cart w' := by
  rw [CartAt, hcarts, hlog]
  exact h

/-- One step of the checkout itself. -/
theorem CartAt.step {cart : Cart} (hlinked : db.Linked)
    (hs : (site ι).Reach AnyMove (start db carts gateway request) s) (hreq : request t = .commit now req)
    (huser : req.user = some user) (h : CartAt t req user cart s.world)
    (hn : (site ι).next s (.step t) = some s') : CartAt t req user cart s'.world := by
  obtain ⟨c, r, l, hc, -, hhistory⟩ := next_step_history hn
  have heffect := (promise_of_reach (noDiscipline request) hlinked trivial hs hn).effect
  obtain hquiet | ⟨c', hasks, -, -, hcarts, hhistory'⟩ | ⟨receipt, hplaced⟩ := heffect.commit_cases hreq
  · refine h.congr (congrFun hquiet.carts user) ?_
    rw [World.log_cons_self hhistory, noHdel_cons_iff]
    exact and_iff_right (hquiet.plain hhistory).not_hdel
  · -- it deletes its ids, once
    obtain rfl : c'.user = user := Option.some.inj (hasks.user.symm.trans huser)
    have hlog := World.log_cons_self hhistory'
    have hpath := (commitPath_of_step hreq hs hn).2
    rw [hlog] at hpath
    obtain ⟨-, hcart⟩ := h.resolve_right fun hsome ↦ hsome.1 hpath.of_hdel.1
    refine .inr ⟨fun hnone ↦ ?_, c', hasks, ?_⟩
    · rw [hlog] at hnone
      exact (noHdel_cons_iff.1 hnone).1 _ _ rfl
    · rw [hcarts, Function.update_self, hcart]
  · refine h.congr (congrFun hplaced.carts user) ?_
    rw [World.log_cons_self hplaced.history, noHdel_cons_iff]
    exact and_iff_right fun _ _ hcmd ↦ by cases hcmd

/-- **A cart that only the checkout changes.** From a reachable state on in which the checkout has not begun, let
only it and requests move that leave the user's cart alone. -/
theorem cartAt_of_reach (hlinked : db.Linked)
    (hs₀ : (site ι).Reach AnyMove (start db carts gateway request) s₀)
    (hok : ∀ s m, ok s m → m.process = t ∨ (request m.process).LeavesCart user)
    (hreq : request t = .commit now req) (huser : req.user = some user) (hfresh : s₀.world.log t = [])
    (hs : (site ι).Reach ok s₀ s) : CartAt t req user (s₀.world.carts user) s.world ∧
      ∀ e ∈ s.world.log t, e.Answers user (s₀.world.carts user) := by
  induction hs with
  | refl =>
    rw [CartAt, hfresh]
    exact ⟨.inl ⟨noHdel_nil, rfl⟩, fun e he ↦ by cases he⟩
  | @move s s' m hreach hm hn ih =>
    obtain ⟨hcart, hanswers⟩ := ih
    have hs := hs₀.trans (hreach.mono fun _ _ _ ↦ trivial)
    by_cases ht : m.process = t
    · cases m with
      | kill u =>
        rw [next_kill_world hn]
        exact ⟨hcart, hanswers⟩
      | step u =>
        obtain rfl : u = t := ht
        refine ⟨hcart.step hlinked hs hreq huser hn, fun e he ↦ ?_⟩
        obtain ⟨c, r, l, hc, hx, hhistory⟩ := next_step_history hn
        rw [World.log_cons_self hhistory] at he
        rcases List.mem_cons.1 he with rfl | he
        · by_cases hcommit : c = .commit
          · subst hcommit
            trivial
          · -- it reads before it deletes
            have hnone := (commitPath_of_step hreq hs hn).1.noHdel_of_next hc hcommit
            obtain ⟨-, hsame⟩ := hcart.resolve_right fun hsome ↦ hsome.1 hnone
            exact hsame ▸ answers_of_exec hx
        · exact hanswers e he
    · have hcarts := cart_next hs hn ((hok s m hm).resolve_left ht)
      have hlog : s'.world.log t = s.world.log t := by
        cases m with
        | step u =>
          obtain ⟨c, r, l, -, -, hhistory⟩ := next_step_history hn
          exact World.log_cons_of_ne (Ne.symm ht) hhistory
        | kill u =>
          rw [next_kill_world hn]
          rfl
      refine ⟨hcart.congr hcarts (by rw [hlog]), fun e he ↦ hanswers e (hlog ▸ he)⟩

/-- **What is taken is what is in the cart**: every item has been taken under the id of its product, with the
count of its entry. -/
theorem takenItems_of_reach (hlinked : db.Linked)
    (hs₀ : (site ι).Reach AnyMove (start db carts gateway request) s₀)
    (hok : ∀ s m, ok s m → m.process = t ∨ (request m.process).LeavesCart user)
    (hreq : request t = .commit now req) (huser : req.user = some user) (hfresh : s₀.world.log t = [])
    (hs : (site ι).Reach ok s₀ s) {reply : Reply} (hreply : (s.prog t).result? = some reply)
    (hres : reply.res = some 5) : ∀ x ∈ takenItems (s.world.log t),
      ∃ k : ℕ, int x.1 = some (k : ℤ) ∧ (s₀.world.carts user).lookup (str k) = some x.2 := by
  have hsite := hs₀.trans (hs.mono fun _ _ _ ↦ trivial)
  obtain ⟨-, hanswers⟩ := cartAt_of_reach hlinked hs₀ hok hreq huser hfresh hs
  have hstart : Throughout (Event.mk t) (fun es _ ↦ UpdatesCounted t user es)
      ((start db carts gateway request).prog t) ((start db carts gateway request).world.log t) := by
    show Throughout _ _ (request t).handler []
    rw [hreq]
    exact counted_post huser
  obtain hdead | hpath := hstart.of_reach_or site_logs hsite
  · rw [hdead] at hreply
    obtain rfl := Option.some.inj hreply
    cases hres
  intro x hx
  obtain ⟨k, sku, hget, hsku⟩ := hpath.now.read hx
  exact ⟨k, hanswers _ hsku k sku rfl, (hanswers _ hget rfl).symm⟩

end Runs

end DailyFresh
