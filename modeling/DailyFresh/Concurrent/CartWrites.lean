import DailyFresh.Concurrent.CartReads
import DailyFresh.Site.CartPage

/-!
# What the cart page does to the cart

A request of the cart page changes at most one entry of its user's cart, and says so: its `res` is that of a
success exactly if it has changed the cart (`replied_of_reach`). So while the page is all that changes a cart,
a move of the site changes the cart together with what has changed it (`CartStep`).
-/

namespace DailyFresh

open Python Store Interleave Program

variable {ι : Type} {user : ℕ}

/-! ### What a request of the page does -/

/-- The `res` of a request that has changed the cart. -/
def Ajax.success : Ajax → ℤ
  | update .. => 5
  | delete _ => 3

/-- Of the commands that change the cart, the request sends this one only. -/
def Ajax.Sends (user : ℕ) (ajax : Ajax) (c : Cmd) : Prop :=
  c.onCart user = none ∨
    match ajax with
    | update skuId count => ∃ n, int count = some n ∧ c = .hset user skuId n
    | delete skuId => c = .hdel user [skuId]

/-- The event has changed the cart. -/
def Event.wrote (user : ℕ) (e : Event ι) : Bool := (e.cmd.onCart user).isSome

/-- What a request of the page has come to. -/
structure AjaxPath (user : ℕ) (ajax : Ajax) (es : List (Event ι)) (p : Program Services Reply) : Prop where
  sends : ∀ c, p.next? = some c → ajax.Sends user c
  replied : ∀ reply, p.result? = some reply → reply ≠ .error ∧
    (reply.res = some ajax.success ↔ es.any (Event.wrote user) = true)

section Paths

variable {t : ι} {ajax : Ajax} {es : List (Event ι)}

theorem AjaxPath.asks {c : Cmd} {k : c.Resp → Program Services Reply} (hc : ajax.Sends user c) :
    AjaxPath user ajax es (.call c k) where
  sends _ h := Option.some.inj h ▸ hc
  replied _ h := by cases h

theorem AjaxPath.refused {reply : Reply} (herror : reply ≠ .error) (hres : reply.res ≠ some ajax.success)
    (hes : es.any (Event.wrote user) = false) : AjaxPath user ajax es (.ret reply) where
  sends _ h := by cases h
  replied _ h := by
    obtain rfl := Option.some.inj h
    rw [hes]
    exact ⟨herror, fun h ↦ absurd h hres, fun h ↦ by cases h⟩

theorem AjaxPath.succeeded {reply : Reply} (hres : reply.res = some ajax.success)
    (hes : es.any (Event.wrote user) = true) : AjaxPath user ajax es (.ret reply) where
  sends _ h := by cases h
  replied _ h := by
    obtain rfl := Option.some.inj h
    refine ⟨fun herror ↦ ?_, fun _ ↦ hes, fun _ ↦ hres⟩
    rw [herror] at hres
    cases hres

theorem throughout_update (skuId count : Str) : Throughout (Event.mk t) (AjaxPath user (.update skuId count))
    ((Ajax.update skuId count).request user).handler [] := by
  have hrefused : ∀ {es : List (Event ι)} {res : ℤ} {text : String}, es.any (Event.wrote user) = false →
      res ≠ 5 → AjaxPath user (.update skuId count) es (.ret (.errmsg res text)) :=
    fun hes hres ↦ .refused (fun h ↦ (by cases h)) (fun h ↦ hres (Option.some.inj h)) hes
  show Throughout _ _ (CartUpdateView.post { user := some user, POST := (Ajax.update skuId count).form }) []
  rw [CartUpdateView.post]
  rcases hsku : nonempty ((Ajax.update skuId count).form "sku_id".toList) with - | skuId'
  · exact hrefused rfl (by decide)
  rcases hcount : nonempty ((Ajax.update skuId count).form "count".toList) with - | count'
  · exact hrefused rfl (by decide)
  obtain rfl : skuId = skuId' := Option.some.inj (nonempty_eq_some_iff.1 hsku).1
  obtain rfl : count = count' := Option.some.inj (nonempty_eq_some_iff.1 hcount).1
  rcases hint : int count with - | n
  · simp only [hint]
    have hres : (2 : ℤ) ≠ 5 := by decide
    exact .refused (fun h ↦ (by cases h)) (fun h ↦ hres (Option.some.inj h)) rfl
  simp only [hint]
  refine ⟨.asks (.inl rfl), fun x ↦ ?_⟩
  rcases x with e | ⟨m, sku⟩
  · exact hrefused rfl (by decide)
  show Throughout _ _ (if n > sku.stock.val then _ else _) _
  split
  · exact hrefused rfl (by decide)
  refine ⟨.asks (.inr ⟨n, hint, rfl⟩), fun _ ↦ ⟨.asks (.inl rfl), fun vals ↦ .succeeded rfl ?_⟩⟩
  have hwrote : Event.wrote user (⟨t, .hset user skuId n, ()⟩ : Event ι) = true := by
    rw [Event.wrote, Cmd.onCart, if_pos rfl]
    rfl
  rw [List.any_cons, List.any_cons, hwrote, Bool.true_or, Bool.or_true]

theorem throughout_delete (skuId : Str) : Throughout (Event.mk t) (AjaxPath user (.delete skuId))
    ((Ajax.delete skuId).request user).handler [] := by
  have hrefused : ∀ {es : List (Event ι)} {res : ℤ} {text : String}, es.any (Event.wrote user) = false →
      res ≠ 3 → AjaxPath user (.delete skuId) es (.ret (.errmsg res text)) :=
    fun hes hres ↦ .refused (fun h ↦ (by cases h)) (fun h ↦ hres (Option.some.inj h)) hes
  show Throughout _ _ (CartDeleteView.post { user := some user, POST := (Ajax.delete skuId).form }) []
  rw [CartDeleteView.post]
  rcases hsku : nonempty ((Ajax.delete skuId).form "sku_id".toList) with - | skuId'
  · exact hrefused rfl (by decide)
  obtain rfl : skuId = skuId' := Option.some.inj (nonempty_eq_some_iff.1 hsku).1
  refine ⟨.asks (.inl rfl), fun x ↦ ?_⟩
  rcases x with e | ⟨m, sku⟩
  · exact hrefused rfl (by decide)
  refine ⟨.asks (.inr rfl), fun _ ↦ ⟨.asks (.inl rfl), fun vals ↦ .succeeded rfl ?_⟩⟩
  have hwrote : Event.wrote user (⟨t, .hdel user [skuId], ()⟩ : Event ι) = true := by
    rw [Event.wrote, Cmd.onCart, if_pos rfl]
    rfl
  rw [List.any_cons, List.any_cons, hwrote, Bool.true_or, Bool.or_true]

theorem throughout_ajax (ajax : Ajax) :
    Throughout (Event.mk t) (AjaxPath user ajax) (ajax.request user).handler [] := by
  cases ajax with
  | update skuId count => exact throughout_update skuId count
  | delete skuId => exact throughout_delete skuId

end Paths

/-! ### What the site does to the cart -/

section Site

variable [DecidableEq ι] {posts : ℕ → Ajax} {others : ι → Request} {db : Db} {carts : ℕ → Cart}
  {gateway : ℕ → Answer} {s s' : State Services (ℕ ⊕ ι) (World (ℕ ⊕ ι)) Session Reply}
  {m : Move (ℕ ⊕ ι)} {ok : State Services (ℕ ⊕ ι) (World (ℕ ⊕ ι)) Session Reply → Move (ℕ ⊕ ι) → Prop}

/-- The `n`-th request of the page has changed the cart. -/
def wrote (user : ℕ) (s : State Services (ℕ ⊕ ι) (World (ℕ ⊕ ι)) Session Reply) (n : ℕ) : Bool :=
  (s.world.log (.inl n)).any (Event.wrote user)

/-- A move of the site changes the cart and what has changed it, or neither. -/
inductive CartStep (user : ℕ) (posts : ℕ → Ajax)
    (s s' : State Services (ℕ ⊕ ι) (World (ℕ ⊕ ι)) Session Reply) (m : Move (ℕ ⊕ ι)) : Prop where
  | same (cart : s'.world.carts user = s.world.carts user) (wrote : ∀ n, wrote user s' n = wrote user s n)
  | write (n : ℕ) (process : m = .step (.inl n)) (self : wrote user s' n = true)
      (other : ∀ n', n' ≠ n → wrote user s' n' = wrote user s n')
      (cart : match posts n with
        | .update skuId count => ∃ value, int count = some value ∧
            s'.world.carts user = (s.world.carts user).insert skuId value
        | .delete skuId => s'.world.carts user = (s.world.carts user).hdel [skuId])

/-- **What a move of the site does to the cart**, if it is no other request that changes it. -/
theorem cartStep_of_next (hother : ∀ t, m = .step (.inr t) → (others t).LeavesCart user)
    (hs : (site (ℕ ⊕ ι)).Reach ok (start db carts gateway (besides user posts others)) s)
    (hn : (site (ℕ ⊕ ι)).next s m = some s') : CartStep user posts s s' m := by
  cases m with
  | kill t =>
    have hworld := next_kill_world hn
    refine .same (by rw [hworld]; rfl) fun n ↦ ?_
    rw [wrote, wrote, hworld]
    rfl
  | step t =>
    obtain ⟨c, r, l, hc, hx, hhistory⟩ := next_step_history hn
    have hcart := exec_onCart user hx
    have hquiet : c.onCart user = none → CartStep user posts s s' (.step t) := by
      intro hnone
      refine .same (by rw [hcart, hnone]; rfl) fun n ↦ ?_
      rw [wrote, wrote]
      by_cases hnt : .inl n = t
      · subst hnt
        rw [World.log_cons_self hhistory, List.any_cons, Event.wrote, hnone, Option.isSome_none,
          Bool.false_or]
      · rw [World.log_cons_of_ne hnt hhistory]
    cases t with
    | inr t => exact hquiet (onCart_of_leavesCart (hother t rfl) (may_of_reach hs hc))
    | inl n =>
      have hpath := Throughout.of_reach_of_next site_logs (throughout_ajax (posts n)) hs hc
      obtain hnone | hwrite := hpath.now.sends c hc
      · exact hquiet hnone
      have hlog : (s'.world.log (.inl n)) = ⟨.inl n, c, r⟩ :: s.world.log (.inl n) :=
        World.log_cons_self hhistory
      have hself : (c.onCart user).isSome = true → wrote user s' n = true := fun hsome ↦ by
        rw [wrote, hlog, List.any_cons, Event.wrote, hsome, Bool.true_or]
      have hsame : ∀ n', n' ≠ n → wrote user s' n' = wrote user s n' := fun n' hne ↦ by
        rw [wrote, wrote, World.log_cons_of_ne (fun h ↦ hne (Sum.inl.inj h)) hhistory]
      refine .write n rfl ?_ hsame ?_
      · refine hself ?_
        cases hposts : posts n with
        | update skuId count =>
          rw [hposts] at hwrite
          obtain ⟨value, -, rfl⟩ := hwrite
          rw [Cmd.onCart, if_pos rfl]
          rfl
        | delete skuId =>
          rw [hposts] at hwrite
          obtain rfl := hwrite
          rw [Cmd.onCart, if_pos rfl]
          rfl
      · cases hposts : posts n with
        | update skuId count =>
          rw [hposts] at hwrite
          obtain ⟨value, hvalue, rfl⟩ := hwrite
          rw [Cmd.onCart, if_pos rfl] at hcart
          exact ⟨value, hvalue, hcart⟩
        | delete skuId =>
          rw [hposts] at hwrite
          obtain rfl := hwrite
          rw [Cmd.onCart, if_pos rfl] at hcart
          exact hcart

/-- **What the page is answered**: unless the request was killed, that the cart has been changed, exactly if
it has. -/
theorem replied_of_reach (hkill : ∀ s n, ¬ ok s (.kill (.inl n)))
    (hs : (site (ℕ ⊕ ι)).Reach ok (start db carts gateway (besides user posts others)) s) {n : ℕ}
    {reply : Reply} (hreply : (s.prog (.inl n)).result? = some reply) :
    reply ≠ .error ∧ (reply.res = some (posts n).success ↔ wrote user s n = true) :=
  (Throughout.of_reach site_logs (fun s ↦ hkill s n) (throughout_ajax (posts n)) hs).replied reply hreply

end Site

end DailyFresh
