import DailyFresh.Concurrent.Adds
import DailyFresh.Concurrent.CommitPath
import DailyFresh.Results.ConcurrentAdds

/-!
# Additions during a checkout

A checkout reads an entry of the cart for each item, and in the end deletes the fields it was asked for,
whatever they hold by then. An addition that writes in between is deleted with them, although nobody has
ordered it (`swallowed_add`); an addition that has read the entry before the deletion and writes after it
brings back what has been ordered.

`adds_survive_iff` is exact: for each product, what was in the cart and what has been added is what is
left and what was ordered, if and only if the deletion takes away what the checkout has taken, and what an
addition is about to bring back. The invariant is a balance (`balance`) that also counts an order
that is not committed yet, and additions that are about to write what they have read.
-/

namespace DailyFresh

open Python Store Interleave

variable {ι : Type}

/-! ### Quantities of a product -/

/-- The text denotes product `n`. -/
def spells (n : ℕ) (text : Str) : Bool := int text = some (n : ℤ)

/-- The quantity of the wanted fields in a list of entries. -/
def totalOf (wanted : Str → Bool) (entries : List (Sigma fun _ : Str ↦ ℤ)) : ℤ :=
  ((entries.filter fun e ↦ wanted e.1).map fun e ↦ e.2).sum

/-- The quantity of the wanted fields in a cart. -/
def Cart.total (wanted : Str → Bool) (cart : Cart) : ℤ := totalOf wanted cart.entries

/-- The quantity of product `n` that a checkout with this log has taken. -/
def takenCount (n : ℕ) (es : List (Event ι)) : ℤ :=
  (((takenItems es).filter fun x ↦ spells n x.1).map fun x ↦ x.2).sum

theorem totalOf_cons (wanted : Str → Bool) (e : Sigma fun _ : Str ↦ ℤ)
    (entries : List (Sigma fun _ : Str ↦ ℤ)) :
    totalOf wanted (e :: entries) = (if wanted e.1 then e.2 else 0) + totalOf wanted entries := by
  by_cases he : wanted e.1 = true
  · simp [totalOf, he]
  · simp [totalOf, he]

theorem totalOf_kerase (wanted : Str → Bool) (field : Str) (entries : List (Sigma fun _ : Str ↦ ℤ)) :
    totalOf wanted (entries.kerase field) =
      totalOf wanted entries - if wanted field then (entries.dlookup field).getD 0 else 0 := by
  induction entries with
  | nil => simp [totalOf]
  | cons e entries ih =>
    by_cases hfield : field = e.1
    · subst hfield
      rw [List.kerase_cons_eq rfl, totalOf_cons, List.dlookup_cons_eq, Option.getD_some]
      omega
    · rw [List.kerase_cons_ne hfield, totalOf_cons, totalOf_cons, ih, List.dlookup_cons_ne _ _ hfield]
      omega

theorem Cart.total_insert (wanted : Str → Bool) (cart : Cart) (field : Str) (value : ℤ) :
    Cart.total wanted (cart.insert field value) =
      cart.total wanted + if wanted field then value - cart.entry field else 0 := by
  have herase := totalOf_kerase wanted field cart.entries
  rw [Cart.total, AList.entries_insert]
  show totalOf wanted (⟨field, value⟩ :: cart.entries.kerase field) = _
  have hlookup : (cart.entries.dlookup field).getD 0 = cart.entry field := rfl
  rw [hlookup] at herase
  rw [totalOf_cons, herase, Cart.total]
  by_cases hfield : wanted field = true
  · rw [if_pos hfield, if_pos hfield, if_pos hfield]
    show value + _ = _
    omega
  · rw [if_neg hfield, if_neg hfield, if_neg hfield]
    omega

theorem Cart.entry_hdel (cart : Cart) (fields : List Str) (field : Str) :
    Cart.entry (cart.hdel fields) field = if field ∈ fields then 0 else cart.entry field := by
  rw [Cart.entry, Cart.lookup_hdel]
  split
  · rfl
  · rfl

theorem Receipt.Of.takenCount_eq {request : ι → Request} {t : ι} {r : Receipt} {es : List (Event ι)}
    (h : r.Of request t es) (n : ℕ) : takenCount n es = pickedCount r.picks n := by
  rw [takenCount, h.taken, pickedCount, List.filter_map, List.map_map]
  congr 1
  have hfilter : (r.picks.filter ((fun x ↦ spells n x.1) ∘ fun p ↦ (p.raw, p.count))) =
      r.picks.filter fun p ↦ p.sku = n := by
    refine List.filter_congr fun p hp ↦ ?_
    show spells n p.raw = decide (p.sku = n)
    rw [spells, h.denotes p hp]
    exact decide_eq_decide.2 (Option.some_inj.trans Int.ofNat_inj)
  rw [hfilter]
  rfl

/-! ### One checkout and a sequence of additions -/

/-- One checkout of this user; all other requests are additions to carts. -/
structure OneCheckout (request : ι → Request) (t₀ : ι) (user : ℕ) : Prop where
  commit : ∃ now req, request t₀ = .commit now req ∧ req.user = some user
  adds : ∀ t, t ≠ t₀ → ∃ req, request t = .cartAdd req

/-- Request `t` is about to write this value to this field of the user's cart, for product `n`. -/
def writing (user n : ℕ) (s : State Services ι (World ι) Session Reply) (t : ι) : Option (Str × ℤ) :=
  match (s.prog t).next? with
  | some (.hset user' field value) =>
    if user' = user ∧ spells n field = true then some (field, value) else none
  | _ => none

theorem writing_eq_some_iff {user n : ℕ} {s : State Services ι (World ι) Session Reply} {t : ι}
    {field : Str} {value : ℤ} : writing user n s t = some (field, value) ↔
      (s.prog t).next? = some (.hset user field value) ∧ spells n field = true := by
  unfold writing
  split
  · rename_i user' field' value' hnext
    rw [hnext]
    by_cases h : user' = user ∧ spells n field' = true
    · rw [if_pos h]
      simp only [Option.some.injEq, Prod.mk.injEq, Cmd.hset.injEq]
      constructor
      · rintro ⟨rfl, rfl⟩
        exact ⟨⟨h.1, rfl, rfl⟩, h.2⟩
      · rintro ⟨⟨-, rfl, rfl⟩, -⟩
        exact ⟨rfl, rfl⟩
    · rw [if_neg h]
      constructor
      · intro hnone
        cases hnone
      · rintro ⟨heq, hspells⟩
        obtain ⟨rfl, rfl, rfl⟩ := Cmd.hset.inj (Option.some.inj heq)
        exact absurd ⟨rfl, hspells⟩ h
  · rename_i hne
    constructor
    · intro hnone
      cases hnone
    · rintro ⟨hnext, -⟩
      exact absurd hnext (hne _ _ _)

/-- Who is about to write what it was about to write, is about to write the same. -/
theorem writing_congr {user n : ℕ} {s s' : State Services ι (World ι) Session Reply} {t : ι}
    (h : s'.prog t = s.prog t) : writing user n s' t = writing user n s t := by
  rw [writing, writing, h]

variable [DecidableEq ι]

/-- A request has begun and not finished. -/
def Active (s : State Services ι (World ι) Session Reply) (t : ι) : Prop :=
  (s.world.log t).isEmpty = false ∧ (s.prog t).next?.isSome = true

instance (s : State Services ι (World ι) Session Reply) : DecidablePred (Active s) :=
  fun _ ↦ inferInstanceAs (Decidable (_ ∧ _))

/-- The additions follow one another: none makes a step while another one is active; and nobody is
killed. -/
def InTurn (t₀ : ι) (s : State Services ι (World ι) Session Reply) : Move ι → Prop
  | .kill _ => False
  | .step t => t ≠ t₀ → ∀ u, u ≠ t₀ → Active s u → u = t

instance [Fintype ι] (t₀ : ι) (s : State Services ι (World ι) Session Reply) :
    DecidablePred (InTurn t₀ s)
  | .kill _ => isFalse id
  | .step _ => inferInstanceAs (Decidable (_ → ∀ _, _))

/-- What request `t` is going to write to the cart beyond the entry it replaces and the count it adds. -/
def surplus (request : ι → Request) (user n : ℕ) (s : State Services ι (World ι) Session Reply)
    (t : ι) : ℤ :=
  match writing user n s t with
  | some (field, value) => value - (request t).asked - (s.world.carts user).entry field
  | none => 0

/-- The entry that request `t` has read and is about to write back, if it is one of these fields. -/
def broughtBack (user n : ℕ) (fields : List Str) (s : State Services ι (World ι) Session Reply)
    (t : ι) : ℤ :=
  match writing user n s t with
  | some (field, _) => if field ∈ fields then (s.world.carts user).entry field else 0
  | none => 0

/-- The quantity in an order that is about to be committed. -/
def held (t₀ : ι) (n : ℕ) (s : State Services ι (World ι) Session Reply) : ℤ :=
  if committing s t₀ then takenCount n (s.world.log t₀) else 0

variable [Fintype ι]

/-- If the move is about to delete from the cart, then it deletes, of product `n`, what the checkout has
taken and what additions are about to bring back. -/
def TakesAll (user n : ℕ) (s : State Services ι (World ι) Session Reply) : Move ι → Prop
  | .kill _ => True
  | .step t =>
    match (s.prog t).next? with
    | some (.hdel _ fields) =>
      takenCount n (s.world.log t) + ∑ u, broughtBack user n fields s u =
        (s.world.carts user).total (spells n) - Cart.total (spells n) ((s.world.carts user).hdel fields)
    | _ => True

instance (user n : ℕ) (s : State Services ι (World ι) Session Reply) :
    DecidablePred (TakesAll user n s)
  | .kill _ => isTrue trivial
  | .step t => by
    show Decidable (match (s.prog t).next? with
      | some (.hdel _ fields) => _
      | _ => True)
    rcases (s.prog t).next? with - | c
    · infer_instance
    · rcases c <;> infer_instance

theorem takesAll_hdel_iff {user user' n : ℕ} {fields : List Str} {t : ι}
    {s : State Services ι (World ι) Session Reply} (hc : (s.prog t).next? = some (.hdel user' fields)) :
    TakesAll user n s (.step t) ↔
      takenCount n (s.world.log t) + ∑ u, broughtBack user n fields s u =
        (s.world.carts user).total (spells n) -
          Cart.total (spells n) ((s.world.carts user).hdel fields) := by
  show (match (s.prog t).next? with
    | some (.hdel _ fields) => _
    | _ => True) ↔ _
  rw [hc]

theorem takesAll_of_next {user n : ℕ} {t : ι} {s : State Services ι (World ι) Session Reply}
    (hc : ∀ user fields, (s.prog t).next? ≠ some (.hdel user fields)) :
    TakesAll user n s (.step t) := by
  show (match (s.prog t).next? with
    | some (.hdel _ fields) => _
    | _ => True)
  split
  · rename_i hnext
    exact absurd hnext (hc _ _)
  · trivial

/-- The balance of product `n`: what is in the cart, what has been ordered and what is about to be, and
what additions are going to write too much, less what has been added. -/
def balance (request : ι → Request) (t₀ : ι) (user n : ℕ)
    (s : State Services ι (World ι) Session Reply) : ℤ :=
  (s.world.carts user).total (spells n) + s.world.db.sold n + held t₀ n s -
    (∑ t, added request user (spells n) s.world t) + ∑ t, surplus request user n s t

/-! ### One move -/

/-- What is known at every point of a run in turn: the paths of its requests, that one addition at most is
active, and, before the checkout deletes from the cart, that what an addition is about to write is the
entry with its count. -/
structure Orderly (request : ι → Request) (t₀ : ι) (user n : ℕ)
    (s : State Services ι (World ι) Session Reply) : Prop where
  commitPath : CommitPath t₀ (s.world.log t₀) (s.prog t₀)
  addPath : ∀ t req, request t = .cartAdd req → AddPath t req (s.world.log t) (s.prog t)
  single : ∀ t u, t ≠ t₀ → u ≠ t₀ → Active s t → Active s u → t = u
  current : NoHdel (s.world.log t₀) → ∀ t field value, writing user n s t = some (field, value) →
    value = (request t).asked + (s.world.carts user).entry field

section Step

variable {request : ι → Request} {t₀ t : ι} {user n : ℕ}
  {s s' : State Services ι (World ι) Session Reply} {c : Cmd} {r : c.Resp}

omit [Fintype ι] in
/-- Who is about to write a cart is an addition that has read the entry. -/
theorem Orderly.writing_cases (ho : Orderly request t₀ user n s) (hrequest : OneCheckout request t₀ user)
    {field : Str} {value : ℤ} (h : writing user n s t = some (field, value)) :
    t ≠ t₀ ∧ Active s t ∧ ∃ x count,
      s.world.log t = [⟨t, .hget user field, count⟩, ⟨t, .skuGet field, .ok x⟩] ∧
      value = (request t).asked + count.getD 0 := by
  obtain ⟨hnext, -⟩ := writing_eq_some_iff.1 h
  have ht : t ≠ t₀ := by
    rintro rfl
    exact ho.commitPath.noHset _ _ _ hnext
  obtain ⟨req, hreq⟩ := hrequest.adds t ht
  obtain ⟨x, count, hlog, -, hvalue⟩ := (ho.addPath t req hreq).writes _ _ _ hnext
  refine ⟨ht, ⟨by rw [hlog]; rfl, by rw [hnext]; rfl⟩, x, count, hlog, ?_⟩
  rw [hvalue, hreq]

omit [Fintype ι] [DecidableEq ι] in
/-- If the entry is what is expected, nothing is written too much. -/
theorem surplus_eq_zero (h : ∀ field value, writing user n s t = some (field, value) →
    value = (request t).asked + (s.world.carts user).entry field) : surplus request user n s t = 0 := by
  unfold surplus
  split
  · rename_i field value hwriting
    have hvalue := h field value hwriting
    omega
  · rfl

omit [Fintype ι] [DecidableEq ι] in
theorem surplus_congr (hwriting : writing user n s' t = writing user n s t)
    (hcart : s'.world.carts user = s.world.carts user) :
    surplus request user n s' t = surplus request user n s t := by
  rw [surplus, surplus, hwriting, hcart]

omit [Fintype ι] in
/-- Between the deletion and the commit an order is held. -/
theorem held_of_carrying (h : NoHdel (s.world.log t₀)) : held t₀ n s = 0 := by
  have hnot : committing s t₀ = false := by
    refine Bool.eq_false_iff.2 fun hcommitting ↦ ?_
    exact noHdel_of_clears (Bool.and_eq_true_iff.1 hcommitting).2 h
  rw [held, hnot]
  rfl

omit [Fintype ι] in
theorem held_of_next (h : (s.prog t₀).next? ≠ some .commit) : held t₀ n s = 0 := by
  have hnot : committing s t₀ = false := by
    refine Bool.eq_false_iff.2 fun hcommitting ↦ h ?_
    exact of_decide_eq_true (Bool.and_eq_true_iff.1 hcommitting).1
  rw [held, hnot]
  rfl

omit [Fintype ι] in
theorem held_congr (hlog : s'.world.log t₀ = s.world.log t₀) (hprog : s'.prog t₀ = s.prog t₀) :
    held t₀ n s' = held t₀ n s := by
  rw [held, held, committing, committing, hlog, hprog]

omit [Fintype ι] in
/-- What another request does not do to a request. -/
theorem active_of_other (hn : (site ι).next s (.step t) = some s')
    (hhistory : s'.world.history = ⟨t, c, r⟩ :: s.world.history) {u : ι} (hu : u ≠ t)
    (h : Active s' u) : Active s u := by
  obtain ⟨hprog, -⟩ := (site ι).next_other hn hu
  rw [Active, World.log_cons_of_ne hu hhistory, hprog] at h
  exact h

omit [Fintype ι] in
/-- An addition that has just read an entry is about to write that entry with its count. -/
theorem current_of_read {req : HttpRequest} (hreq : request t = .cartAdd req)
    (hpath : AddPath t req (s'.world.log t) (s'.prog t))
    (hhistory : s'.world.history = ⟨t, c, r⟩ :: s.world.history)
    (hquiet : Quiet t s.world s'.world) {field : Str} {value : ℤ}
    (h : writing user n s' t = some (field, value)) :
    value = (request t).asked + (s'.world.carts user).entry field := by
  obtain ⟨hnext, -⟩ := writing_eq_some_iff.1 h
  obtain ⟨x, count, hlog, -, hvalue⟩ := hpath.writes _ _ _ hnext
  rw [World.log_cons_self hhistory] at hlog
  obtain ⟨he, -⟩ := List.cons.inj hlog
  have hplain := hquiet.plain hhistory
  rw [he] at hplain
  have hcount : count = (s.world.carts user).lookup field := hplain
  rw [hvalue, hreq, hquiet.carts, hcount]
  rfl

omit [Fintype ι] in
/-- **One step keeps a run in turn orderly.** -/
theorem Orderly.next (hrequest : OneCheckout request t₀ user) (ho : Orderly request t₀ user n s)
    (hcommit : CommitPath t₀ (s'.world.log t₀) (s'.prog t₀))
    (hadd : ∀ t req, request t = .cartAdd req → AddPath t req (s'.world.log t) (s'.prog t))
    (hturn : InTurn t₀ s (.step t)) (hn : (site ι).next s (.step t) = some s')
    (heffect : Effect request (fun _ _ ↦ True) t s.world s'.world) :
    Orderly request t₀ user n s' := by
  obtain ⟨c, r, l, -, -, hhistory⟩ := next_step_history hn
  have hother : ∀ u, u ≠ t → Active s' u → Active s u := fun u ↦ active_of_other hn hhistory
  -- after a step of an addition nobody else is active
  have hself : t ≠ t₀ → ∀ u, u ≠ t₀ → Active s' u → u = t := by
    intro ht u hu hactive
    by_contra hne
    exact hne (hturn ht u hu (hother u hne hactive))
  refine ⟨hcommit, hadd, fun u v hu hv hactiveU hactiveV ↦ ?_, fun hnone u field value hwriting ↦ ?_⟩
  · by_cases ht : t = t₀
    · subst ht
      exact ho.single u v hu hv (hother u hu hactiveU) (hother v hv hactiveV)
    · exact (hself ht u hu hactiveU).trans (hself ht v hv hactiveV).symm
  · obtain ⟨hnext, -⟩ := writing_eq_some_iff.1 hwriting
    have hu : u ≠ t₀ := by
      rintro rfl
      exact hcommit.noHset _ _ _ hnext
    by_cases ht : t = t₀
    · subst ht
      have hnone' : NoHdel (s.world.log t) := by
        rw [World.log_cons_self hhistory] at hnone
        exact (noHdel_cons_iff.1 hnone).2
      -- the checkout has moved: the addition still waits, and the entry has stayed
      obtain ⟨hprog, -⟩ := (site ι).next_other hn hu
      have hvalue := ho.current hnone' u field value (writing_congr hprog ▸ hwriting)
      obtain ⟨now, req, hreq, -⟩ := hrequest.commit
      obtain hquiet | ⟨c', -, -, -, -, hevent⟩ | ⟨receipt, hplaced⟩ := heffect.commit_cases hreq
      · rw [hquiet.carts]
        exact hvalue
      · rw [World.log_cons_self hevent] at hnone
        exact absurd rfl ((noHdel_cons_iff.1 hnone).1 _ _)
      · rw [hplaced.carts]
        exact hvalue
    · obtain ⟨req, hreq⟩ := hrequest.adds u hu
      obtain ⟨x, count, hlog, -⟩ := (hadd u req hreq).writes _ _ _ hnext
      have hactive : Active s' u := ⟨by rw [hlog]; rfl, by rw [hnext]; rfl⟩
      -- the addition has moved itself: it has just read the entry
      obtain rfl := hself ht u hu hactive
      obtain hquiet | ⟨user', field', value', -, -, hevent⟩ := heffect.cartAdd_cases hreq
      · exact current_of_read hreq (hadd u req hreq) hhistory hquiet hwriting
      · rw [World.log_cons_self hevent] at hlog
        cases (List.cons.inj hlog).1

/-- A step of an addition that writes no cart keeps the balance. -/
theorem balance_of_read {req : HttpRequest} (hreq : request t = .cartAdd req) (ht : t ≠ t₀)
    (ho' : Orderly request t₀ user n s') (hn : (site ι).next s (.step t) = some s')
    (hc : (s.prog t).next? = some c) (hhistory : s'.world.history = ⟨t, c, r⟩ :: s.world.history)
    (hquiet : Quiet t s.world s'.world) (hwrites : c.writesCart = false) :
    balance request t₀ user n s' = balance request t₀ user n s := by
  have hsets : c.sets user (spells n) = false := by
    cases c with
    | hset => cases hwrites
    | _ => rfl
  have hadded : ∑ u, added request user (spells n) s'.world u =
      ∑ u, added request user (spells n) s.world u :=
    Finset.sum_congr rfl fun u _ ↦ added_of_not_sets hhistory hsets u
  have hsurplus : ∑ u, surplus request user n s' u = ∑ u, surplus request user n s u := by
    refine Finset.sum_congr rfl fun u _ ↦ ?_
    rcases eq_or_ne u t with rfl | hu
    · rw [surplus_eq_zero fun field value h ↦
          current_of_read hreq (ho'.addPath u req hreq) hhistory hquiet h,
        surplus_eq_zero fun field value h ↦ ?_]
      obtain ⟨hnext, -⟩ := writing_eq_some_iff.1 h
      obtain rfl := Option.some.inj (hc.symm.trans hnext)
      cases hwrites
    · obtain ⟨hprog, -⟩ := (site ι).next_other hn hu
      exact surplus_congr (writing_congr hprog) (by rw [hquiet.carts])
  obtain ⟨hprog, -⟩ := (site ι).next_other hn ht.symm
  rw [balance, balance, hadded, hsurplus, hquiet.carts, hquiet.db,
    held_congr (World.log_cons_of_ne ht.symm hhistory) hprog]

/-- The write of an addition keeps the balance: what it writes too much was counted before. -/
theorem balance_of_hset {req : HttpRequest} (hreq : request t = .cartAdd req) (ht : t ≠ t₀)
    (hrequest : OneCheckout request t₀ user) (ho : Orderly request t₀ user n s)
    (ho' : Orderly request t₀ user n s') (hturn : InTurn t₀ s (.step t))
    (hn : (site ι).next s (.step t) = some s') {user' : ℕ} {field : Str} {value : ℤ}
    (hc : (s.prog t).next? = some (.hset user' field value)) (hdb : s'.world.db = s.world.db)
    (hcarts : s'.world.carts = Function.update s.world.carts user'
      ((s.world.carts user').insert field value))
    (hhistory : s'.world.history = ⟨t, .hset user' field value, ()⟩ :: s.world.history) :
    balance request t₀ user n s' = balance request t₀ user n s := by
  obtain ⟨x, count, hlog, -, hvalue⟩ := (ho.addPath t req hreq).writes _ _ _ hc
  -- nobody else is about to write, before and after
  have hnobody : ∀ u, u ≠ t → surplus request user n s u = 0 ∧ surplus request user n s' u = 0 := by
    intro u hu
    have hnone : writing user n s u = none := by
      rcases hwriting : writing user n s u with - | ⟨field', value'⟩
      · rfl
      · obtain ⟨hu₀, hactive, -⟩ := ho.writing_cases hrequest hwriting
        exact absurd (hturn ht u hu₀ hactive) hu
    obtain ⟨hprog, -⟩ := (site ι).next_other hn hu
    have hnone' : writing user n s' u = none := (writing_congr hprog).trans hnone
    exact ⟨by rw [surplus, hnone], by rw [surplus, hnone']⟩
  -- its own write is over
  have hdone : surplus request user n s' t = 0 := by
    refine surplus_eq_zero fun field' value' hwriting ↦ ?_
    obtain ⟨-, -, x', count', hlog', -⟩ := ho'.writing_cases hrequest hwriting
    rw [World.log_cons_self hhistory] at hlog'
    cases (List.cons.inj hlog').1
  have hsum' : ∑ u, surplus request user n s' u = 0 := by
    refine Finset.sum_eq_zero fun u _ ↦ ?_
    rcases eq_or_ne u t with rfl | hu
    · exact hdone
    · exact (hnobody u hu).2
  have hsum : ∑ u, surplus request user n s u = surplus request user n s t :=
    Finset.sum_eq_single t (fun u _ hu ↦ (hnobody u hu).1) fun h ↦ absurd (Finset.mem_univ t) h
  obtain ⟨hprog, -⟩ := (site ι).next_other hn ht.symm
  have hheld : held t₀ n s' = held t₀ n s :=
    held_congr (World.log_cons_of_ne ht.symm hhistory) hprog
  rw [balance, balance, hsum', hsum, hheld, hdb]
  by_cases hwanted : user' = user ∧ spells n field = true
  · -- an entry of the product
    obtain ⟨rfl, hspells⟩ := hwanted
    have hsets : (Cmd.hset user' field value).sets user' (spells n) = true := by
      simp [Cmd.sets, hspells]
    have hnone : (s.world.log t).any (Event.sets user' (spells n)) = false := by
      rw [hlog]
      rfl
    have hadded := sum_added_of_sets request hhistory hsets hnone
    have htotal : (s'.world.carts user').total (spells n) =
        (s.world.carts user').total (spells n) + (value - (s.world.carts user').entry field) := by
      rw [hcarts, Function.update_self, Cart.total_insert, if_pos hspells]
    have hwriting : writing user' n s t = some (field, value) := writing_eq_some_iff.2 ⟨hc, hspells⟩
    have hsurplus : surplus request user' n s t =
        value - (request t).asked - (s.world.carts user').entry field := by
      rw [surplus, hwriting]
    omega
  · -- another entry, which the balance does not count
    have hsets : (Cmd.hset user' field value).sets user (spells n) = false := by
      simpa [Cmd.sets] using hwanted
    have hadded : ∑ u, added request user (spells n) s'.world u =
        ∑ u, added request user (spells n) s.world u :=
      Finset.sum_congr rfl fun u _ ↦ added_of_not_sets hhistory hsets u
    have htotal : (s'.world.carts user).total (spells n) = (s.world.carts user).total (spells n) := by
      rw [hcarts]
      rcases eq_or_ne user user' with rfl | huser
      · have hspells : ¬ spells n field = true := fun h ↦ hwanted ⟨rfl, h⟩
        rw [Function.update_self, Cart.total_insert, if_neg hspells, add_zero]
      · rw [Function.update_of_ne huser]
    have hsurplus : surplus request user n s t = 0 := by
      refine surplus_eq_zero fun field' value' hwriting ↦ ?_
      obtain ⟨hnext, hspells⟩ := writing_eq_some_iff.1 hwriting
      obtain ⟨rfl, rfl, rfl⟩ := Cmd.hset.inj (Option.some.inj (hc.symm.trans hnext))
      exact absurd ⟨rfl, hspells⟩ hwanted
    omega

omit [Fintype ι] in
/-- The checkout writes no entry. -/
theorem Orderly.writing_checkout (ho : Orderly request t₀ user n s) : writing user n s t₀ = none := by
  rcases hwriting : writing user n s t₀ with - | ⟨field, value⟩
  · rfl
  · exact absurd (writing_eq_some_iff.1 hwriting).1 (ho.commitPath.noHset _ _ _)

/-- Steps of the checkout that leave the cart leave what additions are going to write too much. -/
theorem sum_surplus_of_checkout (ho : Orderly request t₀ user n s) (ho' : Orderly request t₀ user n s')
    (hn : (site ι).next s (.step t₀) = some s') (hcarts : s'.world.carts = s.world.carts) :
    ∑ u, surplus request user n s' u = ∑ u, surplus request user n s u := by
  refine Finset.sum_congr rfl fun u _ ↦ ?_
  refine surplus_congr ?_ (by rw [hcarts])
  rcases eq_or_ne u t₀ with rfl | hu
  · rw [ho.writing_checkout, ho'.writing_checkout]
  · exact writing_congr ((site ι).next_other hn hu).1

theorem sum_added_of_checkout (request : ι → Request) (user n : ℕ)
    (hhistory : s'.world.history = ⟨t₀, c, r⟩ :: s.world.history)
    (hc : ∀ user field value, c ≠ .hset user field value) :
    ∑ u, added request user (spells n) s'.world u = ∑ u, added request user (spells n) s.world u := by
  refine Finset.sum_congr rfl fun u _ ↦ added_of_not_sets hhistory ?_ u
  cases c with
  | hset => exact absurd rfl (hc _ _ _)
  | _ => rfl

/-- A step of the checkout that changes neither tables nor carts keeps the balance. -/
theorem balance_of_checkout (ho : Orderly request t₀ user n s) (ho' : Orderly request t₀ user n s')
    (hn : (site ι).next s (.step t₀) = some s') (hc : (s.prog t₀).next? = some c)
    (hhistory : s'.world.history = ⟨t₀, c, r⟩ :: s.world.history)
    (hquiet : Quiet t₀ s.world s'.world) :
    balance request t₀ user n s' = balance request t₀ user n s ∧ c.writesCart = false := by
  obtain ⟨hwrites, hnot, hnot'⟩ := not_committing_of_quiet hc hhistory hquiet ho'.commitPath
  have hheld : held t₀ n s = 0 := by
    rw [held, hnot]
    rfl
  have hheld' : held t₀ n s' = 0 := by
    rw [held, hnot']
    rfl
  have hadded := sum_added_of_checkout request user n hhistory
    fun user field value heq ↦ by
      rw [heq] at hwrites
      cases hwrites
  rw [balance, balance, hheld, hheld', hadded, sum_surplus_of_checkout ho ho' hn hquiet.carts,
    hquiet.carts, hquiet.db]
  exact ⟨rfl, hwrites⟩

/-- The commit keeps the balance: what was held is ordered. -/
theorem balance_of_placed {receipt : Receipt} (ho : Orderly request t₀ user n s)
    (ho' : Orderly request t₀ user n s') (hn : (site ι).next s (.step t₀) = some s')
    (hplaced : Placed request (fun _ _ ↦ True) t₀ receipt s.world s'.world) :
    balance request t₀ user n s' = balance request t₀ user n s := by
  have hheld : held t₀ n s = pickedCount receipt.picks n := by
    obtain ⟨-, hcommitting⟩ := committing_of_placed (m := .step t₀) hn hplaced
    have hcommitting : committing s t₀ = true := hcommitting
    rw [held, if_pos hcommitting, hplaced.of.takenCount_eq]
  have hheld' : held t₀ n s' = 0 := by
    have hpath := ho'.commitPath
    rw [World.log_cons_self hplaced.history] at hpath
    obtain ⟨reply, hreply, -⟩ := hpath.of_commit fun hnone ↦ hnone _ hplaced.of.hdel _ _ rfl
    exact held_of_next (by rw [Program.result?_eq_some_iff.1 hreply]; simp [Program.next?])
  have hadded := sum_added_of_checkout request user n hplaced.history
    fun _ _ _ ↦ by simp
  rw [balance, balance, hheld, hheld', hadded, sum_surplus_of_checkout ho ho' hn hplaced.carts,
    hplaced.carts, hplaced.sold]
  omega

/-- **The deletion keeps the balance exactly if it takes all**: it loses what it deletes, and gains the
order that is held from now on and what additions bring back. -/
theorem balance_of_hdel (hrequest : OneCheckout request t₀ user) (ho : Orderly request t₀ user n s)
    (ho' : Orderly request t₀ user n s') (hn : (site ι).next s (.step t₀) = some s') {fields : List Str}
    (hc : (s.prog t₀).next? = some (.hdel user fields)) (hdb : s'.world.db = s.world.db)
    (hcarts : s'.world.carts = Function.update s.world.carts user ((s.world.carts user).hdel fields))
    (hhistory : s'.world.history = ⟨t₀, .hdel user fields, ()⟩ :: s.world.history) :
    NoHdel (s.world.log t₀) ∧ (balance request t₀ user n s' = balance request t₀ user n s ↔
      TakesAll user n s (.step t₀)) := by
  have hlog := World.log_cons_self hhistory
  have hpath := ho'.commitPath
  rw [hlog] at hpath
  obtain ⟨hnone, hnext⟩ := hpath.of_hdel
  refine ⟨hnone, ?_⟩
  have hheld : held t₀ n s = 0 := held_of_carrying hnone
  have hheld' : held t₀ n s' = takenCount n (s.world.log t₀) := by
    have hcommitting : committing s' t₀ = true := by
      show (decide ((s'.prog t₀).next? = some .commit) && (s'.world.log t₀).any Event.clears) = true
      rw [hnext, hlog]
      rfl
    rw [held, if_pos hcommitting, hlog, takenCount, takenItems_cons_of_none rfl, takenCount]
  have hadded := sum_added_of_checkout request user n hhistory
    fun _ _ _ ↦ by simp
  have hcart : s'.world.carts user = (s.world.carts user).hdel fields := by
    rw [hcarts, Function.update_self]
  have hsurplus : ∑ u, surplus request user n s u = 0 :=
    Finset.sum_eq_zero fun u _ ↦ surplus_eq_zero (ho.current hnone u)
  -- an entry that is gone now is brought back in full
  have hsurplus' : ∑ u, surplus request user n s' u = ∑ u, broughtBack user n fields s u := by
    refine Finset.sum_congr rfl fun u _ ↦ ?_
    have hwriting : writing user n s' u = writing user n s u := by
      rcases eq_or_ne u t₀ with rfl | hu
      · rw [ho.writing_checkout, ho'.writing_checkout]
      · exact writing_congr ((site ι).next_other hn hu).1
    rcases hx : writing user n s u with - | ⟨field, value⟩
    · rw [surplus, hwriting, broughtBack, hx]
    · have hvalue := ho.current hnone u field value hx
      have hentry := Cart.entry_hdel (s.world.carts user) fields field
      simp only [surplus, hwriting, broughtBack, hx, hcart]
      split at hentry
      · rename_i hmem
        rw [if_pos hmem]
        omega
      · rename_i hmem
        rw [if_neg hmem]
        omega
  rw [takesAll_hdel_iff hc, balance, balance, hheld, hheld', hadded, hsurplus, hsurplus', hcart, hdb]
  constructor
  · intro heq
    omega
  · intro heq
    omega

/-- **One step and the balance**: it is kept, unless the step deletes from the cart, before any deletion,
and does not take all. -/
theorem balance_step (hrequest : OneCheckout request t₀ user) (ho : Orderly request t₀ user n s)
    (ho' : Orderly request t₀ user n s') (hturn : InTurn t₀ s (.step t))
    (hn : (site ι).next s (.step t) = some s')
    (heffect : Effect request (fun _ _ ↦ True) t s.world s'.world) :
    (balance request t₀ user n s' = balance request t₀ user n s ∧ TakesAll user n s (.step t)) ∨
      (NoHdel (s.world.log t₀) ∧ ¬ NoHdel (s'.world.log t₀) ∧
        (balance request t₀ user n s' = balance request t₀ user n s ↔ TakesAll user n s (.step t))) := by
  obtain ⟨c, r, l, hc, -, hhistory⟩ := next_step_history hn
  have htakes : c.writesCart = false → TakesAll user n s (.step t) := by
    refine fun hwrites ↦ takesAll_of_next fun user' fields hnext ↦ ?_
    obtain rfl := Option.some.inj (hc.symm.trans hnext)
    cases hwrites
  by_cases ht : t = t₀
  · subst ht
    obtain ⟨now, req, hreq, huser⟩ := hrequest.commit
    obtain hquiet | ⟨c', hasks, -, hdb, hcarts, hevent⟩ | ⟨receipt, hplaced⟩ := heffect.commit_cases hreq
    · obtain ⟨hbalance, hwrites⟩ := balance_of_checkout ho ho' hn hc hhistory hquiet
      exact .inl ⟨hbalance, htakes hwrites⟩
    · obtain rfl := Option.some.inj (huser.symm.trans hasks.user)
      obtain ⟨he, -⟩ := List.cons.inj (hhistory.symm.trans hevent)
      cases he
      obtain ⟨hnone, hiff⟩ := balance_of_hdel hrequest ho ho' hn hc hdb hcarts hhistory
      refine .inr ⟨hnone, fun hnone' ↦ ?_, hiff⟩
      rw [World.log_cons_self hhistory] at hnone'
      exact (noHdel_cons_iff.1 hnone').1 _ _ rfl
    · obtain ⟨he, -⟩ := List.cons.inj (hhistory.symm.trans hplaced.history)
      cases he
      exact .inl ⟨balance_of_placed ho ho' hn hplaced, htakes rfl⟩
  · obtain ⟨req, hreq⟩ := hrequest.adds t ht
    obtain hquiet | ⟨user', field, value, hdb, hcarts, hevent⟩ := heffect.cartAdd_cases hreq
    · have hwrites := (hquiet.plain hhistory).writesCart
      exact .inl ⟨balance_of_read hreq ht ho' hn hc hhistory hquiet hwrites, htakes hwrites⟩
    · obtain ⟨he, -⟩ := List.cons.inj (hhistory.symm.trans hevent)
      cases he
      refine .inl ⟨balance_of_hset hreq ht hrequest ho ho' hturn hn hc hdb hcarts hhistory, ?_⟩
      refine takesAll_of_next fun user'' fields hnext ↦ ?_
      cases hc.symm.trans hnext

end Step

/-! ### The run -/

section Run

variable {request : ι → Request} {t₀ : ι} {user n : ℕ} {db : Db} {carts : ℕ → Cart}
  {gateway : ℕ → Answer} {s s' : State Services ι (World ι) Session Reply}

omit [Fintype ι] in
theorem not_inTurn_kill (t : ι) (s : State Services ι (World ι) Session Reply) :
    ¬ InTurn t₀ s (.kill t) := id

omit [Fintype ι] in
theorem commitPath_inTurn (hrequest : OneCheckout request t₀ user)
    (hs : (site ι).Reach (InTurn t₀) (start db carts gateway request) s) :
    CommitPath t₀ (s.world.log t₀) (s.prog t₀) := by
  obtain ⟨now, req, hreq, -⟩ := hrequest.commit
  exact Throughout.of_reach site_logs (not_inTurn_kill t₀) (throughout_handler hreq) hs

omit [Fintype ι] in
theorem addPath_inTurn {t : ι} {req : HttpRequest} (hreq : request t = .cartAdd req)
    (hs : (site ι).Reach (InTurn t₀) (start db carts gateway request) s) :
    AddPath t req (s.world.log t) (s.prog t) :=
  addPath_of_reach (not_inTurn_kill t) hreq hs

omit [Fintype ι] in
theorem effect_inTurn {t : ι} (hlinked : db.Linked)
    (hs : (site ι).Reach (InTurn t₀) (start db carts gateway request) s)
    (hn : (site ι).next s (.step t) = some s') :
    Effect request (fun _ _ ↦ True) t s.world s'.world :=
  (promise_of_reach (noDiscipline request) hlinked trivial (hs.mono fun _ _ _ ↦ trivial) hn).effect

omit [Fintype ι] in
theorem orderly_of_reach (hrequest : OneCheckout request t₀ user) (hlinked : db.Linked)
    (hs : (site ι).Reach (InTurn t₀) (start db carts gateway request) s) :
    Orderly request t₀ user n s := by
  induction hs with
  | refl =>
    have hstart : (site ι).Reach (InTurn t₀) (start db carts gateway request)
      (start db carts gateway request) := .refl
    have hcommit := commitPath_inTurn hrequest hstart
    refine ⟨hcommit, fun t req hreq ↦ addPath_inTurn hreq hstart, fun t u _ _ ht ↦ ?_,
      fun _ t field value hwriting ↦ ?_⟩
    · cases ht.1
    · obtain ⟨hnext, -⟩ := writing_eq_some_iff.1 hwriting
      have ht : t ≠ t₀ := by
        rintro rfl
        exact hcommit.noHset _ _ _ hnext
      obtain ⟨req, hreq⟩ := hrequest.adds t ht
      obtain ⟨x, count, hlog, -⟩ := (addPath_inTurn hreq hstart).writes _ _ _ hnext
      cases hlog
  | @move s s' m hs hm hn ih =>
    cases m with
    | kill t => exact absurd hm (not_inTurn_kill t s)
    | step t =>
      have hs' := hs.move hm hn
      exact ih.next hrequest (commitPath_inTurn hrequest hs') (fun t req hreq ↦ addPath_inTurn hreq hs')
        hm hn (effect_inTurn hlinked hs hn)

/-- Up to the deletion the balance is what it was at the start. -/
theorem balance_of_reach (hrequest : OneCheckout request t₀ user) (hlinked : db.Linked)
    (hs : (site ι).Reach (InTurn t₀) (start db carts gateway request) s)
    (hnone : NoHdel (s.world.log t₀)) :
    balance request t₀ user n s = balance request t₀ user n (start db carts gateway request) := by
  induction hs with
  | refl => rfl
  | @move s s' m hs hm hn ih =>
    cases m with
    | kill t => exact absurd hm (not_inTurn_kill t s)
    | step t =>
      have ho := orderly_of_reach (n := n) hrequest hlinked hs
      have ho' := orderly_of_reach (n := n) hrequest hlinked (hs.move hm hn)
      obtain ⟨hsame, -⟩ | ⟨-, hcleared, -⟩ :=
        balance_step hrequest ho ho' hm hn (effect_inTurn hlinked hs hn)
      · -- nothing had been deleted before either
        obtain ⟨c, r, l, -, -, hhistory⟩ := next_step_history hn
        have hsuffix : s.world.log t₀ <:+ s'.world.log t₀ :=
          World.log_suffix (hhistory ▸ List.suffix_cons _ _)
        exact hsame.trans (ih (hnone.of_suffix hsuffix))
      · exact absurd hnone hcleared

theorem balance_start (hrequest : OneCheckout request t₀ user) (hlinked : db.Linked) :
    balance request t₀ user n (start db carts gateway request) =
      (carts user).total (spells n) + db.sold n := by
  have ho : Orderly request t₀ user n (start db carts gateway request) :=
    orderly_of_reach hrequest hlinked .refl
  have hadded : ∑ t, added request user (spells n) (start db carts gateway request).world t = 0 :=
    Finset.sum_eq_zero fun t _ ↦ rfl
  have hsurplus : ∑ t, surplus request user n (start db carts gateway request) t = 0 :=
    Finset.sum_eq_zero fun t _ ↦ surplus_eq_zero (ho.current noHdel_nil t)
  have hheld : held t₀ n (start db carts gateway request) = 0 := held_of_carrying noHdel_nil
  rw [balance, hadded, hsurplus, hheld, sub_zero, add_zero, add_zero]
  rfl

/-- When all have finished, nothing is held back and nobody is about to write. -/
theorem balance_of_done (hrequest : OneCheckout request t₀ user)
    (hs : (site ι).Reach (InTurn t₀) (start db carts gateway request) s)
    (hdone : ∀ t, ((s.prog t).result?).isSome = true) :
    balance request t₀ user n s = (s.world.carts user).total (spells n) + s.world.db.sold n -
      acceptedCount request user (spells n) s := by
  have hnext : ∀ t, (s.prog t).next? = none := by
    intro t
    obtain ⟨reply, hreply⟩ := Option.isSome_iff_exists.1 (hdone t)
    rw [Program.result?_eq_some_iff.1 hreply]
    rfl
  have haccepted : ∑ t, added request user (spells n) s.world t =
      acceptedCount request user (spells n) s := by
    refine Finset.sum_congr rfl fun t _ ↦ ?_
    by_cases ht : t = t₀
    · obtain ⟨now, req, hreq, -⟩ := hrequest.commit
      rw [ht, added, hreq]
      simp [Request.asked]
    · obtain ⟨req, hreq⟩ := hrequest.adds t ht
      exact (addPath_inTurn hreq hs).added_eq hreq (hdone t)
  have hsurplus : ∑ t, surplus request user n s t = 0 := by
    refine Finset.sum_eq_zero fun t _ ↦ surplus_eq_zero fun field value hwriting ↦ ?_
    cases (hnext t).symm.trans (writing_eq_some_iff.1 hwriting).1
  rw [balance, haccepted, hsurplus, held_of_next (by rw [hnext]; simp)]
  omega

end Run

/-- **Additions during a checkout, exactly.** One checkout, and additions that follow one another, in any
interleaving of their commands. When all have finished, then for product `n` the cart of the start and the
accepted additions are what is left in the cart and what the committed lines hold more, if and only if the
deletion of the checkout, should it get there, took all. -/
theorem adds_survive_iff {request : ι → Request} {t₀ : ι} {user : ℕ}
    (hrequest : OneCheckout request t₀ user) {db : Db} (hlinked : db.Linked) {carts : ℕ → Cart}
    {gateway : ℕ → Answer} {ms : List (Move ι)} {s : State Services ι (World ι) Session Reply}
    (hturn : (site ι).AllMoves (fun s m _ ↦ InTurn t₀ s m) ms (start db carts gateway request))
    (hrun : (site ι).perform (start db carts gateway request) ms = some s)
    (hdone : ∀ t, ((s.prog t).result?).isSome = true) (n : ℕ) :
    (carts user).total (spells n) + acceptedCount request user (spells n) s =
        (s.world.carts user).total (spells n) + (s.world.db.sold n - db.sold n) ↔
      (site ι).AllMoves (fun s m _ ↦ TakesAll user n s m) ms (start db carts gateway request) := by
  let s₀ := start db carts gateway request
  -- the balance changes with the deletion only
  have hiff := Machine.last_inv_iff (InTurn t₀)
    (I := fun s ↦ balance request t₀ user n s = balance request t₀ user n s₀)
    (C := TakesAll user n) (fun s m s' hs hm hn ↦ ?_) .refl hturn hrun
  · have hbalance := balance_of_done (n := n) hrequest (Machine.reach_of_allMoves .refl hrun hturn) hdone
    have hbalance₀ : balance request t₀ user n s₀ = (carts user).total (spells n) + db.sold n :=
      balance_start hrequest hlinked
    rw [← (hiff.trans (and_iff_right rfl)), hbalance, hbalance₀]
    constructor
    · intro heq
      omega
    · intro heq
      omega
  · cases m with
    | kill t => exact absurd hm (not_inTurn_kill t s)
    | step t =>
      have ho := orderly_of_reach (n := n) hrequest hlinked hs
      have ho' := orderly_of_reach (n := n) hrequest hlinked (hs.move hm hn)
      obtain ⟨hsame, htakes⟩ | ⟨hnone, -, hstep⟩ :=
        balance_step hrequest ho ho' hm hn (effect_inTurn hlinked hs hn)
      · rw [hsame]
        exact ⟨fun h ↦ ⟨h, htakes⟩, And.left⟩
      · rw [← hstep, balance_of_reach hrequest hlinked hs hnone]
        exact ⟨fun h ↦ ⟨rfl, h⟩, And.right⟩

/-! ### A checkout and an addition -/

/-- User 7 buys the first product, and adds one piece of it to the cart. -/
def buyAndAdd : Fin 2 → Request := ![checkoutOf 7 0 "1", adding "1"]

theorem oneCheckout_buyAndAdd : OneCheckout buyAndAdd 0 7 where
  commit := ⟨_, _, rfl, rfl⟩
  adds
    | 0, h => absurd rfl h
    | 1, _ => ⟨_, rfl⟩

/-- The addition comes after the checkout. -/
theorem adds_survive_iff_after : ∃ s, (site (Fin 2)).perform
      (start smallShop (fun _ ↦ cartOf [("1", 2)]) silent buyAndAdd)
      ((.replicate 11 0 ++ .replicate 4 1 : List (Fin 2)).map .step) = some s ∧
    (s.world.carts 7).total (spells 1) = 1 ∧ s.world.db.sold 1 = 2 ∧
    (cartOf [("1", 2)]).total (spells 1) + acceptedCount buyAndAdd 7 (spells 1) s =
      (s.world.carts 7).total (spells 1) + (s.world.db.sold 1 - smallShop.sold 1) := by
  have hrun : ((site (Fin 2)).perform (start smallShop (fun _ ↦ cartOf [("1", 2)]) silent buyAndAdd)
      ((.replicate 11 0 ++ .replicate 4 1 : List (Fin 2)).map .step)).map (fun s ↦
        ((s.prog 0).result?.isSome, (s.prog 1).result?.isSome,
          (s.world.carts 7).total (spells 1), s.world.db.sold 1)) = some (true, true, 1, 2) := by rfl
  obtain ⟨s, hs, heq⟩ := Option.map_eq_some_iff.1 hrun
  obtain ⟨h₀, heq⟩ := Prod.mk.inj heq
  obtain ⟨h₁, heq⟩ := Prod.mk.inj heq
  obtain ⟨hleft, hsold⟩ := Prod.mk.inj heq
  have hdone : ∀ t, ((s.prog t).result?).isSome = true
    | 0 => h₀
    | 1 => h₁
  exact ⟨s, hs, hleft, hsold, (adds_survive_iff oneCheckout_buyAndAdd smallShop_linked (by decide) hs
    hdone 1).2 (by decide)⟩

/-- **A swallowed addition**: it comes between the answer of the cart and the deletion. -/
theorem swallowed_add : ∃ s, (site (Fin 2)).perform
      (start smallShop (fun _ ↦ cartOf [("1", 2)]) silent buyAndAdd)
      ((.replicate 6 0 ++ .replicate 4 1 ++ .replicate 5 0 : List (Fin 2)).map .step) = some s ∧
    (∀ t, (s.prog t).result?.bind Reply.res = some 5) ∧
    (cartOf [("1", 2)]).total (spells 1) + acceptedCount buyAndAdd 7 (spells 1) s ≠
      (s.world.carts 7).total (spells 1) + (s.world.db.sold 1 - smallShop.sold 1) := by
  have hrun : ((site (Fin 2)).perform (start smallShop (fun _ ↦ cartOf [("1", 2)]) silent buyAndAdd)
      ((.replicate 6 0 ++ .replicate 4 1 ++ .replicate 5 0 : List (Fin 2)).map .step)).map (fun s ↦
        ((s.prog 0).result?.bind Reply.res, (s.prog 1).result?.bind Reply.res,
          (s.world.carts 7).total (spells 1), s.world.db.sold 1,
          acceptedCount buyAndAdd 7 (spells 1) s)) = some (some 5, some 5, 0, 2, 1) := by rfl
  obtain ⟨s, hs, heq⟩ := Option.map_eq_some_iff.1 hrun
  obtain ⟨h₀, heq⟩ := Prod.mk.inj heq
  obtain ⟨h₁, heq⟩ := Prod.mk.inj heq
  obtain ⟨hleft, heq⟩ := Prod.mk.inj heq
  obtain ⟨hsold, haccepted⟩ := Prod.mk.inj heq
  have hreplies : ∀ t, (s.prog t).result?.bind Reply.res = some 5
    | 0 => h₀
    | 1 => h₁
  refine ⟨s, hs, hreplies, ?_⟩
  rw [hleft, hsold, haccepted]
  decide

end DailyFresh
