import DailyFresh.Results.Isolation

/-!
# Reading a cart that does not change

The cart page and the order page read a user's cart entry by entry. While the requests that move leave that
cart alone (`Request.LeavesCart`), what they read is the cart (`reads_of_reach`): `throughout_cartInfo` and
`throughout_place` say what the pages then show. A request that only looks sends its commands outside any
transaction, so none of them is refused; and no product that was there disappears.
-/

namespace DailyFresh

open Python Store Interleave Program

variable {ι : Type}

/-! ### Changes of a cart -/

/-- What the command does to the cart of this user. -/
def Cmd.onCart (user : ℕ) : Cmd → Option (Cart → Cart)
  | hset user' field value => if user' = user then some fun cart ↦ cart.insert field value else none
  | hdel user' fields => if user' = user then some fun cart ↦ cart.hdel fields else none
  | _ => none

/-- The user whose cart the request changes. -/
def Request.cartUser : Request → Option ℕ
  | commit _ request => request.user
  | cartAdd request => request.user
  | cartUpdate request => request.user
  | cartDelete request => request.user
  | _ => none

/-- The request does not change the cart of this user. -/
def Request.LeavesCart (user : ℕ) (r : Request) : Prop := r.cartUser ≠ some user

instance decidableLeavesCart (user : ℕ) (r : Request) : Decidable (r.LeavesCart user) :=
  inferInstanceAs (Decidable (_ ≠ _))

theorem onCart_of_leavesCart {user : ℕ} {r : Request} {c : Cmd} (hr : r.LeavesCart user) (hc : r.May c) :
    c.onCart user = none := by
  cases c with
  | hset user' field value =>
    refine if_neg ?_
    rintro rfl
    obtain hlooks | hwrites := hc.kind
    · cases hlooks
    · have huses := hc.owner user' rfl
      cases r with
      | cartAdd req => exact hr huses
      | cartUpdate req => exact hr huses
      | _ => cases hwrites
  | hdel user' fields =>
    refine if_neg ?_
    rintro rfl
    obtain hlooks | hwrites := hc.kind
    · cases hlooks
    · have huses := hc.owner user' rfl
      cases r with
      | commit now req => exact hr huses
      | cartDelete req => exact hr huses
      | _ => cases hwrites
  | _ => rfl

section Commands

variable [DecidableEq ι] {t : ι} {w w' : World ι} {l l' : Session} {c : Cmd} {r : c.Resp} {user : ℕ}

/-- **What a command does to a cart.** -/
theorem exec_onCart (user : ℕ) (h : exec t w l c = some (r, w', l')) :
    w'.carts user = (c.onCart user).getD id (w.carts user) := by
  obtain ⟨-, hrefusal, rfl, rfl⟩ | ⟨-, v, hrun, rfl⟩ := exec_cases h
  · have hnone : c.onCart user = none := by
      cases c with
      | hset => cases hrefusal
      | hdel => cases hrefusal
      | _ => rfl
    rw [hnone]
    rfl
  show v.carts user = _
  cases c with
  | hset user' field value =>
    cases hrun
    rw [Cmd.onCart]
    split
    · rename_i heq
      subst heq
      exact Function.update_self ..
    · rename_i hne
      exact Function.update_of_ne (Ne.symm hne) ..
  | hdel user' fields =>
    cases hrun
    rw [Cmd.onCart]
    split
    · rename_i heq
      subst heq
      exact Function.update_self ..
    · rename_i hne
      exact Function.update_of_ne (Ne.symm hne) ..
  | hget | hlen | hvals | hgetall | lrem | lpush | ltrim | lrange =>
    cases hrun
    rfl
  | _ => exact congrFun (run_keeps_redis rfl hrun).1 user

end Commands

/-! ### What is read -/

/-- The product is in the table. -/
def World.Sells (w : World ι) (n : ℕ) : Prop := (w.db.skus n).isSome = true

/-- The answer fits this cart of the user: the products that are `known` are found, and what is found is one
of the products `found`. -/
def Event.Reads (known found : ℕ → Prop) (user : ℕ) (cart : Cart) : Event ι → Prop
  | ⟨_, .hget user' field, r⟩ => user' = user → r = cart.lookup field
  | ⟨_, .hgetall user', r⟩ => user' = user → r = cart.entries.map fun e ↦ (e.1, e.2)
  | ⟨_, .skuGet id, r⟩ => (∀ n row, r = .ok (n, row) → int id = some (n : ℤ) ∧ found n) ∧
      ∀ n : ℕ, int id = some (n : ℤ) → known n → ∃ row, r = .ok (n, row)
  | ⟨_, .addressFilter _, r⟩ => ∃ addrs, r = .ok addrs
  | _ => True

theorem Event.Reads.mono {known found found' : ℕ → Prop} {user : ℕ} {cart : Cart} {e : Event ι}
    (h : e.Reads known found user cart) (hfound : ∀ n, found n → found' n) : e.Reads known found' user cart := by
  obtain ⟨t, c, r⟩ := e
  cases c with
  | skuGet id =>
    refine ⟨fun n row hr ↦ ?_, h.2⟩
    obtain ⟨hid, hn⟩ := h.1 n row hr
    exact ⟨hid, hfound n hn⟩
  | _ => exact h

theorem reads_of_exec [DecidableEq ι] {t : ι} {w w' : World ι} {l' : Session} {c : Cmd} {r : c.Resp}
    {known found : ℕ → Prop} {user : ℕ} {cart : Cart} (hcart : w.carts user = cart)
    (hknown : ∀ n, known n → w.Sells n) (hfound : ∀ n, w.Sells n → found n)
    (h : exec t w .idle c = some (r, w', l')) : (⟨t, c, r⟩ : Event ι).Reads known found user cart := by
  obtain ⟨hbroken, -⟩ | ⟨-, v, hrun, -⟩ := exec_cases h
  · cases hbroken
  cases c with
  | hget user' field =>
    cases hrun
    rintro rfl
    rw [← hcart]
  | hgetall user' =>
    cases hrun
    rintro rfl
    rw [← hcart]
  | skuGet id =>
    have hr : r = findRow w.db.skus id := by
      have hskus : w.skus .idle = w.db.skus := rfl
      rw [run, hskus] at hrun
      exact (Prod.mk.inj (Option.some.inj hrun)).1.symm
    subst hr
    refine ⟨fun n row hfind ↦ ?_, fun n hid hn ↦ ?_⟩
    · obtain ⟨hid, hrow⟩ := findRow_eq_ok_iff.1 hfind
      exact ⟨hid, hfound n (by rw [World.Sells, hrow]; rfl)⟩
    obtain ⟨row, hrow⟩ := Option.isSome_iff_exists.1 (hknown n hn)
    exact ⟨row, findRow_eq_ok_iff.2 ⟨hid, hrow⟩⟩
  | addressFilter user' =>
    cases hrun
    exact ⟨_, rfl⟩
  | _ => trivial

/-! ### Runs -/

section Runs

variable [DecidableEq ι] {request : ι → Request} {db : Db} {carts : ℕ → Cart} {gateway : ℕ → Answer}
  {s₀ s s' : State Services ι (World ι) Session Reply} {t : ι} {user : ℕ} {m : Move ι}
  {ok : State Services ι (World ι) Session Reply → Move ι → Prop}

/-- What is about to be sent, in every state of a run. -/
theorem may_of_reach (hs : (site ι).Reach ok (start db carts gateway request) s) {c : Cmd}
    (hc : (s.prog t).next? = some c) : (request t).May c :=
  (Monitor.Sends.of_reach (P := fun t ↦ (request t).May) (fun t ↦ (sends_handler (request t)).sends) hs
    t).allowed hc

/-- A request that only looks is never in a transaction. -/
theorem idle_of_looks (hs : (site ι).Reach ok (start db carts gateway request) s)
    (hlooks : ∀ c, (request t).writes c = false) : s.loc t = .idle := by
  induction hs with
  | refl => rfl
  | @move s s' m hreach _ hn ih =>
    by_cases ht : t = m.process
    · cases m with
      | step u =>
        obtain rfl : t = u := ht
        obtain ⟨c, r, w, l, p, hc, hx, rfl⟩ := (site ι).next_step_exec hn
        have hmay := may_of_reach hreach hc
        have hlook : c.looks = true := hmay.kind.resolve_right fun hwrites ↦ by
          rw [hlooks c] at hwrites
          cases hwrites
        rw [State.put_loc_self, (exec_looks hlook hx).2, ih]
      | kill u =>
        obtain rfl : t = u := ht
        obtain ⟨-, rfl⟩ := (site ι).next_kill_cases hn
        exact State.put_loc_self ..
    · rw [((site ι).next_other hn ht).2, ih]

/-- A move takes no product away. -/
theorem known_next (hlinked : db.Linked)
    (hs : (site ι).Reach AnyMove (start db carts gateway request) s) (hn : (site ι).next s m = some s')
    {n : ℕ} (h : s.world.Sells n) : s'.world.Sells n := by
  have heffect := (promise_of_reach (noDiscipline request) hlinked trivial hs hn).effect
  rw [World.Sells] at h ⊢
  cases heffect with
  | quiet hq => rwa [hq.db]
  | hdel _ _ _ hdb => rwa [hdb]
  | hset _ _ _ _ hdb => rwa [hdb]
  | placed r hplaced =>
    obtain ⟨pending, -, hskus⟩ := hplaced.skus
    rw [hskus, Table.overlay]
    rcases pending n with - | row
    · exact h
    · rfl
  | paid _ _ _ hpaid => rwa [hpaid.saved.db]
  | finished _ _ hfinished => rwa [hfinished.saved.db]
  | commented _ _ _ hdb => rwa [hdb]
  | addressed _ _ haddressed => rwa [haddressed.db]
  | edited id edit k sku _ _ hdb =>
    rw [hdb]
    show ((s.world.db.skus.set k _) n).isSome = true
    by_cases hk : n = k
    · rw [hk, Table.set_self]
      rfl
    · rwa [Table.set_of_ne hk]
  | browsed _ _ _ hdb => rwa [hdb]

/-- Products stay. -/
theorem known_of_reach (hlinked : db.Linked)
    (hs₀ : (site ι).Reach AnyMove (start db carts gateway request) s₀) (hs : (site ι).Reach ok s₀ s) {n : ℕ}
    (hn : s₀.world.Sells n) : s.world.Sells n := by
  induction hs with
  | refl => exact hn
  | move hreach _ hmove ih =>
    exact known_next hlinked (hs₀.trans (hreach.mono fun _ _ _ ↦ trivial)) hmove ih

/-- One move of a request that leaves the cart alone. -/
theorem cart_next (hs : (site ι).Reach ok (start db carts gateway request) s)
    (hn : (site ι).next s m = some s') (hleaves : (request m.process).LeavesCart user) :
    s'.world.carts user = s.world.carts user := by
  cases m with
  | step u =>
    obtain ⟨c, r, w, l, p, hc, hx, rfl⟩ := (site ι).next_step_exec hn
    rw [State.put_world, exec_onCart user hx, onCart_of_leavesCart hleaves (may_of_reach hs hc)]
    rfl
  | kill u => rw [next_kill_world hn]; rfl

/-- **A cart that is left alone.** From a reachable state on, let only requests move that leave the user's
cart alone. It stays as it is; and what a request that only looks has been answered since fits it. -/
theorem reads_of_reach (hlinked : db.Linked)
    (hs₀ : (site ι).Reach AnyMove (start db carts gateway request) s₀)
    (hleaves : ∀ s m, ok s m → (request m.process).LeavesCart user)
    (hs : (site ι).Reach ok s₀ s) (hlooks : ∀ c, (request t).writes c = false)
    (hfresh : s₀.world.log t = []) : s.world.carts user = s₀.world.carts user ∧
      ∀ e ∈ s.world.log t, e.Reads s₀.world.Sells s.world.Sells user (s₀.world.carts user) := by
  induction hs with
  | refl => exact ⟨rfl, fun e he ↦ by rw [hfresh] at he; cases he⟩
  | @move s s' m hreach hm hn ih =>
    obtain ⟨hcart, hreads⟩ := ih
    have hs := hs₀.trans (hreach.mono fun _ _ _ ↦ trivial)
    refine ⟨(cart_next hs hn (hleaves s m hm)).trans hcart, fun e he ↦ ?_⟩
    have hstay : ∀ n, s.world.Sells n → s'.world.Sells n := fun n ↦ known_next hlinked hs hn
    cases m with
    | step u =>
      obtain ⟨c, r, l, hc, hx, hhistory⟩ := next_step_history hn
      by_cases ht : t = u
      · subst ht
        rw [World.log_cons_self hhistory] at he
        rcases List.mem_cons.1 he with rfl | he
        · rw [idle_of_looks hs hlooks] at hx
          exact reads_of_exec hcart (fun n ↦ known_of_reach hlinked hs₀ hreach) hstay hx
        · exact (hreads e he).mono hstay
      · rw [World.log_cons_of_ne ht hhistory] at he
        exact (hreads e he).mono hstay
    | kill u =>
      rw [next_kill_world hn] at he
      exact (hreads e he).mono hstay

end Runs

/-! ### The pages -/

section Pages

variable {t : ι} {known found : ℕ → Prop} {user : ℕ} {cart : Cart} {es₀ es : List (Event ι)} {req : HttpRequest}

/-- The rows of the cart page are the entries, of products that have been found. -/
def ShowsEntries (found : ℕ → Prop) (entries : List (Str × ℤ)) (skus : List ShownSKU) : Prop :=
  List.Forall₂ (fun entry sku ↦ int entry.1 = some (sku.id : ℤ) ∧ found sku.id ∧ sku.count = entry.2) entries
    skus

/-- What the loop of `CartInfoView.get` has come to. -/
def CartItemsPath (known found : ℕ → Prop) (user : ℕ) (cart : Cart) (entries : List (Str × ℤ))
    (es₀ es : List (Event ι)) (p : Program Services (Option (List ShownSKU))) : Prop :=
  es₀ <:+ es ∧ ∀ skus, p.result? = some (some skus) → (∀ e ∈ es, e.Reads known found user cart) →
    ShowsEntries found entries skus

theorem throughout_cartItems (entries : List (Str × ℤ)) (es₀ : List (Event ι)) :
    Throughout (Event.mk t) (CartItemsPath known found user cart entries es₀) (CartInfoView.showItems entries)
      es₀ := by
  induction entries generalizing es₀ with
  | nil =>
    refine ⟨List.suffix_rfl, fun skus h _ ↦ ?_⟩
    obtain rfl := Option.some.inj (Option.some.inj h)
    exact .nil
  | cons entry entries ih =>
    obtain ⟨skuId, count⟩ := entry
    show Throughout _ _ (if (skuId.all fun c ↦ c.toNat < 128) = true then _ else _) es₀
    split
    swap
    · exact ⟨List.suffix_rfl, fun _ h ↦ (by cases h)⟩
    refine ⟨⟨List.suffix_rfl, fun _ h ↦ (by cases h)⟩, fun r ↦ ?_⟩
    have hsuffix : es₀ <:+ (⟨t, .skuGet skuId, r⟩ : Event ι) :: es₀ := List.suffix_cons _ _
    rcases r with e | ⟨n, sku⟩
    · exact ⟨hsuffix, fun _ h ↦ (by cases h)⟩
    refine (ih _).bind (fun es q hq hnone ↦ ⟨hsuffix.trans hq.1, fun skus h _ ↦ ?_⟩) fun es shown hq ↦ ?_
    · cases (result?_bind_of_none hnone _).symm.trans h
    · refine ⟨hsuffix.trans hq.1, fun skus h hreads ↦ ?_⟩
      obtain ⟨rest, rfl, rfl⟩ := Option.map_eq_some_iff.1 (Option.some.inj h)
      have hfirst := hreads _ (hq.1.subset List.mem_cons_self)
      obtain ⟨hid, hfound⟩ := hfirst.1 n sku rfl
      exact .cons ⟨hid, hfound, rfl⟩ (hq.2 rest rfl hreads)

/-- What `CartInfoView.get` has come to. -/
def CartInfoPath (known found : ℕ → Prop) (user : ℕ) (cart : Cart) (es : List (Event ι))
    (p : Program Services Reply) : Prop :=
  ∀ skus totalCount totalPrice, p.result? = some (.html (.cart skus totalCount totalPrice)) →
    (∀ e ∈ es, e.Reads known found user cart) →
      ShowsEntries found (cart.entries.map fun e ↦ (e.1, e.2)) skus ∧ totalCount = (skus.map ShownSKU.count).sum

theorem throughout_cartInfo (huser : req.user = some user) :
    Throughout (Event.mk t) (CartInfoPath known found user cart) (CartInfoView.get req) [] := by
  rw [CartInfoView.get, huser]
  refine ⟨fun _ _ _ h ↦ (by cases h), fun r ↦ ?_⟩
  have hitems : Throughout (Event.mk t) (CartItemsPath known found user cart r [⟨t, .hgetall user, r⟩])
      (CartInfoView.showItems r) [⟨t, .hgetall user, r⟩] := throughout_cartItems r _
  refine hitems.bind (fun es q hq hnone ↦ ?_) fun es shown hq ↦ ?_
  · intro _ _ _ h
    cases (result?_bind_of_none hnone _).symm.trans h
  · rcases shown with - | skus
    · exact fun _ _ _ h ↦ (by cases h)
    · intro skus' totalCount totalPrice h hreads
      cases h
      have hall := hreads _ (hq.1.subset List.mem_cons_self)
      rw [← hall rfl]
      exact ⟨hq.2 skus rfl hreads, rfl⟩

/-- The items of the order page are these entries of the cart. -/
def ListsEntries (cart : Cart) (skuIds : List Str) (skus : List ShownSKU) : Prop :=
  List.Forall₂ (fun skuId sku ↦ int skuId = some (sku.id : ℤ) ∧ cart.lookup skuId = some sku.count) skuIds
    skus

/-- What the loop of `OrderPlaceView.post` has come to. -/
def PlaceItemsPath (known found : ℕ → Prop) (user : ℕ) (cart : Cart) (skuIds : List Str)
    (es₀ es : List (Event ι)) (p : Program Services (Option (List ShownSKU))) : Prop :=
  es₀ <:+ es ∧ ∀ shown, p.result? = some shown → (∀ e ∈ es, e.Reads known found user cart) →
    ∃ skus, shown = some skus ∧ ListsEntries cart skuIds skus

theorem throughout_placeItems {skuIds : List Str}
    (hids : ∀ id ∈ skuIds, (∃ n : ℕ, int id = some (n : ℤ) ∧ known n) ∧ (cart.lookup id).isSome = true)
    (es₀ : List (Event ι)) :
    Throughout (Event.mk t) (PlaceItemsPath known found user cart skuIds es₀)
      (OrderPlaceView.showItems user skuIds) es₀ := by
  induction skuIds generalizing es₀ with
  | nil =>
    refine ⟨List.suffix_rfl, fun shown h _ ↦ ?_⟩
    obtain rfl := Option.some.inj h
    exact ⟨[], rfl, .nil⟩
  | cons skuId skuIds ih =>
    obtain ⟨⟨m, hm, hknown⟩, hlookup⟩ := hids skuId List.mem_cons_self
    obtain ⟨count₀, hcount₀⟩ := Option.isSome_iff_exists.1 hlookup
    refine ⟨⟨List.suffix_rfl, fun _ h ↦ (by cases h)⟩, fun r ↦ ?_⟩
    have hsuffix : es₀ <:+ (⟨t, .skuGet skuId, r⟩ : Event ι) :: es₀ := List.suffix_cons _ _
    rcases r with e | ⟨n, sku⟩
    · -- the product was there
      refine ⟨hsuffix, fun shown _ hreads ↦ ?_⟩
      obtain ⟨row, hrow⟩ := (hreads _ List.mem_cons_self).2 m hm hknown
      cases hrow
    refine ⟨⟨hsuffix, fun _ h ↦ (by cases h)⟩, fun count ↦ ?_⟩
    have hsuffix' : es₀ <:+ (⟨t, .hget user skuId, count⟩ : Event ι) :: ⟨t, .skuGet skuId, .ok (n, sku)⟩ ::
        es₀ := hsuffix.trans (List.suffix_cons _ _)
    rcases count with - | count
    · -- the entry was there
      refine ⟨hsuffix', fun shown _ hreads ↦ ?_⟩
      have hget := hreads _ List.mem_cons_self
      cases (hget rfl).trans hcount₀
    refine (ih (fun id hid ↦ hids id (List.mem_cons_of_mem _ hid)) _).bind
      (fun es q hq hnone ↦ ⟨hsuffix'.trans hq.1, fun shown h _ ↦ ?_⟩) fun es shown hq ↦ ?_
    · cases (result?_bind_of_none hnone _).symm.trans h
    · refine ⟨hsuffix'.trans hq.1, fun shown' h hreads ↦ ?_⟩
      obtain rfl := Option.some.inj h
      obtain ⟨skus, rfl, hlists⟩ := hq.2 shown rfl hreads
      have hget := hreads _ (hq.1.subset List.mem_cons_self)
      have hsku := hreads _ (hq.1.subset (List.mem_cons_of_mem _ List.mem_cons_self))
      exact ⟨_, rfl, .cons ⟨(hsku.1 n sku rfl).1, (hget rfl).symm⟩ hlists⟩

/-- The reply of `OrderPlaceView.post` for these products. -/
def PlacesEntries (cart : Cart) (skuIds : List Str) (reply : Reply) : Prop :=
  ∃ skus addrs, ListsEntries cart skuIds skus ∧
    reply = .html (.placeOrder skus (skus.map ShownSKU.count).sum (skus.map ShownSKU.amount).sum 1000
      ((skus.map ShownSKU.amount).sum + 1000) addrs (List.intercalate [','] skuIds))

/-- What `OrderPlaceView.post` has come to. -/
def PlacePath (known found : ℕ → Prop) (user : ℕ) (cart : Cart) (skuIds : List Str) (es : List (Event ι))
    (p : Program Services Reply) : Prop :=
  ∀ reply, p.result? = some reply → (∀ e ∈ es, e.Reads known found user cart) →
    reply = .redirect "cart:show" ∧ skuIds = [] ∨ PlacesEntries cart skuIds reply

theorem throughout_place {skuIds : List Str} (huser : req.user = some user)
    (hids : ∀ id ∈ skuIds, (∃ n : ℕ, int id = some (n : ℤ) ∧ known n) ∧ (cart.lookup id).isSome = true) :
    Throughout (Event.mk t) (PlacePath known found user cart skuIds) (OrderPlaceView.post req skuIds) [] := by
  rw [OrderPlaceView.post, huser]
  show Throughout _ _ (if skuIds = [] then _ else _) []
  split
  · rename_i hnil
    intro reply h _
    exact .inl ⟨(Option.some.inj h).symm, hnil⟩
  have hitems : Throughout (Event.mk t) (PlaceItemsPath known found user cart skuIds [])
      (OrderPlaceView.showItems user skuIds) [] := throughout_placeItems hids []
  refine hitems.bind (fun es q hq hnone ↦ ?_) fun es shown hq ↦ ?_
  · intro reply h
    cases (result?_bind_of_none hnone _).symm.trans h
  · rcases shown with - | skus
    · intro reply h hreads
      obtain ⟨skus, hskus, -⟩ := hq.2 none rfl hreads
      cases hskus
    refine ⟨fun _ h ↦ (by cases h), fun r ↦ ?_⟩
    rcases r with e | addrs
    · intro reply h hreads
      obtain ⟨addrs, haddrs⟩ := hreads _ List.mem_cons_self
      cases haddrs
    · intro reply h hreads
      obtain ⟨skus', hskus, hlists⟩ := hq.2 (some skus) rfl
        fun e he ↦ hreads e (List.mem_cons_of_mem _ he)
      obtain rfl := Option.some.inj hskus
      exact .inr ⟨skus, addrs, hlists, (Option.some.inj h).symm⟩

end Pages

end DailyFresh
