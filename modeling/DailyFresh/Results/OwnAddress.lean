import DailyFresh.Alone.Checkout
import DailyFresh.Concurrent.CommitPath
import DailyFresh.Results.Stock

/-!
# The buyer's own address

`OrderPlaceView` offers the user's own addresses; `OrderCommitView` takes any id and looks it up among
the addresses of everybody. So an order can go to a stranger's address (`strange_address`), and the reply
tells whether a stranger has an address with that id.

`own_address_iff` has both halves. For runs: all orders go to addresses of their users exactly if every
checkout that commits an order was given an id of an own address. For pairs of runs: the reply does not
depend on the addresses of others exactly if the request does not get to the lookup, or its `addr_id` is
no natural number, or it is the id of an own address.
-/

namespace DailyFresh

open Python Store Interleave OrderCommitView

/-- Every order goes to an address of its user. -/
def OwnAddresses (db : Db) : Prop :=
  ∀ k row, db.orders k = some row → ∃ a, db.address row.addr = some a ∧ a.user = row.user

/-- If the `addr_id` of the form denotes an address, it is one of the request's user. -/
def HttpRequest.OwnsAddress (req : HttpRequest) (db : Db) : Prop :=
  match req.POST "addr_id".toList with
  | none => True
  | some id =>
    match findRow db.address id with
    | .ok (_, a) => req.user = some a.user
    | .error _ => True

instance (req : HttpRequest) (db : Db) : Decidable (req.OwnsAddress db) := by
  unfold HttpRequest.OwnsAddress
  split
  · infer_instance
  · split <;> infer_instance

/-- A checkout names an address of its own user. -/
def Request.OwnsAddress (db : Db) : Request → Prop
  | commit _ req => req.OwnsAddress db
  | _ => True

instance (db : Db) : DecidablePred (Request.OwnsAddress db) := fun request ↦ by
  cases request <;> unfold Request.OwnsAddress <;> infer_instance

variable {ι : Type} {request : ι → Request}

variable [DecidableEq ι]

/-- A checkout that is about to commit its order was given an own address. -/
def ShipsHome (request : ι → Request) (s : State Services ι (World ι) Session Reply) : Move ι → Prop
  | .kill _ => True
  | .step t => committing s t = true → (request t).OwnsAddress s.world.db

instance (s : State Services ι (World ι) Session Reply) : DecidablePred (ShipsHome request s)
  | .kill _ => isTrue trivial
  | .step _ => inferInstanceAs (Decidable (_ = true → _))

variable {s s' : State Services ι (World ι) Session Reply} {m : Move ι} {t : ι} {w w' : World ι}

/-! ### One move -/

/-- What does not give an order another user or address, and takes no address away, is harmless. -/
theorem OwnAddresses.mono {db db' : Db} (h : OwnAddresses db) (haddrs : db.address.Sub db'.address)
    (horders : ∀ k row, db'.orders k = some row →
      ∃ old, db.orders k = some old ∧ row.core = old.core) : OwnAddresses db' := by
  intro k row hrow
  obtain ⟨old, hold, hcore⟩ := horders k row hrow
  obtain ⟨a, ha, hauser⟩ := h k old hold
  obtain ⟨huser, haddr, -⟩ := OrderInfo.mk.inj hcore
  exact ⟨a, haddrs _ _ (haddr.symm ▸ ha), hauser.trans huser.symm⟩

omit [DecidableEq ι] in
/-- What an order's row says of the address it goes to. -/
theorem Receipt.row_user {r : Receipt} {log : List (Event ι)} (h : r.Of request t log) :
    r.row.user = r.checkout.user ∧ r.row.addr = r.addr := by
  obtain ⟨-, hobject⟩ := OrderObject.row?_eq_some_iff.1 h.row
  exact ⟨congrArg OrderObject.user hobject, congrArg OrderObject.addr hobject⟩

/-- A commit keeps all orders at own addresses exactly if it was given an own address. -/
theorem ownAddresses_of_placed {pick : Prop → Pick → Prop} {r : Receipt}
    (h : Placed request pick t r w w') (hown : OwnAddresses w.db) :
    OwnAddresses w'.db ↔ (request t).OwnsAddress w.db := by
  obtain ⟨a, ha⟩ := h.addr
  obtain ⟨-, hrow⟩ := findRow_eq_ok_iff.1 ha
  obtain ⟨huser, haddr⟩ := r.row_user h.of
  have haddress : w'.db.address = w.db.address := by
    funext n
    rw [Db.address, h.addrs, Db.address]
  have howns : (request t).OwnsAddress w.db ↔ a.user = r.checkout.user := by
    rw [h.of.request]
    show r.request.OwnsAddress w.db ↔ _
    obtain ⟨hid, -⟩ := nonempty_eq_some_iff.1 h.of.asks.addrId
    rw [HttpRequest.OwnsAddress, hid]
    simp only [ha, h.of.asks.user, Option.some.injEq]
    exact eq_comm
  rw [howns]
  constructor
  · intro hown'
    obtain ⟨a', ha', huser'⟩ := hown' r.orderId r.row (by rw [h.orders, Table.set_self])
    rw [haddress, haddr, hrow] at ha'
    obtain rfl := Option.some.inj ha'
    exact huser'.trans huser
  · -- the new order goes to the given address, the others stay
    intro hauser k row hk
    rw [h.orders] at hk
    rcases eq_or_ne k r.orderId with rfl | hne
    · rw [Table.set_self] at hk
      obtain rfl := Option.some.inj hk
      exact ⟨a, by rw [haddress, haddr, hrow], hauser.trans huser.symm⟩
    · rw [Table.set_of_ne hne] at hk
      obtain ⟨a', ha', huser'⟩ := hown k row hk
      exact ⟨a', by rw [haddress, ha'], huser'⟩

/-! ### The reply -/

/-- The tables with other addresses. -/
def Db.withAddrs (db : Db) (addrs : AList fun _ : ℕ ↦ Address) : Db := { db with addrs }

/-- The same addresses of `user`. -/
def SameOwn (user : ℕ) (db db' : Db) : Prop :=
  ∀ n a, a.user = user → (db'.address n = some a ↔ db.address n = some a)

/-- If the request gets to the lookup of the address, and its `addr_id` is a natural number, that is the
id of an own address. -/
def HttpRequest.LooksUpOwn (req : HttpRequest) (db : Db) : Prop :=
  ∀ c, req.Asks c → ∀ n : ℕ, int c.addrId = some (n : ℤ) →
    ∃ a, db.address n = some a ∧ a.user = c.user

/-- What a checkout that runs alone in the world `w` is answered, when the addresses are `addrs`. -/
def answerWith (t : ι) (k : ℕ) (now : LocalTime) (req : HttpRequest) (w : World ι)
    (addrs : AList fun _ : ℕ ↦ Address) : Option Reply :=
  ((site ι).solo t k (post now req) { w with db := w.db.withAddrs addrs } .idle).map (·.1)

theorem takeOne_ne_address {cart : Cart} {orderId skuId : Str} {b : Basket} :
    takeOne cart orderId b skuId ≠ .error .address := by
  unfold takeOne
  intro h
  split at h
  · cases h
  split at h
  · cases h
  split at h
  · cases h
  split at h
  · cases h
  · cases h

theorem takeItems_ne_address {cart : Cart} {orderId : Str} (ids : List Str) {b : Basket} :
    ids.foldlM (takeOne cart orderId) b ≠ .error .address := by
  induction ids generalizing b with
  | nil =>
    intro h
    cases h
  | cons id ids ih =>
    intro h
    rw [List.foldlM_cons] at h
    rcases hone : takeOne cart orderId b id with e | b'
    · rw [hone] at h
      cases h
      exact takeOne_ne_address hone
    · rw [hone] at h
      exact ih h

/-- Once the address is found, the reply is not that there is none. -/
theorem place_ne_address {positions : List Str → List Str} {now : LocalTime} {c : Checkout} {addr : ℕ}
    {db : Db} {cart : Cart} : place positions now c addr db cart ≠ .error .address := by
  unfold place
  dsimp only
  intro h
  split at h
  · split at h
    · rename_i htaken
      cases h
      exact takeItems_ne_address _ htaken
    · split at h
      · cases h
      · cases h
  · cases h

theorem replyOf_address_iff {x : Except Refusal Placement} :
    (replyOf x).res = some 3 ↔ x = .error .address := by
  rcases x with e | p
  · cases e <;> simp [replyOf, Refusal.reply]
  · simp [replyOf]

/-- An own address is found in both tables, or in neither. -/
theorem findRow_of_sameOwn {user : ℕ} {db db' : Db} (hsame : SameOwn user db db') {id : Str}
    (hown : ∀ n : ℕ, int id = some (n : ℤ) → ∃ a, db.address n = some a ∧ a.user = user) :
    findRow db'.address id = findRow db.address id := by
  unfold findRow
  split
  · rename_i n hid
    obtain ⟨a, ha, huser⟩ := hown n hid
    rw [ha, (hsame n a huser).2 ha]
  · rfl
  · rfl

theorem alone_of_sameOwn {now : LocalTime} {req : HttpRequest} {db : Db}
    {addrs : AList fun _ : ℕ ↦ Address} {carts : ℕ → Cart} {user : ℕ} (huser : req.user = some user)
    (hown : req.LooksUpOwn db) (hsame : SameOwn user db (db.withAddrs addrs)) :
    alone id now req (db.withAddrs addrs) carts = alone id now req db carts := by
  unfold alone
  split
  · rfl
  · rename_i c hc
    have hasks := parse_eq_ok_iff.1 hc
    obtain rfl := Option.some.inj (huser.symm.trans hasks.user)
    rw [findRow_of_sameOwn hsame (hown c hasks)]
    rfl

/-- With an id that denotes no address, the request is refused for it, and only then. -/
theorem alone_address_iff (now : LocalTime) {req : HttpRequest} {db : Db} (carts : ℕ → Cart)
    {c : Checkout} (hasks : req.Asks c) {n : ℕ} (hid : int c.addrId = some (n : ℤ)) :
    alone id now req db carts = .error .address ↔ db.address n = none := by
  unfold alone
  rw [parse_eq_ok_iff.2 hasks]
  rcases hrow : db.address n with - | a
  · simp only [findRow_of_none hid hrow]
  · have hfind : findRow db.address c.addrId = .ok (n, a) := findRow_eq_ok_iff.2 ⟨hid, hrow⟩
    simp only [hfind, reduceCtorEq, iff_false]
    exact place_ne_address

/-- Someone else's address can be added under any id that is not one of `user`'s, or taken away. -/
theorem exists_other_addrs (user n : ℕ) (db : Db) (h : ∀ a, db.address n = some a → a.user ≠ user) :
    ∃ addrs, SameOwn user db (db.withAddrs addrs) ∧
      ¬ ((db.withAddrs addrs).address n = none ↔ db.address n = none) := by
  rcases hrow : db.address n with - | a
  · let other : Address := { user := user + 1, receiver := .empty, addr := .empty,
                             zipCode := none, phone := .empty, isDefault := false }
    have hnew : (db.withAddrs (db.addrs.insert n other)).address n = some other :=
      AList.lookup_insert ..
    refine ⟨db.addrs.insert n other, fun m a huser ↦ ?_, by simp [hnew]⟩
    rcases eq_or_ne m n with rfl | hm
    · have hne : other ≠ a := by
        rintro rfl
        exact absurd huser (Nat.succ_ne_self user)
      rw [hnew, hrow]
      simp [hne]
    · rw [Db.address, Db.withAddrs, AList.lookup_insert_ne hm, Db.address]
  · have hgone : (db.withAddrs (db.addrs.erase n)).address n = none := AList.lookup_erase ..
    refine ⟨db.addrs.erase n, fun m a' huser ↦ ?_, by simp [hgone]⟩
    rcases eq_or_ne m n with rfl | hm
    · have hne : a ≠ a' := by
        rintro rfl
        exact h a hrow huser
      rw [hgone, hrow]
      simp [hne]
    · rw [Db.address, Db.withAddrs, AList.lookup_erase_ne hm, Db.address]

/-- The answer is that of `alone`. -/
theorem answerWith_eq (t : ι) (k : ℕ) (now : LocalTime) (req : HttpRequest) {w : World ι}
    (hw : Unlocked w) (addrs : AList fun _ : ℕ ↦ Address) :
    answerWith t k now req w addrs =
      some (replyOf (alone id now req (w.db.withAddrs addrs) w.carts)) := by
  have hw' : Unlocked { w with db := w.db.withAddrs addrs } := ⟨hw.skuLock, hw.orderLock⟩
  obtain ⟨reply, w', l', hsolo, hleft⟩ := ends_postOn (t := t) (k := k) id now req hw'
  rw [answerWith, post, hsolo, hleft.reply]
  rfl

/-- **When the reply is blind to others' addresses.** -/
theorem answerWith_blind_iff (t : ι) (k : ℕ) (now : LocalTime) {req : HttpRequest} {user : ℕ}
    (huser : req.user = some user) {w : World ι} (hw : Unlocked w) :
    (∀ addrs, SameOwn user w.db (w.db.withAddrs addrs) →
      answerWith t k now req w addrs = answerWith t k now req w w.db.addrs) ↔
      req.LooksUpOwn w.db := by
  constructor
  · intro hblind c hasks n hid
    by_contra hnone
    obtain rfl := Option.some.inj (huser.symm.trans hasks.user)
    -- others' addresses can be such that the id denotes one of them, or none
    obtain ⟨addrs, hsame, hdiffers⟩ := exists_other_addrs c.user n w.db
      fun a ha hauser ↦ hnone ⟨a, ha, hauser⟩
    have heq := hblind addrs hsame
    rw [answerWith_eq t k now req hw, answerWith_eq t k now req hw] at heq
    refine hdiffers ?_
    rw [← alone_address_iff now w.carts hasks hid,
      ← alone_address_iff now w.carts hasks hid, ← replyOf_address_iff,
      ← replyOf_address_iff, Option.some.inj heq]
    rfl
  · intro hown addrs hsame
    rw [answerWith_eq t k now req hw, answerWith_eq t k now req hw,
      alone_of_sameOwn huser hown hsame]
    rfl

/-! ### Both halves -/

/-- **Own addresses.** A run keeps every order at an address of its user if and only if each checkout that
commits was given one; and the reply to a checkout is blind to the addresses of others if and only if the
checkout does not get to look up an id that is not one of its user's. -/
theorem own_address_iff {db : Db} (hlinked : db.Linked) (hown : OwnAddresses db) {carts : ℕ → Cart}
    {gateway : ℕ → Answer} :
    (∀ ms, (site ι).AllMoves (fun _ _ s' ↦ OwnAddresses s'.world.db) ms
        (start db carts gateway request) ↔
      (site ι).AllMoves (fun s m _ ↦ ShipsHome request s m) ms (start db carts gateway request)) ∧
    ∀ (t : ι) (k : ℕ) (now : LocalTime) (req : HttpRequest) (user : ℕ) (w : World ι),
      req.user = some user → Unlocked w →
      ((∀ addrs, SameOwn user w.db (w.db.withAddrs addrs) →
        answerWith t k now req w addrs = answerWith t k now req w w.db.addrs) ↔
        req.LooksUpOwn w.db) := by
  refine ⟨fun ms ↦ ?_, fun t k now req user w huser hw ↦ answerWith_blind_iff t k now huser hw⟩
  refine Machine.allMoves_inv_iff AnyMove
    (I := fun s : State Services ι (World ι) Session Reply ↦ OwnAddresses s.world.db) ?_ .refl
    (Machine.allMoves_of_forall (fun _ _ _ ↦ trivial) ms _) hown
  intro s m s' hs _ hn hown
  have hpromise := promise_of_reach (noDiscipline request) hlinked trivial hs hn
  obtain ⟨r, hplaced⟩ | hunplaced := hpromise.effect.placed_or
  · obtain ⟨hm, hcommitting⟩ := committing_of_placed hn hplaced
    rw [ownAddresses_of_placed hplaced hown, hm]
    exact ⟨fun howns _ ↦ howns, fun hhome ↦ hhome hcommitting⟩
  · refine ⟨fun _ ↦ ?_, fun _ ↦ hown.mono hpromise.considerate.addrs hunplaced.orders⟩
    cases m with
    | kill t => trivial
    | step t =>
      intro hcommitting
      obtain ⟨hnext, hclears⟩ := Bool.and_eq_true_iff.1 hcommitting
      obtain ⟨c, r, l, hc, -, hhistory⟩ := next_step_history hn
      obtain rfl : c = .commit := Option.some.inj (hc.symm.trans (of_decide_eq_true hnext))
      exact absurd (hunplaced.commit hhistory) (noHdel_of_clears hclears)

/-! ### A stranger's address -/

/-- The checkout of one product by user 7, to this address. -/
def orderTo (addrId : String) : HttpRequest where
  user := some 7
  POST := formData [("addr_id", addrId), ("pay_method", "3"), ("sku_ids", "1")]

theorem smallShop_ownAddresses : OwnAddresses smallShop := fun _ _ h ↦ by cases h

/-- To the own address. -/
theorem own_address_iff_home :
    (site (Fin 1)).AllMoves (fun _ _ s' ↦ OwnAddresses s'.world.db) (.replicate 11 (.step 0))
      (start smallShop (fun _ ↦ cartOf [("1", 2)]) silent fun _ ↦ .commit (clock 0) (orderTo "1")) ∧
    ∀ addrs, SameOwn 7 smallShop (smallShop.withAddrs addrs) →
      answerWith (0 : Fin 1) 0 (clock 0) (orderTo "1")
        (.initial smallShop (fun _ ↦ cartOf [("1", 2)]) silent) addrs =
      answerWith (0 : Fin 1) 0 (clock 0) (orderTo "1")
        (.initial smallShop (fun _ ↦ cartOf [("1", 2)]) silent) smallShop.addrs := by
  have hboth := @own_address_iff (Fin 1) (fun _ ↦ .commit (clock 0) (orderTo "1")) _ smallShop
    smallShop_linked smallShop_ownAddresses (fun _ ↦ cartOf [("1", 2)]) silent
  have hlooks : (orderTo "1").LooksUpOwn smallShop := by
    intro c hasks n hid
    have haddr : c.addrId = "1".toList :=
      Option.some.inj (hasks.addrId.symm.trans (by decide))
    have hone : int "1".toList = some ((1 : ℕ) : ℤ) := by decide
    rw [haddr, hone] at hid
    obtain rfl := Int.ofNat_inj.1 (Option.some.inj hid)
    have huser : 7 = c.user := Option.some.inj hasks.user
    exact ⟨home 7, by decide, huser⟩
  let w : World (Fin 1) := .initial smallShop (fun _ ↦ cartOf [("1", 2)]) silent
  have hw : Unlocked w := ⟨fun _ ↦ rfl, fun _ ↦ rfl⟩
  exact ⟨(hboth.1 _).2 (by decide),
    (hboth.2 0 0 (clock 0) (orderTo "1") 7 w rfl hw).2 hlooks⟩

/-- The address of user 7 alone. -/
def fewAddrs : AList fun _ : ℕ ↦ Address := AList.insert 1 (home 7) ∅

theorem fewAddrs_lookup (n : ℕ) : fewAddrs.lookup n = if n = 1 then some (home 7) else none := by
  rw [fewAddrs]
  split
  · rename_i hn
    rw [hn, AList.lookup_insert]
  · rename_i hn
    rw [AList.lookup_insert_ne hn, AList.lookup_empty]

theorem smallShop_address (n : ℕ) :
    smallShop.address n = if n = 2 then some (home 8) else fewAddrs.lookup n := by
  show (fewAddrs.insert 2 (home 8)).lookup n = _
  split
  · rename_i hn
    rw [hn, AList.lookup_insert]
  · rename_i hn
    rw [AList.lookup_insert_ne hn]

/-- **To a stranger**: user 7 orders to the address of user 8; and if user 8 had not stored it, the reply
would have been another one. -/
theorem strange_address :
    (∃ s, (site (Fin 1)).perform
        (start smallShop (fun _ ↦ cartOf [("1", 2)]) silent fun _ ↦ .commit (clock 0) (orderTo "2"))
        (.replicate 11 (.step 0)) = some s ∧
      ((s.prog 0).result?.bind Reply.res) = some 5 ∧ ¬ OwnAddresses s.world.db) ∧
    SameOwn 7 smallShop (smallShop.withAddrs fewAddrs) ∧
    (answerWith (0 : Fin 1) 0 (clock 0) (orderTo "2")
      (.initial smallShop (fun _ ↦ cartOf [("1", 2)]) silent) smallShop.addrs).bind Reply.res =
        some 5 ∧
    (answerWith (0 : Fin 1) 0 (clock 0) (orderTo "2")
      (.initial smallShop (fun _ ↦ cartOf [("1", 2)]) silent) fewAddrs).bind Reply.res = some 3 := by
  refine ⟨?_, ?_, rfl, rfl⟩
  · have hrun : ((site (Fin 1)).perform
        (start smallShop (fun _ ↦ cartOf [("1", 2)]) silent fun _ ↦ .commit (clock 0) (orderTo "2"))
        (.replicate 11 (.step 0))).map (fun s ↦ ((s.prog 0).result?.bind Reply.res,
          (s.world.db.orders ((clock 0).strftime ++ str 7)).map fun row ↦ (row.user, row.addr),
          s.world.db.address 2)) = some (some 5, some (7, 2), some (home 8)) := by rfl
    obtain ⟨s, hs, heq⟩ := Option.map_eq_some_iff.1 hrun
    obtain ⟨hreply, heq⟩ := Prod.mk.inj heq
    obtain ⟨horder, haddress⟩ := Prod.mk.inj heq
    refine ⟨s, hs, hreply, fun hown ↦ ?_⟩
    obtain ⟨row, hrow, hpair⟩ := Option.map_eq_some_iff.1 horder
    obtain ⟨huser, haddr⟩ := Prod.mk.inj hpair
    obtain ⟨a, ha, hauser⟩ := hown _ row hrow
    rw [haddr, haddress] at ha
    obtain rfl := Option.some.inj ha
    rw [huser] at hauser
    exact absurd hauser (by decide)
  · intro n a huser
    have hfewer : (smallShop.withAddrs fewAddrs).address n = fewAddrs.lookup n := rfl
    rw [smallShop_address, hfewer, fewAddrs_lookup]
    by_cases hn : n = 2
    · subst hn
      have hne : home 8 ≠ a := by
        rintro rfl
        exact absurd huser (by decide)
      simp [hne]
    · rw [if_neg hn]

end DailyFresh
