import DailyFresh.Alone.CartRequests
import DailyFresh.Results.LateAdds

/-!
# One cart entry per product

The cart views look a product up by the number that the client's `sku_id` denotes, and keep it under the
text. So `1` and `01` are two fields for one product, each within the stock by itself (`two_entries`), and
a deletion of one leaves the other.

`oneEntry_iff` says when the cart of a user is as it should be through a whole sequence of cart requests,
handled one at a time: exactly if every request that passes the checks of its view names the product by
the spelling under which the cart has it, if it has it.
-/

namespace DailyFresh

open Python Store Interleave OrderCommitView

/-- One field for each product in the cart, and no more pieces of it than there are. -/
structure CartGood (skus : Table ℕ GoodsSKU) (cart : Cart) : Prop where
  single : ∀ f ∈ cart.keys, ∀ g ∈ cart.keys, ∀ n : ℕ,
    int f = some (n : ℤ) → int g = some (n : ℤ) → f = g
  within : ∀ n sku, skus n = some sku → (∃ f ∈ cart.keys, int f = some (n : ℤ)) →
    cart.total (spells n) ≤ sku.stock.val

/-- A request to the cart. -/
def Request.IsCart : Request → Prop
  | cartAdd _ => True
  | cartUpdate _ => True
  | cartDelete _ => True
  | _ => False

/-- After a deletion from the user's cart that replies `res` 3, no field denotes the deleted product. -/
def Request.Gone (user : ℕ) (reply : Reply) (cart : Cart) : Request → Prop
  | cartDelete request => request.user = some user → reply.res = some 3 →
      ∀ n : ℕ, (request.POST "sku_id".toList).bind int = some (n : ℤ) →
        ∀ field ∈ cart.keys, int field ≠ some (n : ℤ)
  | _ => True

variable {ι : Type}

/-- If the request passes the checks of its view and is about the user's cart, that cart has the product
under no other spelling than the one of the request. -/
def SameSpelling (user : ℕ) (w : World ι) (request : Request) : Prop :=
  ∀ change, request.change w.db w.carts = some (user, change) →
    ∀ field ∈ (w.carts user).keys, field ≠ change.field → int field ≠ some (change.sku : ℤ)

instance (user : ℕ) (w : World ι) (request : Request) : Decidable (SameSpelling user w request) :=
  match h : request.change w.db w.carts with
  | none => isTrue fun _ h' ↦ by cases h.symm.trans h'
  | some (u, change) =>
    decidable_of_iff (u = user → ∀ field ∈ (w.carts user).keys, field ≠ change.field →
        int field ≠ some (change.sku : ℤ)) ⟨fun hall change' h' ↦ by
          cases h.symm.trans h'
          exact hall rfl, fun hsame hu ↦ hsame change (hu ▸ h)⟩

/-- A request and the process that handles it. -/
def turn (x : ι × Request) : ι × Program Services Reply := (x.1, x.2.handler)

/-! ### Entries of one product -/

theorem totalOf_eq_entry {wanted : Str → Bool} {field : Str} {entries : List (Sigma fun _ : Str ↦ ℤ)}
    (hnodup : entries.NodupKeys) (hwanted : wanted field = true)
    (honly : ∀ e ∈ entries, wanted e.1 = true → e.1 = field) :
    totalOf wanted entries = (entries.dlookup field).getD 0 := by
  induction entries with
  | nil => rfl
  | cons e entries ih =>
    obtain ⟨hfresh, hnodup⟩ := List.nodupKeys_cons.1 hnodup
    rw [totalOf_cons]
    by_cases hfield : e.1 = field
    · -- no other entry counts
      obtain ⟨f, value⟩ := e
      obtain rfl : f = field := hfield
      have hnone : totalOf wanted entries = 0 := by
        have hfilter : entries.filter (fun e ↦ wanted e.1) = [] := by
          refine List.filter_eq_nil_iff.2 fun e' he' hw ↦ hfresh ?_
          have hkey : e'.1 ∈ entries.keys := List.mem_keys_of_mem he'
          rwa [honly e' (List.mem_cons_of_mem _ he') hw] at hkey
        rw [totalOf, hfilter]
        rfl
      rw [if_pos hwanted, hnone, List.dlookup_cons_eq, Option.getD_some, add_zero]
    · have hw : ¬ wanted e.1 = true := fun hw ↦ hfield (honly e List.mem_cons_self hw)
      have hrest := ih hnodup fun e' he' ↦ honly e' (List.mem_cons_of_mem _ he')
      rw [if_neg hw, List.dlookup_cons_ne _ _ (Ne.symm hfield), hrest, zero_add]

/-- The quantity of a product that has one field is the count of this field. -/
theorem Cart.total_eq_entry {cart : Cart} {n : ℕ} {field : Str} (hfield : int field = some (n : ℤ))
    (honly : ∀ g ∈ cart.keys, int g = some (n : ℤ) → g = field) :
    cart.total (spells n) = cart.entry field := by
  refine totalOf_eq_entry cart.nodupKeys (decide_eq_true hfield) fun e he hw ↦ ?_
  exact honly e.1 (List.mem_keys_of_mem he) (of_decide_eq_true hw)

/-! ### One request -/

/-- The change puts a count under a field of a product that has as many pieces. -/
def CartChange.Puts (db : Db) (change : CartChange) : Prop :=
  ∃ field n sku count, findRow db.skus field = .ok (n, sku) ∧ count ≤ sku.stock.val ∧
    change = .put field n count

theorem CartAddView.puts {db : Db} {carts : ℕ → Cart} {request : HttpRequest} {user : ℕ}
    {change : CartChange} (h : CartAddView.change db carts request = some (user, change)) :
    change.Puts db := by
  rw [CartAddView.change] at h
  split at h
  · split at h
    · rename_i hfind
      split at h
      · cases h
      · rename_i hstock
        cases h
        exact ⟨_, _, _, _, hfind, Int.not_lt.1 hstock, rfl⟩
    · cases h
  · cases h

theorem CartUpdateView.puts {db : Db} {request : HttpRequest} {user : ℕ} {change : CartChange}
    (h : CartUpdateView.change db request = some (user, change)) : change.Puts db := by
  rw [CartUpdateView.change] at h
  split at h
  · split at h
    · rename_i hfind
      split at h
      · cases h
      · rename_i hstock
        cases h
        exact ⟨_, _, _, _, hfind, Int.not_lt.1 hstock, rfl⟩
    · cases h
  · cases h

/-- The product of a change is there, in the pieces that are put into the cart. -/
theorem Request.change_sku {db : Db} {carts : ℕ → Cart} {r : Request} {user : ℕ} {change : CartChange}
    (h : r.change db carts = some (user, change)) :
    int change.field = some (change.sku : ℤ) ∧
      ∃ sku, db.skus change.sku = some sku ∧
        ∀ field n count, change = .put field n count → count ≤ sku.stock.val := by
  have hputs : change.Puts db → int change.field = some (change.sku : ℤ) ∧
      ∃ sku, db.skus change.sku = some sku ∧
        ∀ field n count, change = .put field n count → count ≤ sku.stock.val := by
    rintro ⟨field, n, sku, count, hfind, hcount, rfl⟩
    obtain ⟨hint, hrow⟩ := findRow_eq_ok_iff.1 hfind
    refine ⟨hint, sku, hrow, fun _ _ _ heq ↦ ?_⟩
    cases heq
    exact hcount
  cases r with
  | cartAdd request => exact hputs (CartAddView.puts h)
  | cartUpdate request => exact hputs (CartUpdateView.puts h)
  | cartDelete request =>
    obtain ⟨-, field, n, row, -, hfind, rfl⟩ := CartDeleteView.change_eq_some_iff.1 h
    obtain ⟨hint, hrow⟩ := findRow_eq_ok_iff.1 hfind
    exact ⟨hint, row, hrow, fun _ _ _ heq ↦ by cases heq⟩
  | _ => cases h

/-- **A count put under a field** keeps a good cart good exactly if no other field denotes the
product. -/
theorem CartGood.put_iff {skus : Table ℕ GoodsSKU} {cart : Cart} (h : CartGood skus cart) {field : Str}
    {n : ℕ} {sku : GoodsSKU} {count : ℤ} (hfield : int field = some (n : ℤ))
    (hsku : skus n = some sku) (hcount : count ≤ sku.stock.val) :
    CartGood skus (cart.insert field count) ↔
      ∀ g ∈ cart.keys, g ≠ field → int g ≠ some (n : ℤ) := by
  have hmem : ∀ g, g ∈ (cart.insert field count).keys ↔ g = field ∨ g ∈ cart.keys :=
    fun g ↦ AList.mem_insert cart
  constructor
  · intro hgood g hg hne hint
    exact hne (hgood.single g ((hmem g).2 (.inr hg)) field ((hmem field).2 (.inl rfl)) n hint hfield)
  · intro honly
    constructor
    · intro f hf g hg m hintf hintg
      rcases (hmem f).1 hf with rfl | hf'
      · obtain rfl : m = n := Int.ofNat_inj.1 (Option.some.inj (hintf.symm.trans hfield))
        rcases (hmem g).1 hg with rfl | hg'
        · rfl
        · exact by_contra fun hne ↦ honly g hg' (Ne.symm hne) hintg
      · rcases (hmem g).1 hg with rfl | hg'
        · obtain rfl : m = n := Int.ofNat_inj.1 (Option.some.inj (hintg.symm.trans hfield))
          exact by_contra fun hne ↦ honly f hf' hne hintf
        · exact h.single f hf' g hg' m hintf hintg
    · intro m row hrow hexists
      rw [Cart.total_insert]
      by_cases hm : m = n
      · subst hm
        obtain rfl := Option.some.inj (hsku.symm.trans hrow)
        have htotal : cart.total (spells m) = cart.entry field :=
          Cart.total_eq_entry hfield fun g hg hint ↦ by_contra fun hne ↦ honly g hg hne hint
        have hspells : spells m field = true := decide_eq_true hfield
        rw [if_pos hspells, htotal]
        omega
      · have hother : ¬ spells m field = true := fun hspells ↦ hm
          (Int.ofNat_inj.1 (Option.some.inj ((of_decide_eq_true hspells).symm.trans hfield)))
        rw [if_neg hother, add_zero]
        refine h.within m row hrow ?_
        obtain ⟨g, hg, hint⟩ := hexists
        rcases (hmem g).1 hg with rfl | hg'
        · exact absurd (decide_eq_true hint) hother
        · exact ⟨g, hg', hint⟩

/-- A deletion keeps a good cart good. -/
theorem CartGood.drop {skus : Table ℕ GoodsSKU} {cart : Cart} (h : CartGood skus cart) (field : Str) :
    CartGood skus (cart.hdel [field]) := by
  have hmem : ∀ g, g ∈ (cart.hdel [field]).keys ↔ g ≠ field ∧ g ∈ cart.keys :=
    fun g ↦ AList.mem_erase
  constructor
  · intro f hf g hg n hintf hintg
    exact h.single f ((hmem f).1 hf).2 g ((hmem g).1 hg).2 n hintf hintg
  · rintro n sku hsku ⟨g, hg, hint⟩
    obtain ⟨hne, hg'⟩ := (hmem g).1 hg
    have hle := h.within n sku hsku ⟨g, hg', hint⟩
    have hsame : (cart.hdel [field]).total (spells n) = cart.total (spells n) := by
      have herase := totalOf_kerase (spells n) field cart.entries
      -- the only field of the product is another one
      have hzero : (if spells n field = true then (cart.entries.dlookup field).getD 0 else 0) = 0 := by
        split
        · rename_i hspells
          have hnone : cart.lookup field = none := by
            refine AList.lookup_eq_none.2 fun hfield ↦ hne ?_
            exact h.single g hg' field hfield n hint (of_decide_eq_true hspells)
          show (cart.lookup field).getD 0 = 0
          rw [hnone, Option.getD_none]
        · rfl
      rw [hzero, sub_zero] at herase
      exact herase
    rw [hsame]
    exact hle

/-- A change of the carts keeps the user's cart good exactly if it puts nothing under a second field. -/
theorem CartGood.change_iff {db : Db} {carts : ℕ → Cart} {user : ℕ} (h : CartGood db.skus (carts user))
    (r : Request) :
    CartGood db.skus (changeCarts carts (r.change db carts) user) ↔
      ∀ field n count, r.change db carts = some (user, .put field n count) →
        ∀ g ∈ (carts user).keys, g ≠ field → int g ≠ some (n : ℤ) := by
  rcases hchange : r.change db carts with - | ⟨u, change⟩
  · exact iff_of_true h fun _ _ _ heq ↦ by cases heq
  rw [changeCarts]
  by_cases hu : u = user
  · subst hu
    rw [Function.update_self]
    obtain ⟨hint, sku, hsku, hcount⟩ := Request.change_sku hchange
    rcases change with ⟨field, n, count⟩ | ⟨field, n⟩
    · have hput : CartGood db.skus ((carts u).insert field count) ↔
          ∀ g ∈ (carts u).keys, g ≠ field → int g ≠ some (n : ℤ) :=
        h.put_iff hint hsku (hcount _ _ _ rfl)
      rw [CartChange.apply, hput]
      constructor
      · intro honly field' n' count' heq
        cases heq
        exact honly
      · exact fun hall ↦ hall field n count rfl
    · exact iff_of_true (h.drop field) fun _ _ _ heq ↦ by cases heq
  · rw [Function.update_of_ne (Ne.symm hu)]
    exact iff_of_true h fun _ _ _ heq ↦ absurd (Prod.mk.inj (Option.some.inj heq)).1 hu

theorem CartChange.Puts.ne_drop {db : Db} {change : CartChange} (h : change.Puts db) (field : Str) (n : ℕ) :
    change ≠ .drop field n := by
  obtain ⟨field', n', sku, count, -, -, rfl⟩ := h
  intro heq
  cases heq

variable [DecidableEq ι] {t : ι} {k : ℕ} {w w' : World ι} {user : ℕ}

omit [DecidableEq ι] in
/-- A put request leaves a good cart good exactly if it uses the cart's spelling. -/
theorem good_of_put {r : Request} (hgood : CartGood w.db.skus (w.carts user))
    (hdrop : ∀ u field n, r.change w.db w.carts ≠ some (u, .drop field n))
    (hchanged : Changed (r.change w.db w.carts) w w') :
    CartGood w'.db.skus (w'.carts user) ↔ SameSpelling user w r := by
  rw [hchanged.db, hchanged.carts, hgood.change_iff]
  constructor
  · intro hall change hchange
    rcases change with ⟨field, n, count⟩ | ⟨field, n⟩
    · exact hall field n count hchange
    · exact absurd hchange (hdrop user field n)
  · exact fun hsame field n count hchange ↦ hsame _ hchange

omit [DecidableEq ι] in
/-- A deletion takes a product out of a good cart exactly if it uses the cart's spelling. -/
theorem gone_iff {request : HttpRequest} {reply : Reply}
    (hchanged : Changed (CartDeleteView.change w.db request) w w')
    (hreply : reply.res = some 3 ↔ (CartDeleteView.change w.db request).isSome = true) :
    Request.Gone user reply (w'.carts user) (.cartDelete request) ↔
      SameSpelling user w (.cartDelete request) := by
  constructor
  · intro hgone change hchange g hg hne
    have hchange' : CartDeleteView.change w.db request = some (user, change) := hchange
    obtain ⟨huser, field, n, row, hfield, hfind, rfl⟩ :=
      CartDeleteView.change_eq_some_iff.1 hchange'
    obtain ⟨hint, -⟩ := findRow_eq_ok_iff.1 hfind
    obtain ⟨hpost, -⟩ := nonempty_eq_some_iff.1 hfield
    refine hgone huser (hreply.2 (by rw [hchange']; rfl)) n (by rw [hpost]; exact hint) g ?_
    rw [hchanged.carts, hchange', changeCarts, Function.update_self]
    exact AList.mem_erase.2 ⟨hne, hg⟩
  · intro hsame huser hres n hdenotes g hg
    obtain ⟨⟨u, change⟩, hchange⟩ := Option.isSome_iff_exists.1 (hreply.1 hres)
    obtain ⟨huser', field, n', row, hfield, hfind, rfl⟩ :=
      CartDeleteView.change_eq_some_iff.1 hchange
    obtain rfl := Option.some.inj (huser.symm.trans huser')
    obtain ⟨hint, -⟩ := findRow_eq_ok_iff.1 hfind
    obtain ⟨hpost, -⟩ := nonempty_eq_some_iff.1 hfield
    rw [hpost, Option.bind_some, hint] at hdenotes
    obtain rfl := Int.ofNat_inj.1 (Option.some.inj hdenotes)
    rw [hchanged.carts, hchange, changeCarts, Function.update_self] at hg
    obtain ⟨hne, hg⟩ := AList.mem_erase.1 hg
    exact hsame _ hchange g hg hne

/-- **One cart request** that runs alone on a good cart leaves it good, and a deletion deletes the whole
product, exactly if it names the product by the cart's spelling. -/
theorem ends_turn {x : ι × Request} (hx : x.2.IsCart) (hgood : CartGood w.db.skus (w.carts user)) :
    (site ι).Ends (turn x).1 k
      (fun reply w' _ ↦ (CartGood w'.db.skus (w'.carts user) ∧ x.2.Gone user reply (w'.carts user)) ↔
          SameSpelling user w x.2)
      (turn x).2 w .idle := by
  obtain ⟨t, r⟩ := x
  cases r with
  | cartAdd request =>
    refine ends_cartAdd.mono fun reply w' _ hchanged ↦ ?_
    have hiff := good_of_put (r := .cartAdd request) hgood
      (fun _ _ _ h ↦ (CartAddView.puts h).ne_drop _ _ rfl) hchanged
    rw [← hiff]
    exact and_iff_left trivial
  | cartUpdate request =>
    refine ends_cartUpdate.mono fun reply w' _ hchanged ↦ ?_
    have hiff := good_of_put (r := .cartUpdate request) hgood
      (fun _ _ _ h ↦ (CartUpdateView.puts h).ne_drop _ _ rfl) hchanged
    rw [← hiff]
    exact and_iff_left trivial
  | cartDelete request =>
    refine ends_cartDelete.mono fun reply w' _ hended ↦ ?_
    obtain ⟨hchanged, hreply⟩ := hended
    rw [← gone_iff hchanged hreply]
    refine and_iff_right ?_
    rw [hchanged.db, hchanged.carts]
    refine (hgood.change_iff (.cartDelete request)).2 fun field n count heq ↦ ?_
    have heq' : CartDeleteView.change w.db request = some (user, .put field n count) := heq
    obtain ⟨-, _, _, _, -, -, hput⟩ := CartDeleteView.change_eq_some_iff.1 heq'
    cases hput
  | _ => exact hx.elim

/-- **One entry per product, within the stock**: through a sequence of cart requests, handled one at a
time, the user's cart stays good and deletions delete whole products exactly if every request uses the
spelling under which the cart has the product. -/
theorem oneEntry_iff (user : ℕ) {turns : List (ι × Request)} (hcart : ∀ x ∈ turns, x.2.IsCart)
    (hgood : CartGood w.db.skus (w.carts user)) :
    (site ι).EachTurn k .idle turn
        (fun _ x reply w' ↦ CartGood w'.db.skus (w'.carts user) ∧
          x.2.Gone user reply (w'.carts user)) turns w ↔
      (site ι).EachTurn k .idle turn (fun w x _ _ ↦ SameSpelling user w x.2) turns w := by
  refine Machine.eachTurn_iff (I := fun w ↦ CartGood w.db.skus (w.carts user)) ?_ hgood
  exact fun x hx w hgood ↦ (ends_turn (hcart x hx) hgood).mono fun reply w' _ h ↦ ⟨h, And.left⟩

/-- User 7 adds some pieces of a product to the cart. -/
def addOf (skuId count : String) : Request :=
  .cartAdd { user := some 7, POST := formData [("sku_id", skuId), ("count", count)] }

/-- User 7 deletes a product from the cart. -/
def deleteOf (skuId : String) : Request :=
  .cartDelete { user := some 7, POST := formData [("sku_id", skuId)] }

/-- One spelling: the cart is good throughout. -/
theorem oneEntry_iff_addDelete : (site (Fin 1)).EachTurn 0 .idle turn
    (fun _ x reply w' ↦ CartGood w'.db.skus (w'.carts 7) ∧ x.2.Gone 7 reply (w'.carts 7))
    [(0, addOf "01" "2"), (0, addOf "2" "1"), (0, deleteOf "01")]
    (.initial smallShop (fun _ ↦ ∅) silent) := by
  have hempty : CartGood smallShop.skus ∅ :=
    { single := fun _ hf ↦ absurd hf (by simp)
      within := fun _ _ _ hexists ↦ by simp at hexists }
  refine (oneEntry_iff 7 ?_ hempty).2 ?_
  · intro x hx
    simp only [List.mem_cons, List.not_mem_nil, or_false] at hx
    rcases hx with rfl | rfl | rfl
    · trivial
    · trivial
    · trivial
  · exact ⟨_, _, _, rfl, by decide, _, _, _, rfl, by decide, _, _, _, rfl, by decide, trivial⟩

/-- **Two entries for one product**: five pieces as `1` and five as `01`, of five that there are. -/
theorem two_entries : ∃ w', (site (Fin 1)).series 0 .idle
      ([(0, addOf "1" "5"), (0, addOf "01" "5")].map turn)
      (.initial smallShop (fun _ ↦ ∅) silent) = some w' ∧
    (w'.carts 7).keys = ["01".toList, "1".toList] ∧ (w'.carts 7).total (spells 1) = 10 ∧
    ¬ CartGood w'.db.skus (w'.carts 7) := by
  have hrun : ((site (Fin 1)).series 0 .idle ([(0, addOf "1" "5"), (0, addOf "01" "5")].map turn)
      (.initial smallShop (fun _ ↦ ∅) silent)).map
        (fun w ↦ ((w.carts 7).keys, (w.carts 7).total (spells 1))) =
      some (["01".toList, "1".toList], 10) := by rfl
  obtain ⟨w', hw', hvalues⟩ := Option.map_eq_some_iff.1 hrun
  obtain ⟨hkeys, htotal⟩ := Prod.mk.inj hvalues
  refine ⟨w', hw', hkeys, htotal, fun hgood ↦ ?_⟩
  have hone : "1".toList ∈ (w'.carts 7).keys := by
    rw [hkeys]
    decide
  have hzeroOne : "01".toList ∈ (w'.carts 7).keys := by
    rw [hkeys]
    decide
  have hsame := hgood.single _ hone _ hzeroOne 1 (by decide) (by decide)
  exact absurd hsame (by decide)

end DailyFresh
