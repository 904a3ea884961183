import DailyFresh.Alone.Commands
import DailyFresh.Site.Stores

/-!
# Cart requests that run alone

`Request.change` says what `CartAddView`, `CartUpdateView` and `CartDeleteView` do to a cart when nobody
else is moving: a request that passes the checks of its view puts a count under a field, or drops a field,
and names the product that the field denotes. `ends_cartAdd`, `ends_cartUpdate` and `ends_cartDelete`
derive it from the views' programs.
-/

namespace DailyFresh

open Python Store Interleave OrderCommitView

/-- What happens to a cart; `sku` is the product that the field denotes. -/
inductive CartChange where
  | put (field : Str) (sku : ℕ) (count : ℤ)
  | drop (field : Str) (sku : ℕ)
  deriving DecidableEq

namespace CartChange

/-- The field that is written or deleted. -/
def field : CartChange → Str
  | put field _ _ => field
  | drop field _ => field

/-- The product that the field denotes. -/
def sku : CartChange → ℕ
  | put _ sku _ => sku
  | drop _ sku => sku

/-- The cart afterwards. -/
def apply (cart : Cart) : CartChange → Cart
  | put field _ count => cart.insert field count
  | drop field _ => cart.hdel [field]

end CartChange

/-- The carts after a change of one user's, if there is one. -/
def changeCarts (carts : ℕ → Cart) : Option (ℕ × CartChange) → ℕ → Cart
  | none => carts
  | some (user, change) => Function.update carts user (change.apply (carts user))

namespace CartAddView

/-- What the view does to the carts. -/
def change (db : Db) (carts : ℕ → Cart) (request : HttpRequest) : Option (ℕ × CartChange) :=
  match request.user, nonempty (request.POST "sku_id".toList), nonempty (request.POST "count".toList) with
  | some user, some skuId, some text =>
    match int text, findRow db.skus skuId with
    | some count, .ok (n, sku) =>
      if count + ((carts user).lookup skuId).getD 0 > sku.stock.val then none
      else some (user, .put skuId n (count + ((carts user).lookup skuId).getD 0))
    | _, _ => none
  | _, _, _ => none

end CartAddView

namespace CartUpdateView

/-- What the view does to the carts. -/
def change (db : Db) (request : HttpRequest) : Option (ℕ × CartChange) :=
  match request.user, nonempty (request.POST "sku_id".toList), nonempty (request.POST "count".toList) with
  | some user, some skuId, some text =>
    match int text, findRow db.skus skuId with
    | some count, .ok (n, sku) =>
      if count > sku.stock.val then none else some (user, .put skuId n count)
    | _, _ => none
  | _, _, _ => none

end CartUpdateView

namespace CartDeleteView

/-- What the view does to the carts. -/
def change (db : Db) (request : HttpRequest) : Option (ℕ × CartChange) :=
  match request.user, nonempty (request.POST "sku_id".toList) with
  | some user, some skuId =>
    match findRow db.skus skuId with
    | .ok (n, _) => some (user, .drop skuId n)
    | .error _ => none
  | _, _ => none

end CartDeleteView

/-- A deletion drops the field of its form. -/
theorem CartDeleteView.change_eq_some_iff {db : Db} {request : HttpRequest} {user : ℕ}
    {change : CartChange} : CartDeleteView.change db request = some (user, change) ↔
      request.user = some user ∧ ∃ field n row, nonempty (request.POST "sku_id".toList) = some field ∧
        findRow db.skus field = .ok (n, row) ∧ change = .drop field n := by
  rw [CartDeleteView.change]
  constructor
  · intro h
    split at h
    · rename_i user' field huser hfield
      split at h
      · rename_i n row hfind
        cases h
        exact ⟨huser, field, n, row, hfield, hfind, rfl⟩
      · cases h
    · cases h
  · rintro ⟨huser, field, n, row, hfield, hfind, rfl⟩
    simp only [huser, hfield, hfind]

/-- What a cart request does to the carts. -/
def Request.change (db : Db) (carts : ℕ → Cart) : Request → Option (ℕ × CartChange)
  | cartAdd request => CartAddView.change db carts request
  | cartUpdate request => CartUpdateView.change db request
  | cartDelete request => CartDeleteView.change db request
  | _ => none

variable {ι : Type} [DecidableEq ι] {t : ι} {k : ℕ} {w : World ι} {request : HttpRequest}

/-- The carts have changed, and nothing else that a cart request reads. -/
structure Changed (change : Option (ℕ × CartChange)) (w w' : World ι) : Prop where
  db : w'.db = w.db
  carts : w'.carts = changeCarts w.carts change

theorem ends_cartAdd : (site ι).Ends t k
    (fun _ w' _ ↦ Changed (CartAddView.change w.db w.carts request) w w')
    (CartAddView.post request) w .idle := by
  rw [CartAddView.post, CartAddView.change]
  rcases request.user with - | user
  · exact .ret ⟨rfl, rfl⟩
  rcases nonempty (request.POST "sku_id".toList) with - | skuId
  · exact .ret ⟨rfl, rfl⟩
  rcases nonempty (request.POST "count".toList) with - | text
  · exact .ret ⟨rfl, rfl⟩
  dsimp only
  rcases int text with - | count
  · exact .ret ⟨rfl, rfl⟩
  have hrun : run t w .idle (.skuGet skuId) = some (findRow w.db.skus skuId, w, .idle) := rfl
  refine ends_ask rfl hrun ?_
  rcases findRow w.db.skus skuId with e | ⟨n, sku⟩
  · exact .ret ⟨rfl, rfl⟩
  refine ends_ask rfl rfl ?_
  show (site ι).Ends t k _ (if count + ((w.carts user).lookup skuId).getD 0 > sku.stock.val then _
    else _) _ _
  by_cases hstock : count + ((w.carts user).lookup skuId).getD 0 > sku.stock.val
  · simp only [if_pos hstock]
    exact .ret ⟨rfl, rfl⟩
  · simp only [if_neg hstock]
    exact ends_ask rfl rfl (ends_ask rfl rfl (.ret ⟨rfl, rfl⟩))

theorem ends_cartUpdate : (site ι).Ends t k
    (fun _ w' _ ↦ Changed (CartUpdateView.change w.db request) w w')
    (CartUpdateView.post request) w .idle := by
  rw [CartUpdateView.post, CartUpdateView.change]
  rcases request.user with - | user
  · exact .ret ⟨rfl, rfl⟩
  rcases nonempty (request.POST "sku_id".toList) with - | skuId
  · exact .ret ⟨rfl, rfl⟩
  rcases nonempty (request.POST "count".toList) with - | text
  · exact .ret ⟨rfl, rfl⟩
  dsimp only
  rcases int text with - | count
  · exact .ret ⟨rfl, rfl⟩
  have hrun : run t w .idle (.skuGet skuId) = some (findRow w.db.skus skuId, w, .idle) := rfl
  refine ends_ask rfl hrun ?_
  rcases findRow w.db.skus skuId with e | ⟨n, sku⟩
  · exact .ret ⟨rfl, rfl⟩
  dsimp only
  by_cases hstock : count > sku.stock.val
  · simp only [if_pos hstock]
    exact .ret ⟨rfl, rfl⟩
  · simp only [if_neg hstock]
    exact ends_ask rfl rfl (ends_ask rfl rfl (.ret ⟨rfl, rfl⟩))

/-- A deletion says whether it has deleted. -/
theorem ends_cartDelete : (site ι).Ends t k
    (fun reply w' _ ↦ Changed (CartDeleteView.change w.db request) w w' ∧
      (reply.res = some 3 ↔ (CartDeleteView.change w.db request).isSome = true))
    (CartDeleteView.post request) w .idle := by
  rw [CartDeleteView.post, CartDeleteView.change]
  rcases request.user with - | user
  · exact .ret ⟨⟨rfl, rfl⟩, by simp⟩
  rcases nonempty (request.POST "sku_id".toList) with - | skuId
  · exact .ret ⟨⟨rfl, rfl⟩, by simp⟩
  dsimp only
  have hrun : run t w .idle (.skuGet skuId) = some (findRow w.db.skus skuId, w, .idle) := rfl
  refine ends_ask rfl hrun ?_
  rcases findRow w.db.skus skuId with e | ⟨n, sku⟩
  · exact .ret ⟨⟨rfl, rfl⟩, by simp⟩
  · refine ends_ask rfl rfl (ends_ask rfl rfl (.ret ⟨⟨rfl, rfl⟩, ?_⟩))
    simp [Reply.res]

end DailyFresh
