import DailyFresh.Alone.Commands
import DailyFresh.Results.Stock
import DailyFresh.Store.Recent

/-!
# The products last viewed

`DetailView.get` sends three commands to the user's list: the product is removed, pushed to the front, and
the list is cut to five entries. Handled one at a time, these three are `bump 5`, so after any sequence of
views by anybody the list of a user is what `history_eq` says: the first five of the user's own viewed ids
in reverse order, later repetitions dropped. `UserInfoView` asks for the first five entries, which is all
of it.
-/

namespace DailyFresh

open Python Store Interleave OrderCommitView

variable {ι : Type} [DecidableEq ι] {t : ι} {k : ℕ} {w w' : World ι}

/-- A view of a product: the request, the part of the path that names the product, and the process that
handles it. -/
structure Visit (ι : Type) where
  process : ι
  request : HttpRequest
  goodsId : Str

/-- What handles the view. -/
def Visit.program (v : Visit ι) : ι × Program Services Reply :=
  (v.process, DetailView.get v.request v.goodsId)

/-- The ids that a user has viewed, oldest first. -/
def viewed (user : ℕ) (visits : List (Visit ι)) : List Str :=
  (visits.filter fun v ↦ v.request.user = some user).map Visit.goodsId

/-- A view has changed the list of its user, and nothing else. -/
structure Visited (request : HttpRequest) (goodsId : Str) (w w' : World ι) : Prop where
  db : w'.db = w.db
  histories : ∀ user, w'.histories user =
    if request.user = some user then bump 5 (w.histories user) goodsId else w.histories user

/-- The three commands are one `bump`. -/
theorem ends_remember (user : ℕ) (goodsId : Str) :
    (site ι).Ends t k (fun _ w' l ↦ l = .idle ∧ w'.db = w.db ∧
        w'.histories = Function.update w.histories user (bump 5 (w.histories user) goodsId))
      (DetailView.remember user goodsId) w .idle := by
  have hdb : ∀ (v : World ι) list c r, ((v.setHistory user list).record t c r).db = v.db :=
    fun _ _ _ _ ↦ rfl
  rw [DetailView.remember]
  refine ends_ask rfl rfl ?_
  refine ends_ask rfl rfl ?_
  refine ends_ask rfl rfl (.ret ⟨rfl, (hdb ..).trans ((hdb ..).trans (hdb ..)), ?_⟩)
  show Function.update (Function.update (Function.update w.histories user _) user _) user _ = _
  rw [Function.update_idem, Function.update_idem]
  refine congrArg _ ?_
  show (Function.update (Function.update w.histories user _) user _ user).take 5 = _
  rw [Function.update_self]
  show (goodsId :: Function.update w.histories user _ user).take 5 = _
  rw [Function.update_self, bump]

/-- **One view**, handled alone. -/
theorem ends_detail {request : HttpRequest} {goodsId : Str}
    (h : ∃ x, findRow w.db.skus goodsId = .ok x) :
    (site ι).Ends t k (fun _ w' _ ↦ Visited request goodsId w w') (DetailView.get request goodsId) w
      .idle := by
  obtain ⟨⟨n, sku⟩, hfind⟩ := h
  have hrun : run t w .idle (.skuGet goodsId) = some (.ok (n, sku), w, .idle) :=
    congrArg (fun r ↦ some (r, w, Session.idle)) hfind
  rw [DetailView.get]
  refine ends_ask rfl hrun ?_
  rcases huser : request.user with - | user
  · refine .ret ⟨rfl, fun u ↦ ?_⟩
    rw [huser, if_neg (by simp)]
    rfl
  refine ends_ask rfl rfl ((ends_remember user goodsId).bind fun _ w' l hafter ↦ .ret ?_)
  obtain ⟨-, hdb, hhistories⟩ := hafter
  refine ⟨hdb, fun u ↦ ?_⟩
  rw [hhistories]
  by_cases hu : u = user
  · subst hu
    rw [if_pos huser, Function.update_self]
    rfl
  · have hne : ¬ request.user = some u := by
      rw [huser]
      exact fun heq ↦ hu (Option.some.inj heq).symm
    rw [if_neg hne, Function.update_of_ne hu]
    rfl

/-- A sequence of views, handled one at a time, bumps the ids that the user has viewed. -/
theorem series_visits (user : ℕ) {visits : List (Visit ι)}
    (hproducts : ∀ v ∈ visits, ∃ x, findRow w.db.skus v.goodsId = .ok x) :
    ∃ w', (site ι).series k .idle (visits.map Visit.program) w = some w' ∧ w'.db = w.db ∧
      w'.histories user = (viewed user visits).foldl (bump 5) (w.histories user) := by
  induction visits using List.reverseRecOn with
  | nil => exact ⟨w, rfl, rfl, rfl⟩
  | append_singleton visits v ih =>
    obtain ⟨w₁, hseries, hdb, hlist⟩ := ih fun v' hv' ↦ hproducts v' (List.mem_append_left _ hv')
    have hproduct : ∃ x, findRow w₁.db.skus v.goodsId = .ok x :=
      hdb ▸ hproducts v (List.mem_append_right _ (List.mem_singleton_self v))
    obtain ⟨_, w₂, _, hseries₂, hvisited⟩ := (ends_detail (t := v.process) (k := k)
      hproduct).series hseries
    refine ⟨w₂, by rw [List.map_append]; exact hseries₂, hvisited.db.trans hdb, ?_⟩
    rw [hvisited.histories, hlist]
    by_cases hv : v.request.user = some user
    · have hviewed : viewed user (visits ++ [v]) = viewed user visits ++ [v.goodsId] := by
        simp [viewed, hv]
      rw [if_pos hv, hviewed, List.foldl_append, List.foldl_cons, List.foldl_nil]
    · have hviewed : viewed user (visits ++ [v]) = viewed user visits := by
        simp [viewed, hv]
      rw [if_neg hv, hviewed]

/-- **The five most recent products.** However many views of existing products were handled, one at a
time, a user who had no list has the first five of the viewed ids in reverse order without later
repetitions, and `UserInfoView` is answered all of them. -/
theorem history_eq (user : ℕ) (hnew : w.histories user = []) {visits : List (Visit ι)}
    (hproducts : ∀ v ∈ visits, ∃ x, findRow w.db.skus v.goodsId = .ok x) :
    ∃ w', (site ι).series k .idle (visits.map Visit.program) w = some w' ∧
      w'.histories user = (distinct (viewed user visits).reverse).take 5 ∧
      (w'.histories user).Nodup ∧ (w'.histories user).length ≤ 5 ∧
      (exec t w' .idle (.lrange user)).map (·.1) = some (w'.histories user) := by
  obtain ⟨w', hseries, -, hlist⟩ := series_visits (k := k) user hproducts
  rw [hnew, foldl_bump] at hlist
  have hlength : (w'.histories user).length ≤ 5 := by
    rw [hlist]
    exact List.length_take_le _ _
  refine ⟨w', hseries, hlist, ?_, hlength, ?_⟩
  · rw [hlist]
    exact (nodup_distinct _).sublist (List.take_sublist _ _)
  · show some ((w'.histories user).take 5) = some (w'.histories user)
    rw [List.take_of_length_le hlength]

/-- A user's view of a product. -/
def viewOf (user : ℕ) (goodsId : String) : Visit (Fin 1) where
  process := 0
  request := { user := some user, POST := fun _ ↦ none }
  goodsId := goodsId.toList

/-- Two users, three views; the second product is viewed last. -/
theorem history_eq_twoUsers : ∃ w', (site (Fin 1)).series 0 .idle
      ([viewOf 7 "2", viewOf 7 "1", viewOf 8 "1", viewOf 7 "2"].map Visit.program)
      (.initial smallShop (fun _ ↦ ∅) silent) = some w' ∧
    w'.histories 7 = ["2".toList, "1".toList] := by
  have hproducts : ∀ v ∈ [viewOf 7 "2", viewOf 7 "1", viewOf 8 "1", viewOf 7 "2"],
      ∃ x, findRow smallShop.skus v.goodsId = .ok x := by
    intro v hv
    simp only [List.mem_cons, List.not_mem_nil, or_false] at hv
    rcases hv with rfl | rfl | rfl | rfl
    · exact ⟨_, rfl⟩
    · exact ⟨_, rfl⟩
    · exact ⟨_, rfl⟩
    · exact ⟨_, rfl⟩
  obtain ⟨w', hseries, hlist, -⟩ := history_eq (ι := Fin 1) (t := 0) (k := 0)
    (w := .initial smallShop (fun _ ↦ ∅) silent) 7 rfl hproducts
  exact ⟨w', hseries, hlist.trans (by decide)⟩

end DailyFresh
