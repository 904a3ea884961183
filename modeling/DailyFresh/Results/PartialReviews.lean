import DailyFresh.Alone.Reviews
import DailyFresh.Results.StaleSave

/-!
# Reviews that are saved in part

`CommentView.post` saves one comment per round and has no transaction around its loop, so an exception in
a later round does not take back what the earlier ones have saved. `sameReviews_iff`: an exception leaves every
comment and the status of the order as they were if and only if each line that was reached before the
exception had, as it stood, the last comment sent for it.
-/

namespace DailyFresh

open Python Store Interleave CommentView

variable {ι : Type} [DecidableEq ι] {t : ι} {k : ℕ} {w : World ι}

/-- If a round of the request raises, then the rounds before it have changed no comment: the last one
saved at a line is the one that the line had. -/
def CommentView.Harmless (db : Db) (request : HttpRequest) (orderId : Str) : Prop :=
  ∀ row rounds, reached db request orderId = some (row, rounds) →
    raises db.lines orderId request rounds = true →
    ∀ id text line, lastEdit (saves db.lines orderId request rounds) id = some text →
      db.lines[id]? = some line → line.comment = text

/-- Every comment, and the status of every order, are as they were. -/
structure SameReviews (db db' : Db) : Prop where
  comments : db'.lines.map (·.comment) = db.lines.map (·.comment)
  statuses : ∀ orderId, (db'.orders orderId).map (·.orderStatus) = (db.orders orderId).map (·.orderStatus)

/-- **All or nothing**: what a request with reviews leaves when it ends in an exception. -/
theorem sameReviews_iff (request : HttpRequest) {orderId : Str} (hfits : orderId.length ≤ 128)
    (hfree : w.orderLock orderId = none) :
    (site ι).Ends t k
      (fun reply w' _ ↦ (reply = .error → SameReviews w.db w'.db) ↔ Harmless w.db request orderId)
      (CommentView.post request orderId) w .idle := by
  refine (ends_comment request hfits hfree).mono fun reply w' _ ⟨_, hresult⟩ ↦ ?_
  rw [result] at hresult
  rcases hreached : reached w.db request orderId with - | ⟨row, rounds⟩
  · rw [hreached] at hresult
    obtain ⟨rfl, hdb⟩ := Prod.mk.inj hresult
    refine iff_of_true (fun _ ↦ ?_) fun row rounds h ↦ ?_
    · rw [hdb]
      exact ⟨rfl, fun _ ↦ rfl⟩
    · cases hreached.symm.trans h
  rw [hreached] at hresult
  dsimp only at hresult
  have hharmless : Harmless w.db request orderId ↔
      (raises w.db.lines orderId request rounds = true → ∀ id text line,
        lastEdit (saves w.db.lines orderId request rounds) id = some text →
        w.db.lines[id]? = some line → commentColumn.get line = text) := by
    constructor
    · exact fun h ↦ h row rounds hreached
    · intro h row' rounds' hreached'
      obtain ⟨rfl, rfl⟩ := Prod.mk.inj (Option.some.inj (hreached.symm.trans hreached'))
      exact h
  rw [hharmless, ← commentColumn.map_get_editAll_eq_iff]
  by_cases hraises : raises w.db.lines orderId request rounds = true
  · rw [if_pos hraises] at hresult
    obtain ⟨rfl, hdb⟩ := Prod.mk.inj hresult
    rw [hdb]
    constructor
    · exact fun h _ ↦ (h rfl).comments
    · exact fun h _ ↦ ⟨h hraises, fun _ ↦ rfl⟩
  · rw [if_neg hraises] at hresult
    obtain ⟨rfl, -⟩ := Prod.mk.inj hresult
    exact iff_of_true (fun h ↦ by cases h) fun h ↦ absurd h hraises

/-- An order of user 7 with two lines. -/
def twoLines : Db :=
  { smallShop with
    orders := Table.empty.set "202004210930007".toList { toBePaid with orderStatus := .toReview }
    lines := [1, 2].map fun sku ↦ { order := "202004210930007".toList, sku, count := .lit 1 (.refl true),
                                    price := .lit 250 (.refl true), comment := .empty } }

/-- User 7 reviews two lines; `sku` is what the form says the second one is. -/
def reviewBoth (sku : String) : HttpRequest where
  user := some 7
  POST := formData [("total_count", "2"), ("sku_1", "1"), ("content_1", "good"), ("sku_2", sku),
    ("content_2", "fresh")]

/-- A form with two reviews that can be saved. -/
theorem sameReviews_iff_reviewBoth : (site (Fin 1)).Ends 0 0
    (fun reply w' _ ↦ reply = .error → SameReviews twoLines w'.db)
    (CommentView.post (reviewBoth "2") "202004210930007".toList)
    (.initial twoLines (fun _ ↦ ∅) silent) .idle := by
  refine (sameReviews_iff (reviewBoth "2") (by decide) (by rfl)).mono fun _ _ _ hiff ↦ hiff.2 ?_
  intro row rounds hreached hraises
  obtain ⟨-, n, -, -, -, -, hn, rfl⟩ := reached_eq_some_iff.1 hreached
  cases hn
  exact absurd hraises (by decide)

/-- **Half of the reviews**: the form names no number as the second product, and the first review stays. -/
theorem half_saved : ∃ w', (site (Fin 1)).solo 0 0
      (CommentView.post (reviewBoth "two") "202004210930007".toList)
      (.initial twoLines (fun _ ↦ ∅) silent) .idle = some (.error, w', .idle) ∧
    w'.db.lines.map (·.comment.val) = ["good".toList, []] ∧ ¬ SameReviews twoLines w'.db := by
  obtain ⟨reply, w', l', hsolo, rfl, hresult⟩ :=
    ends_comment (t := (0 : Fin 1)) (k := 0) (w := .initial twoLines (fun _ ↦ ∅) silent)
      (reviewBoth "two") (show "202004210930007".toList.length ≤ 128 by decide) (by rfl)
  obtain ⟨rfl, hdb⟩ := Prod.mk.inj hresult
  have hcomments : w'.db.lines.map (·.comment.val) = ["good".toList, []] := by
    rw [hdb]
    rfl
  refine ⟨w', hsolo, hcomments, fun h ↦ ?_⟩
  have hsame := congrArg (List.map Subtype.val) h.comments
  rw [List.map_map] at hsame
  cases hcomments.symm.trans hsame

end DailyFresh
