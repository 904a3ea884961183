import DailyFresh.Alone.Commands
import DailyFresh.Store.Edits

/-!
# Reviews that are posted alone

`CommentView.post` saves one comment per round of its loop, outside any transaction. `round` says what a
round does, as a function of the lines and of the form: it skips, saves a comment at a line, or raises.
Which line a round finds does not depend on comments, so the rounds can be read off the lines before the
request: `saves` are the comments saved by the rounds before the first that raises.

`ends_comment` derives from the program of the view that the request leaves exactly these saves, and in
addition the new status of the order if no round raises.
-/

namespace DailyFresh

open Python Store Interleave OrderCommitView

/-- The column `comment`. -/
def commentColumn : Lens OrderGoods (CharField 156) where
  get line := line.comment
  put line comment := { line with comment }
  get_put _ _ := rfl
  put_get _ := rfl
  put_put _ _ _ := rfl

/-- What a line is found by. -/
def OrderGoods.key (line : OrderGoods) : Str × ℕ := (line.order, line.sku)

/-! ### Finding lines -/

/-- The places of the lines of an order with a product. -/
def places (lines : List OrderGoods) (order : Str) (n : ℤ) : List ℕ :=
  (lines.zipIdx.filter fun x ↦ x.1.order = order ∧ (x.1.sku : ℤ) = n).map (·.2)

theorem places_congr {lines lines' : List OrderGoods}
    (h : lines.map OrderGoods.key = lines'.map OrderGoods.key) (order : Str) (n : ℤ) :
    places lines order n = places lines' order n := by
  have hkeys : ∀ lines : List OrderGoods, places lines order n =
      ((lines.map OrderGoods.key).zipIdx.filter fun x ↦ x.1.1 = order ∧ (x.1.2 : ℤ) = n).map (·.2) := by
    intro lines
    rw [List.zipIdx_map, List.filter_map, List.map_map]
    rfl
  rw [hkeys, hkeys, h]

/-- The place of the line that a round finds. -/
theorem findLine_fst (lines : List OrderGoods) (order : Str) (skuId : Option Str) :
    (findLine lines order skuId).map (·.1) =
      match skuId with
      | none => .error .doesNotExist
      | some skuId =>
        match int skuId with
        | none => .error .valueError
        | some n =>
          match places lines order n with
          | [] => .error .doesNotExist
          | [id] => .ok id
          | _ => .error .multipleObjectsReturned := by
  rcases skuId with - | skuId
  · rfl
  unfold findLine places
  rcases hint : int skuId with - | n
  · simp only [hint]
    rfl
  simp only [hint]
  generalize lines.zipIdx.filter _ = found
  rcases found with - | ⟨x, - | ⟨y, rest⟩⟩
  · rfl
  · rfl
  · rfl

namespace CommentView

/-- What a round of the loop does. -/
inductive Round where
  /-- `continue`. -/
  | skip
  /-- A comment is saved at the line with this id. -/
  | save (id : ℕ) (comment : CharField 156)
  /-- An exception leaves the view. -/
  | raise
  deriving DecidableEq

/-- Round `i`. -/
def round (lines : List OrderGoods) (orderId : Str) (request : HttpRequest) (i : ℕ) : Round :=
  match (findLine lines orderId (request.POST ("sku_".toList ++ str i))).map (·.1) with
  | .error .doesNotExist => .skip
  | .error _ => .raise
  | .ok id =>
    match TextColumn.store? 156 ((request.POST ("content_".toList ++ str i)).getD []) with
    | some comment => .save id comment
    | none => .raise

/-- The comments that the rounds before the first one that raises save. -/
def saves (lines : List OrderGoods) (orderId : Str) (request : HttpRequest) :
    List ℕ → List (ℕ × CharField 156)
  | [] => []
  | i :: rest =>
    match round lines orderId request i with
    | .skip => saves lines orderId request rest
    | .save id comment => (id, comment) :: saves lines orderId request rest
    | .raise => []

/-- Some round raises. -/
def raises (lines : List OrderGoods) (orderId : Str) (request : HttpRequest) (rounds : List ℕ) : Bool :=
  rounds.any fun i ↦ round lines orderId request i = .raise

theorem round_of_findLine (lines : List OrderGoods) (orderId : Str) (request : HttpRequest) (i : ℕ) :
    round lines orderId request i =
      match findLine lines orderId (request.POST ("sku_".toList ++ str i)) with
      | .error .doesNotExist => .skip
      | .error _ => .raise
      | .ok x =>
        match TextColumn.store? 156 ((request.POST ("content_".toList ++ str i)).getD []) with
        | some comment => .save x.1 comment
        | none => .raise := by
  rw [round]
  rcases findLine lines orderId (request.POST ("sku_".toList ++ str i)) with e | x
  · cases e with
    | doesNotExist => rfl
    | _ => rfl
  · rfl

theorem round_congr {lines lines' : List OrderGoods}
    (h : lines.map OrderGoods.key = lines'.map OrderGoods.key) (orderId : Str) (request : HttpRequest) :
    round lines orderId request = round lines' orderId request := by
  funext i
  rw [round, round, findLine_fst, findLine_fst]
  simp only [places_congr h]

theorem saves_congr {lines lines' : List OrderGoods}
    (h : lines.map OrderGoods.key = lines'.map OrderGoods.key) (orderId : Str) (request : HttpRequest)
    (rounds : List ℕ) :
    saves lines orderId request rounds = saves lines' orderId request rounds ∧
      raises lines orderId request rounds = raises lines' orderId request rounds := by
  have hround := round_congr h orderId request
  refine ⟨?_, by rw [raises, raises, hround]⟩
  induction rounds with
  | nil => rfl
  | cons i rest ih => rw [saves, saves, hround, ih]

end CommentView

open CommentView

variable {ι β : Type} [DecidableEq ι] {t : ι} {k : ℕ} {w : World ι}

omit [DecidableEq ι] in
/-- The world with other lines. -/
def World.withLines (w : World ι) (lines : List OrderGoods) : World ι :=
  { w with db := { w.db with lines } }

/-- Only the lines have changed. -/
structure Reviewed (lines : List OrderGoods) (w w' : World ι) : Prop where
  db : w'.db = { w.db with lines }
  orderLock : w'.orderLock = w.orderLock

omit [DecidableEq ι] in
theorem Reviewed.trans {lines lines' : List OrderGoods} {w' v : World ι} (h : Reviewed lines w w')
    (h' : Reviewed lines' w' v) : Reviewed lines' w v where
  db := by rw [h'.db, h.db]
  orderLock := h'.orderLock.trans h.orderLock

/-- **The save of a line's comment**: the column refuses it, or it is written. -/
theorem ends_lineSave {Q : β → World ι → Session → Prop} {f : Except DbError Unit → Program Services β}
    {id : ℕ} {line : OrderGoods} {comment : Str} (hline : w.db.lines[id]? = some line)
    (hnone : TextColumn.store? 156 comment = none → (site ι).Ends t k Q (f (.error .dataError))
      (w.record t (.lineSave id line comment) (.error .dataError)) .idle)
    (hsome : ∀ text, TextColumn.store? 156 comment = some text → (site ι).Ends t k Q (f (.ok ()))
      ((w.withLines (w.db.lines.modify id (commentColumn.put · text))).record t
        (.lineSave id line comment) (.ok ())) .idle) :
    (site ι).Ends t k Q (ask (.lineSave id line comment) >>= f) w .idle := by
  rcases hstore : TextColumn.store? 156 comment with - | text
  · have hrun : run t w .idle (.lineSave id line comment) = some (.error .dataError, w, .idle) := by
      rw [run, hstore]
      rfl
    exact ends_ask rfl hrun (hnone hstore)
  · have hset : w.db.lines.modify id (commentColumn.put · text) =
        w.db.lines.set id { line with comment := text } := by
      rw [List.modify_eq_set_getElem?, hline]
      rfl
    have hrun : run t w .idle (.lineSave id line comment) =
        some (.ok (), w.withLines (w.db.lines.modify id (commentColumn.put · text)), .idle) := by
      rw [run, hstore, hset]
      rfl
    exact ends_ask rfl hrun (hsome text hstore)

/-- **The loop**, alone. -/
theorem ends_saveComments (request : HttpRequest) (orderId : Str) (rounds : List ℕ) :
    (site ι).Ends t k
      (fun ok w' l ↦ l = .idle ∧ ok = !raises w.db.lines orderId request rounds ∧
        Reviewed (commentColumn.editAll w.db.lines (saves w.db.lines orderId request rounds)) w w')
      (saveComments request orderId rounds) w .idle := by
  induction rounds generalizing w with
  | nil => exact .ret ⟨rfl, rfl, rfl, rfl⟩
  | cons i rest ih =>
    have hlines : w.lines .idle = w.db.lines := List.append_nil _
    have hrun : run t w .idle (.lineGet orderId (request.POST ("sku_".toList ++ str i))) =
        some (findLine w.db.lines orderId (request.POST ("sku_".toList ++ str i)), w, .idle) := by
      rw [run, hlines]
    have hdone : ∀ (w' : World ι), Reviewed w.db.lines w w' →
        (site ι).Ends t k
          (fun ok v l ↦ l = .idle ∧ ok = !raises w.db.lines orderId request rest ∧
            Reviewed (commentColumn.editAll w.db.lines (saves w.db.lines orderId request rest)) w v)
          (saveComments request orderId rest) w' .idle := by
      intro w' hw'
      refine (ih (w := w')).mono fun ok v l hv ↦ ?_
      have hsame : w'.db.lines = w.db.lines := by rw [hw'.db]
      rw [hsame] at hv
      exact ⟨hv.1, hv.2.1, hw'.trans hv.2.2⟩
    have hround := round_of_findLine w.db.lines orderId request i
    rw [saveComments, saves, raises, List.any_cons]
    refine ends_ask rfl hrun ?_
    rcases hfind : findLine w.db.lines orderId (request.POST ("sku_".toList ++ str i)) with e | ⟨id, line⟩
    · rw [hfind] at hround
      cases e with
      | doesNotExist =>
        rw [hround]
        exact hdone _ ⟨rfl, rfl⟩
      | _ =>
        rw [hround]
        exact .ret ⟨rfl, rfl, rfl, rfl⟩
    rw [hfind] at hround
    dsimp only at hround ⊢
    refine ends_lineSave (findLine_eq_ok hfind).1 (fun hstore ↦ .ret ?_) fun text hstore ↦ ?_
    · rw [hround, hstore]
      exact ⟨rfl, rfl, rfl, rfl⟩
    · rw [hround, hstore]
      -- the next rounds find what they would have found before the save
      generalize hlines' : w.db.lines.modify id (commentColumn.put · text) = lines'
      have hkeys : lines'.map OrderGoods.key = w.db.lines.map OrderGoods.key := by
        rw [← hlines']
        exact commentColumn.map_editAll OrderGoods.key (fun _ _ ↦ rfl) w.db.lines [(id, text)]
      have hedit : commentColumn.editAll w.db.lines ((id, text) :: saves w.db.lines orderId request rest) =
          commentColumn.editAll lines' (saves w.db.lines orderId request rest) := by
        rw [Lens.editAll_cons, hlines']
      obtain ⟨hsaves, hraises⟩ := saves_congr hkeys orderId request rest
      refine ih.mono fun ok v l hended ↦ ?_
      obtain ⟨hl, hok, hv⟩ := hended
      refine ⟨hl, ?_, ?_, hv.orderLock⟩
      · show ok = !raises w.db.lines orderId request rest
        rw [← hraises, ← hlines']
        exact hok
      · show v.db = { w.db with
          lines := commentColumn.editAll w.db.lines ((id, text) :: saves w.db.lines orderId request rest) }
        rw [hedit, ← hsaves, ← hlines']
        exact hv.db

/-! ### The whole request -/

namespace CommentView

/-- The order and the rounds of the loop, for a request that gets to it. -/
def reached (db : Db) (request : HttpRequest) (orderId : Str) : Option (OrderInfo × List ℕ) :=
  match request.user, db.orders orderId, (request.POST "total_count".toList).bind int with
  | some user, some row, some totalCount =>
    if orderId ≠ [] ∧ row.satisfies user none none then some (row, List.range' 1 totalCount.toNat)
    else none
  | _, _, _ => none

/-- The reply to a request that ran alone, and the tables after it. -/
def result (db : Db) (request : HttpRequest) (orderId : Str) : Reply × Db :=
  match reached db request orderId with
  | none => (.error, db)
  | some (row, rounds) =>
    let lines := commentColumn.editAll db.lines (saves db.lines orderId request rounds)
    if raises db.lines orderId request rounds then (.error, { db with lines })
    else
      let row := { row with orderStatus := .finished }
      (.userOrder 1, { db with lines, orders := db.orders.set orderId row })

theorem reached_eq_some_iff {db : Db} {request : HttpRequest} {orderId : Str} {row : OrderInfo}
    {rounds : List ℕ} : reached db request orderId = some (row, rounds) ↔
      ∃ user totalCount, request.user = some user ∧ orderId ≠ [] ∧ db.orders orderId = some row ∧
        row.satisfies user none none = true ∧
        (request.POST "total_count".toList).bind int = some totalCount ∧
        rounds = List.range' 1 totalCount.toNat := by
  unfold reached
  generalize request.user = user?, (request.POST "total_count".toList).bind int = count?
  rcases user? with - | user
  · simp
  rcases hrow : db.orders orderId with - | row'
  · simp
  rcases count? with - | totalCount
  · simp
  dsimp only
  split
  · rename_i h
    constructor
    · intro hsome
      obtain ⟨rfl, rfl⟩ := Prod.mk.inj (Option.some.inj hsome)
      exact ⟨user, totalCount, rfl, h.1, rfl, h.2, rfl, rfl⟩
    · rintro ⟨_, _, ⟨⟩, -, ⟨⟩, -, ⟨⟩, rfl⟩
      rfl
  · rename_i h
    constructor
    · rintro ⟨⟩
    · rintro ⟨_, _, ⟨⟩, hne, ⟨⟩, hown, ⟨⟩, rfl⟩
      exact absurd ⟨hne, hown⟩ h

theorem reached_eq_none {db : Db} {request : HttpRequest} {orderId : Str}
    (h : ∀ user row totalCount, request.user = some user → orderId ≠ [] →
      db.orders orderId = some row → row.satisfies user none none = true →
      (request.POST "total_count".toList).bind int = some totalCount → False) :
    reached db request orderId = none := by
  rcases hreached : reached db request orderId with - | ⟨row, rounds⟩
  · rfl
  · obtain ⟨user, totalCount, huser, hne, hrow, hown, hcount, -⟩ := reached_eq_some_iff.1 hreached
    exact absurd hcount fun hcount ↦ h user row totalCount huser hne hrow hown hcount

end CommentView

/-- **A request with reviews that runs alone** comes to `result`. -/
theorem ends_comment (request : HttpRequest) {orderId : Str} (hfits : orderId.length ≤ 128)
    (hfree : w.orderLock orderId = none) :
    (site ι).Ends t k (fun reply w' l ↦ l = .idle ∧ (reply, w'.db) = result w.db request orderId)
      (CommentView.post request orderId) w .idle := by
  have hnone : reached w.db request orderId = none →
      (.error, w.db) = result w.db request orderId := fun h ↦ by rw [result, h]
  rw [CommentView.post]
  rcases huser : request.user with - | user
  · refine .ret ⟨rfl, hnone (reached_eq_none fun user row n huser' _ _ _ _ ↦ ?_)⟩
    cases huser.symm.trans huser'
  dsimp only
  by_cases hempty : orderId = []
  · rw [if_pos hempty]
    exact .ret ⟨rfl, hnone (reached_eq_none fun _ _ _ _ hne _ _ _ ↦ hne hempty)⟩
  rw [if_neg hempty]
  rcases hrow : w.orders .idle orderId with - | row
  · have hrun : run t w .idle (.orderGet orderId user none none) =
        some (.error .doesNotExist, w, .idle) := by
      rw [run, hrow]
    refine ends_ask rfl hrun (.ret ⟨rfl, hnone (reached_eq_none fun _ row _ _ _ hrow' _ _ ↦ ?_)⟩)
    cases hrow.symm.trans hrow'
  by_cases hown : row.satisfies user none none = true
  · refine ends_ask rfl (run_orderGet_of_satisfies hrow hown) ?_
    rcases hcount : (request.POST "total_count".toList).bind int with - | totalCount
    · refine .ret ⟨rfl, hnone (reached_eq_none fun _ _ n _ _ _ _ hcount' ↦ ?_)⟩
      cases hcount.symm.trans hcount'
    have hreached : reached w.db request orderId = some (row, List.range' 1 totalCount.toNat) :=
      reached_eq_some_iff.2 ⟨user, totalCount, huser, hempty, hrow, hown, hcount, rfl⟩
    refine (ends_saveComments request orderId _).bind fun ok w' l hended ↦ ?_
    obtain ⟨rfl, rfl, hw'⟩ := hended
    generalize hrounds : List.range' 1 totalCount.toNat = rounds at hreached hw' ⊢
    have hdb : w'.db = { w.db with
        lines := commentColumn.editAll w.db.lines (saves w.db.lines orderId request rounds) } := hw'.db
    have hlock : w'.orderLock orderId = none := (congrFun hw'.orderLock orderId).trans hfree
    show (site ι).Ends t k _ (if (!raises w.db.lines orderId request rounds) = true then _ else _) w' .idle
    rcases hraises : raises w.db.lines orderId request rounds
    · have hfinished : OrderObject.row? { row.object orderId with orderStatus := .finished } =
          some { row with orderStatus := .finished } :=
        OrderObject.row?_eq_some_iff.2 ⟨hfits, rfl⟩
      refine ends_orderSave hlock (fun hnone' ↦ ?_) fun new hnew ↦ .ret ⟨rfl, ?_⟩
      · cases hfinished.symm.trans hnone'
      · obtain rfl := Option.some.inj (hfinished.symm.trans hnew)
        rw [result, hreached]
        dsimp only
        rw [hraises]
        show (Reply.userOrder 1, (w'.withOrder orderId { row with orderStatus := .finished }).db) = _
        rw [World.withOrder, hdb]
        rfl
    · refine .ret ⟨rfl, ?_⟩
      rw [result, hreached]
      dsimp only
      rw [if_pos hraises, hdb]
  · have hrun : run t w .idle (.orderGet orderId user none none) =
        some (.error .doesNotExist, w, .idle) := by
      rw [run, hrow]
      simp only [hown, if_false, Bool.false_eq_true]
    refine ends_ask rfl hrun (.ret ⟨rfl, hnone (reached_eq_none fun user' row' _ huser' _ hrow' hown' _ ↦ ?_)⟩)
    obtain rfl := Option.some.inj (huser.symm.trans huser')
    obtain rfl := Option.some.inj (hrow.symm.trans hrow')
    exact hown hown'

end DailyFresh
