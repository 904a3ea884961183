import DailyFresh.Alone.Reviews
import DailyFresh.Results.Retry
import DailyFresh.Results.StaleSave

/-!
# The review form

`order_comment.html` numbers the lines of an order and sends the product of each; `CommentView.post` finds
the lines again by order and product. `review_roundTrip_iff`: for an order that a run has placed, the form
that the view renders, filled in with any texts and submitted, is a round trip if and only if the order has
no product twice. Its lines are of products that the list of its checkout names, so a list that names a
product twice can give an order that nobody can review.
-/

namespace DailyFresh

open Python Store Interleave CommentView

/-! ### The fields of the form -/

/-- Fields with different numbers have different names. -/
theorem field_beq_of_ne (name : Str) {i j : ℕ} (h : i ≠ j) : (name ++ str i == name ++ str j) = false := by
  rw [beq_eq_false_iff_ne]
  exact fun heq ↦ h (str_injective (List.append_cancel_left heq))

/-- **What the form sends for a line**: its product, and the text. -/
theorem lookup_lineFields (texts : ℕ → Str) (lines : List OrderGoods) (counter i : ℕ) :
    (lineFields texts counter lines).lookup ("sku_".toList ++ str (counter + i)) =
        lines[i]?.map (fun line ↦ str line.sku) ∧
      (lineFields texts counter lines).lookup ("content_".toList ++ str (counter + i)) =
        lines[i]?.map fun _ ↦ texts (counter + i) := by
  have hskuContent : ∀ i j, ("sku_".toList ++ str i == "content_".toList ++ str j) = false :=
    fun i j ↦ beq_eq_false_iff_ne.2 fun heq ↦ by cases heq
  have hcontentSku : ∀ i j, ("content_".toList ++ str i == "sku_".toList ++ str j) = false :=
    fun i j ↦ beq_eq_false_iff_ne.2 fun heq ↦ by cases heq
  induction lines generalizing counter i with
  | nil => exact ⟨rfl, rfl⟩
  | cons line rest ih =>
    rw [lineFields]
    rcases i with - | i
    · rw [Nat.add_zero, List.lookup_cons_self, List.lookup_cons, hcontentSku, List.lookup_cons_self]
      exact ⟨rfl, rfl⟩
    · have hne : counter + (i + 1) ≠ counter := by omega
      rw [List.lookup_cons, field_beq_of_ne _ hne, List.lookup_cons, hskuContent, List.lookup_cons,
        hcontentSku, List.lookup_cons, field_beq_of_ne _ hne,
        show counter + (i + 1) = counter + 1 + i by omega]
      exact ih (counter + 1) i

/-- The form as a request of a user. -/
def CommentView.submit (user : ℕ) (order : OrderObject) (orderSkus : List OrderGoods)
    (texts : ℕ → CharField 156) : HttpRequest where
  user := some user
  POST key := (formFields order orderSkus fun i ↦ (texts i).val).lookup key

section Fields

variable (user : ℕ) (order : OrderObject) (orderSkus : List OrderGoods) (texts : ℕ → CharField 156)

theorem submit_totalCount :
    ((submit user order orderSkus texts).POST "total_count".toList).bind int =
      some (orderSkus.length : ℤ) := by
  show ((formFields order orderSkus fun i ↦ (texts i).val).lookup "total_count".toList).bind int = _
  rw [formFields, List.lookup_cons, show ("total_count".toList == "order_id".toList) = false by decide,
    List.lookup_cons_self, Option.bind_some, int_str]

/-- The fields of the `i`-th line. -/
theorem submit_line {i : ℕ} {line : OrderGoods} (hi : 1 ≤ i) (hline : orderSkus[i - 1]? = some line) :
    (submit user order orderSkus texts).POST ("sku_".toList ++ str i) = some (str line.sku) ∧
      (submit user order orderSkus texts).POST ("content_".toList ++ str i) = some (texts i).val := by
  have hfirst : ∀ (c : Char) (name rest : Str), c ≠ 'o' → c ≠ 't' →
      (formFields order orderSkus fun i ↦ (texts i).val).lookup (c :: name ++ rest) =
        (lineFields (fun i ↦ (texts i).val) 1 orderSkus).lookup (c :: name ++ rest) := by
    intro c name rest ho ht
    have hid : (c :: name ++ rest == "order_id".toList) = false :=
      beq_eq_false_iff_ne.2 fun heq ↦ ho (List.cons.inj heq).1
    have hcount : (c :: name ++ rest == "total_count".toList) = false :=
      beq_eq_false_iff_ne.2 fun heq ↦ ht (List.cons.inj heq).1
    rw [formFields, List.lookup_cons, hid, List.lookup_cons, hcount]
  obtain ⟨hsku, hcontent⟩ := lookup_lineFields (fun i ↦ (texts i).val) orderSkus 1 (i - 1)
  rw [show 1 + (i - 1) = i by omega, hline, Option.map_some] at hsku hcontent
  exact ⟨(hfirst 's' _ _ (by decide) (by decide)).trans hsku,
    (hfirst 'c' _ _ (by decide) (by decide)).trans hcontent⟩

end Fields

/-! ### The rounds for a submitted form -/

/-- The lines of an order with their places. -/
def CommentView.rowsOf (lines : List OrderGoods) (orderId : Str) : List (OrderGoods × ℕ) :=
  lines.zipIdx.filter fun x ↦ x.1.order = orderId

section Rounds

variable {lines : List OrderGoods} {orderId : Str} {request : HttpRequest}

theorem map_fst_filter_zipIdx (p : OrderGoods → Bool) (lines : List OrderGoods) :
    (lines.zipIdx.filter fun x ↦ p x.1).map (·.1) = lines.filter p := by
  conv_rhs => rw [← List.zipIdx_map_fst 0 lines, List.filter_map]
  rfl

theorem map_fst_rowsOf (lines : List OrderGoods) (orderId : Str) :
    (rowsOf lines orderId).map (·.1) = lines.filter fun line ↦ line.order = orderId :=
  map_fst_filter_zipIdx (fun line ↦ line.order = orderId) lines

theorem nodup_places (lines : List OrderGoods) (orderId : Str) :
    ((rowsOf lines orderId).map (·.2)).Nodup := by
  have hall : (lines.zipIdx.map (·.2)).Nodup := by
    rw [List.zipIdx_map_snd]
    exact List.nodup_range'
  exact (List.filter_sublist.map _).nodup hall

theorem places_eq (lines : List OrderGoods) (orderId : Str) (n : ℕ) :
    places lines orderId n = ((rowsOf lines orderId).filter fun x ↦ x.1.sku = n).map (·.2) := by
  rw [rowsOf, List.filter_filter, places]
  refine congrArg _ (List.filter_congr fun x _ ↦ ?_)
  rw [Bool.decide_and, Bool.and_comm, decide_eq_decide.2 Int.ofNat_inj]

/-- How often the order has a product. -/
theorem length_places (lines : List OrderGoods) (orderId : Str) (n : ℕ) :
    (places lines orderId n).length =
      ((lines.filter fun line ↦ line.order = orderId).map (·.sku)).count n := by
  rw [places_eq, List.length_map, ← map_fst_rowsOf, List.map_map, List.count, List.countP_map,
    List.countP_eq_length_filter]
  refine congrArg _ (List.filter_congr fun x _ ↦ ?_)
  exact (beq_eq_decide ..).symm

/-- A round whose fields are those of a line saves the text at the line, if the order has no other line
with the product, and raises otherwise. -/
theorem round_of_fields {i : ℕ} {x : OrderGoods × ℕ} {text : CharField 156} (hx : x ∈ rowsOf lines orderId)
    (hsku : request.POST ("sku_".toList ++ str i) = some (str x.1.sku))
    (hcontent : request.POST ("content_".toList ++ str i) = some text.val) :
    CommentView.round lines orderId request i =
      if (places lines orderId x.1.sku).length = 1 then .save x.2 text else .raise := by
  have hmem : x.2 ∈ places lines orderId x.1.sku := by
    rw [places_eq]
    exact List.mem_map_of_mem (List.mem_filter.2 ⟨hx, by simp⟩)
  rw [CommentView.round, findLine_fst, hsku, hcontent, Option.getD_some, TextColumn.store?_val]
  simp only [int_str]
  rcases hplaces : places lines orderId x.1.sku with - | ⟨id, - | ⟨id', rest⟩⟩
  · rw [hplaces] at hmem
    cases hmem
  · rw [hplaces] at hmem
    rw [List.mem_singleton.1 hmem]
    rfl
  · simp

theorem saves_map {α : Type} {xs : List α} {f : α → ℕ} {g : α → ℕ × CharField 156}
    (h : ∀ x ∈ xs, CommentView.round lines orderId request (f x) = .save (g x).1 (g x).2) :
    saves lines orderId request (xs.map f) = xs.map g := by
  induction xs with
  | nil => rfl
  | cons x xs ih =>
    rw [List.map_cons, saves, h x List.mem_cons_self, ih fun y hy ↦ h y (List.mem_cons_of_mem _ hy)]
    rfl

end Rounds

/-! ### The round trip -/

/-- The review form of an order was submitted with these texts: the view has completed, the `i`-th line of
the form has got the `i`-th text, the order is finished, and no line of another order has changed. -/
structure RoundTrip (orderId : Str) (orderSkus : List OrderGoods) (texts : ℕ → CharField 156) (db : Db)
    (reply : Reply) (db' : Db) : Prop where
  completes : reply = .userOrder 1
  comments : db'.lines.filter (fun line ↦ line.order = orderId) =
    (orderSkus.zipIdx 1).map fun x ↦ { x.1 with comment := texts x.2 }
  finished : (db'.orders orderId).map (·.orderStatus) = some .finished
  others : db'.lines.filter (fun line ↦ line.order ≠ orderId) =
    db.lines.filter fun line ↦ line.order ≠ orderId

section Result

variable {db : Db} {orderId : Str} {row : OrderInfo} (texts : ℕ → CharField 156)

/-- The request that submits the form of an order. -/
def CommentView.submitted (db : Db) (orderId : Str) (row : OrderInfo) (texts : ℕ → CharField 156) :
    HttpRequest :=
  submit row.user (row.object orderId) (db.lines.filter fun line ↦ line.order = orderId) texts

theorem round_submitted {y : (OrderGoods × ℕ) × ℕ} (hy : y ∈ (rowsOf db.lines orderId).zipIdx 1) :
    CommentView.round db.lines orderId (submitted db orderId row texts) y.2 =
      if (places db.lines orderId y.1.1.sku).length = 1 then .save y.1.2 (texts y.2) else .raise := by
  obtain ⟨hi, hx⟩ := List.mem_zipIdx_iff_le_and_getElem?_sub.1 hy
  have hline : (db.lines.filter fun line ↦ line.order = orderId)[y.2 - 1]? = some y.1.1 := by
    rw [← map_fst_rowsOf, List.getElem?_map, hx, Option.map_some]
  obtain ⟨hsku, hcontent⟩ := submit_line row.user (row.object orderId) _ texts hi hline
  exact round_of_fields (List.mem_of_getElem? hx) hsku hcontent

theorem rounds_submitted : List.range' 1 (db.lines.filter fun line ↦ line.order = orderId).length =
    ((rowsOf db.lines orderId).zipIdx 1).map (·.2) := by
  rw [List.zipIdx_map_snd, ← map_fst_rowsOf, List.length_map]

/-- Some round raises exactly if the order has a product twice. -/
theorem raises_submitted : raises db.lines orderId (submitted db orderId row texts)
      (List.range' 1 (db.lines.filter fun line ↦ line.order = orderId).length) = false ↔
    ((db.lines.filter fun line ↦ line.order = orderId).map (·.sku)).Nodup := by
  have hsingle : (∀ y ∈ (rowsOf db.lines orderId).zipIdx 1,
      (places db.lines orderId y.1.1.sku).length = 1) ↔
        ((db.lines.filter fun line ↦ line.order = orderId).map (·.sku)).Nodup := by
    have hlines : db.lines.filter (fun line ↦ line.order = orderId) =
        ((rowsOf db.lines orderId).zipIdx 1).map fun y ↦ y.1.1 := by
      rw [← map_fst_rowsOf]
      conv_lhs => rw [← List.zipIdx_map_fst 1 (rowsOf db.lines orderId), List.map_map]
      rfl
    simp only [List.nodup_iff_count_eq_one, length_places]
    rw [hlines, List.forall_mem_map, List.forall_mem_map]
  rw [raises, List.any_eq_false, rounds_submitted, List.forall_mem_map, ← hsingle]
  refine forall₂_congr fun y hy ↦ ?_
  rw [round_submitted texts hy]
  split
  · rename_i hone
    simp [hone]
  · rename_i hone
    simp [hone]

/-- The comments that the submitted form saves, if the order has no product twice. -/
theorem saves_submitted
    (hnodup : ((db.lines.filter fun line ↦ line.order = orderId).map (·.sku)).Nodup) :
    saves db.lines orderId (submitted db orderId row texts)
        (List.range' 1 (db.lines.filter fun line ↦ line.order = orderId).length) =
      ((rowsOf db.lines orderId).zipIdx 1).map fun y ↦ (y.1.2, texts y.2) := by
  rw [rounds_submitted]
  refine saves_map fun y hy ↦ ?_
  have hx : y.1 ∈ rowsOf db.lines orderId := List.fst_mem_of_mem_zipIdx hy
  have hmem : y.1.1.sku ∈ (db.lines.filter fun line ↦ line.order = orderId).map (·.sku) := by
    rw [← map_fst_rowsOf]
    exact List.mem_map_of_mem (List.mem_map_of_mem hx)
  rw [round_submitted texts hy, length_places, List.count_eq_one_of_mem hnodup hmem, if_pos rfl]

/-- The lines after those saves. -/
theorem lines_submitted (edits : List (ℕ × CharField 156))
    (hedits : edits = ((rowsOf db.lines orderId).zipIdx 1).map fun y ↦ (y.1.2, texts y.2)) :
    (commentColumn.editAll db.lines edits).filter (fun line ↦ line.order = orderId) =
        ((db.lines.filter fun line ↦ line.order = orderId).zipIdx 1).map
          (fun x ↦ { x.1 with comment := texts x.2 }) ∧
      (commentColumn.editAll db.lines edits).filter (fun line ↦ line.order ≠ orderId) =
        db.lines.filter fun line ↦ line.order ≠ orderId := by
  have hkeys : edits.map (·.1) = (rowsOf db.lines orderId).map (·.2) := by
    rw [hedits, List.map_map]
    conv_rhs => rw [← List.zipIdx_map_fst 1 (rowsOf db.lines orderId), List.map_map]
    rfl
  constructor
  · rw [commentColumn.filter_editAll _ fun _ _ ↦ rfl, ← map_fst_rowsOf, List.zipIdx_map, List.map_map]
    show (rowsOf db.lines orderId).map _ = _
    conv_lhs => rw [← List.zipIdx_map_fst 1 (rowsOf db.lines orderId), List.map_map]
    refine List.map_congr_left fun y hy ↦ ?_
    have hlast : lastEdit edits y.1.2 = some (texts y.2) :=
      lastEdit_of_mem (hkeys ▸ nodup_places ..) (hedits ▸ List.mem_map_of_mem hy)
    show commentColumn.put? y.1.1 (lastEdit edits y.1.2) = _
    rw [hlast]
    rfl
  · rw [commentColumn.filter_editAll _ fun _ _ ↦ rfl,
      ← map_fst_filter_zipIdx (fun line ↦ line.order ≠ orderId) db.lines]
    refine List.map_congr_left fun x hx ↦ ?_
    obtain ⟨hx, hother⟩ := List.mem_filter.1 hx
    have hnone : lastEdit edits x.2 = none := by
      refine lastEdit_eq_none ?_
      rw [hkeys]
      intro hmem
      obtain ⟨x', hx', hplace⟩ := List.mem_map.1 hmem
      obtain ⟨hx', hown⟩ := List.mem_filter.1 hx'
      -- there is one line at the place
      have hline := (List.mem_zipIdx_iff_getElem?.1 hx').symm
      rw [hplace, List.mem_zipIdx_iff_getElem?.1 hx] at hline
      rw [Option.some.inj hline] at hown
      exact of_decide_eq_true hother (of_decide_eq_true hown)
    rw [hnone]
    rfl

/-- The submitted form gets to the loop. -/
theorem reached_submitted (hne : orderId ≠ []) (hrow : db.orders orderId = some row) :
    reached db (submitted db orderId row texts) orderId = some (row,
      List.range' 1 (db.lines.filter fun line ↦ line.order = orderId).length) := by
  refine reached_eq_some_iff.2 ⟨row.user, _, rfl, hne, hrow, ?_, submit_totalCount .., rfl⟩
  rw [OrderInfo.satisfies_iff]
  exact ⟨rfl, nofun, nofun⟩

/-- A form with a product twice is not completed. -/
theorem result_submitted_of_not_nodup (hne : orderId ≠ []) (hrow : db.orders orderId = some row)
    (h : ¬ ((db.lines.filter fun line ↦ line.order = orderId).map (·.sku)).Nodup) :
    (result db (submitted db orderId row texts) orderId).1 = .error := by
  have hraised : ¬ raises db.lines orderId (submitted db orderId row texts)
      (List.range' 1 (db.lines.filter fun line ↦ line.order = orderId).length) = false :=
    mt (raises_submitted texts).1 h
  rw [Bool.not_eq_false] at hraised
  rw [result, reached_submitted texts hne hrow]
  dsimp only
  rw [if_pos hraised]

/-- **The round trip** of a form that is posted alone. -/
theorem roundTrip_result_iff (hne : orderId ≠ []) (hrow : db.orders orderId = some row) :
    RoundTrip orderId (db.lines.filter fun line ↦ line.order = orderId) texts db
        (result db (submitted db orderId row texts) orderId).1
        (result db (submitted db orderId row texts) orderId).2 ↔
      ((db.lines.filter fun line ↦ line.order = orderId).map (·.sku)).Nodup := by
  constructor
  · intro h
    by_contra htwice
    cases h.completes.symm.trans (result_submitted_of_not_nodup texts hne hrow htwice)
  · intro hnodup
    rw [result, reached_submitted texts hne hrow]
    dsimp only
    rw [if_neg (Bool.not_eq_true _ ▸ (raises_submitted texts).2 hnodup)]
    obtain ⟨hcomments, hothers⟩ := lines_submitted texts _ (saves_submitted texts hnodup)
    exact
      { completes := rfl
        comments := hcomments
        finished := by
          show (db.orders.set orderId _ orderId).map _ = _
          rw [Table.set_self]
          rfl
        others := hothers }

end Result

variable {ι : Type} [DecidableEq ι] {t : ι} {k : ℕ} {w : World ι}

/-- **The form, alone**: it shows the order and its lines. -/
theorem ends_commentForm {request : HttpRequest} {orderId : Str} {row : OrderInfo} (hne : orderId ≠ [])
    (hrow : w.db.orders orderId = some row) (huser : request.user = some row.user) :
    (site ι).Ends t k
      (fun reply w' l ↦ l = .idle ∧ w'.db = w.db ∧ w'.orderLock = w.orderLock ∧
        reply = .html (.orderComment (row.object orderId)
          (w.db.lines.filter fun line ↦ line.order = orderId)))
      (CommentView.get request orderId) w .idle := by
  have hown : row.satisfies row.user none none = true := by
    rw [OrderInfo.satisfies_iff]
    exact ⟨rfl, nofun, nofun⟩
  rw [CommentView.get, huser]
  dsimp only
  rw [if_neg hne]
  refine ends_ask rfl (run_orderGet_of_satisfies hrow hown) ?_
  have hrun : ∀ v : World ι, v.db = w.db → run t v .idle (.lineFilter orderId) =
      some (.ok (w.db.lines.filter fun line ↦ line.order = orderId), v, .idle) := by
    intro v hv
    have hlines : v.lines .idle = w.db.lines := by
      rw [← hv]
      exact List.append_nil _
    rw [run, hlines]
  exact ends_ask rfl (hrun _ rfl) (.ret ⟨rfl, rfl, rfl, rfl⟩)

/-- **The form, submitted**: what posting it alone comes to. -/
theorem ends_submit {get : HttpRequest} {orderId : Str} {row : OrderInfo} (hne : orderId ≠ [])
    (hfits : orderId.length ≤ 128) (hrow : w.db.orders orderId = some row)
    (hfree : w.orderLock orderId = none) (huser : get.user = some row.user)
    (texts : ℕ → CharField 156) (u : ι) :
    (site ι).Ends t k
      (fun reply v _ ↦ reply = .html (.orderComment (row.object orderId)
          (w.db.lines.filter fun line ↦ line.order = orderId)) ∧
        (site ι).Ends u k
          (fun reply w' _ ↦ (reply, w'.db) = result w.db (submitted w.db orderId row texts) orderId)
          (CommentView.post (submitted w.db orderId row texts) orderId) v .idle)
      (CommentView.get get orderId) w .idle := by
  refine (ends_commentForm hne hrow huser).mono fun reply v l hform ↦ ?_
  obtain ⟨-, hdb, hlock, hreply⟩ := hform
  refine ⟨hreply, ?_⟩
  have hlock' : v.orderLock orderId = none := (congrFun hlock orderId).trans hfree
  refine (ends_comment _ hfits hlock').mono fun reply' w' l' hposted ↦ ?_
  have hresult := hposted.2
  rw [hdb] at hresult
  exact hresult

/-! ### Orders that a checkout has placed -/

section Runs

variable {request : ι → Request} {db : Db} {carts : ℕ → Cart} {gateway : ℕ → Answer}
  {s : State Services ι (World ι) Session Reply}

/-- The order is one that a checkout places, and its lines are of products that the checkout's list names,
in the order of the list. -/
def PlacedFrom (request : ι → Request) (orderId : Str) (lines : List OrderGoods) : Prop :=
  ∃ t now req c named, request t = .commit now req ∧ req.Asks c ∧ orderId = now.strftime ++ str c.user ∧
    named.Sublist c.ids ∧ List.Forall₂ (fun id line ↦ int id = some (line.sku : ℤ)) named lines

theorem map_sku_linesOf (db : Db) (orderId : Str) : (db.linesOf orderId).map (·.sku) =
    (db.lines.filter fun line ↦ line.order = orderId).map (·.sku) := by
  rw [Db.linesOf, Db.coreLines, List.filter_map, List.map_map]
  rfl

/-- Every order that was not there at the start has been placed by a checkout. -/
def NewOrders (request : ι → Request) (db : Db) (w : World ι) : Prop :=
  ∀ orderId row, w.db.orders orderId = some row → db.orders orderId = none →
    orderId ≠ [] ∧ orderId.length ≤ 128 ∧ PlacedFrom request orderId (w.db.linesOf orderId)

theorem NewOrders.effect {pick : Prop → Pick → Prop} {w' : World ι} (h : NewOrders request db w)
    (hlinked : w.db.Linked) (heffect : Effect request pick t w w') : NewOrders request db w' := by
  intro orderId row hrow hnew
  obtain ⟨r, hplaced⟩ | hunplaced := heffect.placed_or
  · rw [hplaced.orders] at hrow
    by_cases hid : orderId = r.orderId
    · subst hid
      rw [hplaced.linesOf_self hlinked]
      refine ⟨List.append_ne_nil_of_right_ne_nil _ (str_ne_nil _),
        (OrderObject.row?_eq_some_iff.1 hplaced.of.row).1, ?_⟩
      exact ⟨t, r.now, r.request, r.checkout, _, hplaced.of.request, hplaced.of.asks, rfl,
        hplaced.of.sublist, hplaced.of.denoted⟩
    · rw [Table.set_of_ne hid] at hrow
      rw [hplaced.linesOf_of_ne hid]
      exact h orderId row hrow hnew
  · obtain ⟨old, hold, -⟩ := hunplaced.orders orderId row hrow
    rw [Db.linesOf, hunplaced.lines]
    exact h orderId old hold hnew

theorem newOrders_of_reach (hlinked : db.Linked)
    (hs : (site ι).Reach AnyMove (start db carts gateway request) s) :
    NewOrders request db s.world := by
  induction hs with
  | refl => exact fun orderId row hrow hnone ↦ absurd (hrow.symm.trans hnone) (by simp)
  | move hs _ hn ih =>
    exact ih.effect (linked_of_reach hlinked hs)
      (promise_of_reach (noDiscipline request) hlinked trivial hs hn).effect

/-- **Submitting the review form**: an order that a run has placed, at any later point of the run, when no
transaction holds its row. Its owner gets the form and submits it; that is a round trip exactly if the order
has no product twice. -/
theorem review_roundTrip_iff (hlinked : db.Linked)
    (hs : (site ι).Reach AnyMove (start db carts gateway request) s) {orderId : Str} {row : OrderInfo}
    (hrow : s.world.db.orders orderId = some row) (hnew : db.orders orderId = none)
    (hfree : s.world.orderLock orderId = none) (texts : ℕ → CharField 156) {get : HttpRequest}
    (huser : get.user = some row.user) (t u : ι) (k : ℕ) :
    PlacedFrom request orderId (s.world.db.linesOf orderId) ∧
    (site ι).Ends t k
      (fun reply w _ ↦ ∃ order orderSkus, reply = .html (.orderComment order orderSkus) ∧
        (site ι).Ends u k
          (fun reply w' _ ↦ RoundTrip orderId orderSkus texts s.world.db reply w'.db ↔
            ((s.world.db.linesOf orderId).map (·.sku)).Nodup)
          (CommentView.post (submit row.user order orderSkus texts) orderId) w .idle)
      (CommentView.get get orderId) s.world .idle := by
  obtain ⟨hne, hfits, hplaced⟩ := newOrders_of_reach hlinked hs orderId row hrow hnew
  refine ⟨hplaced, (ends_submit hne hfits hrow hfree huser texts u).mono fun reply w _ hform ↦ ?_⟩
  obtain ⟨hreply, hposted⟩ := hform
  refine ⟨_, _, hreply, hposted.mono fun reply' w' _ hresult ↦ ?_⟩
  obtain ⟨rfl, hdb⟩ := Prod.mk.inj hresult
  rw [hdb, map_sku_linesOf]
  exact roundTrip_result_iff texts hne hrow

end Runs

/-- The checkout of user 7. -/
def sevenBuys (skuIds : String) : Fin 1 → Request := ![checkoutOf 7 0 skuIds]

/-- User 7 asks for a form. -/
def formRequest : HttpRequest where
  user := some 7
  POST _ := none

/-- Two reviews. -/
def twoTexts (i : ℕ) : CharField 156 :=
  if i = 1 then ⟨"good".toList, by decide⟩ else ⟨"fresh".toList, by decide⟩

/-- Two products, and two reviews. -/
theorem review_roundTrip_iff_twoProducts : ∃ s, (site (Fin 1)).perform
      (start smallShop (fun _ ↦ cartOf [("1", 2), ("2", 1)]) silent (sevenBuys "1,2"))
      (.replicate 15 (.step 0)) = some s ∧
    (site (Fin 1)).Ends 0 0
      (fun reply w _ ↦ ∃ order orderSkus, reply = .html (.orderComment order orderSkus) ∧
        (site (Fin 1)).Ends 0 0
          (fun reply w' _ ↦
            RoundTrip "202004210930007".toList orderSkus twoTexts s.world.db reply w'.db)
          (CommentView.post (submit 7 order orderSkus twoTexts) "202004210930007".toList) w .idle)
      (CommentView.get formRequest "202004210930007".toList) s.world .idle := by
  have hrun : ((site (Fin 1)).perform
      (start smallShop (fun _ ↦ cartOf [("1", 2), ("2", 1)]) silent (sevenBuys "1,2"))
      (.replicate 15 (.step 0))).map (fun s ↦
        ((s.world.db.orders "202004210930007".toList).map (·.user),
          s.world.orderLock "202004210930007".toList,
          (s.world.db.linesOf "202004210930007".toList).map (·.sku))) =
      some (some 7, none, [1, 2]) := by rfl
  obtain ⟨s, hs, hvalues⟩ := Option.map_eq_some_iff.1 hrun
  obtain ⟨huser, hvalues⟩ := Prod.mk.inj hvalues
  obtain ⟨hfree, hskus⟩ := Prod.mk.inj hvalues
  obtain ⟨row, hrow, huser⟩ := Option.map_eq_some_iff.1 huser
  have hget : formRequest.user = some row.user := by rw [huser]; rfl
  obtain ⟨-, hends⟩ := review_roundTrip_iff smallShop_linked ((site (Fin 1)).reach_of_perform hs) hrow
    rfl hfree twoTexts hget 0 0 0
  refine ⟨s, hs, hends.mono fun reply w _ hform ↦ ?_⟩
  obtain ⟨order, orderSkus, hreply, hposted⟩ := hform
  rw [huser] at hposted
  refine ⟨order, orderSkus, hreply, hposted.mono fun _ _ _ hiff ↦ hiff.2 ?_⟩
  rw [hskus]
  decide

/-- **A product twice**: user 7 buys product 1 twice in one order, and the view refuses the form that it
has rendered. -/
theorem form_refused : ∃ s, (site (Fin 1)).perform
      (start smallShop (fun _ ↦ cartOf [("1", 2)]) silent (sevenBuys "1,1"))
      (.replicate 15 (.step 0)) = some s ∧
    (s.world.db.linesOf "202004210930007".toList).map (·.sku) = [1, 1] ∧
    (site (Fin 1)).Ends 0 0
      (fun reply w _ ↦ ∃ order orderSkus, reply = .html (.orderComment order orderSkus) ∧
        (site (Fin 1)).Ends 0 0 (fun reply _ _ ↦ reply = .error)
          (CommentView.post (submit 7 order orderSkus twoTexts) "202004210930007".toList) w .idle)
      (CommentView.get formRequest "202004210930007".toList) s.world .idle := by
  have hrun : ((site (Fin 1)).perform
      (start smallShop (fun _ ↦ cartOf [("1", 2)]) silent (sevenBuys "1,1"))
      (.replicate 15 (.step 0))).map (fun s ↦
        ((s.world.db.orders "202004210930007".toList).map (·.user),
          s.world.orderLock "202004210930007".toList,
          (s.world.db.linesOf "202004210930007".toList).map (·.sku))) =
      some (some 7, none, [1, 1]) := by rfl
  obtain ⟨s, hs, hvalues⟩ := Option.map_eq_some_iff.1 hrun
  obtain ⟨huser, hvalues⟩ := Prod.mk.inj hvalues
  obtain ⟨hfree, hskus⟩ := Prod.mk.inj hvalues
  obtain ⟨row, hrow, huser⟩ := Option.map_eq_some_iff.1 huser
  have hget : formRequest.user = some row.user := by rw [huser]; rfl
  have htwice : ¬ ((s.world.db.lines.filter fun line ↦
      line.order = "202004210930007".toList).map (·.sku)).Nodup := by
    rw [← map_sku_linesOf, hskus]
    decide
  refine ⟨s, hs, hskus, (ends_submit (by decide) (by decide) hrow hfree hget twoTexts 0).mono ?_⟩
  intro reply w _ hform
  obtain ⟨hreply, hposted⟩ := hform
  rw [submitted, huser] at hposted
  refine ⟨_, _, hreply, hposted.mono fun reply' w' _ hresult ↦ ?_⟩
  obtain ⟨rfl, -⟩ := Prod.mk.inj hresult
  have herror := result_submitted_of_not_nodup twoTexts (by decide) hrow htwice
  rw [submitted, huser] at herror
  exact herror

end DailyFresh
