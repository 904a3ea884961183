import DailyFresh.Concurrent.Holders
import DailyFresh.Results.StaleSave
import DailyFresh.Site.OrderList

/-!
# What is written for good

Orders are placed once. Whatever runs on the site afterwards, an order keeps its buyer, its address, its
payment method and its figures, and its lines keep their products, counts and prices and are joined by no
others (`Db.Extends`); so the list of orders goes on showing it as it did, but for its status and its
comments (`order_final`).

The comments are the only thing in a line that changes. Every comment that was not there at the start has
been written by the buyer of the order, in a form for this order whose `sku_i` is the product of the line
and whose `content_i` is the comment (`comment_by_buyer`).
-/

namespace DailyFresh

open Python Store Interleave Program

/-! ### Orders -/

/-- Later tables have every order of the earlier ones as it was placed, with its lines and no others. -/
structure Db.Extends (db db' : Db) : Prop where
  orders : ∀ k row, db.orders k = some row → ∃ row', db'.orders k = some row' ∧ row'.core = row.core
  lines : db.coreLines <+: db'.coreLines
  linesOf : ∀ k row, db.orders k = some row → db'.linesOf k = db.linesOf k

namespace Db.Extends

variable {db db' db'' : Db}

theorem refl (db : Db) : db.Extends db where
  orders _ row hrow := ⟨row, hrow, rfl⟩
  lines := List.prefix_rfl
  linesOf _ _ _ := rfl

theorem trans (h : db.Extends db') (h' : db'.Extends db'') : db.Extends db'' where
  orders k row hrow := by
    obtain ⟨row', hrow', hcore⟩ := h.orders k row hrow
    obtain ⟨row'', hrow'', hcore'⟩ := h'.orders k row' hrow'
    exact ⟨row'', hrow'', hcore'.trans hcore⟩
  lines := h.lines.trans h'.lines
  linesOf k row hrow := by
    obtain ⟨row', hrow', -⟩ := h.orders k row hrow
    exact (h'.linesOf k row' hrow').trans (h.linesOf k row hrow)

end Db.Extends

/-- `OrderGoods.objects.filter(order_id=order.order_id)`. -/
def Db.orderSkus (db : Db) (orderId : Str) : List OrderGoods :=
  db.lines.filter fun line ↦ line.order = orderId

/-- What the list of orders shows of an order, without its status, its payment number and the comments. -/
def UserOrderView.ShownOrder.settled (shown : ShownOrder) : ShownOrder where
  order := { shown.order with orderStatus := .toPay, tradeNo := some [] }
  orderSkus := shown.orderSkus.map fun x ↦ (x.1.core, x.2)
  statusName := ORDER_STATUS .toPay

/-- What is left depends on the core of the order and of its lines only. -/
theorem settled_showOrder (db : Db) (orderId : Str) (row : OrderInfo) :
    (UserOrderView.showOrder db.orderSkus (row.object orderId)).settled =
      { order := row.core.object orderId
        orderSkus := (db.linesOf orderId).map fun line ↦ (line, line.count.val * line.price.val)
        statusName := ORDER_STATUS .toPay } := by
  have hlines : (db.orderSkus orderId).map OrderGoods.core = db.linesOf orderId := by
    rw [Db.linesOf, Db.coreLines, List.filter_map]
    rfl
  rw [UserOrderView.ShownOrder.settled, UserOrderView.showOrder, List.map_map, ← hlines, List.map_map]
  rfl

section Runs

variable {ι : Type} [DecidableEq ι] {request : ι → Request} {db : Db} {carts : ℕ → Cart}
  {gateway : ℕ → Answer} {s s' : State Services ι (World ι) Session Reply} {m : Move ι}

/-- **Orders are final**, from every reachable state on. -/
theorem extends_of_reach (hlinked : db.Linked)
    (hs : (site ι).Reach AnyMove (start db carts gateway request) s)
    (hs' : (site ι).Reach AnyMove s s') : s.world.db.Extends s'.world.db := by
  induction hs' with
  | refl => exact .refl _
  | move hreach _ hn ih =>
    have h := (promise_of_reach (noDiscipline request) hlinked trivial (hs.trans hreach) hn).considerate
    exact ih.trans ⟨h.core, h.lines, h.linesOf⟩

/-- **An order stays on the list as it was placed**, whatever happens on the site: only its status, its
payment number and its comments can become others. -/
theorem order_final (hlinked : db.Linked)
    (hs : (site ι).Reach AnyMove (start db carts gateway request) s)
    (hs' : (site ι).Reach AnyMove s s') {orderId : Str} {row : OrderInfo}
    (hrow : s.world.db.orders orderId = some row) : ∃ row', s'.world.db.orders orderId = some row' ∧
      (UserOrderView.showOrder s'.world.db.orderSkus (row'.object orderId)).settled =
        (UserOrderView.showOrder s.world.db.orderSkus (row.object orderId)).settled := by
  have hextends := extends_of_reach hlinked hs hs'
  obtain ⟨row', hrow', hcore⟩ := hextends.orders orderId row hrow
  refine ⟨row', hrow', ?_⟩
  rw [settled_showOrder, settled_showOrder, hcore, hextends.linesOf orderId row hrow]

end Runs

/-- Checked and reviewed at once, with stale saves: the order has been finished without its payment number,
and is still over the same two pieces. -/
theorem order_final_checkedAndReviewed : ∃ s, (site (Fin 2)).perform
      (start orderedShop (fun _ ↦ ∅) paying ![checkIt, reviewIt])
      [.step 1, .step 0, .step 0, .step 0, .step 1] = some s ∧
    ∃ row', s.world.db.orders "202004210930007".toList = some row' ∧ row'.orderStatus = .finished ∧
      (UserOrderView.showOrder s.world.db.orderSkus (row'.object "202004210930007".toList)).settled =
        (UserOrderView.showOrder orderedShop.orderSkus (toBePaid.object "202004210930007".toList)).settled := by
  have hrun : ((site (Fin 2)).perform (start orderedShop (fun _ ↦ ∅) paying ![checkIt, reviewIt])
      [.step 1, .step 0, .step 0, .step 0, .step 1]).map (fun s ↦
        (s.world.db.orders "202004210930007".toList).map OrderInfo.orderStatus) = some (some .finished) := by
    rfl
  obtain ⟨s, hs, hstatus⟩ := Option.map_eq_some_iff.1 hrun
  obtain ⟨row', hrow', hshown⟩ := order_final orderedShop_linked .refl ((site (Fin 2)).reach_of_perform hs)
    (show orderedShop.orders "202004210930007".toList = some toBePaid by rfl)
  rw [hrow'] at hstatus
  exact ⟨s, hs, row', hrow', Option.some.inj hstatus, hshown⟩

/-! ### Comments -/

/-- What a program has read last: an order, with the id that it asked for, and a line, with the texts that it
looked for. -/
structure ReadBack where
  order : Option (Str × OrderObject)
  line : Option ((Str × Option Str) × ℕ × OrderGoods)

/-- The monitor of reviews: a line is saved as it was found, among those of the order that was read, with the
comment of the form's item. -/
def reviewing (r : Request) : Monitor Services ReadBack where
  allowed read
    | .lineSave id line comment => ∃ req orderId order i, r = .comment req orderId ∧
        read.order = some (orderId, order) ∧
        read.line = some ((order.orderId, req.POST ("sku_".toList ++ str i)), id, line) ∧
        comment = (req.POST ("content_".toList ++ str i)).getD []
    | _ => True
  after read
    | .orderGet orderId _ _ _, .ok order => { read with order := some (orderId, order) }
    | .lineGet orderId skuId, .ok found => { read with line := some ((orderId, skuId), found) }
    | _, _ => read

section Programs

/-- The loop of `CommentView.post`. -/
theorem reviewing_saveComments (req : HttpRequest) {orderId : Str} {order : OrderObject} (rounds : List ℕ)
    {read : ReadBack} (hread : read.order = some (orderId, order)) :
    (reviewing (.comment req orderId)).Accepts (fun _ _ ↦ True)
      (CommentView.saveComments req order.orderId rounds) read := by
  induction rounds generalizing read with
  | nil => trivial
  | cons i rounds ih =>
    refine .send trivial fun r ↦ ?_
    rcases r with e | ⟨id, line⟩
    · cases e with
      | doesNotExist => exact ih hread
      | _ => trivial
    refine .send ⟨req, orderId, order, i, rfl, hread, rfl, rfl⟩ fun r ↦ ?_
    rcases r with e | ⟨⟩
    · trivial
    · exact ih hread

theorem reviewing_comment (req : HttpRequest) (orderId : Str) (read : ReadBack) :
    (reviewing (.comment req orderId)).Accepts (fun _ _ ↦ True) (CommentView.post req orderId) read := by
  rw [CommentView.post]
  rcases req.user with - | user
  · trivial
  show (reviewing _).Accepts _ (if orderId = [] then _ else _) read
  split
  · trivial
  refine .send trivial fun r ↦ ?_
  rcases r with e | order
  · trivial
  dsimp only
  rcases (req.POST "total_count".toList).bind int with - | totalCount
  · trivial
  refine (reviewing_saveComments req _ rfl).bind fun done read _ ↦ ?_
  cases done with
  | false => trivial
  | true =>
    refine .send trivial fun r ↦ ?_
    rcases r with e | ⟨⟩
    · trivial
    · trivial

/-- **Every request reviews like this**, on every path: none but the review form saves a line. -/
theorem reviewing_handler (r : Request) (read : ReadBack) :
    (reviewing r).Accepts (fun _ _ ↦ True) r.handler read := by
  by_cases hr : ∃ req orderId, r = .comment req orderId
  · obtain ⟨req, orderId, rfl⟩ := hr
    exact reviewing_comment req orderId read
  have hkeeps : (reviewing r).Keeps (fun _ ↦ True) r.May := by
    intro read c _ hc
    refine ⟨?_, fun _ ↦ trivial⟩
    cases c with
    | lineSave id line comment =>
      obtain h | h := hc.kind
      · cases h
      · cases r with
        | comment req orderId => exact absurd ⟨req, orderId, rfl⟩ hr
        | _ => cases h
    | _ => trivial
  have hrepeats : ∀ read (c : Cmd) (again : c.Resp → Bool), True → c.Repeats again →
      ∀ a, again a = true → (reviewing r).after read c a = read := by
    intro read c again _ hc a _
    cases c with
    | tradeQuery => rfl
    | _ => exact hc.elim
  exact (sends_handler r).accepts hkeeps hrepeats trivial

end Programs

section Comments

variable {ι : Type} [DecidableEq ι] {t : ι} {w w' v : World ι} {l l' : Session}

/-- What has been read is what was asked for. -/
structure ReadBack.Fits (read : ReadBack) : Prop where
  order : ∀ orderId order, read.order = some (orderId, order) → order.orderId = orderId
  line : ∀ orderId skuId id line, read.line = some ((orderId, skuId), id, line) →
    line.order = orderId ∧ ∃ text, skuId = some text ∧ int text = some (line.sku : ℤ)

omit [DecidableEq ι] in
theorem findLine_sku {lines : List OrderGoods} {order : Str} {skuId : Option Str} {id : ℕ}
    {line : OrderGoods} (h : findLine lines order skuId = .ok (id, line)) :
    ∃ text, skuId = some text ∧ int text = some (line.sku : ℤ) := by
  unfold findLine at h
  split at h
  · cases h
  rename_i text
  split at h
  · cases h
  rename_i n hn
  split at h
  · cases h
  · rename_i x hx
    cases h
    have hmem : x ∈ lines.zipIdx.filter _ := hx ▸ List.mem_singleton_self x
    exact ⟨text, rfl, hn.trans (congrArg some (of_decide_eq_true (List.mem_filter.1 hmem).2).2.symm)⟩
  · cases h

/-- What is read fits after every command. -/
theorem ReadBack.Fits.exec {r : Request} {read : ReadBack} {c : Cmd} {a : c.Resp} (h : read.Fits)
    (hx : exec t w l c = some (a, w', l')) : ((reviewing r).after read c a).Fits := by
  cases c with
  | orderGet orderId user payMethod orderStatus =>
    rcases a with e | order
    · exact h
    refine ⟨fun orderId' order' heq ↦ ?_, h.line⟩
    cases heq
    obtain ⟨-, hrefusal, -⟩ | ⟨-, v, hrun, -⟩ := exec_cases hx
    · cases hrefusal
    · obtain ⟨-, -, ⟨e, he⟩ | ⟨row, -, -, hrow⟩⟩ := run_orderGet_cases hrun
      · cases he
      · rw [Except.ok.inj hrow]
        rfl
  | lineGet orderId skuId =>
    rcases a with e | ⟨id, line⟩
    · exact h
    refine ⟨h.order, fun orderId' skuId' id' line' heq ↦ ?_⟩
    cases heq
    obtain ⟨-, hrefusal, -⟩ | ⟨-, v, hrun, -⟩ := exec_cases hx
    · cases hrefusal
    · have hfind : findLine (w.lines l) orderId skuId = .ok (id, line) :=
        congrArg Prod.fst (Option.some.inj hrun)
      exact ⟨(findLine_eq_ok hfind).2, findLine_sku hfind⟩
  | _ => exact h

theorem follows_reviewing (request : ι → Request) :
    Monitor.Follows (fun t ↦ reviewing (request t)) (site ι) (fun _ _ _ read ↦ read.Fits) where
  own h hx := h.exec hx
  other _ h _ := h
  abort h := h
  abortOther _ h := h

variable {request : ι → Request} {db : Db} {carts : ℕ → Cart} {gateway : ℕ → Answer}
  {s s' : State Services ι (World ι) Session Reply} {m : Move ι}

/-- **What is about to be saved**: a line of the order in the URL, found by an item of the form, with the
comment of that item. -/
theorem reviewed_of_next (hs : (site ι).Reach AnyMove (start db carts gateway request) s) {id : ℕ}
    {line : OrderGoods} {comment : Str} (hnext : (s.prog t).next? = some (.lineSave id line comment)) :
    ∃ req i, request t = .comment req line.order ∧
      (∃ text, req.POST ("sku_".toList ++ str i) = some text ∧ int text = some (line.sku : ℤ)) ∧
      comment = (req.POST ("content_".toList ++ str i)).getD [] := by
  have hstart : Monitor.Watched (fun t ↦ reviewing (request t)) (fun _ _ _ read ↦ read.Fits)
      (start db carts gateway request) := by
    intro u
    refine ⟨⟨none, none⟩, ⟨fun _ _ heq ↦ (by cases heq), fun _ _ _ _ heq ↦ (by cases heq)⟩, ?_⟩
    exact reviewing_handler (request u) _
  obtain ⟨read, hfits, haccepts⟩ := (follows_reviewing request).sound hstart hs t
  obtain ⟨req, orderId, order, i, hreq, horder, hline, hcomment⟩ := haccepts.allowed hnext
  obtain ⟨hsame, hsku⟩ := hfits.line _ _ _ _ hline
  rw [hfits.order _ _ horder] at hsame
  exact ⟨req, i, by rw [hsame, hreq], hsku, hcomment⟩

/-- The buyer of the order has written the comment of this line, in a form for this order. -/
def WrittenByBuyer (request : ι → Request) (db : Db) (line : OrderGoods) : Prop :=
  ∃ t req row i, request t = .comment req line.order ∧ db.orders line.order = some row ∧
    req.user = some row.user ∧
    (∃ text, req.POST ("sku_".toList ++ str i) = some text ∧ int text = some (line.sku : ℤ)) ∧
    line.comment.val = (req.POST ("content_".toList ++ str i)).getD []

omit [DecidableEq ι] in
theorem WrittenByBuyer.mono {db db' : Db} {line : OrderGoods} (h : WrittenByBuyer request db line)
    (hextends : db.Extends db') : WrittenByBuyer request db' line := by
  obtain ⟨t, req, row, i, hreq, hrow, huser, hrest⟩ := h
  obtain ⟨row', hrow', hcore⟩ := hextends.orders _ _ hrow
  have hbuyer : row'.user = row.user := (OrderInfo.mk.inj hcore).1
  exact ⟨t, req, row', i, hreq, hrow', by rw [hbuyer, huser], hrest⟩

/-- Where the comment of the line at place `i` comes from. -/
def Sourced (request : ι → Request) (db₀ db : Db) (i : ℕ) (line : OrderGoods) : Prop :=
  line.comment.val = [] ∨ db₀.lines[i]? = some line ∨ WrittenByBuyer request db line

omit [DecidableEq ι] in
theorem getElem?_set_self_cases {A : Type} {as : List A} {i : ℕ} {a b : A} (h : (as.set i a)[i]? = some b) :
    a = b ∧ i < as.length := by
  rw [List.getElem?_set, if_pos rfl] at h
  split at h
  · rename_i hi
    exact ⟨Option.some.inj h, hi⟩
  · cases h

/-- The move that has saved a line. -/
theorem lineSave_of_next (hn : (site ι).next s m = some s') {id : ℕ} {line : OrderGoods} {comment : Str}
    (hhistory : s'.world.history = ⟨m.process, .lineSave id line comment, .ok ()⟩ :: s.world.history) :
    (s.prog m.process).next? = some (.lineSave id line comment) ∧ ∃ text : CharField 156,
      text.val = comment ∧ s'.world.db.lines = s.world.db.lines.set id { line with comment := text } := by
  cases m with
  | kill t =>
    rw [next_kill_world hn] at hhistory
    exact absurd hhistory.symm (List.cons_ne_self _ _)
  | step t =>
    obtain ⟨c, r, l, hc, hx, hexecuted⟩ := next_step_history hn
    obtain ⟨hevent, -⟩ := List.cons.inj (hexecuted.symm.trans hhistory)
    cases hevent
    refine ⟨hc, ?_⟩
    obtain ⟨-, hrefusal, -⟩ | ⟨-, v, hrun, hv⟩ := exec_cases hx
    · cases hrefusal
    rw [run] at hrun
    split at hrun
    · cases hrun
    · rename_i text htext
      cases hrun
      exact ⟨text, TextColumn.store?_eq_some_iff.1 htext, by rw [hv]; rfl⟩

/-- A new line has no comment, and a line whose comment is saved gets it from the buyer. -/
theorem sourced_next (hlinked : db.Linked) (hs : (site ι).Reach AnyMove (start db carts gateway request) s)
    (hn : (site ι).next s m = some s')
    (hold : ∀ i line, s.world.db.lines[i]? = some line → Sourced request db s.world.db i line) (i : ℕ)
    (line : OrderGoods) (hline : s'.world.db.lines[i]? = some line) :
    Sourced request db s'.world.db i line := by
  have hpromise := promise_of_reach (noDiscipline request) hlinked trivial hs hn
  have hextends : s.world.db.Extends s'.world.db :=
    ⟨hpromise.considerate.core, hpromise.considerate.lines, hpromise.considerate.linesOf⟩
  have hkept : s.world.db.lines[i]? = some line → Sourced request db s'.world.db i line :=
    fun hline ↦ (hold i line hline).imp_right (.imp_right fun h ↦ h.mono hextends)
  have hsame : s'.world.db.lines = s.world.db.lines → Sourced request db s'.world.db i line :=
    fun hlines ↦ hkept (hlines ▸ hline)
  cases hpromise.effect with
  | quiet h => exact hsame (congrArg Db.lines h.db)
  | hdel user fields _ hdb => exact hsame (congrArg Db.lines hdb)
  | hset user field value _ hdb => exact hsame (congrArg Db.lines hdb)
  | browsed user list _ hdb => exact hsame (congrArg Db.lines hdb)
  | paid order answer row h => exact hsame (by rw [h.saved.db])
  | finished order row h => exact hsame (by rw [h.saved.db])
  | addressed address row h => exact hsame (by rw [h.db])
  | edited id edit n sku _ _ hdb => exact hsame (by rw [hdb])
  | placed receipt h =>
    rw [h.lines, List.getElem?_append] at hline
    split at hline
    · exact hkept hline
    · have hmem : some line ∈ receipt.lines.map some := List.mem_map_of_mem (List.mem_of_getElem? hline)
      rw [← h.of.lines] at hmem
      obtain ⟨p, -, hp⟩ := List.mem_map.1 hmem
      exact .inl (LineObject.row?_eq_some_iff.1 hp).2.2.2.2
  | commented lines hreviews _ hdb _ hhistory =>
    obtain ⟨req, orderId, id, saved, row, hreq, huser, hrow, -, rfl⟩ := hreviews
    rw [hdb] at hline
    by_cases hi : id = i
    · subst hi
      obtain ⟨rfl, hlt⟩ := getElem?_set_self_cases hline
      obtain ⟨id', found, comment, hhistory⟩ := hhistory
      obtain ⟨hnext, text, htext, hlines⟩ := lineSave_of_next hn hhistory
      rw [← congrArg Db.lines hdb, hlines] at hline
      by_cases hid : id' = id
      · -- the line that was found is the one that has been saved
        subst hid
        obtain ⟨rfl, -⟩ := getElem?_set_self_cases hline
        obtain ⟨req', i, hreq', hsku, hcomment⟩ := reviewed_of_next hs hnext
        obtain ⟨rfl, rfl⟩ := Request.comment.inj (hreq.symm.trans hreq')
        refine .inr (.inr ⟨m.process, req, row, i, hreq, ?_, huser, hsku, htext.trans hcomment⟩)
        rwa [congrArg Db.orders hdb]
      · rw [List.getElem?_set_ne hid] at hline
        exact hkept hline
    · rw [List.getElem?_set_ne hi] at hline
      exact hkept hline

/-- The sources of the comments, in every state of a run. -/
theorem sourced_of_reach (hlinked : db.Linked)
    (hs : (site ι).Reach AnyMove (start db carts gateway request) s) :
    ∀ i line, s.world.db.lines[i]? = some line → Sourced request db s.world.db i line := by
  induction hs with
  | refl => exact fun _ _ hline ↦ .inr (.inl hline)
  | move hreach _ hn ih => exact sourced_next hlinked hreach hn ih

/-- **Only buyers comment.** In every reachable state, a line has no comment, or the one with which it stood at
the start, or one that the buyer of its order has written, in the item of a form for this order that names
its product. -/
theorem comment_by_buyer (hlinked : db.Linked)
    (hs : (site ι).Reach AnyMove (start db carts gateway request) s) {i : ℕ} {line : OrderGoods}
    (hline : s.world.db.lines[i]? = some line) (hcomment : line.comment.val ≠ []) :
    db.lines[i]? = some line ∨ WrittenByBuyer request s.world.db line :=
  (sourced_of_reach hlinked hs i line hline).resolve_left hcomment

end Comments

/-- The order is reviewed by this user. -/
def reviewedBy (user : ℕ) (comment : String) : Request :=
  .comment { user := some user, POST := formData [("total_count", "1"), ("sku_1", "1"),
    ("content_1", comment)] } "202004210930007".toList

/-- User 8 tries to review the order of user 7, in the middle of the review of user 7. -/
theorem comment_by_buyer_twoReviews : ∃ s line, (site (Fin 2)).perform
      (start orderedShop (fun _ ↦ ∅) paying ![reviewedBy 7 "fresh", reviewedBy 8 "rotten"])
      [.step 0, .step 0, .step 1, .step 0, .step 0] = some s ∧
    s.world.db.lines[0]? = some line ∧ line.comment.val = "fresh".toList ∧
    (orderedShop.lines[0]? = some line ∨
      WrittenByBuyer ![reviewedBy 7 "fresh", reviewedBy 8 "rotten"] s.world.db line) := by
  have hrun : ((site (Fin 2)).perform
      (start orderedShop (fun _ ↦ ∅) paying ![reviewedBy 7 "fresh", reviewedBy 8 "rotten"])
      [.step 0, .step 0, .step 1, .step 0, .step 0]).map (fun s ↦
        (s.world.db.lines[0]?).map fun line ↦ line.comment.val) = some (some "fresh".toList) := by rfl
  obtain ⟨s, hs, hcomment⟩ := Option.map_eq_some_iff.1 hrun
  obtain ⟨line, hline, hcomment⟩ := Option.map_eq_some_iff.1 hcomment
  refine ⟨s, line, hs, hline, hcomment, ?_⟩
  exact comment_by_buyer orderedShop_linked ((site (Fin 2)).reach_of_perform hs) hline
    (by rw [hcomment]; decide)

end DailyFresh
