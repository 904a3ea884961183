import DailyFresh.Site.CartPage

/-!
# The lines of the cart page

A line of the page is what the user takes for stored: the product and the quantity of a row, where
`old_count` stands for the quantity while the input is edited. An event changes no line, or it posts the
request that is about to (`actStep_of_act`); and the answer to that request changes the line as the request
has changed the cart (`AnswerStep`).
-/

namespace DailyFresh

open Python Interleave

variable {N : Numbers}

/-! ### The page as the user takes it -/

/-- A row as the page takes it for stored: while its input is edited, `old_count` is what it shows. -/
structure CartLine where
  skuId : Str
  attached : Bool
  shown : Str

/-- The line of a row. -/
def CartPage.line? (page : CartPage) (i : ℕ) : Option CartLine :=
  page.rows[i]?.map fun row ↦
    { skuId := row.skuId
      attached := row.attached
      shown := if page.focus = some i then page.oldCount else row.val }

/-- The product of a row. -/
def CartPage.skuId? (page : CartPage) (i : ℕ) : Option Str := page.rows[i]?.map CartRow.skuId

namespace CartPage

variable {page page' : CartPage} {i j : ℕ} {row : CartRow} {line : CartLine}

theorem map_line? (page : CartPage) (i : ℕ) : (page.line? i).map CartLine.skuId = page.skuId? i := by
  rw [line?, skuId?, Option.map_map]
  rfl

theorem skuId?_of_line (h : page.line? i = some line) : page.skuId? i = some line.skuId := by
  rw [← map_line?, h]
  rfl

/-- The lines but one are the same, and so is the product of that one. -/
theorem skuId?_eq {line' : CartLine} (hold : page.line? i = some line) (hnew : page'.line? i = some line')
    (hsku : line'.skuId = line.skuId) (hlines : ∀ j, j ≠ i → page'.line? j = page.line? j) :
    page'.skuId? = page.skuId? := by
  funext j
  by_cases hj : j = i
  · rw [hj, skuId?_of_line hold, skuId?_of_line hnew, hsku]
  · rw [← map_line?, ← map_line?, hlines j hj]

theorem line?_of_row (h : page.rows[i]? = some row) : page.line? i = some
    { skuId := row.skuId
      attached := row.attached
      shown := if page.focus = some i then page.oldCount else row.val } := by
  rw [line?, h]
  rfl

theorem rows_modify (f : CartRow → CartRow) (j : ℕ) :
    (page.modify i f).rows[j]? = page.rows[j]?.map fun row ↦ if i = j then f row else row := by
  rw [modify, List.getElem?_modify]
  rfl

theorem rows_modify_self {f : CartRow → CartRow} (h : page.rows[i]? = some row) :
    (page.modify i f).rows[i]? = some (f row) := by
  rw [rows_modify, h, Option.map_some, if_pos rfl]

theorem line?_modify_of_ne {f : CartRow → CartRow} (hij : i ≠ j) :
    (page.modify i f).line? j = page.line? j := by
  have hrow : (page.modify i f).rows[j]? = page.rows[j]? := by
    rw [rows_modify]
    rcases page.rows[j]? with - | row
    · rfl
    · rw [Option.map_some, if_neg hij]
  rw [line?, line?, hrow]
  rfl

/-- A change of a row that the line does not show. -/
theorem line?_modify {f : CartRow → CartRow} (hsku : ∀ row, (f row).skuId = row.skuId)
    (hattached : ∀ row, (f row).attached = row.attached)
    (hval : page.focus = some i ∨ ∀ row, (f row).val = row.val) (j : ℕ) :
    (page.modify i f).line? j = page.line? j := by
  by_cases hij : i = j
  · subst hij
    rcases hrow : page.rows[i]? with - | row
    · rw [line?, line?, rows_modify, hrow]
      rfl
    rw [line?_of_row hrow, line?_of_row (rows_modify_self hrow), hsku, hattached]
    obtain hfocus | hval := hval
    · have hfocus' : (page.modify i f).focus = some i := hfocus
      rw [if_pos hfocus, if_pos hfocus']
      rfl
    · rw [hval]
      rfl
  · exact line?_modify_of_ne hij

theorem line?_updatePageInfo (page : CartPage) (i : ℕ) : (page.updatePageInfo N).line? i = page.line? i := rfl

/-- What is clicked is in the document, and nothing is edited. -/
theorem clicked_eq_some (h : page.clicked i = some row) :
    page.focus = none ∧ page.rows[i]? = some row ∧ row.attached = true := by
  rw [clicked] at h
  split at h
  · rename_i hfocus
    obtain ⟨hrow, hattached⟩ := Option.filter_eq_some_iff.1 h
    exact ⟨hfocus, hrow, hattached⟩
  · cases h

end CartPage

/-- The request of a callback. -/
def Callback.ajax (skuId : Str) : Callback N.Num → Ajax
  | .updated _ count _ => .update skuId (N.text count)
  | .deleted _ => .delete skuId

/-- What the row shows until its request has been executed. -/
def Callback.before {Num : Type} (oldCount : Str) (line : CartLine) : Callback Num → Str
  | .updated _ _ typed => if typed then oldCount else line.shown
  | .deleted _ => line.shown

/-- What the row is going to show then. -/
def Callback.after : Callback N.Num → Option Str
  | .updated _ count _ => some (N.text count)
  | .deleted _ => none

/-- **What an event does to the lines**: nothing, or it posts an update or a deletion of one of them. -/
inductive ActStep (page page' : CartPage) : CartEvent → Option (Ajax × Callback N.Num) → Prop where
  | quiet {e : CartEvent} (lines : ∀ i, page'.line? i = page.line? i) (skuUl : page'.skuUl = page.skuUl)
      (focus : ∀ i, page'.focus = some i → page.focus = some i ∨ e = .focus i) : ActStep page page' e none
  | post {e : CartEvent} (k : Callback N.Num) (line line' : CartLine)
      (event : k.sync = true ∧ (e = .add k.row ∨ e = .minus k.row ∨ page.focus = some k.row) ∨
        e = .delete k.row)
      (old : page.line? k.row = some line) (attached : line.attached = true)
      (new : page'.line? k.row = some line')
      (same : line'.skuId = line.skuId ∧ line'.attached = line.attached)
      (before : k.before page'.oldCount line' = line.shown)
      (lines : ∀ j, j ≠ k.row → page'.line? j = page.line? j) (focus : page'.focus = none)
      (skuUl : (∀ i, k = .deleted i → page'.skuUl = some i) ∧ (k.sync = true → page'.skuUl = page.skuUl)) :
      ActStep page page' e (some (k.ajax line.skuId, k))

theorem actStep_of_act {page page' : CartPage} {e : CartEvent} {request : Option (Ajax × Callback N.Num)}
    (h : page.act N e = some (page', request)) : ActStep page page' e request := by
  -- a button of a row that shows its value
  have hbutton : ∀ {i : ℕ} {row : CartRow} {count : N.Num}, e = .add i ∨ e = .minus i →
      page.clicked i = some row →
      ActStep page page e (some (.update row.skuId (N.text count), .updated i count false)) := by
    intro i row count he hrow
    obtain ⟨hfocus, hrow, hattached⟩ := CartPage.clicked_eq_some hrow
    exact .post (.updated i count false) _ _ (.inl ⟨rfl, he.imp_right .inl⟩) (CartPage.line?_of_row hrow)
      hattached (CartPage.line?_of_row hrow) ⟨rfl, rfl⟩ rfl (fun _ _ ↦ rfl) hfocus
      ⟨fun _ h ↦ (by cases h), fun _ ↦ rfl⟩
  cases e with
  | selectAll =>
    rw [CartPage.act] at h
    split at h
    · cases h
      refine .quiet (fun i ↦ ?_) rfl fun _ ↦ .inl
      rw [CartPage.line?_updatePageInfo, CartPage.line?, CartPage.line?, List.getElem?_map]
      rcases page.rows[i]? with - | row
      · rfl
      · simp only [Option.map_some]
        split
        · rfl
        · rfl
    · cases h
  | check i =>
    obtain ⟨row, -, heq⟩ := Option.map_eq_some_iff.1 h
    cases heq
    refine .quiet (fun j ↦ ?_) rfl fun _ ↦ .inl
    rw [CartPage.line?_updatePageInfo]
    exact CartPage.line?_modify (f := fun row ↦ { row with checked := !row.checked }) (fun _ ↦ rfl)
      (fun _ ↦ rfl) (.inr fun _ ↦ rfl) j
  | add i =>
    obtain ⟨row, hrow, heq⟩ := Option.map_eq_some_iff.1 h
    cases heq
    exact hbutton (.inl rfl) hrow
  | minus i =>
    obtain ⟨row, hrow, heq⟩ := Option.map_eq_some_iff.1 h
    dsimp only at heq
    split at heq
    · cases heq
      exact .quiet (fun _ ↦ rfl) rfl fun _ ↦ .inl
    · cases heq
      exact hbutton (.inr rfl) hrow
  | focus i =>
    obtain ⟨row, hrow, heq⟩ := Option.map_eq_some_iff.1 h
    obtain ⟨hfocus, hrow, -⟩ := CartPage.clicked_eq_some hrow
    cases heq
    refine .quiet (fun j ↦ ?_) rfl fun j hj ↦ .inr (congrArg CartEvent.focus (Option.some.inj hj))
    rw [CartPage.line?, CartPage.line?, hfocus]
    by_cases hij : i = j
    · -- the row shows what it showed
      subst hij
      rw [hrow]
      simp
    · have hne : some i ≠ some j := fun heq ↦ hij (Option.some.inj heq)
      simp [hne]
  | type i text =>
    rw [CartPage.act] at h
    split at h
    · rename_i hfocus
      cases h
      exact .quiet (CartPage.line?_modify (f := fun row ↦ { row with val := text }) (fun _ ↦ rfl) (fun _ ↦ rfl)
        (.inl hfocus)) rfl fun _ ↦ .inl
    · cases h
  | blur i =>
    rw [CartPage.act] at h
    split at h
    swap
    · cases h
    rename_i hfocus
    obtain ⟨row, hrow, heq⟩ := Option.map_eq_some_iff.1 h
    obtain ⟨hrow, hattached⟩ := Option.filter_eq_some_iff.1 hrow
    have hold := CartPage.line?_of_row hrow
    rw [if_pos hfocus] at hold
    have hother : ∀ j, j ≠ i → ({ page with focus := none } : CartPage).line? j = page.line? j := by
      intro j hj
      have hne : page.focus ≠ some j := fun h ↦ hj (Option.some.inj (h.symm.trans hfocus))
      rcases hrow : page.rows[j]? with - | row
      · show page.rows[j]?.map _ = page.rows[j]?.map _
        rw [hrow]
        rfl
      · have hrow' : ({ page with focus := none } : CartPage).rows[j]? = some row := hrow
        rw [CartPage.line?_of_row hrow, CartPage.line?_of_row hrow', if_neg hne]
        rfl
    dsimp only at heq
    split at heq
    · cases heq
      refine .quiet (fun j ↦ ?_) rfl fun j hj ↦ (by cases hj)
      by_cases hij : i = j
      · subst hij
        have hnew : ({ page with focus := none } : CartPage).rows[i]? = some row := hrow
        rw [hold, CartPage.line?_of_row (CartPage.rows_modify_self hnew)]
        rfl
      · rw [CartPage.line?_modify_of_ne hij, hother j (Ne.symm hij)]
    · cases heq
      have hnew : ({ page with focus := none } : CartPage).rows[i]? = some row := hrow
      exact .post (.updated i _ true) _ _ (.inl ⟨rfl, .inr (.inr hfocus)⟩) hold hattached
        (CartPage.line?_of_row hnew) ⟨rfl, rfl⟩ rfl hother rfl ⟨fun _ h ↦ (by cases h), fun _ ↦ rfl⟩
  | delete i =>
    obtain ⟨row, hrow, heq⟩ := Option.map_eq_some_iff.1 h
    obtain ⟨hfocus, hrow, hattached⟩ := CartPage.clicked_eq_some hrow
    cases heq
    exact .post (.deleted i) _ _ (.inr rfl) (CartPage.line?_of_row hrow) hattached
      (CartPage.line?_of_row hrow) ⟨rfl, rfl⟩ rfl (fun _ _ ↦ rfl) hfocus
      ⟨fun _ h ↦ Callback.deleted.inj h ▸ rfl, fun h ↦ (by cases h)⟩

theorem ActStep.skuId? {page page' : CartPage} {e : CartEvent} {request : Option (Ajax × Callback N.Num)}
    (h : ActStep page page' e request) : page'.skuId? = page.skuId? := by
  cases h with
  | quiet hlines =>
    funext i
    rw [← CartPage.map_line?, ← CartPage.map_line?, hlines]
  | post k line line' _ hold _ hnew hsame _ hlines => exact CartPage.skuId?_eq hold hnew hsame.1 hlines

/-- **What an answer does to the lines**: only the one of its row changes, as the site has changed the cart. -/
structure AnswerStep (page page' : CartPage) (k : Callback N.Num) (line : CartLine) (wrote : Prop)
    [Decidable wrote] : Prop where
  line : ∃ line', page'.line? k.row = some line' ∧ line'.skuId = line.skuId ∧
    (if line'.attached = true then some line'.shown else none) =
      if wrote then k.after else some (k.before page.oldCount line)
  lines : ∀ j, j ≠ k.row → page'.line? j = page.line? j
  focus : page'.focus = page.focus
  oldCount : page'.oldCount = page.oldCount
  skuUl : page'.skuUl = page.skuUl

theorem answerStep_updated {page : CartPage} {i : ℕ} {count : N.Num} {typed : Bool} {line : CartLine}
    {reply : Reply} (hline : page.line? i = some line) (hattached : line.attached = true)
    (hfocus : page.focus = none) (herror : reply ≠ .error) :
    AnswerStep page (page.callback N (.updated i count typed) reply) (.updated i count typed) line
      (reply.res = some 5) := by
  obtain ⟨row, hrow, rfl⟩ := Option.map_eq_some_iff.1 hline
  -- writing a text into the input of the row
  have hwrite : ∀ text, (page.modify i fun row ↦ { row with val := text }).line? i =
      some { skuId := row.skuId, attached := row.attached, shown := text } := by
    intro text
    rw [CartPage.line?_of_row (CartPage.rows_modify_self hrow)]
    have hnone : (page.modify i fun row ↦ { row with val := text }).focus ≠ some i := fun h ↦ by
      cases hfocus.symm.trans h
    rw [if_neg hnone]
  have hother : ∀ text j, j ≠ i → (page.modify i fun row ↦ { row with val := text }).line? j = page.line? j :=
    fun text j hj ↦ CartPage.line?_modify_of_ne (Ne.symm hj)
  have hanswered : CartPage.updateResult reply =
      if reply.res = some 5 then (false, reply.totalCount) else (true, 0) := by
    cases reply with
    | error => exact absurd rfl herror
    | _ => rfl
  by_cases hres : reply.res = some 5
  · have hresult : CartPage.updateResult reply = (false, reply.totalCount) := hanswered.trans (if_pos hres)
    have hcallback : page.callback N (.updated i count typed) reply =
        if (((page.modify i fun row ↦ { row with val := N.text count }).rows[i]?.map
            CartRow.checked).getD false) = true then
          { (page.modify i fun row ↦ { row with val := N.text count }).updatePageInfo N with
            header := N.text (N.ofInt reply.totalCount) }
        else page.modify i fun row ↦ { row with val := N.text count } := by
      rw [CartPage.callback, hresult]
    have hshown : (if row.attached = true then some (N.text count) else none) = some (N.text count) :=
      if_pos hattached
    rw [hcallback]
    split
    · exact ⟨⟨_, hwrite _, rfl, by rw [if_pos hres]; exact hshown⟩, hother _, rfl, rfl, rfl⟩
    · exact ⟨⟨_, hwrite _, rfl, by rw [if_pos hres]; exact hshown⟩, hother _, rfl, rfl, rfl⟩
  · have hresult : CartPage.updateResult reply = (true, 0) := hanswered.trans (if_neg hres)
    rw [CartPage.callback, hresult]
    cases typed with
    | true => exact ⟨⟨_, hwrite _, rfl, by rw [if_neg hres]; exact if_pos hattached⟩, hother _, rfl, rfl, rfl⟩
    | false =>
      exact ⟨⟨_, hline, rfl, by rw [if_neg hres]; exact if_pos hattached⟩, fun _ _ ↦ rfl, rfl, rfl, rfl⟩

theorem answerStep_deleted {page : CartPage} {i : ℕ} {line : CartLine} {reply : Reply}
    (hline : page.line? i = some line) (hattached : line.attached = true) (hfocus : page.focus ≠ some i)
    (hskuUl : page.skuUl = some i) (herror : reply ≠ .error) :
    AnswerStep page (page.callback N (.deleted i) reply) (.deleted i : Callback N.Num) line
      (reply.res = some 3) := by
  obtain ⟨row, hrow, rfl⟩ := Option.map_eq_some_iff.1 hline
  have hcallback : page.callback N (.deleted i) reply =
      if reply.res = some 3 then page.removeSkuUl N reply.totalCount else page := by
    cases reply with
    | error => exact absurd rfl herror
    | _ => rfl
  by_cases hres : reply.res = some 3
  · rw [hcallback, if_pos hres]
    have hremove : (page.modify i fun row ↦ { row with attached := false }).line? i =
        some { skuId := row.skuId, attached := false, shown := row.val } := by
      rw [CartPage.line?_of_row (CartPage.rows_modify_self hrow)]
      have hne : (page.modify i fun row ↦ { row with attached := false }).focus ≠ some i := hfocus
      rw [if_neg hne]
    have hother : ∀ j, j ≠ i → (page.modify i fun row ↦ { row with attached := false }).line? j = page.line? j :=
      fun j hj ↦ CartPage.line?_modify_of_ne (Ne.symm hj)
    rw [CartPage.removeSkuUl, hskuUl]
    dsimp only
    rw [hrow]
    dsimp only
    have hkeeps : (if (page.modify i fun row ↦ { row with attached := false }).focus = some i then none
        else (page.modify i fun row ↦ { row with attached := false }).focus) = page.focus := if_neg hfocus
    rw [hkeeps]
    have hgone : ∀ text : Str, (none : Option Str) = if reply.res = some 3 then none else some text :=
      fun _ ↦ (if_pos hres).symm
    split
    · exact ⟨⟨_, hremove, rfl, hgone _⟩, hother, rfl, rfl, rfl⟩
    · exact ⟨⟨_, hremove, rfl, hgone _⟩, hother, rfl, rfl, rfl⟩
  · rw [hcallback, if_neg hres]
    exact ⟨⟨_, hline, rfl, by rw [if_neg hres]; exact if_pos hattached⟩, fun _ _ ↦ rfl, rfl, rfl, rfl⟩


section AnswerStep

variable {page page' : CartPage} {k : Callback N.Num} {line : CartLine} {p q : Prop} [Decidable p] [Decidable q]

theorem AnswerStep.skuId? (h : AnswerStep page page' k line p) (hline : page.line? k.row = some line) :
    page'.skuId? = page.skuId? := by
  obtain ⟨line', hline', hsku, -⟩ := h.line
  exact CartPage.skuId?_eq hline hline' hsku h.lines

theorem AnswerStep.congr (h : AnswerStep page page' k line p) (hpq : p ↔ q) :
    AnswerStep page page' k line q where
  line := by
    obtain ⟨line', hline', hsku, hshown⟩ := h.line
    exact ⟨line', hline', hsku, hshown.trans (if_congr hpq rfl rfl)⟩
  lines := h.lines
  focus := h.focus
  oldCount := h.oldCount
  skuUl := h.skuUl

end AnswerStep

end DailyFresh
