import DailyFresh.Concurrent.CartWrites
import DailyFresh.Results.CartLines
import DailyFresh.Results.StaleSave

/-!
# The cart page and the cart

While a user is on the cart page, the page is all that changes the cart: its requests are interleaved with
any requests that leave this cart alone, and with each other.
-/

namespace DailyFresh

open Python Store Interleave Program

variable {ι : Type} {N : Numbers} {user : ℕ}

/-! ### The page and the cart go together -/

section Visits

variable [DecidableEq ι] {posts : ℕ → Ajax} {others : ι → Request} {db : Db} {carts : ℕ → Cart}
  {gateway : ℕ → Answer} {products : ℕ → Option Str} {v v' : CartVisit N ι}

/-- The page and the cart go together: each line shows its entry of the cart, or what the entry was before or
will be after its unanswered request. -/
structure Synced (user : ℕ) (posts : ℕ → Ajax) (products : ℕ → Option Str) (v : CartVisit N ι) : Prop where
  orderly : v.Orderly
  products : v.page.skuId? = products
  unposted : ∀ n, v.posted ≤ n → wrote user v.site n = false
  ids : ∀ i j id, v.page.skuId? i = some id → v.page.skuId? j = some id → i = j
  keys : ∀ field ∈ (v.site.world.carts user).keys, ∃ i, v.page.skuId? i = some field
  rows : ∀ x ∈ v.waiting, ∀ y ∈ v.waiting, x.2.row = y.2.row → x = y
  waits : ∀ n k, (n, k) ∈ v.waiting → ∃ line, v.page.line? k.row = some line ∧ line.attached = true ∧
    posts n = k.ajax line.skuId
  focus : ∀ x ∈ v.waiting, (x.2.sync = true → v.page.focus = none) ∧ v.page.focus ≠ some x.2.row
  skuUl : ∀ n i, (n, .deleted i) ∈ v.waiting → v.page.skuUl = some i
  busy : ∀ n k line, (n, k) ∈ v.waiting → v.page.line? k.row = some line →
    ((v.site.world.carts user).lookup line.skuId).map intStr =
      if wrote user v.site n = true then k.after else some (k.before v.page.oldCount line)
  free : ∀ i line, v.page.line? i = some line → (∀ x ∈ v.waiting, x.2.row ≠ i) →
    ((v.site.world.carts user).lookup line.skuId).map intStr =
      if line.attached = true then some line.shown else none

/-- The care that the user takes: the cart is changed on this page only, what is being deleted is not edited,
and nothing is deleted before the last deletion has been answered. And no request of the page is killed. -/
def Careful (user : ℕ) (others : ι → Request) (v : CartVisit N ι) : VisitMove ι CartEvent → Prop
  | .site (.step (.inr t)) => (others t).LeavesCart user
  | .site (.kill (.inl _)) => False
  | .act (.add i) => ∀ x ∈ v.waiting, x.2.row ≠ i
  | .act (.minus i) => ∀ x ∈ v.waiting, x.2.row ≠ i
  | .act (.focus i) => ∀ x ∈ v.waiting, x.2.row ≠ i
  | .act (.delete _) => v.waiting = []
  | _ => True

instance decidableCareful (user : ℕ) (others : ι → Request) (v : CartVisit N ι) :
    ∀ m, Decidable (Careful user others v m)
  | .site (.step (.inr t)) => decidableLeavesCart user (others t)
  | .site (.step (.inl _)) => isTrue trivial
  | .site (.kill (.inl _)) => isFalse id
  | .site (.kill (.inr _)) => isTrue trivial
  | .act (.add i) => inferInstanceAs (Decidable (∀ x ∈ v.waiting, x.2.row ≠ i))
  | .act (.minus i) => inferInstanceAs (Decidable (∀ x ∈ v.waiting, x.2.row ≠ i))
  | .act (.focus i) => inferInstanceAs (Decidable (∀ x ∈ v.waiting, x.2.row ≠ i))
  | .act (.delete _) => decidable_of_iff (v.waiting.isEmpty = true) List.isEmpty_iff
  | .act .selectAll => isTrue trivial
  | .act (.check _) => isTrue trivial
  | .act (.type _ _) => isTrue trivial
  | .act (.blur _) => isTrue trivial
  | .answer _ => isTrue trivial

omit [DecidableEq ι] in
/-- A deletion does not depend on what is edited. -/
theorem before_of_not_sync {Num : Type} {k : Callback Num} (h : k.sync = false) (oldCount oldCount' : Str)
    (line : CartLine) : k.before oldCount line = k.before oldCount' line := by
  cases k with
  | updated i count typed => cases h
  | deleted i => rfl

namespace Synced

/-- A move of the site. -/
theorem served (h : Synced user posts products v) (hlawful : N.Lawful)
    {s : State Services (ℕ ⊕ ι) (World (ℕ ⊕ ι)) Session Reply} {m : Move (ℕ ⊕ ι)}
    (hwaits : ∀ n, m = .step (.inl n) → ∃ k, (n, k) ∈ v.waiting) (hstep : CartStep user posts v.site s m) :
    Synced user posts products { v with site := s } := by
  cases hstep with
  | same hcart hwrote =>
    exact { h with
      orderly := ⟨h.orderly.posted, h.orderly.nodup⟩
      unposted := fun n hn ↦ (hwrote n).trans (h.unposted n hn)
      keys := fun field hfield ↦ h.keys field (hcart ▸ hfield)
      busy := fun n k line hk hline ↦ by
        show ((s.world.carts user).lookup _).map _ = if wrote user s n = true then _ else _
        rw [hcart, hwrote]
        exact h.busy n k line hk hline
      free := fun i line hline hidle ↦ by
        show ((s.world.carts user).lookup _).map _ = _
        rw [hcart]
        exact h.free i line hline hidle }
  | write n hprocess hself hother hcart =>
    obtain ⟨k, hk⟩ := hwaits n hprocess
    obtain ⟨line₀, hline₀, hattached, hposts⟩ := h.waits n k hk
    rw [hposts] at hcart
    -- the entry of the row becomes what the callback expects, and the others stay
    obtain ⟨hentry, hothers, hkeys⟩ : ((s.world.carts user).lookup line₀.skuId).map intStr = k.after ∧
        (∀ field, field ≠ line₀.skuId →
          (s.world.carts user).lookup field = (v.site.world.carts user).lookup field) ∧
        ∀ field ∈ (s.world.carts user).keys, field = line₀.skuId ∨
          field ∈ (v.site.world.carts user).keys := by
      cases k with
      | updated i count typed =>
        obtain ⟨value, hvalue, hcart⟩ := hcart
        rw [hcart]
        refine ⟨?_, fun field hne ↦ AList.lookup_insert_ne hne, fun field hfield ↦ ?_⟩
        · rw [AList.lookup_insert, Option.map_some, ← hlawful.text_of_int count value hvalue]
          rfl
        · exact (AList.mem_insert _).1 hfield
      | deleted i =>
        have hcart : s.world.carts user = (v.site.world.carts user).hdel [line₀.skuId] := hcart
        rw [hcart]
        refine ⟨?_, fun field hne ↦ ?_, fun field hfield ↦ ?_⟩
        · rw [Cart.lookup_hdel, if_pos (List.mem_singleton_self _)]
          rfl
        · rw [Cart.lookup_hdel, if_neg (fun hmem ↦ hne (List.mem_singleton.1 hmem))]
        · exact .inr (AList.mem_erase.1 hfield).2
    have hlookup : ∀ i line, v.page.line? i = some line → i ≠ k.row →
        (s.world.carts user).lookup line.skuId = (v.site.world.carts user).lookup line.skuId :=
      fun i line hline hi ↦ hothers _ fun hsame ↦
        hi (h.ids i k.row _ (CartPage.skuId?_of_line hline) (hsame ▸ CartPage.skuId?_of_line hline₀))
    exact { h with
      orderly := ⟨h.orderly.posted, h.orderly.nodup⟩
      unposted := fun n' hn' ↦ by
        have hlt : n < v.posted := h.orderly.posted _ hk
        have hn' : v.posted ≤ n' := hn'
        exact (hother n' (by omega)).trans (h.unposted n' hn')
      keys := fun field hfield ↦ by
        obtain rfl | hold := hkeys field hfield
        · exact ⟨k.row, CartPage.skuId?_of_line hline₀⟩
        · exact h.keys field hold
      busy := fun n' k' line hk' hline ↦ by
        show ((s.world.carts user).lookup _).map _ = if wrote user s n' = true then _ else _
        by_cases hrow : k'.row = k.row
        · obtain ⟨rfl, rfl⟩ := Prod.mk.inj (h.rows _ hk' _ hk hrow)
          obtain rfl := Option.some.inj (hline.symm.trans hline₀)
          rw [if_pos hself]
          exact hentry
        · have hne : n' ≠ n := by
            rintro rfl
            exact hrow (congrArg Callback.row (h.orderly.unique hk' hk))
          rw [hother n' hne, hlookup _ line hline hrow]
          exact h.busy n' k' line hk' hline
      free := fun i line hline hidle ↦ by
        show ((s.world.carts user).lookup _).map _ = _
        rw [hlookup i line hline (Ne.symm (hidle _ hk))]
        exact h.free i line hline hidle }

/-- An event that posts nothing. -/
theorem quiet (h : Synced user posts products v) (hfree : ∀ x ∈ v.waiting, x.2.sync = false) {page : CartPage}
    (hids : page.skuId? = v.page.skuId?) (hlines : ∀ i, page.line? i = v.page.line? i)
    (hskuUl : page.skuUl = v.page.skuUl) (hfocus : ∀ x ∈ v.waiting, page.focus ≠ some x.2.row) :
    Synced user posts products { v with page } where
  orderly := ⟨h.orderly.posted, h.orderly.nodup⟩
  products := hids.trans h.products
  unposted := h.unposted
  ids := hids ▸ h.ids
  keys := hids ▸ h.keys
  rows := h.rows
  waits n k hk := by
    obtain ⟨line, hline, hrest⟩ := h.waits n k hk
    exact ⟨line, (hlines _).trans hline, hrest⟩
  focus x hx := ⟨fun hsync ↦ (by cases (hfree x hx).symm.trans hsync), hfocus x hx⟩
  skuUl n i hk := hskuUl.trans (h.skuUl n i hk)
  busy n k line hk hline := by
    have hentry := h.busy n k line hk (hlines _ ▸ hline)
    rw [before_of_not_sync (hfree _ hk) _ page.oldCount] at hentry
    exact hentry
  free i line hline hidle := h.free i line (hlines i ▸ hline) hidle

/-- An event that posts a request. -/
theorem post (h : Synced user posts products v) (hfree : ∀ x ∈ v.waiting, x.2.sync = false) {page : CartPage}
    {k : Callback N.Num} {line₀ line₁ : CartLine} (hidle : ∀ x ∈ v.waiting, x.2.row ≠ k.row)
    (hdelete : k.sync = false → v.waiting = []) (hold : v.page.line? k.row = some line₀)
    (hids : page.skuId? = v.page.skuId?) (hattached : line₀.attached = true)
    (hnew : page.line? k.row = some line₁)
    (hsame : line₁.skuId = line₀.skuId ∧ line₁.attached = line₀.attached)
    (hbefore : k.before page.oldCount line₁ = line₀.shown)
    (hlines : ∀ j, j ≠ k.row → page.line? j = v.page.line? j) (hfocus : page.focus = none)
    (hskuUl : (∀ i, k = .deleted i → page.skuUl = some i) ∧ (k.sync = true → page.skuUl = v.page.skuUl))
    (hposts : posts v.posted = k.ajax line₀.skuId) : Synced user posts products
      { v with page, posted := v.posted + 1, waiting := (v.posted, k) :: v.waiting } := by
  have hfresh : wrote user v.site v.posted = false := h.unposted _ le_rfl
  refine ⟨h.orderly.post page k, hids.trans h.products, fun n hn ↦ h.unposted n (Nat.le_of_succ_le hn),
    hids ▸ h.ids, hids ▸ h.keys, ?_, ?_, ?_, ?_, ?_, ?_⟩
  · intro x hx y hy hrow
    rcases List.mem_cons.1 hx with rfl | hx
    · rcases List.mem_cons.1 hy with rfl | hy
      · rfl
      · exact absurd hrow.symm (hidle y hy)
    · rcases List.mem_cons.1 hy with rfl | hy
      · exact absurd hrow (hidle x hx)
      · exact h.rows x hx y hy hrow
  · intro n k' hk'
    rcases List.mem_cons.1 hk' with heq | hk'
    · cases heq
      exact ⟨line₁, hnew, hsame.2.trans hattached, by rw [hsame.1]; exact hposts⟩
    · obtain ⟨line, hline, hrest⟩ := h.waits n k' hk'
      exact ⟨line, (hlines _ (hidle _ hk')).trans hline, hrest⟩
  · exact fun x _ ↦ ⟨fun _ ↦ hfocus, fun hsome ↦ by cases hfocus.symm.trans hsome⟩
  · intro n i hk'
    rcases List.mem_cons.1 hk' with heq | hk'
    · exact hskuUl.1 i (Prod.mk.inj heq).2.symm
    · cases hsync : k.sync with
      | true => exact (hskuUl.2 hsync).trans (h.skuUl n i hk')
      | false =>
        rw [hdelete hsync] at hk'
        cases hk'
  · intro n k' line hk' hline
    rcases List.mem_cons.1 hk' with heq | hk'
    · cases heq
      obtain rfl := Option.some.inj (hnew.symm.trans hline)
      have hentry := h.free k.row line₀ hold hidle
      rw [if_pos hattached] at hentry
      show ((v.site.world.carts user).lookup _).map _ = if wrote user v.site v.posted = true then _ else _
      rw [hfresh, if_neg Bool.false_ne_true, hsame.1, hentry, hbefore]
    · have hentry := h.busy n k' line hk' ((hlines _ (hidle _ hk')).symm.trans hline)
      rw [before_of_not_sync (hfree _ hk') _ page.oldCount] at hentry
      exact hentry
  · intro i line hline hnone
    have hi : i ≠ k.row := fun heq ↦ hnone (v.posted, k) List.mem_cons_self heq.symm
    exact h.free i line ((hlines i hi).symm.trans hline) fun x hx ↦ hnone x (List.mem_cons_of_mem _ hx)

/-- An answer. -/
theorem answer (h : Synced user posts products v) {n : ℕ} {k : Callback N.Num} (hk : (n, k) ∈ v.waiting)
    {page : CartPage} {line₀ : CartLine} (hline₀ : v.page.line? k.row = some line₀)
    (hstep : AnswerStep v.page page k line₀ (wrote user v.site n = true)) : Synced user posts products
      { v with page, waiting := v.waiting.filter fun x ↦ x.1 ≠ n } := by
  obtain ⟨line₁, hline₁, hsku, hshown⟩ := hstep.line
  have hids := hstep.skuId? hline₀
  have hmem : ∀ {x : ℕ × Callback N.Num}, x ∈ v.waiting.filter (fun x ↦ x.1 ≠ n) → x ∈ v.waiting ∧
      x.2.row ≠ k.row := by
    intro x hx
    obtain ⟨hx, hne⟩ := List.mem_filter.1 hx
    refine ⟨hx, fun hrow ↦ of_decide_eq_true hne ?_⟩
    rw [h.rows x hx (n, k) hk hrow]
  refine ⟨h.orderly.answer page n, hids.trans h.products, h.unposted, hids ▸ h.ids, hids ▸ h.keys,
    fun x hx y hy ↦ h.rows x (hmem hx).1 y (hmem hy).1, ?_, ?_, ?_, ?_, ?_⟩
  · intro n' k' hk'
    obtain ⟨hk', hrow⟩ := hmem hk'
    obtain ⟨line, hline, hrest⟩ := h.waits n' k' hk'
    exact ⟨line, (hstep.lines _ hrow).trans hline, hrest⟩
  · intro x hx
    obtain ⟨hsync, hrow⟩ := h.focus x (hmem hx).1
    exact ⟨fun hx ↦ hstep.focus.trans (hsync hx), fun hfocus ↦ hrow (hstep.focus.symm.trans hfocus)⟩
  · intro n' i hk'
    exact hstep.skuUl.trans (h.skuUl n' i (hmem hk').1)
  · intro n' k' line hk' hline
    obtain ⟨hk', hrow⟩ := hmem hk'
    have hentry := h.busy n' k' line hk' ((hstep.lines _ hrow).symm.trans hline)
    show _ = if wrote user v.site n' = true then _ else some (k'.before page.oldCount line)
    rw [hstep.oldCount]
    exact hentry
  · intro i line hline hnone
    by_cases hi : i = k.row
    · subst hi
      obtain rfl := Option.some.inj (hline₁.symm.trans hline)
      show ((v.site.world.carts user).lookup _).map _ = _
      rw [hsku, h.busy n k line₀ hk hline₀, ← hshown]
    · refine h.free i line ((hstep.lines i hi).symm.trans hline) fun x hx hrow ↦ ?_
      refine hnone x (List.mem_filter.2 ⟨hx, decide_eq_true fun hn ↦ ?_⟩) hrow
      obtain ⟨n', k'⟩ := x
      obtain rfl : n' = n := hn
      exact hi (hrow.symm.trans (congrArg Callback.row (h.orderly.unique hx hk)))

/-- **One careful move.** -/
theorem next {okSite : State Services (ℕ ⊕ ι) (World (ℕ ⊕ ι)) Session Reply → Move (ℕ ⊕ ι) → Prop}
    (hkill : ∀ s n, ¬ okSite s (.kill (.inl n))) (h : Synced user posts products v) (hlawful : N.Lawful)
    (hs : (site (ℕ ⊕ ι)).Reach okSite (start db carts gateway (besides user posts others)) v.site)
    (hreturned : ∀ n, n < v.posted → n ∉ v.waiting.map Prod.fst → ∃ a, v.site.prog (.inl n) = .ret a)
    {m : VisitMove ι CartEvent} (hcareful : Careful user others v m)
    (hn : (cartScript N).next (site (ℕ ⊕ ι)) posts v m = some v') : Synced user posts products v' := by
  cases m with
  | site m =>
    obtain ⟨hbegun, s, hmove, rfl⟩ := Script.next_site_cases hn
    refine h.served hlawful (fun n hm ↦ ?_) (cartStep_of_next (fun t ht ↦ ?_) hs hmove)
    · -- a request that has been answered does not move
      subst hm
      by_contra hnone
      obtain ⟨a, ha⟩ := hreturned n hbegun fun hmem ↦ by
        obtain ⟨⟨n', k⟩, hk, rfl⟩ := List.mem_map.1 hmem
        exact hnone ⟨k, hk⟩
      rw [Machine.next, ha] at hmove
      cases hmove
    · subst ht
      exact hcareful
  | act e =>
    obtain ⟨hblocked, page, request, hact, hcases⟩ := Script.next_act_cases hn
    have hfree : ∀ x ∈ v.waiting, (cartScript N).sync x.2 = false :=
      fun _ hx ↦ Visit.not_sync_of_not_blocked hblocked hx
    have hstep : ActStep v.page page e request := actStep_of_act hact
    have hids := hstep.skuId?
    cases hstep with
    | quiet hlines hskuUl hfocus =>
      obtain ⟨-, rfl⟩ | ⟨k, hk, -⟩ := hcases
      · refine h.quiet hfree hids hlines hskuUl fun x hx hrow ↦ ?_
        obtain hold | rfl := hfocus _ hrow
        · exact (h.focus x hx).2 hold
        · exact hcareful x hx rfl
      · cases hk
    | post k line₀ line₁ hevent hold hattached hnew hsame hbefore hlines hfocus hskuUl =>
      obtain ⟨hnone, -⟩ | ⟨k', hk', rfl⟩ := hcases
      · cases hnone
      obtain ⟨hposts, rfl⟩ := Prod.mk.inj (Option.some.inj hk')
      have hidle : ∀ x ∈ v.waiting, x.2.row ≠ k.row := by
        intro x hx
        rcases hevent with ⟨-, rfl | rfl | hedited⟩ | rfl
        · exact hcareful x hx
        · exact hcareful x hx
        · exact fun hrow ↦ (h.focus x hx).2 (hrow ▸ hedited)
        · have hnil : v.waiting = [] := hcareful
          rw [hnil] at hx
          cases hx
      have hdelete : k.sync = false → v.waiting = [] := by
        intro hsync
        rcases hevent with ⟨hsync', -⟩ | rfl
        · cases hsync.symm.trans hsync'
        · exact hcareful
      exact h.post hfree hidle hdelete hold hids hattached hnew hsame hbefore hlines hfocus hskuUl hposts.symm
  | answer n =>
    obtain ⟨k, reply, hk, hreply, -, rfl⟩ := Script.next_answer_cases hn
    obtain ⟨line, hline, hattached, hposts⟩ := h.waits n k hk
    obtain ⟨herror, hres⟩ := replied_of_reach hkill hs hreply
    rw [hposts] at hres
    refine h.answer hk hline ?_
    cases k with
    | updated i count typed =>
      exact (answerStep_updated hline hattached ((h.focus _ hk).1 rfl) herror).congr hres
    | deleted i =>
      exact (answerStep_deleted hline hattached (h.focus _ hk).2 (h.skuUl n i hk) herror).congr hres

end Synced

/-! ### The page is opened -/

/-- The process is no request of the page. -/
def Elsewhere (_ : State Services (ℕ ⊕ ι) (World (ℕ ⊕ ι)) Session Reply) (m : Move (ℕ ⊕ ι)) : Prop :=
  ∃ t, m.process = .inr t

/-- The process is no request of the page, and leaves the cart alone. -/
def LeavesAlone (user : ℕ) (others : ι → Request) (_ : State Services (ℕ ⊕ ι) (World (ℕ ⊕ ι)) Session Reply)
    (m : Move (ℕ ⊕ ι)) : Prop :=
  ∃ t, m.process = .inr t ∧ (others t).LeavesCart user

/-- The user opens the cart page: the request `t` for it comes in the state `s₀`, and has been answered in the
state `s₁`. Until then nothing else changes the cart; and what is in it has been put there under the numbers
that the site's own pages use. -/
structure Opens (user : ℕ) (posts : ℕ → Ajax) (others : ι → Request) (db : Db) (carts : ℕ → Cart)
    (gateway : ℕ → Answer) (s₀ s₁ : State Services (ℕ ⊕ ι) (World (ℕ ⊕ ι)) Session Reply) (t : ι)
    (skus : List ShownSKU) (totalCount : ℤ) : Prop where
  linked : db.Linked
  before : (site (ℕ ⊕ ι)).Reach Elsewhere (start db carts gateway (besides user posts others)) s₀
  request : ∃ req, others t = .cartInfo req ∧ req.user = some user
  fresh : s₀.world.log (.inr t) = []
  fields : ∀ field ∈ (s₀.world.carts user).keys, ∃ n : ℕ, field = str n
  loading : (site (ℕ ⊕ ι)).Reach (LeavesAlone user others) s₀ s₁
  reply : ∃ totalPrice, (s₁.prog (.inr t)).result? = some (.html (.cart skus totalCount totalPrice))

/-- The requests of the page have not begun. -/
theorem log_of_elsewhere {s : State Services (ℕ ⊕ ι) (World (ℕ ⊕ ι)) Session Reply}
    (hs : (site (ℕ ⊕ ι)).Reach Elsewhere (start db carts gateway (besides user posts others)) s) (n : ℕ) :
    s.world.log (.inl n) = [] := by
  induction hs with
  | refl => rfl
  | @move s s' m _ hm hn ih =>
    obtain ⟨t, ht⟩ := hm
    cases m with
    | step u =>
      obtain rfl : u = .inr t := ht
      obtain ⟨c, r, l, -, -, hhistory⟩ := next_step_history hn
      have hne : (.inl n : ℕ ⊕ ι) ≠ .inr t := fun h ↦ by cases h
      rw [World.log_cons_of_ne hne hhistory, ih]
    | kill u =>
      rw [next_kill_world hn]
      exact ih

theorem entries_of_shows {found : ℕ → Prop} {entries : List (Str × ℤ)} {skus : List ShownSKU}
    (h : ShowsEntries found entries skus) (hfields : ∀ e ∈ entries, ∃ n : ℕ, e.1 = str n) :
    entries = (skus.map fun sku ↦ (str sku.id, sku.count)) ∧ ∀ sku ∈ skus, found sku.id := by
  induction h with
  | nil => exact ⟨rfl, fun _ h ↦ (by cases h)⟩
  | @cons entry sku entries skus hhead _ ih =>
    obtain ⟨hid, hfound, hcount⟩ := hhead
    obtain ⟨hrest, hknown⟩ := ih fun e he ↦ hfields e (List.mem_cons_of_mem _ he)
    obtain ⟨n, hn⟩ := hfields entry List.mem_cons_self
    rw [hn, int_str] at hid
    have hsame : n = sku.id := Nat.cast_injective (Option.some.inj hid)
    refine ⟨?_, fun sku' hsku' ↦ ?_⟩
    · rw [List.map_cons, ← hrest, hcount, ← hsame, ← hn]
    · rcases List.mem_cons.1 hsku' with rfl | hsku'
      · exact hfound
      · exact hknown sku' hsku'

section Opens

variable {s₀ s₁ : State Services (ℕ ⊕ ι) (World (ℕ ⊕ ι)) Session Reply} {t : ι} {skus : List ShownSKU}
  {totalCount : ℤ}

theorem Opens.reach (h : Opens user posts others db carts gateway s₀ s₁ t skus totalCount) :
    (site (ℕ ⊕ ι)).Reach Elsewhere (start db carts gateway (besides user posts others)) s₁ :=
  h.before.trans (h.loading.mono fun _ _ hm ↦ hm.imp fun _ ↦ And.left)

/-- The page shows the cart. -/
theorem Opens.entries (h : Opens user posts others db carts gateway s₀ s₁ t skus totalCount) :
    (s₁.world.carts user).entries = (skus.map fun sku ↦ ⟨str sku.id, sku.count⟩) ∧
      (∀ sku ∈ skus, s₁.world.Sells sku.id) ∧
      totalCount = (skus.map ShownSKU.count).sum := by
  obtain ⟨req, hrequest, huser⟩ := h.request
  obtain ⟨totalPrice, hreply⟩ := h.reply
  have hhandler : (besides user posts others (.inr t)).handler = CartInfoView.get req := by
    show (others t).handler = _
    rw [hrequest]
    rfl
  have hlooks : ∀ c, (besides user posts others (.inr t)).writes c = false := by
    intro c
    show (others t).writes c = false
    rw [hrequest]
    rfl
  obtain ⟨hcart, hreads⟩ := reads_of_reach h.linked (h.before.mono fun _ _ _ ↦ trivial)
    (fun s m hm ↦ by
      obtain ⟨u, hu, hleaves⟩ := hm
      rw [hu]
      exact hleaves) h.loading hlooks h.fresh
  have hpath : CartInfoPath s₀.world.Sells s₁.world.Sells user (s₀.world.carts user) (s₁.world.log (.inr t))
      (s₁.prog (.inr t)) := by
    have hstart : Throughout (Event.mk (.inr t : ℕ ⊕ ι)) (CartInfoPath s₀.world.Sells s₁.world.Sells user
        (s₀.world.carts user)) (besides user posts others (.inr t)).handler [] :=
      hhandler.symm ▸ throughout_cartInfo huser
    rcases Throughout.of_reach_or site_logs hstart h.reach with hdead | hpath
    · rw [hdead] at hreply
      cases hreply
    · exact hpath.now
  obtain ⟨hshows, htotal⟩ := hpath skus totalCount totalPrice hreply hreads
  rw [← hcart] at hshows
  obtain ⟨hentries, hfound⟩ := entries_of_shows hshows fun e he ↦ by
    obtain ⟨entry, hentry, rfl⟩ := List.mem_map.1 he
    exact h.fields _ (hcart ▸ List.mem_map_of_mem hentry)
  refine ⟨?_, hfound, htotal⟩
  have hback := congrArg (List.map fun e : Str × ℤ ↦ (⟨e.1, e.2⟩ : Sigma fun _ : Str ↦ ℤ)) hentries
  rw [List.map_map, List.map_map] at hback
  exact (List.map_id _).symm.trans hback

/-- The page starts with the cart. -/
theorem Opens.synced (h : Opens user posts others db carts gateway s₀ s₁ t skus totalCount) :
    Synced user posts (fun i ↦ (s₁.world.carts user).keys[i]?)
      (CartVisit.opened s₁ skus totalCount : CartVisit N ι) := by
  obtain ⟨hentries, -, -⟩ := h.entries
  have hkeys : (s₁.world.carts user).keys = skus.map fun sku ↦ str sku.id := by
    show List.map Sigma.fst (s₁.world.carts user).entries = _
    rw [hentries, List.map_map]
    rfl
  have hrows : ∀ i, (CartPage.render skus totalCount).rows[i]? = skus[i]?.map CartRow.render :=
    fun i ↦ List.getElem?_map
  have hskuId : ∀ i, (CartPage.render skus totalCount).skuId? i = (s₁.world.carts user).keys[i]? := by
    intro i
    rw [CartPage.skuId?, hrows, hkeys, List.getElem?_map, Option.map_map]
    rfl
  refine ⟨⟨fun _ hx ↦ (by cases hx), List.nodup_nil⟩, funext hskuId, fun n _ ↦ ?_, fun i j id hi hj ↦ ?_,
    fun field hfield ↦ ?_, fun _ hx ↦ (by cases hx), fun _ _ hx ↦ (by cases hx), fun _ hx ↦ (by cases hx),
    fun _ _ hx ↦ (by cases hx), fun _ _ _ hx ↦ (by cases hx), fun i line hline _ ↦ ?_⟩
  · show wrote user s₁ n = false
    rw [wrote, log_of_elsewhere h.reach]
    rfl
  · have hi := (hskuId i).symm.trans hi
    have hj := (hskuId j).symm.trans hj
    obtain ⟨hlt, -⟩ := List.getElem?_eq_some_iff.1 hi
    exact (List.getElem?_inj hlt (s₁.world.carts user).keys_nodup).1 (hi.trans hj.symm)
  · obtain ⟨i, hi⟩ := List.mem_iff_getElem?.1 hfield
    exact ⟨i, (hskuId i).trans hi⟩
  · obtain ⟨row, hrow, rfl⟩ := Option.map_eq_some_iff.1 hline
    have hrow := (hrows i).symm.trans hrow
    obtain ⟨sku, hsku, rfl⟩ := Option.map_eq_some_iff.1 hrow
    have hmem : (⟨str sku.id, sku.count⟩ : Sigma fun _ : Str ↦ ℤ) ∈ (s₁.world.carts user).entries := by
      rw [hentries]
      exact List.mem_map_of_mem (List.mem_of_getElem? hsku)
    show ((s₁.world.carts user).lookup (str sku.id)).map intStr = some (intStr sku.count)
    rw [AList.mem_lookup_iff.2 hmem]
    rfl

/-- No request of the page is killed. -/
def Spares (_ : State Services (ℕ ⊕ ι) (World (ℕ ⊕ ι)) Session Reply) (m : Move (ℕ ⊕ ι)) : Prop :=
  ∀ n, m ≠ .kill (.inl n)

theorem Opens.spares (h : Opens user posts others db carts gateway s₀ s₁ t skus totalCount)
    (hv : (cartScript N).Reach (site (ℕ ⊕ ι)) posts (Careful user others)
      (CartVisit.opened s₁ skus totalCount) v) :
    (site (ℕ ⊕ ι)).Reach Spares (start db carts gateway (besides user posts others)) v.site := by
  refine (h.reach.mono fun _ _ hm n heq ↦ ?_).trans (hv.site fun v m hm n heq ↦ ?_)
  · obtain ⟨u, hu⟩ := hm
    rw [heq] at hu
    cases hu
  · rw [heq] at hm
    exact hm

/-- Every careful run keeps the page and the cart together. -/
theorem Opens.synced_of_reach (h : Opens user posts others db carts gateway s₀ s₁ t skus totalCount)
    (hlawful : N.Lawful)
    (hv : (cartScript N).Reach (site (ℕ ⊕ ι)) posts (Careful user others)
      (CartVisit.opened s₁ skus totalCount) v) :
    Synced user posts (fun i ↦ (s₁.world.carts user).keys[i]?) v :=
  hv.invariant (I := Synced user posts fun i ↦ (s₁.world.carts user).keys[i]?) h.synced
    fun _ _ _ hreach hsynced hcareful hn ↦
      hsynced.next (fun _ n (hm : Spares _ _) ↦ hm n rfl) hlawful (h.spares hreach)
        (fun _ hn hanswered ↦ hreach.returned rfl hn hanswered) hcareful hn

end Opens

end Visits

/-! ### An open page -/

/-- User 7 has some of both products. -/
def fullCarts (user : ℕ) : Cart := if user = 7 then cartOf [("1", 1), ("2", 2)] else ∅

-- what the numerals of four requests rest on
instance neZero_four : NeZero 4 := ⟨by decide⟩

/-- User 7 looks at the cart, user 8 adds to another one, and user 7 orders the first product: first the order page,
then the order. -/
def visitors : Fin 4 → Request :=
  ![.cartInfo { user := some 7, POST := formData [] },
    .cartAdd { user := some 8, POST := formData [("sku_id", "2"), ("count", "1")] },
    .place { user := some 7, POST := formData [] } ["1".toList],
    checkoutOf 7 0 "1"]

/-- The page posts that there are two of the first product, and that the second one is gone. -/
def posting : ℕ → Ajax
  | 0 => .update "1".toList "2".toList
  | _ => .delete "2".toList

/-- The state before the page. -/
def beforePage : State Services (ℕ ⊕ Fin 4) (World (ℕ ⊕ Fin 4)) Session Reply :=
  start smallShop fullCarts paying (besides 7 posting visitors)

/-- The page is served. -/
def loadingPage : List (Move (ℕ ⊕ Fin 4)) := [.step (.inr 0), .step (.inr 0), .step (.inr 0)]

/-- The rows of the page. -/
def pageItems : List ShownSKU :=
  [{ id := 2, sku := { price := .lit 1000 (.refl true), stock := .lit 3 (.refl true),
                       sales := .lit 0 (.refl true) }, count := 2, amount := 2000 },
   { id := 1, sku := { price := .lit 250 (.refl true), stock := .lit 5 (.refl true),
                       sales := .lit 0 (.refl true) }, count := 1, amount := 250 }]

/-- User 7 types a quantity and deletes the other row, while user 8 is served. -/
def usingPage : List (VisitMove (Fin 4) CartEvent) :=
  [.act (.focus 1), .act (.type 1 "2".toList), .act (.blur 1), .site (.step (.inl 0)), .site (.step (.inr 1)),
    .site (.step (.inl 0)), .site (.step (.inl 0)), .answer 0, .act (.delete 0), .site (.step (.inl 1)),
    .site (.step (.inr 1)), .site (.step (.inl 1)), .site (.step (.inl 1)), .answer 1]

theorem opens_usingPage {s : State Services (ℕ ⊕ Fin 4) (World (ℕ ⊕ Fin 4)) Session Reply}
    (hs : (site (ℕ ⊕ Fin 4)).perform beforePage loadingPage = some s) :
    Opens 7 posting visitors smallShop fullCarts paying beforePage s 0 pageItems 3 where
  linked := smallShop_linked
  before := .refl
  request := ⟨_, rfl, rfl⟩
  fresh := rfl
  fields field hfield := by
    have hkeys : (beforePage.world.carts 7).keys = [str 2, str 1] := by rfl
    rw [hkeys] at hfield
    rcases List.mem_cons.1 hfield with rfl | hfield
    · exact ⟨2, rfl⟩
    · exact ⟨1, List.mem_singleton.1 hfield⟩
  loading := by
    have hreach : (site (ℕ ⊕ Fin 4)).Reach (fun _ m ↦ m.process = .inr 0) beforePage s :=
      Machine.reach_of_allMoves .refl hs (by decide)
    exact hreach.mono fun _ _ hm ↦ ⟨0, hm, by decide⟩
  reply := by
    have hreply : ((site (ℕ ⊕ Fin 4)).perform beforePage loadingPage).map (fun s ↦
        (s.prog (.inr 0)).result?) = some (some (.html (.cart pageItems 3 2250))) := by rfl
    rw [hs] at hreply
    exact ⟨2250, Option.some.inj hreply⟩

end DailyFresh
