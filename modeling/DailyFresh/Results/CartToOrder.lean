import DailyFresh.Results.ExactCommit
import Mathlib.Algebra.BigOperators.Group.Finset.Basic

/-!
# From the cart to the order

A checkout reads the count of product `n` from the field `str n` of the cart, once for each id of the
list that denotes `n`, and at the end it deletes the ids of the list, as the client spelled them. The
same product may stand in the cart under several fields, because `CartAddView` takes the client's
spelling for the field.

So goods move from the cart to the order under one condition only (`Spelled`): each field of an ordered
product stands in the list, and the list names the product so often that its count under `str n` adds up
to what these fields hold. `goods_moved_iff` says that this condition is exact; the list `01` of a cart
with two pieces under `1` is the shortest way to miss it (`goods_not_moved`).
-/

namespace DailyFresh

open Python Store Interleave OrderCommitView

/-- The quantity of product `n` in a cart, under all fields that denote it. -/
def Cart.held (cart : Cart) (n : ℕ) : ℤ :=
  ∑ field ∈ cart.keys.toFinset with int field = some (n : ℤ), (cart.lookup field).getD 0

/-- Some id of the list denotes product `n`. -/
def Names (ids : List Str) (n : ℕ) : Prop := ∃ raw ∈ ids, int raw = some (n : ℤ)

/-- The list spells each of its products as the cart does, and as often as it takes. -/
structure Spelled (ids : List Str) (cart : Cart) : Prop where
  fields : ∀ n, Names ids n → ∀ field ∈ cart, int field = some (n : ℤ) → field ∈ ids
  counts : ∀ n, Names ids n →
    ids.countP (fun raw ↦ int raw = some (n : ℤ)) * cart.quantity n = cart.held n

/-- What the cart of the user has lost is what the lines count, and nothing else is touched. -/
structure Moved (user : ℕ) (lines : List OrderGoods) (carts carts' : ℕ → Cart) : Prop where
  moved : ∀ n, soldIn lines n = (carts user).held n - (carts' user).held n
  cleared : ∀ line ∈ lines, ∀ field ∈ carts' user, int field ≠ some (line.sku : ℤ)
  fields : ∀ field, (∀ line ∈ lines, int field ≠ some (line.sku : ℤ)) →
    (carts' user).lookup field = (carts user).lookup field
  carts : ∀ other, other ≠ user → carts' other = carts other

/-! ### Deleting fields -/

theorem Cart.mem_hdel {cart : Cart} {fields : List Str} {field : Str} :
    field ∈ cart.hdel fields ↔ field ∈ cart ∧ field ∉ fields := by
  rw [← AList.lookup_isSome, ← AList.lookup_isSome, Cart.lookup_hdel]
  by_cases h : field ∈ fields
  · simp [h]
  · simp [h]

/-- What a deletion takes from product `n`. -/
theorem Cart.held_hdel (cart : Cart) (fields : List Str) (n : ℕ) :
    cart.held n - (cart.hdel fields).held n =
      ∑ field ∈ cart.keys.toFinset with int field = some (n : ℤ) ∧ field ∈ fields,
        (cart.lookup field).getD 0 := by
  have hkeys : ((cart.hdel fields).keys.toFinset.filter fun field ↦ int field = some (n : ℤ)) =
      (cart.keys.toFinset.filter fun field ↦ int field = some (n : ℤ)).filter (· ∉ fields) := by
    ext field
    simp only [Finset.mem_filter, List.mem_toFinset, ← AList.mem_keys, Cart.mem_hdel]
    tauto
  have hkept : (cart.hdel fields).held n =
      ∑ field ∈ (cart.keys.toFinset.filter fun field ↦ int field = some (n : ℤ)).filter (· ∉ fields),
        (cart.lookup field).getD 0 := by
    rw [Cart.held, hkeys]
    refine Finset.sum_congr rfl fun field hfield ↦ ?_
    rw [Cart.lookup_hdel, if_neg (Finset.mem_filter.1 hfield).2]
  rw [hkept, Cart.held, ← Finset.filter_filter, sub_eq_iff_eq_add]
  exact (Finset.sum_filter_add_sum_filter_not _ _ _).symm

/-! ### One checkout -/

section Checkout

variable {now : LocalTime} {user : ℕ} {req : HttpRequest} {skuIds : Str} {db : Db} {carts : ℕ → Cart}
  {p : Placement}

theorem skus_of_lines {picks : List Pick} {orderId : Str} {lines : List OrderGoods}
    (h : picks.map (fun p ↦ (p.line orderId).row?) = lines.map some) :
    lines.map OrderGoods.sku = picks.map Pick.sku := by
  have hsku : List.Forall₂ (fun p line ↦ line.sku = p.sku) picks lines :=
    (forall₂_of_map_eq h).imp fun p line hline ↦ (LineObject.row?_eq_some_iff.1 hline).2.1
  rw [← List.forall₂_eq_eq_eq, List.forall₂_map_left_iff, List.forall₂_map_right_iff]
  exact hsku.flip

/-- The lines of a checkout are of the products that its list names, as often as it names them. -/
theorem OrderCommitView.Taken.named {cart : Cart} {orderId : Str} {picks : List Pick} {b : Basket}
    (h : Taken cart orderId db.skus picks b) (n : ℕ) :
    ((∃ line ∈ b.lines, line.sku = n) ↔ Names (picks.map Pick.raw) n) ∧
      soldIn b.lines n =
        (picks.map Pick.raw).countP (fun raw ↦ int raw = some (n : ℤ)) * cart.quantity n := by
  have hpick : ∀ q ∈ picks, int q.raw = some (q.sku : ℤ) ∧ q.count = cart.quantity q.sku := by
    intro q hq
    obtain ⟨-, -, -, hentry, hraw⟩ := h.exists_sku hq
    exact ⟨hraw, by rw [Cart.quantity, hentry]; rfl⟩
  have hdenotes : ∀ q ∈ picks, (int q.raw = some (n : ℤ) ↔ q.sku = n) := by
    intro q hq
    rw [(hpick q hq).1, Option.some.injEq, Int.ofNat_inj]
  constructor
  · have hmem : (∃ line ∈ b.lines, line.sku = n) ↔ n ∈ b.lines.map OrderGoods.sku :=
      List.mem_map.symm
    rw [hmem, skus_of_lines h.lines, List.mem_map]
    constructor
    · rintro ⟨q, hq, hn⟩
      exact ⟨q.raw, List.mem_map_of_mem hq, (hdenotes q hq).2 hn⟩
    · rintro ⟨raw, hraw, hn⟩
      obtain ⟨q, hq, rfl⟩ := List.mem_map.1 hraw
      exact ⟨q, hq, (hdenotes q hq).1 hn⟩
  · have hcount : (picks.map Pick.sku).count n =
        (picks.map Pick.raw).countP fun raw ↦ int raw = some (n : ℤ) := by
      rw [List.count, List.countP_map, List.countP_map]
      refine List.countP_congr fun q hq ↦ ?_
      show (q.sku == n) = true ↔ decide (int q.raw = some (n : ℤ)) = true
      rw [beq_iff_eq, decide_eq_true_iff, hdenotes q hq]
    rw [← hcount, ← pickedCount_of_quantity fun q hq ↦ (hpick q hq).2]
    exact sum_lines_eq_pickedCount h.lines n

theorem placement_moved_iff (huser : req.user = some user)
    (hids : req.POST "sku_ids".toList = some skuIds) (hp : alone id now req db carts = .ok p) :
    Moved user p.basket.lines carts (p.carts carts) ↔ Spelled (split ',' skuIds) (carts user) := by
  obtain ⟨c, addr, a, hasks, hfind, hof⟩ := alone_eq_ok_iff.1 hp
  obtain rfl := Option.some.inj (hasks.user.symm.trans huser)
  have hskus := (nonempty_eq_some_iff.1 hasks.skuIds).1
  obtain rfl := Option.some.inj (hids.symm.trans hskus)
  obtain ⟨picks, hraw, hbasket⟩ := taken_iff.1 hof.taken
  have hnamed := hbasket.named
  rw [hraw, id] at hnamed
  have hcart : p.carts carts c.user = (carts c.user).hdel c.ids := by
    rw [Placement.carts, hof.checkout, Function.update_self]
  change _ ↔ Spelled c.ids (carts c.user)
  -- the fields that the deletion takes from a named product are all its fields, if they are spelled out
  have hall : ∀ n : ℕ, (∀ field ∈ carts c.user, int field = some (n : ℤ) → field ∈ c.ids) →
      (carts c.user).held n - (p.carts carts c.user).held n = (carts c.user).held n := by
    intro n hfields
    rw [hcart, Cart.held_hdel, Cart.held]
    refine congrArg (fun s ↦ ∑ field ∈ s, ((carts c.user).lookup field).getD 0) ?_
    refine Finset.filter_congr fun field hfield ↦ and_iff_left_of_imp fun hint ↦ ?_
    exact hfields field (AList.mem_keys.2 (List.mem_toFinset.1 hfield)) hint
  constructor
  · intro hmoved
    have hfields : ∀ n : ℕ, Names c.ids n → ∀ field ∈ carts c.user, int field = some (n : ℤ) →
        field ∈ c.ids := by
      intro n hn field hfield hint
      by_contra hmem
      obtain ⟨line, hline, rfl⟩ := (hnamed n).1.2 hn
      refine hmoved.cleared line hline field ?_ hint
      rw [hcart]
      exact Cart.mem_hdel.2 ⟨hfield, hmem⟩
    refine ⟨hfields, fun n hn ↦ ?_⟩
    have hlost := hmoved.moved n
    rw [(hnamed n).2, hall n (hfields n hn)] at hlost
    exact hlost
  · intro hspelled
    refine ⟨fun n ↦ ?_, ?_, ?_, ?_⟩
    · rw [(hnamed n).2]
      by_cases hn : Names c.ids n
      · rw [hall n (hspelled.fields n hn), hspelled.counts n hn]
      · have hzero : c.ids.countP (fun raw ↦ int raw = some (n : ℤ)) = 0 :=
          List.countP_eq_zero.2 fun raw hmem hint ↦ hn ⟨raw, hmem, of_decide_eq_true hint⟩
        have hempty : ((carts c.user).keys.toFinset.filter fun field ↦
            int field = some (n : ℤ) ∧ field ∈ c.ids) = ∅ :=
          Finset.filter_eq_empty_iff.2 fun field _ hfield ↦ hn ⟨field, hfield.2, hfield.1⟩
        rw [hcart, Cart.held_hdel, hempty, hzero]
        simp
    · intro line hline field hfield hint
      rw [hcart] at hfield
      obtain ⟨hfield, hmem⟩ := Cart.mem_hdel.1 hfield
      exact hmem (hspelled.fields line.sku ((hnamed line.sku).1.1 ⟨line, hline, rfl⟩) field hfield hint)
    · intro field hfield
      rw [hcart, Cart.lookup_hdel]
      refine if_neg fun hmem ↦ ?_
      obtain ⟨q, hq, rfl⟩ : ∃ q ∈ picks, q.raw = field := List.mem_map.1 (hraw ▸ hmem)
      obtain ⟨-, -, -, -, hint⟩ := hbasket.exists_sku hq
      obtain ⟨line, hline, hsku⟩ := (hnamed q.sku).1.2 ⟨q.raw, hmem, hint⟩
      exact hfield line hline (hsku ▸ hint)
    · intro other hother
      rw [Placement.carts, hof.checkout]
      exact Function.update_of_ne hother ..

end Checkout

variable {ι : Type} [DecidableEq ι]

/-- **When goods move from the cart to the order.** -/
theorem goods_moved_iff {t : ι} {k : ℕ} {now : LocalTime} {user : ℕ} {req : HttpRequest}
    {skuIds : Str} (huser : req.user = some user) (hids : req.POST "sku_ids".toList = some skuIds)
    {w w' : World ι} (hw : Unlocked w) {reply : Reply} {l' : Session}
    (hsolo : (site ι).solo t k (post now req) w .idle = some (reply, w', l'))
    (hres : reply.res = some 5) :
    Moved user (w'.db.lines.drop w.db.lines.length) w.carts w'.carts ↔
      Spelled (split ',' skuIds) (w.carts user) := by
  have hleft := (ends_postOn id now req hw).of_solo hsolo
  rw [hleft.reply] at hres
  obtain ⟨p, hp⟩ := replyOf_res_eq_five_iff.1 hres
  rw [hleft.db, hleft.carts, hp]
  have hlines : (dbAfter (.ok p) w.db).lines.drop w.db.lines.length = p.basket.lines :=
    List.drop_left
  rw [hlines]
  exact placement_moved_iff huser hids hp

/-- The list `1,2,1` takes the two pieces of the first product twice. -/
theorem goods_moved_iff_basket : ∃ reply w' l', (site (Fin 1)).solo 0 0 (post (clock 0) basketForm)
      (.initial smallShop (fun _ ↦ cartOf [("1", 2), ("2", 1)]) silent) .idle = some (reply, w', l') ∧
    reply.res = some 5 ∧
    (Moved 7 (w'.db.lines.drop 0) (fun _ ↦ cartOf [("1", 2), ("2", 1)]) w'.carts ↔
      Spelled (split ',' "1,2,1".toList) (cartOf [("1", 2), ("2", 1)])) := by
  have hw : Unlocked (.initial smallShop (fun _ ↦ cartOf [("1", 2), ("2", 1)]) silent :
      World (Fin 1)) := ⟨fun _ ↦ rfl, fun _ ↦ rfl⟩
  have hrun : ((site (Fin 1)).solo 0 0 (post (clock 0) basketForm)
      (.initial smallShop (fun _ ↦ cartOf [("1", 2), ("2", 1)]) silent) .idle).map
        (fun x ↦ x.1.res) = some (some 5) := by rfl
  obtain ⟨⟨reply, w', l'⟩, hsolo, hres⟩ := Option.map_eq_some_iff.1 hrun
  exact ⟨reply, w', l', hsolo, hres, goods_moved_iff rfl rfl hw hsolo hres⟩

/-- The checkout of product `01`, of which the cart has two pieces under `1`. -/
def zeroOne : HttpRequest where
  user := some 7
  POST := formData [("addr_id", "1"), ("pay_method", "3"), ("sku_ids", "01")]

/-- **Goods that do not move**: the order has two pieces, and so has the cart. -/
theorem goods_not_moved : ∃ reply w' l', (site (Fin 1)).solo 0 0 (post (clock 0) zeroOne)
      (.initial smallShop (fun _ ↦ cartOf [("1", 2)]) silent) .idle = some (reply, w', l') ∧
    reply.res = some 5 ∧ soldIn w'.db.lines 1 = 2 ∧ (w'.carts 7).held 1 = 2 ∧
    ¬ Moved 7 w'.db.lines (fun _ ↦ cartOf [("1", 2)]) w'.carts := by
  have hrun : ((site (Fin 1)).solo 0 0 (post (clock 0) zeroOne)
      (.initial smallShop (fun _ ↦ cartOf [("1", 2)]) silent) .idle).map
        (fun x ↦ (x.1.res, soldIn x.2.1.db.lines 1, (x.2.1.carts 7).held 1)) =
          some (some 5, 2, 2) := by rfl
  obtain ⟨⟨reply, w', l'⟩, hsolo, heq⟩ := Option.map_eq_some_iff.1 hrun
  obtain ⟨hres, heq⟩ := Prod.mk.inj heq
  obtain ⟨hsold, hheld⟩ := Prod.mk.inj heq
  refine ⟨reply, w', l', hsolo, hres, hsold, hheld, fun hmoved ↦ ?_⟩
  have hlost := hmoved.moved 1
  have hbefore : (cartOf [("1", 2)]).held 1 = 2 := by rfl
  rw [hsold, hheld, hbefore] at hlost
  exact absurd hlost (by decide)

end DailyFresh
