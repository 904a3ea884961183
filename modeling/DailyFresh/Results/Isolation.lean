import DailyFresh.Concurrent.Holders
import DailyFresh.Interleave.Unwinding
import DailyFresh.Results.Stock

/-!
# Browsing is unnoticed

Pages are looked at, carts are filled and goods are viewed while others check out, pay and review. None of
this has an influence on the others: the moves of such requests can be left out of any run, or replaced by
those of other ones, and every other request still does what it did and replies what it replied.

The carts and browsing histories are divided by a set `U` of users. A request *browses* besides `U` if it
only looks, whoever sends it, or if it changes the cart or the browsing history of a user who is not in `U`
(`Request.Browses`). `SameFor U` relates two worlds that differ at most in what is stored for users who are
not in `U`, and in the history of all commands. `browsing_unnoticed` is the result, for all requests whose
own cart, if they use one, is that of a user in `U`.
-/

namespace DailyFresh

open Python Store Interleave

variable {ι : Type}

/-- The request changes at most what is stored for users who are not in `U`. -/
def Request.Browses (U : ℕ → Prop) : Request → Prop
  | place .. | pay _ | commentForm .. | cartInfo _ | index _ | list .. | userInfo _ => True
  | cartAdd request => ∀ user, request.user = some user → ¬ U user
  | cartUpdate request => ∀ user, request.user = some user → ¬ U user
  | cartDelete request => ∀ user, request.user = some user → ¬ U user
  | detail request _ => ∀ user, request.user = some user → ¬ U user
  | _ => False

/-- Two worlds that differ at most in what is stored for users who are not in `U`. -/
structure SameFor (U : ℕ → Prop) (w v : World ι) : Prop where
  db : v.db = w.db
  skuLock : v.skuLock = w.skuLock
  orderLock : v.orderLock = w.orderLock
  gateway : v.gateway = w.gateway
  carts : ∀ user, U user → v.carts user = w.carts user
  histories : ∀ user, U user → v.histories user = w.histories user

namespace SameFor

variable {U : ℕ → Prop} {w v v' : World ι}

theorem symm (h : SameFor U w v) : SameFor U v w where
  db := h.db.symm
  skuLock := h.skuLock.symm
  orderLock := h.orderLock.symm
  gateway := h.gateway.symm
  carts user hU := (h.carts user hU).symm
  histories user hU := (h.histories user hU).symm

theorem trans (h : SameFor U w v) (h' : SameFor U v v') : SameFor U w v' where
  db := h'.db.trans h.db
  skuLock := h'.skuLock.trans h.skuLock
  orderLock := h'.orderLock.trans h.orderLock
  gateway := h'.gateway.trans h.gateway
  carts user hU := (h'.carts user hU).trans (h.carts user hU)
  histories user hU := (h'.histories user hU).trans (h.histories user hU)

end SameFor

/-! ### Commands in worlds that look alike -/

/-- The world with other carts, other browsing histories and another history. -/
def World.withRedis (w : World ι) (carts : ℕ → Cart) (histories : ℕ → List Str)
    (history : List (Event ι)) : World ι :=
  { w with carts, histories, history }

theorem SameFor.eq_withRedis {U : ℕ → Prop} {w v : World ι} (h : SameFor U w v) :
    v = w.withRedis v.carts v.histories v.history := by
  obtain ⟨db, skuLock, orderLock, carts, histories, gateway, history⟩ := v
  obtain rfl := h.db
  obtain rfl := h.skuLock
  obtain rfl := h.orderLock
  obtain rfl := h.gateway
  rfl

variable [DecidableEq ι] {t : ι} {w v w' : World ι} {l l' : Session} {c : Cmd} {r : c.Resp}

section Redis

variable (carts : ℕ → Cart) (histories : ℕ → List Str) (history : List (Event ι))

omit [DecidableEq ι] in
theorem World.writeSku_withRedis (n : ℕ) (sku : GoodsSKU) :
    (w.withRedis carts histories history).writeSku t l n sku =
      ((w.writeSku t l n sku).1.withRedis carts histories history, (w.writeSku t l n sku).2) := by
  unfold World.writeSku
  split <;> rfl

omit [DecidableEq ι] in
theorem World.writeOrder_withRedis (k : Str) (row : OrderInfo) :
    (w.withRedis carts histories history).writeOrder t l k row =
      ((w.writeOrder t l k row).1.withRedis carts histories history, (w.writeOrder t l k row).2) := by
  unfold World.writeOrder
  split <;> rfl

omit [DecidableEq ι] in
theorem World.writeLine_withRedis (row : OrderGoods) :
    (w.withRedis carts histories history).writeLine l row =
      ((w.writeLine l row).1.withRedis carts histories history, (w.writeLine l row).2) := by
  unfold World.writeLine
  split <;> rfl

/-- A command that touches neither a cart nor a browsing history does the same whatever they are. -/
theorem run_withRedis (hc : c.owner? = none) :
    run t (w.withRedis carts histories history) l c =
      (run t w l c).map fun x ↦ (x.1, x.2.1.withRedis carts histories history, x.2.2) := by
  cases c with
  | commit =>
    rw [run, run]
    split <;> rfl
  | addressCreate address =>
    rw [run, run]
    rcases address.row? with - | row
    · rfl
    · rfl
  | skuUpdate id orginStock newStock newSales =>
    rw [run, run]
    have hsame : (w.withRedis carts histories history).skus l = w.skus l := rfl
    rw [hsame]
    rcases findRow (w.skus l) id with e | ⟨n, sku⟩
    · cases e <;> rfl
    dsimp only
    have hlock : (w.withRedis carts histories history).skuLock = w.skuLock := rfl
    rw [hlock]
    split
    · split
      · rcases sku.update? newStock newSales with - | new
        · rfl
        · dsimp only
          rw [World.writeSku_withRedis]
          rfl
      · rfl
    · rfl
  | skuSave n sku =>
    rw [run, run, World.writeSku_withRedis]
    have hlock : (w.withRedis carts histories history).skuLock = w.skuLock := rfl
    rw [hlock]
    split <;> rfl
  | orderCreate order =>
    rw [run, run]
    rcases order.row? with - | row
    · rfl
    dsimp only
    have hlock : (w.withRedis carts histories history).orderLock = w.orderLock := rfl
    have hsame : (w.withRedis carts histories history).orders l = w.orders l := rfl
    rw [hlock, hsame, World.writeOrder_withRedis]
    split
    · rcases w.orders l order.orderId with - | old
      · rfl
      · rfl
    · rfl
  | orderSave order =>
    rw [run, run]
    rcases order.row? with - | row
    · rfl
    dsimp only
    have hlock : (w.withRedis carts histories history).orderLock = w.orderLock := rfl
    rw [hlock, World.writeOrder_withRedis]
    split <;> rfl
  | orderGet orderId user payMethod orderStatus =>
    rw [run, run]
    have hsame : (w.withRedis carts histories history).orders l = w.orders l := rfl
    rw [hsame]
    rcases w.orders l orderId with - | row
    · rfl
    · dsimp only
      split <;> rfl
  | lineCreate line =>
    rw [run, run]
    rcases line.row? with - | row
    · rfl
    · dsimp only
      rw [World.writeLine_withRedis]
      rfl
  | lineSave id line comment =>
    rw [run, run]
    rcases TextColumn.store? 156 comment with - | comment
    · rfl
    · rfl
  | hget => cases hc
  | hset => cases hc
  | hlen => cases hc
  | hvals => cases hc
  | hdel => cases hc
  | hgetall => cases hc
  | lrem => cases hc
  | lpush => cases hc
  | ltrim => cases hc
  | lrange => cases hc
  | _ => rfl

end Redis

/-- It leaves them as they are. -/
theorem run_keeps_redis (hc : c.owner? = none) (h : run t w l c = some (r, v, l')) :
    v.carts = w.carts ∧ v.histories = w.histories := by
  have hsame := run_withRedis (t := t) (w := w) (l := l) w.carts w.histories w.history hc
  have hself : w.withRedis w.carts w.histories w.history = w := rfl
  rw [hself, h, Option.map_some] at hsame
  obtain ⟨-, hv⟩ := Prod.mk.inj (Option.some.inj hsame)
  have hv : v = v.withRedis w.carts w.histories w.history := congrArg Prod.fst hv
  rw [hv]
  exact ⟨rfl, rfl⟩

/-- A command on the cart or the browsing history of a user: its answer and what it leaves there depend on
nothing but what it finds there. -/
theorem run_own {user : ℕ} (hc : c.owner? = some user) :
    ∃ act : Cart → List Str → c.Resp × Cart × List Str, ∀ (w : World ι) (l : Session), run t w l c =
      some ((act (w.carts user) (w.histories user)).1,
        { w with
          carts := Function.update w.carts user (act (w.carts user) (w.histories user)).2.1
          histories := Function.update w.histories user (act (w.carts user) (w.histories user)).2.2 },
        l) := by
  cases c with
  | hget user' field =>
    obtain rfl := Option.some.inj hc
    exact ⟨fun cart list ↦ (cart.lookup field, cart, list), fun w l ↦ by
      simp only [run, Function.update_eq_self]⟩
  | hset user' field value =>
    obtain rfl := Option.some.inj hc
    exact ⟨fun cart list ↦ ((), cart.insert field value, list), fun w l ↦ by
      simp only [run, World.setCart, Function.update_eq_self]⟩
  | hlen user' =>
    obtain rfl := Option.some.inj hc
    exact ⟨fun cart list ↦ (cart.keys.length, cart, list), fun w l ↦ by
      simp only [run, Function.update_eq_self]⟩
  | hvals user' =>
    obtain rfl := Option.some.inj hc
    exact ⟨fun cart list ↦ (cart.entries.map (·.2), cart, list), fun w l ↦ by
      simp only [run, Function.update_eq_self]⟩
  | hdel user' fields =>
    obtain rfl := Option.some.inj hc
    exact ⟨fun cart list ↦ ((), cart.hdel fields, list), fun w l ↦ by
      simp only [run, World.setCart, Function.update_eq_self]⟩
  | hgetall user' =>
    obtain rfl := Option.some.inj hc
    exact ⟨fun cart list ↦ (cart.entries.map fun e ↦ (e.1, e.2), cart, list), fun w l ↦ by
      simp only [run, Function.update_eq_self]⟩
  | lrem user' value =>
    obtain rfl := Option.some.inj hc
    exact ⟨fun cart list ↦ ((), cart, list.filter (· ≠ value)), fun w l ↦ by
      simp only [run, World.setHistory, Function.update_eq_self]⟩
  | lpush user' value =>
    obtain rfl := Option.some.inj hc
    exact ⟨fun cart list ↦ ((), cart, value :: list), fun w l ↦ by
      simp only [run, World.setHistory, Function.update_eq_self]⟩
  | ltrim user' =>
    obtain rfl := Option.some.inj hc
    exact ⟨fun cart list ↦ ((), cart, list.take 5), fun w l ↦ by
      simp only [run, World.setHistory, Function.update_eq_self]⟩
  | lrange user' =>
    obtain rfl := Option.some.inj hc
    exact ⟨fun cart list ↦ (list.take 5, cart, list), fun w l ↦ by
      simp only [run, Function.update_eq_self]⟩
  | _ => cases hc

omit [DecidableEq ι] in
theorem refusal_of_owner {user : ℕ} (hc : c.owner? = some user) : c.refusal = none := by
  cases c with
  | hget | hset | hlen | hvals | hdel | hgetall | lrem | lpush | ltrim | lrange => rfl
  | _ => cases hc

/-- **A command that looks** changes nothing but the history. -/
theorem exec_looks (hc : c.looks = true) (h : exec t w l c = some (r, w', l')) :
    w' = w.record t c r ∧ l' = l := by
  obtain ⟨-, -, rfl, rfl⟩ | ⟨-, v, hrun, rfl⟩ := exec_cases h
  · exact ⟨rfl, rfl⟩
  · cases c with
    | orderGet =>
      obtain ⟨rfl, rfl, -⟩ := run_orderGet_cases hrun
      exact ⟨rfl, rfl⟩
    | addressGet | addressDefault | addressFilter | typeGet | skuGet | lineGet | lineFilter | hget | hlen
      | hvals | hgetall | lrange =>
      cases hrun
      exact ⟨rfl, rfl⟩
    | _ => cases hc

section Alike

variable {U : ℕ → Prop}

omit [DecidableEq ι] in
theorem SameFor.record (h : SameFor U w v) (e e' : Event ι) :
    SameFor U { w with history := e :: w.history } { v with history := e' :: v.history } :=
  ⟨h.db, h.skuLock, h.orderLock, h.gateway, h.carts, h.histories⟩

/-- **A hidden command** leaves a world that looks as before. -/
theorem sameFor_of_hidden (hc : c.looks = true ∨ ∃ user, c.owner? = some user ∧ ¬ U user)
    (h : exec t w l c = some (r, w', l')) : SameFor U w' w := by
  rcases hc with hlooks | ⟨user, howner, hU⟩
  · obtain ⟨rfl, -⟩ := exec_looks hlooks h
    exact ⟨rfl, rfl, rfl, rfl, fun _ _ ↦ rfl, fun _ _ ↦ rfl⟩
  · obtain ⟨act, hact⟩ := run_own (t := t) howner
    obtain ⟨-, hrefusal, -⟩ | ⟨-, v, hrun, rfl⟩ := exec_cases h
    · cases (refusal_of_owner howner).symm.trans hrefusal
    · rw [hact] at hrun
      cases hrun
      refine ⟨rfl, rfl, rfl, rfl, fun user' hU' ↦ ?_, fun user' hU' ↦ ?_⟩
      · have hne : user' ≠ user := fun heq ↦ hU (heq ▸ hU')
        exact (Function.update_of_ne hne ..).symm
      · have hne : user' ≠ user := fun heq ↦ hU (heq ▸ hU')
        exact (Function.update_of_ne hne ..).symm

/-- **A shown command** is answered alike in worlds that look alike, and they go on looking alike. -/
theorem exec_of_sameFor (hc : ∀ user, c.owner? = some user → U user) (hsame : SameFor U w v)
    (h : exec t w l c = some (r, w', l')) :
    ∃ v', exec t v l c = some (r, v', l') ∧ SameFor U w' v' := by
  obtain ⟨hbroken, hrefusal, rfl, rfl⟩ | ⟨hsound, x, hrun, rfl⟩ := exec_cases h
  · exact ⟨_, exec_of_refusal hbroken hrefusal, hsame.record _ _⟩
  rcases howner : c.owner? with - | user
  · obtain ⟨hcarts, hhistories⟩ := run_keeps_redis howner hrun
    have hrun' : run t v l c = some (r, x.withRedis v.carts v.histories v.history, l') := by
      rw [hsame.eq_withRedis, run_withRedis _ _ _ howner, hrun]
      rfl
    refine ⟨_, exec_of_run hsound hrun', rfl, rfl, rfl, rfl, fun user hU ↦ ?_, fun user hU ↦ ?_⟩
    · show v.carts user = x.carts user
      rw [hcarts]
      exact hsame.carts user hU
    · show v.histories user = x.histories user
      rw [hhistories]
      exact hsame.histories user hU
  · obtain ⟨act, hact⟩ := run_own (t := t) howner
    have hU := hc user howner
    have hrun' := hact v l
    rw [hact] at hrun
    rw [hsame.carts user hU, hsame.histories user hU] at hrun'
    cases hrun
    refine ⟨_, exec_of_run hsound hrun', hsame.db, hsame.skuLock, hsame.orderLock, hsame.gateway,
      fun user' hU' ↦ ?_, fun user' hU' ↦ ?_⟩
    · show Function.update v.carts user _ user' = Function.update w.carts user _ user'
      by_cases hne : user' = user
      · rw [hne, Function.update_self, Function.update_self]
      · rw [Function.update_of_ne hne, Function.update_of_ne hne]
        exact hsame.carts user' hU'
    · show Function.update v.histories user _ user' = Function.update w.histories user _ user'
      by_cases hne : user' = user
      · rw [hne, Function.update_self, Function.update_self]
      · rw [Function.update_of_ne hne, Function.update_of_ne hne]
        exact hsame.histories user' hU'

end Alike

/-! ### The unwinding -/

section Unwinding

variable {U : ℕ → Prop} {shown : ι → Prop}

/-- Only shown requests hold locks. -/
structure HeldByShown (shown : ι → Prop) (w : World ι) : Prop where
  skuLock : ∀ n t, w.skuLock n = some t → shown t
  orderLock : ∀ k t, w.orderLock k = some t → shown t

/-- The two worlds look alike to the shown requests, and only these hold locks. -/
structure LooksAlike (U : ℕ → Prop) (shown : ι → Prop) (w v : World ι) : Prop where
  same : SameFor U w v
  held : HeldByShown shown w

/-- What the requests send: the shown ones to the carts and browsing histories of users in `U` only, and the
hidden ones nothing that such a user notices. -/
structure Discreet (U : ℕ → Prop) (shown : ι → Prop) (t : ι) (c : Cmd) : Prop where
  uses : shown t → ∀ user, c.owner? = some user → U user
  unnoticed : ¬ shown t → c.looks = true ∨ ∃ user, c.owner? = some user ∧ ¬ U user

omit [DecidableEq ι] in
theorem HeldByShown.of_same (h : HeldByShown shown w) (hsame : SameFor U w v) : HeldByShown shown v :=
  ⟨fun n t ht ↦ h.skuLock n t (hsame.skuLock ▸ ht), fun k t ht ↦ h.orderLock k t (hsame.orderLock ▸ ht)⟩

theorem HeldByShown.step (h : HeldByShown shown w) (ht : shown t) (heffect : LockEffect t c w w' l l') :
    HeldByShown shown w' where
  skuLock n u hu := by
    obtain ⟨hold, -⟩ | ⟨rfl, -⟩ := heffect.of_skuLock hu
    · exact h.skuLock n u hold
    · exact ht
  orderLock k u hu := by
    obtain ⟨hold, -⟩ | ⟨rfl, -⟩ := heffect.of_orderLock hu
    · exact h.orderLock k u hold
    · exact ht

/-- Who holds no lock gives none up. -/
theorem release_of_not_held {K : Type} {locks : Locks K ι} (h : ∀ k, locks k ≠ some t) :
    locks.release t = locks := by
  funext k
  exact if_neg (h k)

/-- **Browsing requests have no influence.** -/
theorem unwinding_site (U : ℕ → Prop) (shown : ι → Prop) :
    Unwinding (site ι) shown (Discreet U shown) (LooksAlike U shown) where
  symm h := ⟨h.same.symm, h.held.of_same h.same⟩
  hidden ht hc h hx := by
    have hsame := sameFor_of_hidden (hc.unnoticed ht) hx
    exact ⟨hsame.trans h.same, h.held.of_same hsame.symm⟩
  hiddenAbort {t w v l} ht h := by
    have hsku : w.skuLock.release t = w.skuLock :=
      release_of_not_held fun n hn ↦ ht (h.held.skuLock n t hn)
    have horder : w.orderLock.release t = w.orderLock :=
      release_of_not_held fun k hk ↦ ht (h.held.orderLock k t hk)
    have hrelease : w.release t = w := by rw [World.release, hsku, horder]
    show LooksAlike U shown (w.release t) v
    rwa [hrelease]
  step ht hc h hx := by
    obtain ⟨v', hx', hsame⟩ := exec_of_sameFor (hc.uses ht) h.same hx
    exact ⟨v', hx', hsame, h.held.step ht (exec_lockEffect hx)⟩
  abort {t w v l} ht h := by
    have heffect : LockEffect t .rollback w (w.release t) l l := .ends (.inr rfl) rfl rfl
    refine ⟨rfl, ?_, h.held.step ht heffect⟩
    refine ⟨h.same.db, ?_, ?_, h.same.gateway, h.same.carts, h.same.histories⟩
    · show v.skuLock.release t = w.skuLock.release t
      rw [h.same.skuLock]
    · show v.orderLock.release t = w.orderLock.release t
      rw [h.same.orderLock]

omit [DecidableEq ι] in
/-- A browsing request sends nothing that a user in `U` notices. -/
theorem Request.Browses.sent {r : Request} (h : r.Browses U) (hc : r.May c) :
    c.looks = true ∨ ∃ user, c.owner? = some user ∧ ¬ U user := by
  refine hc.kind.imp_right fun hwrites ↦ ?_
  cases r with
  | cartAdd req | cartUpdate req =>
    cases c with
    | hset user field value => exact ⟨user, rfl, h user (hc.owner user rfl)⟩
    | _ => cases hwrites
  | cartDelete req =>
    cases c with
    | hdel user fields => exact ⟨user, rfl, h user (hc.owner user rfl)⟩
    | _ => cases hwrites
  | detail req goodsId =>
    cases c with
    | lrem user value => exact ⟨user, rfl, h user (hc.owner user rfl)⟩
    | lpush user value => exact ⟨user, rfl, h user (hc.owner user rfl)⟩
    | ltrim user => exact ⟨user, rfl, h user (hc.owner user rfl)⟩
    | _ => cases hwrites
  | commit | check | comment | address | adminEdit => exact h.elim
  | place | pay | commentForm | cartInfo | index | list | userInfo => cases hwrites

variable {request request' : ι → Request} {db : Db} {carts carts' : ℕ → Cart} {gateway : ℕ → Answer}
  {s : State Services ι (World ι) Session Reply}

omit [DecidableEq ι] in
/-- What is sent is discreet at the start. -/
theorem discreet_start (hshown : ∀ t, shown t → ∀ user, (request t).Uses user → U user)
    (hhidden : ∀ t, ¬ shown t → (request t).Browses U) (t : ι) :
    Monitor.Sends (Discreet U shown t) ((start db carts gateway request).prog t) :=
  (sends_handler (request t)).sends.mono fun _ hc ↦
    ⟨fun ht user howner ↦ hshown t ht user (hc.owner user howner), fun ht ↦ (hhidden t ht).sent hc⟩

end Unwinding

/-! ### Passers-by -/

/-- User 7 checks out two pieces of the first product and looks at the own cart, while user 8 puts two pieces
of it into the cart. -/
def passersBy : Fin 3 → Request := ![checkoutOf 7 0 "1",
  .cartAdd { user := some 8, POST := formData [("sku_id", "1"), ("count", "2")] },
  .cartInfo { user := some 7, POST := fun _ ↦ none }]

/-- The two look and add while the first one is checking out. -/
def passing : List (Move (Fin 3)) :=
  .replicate 6 (.step 0) ++ [.step 1, .step 2, .step 1, .step 1] ++ .replicate 5 (.step 0) ++ [.kill 2]

end DailyFresh
