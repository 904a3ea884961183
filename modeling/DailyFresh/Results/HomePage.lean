import DailyFresh.Site.HomePage
import Mathlib.Data.Fin.VecNotation

/-!
# Stale home pages

An administrator's save queues the task and deletes the cached data before its transaction is committed. A
worker or an `IndexView` that reads in between, or that has begun to read before, stores what the database
no longer yields; and the deletion of selected rows has no hook at all (`stale_home`).

`home_fresh`: a run that commits its changes in time keeps both copies of the home page fresh. In time is a
change that alters no answer to a query of the programs that copy the page; or one that finds no cached
data, a task still to be begun, and no copier in the middle of its queries. Between the changes, everything
interleaves freely.

The invariant is that every copier in the middle of its queries is *along* its program for the present
tables (`OnTrack`): what it has read so far is what it would read now.
-/

namespace DailyFresh.HomePage

open Python Interleave Program

variable {ι : Type}

/-- The cached data, if there are any, and the static page are what the database yields. -/
structure Agrees (w : World) : Prop where
  cache : ∀ context, w.cache = some context → context = w.db.context
  file : w.file = w.db.staticIndex

/-- No request is in the middle of its program, and no task is queued. -/
structure Quiet (request : ι → Request) (s : State Services ι World Session Unit) : Prop where
  queue : s.world.queue = 0
  prog : ∀ t, (s.prog t).result? = none → s.prog t = (request t).handler

/-! ### In time -/

/-- A command that comes after the first query of a copier. -/
def Cmd.isMidway : Cmd → Bool
  | indexGoodsBanners | indexPromotionBanners | indexTypeBanners _ _ | sku _ => true
  | cacheSet _ | writeFile _ => true
  | _ => false

/-- The request has begun to read the tables, and has not stored what it makes of them. -/
def Midway (s : State Services ι World Session Unit) (t : ι) : Prop :=
  ∃ c ∈ (s.prog t).next?, c.isMidway = true

/-- The tables after the next command of `t`, if it changes them. -/
def changed? (s : State Services ι World Session Unit) (t : ι) : Option Db :=
  match (s.prog t).next? with
  | some .commit => some ((s.loc t).commit s.world.db)
  | some (.deleteQueryset selected) => some (s.world.db.delete selected)
  | _ => none

/-- The queries of the program are answered as before. -/
def SameAnswers (p : Program Services Unit) (db db' : Db) : Prop :=
  ∀ c ∈ p.asked (answer db), answer db' c = answer db c

/-- The tables become `db'` in time. -/
structure InTime (request : ι → Request) (s : State Services ι World Session Unit) (db' : Db) :
    Prop where
  cache : ¬ SameAnswers IndexView.setContext s.world.db db' →
    s.world.cache = none ∧ ∀ t, request t = .index → ¬ Midway s t
  file : ¬ SameAnswers GenerateStaticIndexHtml.run s.world.db db' →
    (0 < s.world.queue ∨ ∃ t, request t = .generate ∧ (s.prog t).next? = some .goodsTypes) ∧
      ∀ t, request t = .generate → ¬ Midway s t

/-- All changes of the tables are in time, and no worker dies. -/
def ChangesInTime (request : ι → Request) (s : State Services ι World Session Unit) : Move ι → Prop
  | .step t => ∀ db' ∈ changed? s t, InTime request s db'
  | .kill t => request t ≠ .generate

/-- A change that finds no cached data, a queued task and no copier midway. -/
def Calm (s : State Services ι World Session Unit) : Move ι → Prop
  | .step t => (changed? s t).isSome = true →
      s.world.cache.isNone = true ∧ 0 < s.world.queue ∧ ∀ u, ¬ Midway s u
  | .kill _ => False

theorem Calm.changesInTime {request : ι → Request} {s : State Services ι World Session Unit} {m : Move ι}
    (h : Calm s m) : ChangesInTime request s m := by
  cases m with
  | kill t => exact h.elim
  | step t =>
    intro db' hdb'
    obtain ⟨hcache, hqueue, hmidway⟩ := h (Option.isSome_of_mem hdb')
    have hnone : s.world.cache = none := Option.isNone_iff_eq_none.1 hcache
    exact ⟨fun _ ↦ ⟨hnone, fun u _ ↦ hmidway u⟩, fun _ ↦ ⟨.inl hqueue, fun u _ ↦ hmidway u⟩⟩

/-! ### Copiers on their way -/

/-- The commands of an administrator, and of the cache. -/
def Cmd.IsHook : Cmd → Prop
  | atomicEnter | commit | rollback | save _ | deleteQueryset _ | delay | cacheDelete => True
  | _ => False

/-- What a request still has to run: all of it, or the rest of its queries on these tables, or nothing. -/
def OnTrack (db : Db) : Request → Program Services Unit → Prop
  | .index, p => p = IndexView.get ∨ Along (answer db) IndexView.setContext p ∨ p = .ret ()
  | .generate, p =>
    p = GenerateStaticIndexHtml.worker ∨ Along (answer db) GenerateStaticIndexHtml.run p ∨ p = .ret ()
  | _, p => Monitor.Sends Cmd.IsHook p

theorem onTrack_handler (db : Db) (r : Request) : OnTrack db r r.handler := by
  cases r with
  | save obj => exact ⟨trivial, fun _ ↦ ⟨trivial, fun _ ↦ ⟨trivial, fun _ ↦ ⟨trivial, fun _ ↦
      ⟨trivial, fun _ ↦ trivial⟩⟩⟩⟩⟩
  | delete obj => exact ⟨trivial, fun _ ↦ ⟨trivial, fun _ ↦ trivial⟩⟩
  | deleteSelected selected => exact ⟨trivial, fun _ ↦ trivial⟩
  | index => exact .inl rfl
  | generate => exact .inl rfl
  | expire => exact ⟨trivial, fun _ ↦ trivial⟩

/-- A request that has returned is on track. -/
theorem onTrack_ret (db : Db) (r : Request) : OnTrack db r (.ret ()) := by
  cases r with
  | index => exact .inr (.inr rfl)
  | generate => exact .inr (.inr rfl)
  | _ => trivial

/-! ### Midway -/

/-- The rest of a copier's commands. -/
def Cmd.IsRest (c : Cmd) : Prop := c.isMidway = true

theorem sends_banners (types : List GoodsType) : Monitor.Sends Cmd.IsRest (IndexView.banners types) := by
  induction types with
  | nil => trivial
  | cons type types ih => exact .send rfl fun _ ↦ .send rfl fun _ ↦ ih.bind fun _ ↦ trivial

theorem sends_skus (banners : List IndexTypeBanner) :
    Monitor.Sends Cmd.IsRest (GenerateStaticIndexHtml.skus banners) := by
  induction banners with
  | nil => trivial
  | cons banner banners ih => exact .send rfl fun _ ↦ ih.bind fun _ ↦ trivial

theorem sends_listModels (types : List GoodsType) :
    Monitor.Sends Cmd.IsRest (GenerateStaticIndexHtml.listModels types) := by
  induction types with
  | nil => trivial
  | cons type types ih =>
    refine .send rfl fun titles ↦ (sends_skus titles).bind fun _ ↦ ?_
    exact .send rfl fun images ↦ (sends_skus images).bind fun _ ↦ ih.bind fun _ ↦ trivial

variable {db db' : Db} {p : Program Services Unit}

/-- A program that is along a copier is at its beginning, or midway. -/
theorem eq_or_midway_of_along {q : Program Services Unit} {c : Cmd} {k : c.Resp → Program Services Unit}
    (hq : q = .call c k) (h : Along (answer db) q p) (hk : ∀ r, Monitor.Sends Cmd.IsRest (k r))
    (hend : ∀ a, q.ahead (answer db) ≠ .ret a) : p = q ∨ ∃ c ∈ p.next?, c.isMidway = true := by
  subst hq
  rcases h.eq_or_sends hk with rfl | hsends
  · exact .inl rfl
  · right
    cases p with
    | ret a => exact absurd h.ahead_eq.symm (hend a)
    | call c k => exact ⟨c, rfl, hsends.1⟩
    | poll c again k => exact ⟨c, rfl, hsends.1⟩

theorem IndexView.eq_or_midway (h : Along (answer db) IndexView.setContext p) :
    p = IndexView.setContext ∨ ∃ c ∈ p.next?, c.isMidway = true := by
  refine eq_or_midway_of_along rfl h (fun types ↦ (sends_banners types).bind fun _ ↦ ?_) fun a ↦ ?_
  · exact .send rfl fun _ ↦ .send rfl fun _ ↦ .send rfl fun _ ↦ trivial
  · rw [IndexView.ahead_setContext]
    nofun

theorem GenerateStaticIndexHtml.eq_or_midway (h : Along (answer db) run p) :
    p = run ∨ ∃ c ∈ p.next?, c.isMidway = true := by
  refine eq_or_midway_of_along rfl h (fun types ↦ .send rfl fun _ ↦ .send rfl fun _ ↦ ?_) fun a ↦ ?_
  · exact (sends_listModels types).bind fun _ ↦ .send rfl fun _ ↦ trivial
  · rw [ahead_run]
    nofun

/-! ### Tables that change -/

theorem SameAnswers.context (h : SameAnswers IndexView.setContext db db') : db'.context = db.context := by
  have hahead := ahead_congr (fun c hc ↦ answer_eq_none hc db') h
  rw [IndexView.ahead_setContext, IndexView.ahead_setContext] at hahead
  obtain ⟨hcmd, -⟩ := Program.call.inj hahead
  exact Cmd.cacheSet.inj hcmd

theorem SameAnswers.staticIndex (h : SameAnswers GenerateStaticIndexHtml.run db db') :
    db'.staticIndex = db.staticIndex := by
  have hahead := ahead_congr (fun c hc ↦ answer_eq_none hc db') h
  rw [GenerateStaticIndexHtml.ahead_run, GenerateStaticIndexHtml.ahead_run] at hahead
  obtain ⟨hcmd, -⟩ := Program.call.inj hahead
  exact Cmd.writeFile.inj hcmd

/-- A copier that is along its program stays so when the tables change, if its queries are answered as before
or it has not begun. -/
theorem along_of_change {q : Program Services Unit} (halong : Along (answer db) q p)
    (hbegin : p = q ∨ ∃ c ∈ p.next?, c.isMidway = true)
    (hchange : ¬ SameAnswers q db db' → ¬ ∃ c ∈ p.next?, c.isMidway = true) : Along (answer db') q p := by
  by_cases hsame : SameAnswers q db db'
  · exact halong.congr hsame
  · rcases hbegin with rfl | hmidway
    · exact .refl
    · exact absurd hmidway (hchange hsame)

/-- What is known of every state of a run whose changes are in time. -/
structure Fresh (request : ι → Request) (s : State Services ι World Session Unit) : Prop where
  cache : ∀ context, s.world.cache = some context → context = s.world.db.context
  onTrack : ∀ t, OnTrack s.world.db (request t) (s.prog t)
  /-- The static page is fresh, or some task is still to write it. -/
  file : s.world.file = s.world.db.staticIndex ∨ 0 < s.world.queue ∨
    ∃ t, request t = .generate ∧ Along (answer s.world.db) GenerateStaticIndexHtml.run (s.prog t)

variable {request : ι → Request} {s s' : State Services ι World Session Unit}

/-- **The tables change** in time. -/
theorem Fresh.change (h : Fresh request s) (hintime : InTime request s db') :
    Fresh request { s with world := { s.world with db := db' } } where
  cache context hcached := by
    by_cases hsame : SameAnswers IndexView.setContext s.world.db db'
    · exact (h.cache context hcached).trans hsame.context.symm
    · cases hcached.symm.trans (hintime.cache hsame).1
  onTrack t := by
    have htrack := h.onTrack t
    show OnTrack db' (request t) (s.prog t)
    rcases hr : request t <;> rw [hr] at htrack
    case index =>
      rcases htrack with hget | halong | hret
      · exact .inl hget
      · have hbegin := IndexView.eq_or_midway halong
        exact .inr (.inl (along_of_change halong hbegin fun hsame ↦ (hintime.cache hsame).2 t hr))
      · exact .inr (.inr hret)
    case generate =>
      rcases htrack with hworker | halong | hret
      · exact .inl hworker
      · have hbegin := GenerateStaticIndexHtml.eq_or_midway halong
        exact .inr (.inl (along_of_change halong hbegin fun hsame ↦ (hintime.file hsame).2 t hr))
      · exact .inr (.inr hret)
    all_goals exact htrack
  file := by
    show s.world.file = db'.staticIndex ∨ 0 < s.world.queue ∨ _
    by_cases hsame : SameAnswers GenerateStaticIndexHtml.run s.world.db db'
    · rcases h.file with hfile | hqueue | ⟨t, hr, halong⟩
      · exact .inl (hfile.trans hsame.staticIndex.symm)
      · exact .inr (.inl hqueue)
      · exact .inr (.inr ⟨t, hr, halong.congr hsame⟩)
    · obtain ⟨htask, hmidway⟩ := hintime.file hsame
      rcases htask with hqueue | ⟨t, hr, hnext⟩
      · exact .inr (.inl hqueue)
      · -- the task has been taken, and is at its beginning
        have htrack := h.onTrack t
        rw [hr] at htrack
        rcases htrack with hworker | halong | hret
        · rw [hworker] at hnext
          cases hnext
        · have hbegin := GenerateStaticIndexHtml.eq_or_midway halong
          exact .inr (.inr ⟨t, hr, along_of_change halong hbegin fun _ ↦ hmidway t hr⟩)
        · rw [hret] at hnext
          cases hnext

/-! ### One move -/

section Step

variable [DecidableEq ι] {t : ι} {w : World} {l : Session} {c : Cmd} {r : c.Resp}

/-- One request has moved, and the tables are as they were. -/
theorem Fresh.put (h : Fresh request s) (hdb : w.db = s.world.db)
    (hcache : ∀ context, w.cache = some context → context = s.world.db.context)
    (htrack : OnTrack s.world.db (request t) p)
    (hfile : w.file = s.world.db.staticIndex ∨ 0 < w.queue ∨
      ∃ u, request u = .generate ∧
        Along (answer s.world.db) GenerateStaticIndexHtml.run ((s.put t w l p).prog u)) :
    Fresh request (s.put t w l p) where
  cache context hcached := by
    rw [State.put_world, hdb]
    exact hcache context hcached
  onTrack u := by
    rw [State.put_world, hdb]
    by_cases hu : u = t
    · subst hu
      rw [State.put_prog_self]
      exact htrack
    · rw [State.put_prog_of_ne _ _ _ _ hu]
      exact h.onTrack u
  file := by
    rw [State.put_world, hdb]
    exact hfile

/-- Tasks that are still to write the page are so when another request has moved. -/
theorem Fresh.file_of_other (h : Fresh request s) (ht : request t ≠ .generate)
    (hfile : w.file = s.world.file) (hqueue : s.world.queue ≤ w.queue) :
    w.file = s.world.db.staticIndex ∨ 0 < w.queue ∨
      ∃ u, request u = .generate ∧
        Along (answer s.world.db) GenerateStaticIndexHtml.run ((s.put t w l p).prog u) := by
  rcases h.file with hfresh | hpos | ⟨u, hr, halong⟩
  · exact .inl (hfile.trans hfresh)
  · exact .inr (.inl (by omega))
  · refine .inr (.inr ⟨u, hr, ?_⟩)
    have hu : u ≠ t := by
      rintro rfl
      exact ht hr
    rw [State.put_prog_of_ne _ _ _ _ hu]
    exact halong

/-- **A command of an administrator**, or of the cache. -/
theorem Fresh.hook (h : Fresh request s) (ht : request t ≠ .generate) (hc : c.IsHook)
    (hnext : (s.prog t).next? = some c) (hok : ChangesInTime request s (.step t))
    (hx : exec s.world (s.loc t) c = some (r, w, l)) (htrack : ∀ db, OnTrack db (request t) p) :
    Fresh request (s.put t w l p) := by
  -- the tables change in time, and then the request moves
  have hchange : ∀ db', changed? s t = some db' → w = { s.world with db := db' } →
      Fresh request (s.put t w l p) := by
    intro db' hdb' hw
    have hchanged := h.change (hok db' hdb')
    subst hw
    exact hchanged.put (t := t) (l := l) rfl hchanged.cache (htrack db')
      (hchanged.file_of_other ht rfl le_rfl)
  cases c with
  | atomicEnter =>
    cases hx
    exact h.put rfl h.cache (htrack _) (h.file_of_other ht rfl le_rfl)
  | rollback =>
    cases hx
    exact h.put rfl h.cache (htrack _) (h.file_of_other ht rfl le_rfl)
  | save row =>
    cases hx
    exact h.put rfl h.cache (htrack _) (h.file_of_other ht rfl le_rfl)
  | delay =>
    cases hx
    exact h.put rfl h.cache (htrack _) (h.file_of_other ht rfl (Nat.le_succ _))
  | cacheDelete =>
    cases hx
    exact h.put rfl nofun (htrack _) (h.file_of_other ht rfl le_rfl)
  | commit =>
    cases hx
    exact hchange _ (by rw [changed?, hnext]) rfl
  | deleteQueryset selected =>
    cases hx
    exact hchange _ (by rw [changed?, hnext]) rfl
  | _ => exact hc.elim

/-- **A command of `IndexView`**. -/
theorem Fresh.index (h : Fresh request s) (hr : request t = .index) {k : c.Resp → Program Services Unit}
    (hp : s.prog t = .call c k) (hx : exec s.world (s.loc t) c = some (r, w, l)) :
    Fresh request (s.put t w l (k r)) := by
  have ht : request t ≠ .generate := by
    rw [hr]
    nofun
  have htrack := h.onTrack t
  rw [hr, hp] at htrack
  rcases htrack with hget | halong | hret
  · -- `cache.get`
    cases hget
    cases hx
    refine h.put rfl h.cache ?_ (h.file_of_other ht rfl le_rfl)
    rw [hr]
    rcases s.world.cache with - | context
    · exact .inr (.inl .refl)
    · exact .inr (.inr rfl)
  · rcases hc : answer s.world.db c with - | r'
    · -- the end of the queries: `cache.set`
      have hset := halong.eq_of_none hc
      rw [IndexView.ahead_setContext] at hset
      cases hset
      cases hx
      refine h.put rfl ?_ (onTrack_ret _ _) (h.file_of_other ht rfl le_rfl)
      intro context hcached
      exact (Option.some.inj hcached).symm
    · cases hx.symm.trans (exec_of_answer hc)
      refine h.put rfl h.cache ?_ (h.file_of_other ht rfl le_rfl)
      rw [hr]
      exact .inr (.inl (halong.next hc))
  · cases hret

/-- **A command of the task**. -/
theorem Fresh.generate (h : Fresh request s) (hr : request t = .generate)
    {k : c.Resp → Program Services Unit} (hp : s.prog t = .call c k)
    (hx : exec s.world (s.loc t) c = some (r, w, l)) : Fresh request (s.put t w l (k r)) := by
  have htrack := h.onTrack t
  rw [hr, hp] at htrack
  have hmoved : ∀ {w l p}, (s.put t w l p).prog t = p := State.put_prog_self ..
  rcases htrack with hworker | halong | hret
  · -- a task is taken
    cases hworker
    rw [exec] at hx
    split at hx
    · cases hx
    · cases hx
      refine h.put rfl h.cache ?_ (.inr (.inr ⟨t, hr, ?_⟩))
      · rw [hr]
        exact .inr (.inl .refl)
      · rw [hmoved]
        exact .refl
  · rcases hc : answer s.world.db c with - | r'
    · -- the end of the queries: the file is written
      have hwrite := halong.eq_of_none hc
      rw [GenerateStaticIndexHtml.ahead_run] at hwrite
      cases hwrite
      cases hx
      exact h.put rfl h.cache (onTrack_ret _ _) (.inl rfl)
    · cases hx.symm.trans (exec_of_answer hc)
      have hstep := halong.next hc
      refine h.put rfl h.cache ?_ (.inr (.inr ⟨t, hr, ?_⟩))
      · rw [hr]
        exact .inr (.inl hstep)
      · rw [hmoved]
        exact hstep
  · cases hret

/-- **One move.** -/
theorem Fresh.next {m : Move ι} (h : Fresh request s) (hok : ChangesInTime request s m)
    (hn : (site ι).next s m = some s') : Fresh request s' := by
  cases m with
  | kill t =>
    obtain ⟨-, rfl⟩ := (site ι).next_kill_cases hn
    exact h.put rfl h.cache (onTrack_ret _ _) (h.file_of_other hok rfl le_rfl)
  | step t =>
    have htrack := h.onTrack t
    obtain ⟨c, k, r, w, l, hp, hx, rfl⟩ | ⟨c, again, k, r, w, l, hp, hx, rfl⟩ := (site ι).next_step_cases hn
    · have hnext : (s.prog t).next? = some c := by
        rw [hp]
        rfl
      rcases hr : request t
      case index => exact h.index hr hp hx
      case generate => exact h.generate hr hp hx
      all_goals
        rw [hr, hp] at htrack
        have hother : request t ≠ .generate := by
          rw [hr]
          nofun
        refine h.hook hother htrack.1 hnext hok hx fun db ↦ ?_
        rw [hr]
        exact htrack.2 r
    · -- only the administrators' programs are not known command by command
      have hnext : (s.prog t).next? = some c := by
        rw [hp]
        rfl
      rcases hr : request t <;> rw [hr, hp] at htrack
      case index =>
        rcases htrack with hget | halong | hret
        · cases hget
        · cases halong.ahead_eq.trans IndexView.ahead_setContext
        · cases hret
      case generate =>
        rcases htrack with hworker | halong | hret
        · cases hworker
        · cases halong.ahead_eq.trans GenerateStaticIndexHtml.ahead_run
        · cases hret
      all_goals
        have hother : request t ≠ .generate := by
          rw [hr]
          nofun
        refine h.hook hother htrack.1 hnext hok hx fun db ↦ ?_
        rw [hr]
        split
        · exact htrack
        · exact (htrack.2 r).2

end Step

/-! ### One type on the page -/

/-- One type with one product, which its part of the page shows with its image. -/
def oneType : Db where
  types := [{ id := 1, name := "fruit".toList, logo := "fruit".toList, image := "type01".toList }]
  skus := [{ id := 1, type := 1, name := "apple".toList, image := "goods01".toList, price := 250 }]
  goodsBanners := []
  typeBanners := [{ id := 1, type := 1, sku := 1, displayType := 1, index := 0 }]
  promotionBanners := []

/-- Both copies are there and fresh. -/
def freshHome : World where
  db := oneType
  cache := some oneType.context
  queue := 0
  file := oneType.staticIndex

theorem freshHome_agrees : Agrees freshHome := ⟨fun _ hcached ↦ (Option.some.inj hcached).symm, rfl⟩

/-- An administrator gives the type a new name; there are a request for the home page and a worker. -/
def newName : Fin 3 → Request :=
  ![.save (.goodsType
      { id := 1, name := "vegetables".toList, logo := "fruit".toList, image := "type01".toList }),
    .index, .generate]

/-- An administrator deletes the banner. -/
def bannerDeleted : Fin 1 → Request := ![.deleteSelected (.indexTypeBanners [1])]

/-- The names of the types: those of the database, those in the cached data and those in the static page. -/
def names (w : World) : List Str × Option (List Str) × List Str :=
  (w.db.types.map GoodsType.name, w.cache.map fun context ↦ context.types.map fun x ↦ x.type.name,
    w.file.models.map ListModel.name)

/-- The number of products with an image in each type's part of the page. -/
def shownGoods (w : World) : List ℕ × Option (List ℕ) × List ℕ :=
  (w.db.types.map fun type ↦ (w.db.indexTypeBanners type.id 1).length,
    w.cache.map fun context ↦ context.types.map fun x ↦ x.imageBanner.length,
    w.file.models.map fun part ↦ part.goods.length)

theorem Agrees.names {w : World} (h : Agrees w) : (HomePage.names w).2.2 = (HomePage.names w).1 := by
  show w.file.models.map ListModel.name = w.db.types.map GoodsType.name
  rw [h.file, Db.staticIndex, HomePage.staticIndex, List.map_map]
  rfl

theorem Agrees.shownGoods {w : World} (h : Agrees w) :
    (HomePage.shownGoods w).2.2 = (HomePage.shownGoods w).1 := by
  show (w.file.models.map fun part ↦ part.goods.length) = _
  rw [h.file, Db.staticIndex, HomePage.staticIndex, List.map_map]
  refine List.map_congr_left fun type _ ↦ ?_
  show ((List.map _ _).map _).length = _
  rw [List.length_map, List.length_map]

theorem quiet_of_done {n : ℕ} {request : Fin n → Request} {s : State Services (Fin n) World Session Unit}
    (hqueue : s.world.queue = 0) (hdone : ∀ t, (s.prog t).result? = some ()) : Quiet request s where
  queue := hqueue
  prog t hnone := by
    cases hnone.symm.trans (hdone t)

instance {n : ℕ} (s : State Services (Fin n) World Session Unit) : DecidablePred (Calm s)
  | .kill _ => isFalse id
  | .step t => by
    unfold Calm Midway
    infer_instance

end DailyFresh.HomePage
