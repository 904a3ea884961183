import DailyFresh.Results.BrowsingHistory
import DailyFresh.Site.History
import DailyFresh.Site.Stores

/-!
# Products viewed in several tabs

Each view sends `lrem`, `lpush` and `ltrim`, and several views of one user mix in every order. Two of the
three things that a history list should be survive this: an entry is never pushed without a cut that comes
later, so the list ends with at most five entries, and what is removed is pushed again by the same view,
so the last pushed product is in it.

That no product stands in the list twice does not survive: two tabs remove before either pushes
(`viewed_twice`). `history_wellFormed` says when it does: throughout a run exactly if every push finds no
entry of its product in the list.
-/

namespace DailyFresh

open Python Store Interleave

/-- No two entries denote the same product. -/
def OncePerProduct (list : List Str) : Prop :=
  list.Pairwise fun a b ↦ ∀ n : ℕ, int a = some (n : ℤ) → int b ≠ some (n : ℤ)

variable {ι : Type}

/-- The id that an event has pushed to the user's list. -/
def Event.pushed (user : ℕ) (e : Event ι) : Option Str :=
  match e.cmd with
  | .lpush u value => if u = user then some value else none
  | _ => none

/-- The id that was last pushed to the user's list. -/
def lastPush (user : ℕ) (history : List (Event ι)) : Option Str :=
  history.findSome? (Event.pushed user)

/-- The site about to handle views of products. -/
def browsing (w : World ι) (visits : ι → HttpRequest × Str) :
    State Services ι (World ι) Session Reply where
  world := w
  loc := fun _ ↦ .idle
  prog := fun t ↦ DetailView.get (visits t).1 (visits t).2

/-- A move that pushes an id to the user's list finds no entry there that denotes the same product. -/
def PushesNew (user : ℕ) (s : State Services ι (World ι) Session Reply) : Move ι → Prop
  | .kill _ => True
  | .step t => ∀ value, (s.prog t).next? = some (.lpush user value) →
      ∀ e ∈ s.world.histories user, ∀ n : ℕ, int value = some (n : ℤ) → int e ≠ some (n : ℤ)

/-! ### The path of a view -/

/-- After a view has removed an id it pushes one, and after it has pushed one it cuts the list. -/
def ViewPath : List (Event ι) → Program Services Reply → Prop
  | [], _ => True
  | e :: _, p =>
    match e.cmd with
    | .lrem user _ => ∃ value, p.next? = some (.lpush user value)
    | .lpush user _ => p.next? = some (.ltrim user)
    | _ => True

/-- **The path of a view.** -/
theorem throughout_detail (t : ι) (request : HttpRequest) (goodsId : Str) :
    Throughout (Event.mk t) ViewPath (DetailView.get request goodsId) [] := by
  refine ⟨trivial, fun x ↦ ?_⟩
  rcases x with e | x
  · cases e
    all_goals trivial
  dsimp only
  rcases request.user with - | user
  · trivial
  -- `hlen`, `lrem`, `lpush`, `ltrim`, and the page
  refine ⟨trivial, fun _ ↦ ⟨trivial, fun _ ↦ ⟨⟨goodsId, rfl⟩, fun _ ↦ ⟨rfl, fun _ ↦ trivial⟩⟩⟩⟩

variable [DecidableEq ι] {w : World ι} {visits : ι → HttpRequest × Str}
  {s s' : State Services ι (World ι) Session Reply} {m : Move ι} {t : ι} {user : ℕ}

theorem viewPath_of_reach (hnew : w.history = [])
    (hs : (site ι).Reach NoKill (browsing w visits) s) (t : ι) :
    ViewPath (s.world.log t) (s.prog t) := by
  refine Throughout.of_reach site_logs (not_noKill t) ?_ hs
  have hlog : (browsing w visits).world.log t = [] := by
    show w.history.filter _ = []
    rw [hnew]
    rfl
  rw [hlog]
  exact throughout_detail t _ _

/-! ### One move -/

/-- A move that kills nobody executes a command, which is the newest one of its process. -/
theorem step_of_noKill (hm : NoKill s m) (hn : (site ι).next s m = some s') :
    ∃ t c r, m = .step t ∧ (s.prog t).next? = some c ∧
      s'.world.history = ⟨t, c, r⟩ :: s.world.history ∧
      s'.world.histories = c.historiesAfter s.world.histories := by
  rcases m with t | t
  · obtain ⟨c, r, l, hc, hx, hhistory⟩ := next_step_history hn
    exact ⟨t, c, r, rfl, hc, hhistory, (exec_redis hx).2⟩
  · exact absurd rfl (hm t)

variable (user) in
/-- The command that comes after a removal or a push. -/
theorem next_after (hnew : w.history = []) (hs' : (site ι).Reach NoKill (browsing w visits) s')
    {c : Cmd} {r : c.Resp} (hhistory : s'.world.history = ⟨t, c, r⟩ :: s.world.history) :
    (∀ value, c = .lrem user value → ∃ value', (s'.prog t).next? = some (.lpush user value')) ∧
      ∀ value, c = .lpush user value → (s'.prog t).next? = some (.ltrim user) := by
  have hpath := viewPath_of_reach hnew hs' t
  rw [World.log_cons_self hhistory] at hpath
  constructor
  · rintro value rfl
    exact hpath
  · rintro value rfl
    exact hpath

omit [DecidableEq ι] in
theorem lastPush_of_lpush {value : Str} (r : Unit) (history : List (Event ι)) :
    lastPush user (⟨t, .lpush user value, r⟩ :: history) = some value := by
  simp [lastPush, Event.pushed]

omit [DecidableEq ι] in
theorem lastPush_of_ne {c : Cmd} (hc : ∀ value, c ≠ .lpush user value) (r : c.Resp)
    (history : List (Event ι)) : lastPush user (⟨t, c, r⟩ :: history) = lastPush user history := by
  have hnone : Event.pushed user ⟨t, c, r⟩ = none := by
    unfold Event.pushed
    split
    · rename_i u value hcmd
      rw [if_neg]
      rintro rfl
      exact hc value hcmd
    · rfl
  rw [lastPush, List.findSome?_cons, hnone, lastPush]

/-- A list that is too long is about to be cut. -/
theorem short_or_cut (hnew : w.history = []) (hlength : (w.histories user).length ≤ 5)
    (hs : (site ι).Reach NoKill (browsing w visits) s) :
    (s.world.histories user).length ≤ 5 ∨ ∃ t, (s.prog t).next? = some (.ltrim user) := by
  induction hs with
  | refl => exact .inl hlength
  | @move s s' m hs hm hn ih =>
    obtain ⟨t, c, r, rfl, hc, hhistory, hlists⟩ := step_of_noKill hm hn
    have hafter := next_after user hnew (hs.move hm hn) hhistory
    -- a cut of another view is still to come
    have hother : (∃ u, u ≠ t ∧ (s.prog u).next? = some (.ltrim user)) →
        ∃ u, (s'.prog u).next? = some (.ltrim user) := by
      rintro ⟨u, hu, hcut⟩
      exact ⟨u, by rw [((site ι).next_other hn hu).1, hcut]⟩
    rw [hlists]
    rcases c.historiesAfter_cases s.world.histories user with
      ⟨value, hcmd, hlist⟩ | ⟨value, hcmd, hlist⟩ | ⟨hcmd, hlist⟩ | ⟨hlist, -, -, hcmd⟩
    · rcases ih with hshort | ⟨u, hcut⟩
      · rw [hlist]
        exact .inl ((List.length_filter_le _ _).trans hshort)
      · refine .inr (hother ⟨u, ?_, hcut⟩)
        rintro rfl
        rw [hc, hcmd] at hcut
        cases hcut
    · exact .inr ⟨t, hafter.2 value hcmd⟩
    · rw [hlist]
      exact .inl (List.length_take_le _ _)
    · rcases ih with hshort | ⟨u, hcut⟩
      · rw [hlist]
        exact .inl hshort
      · refine .inr (hother ⟨u, ?_, hcut⟩)
        rintro rfl
        exact hcmd (Option.some.inj (hc.symm.trans hcut))

/-- The last pushed id is in front, or a view is about to push. -/
theorem front_or_push (hnew : w.history = [])
    (hs : (site ι).Reach NoKill (browsing w visits) s) :
    (∀ x, lastPush user s.world.history = some x → (s.world.histories user).head? = some x) ∨
      ∃ t value, (s.prog t).next? = some (.lpush user value) := by
  induction hs with
  | refl =>
    refine .inl fun x hx ↦ ?_
    have hnone : lastPush user w.history = none := by
      rw [hnew]
      rfl
    cases hnone.symm.trans hx
  | @move s s' m hs hm hn ih =>
    obtain ⟨t, c, r, rfl, hc, hhistory, hlists⟩ := step_of_noKill hm hn
    have hafter := next_after user hnew (hs.move hm hn) hhistory
    have hother : (∃ u value, u ≠ t ∧ (s.prog u).next? = some (.lpush user value)) →
        ∃ u value, (s'.prog u).next? = some (.lpush user value) := by
      rintro ⟨u, value, hu, hpush⟩
      exact ⟨u, value, by rw [((site ι).next_other hn hu).1, hpush]⟩
    rw [hlists, hhistory]
    rcases c.historiesAfter_cases s.world.histories user with
      ⟨value, hcmd, hlist⟩ | ⟨value, hcmd, hlist⟩ | ⟨hcmd, hlist⟩ | ⟨hlist, -, hcmd, -⟩
    · obtain ⟨value', hpush⟩ := hafter.1 value hcmd
      exact .inr ⟨t, value', hpush⟩
    · subst hcmd
      refine .inl fun x hx ↦ ?_
      rw [lastPush_of_lpush] at hx
      rw [hlist, List.head?_cons, hx]
    · rcases ih with hfront | ⟨u, value, hpush⟩
      · refine .inl fun x hx ↦ ?_
        rw [lastPush_of_ne (by simp [hcmd])] at hx
        rw [hlist, List.head?_take, if_neg (by decide), hfront x hx]
      · refine .inr (hother ⟨u, value, ?_, hpush⟩)
        rintro rfl
        rw [hc, hcmd] at hpush
        cases hpush
    · rcases ih with hfront | ⟨u, value, hpush⟩
      · refine .inl fun x hx ↦ ?_
        rw [lastPush_of_ne hcmd] at hx
        rw [hlist, hfront x hx]
      · refine .inr (hother ⟨u, value, ?_, hpush⟩)
        rintro rfl
        exact hcmd value (Option.some.inj (hc.symm.trans hpush))

/-- **One product at a time.** A move keeps the products of the list distinct exactly if what it pushes,
if it pushes, is new. -/
theorem oncePerProduct_next (hm : NoKill s m) (hn : (site ι).next s m = some s')
    (honce : OncePerProduct (s.world.histories user)) :
    OncePerProduct (s'.world.histories user) ↔ PushesNew user s m := by
  obtain ⟨t, c, r, rfl, hc, -, hlists⟩ := step_of_noKill hm hn
  rw [hlists]
  rcases c.historiesAfter_cases s.world.histories user with
    ⟨value, hcmd, hlist⟩ | ⟨value, hcmd, hlist⟩ | ⟨hcmd, hlist⟩ | ⟨hlist, -, hcmd, -⟩
  · rw [hlist]
    refine iff_of_true (honce.sublist List.filter_sublist) fun value' hpush ↦ ?_
    rw [hc, hcmd] at hpush
    cases hpush
  · rw [hlist, OncePerProduct, List.pairwise_cons]
    show _ ∧ OncePerProduct (s.world.histories user) ↔ _
    rw [and_iff_left honce]
    constructor
    · intro hnew value' hpush e he n hvalue
      rw [hc, hcmd] at hpush
      cases hpush
      exact hnew e he n hvalue
    · intro hnew e he n hvalue
      exact hnew value (by rw [hc, hcmd]) e he n hvalue
  · rw [hlist]
    refine iff_of_true (honce.sublist (List.take_sublist _ _)) fun value' hpush ↦ ?_
    rw [hc, hcmd] at hpush
    cases hpush
  · rw [hlist]
    refine iff_of_true honce fun value' hpush ↦ ?_
    exact absurd (Option.some.inj (hc.symm.trans hpush)) (hcmd value')

/-! ### The whole run -/

/-- A run of views that starts with distinct products. -/
theorem once_of_reach (honce : OncePerProduct (w.histories user))
    (hs : (site ι).Reach (fun s m ↦ NoKill s m ∧ PushesNew user s m) (browsing w visits) s) :
    OncePerProduct (s.world.histories user) :=
  hs.invariant (I := fun s ↦ OncePerProduct (s.world.histories user)) honce
    fun _ _ _ hI hok hn ↦ (oncePerProduct_next hok.1 hn hI).2 hok.2

/-- **The history of several tabs.** When all of any number of views have finished, the user's list has at
most five entries and contains what was last pushed. No product stands in it twice if every push found no
entry of its product; and it is so throughout the run exactly then. -/
theorem history_wellFormed (user : ℕ) (hnew : w.history = [])
    (hlength : (w.histories user).length ≤ 5) (honce : OncePerProduct (w.histories user))
    {ts : List ι} (hrun : (site ι).perform (browsing w visits) (ts.map .step) = some s)
    (hdone : ∀ t, ((s.prog t).result?).isSome = true) :
    (s.world.histories user).length ≤ 5 ∧
    (∀ x, lastPush user s.world.history = some x → x ∈ s.world.histories user) ∧
    ((site ι).AllMoves (fun s m _ ↦ PushesNew user s m) (ts.map .step) (browsing w visits) →
      OncePerProduct (s.world.histories user)) ∧
    ((site ι).AllMoves (fun _ _ s' ↦ OncePerProduct (s'.world.histories user)) (ts.map .step)
        (browsing w visits) ↔
      (site ι).AllMoves (fun s m _ ↦ PushesNew user s m) (ts.map .step) (browsing w visits)) := by
  have hnokill := (site ι).allMoves_noKill ts (browsing w visits)
  have hs : (site ι).Reach NoKill (browsing w visits) s :=
    Machine.reach_of_allMoves .refl hrun hnokill
  have hidle : ∀ t c, (s.prog t).next? ≠ some c := by
    intro t c hc
    obtain ⟨reply, hreply⟩ := Option.isSome_iff_exists.1 (hdone t)
    rw [Program.result?_eq_some_iff.1 hreply] at hc
    cases hc
  refine ⟨?_, fun x hx ↦ ?_, fun hfresh ↦ ?_, ?_⟩
  · exact (short_or_cut hnew hlength hs).resolve_right fun ⟨t, hcut⟩ ↦ hidle t _ hcut
  · rcases front_or_push hnew hs with hfront | ⟨t, _, hpush⟩
    · exact List.mem_of_mem_head? (hfront x hx)
    · exact absurd hpush (hidle t _)
  · exact once_of_reach honce (Machine.reach_of_allMoves .refl hrun (hnokill.and hfresh))
  · exact Machine.allMoves_inv_iff NoKill
      (fun _ _ _ _ hm hn hI ↦ oncePerProduct_next hm hn hI) .refl hnokill honce

/-- Views of one user. -/
def tabs {n : ℕ} (ids : Fin n → String) (t : Fin n) : HttpRequest × Str :=
  ({ user := some 7, POST := fun _ ↦ none }, (ids t).toList)

/-- The small shop, before anybody has looked at anything. -/
def unseenShop : World (Fin 2) := .initial smallShop (fun _ ↦ ∅) silent

/-- Two products in two tabs, in turns. -/
theorem history_wellFormed_twoProducts : ∃ s, (site (Fin 2)).perform
      (browsing unseenShop (tabs !["1", "2"]))
      ([0, 1, 0, 1, 0, 1, 0, 1, 0, 1].map .step) = some s ∧
    s.world.histories 7 = ["2".toList, "1".toList] ∧ (s.world.histories 7).length ≤ 5 ∧
    "2".toList ∈ s.world.histories 7 := by
  have hrun : ((site (Fin 2)).perform (browsing unseenShop (tabs !["1", "2"]))
      ([0, 1, 0, 1, 0, 1, 0, 1, 0, 1].map .step)).map
        (fun s ↦ (s.world.histories 7, lastPush 7 s.world.history,
          decide (∀ t, ((s.prog t).result?).isSome = true))) =
        some (["2".toList, "1".toList], some "2".toList, true) := by rfl
  obtain ⟨s, hs, hvalues⟩ := Option.map_eq_some_iff.1 hrun
  obtain ⟨hlist, hvalues⟩ := Prod.mk.inj hvalues
  obtain ⟨hlast, hdone⟩ := Prod.mk.inj hvalues
  have honce : OncePerProduct (unseenShop.histories 7) := List.Pairwise.nil
  obtain ⟨hlength, hmem, -, -⟩ := history_wellFormed 7 (by rfl) (by decide) honce hs
    (of_decide_eq_true hdone)
  exact ⟨s, hs, hlist, hlength, hmem _ hlast⟩

/-- **A product twice**: both tabs remove it, then both push it. -/
theorem viewed_twice : ∃ s, (site (Fin 2)).perform (browsing unseenShop (tabs !["1", "1"]))
      ([0, 1, 0, 1, 0, 1, 0, 1, 0, 1].map .step) = some s ∧
    (∀ t, ((s.prog t).result?).isSome = true) ∧
    s.world.histories 7 = ["1".toList, "1".toList] ∧
    ¬ OncePerProduct (s.world.histories 7) := by
  have hrun : ((site (Fin 2)).perform (browsing unseenShop (tabs !["1", "1"]))
      ([0, 1, 0, 1, 0, 1, 0, 1, 0, 1].map .step)).map
        (fun s ↦ (s.world.histories 7, decide (∀ t, ((s.prog t).result?).isSome = true))) =
        some (["1".toList, "1".toList], true) := by rfl
  obtain ⟨s, hs, hvalues⟩ := Option.map_eq_some_iff.1 hrun
  obtain ⟨hlist, hdone⟩ := Prod.mk.inj hvalues
  refine ⟨s, hs, of_decide_eq_true hdone, hlist, ?_⟩
  rw [hlist]
  intro honce
  have hne := (List.pairwise_cons.1 honce).1 _ (List.mem_singleton_self _) 1 (by decide)
  exact hne (by decide)

end DailyFresh
