import DailyFresh.Concurrent.Adds
import DailyFresh.Results.Stock
import Mathlib.Data.Fintype.Basic

/-!
# Concurrent additions

Two additions to one entry of a cart: both read it, both write their sum, and the second write takes the
first one's count away (`lost_add`); both have replied `res` 5.

`adds_count_iff` says exactly when nothing is lost: whenever an addition writes the entry, the entry is
still what the addition has read. With positive counts a lost count never comes back: the entry lags
behind what has been added, and what is on its way to be written lags behind as well (`Lagging`).
-/

namespace DailyFresh

open Python Store Interleave

variable {ι : Type} [Fintype ι] [DecidableEq ι] {request : ι → Request} {user : ℕ} {field : Str}
  {start₀ : ℤ}

/-- Only additions to carts are handled, of positive counts. -/
def PositiveAdds (request : ι → Request) : Prop :=
  ∀ t, (∃ req, request t = .cartAdd req) ∧ 0 < (request t).asked

/-- If the move is about to write the entry, the entry is what the mover has read. -/
def WritesCurrent (user : ℕ) (field : Str) (s : State Services ι (World ι) Session Reply) :
    Move ι → Prop
  | .kill _ => True
  | .step t => (s.prog t).next?.any (Cmd.sets user (· = field)) = true →
      ((s.world.log t).findSome? Event.counted).getD 0 = (s.world.carts user).entry field

omit [Fintype ι] in
instance (s : State Services ι (World ι) Session Reply) : DecidablePred (WritesCurrent user field s)
  | .kill _ => isTrue trivial
  | .step _ => inferInstanceAs (Decidable (_ = true → _))

/-- What the entry should hold: what it held at the start, and all that has been added. -/
def due (request : ι → Request) (user : ℕ) (field : Str) (start₀ : ℤ) (w : World ι) : ℤ :=
  start₀ + ∑ t, added request user (· = field) w t

/-- The entry holds no more than it should, and neither did any request read more that is about to write;
and who read all that is due, read what the entry still holds. -/
structure Lagging (request : ι → Request) (user : ℕ) (field : Str) (start₀ : ℤ) (w : World ι) :
    Prop where
  entry : (w.carts user).entry field ≤ due request user field start₀ w
  read : ∀ t count es, w.log t = ⟨t, .hget user field, count⟩ :: es →
    count.getD 0 ≤ due request user field start₀ w ∧
      (count.getD 0 = due request user field start₀ w →
        (w.carts user).entry field = due request user field start₀ w)

section Step

variable {s s' : State Services ι (World ι) Session Reply} {t : ι} {c : Cmd} {r : c.Resp}

/-- A command that leaves the entry alone keeps it lagging. -/
theorem Lagging.of_not_sets {w w' : World ι} (h : Lagging request user field start₀ w)
    (hhistory : w'.history = ⟨t, c, r⟩ :: w.history) (hc : c.sets user (· = field) = false)
    (hentry : (w'.carts user).entry field = (w.carts user).entry field)
    (hread : ∀ count, (⟨t, c, r⟩ : Event ι) = ⟨t, .hget user field, count⟩ →
      count.getD 0 = (w.carts user).entry field) :
    Lagging request user field start₀ w' ∧
      ((w'.carts user).entry field = due request user field start₀ w' ↔
        (w.carts user).entry field = due request user field start₀ w) := by
  have hdue : due request user field start₀ w' = due request user field start₀ w := by
    rw [due, due, Finset.sum_congr rfl fun u _ ↦ added_of_not_sets hhistory hc u]
  refine ⟨⟨by rw [hentry, hdue]; exact h.entry, fun u count es hlog ↦ ?_⟩, by rw [hentry, hdue]⟩
  rw [hentry, hdue]
  rcases eq_or_ne u t with rfl | hu
  · rw [World.log_cons_self hhistory] at hlog
    have hcount := hread count (List.cons.inj hlog).1
    rw [hcount]
    exact ⟨h.entry, id⟩
  · rw [World.log_cons_of_ne hu hhistory] at hlog
    exact h.read u count es hlog

/-- An addition that writes the entry, after having read `count`: the entry holds what is due afterwards
exactly if it did before, and what was read is what it holds. -/
theorem Lagging.of_sets {w w' : World ι} (h : Lagging request user field start₀ w) {value : ℤ}
    (hhistory : w'.history = ⟨t, .hset user field value, ()⟩ :: w.history) {count : Option ℤ}
    {es : List (Event ι)} (hlog : w.log t = ⟨t, .hget user field, count⟩ :: es)
    (hnone : (w.log t).any (Event.sets user (· = field)) = false)
    (hentry : (w'.carts user).entry field = (request t).asked + count.getD 0)
    (hpos : 0 < (request t).asked) :
    Lagging request user field start₀ w' ∧
      ((w'.carts user).entry field = due request user field start₀ w' ↔
        (w.carts user).entry field = due request user field start₀ w ∧
          count.getD 0 = (w.carts user).entry field) := by
  have hsets : (Cmd.hset user field value).sets user (· = field) = true := by
    simp [Cmd.sets]
  have hdue : due request user field start₀ w' =
      due request user field start₀ w + (request t).asked := by
    have hsum := sum_added_of_sets request hhistory hsets hnone
    rw [due, due, hsum, add_assoc]
  obtain ⟨hle, heq⟩ := h.read t count _ hlog
  refine ⟨⟨by omega, fun u v es' hlog' ↦ ?_⟩, ?_⟩
  · rcases eq_or_ne u t with rfl | hu
    · rw [World.log_cons_self hhistory] at hlog'
      cases (List.cons.inj hlog').1
    · rw [World.log_cons_of_ne hu hhistory] at hlog'
      have hread := (h.read u v es' hlog').1
      exact ⟨by omega, fun hv ↦ by omega⟩
  · rw [hentry, hdue]
    constructor
    · intro hsum
      have hcount : count.getD 0 = due request user field start₀ w := by omega
      exact ⟨heq hcount, hcount.trans (heq hcount).symm⟩
    · rintro ⟨hlag, hread⟩
      omega

/-- **One step of an addition**: the entry goes on lagging, and it holds what is due afterwards exactly if
it did before and the step did not write over what it had not read. -/
theorem Lagging.step (hadds : PositiveAdds request) (h : Lagging request user field start₀ s.world)
    (hpath : ∀ req, request t = .cartAdd req → AddPath t req (s.world.log t) (s.prog t))
    (hn : (site ι).next s (.step t) = some s')
    (heffect : Effect request (fun _ _ ↦ True) t s.world s'.world) :
    Lagging request user field start₀ s'.world ∧
      ((s'.world.carts user).entry field = due request user field start₀ s'.world ↔
        (s.world.carts user).entry field = due request user field start₀ s.world ∧
          WritesCurrent user field s (.step t)) := by
  obtain ⟨c, r, l, hc, -, hhistory⟩ := next_step_history hn
  obtain ⟨⟨req, hreq⟩, hpos⟩ := hadds t
  have hpath := hpath req hreq
  have hnext : (s.prog t).next?.any (Cmd.sets user (· = field)) = c.sets user (· = field) := by
    rw [hc]
    rfl
  have hother : c.sets user (· = field) = false → WritesCurrent user field s (.step t) := by
    intro hsets hwrites
    rw [hnext, hsets] at hwrites
    cases hwrites
  obtain hquiet | ⟨user', field', value, hdb, hcarts, hevent⟩ := heffect.cartAdd_cases hreq
  · have hplain := hquiet.plain hhistory
    have hsets : c.sets user (· = field) = false := by
      cases c with
      | hset => cases hplain
      | _ => rfl
    obtain ⟨hlag, hiff⟩ := h.of_not_sets hhistory hsets (by rw [hquiet.carts]) fun count he ↦ by
      rw [he] at hplain
      show count.getD 0 = ((s.world.carts user).lookup field).getD 0
      rw [show count = (s.world.carts user).lookup field from hplain]
    exact ⟨hlag, hiff.trans (iff_self_and.2 fun _ ↦ hother hsets)⟩
  · obtain ⟨he, -⟩ := List.cons.inj (hhistory.symm.trans hevent)
    cases he
    by_cases hwanted : user' = user ∧ field' = field
    · obtain ⟨rfl, rfl⟩ := hwanted
      obtain ⟨x, count, hlog, hasks, hvalue⟩ := hpath.writes user' field' value hc
      have hnone : (s.world.log t).any (Event.sets user' (· = field')) = false := by
        rw [hlog]
        rfl
      have hentry : (s'.world.carts user').entry field' = (request t).asked + count.getD 0 := by
        rw [hcarts, Function.update_self, Cart.entry, AList.lookup_insert, Option.getD_some, hvalue,
          hreq]
      have hcurrent : WritesCurrent user' field' s (.step t) ↔
          count.getD 0 = (s.world.carts user').entry field' := by
        have hsets : (Cmd.hset user' field' value).sets user' (· = field') = true := by
          simp [Cmd.sets]
        show (_ = true → _) ↔ _
        rw [hnext, hsets, hlog, imp_iff_right rfl]
        rcases count with - | count
        · exact Iff.rfl
        · exact Iff.rfl
      rw [hcurrent]
      exact h.of_sets hhistory hlog hnone hentry hpos
    · have hsets : (Cmd.hset user' field' value).sets user (· = field) = false := by
        simpa [Cmd.sets] using hwanted
      have hentry : (s'.world.carts user).entry field = (s.world.carts user).entry field := by
        rw [hcarts]
        rcases eq_or_ne user user' with rfl | huser
        · have hfield : field ≠ field' := fun hf ↦ hwanted ⟨rfl, hf.symm⟩
          rw [Function.update_self, Cart.entry, AList.lookup_insert_ne hfield, Cart.entry]
        · rw [Function.update_of_ne huser]
      obtain ⟨hlag, hiff⟩ := h.of_not_sets hhistory hsets hentry fun count he ↦ by cases he
      exact ⟨hlag, hiff.trans (iff_self_and.2 fun _ ↦ hother hsets)⟩

end Step

/-- **Concurrent additions, exactly.** When all additions have finished, an entry holds what it held at
the start and the counts of all additions to it that replied `res` 5, if and only if each of them wrote
the entry while it was what it had read. -/
theorem adds_count_iff (hadds : PositiveAdds request) {db : Db} (hlinked : db.Linked)
    {carts : ℕ → Cart} {gateway : ℕ → Answer} {ts : List ι}
    {s : State Services ι (World ι) Session Reply}
    (hrun : (site ι).perform (start db carts gateway request) (ts.map .step) = some s)
    (hdone : ∀ t, ((s.prog t).result?).isSome = true) (user : ℕ) (field : Str) :
    (s.world.carts user).entry field =
        (carts user).entry field + acceptedCount request user (· = field) s ↔
      (site ι).AllMoves (fun s m _ ↦ WritesCurrent user field s m) (ts.map .step)
        (start db carts gateway request) := by
  let start₀ := (carts user).entry field
  have hok := Machine.allMoves_noKill (M := site ι) ts (start db carts gateway request)
  have hstep : ∀ s t s', (site ι).Reach NoKill (start db carts gateway request) s →
      Lagging request user field start₀ s.world → (site ι).next s (.step t) = some s' →
      Lagging request user field start₀ s'.world ∧
        ((s'.world.carts user).entry field = due request user field start₀ s'.world ↔
          (s.world.carts user).entry field = due request user field start₀ s.world ∧
            WritesCurrent user field s (.step t)) := by
    intro s t s' hs hlag hn
    have hpromise := promise_of_reach (noDiscipline request) hlinked trivial
      (hs.mono fun _ _ _ ↦ trivial) hn
    exact hlag.step hadds (fun req hreq ↦ addPath_of_reach (not_noKill t) hreq hs) hn hpromise.effect
  have hsum₀ : ∑ t, added request user (· = field) (start db carts gateway request).world t = 0 :=
    Finset.sum_eq_zero fun t _ ↦ rfl
  have hdue₀ : due request user field start₀ (start db carts gateway request).world = start₀ := by
    rw [due, hsum₀, add_zero]
  have hlag : ∀ s, (site ι).Reach NoKill (start db carts gateway request) s →
      Lagging request user field start₀ s.world := by
    intro s hs
    induction hs with
    | refl =>
      refine ⟨by rw [hdue₀]; exact le_rfl, fun t count es hlog ↦ ?_⟩
      cases hlog
    | @move s s' m hs hm hn ih =>
      cases m with
      | kill t => exact absurd hm (not_noKill t s)
      | step t => exact (hstep s t s' hs ih hn).1
  have hiff := Machine.last_inv_iff NoKill
    (I := fun s : State Services ι (World ι) Session Reply ↦
      (s.world.carts user).entry field = due request user field start₀ s.world)
    (C := WritesCurrent user field) (fun s m s' hs hm hn ↦ ?_) .refl hok hrun
  · have hreach := Machine.reach_of_allMoves .refl hrun hok
    have haccepted : acceptedCount request user (· = field) s =
        ∑ t, added request user (· = field) s.world t := by
      refine Finset.sum_congr rfl fun t _ ↦ ?_
      obtain ⟨⟨req, hreq⟩, -⟩ := hadds t
      exact ((addPath_of_reach (not_noKill t) hreq hreach).added_eq hreq (hdone t)).symm
    rw [haccepted]
    exact hiff.trans (and_iff_right hdue₀.symm)
  · cases m with
    | kill t => exact absurd hm (not_noKill t s)
    | step t => exact (hstep s t s' hs (hlag s hs) hn).2

/-! ### Two additions -/

/-- User 7 adds this many pieces of the first product. -/
def adding (count : String) : Request :=
  .cartAdd { user := some 7, POST := formData [("sku_id", "1"), ("count", count)] }

/-- One piece, and two. -/
def twoAdds : Fin 2 → Request := ![adding "1", adding "2"]

theorem positiveAdds_twoAdds : PositiveAdds twoAdds
  | 0 => ⟨⟨_, rfl⟩, by decide⟩
  | 1 => ⟨⟨_, rfl⟩, by decide⟩

/-- One after the other. -/
theorem adds_count_iff_in_order : ∃ s, (site (Fin 2)).perform
      (start smallShop (fun _ ↦ cartOf [("1", 1)]) silent twoAdds)
      ([0, 0, 0, 0, 1, 1, 1, 1].map .step) = some s ∧
    (s.world.carts 7).entry "1".toList = 4 ∧
    (s.world.carts 7).entry "1".toList = (cartOf [("1", 1)]).entry "1".toList +
      acceptedCount twoAdds 7 (· = "1".toList) s := by
  have hrun : ((site (Fin 2)).perform (start smallShop (fun _ ↦ cartOf [("1", 1)]) silent twoAdds)
      ([0, 0, 0, 0, 1, 1, 1, 1].map .step)).map (fun s ↦ ((s.prog 0).result?.isSome,
        (s.prog 1).result?.isSome, (s.world.carts 7).entry "1".toList)) = some (true, true, 4) := by
    rfl
  obtain ⟨s, hs, heq⟩ := Option.map_eq_some_iff.1 hrun
  obtain ⟨h₀, heq⟩ := Prod.mk.inj heq
  obtain ⟨h₁, hentry⟩ := Prod.mk.inj heq
  have hdone : ∀ t, ((s.prog t).result?).isSome = true
    | 0 => h₀
    | 1 => h₁
  exact ⟨s, hs, hentry, (adds_count_iff positiveAdds_twoAdds smallShop_linked hs hdone 7 _).2
    (by decide)⟩

/-- **A lost addition**: both read one piece, and the second one writes last. -/
theorem lost_add : ∃ s, (site (Fin 2)).perform
      (start smallShop (fun _ ↦ cartOf [("1", 1)]) silent twoAdds)
      ([0, 0, 1, 1, 0, 1, 0, 1].map .step) = some s ∧
    (∀ t, (s.prog t).result?.bind Reply.res = some 5) ∧
    (s.world.carts 7).entry "1".toList ≠ (cartOf [("1", 1)]).entry "1".toList +
      acceptedCount twoAdds 7 (· = "1".toList) s := by
  have hrun : ((site (Fin 2)).perform (start smallShop (fun _ ↦ cartOf [("1", 1)]) silent twoAdds)
      ([0, 0, 1, 1, 0, 1, 0, 1].map .step)).map (fun s ↦ ((s.prog 0).result?.bind Reply.res,
        (s.prog 1).result?.bind Reply.res, (s.world.carts 7).entry "1".toList,
        acceptedCount twoAdds 7 (· = "1".toList) s)) = some (some 5, some 5, 3, 3) := by rfl
  obtain ⟨s, hs, heq⟩ := Option.map_eq_some_iff.1 hrun
  obtain ⟨h₀, heq⟩ := Prod.mk.inj heq
  obtain ⟨h₁, heq⟩ := Prod.mk.inj heq
  obtain ⟨hentry, haccepted⟩ := Prod.mk.inj heq
  have hreplies : ∀ t, (s.prog t).result?.bind Reply.res = some 5
    | 0 => h₀
    | 1 => h₁
  refine ⟨s, hs, hreplies, ?_⟩
  rw [hentry, haccepted]
  decide

end DailyFresh
