import DailyFresh.Interleave.Monitor
import Mathlib.Data.DFinsupp.WellFounded
import Mathlib.Data.Fintype.Order
import Mathlib.Logic.Relation
import Mathlib.SetTheory.Cardinal.Order

/-!
# Runs that come to an end

Two results about finitely many processes.

* `Machine.progress`: if processes wait for each other only, then all have returned, or somebody can take a
  step, or there is a cycle of processes that wait for each other.
* `Machine.acc_moves`: there is no infinite run. Programs are inductive, so a process takes finitely many
  steps, but for those in which it repeats a command; the latter are bounded by a `budget` of the world.

What is left to run gets smaller with every other move, a kill included (`Program.Less`).
-/

namespace Interleave

variable {S : Signature} {ι W L α : Type}

/-! ### Waiting in circles -/

/-- In a finite type, who always finds a next one comes back to where somebody was. -/
theorem exists_cycle {A : Type} [Finite A] {R : A → A → Prop} {I : A → Prop}
    (hnext : ∀ a, I a → ∃ b, I b ∧ R a b) {a : A} (ha : I a) : ∃ b, Relation.TransGen R b b := by
  by_contra hcycle
  have hirrefl : Std.Irrefl (Relation.TransGen (flip R)) :=
    ⟨fun b hb ↦ hcycle ⟨b, Relation.transGen_swap.1 hb⟩⟩
  have hwf : WellFounded (Relation.TransGen (flip R)) := Finite.wellFounded_of_trans_of_irrefl _
  obtain ⟨b, hb, hmin⟩ := hwf.has_min {b | I b} ⟨a, ha⟩
  obtain ⟨b', hb', hR⟩ := hnext b hb
  exact hmin b' hb' (.single hR)

theorem Program.exists_next? {p : Program S α} (h : p.result? = none) : ∃ c, p.next? = some c := by
  cases p with
  | ret a => cases h
  | call c k => exact ⟨c, rfl⟩
  | poll c again k => exact ⟨c, rfl⟩

variable [DecidableEq ι] {M : Machine S ι W L α} {s s' : State S ι W L α}

/-- A process that has not returned takes its step, or has to wait. -/
theorem Machine.step_or_waits {t : ι} (h : (s.prog t).result? = none) :
    (∃ s', M.next s (.step t) = some s') ∨
      ∃ c, (s.prog t).next? = some c ∧ M.exec t s.world (s.loc t) c = none := by
  rcases hp : s.prog t with a | ⟨c, k⟩ | ⟨c, again, k⟩
  · rw [hp] at h
    cases h
  · rcases hx : M.exec t s.world (s.loc t) c with - | x
    · exact .inr ⟨c, rfl, hx⟩
    · left
      rw [Machine.next, hp]
      dsimp only
      rw [hx]
      exact ⟨_, rfl⟩
  · rcases hx : M.exec t s.world (s.loc t) c with - | x
    · exact .inr ⟨c, rfl, hx⟩
    · left
      rw [Machine.next, hp]
      dsimp only
      rw [hx]
      exact ⟨_, rfl⟩

/-- **Progress.** Let the *holders* be processes that have not returned. If whoever has to wait waits because
of a holder, and a holder who has to wait does so for another one, then all processes have returned, or
somebody can take a step, or there is a cycle of holders that wait for each other. -/
theorem Machine.progress [Finite ι] {Holds : ι → Prop} {Wait : ι → ι → Prop}
    (hholds : ∀ t, Holds t → (s.prog t).result? = none)
    (hsome : ∀ t c, (s.prog t).next? = some c → M.exec t s.world (s.loc t) c = none → ∃ u, Holds u)
    (hwait : ∀ t c, Holds t → (s.prog t).next? = some c → M.exec t s.world (s.loc t) c = none →
      ∃ u, Holds u ∧ Wait t u) :
    (∀ t, ∃ a, (s.prog t).result? = some a) ∨ (∃ t s', M.next s (.step t) = some s') ∨
      ∃ t, Relation.TransGen Wait t t := by
  by_cases hall : ∀ t, ∃ a, (s.prog t).result? = some a
  · exact .inl hall
  by_cases hstep : ∃ t s', M.next s (.step t) = some s'
  · exact .inr (.inl hstep)
  -- nobody moves: whoever has not returned has to wait
  have hwaits : ∀ t, (s.prog t).result? = none →
      ∃ c, (s.prog t).next? = some c ∧ M.exec t s.world (s.loc t) c = none := by
    intro t ht
    obtain ⟨s', hn⟩ | hwaits := Machine.step_or_waits (M := M) ht
    · exact absurd ⟨t, s', hn⟩ hstep
    · exact hwaits
  obtain ⟨t, ht⟩ := not_forall.1 hall
  have hnone : (s.prog t).result? = none := by
    rcases hresult : (s.prog t).result? with - | a
    · rfl
    · exact absurd ⟨a, hresult⟩ ht
  obtain ⟨c, hc, hx⟩ := hwaits t hnone
  obtain ⟨u, hu⟩ := hsome t c hc hx
  refine .inr (.inr (exists_cycle (I := Holds) (fun u hu ↦ ?_) hu))
  obtain ⟨c, hc, hx⟩ := hwaits u (hholds u hu)
  exact hwait u c hu hc hx

omit [DecidableEq ι] in
/-- A cycle of processes that wait for each other, each for one thing, is a cycle of what any two neighbours
of it have to do with each other. -/
theorem transGen_of_waits {K : Type} (Wait : ι → K → ι → Prop) {B : ι × K → ι × K → Prop}
    (hunique : ∀ {t m u n v}, Wait t m u → Wait t n v → m = n)
    (hB : ∀ {t m u n v}, Wait t m u → Wait u n v → B (t, m) (u, n)) {t : ι}
    (h : Relation.TransGen (fun t u ↦ ∃ n, Wait t n u) t t) : ∃ x, Relation.TransGen B x x := by
  have hchain : ∀ {t u : ι}, Relation.TransGen (fun t u ↦ ∃ n, Wait t n u) t u →
      ∀ {m n : K} {v w : ι}, Wait t m v → Wait u n w → Relation.TransGen B (t, m) (u, n) := by
    intro t u htu
    induction htu with
    | single htu =>
      intro m n v w ht hu
      obtain ⟨m', htu⟩ := htu
      obtain rfl := hunique ht htu
      exact .single (hB htu hu)
    | tail _ huv ih =>
      intro m n v w ht hv
      obtain ⟨m', huv⟩ := huv
      exact (ih ht huv).tail (hB huv hv)
  obtain ⟨u, ⟨n, hn⟩, -⟩ := Relation.TransGen.head'_iff.1 h
  exact ⟨(t, n), hchain h hn hn⟩

/-! ### No infinite run -/

/-- What is left to run after a move that does not repeat a command. -/
inductive Program.Less : Program S α → Program S α → Prop where
  | called (c : S.Cmd) (k : S.Resp c → Program S α) (r : S.Resp c) : Less (k r) (.call c k)
  | polled (c : S.Cmd) (again : S.Resp c → Bool) (k : S.Resp c → Program S α) (r : S.Resp c) :
      Less (k r) (.poll c again k)
  | killed (a : α) {p : Program S α} (h : p.result? = none) : Less (.ret a) p

theorem Program.acc_ret (a : α) : Acc (Program.Less (S := S)) (.ret a) := by
  refine .intro _ fun q hq ↦ ?_
  cases hq with
  | killed b h => cases h

theorem Program.less_wellFounded : WellFounded (Program.Less (S := S) (α := α)) := by
  refine ⟨fun p ↦ ?_⟩
  induction p with
  | ret a => exact Program.acc_ret a
  | call c k ih =>
    refine .intro _ fun q hq ↦ ?_
    cases hq with
    | called c k r => exact ih r
    | killed a h => exact Program.acc_ret a
  | poll c again k ih =>
    refine .intro _ fun q hq ↦ ?_
    cases hq with
    | polled c again k r => exact ih r
    | killed a h => exact Program.acc_ret a

/-- A move that repeats a command. -/
structure Repeats (M : Machine S ι W L α) (R : (c : S.Cmd) → (S.Resp c → Bool) → Prop) (t : ι)
    (s s' : State S ι W L α) : Prop where
  again : ∃ c again r l, R c again ∧ again r = true ∧
    M.exec t s.world (s.loc t) c = some (r, s'.world, l)
  prog : s'.prog = s.prog

variable {P : S.Cmd → Prop} {R : (c : S.Cmd) → (S.Resp c → Bool) → Prop}

/-- **What a move leaves to run**: it repeats a command, or leaves less to its process, and to the others
what they had. -/
theorem Machine.next_less (honly : ∀ t, Monitor.Only P R (s.prog t)) {m : Move ι}
    (hn : M.next s m = some s') : Repeats M R m.process s s' ∨
      Program.Less (s'.prog m.process) (s.prog m.process) ∧ ∀ u, u ≠ m.process → s'.prog u = s.prog u := by
  have hother : ∀ u, u ≠ m.process → s'.prog u = s.prog u := fun u hu ↦ (M.next_other hn hu).1
  cases m with
  | step t =>
    have ht := honly t
    obtain ⟨c, k, r, w, l, hp, hx, rfl⟩ | ⟨c, again, k, r, w, l, hp, hx, rfl⟩ := M.next_step_cases hn
    · refine .inr ⟨?_, hother⟩
      show Program.Less ((s.put t w l (k r)).prog t) (s.prog t)
      rw [State.put_prog_self, hp]
      exact .called c k r
    · rw [hp] at ht
      by_cases hagain : again r = true
      · refine .inl ⟨⟨c, again, r, l, ht.1.2, hagain, hx⟩, funext fun u ↦ ?_⟩
        rcases eq_or_ne u t with rfl | hu
        · rw [State.put_prog_self, if_pos hagain, hp]
        · exact hother u hu
      · refine .inr ⟨?_, hother⟩
        show Program.Less ((s.put t w l _).prog t) (s.prog t)
        rw [State.put_prog_self, if_neg hagain, hp]
        exact .polled c again k r
  | kill t =>
    obtain ⟨hret, rfl⟩ := M.next_kill_cases hn
    refine .inr ⟨?_, hother⟩
    show Program.Less ((s.put t _ _ _).prog t) (s.prog t)
    rw [State.put_prog_self]
    refine .killed _ ?_
    rcases hp : s.prog t with a | ⟨c, k⟩ | ⟨c, again, k⟩
    · exact absurd hp (hret a)
    · rfl
    · rfl

/-- What the processes send and repeat satisfies `P` and `R`, also after a move. -/
theorem Monitor.Only.next (honly : ∀ t, Monitor.Only P R (s.prog t)) {m : Move ι}
    (hn : M.next s m = some s') (t : ι) : Monitor.Only P R (s'.prog t) := by
  by_cases ht : t = m.process
  · cases m with
    | step u =>
      obtain rfl : t = u := ht
      have h := honly t
      obtain ⟨c, k, r, w, l, hp, -, rfl⟩ | ⟨c, again, k, r, w, l, hp, -, rfl⟩ := M.next_step_cases hn
      · rw [hp] at h
        rw [State.put_prog_self]
        exact h.2 r
      · rw [hp] at h
        rw [State.put_prog_self]
        exact h.answered r
    | kill u =>
      obtain rfl : t = u := ht
      obtain ⟨-, rfl⟩ := M.next_kill_cases hn
      rw [State.put_prog_self]
      trivial
  · rw [(M.next_other hn ht).1]
    exact honly t

/-- At most `n` more commands are going to be repeated, in the worlds with `budget n`. -/
structure Bounded (M : Machine S ι W L α) (R : (c : S.Cmd) → (S.Resp c → Bool) → Prop)
    (budget : ℕ → W → Prop) : Prop where
  exec : ∀ {n t w l c r w' l'}, budget n w → M.exec t w l c = some (r, w', l') → budget n w'
  again : ∀ {n t w l c again r w' l'}, R c again → again r = true → budget n w →
    M.exec t w l c = some (r, w', l') → ∃ n' < n, budget n' w'
  abort : ∀ {n t w l}, budget n w → budget n (M.abort t w l).1

omit [DecidableEq ι] in
/-- One process leaves less to run and the others what they had: this cannot go on for ever. -/
theorem Program.less_wellFounded_pi [Finite ι] : WellFounded fun ps qs : ι → Program S α ↦
    ∃ t, Program.Less (ps t) (qs t) ∧ ∀ u, u ≠ t → ps u = qs u := by
  have hlex := Pi.Lex.wellFounded (α := fun _ : ι ↦ Program S α) WellOrderingRel
    fun _ ↦ Program.less_wellFounded
  refine Subrelation.wf ?_ hlex
  rintro ps qs ⟨t, hless, hother⟩
  refine ⟨t, fun u hu ↦ hother u ?_, hless⟩
  rintro rfl
  exact irrefl_of WellOrderingRel u hu

/-- **No infinite run.** Finitely many processes that repeat commands as long as the world allows it make
finitely many moves, whatever the scheduler does. -/
theorem Machine.acc_moves [Finite ι] {budget : ℕ → W → Prop} (hbounded : Bounded M R budget)
    (honly : ∀ t, Monitor.Only P R (s.prog t)) {n : ℕ} (hbudget : budget n s.world) :
    Acc (fun s' s ↦ ∃ m, M.next s m = some s') s := by
  -- by induction on the budget and, for the moves that leave it, on what is left to run
  induction n using Nat.strong_induction_on generalizing s with
  | _ n hless =>
    suffices hmoves : ∀ ps (s : State S ι W L α), s.prog = ps → (∀ t, Monitor.Only P R (s.prog t)) →
        budget n s.world → Acc (fun s' s ↦ ∃ m, M.next s m = some s') s from
      hmoves s.prog s rfl honly hbudget
    intro ps
    apply Program.less_wellFounded_pi.induction ps
    intro ps ih s hps honly hbudget
    refine .intro _ fun s' hmove ↦ ?_
    obtain ⟨m, hn⟩ := hmove
    have honly' := Monitor.Only.next honly hn
    obtain hrepeats | ⟨hsmaller, hother⟩ := Machine.next_less honly hn
    · obtain ⟨c, again, r, l, hR, hagain, hx⟩ := hrepeats.again
      obtain ⟨n', hlt, hbudget'⟩ := hbounded.again hR hagain hbudget hx
      exact hless n' hlt honly' hbudget'
    · have hbudget' : budget n s'.world := by
        cases m with
        | step t =>
          obtain ⟨c, r, w, l, p, -, hx, rfl⟩ := M.next_step_exec hn
          exact hbounded.exec hbudget hx
        | kill t =>
          obtain ⟨-, rfl⟩ := M.next_kill_cases hn
          exact hbounded.abort hbudget
      exact ih s'.prog ⟨m.process, hps ▸ hsmaller, fun u hu ↦ hps ▸ hother u hu⟩ s' rfl honly' hbudget'

/-- Where there are finitely many moves, no run is infinite. -/
theorem Machine.no_infinite_run (h : Acc (fun s' s ↦ ∃ m, M.next s m = some s') s) :
    ¬ ∃ run : ℕ → State S ι W L α, run 0 = s ∧ ∀ n, ∃ m, M.next (run n) m = some (run (n + 1)) := by
  induction h with
  | intro s _ ih =>
    rintro ⟨run, rfl, hrun⟩
    exact ih (run 1) (hrun 0) ⟨fun n ↦ run (n + 1), rfl, fun n ↦ hrun (n + 1)⟩

end Interleave
