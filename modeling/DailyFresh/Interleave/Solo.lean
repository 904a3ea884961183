import DailyFresh.Interleave.System
import Mathlib.Data.Nat.Notation
import Mathlib.Logic.Function.Iterate

/-!
# A program that runs alone

`Machine.solo n p w l` runs the program `p` of process `t` to its result with nobody else moving.
The number `n` bounds the rounds of each `poll`, the only construct that may go on for ever; a
program without one does not look at it. `solo` is undefined exactly when a command waits or a poll
outlasts the bound.

`Ends Q p w l` is total correctness of a run alone: the run comes to a result, and it satisfies `Q`. Its
rules follow the program's text. `Machine.series` runs a list of programs one after another, each alone.

Running alone is a special schedule: `reach_of_solo` turns a completed `solo` run into a run of any
system in which the process is about to start that program.
-/

namespace Interleave

variable {S : Signature} {ι W L α β γ : Type}

namespace Machine

variable (M : Machine S ι W L γ) (t : ι)

/-- Send `c` until an answer fails the test, at most `n` times. -/
def pollUntil (c : S.Cmd) (again : S.Resp c → Bool) : ℕ → W → L → Option (S.Resp c × W × L)
  | 0, _, _ => none
  | n + 1, w, l => (M.exec t w l c).bind fun x ↦
      if again x.1 then pollUntil c again n x.2.1 x.2.2 else some x

/-- Run a program to its result with no other process moving. -/
def solo (n : ℕ) : Program S α → W → L → Option (α × W × L)
  | .ret a, w, l => some (a, w, l)
  | .call c k, w, l => (M.exec t w l c).bind fun x ↦ solo n (k x.1) x.2.1 x.2.2
  | .poll c again k, w, l => (M.pollUntil t c again n w l).bind fun x ↦
      solo n (k x.1) x.2.1 x.2.2

variable {M t} {n : ℕ} {w : W} {l : L}

@[simp] theorem solo_ret (a : α) : M.solo t n (.ret a) w l = some (a, w, l) := rfl

theorem solo_call (c : S.Cmd) (k : S.Resp c → Program S α) :
    M.solo t n (.call c k) w l =
      (M.exec t w l c).bind fun x ↦ M.solo t n (k x.1) x.2.1 x.2.2 := rfl

theorem solo_poll (c : S.Cmd) (again : S.Resp c → Bool) (k : S.Resp c → Program S α) :
    M.solo t n (.poll c again k) w l =
      (M.pollUntil t c again n w l).bind fun x ↦ M.solo t n (k x.1) x.2.1 x.2.2 := rfl

/-- A command that can be executed is executed. -/
theorem solo_call_of_exec {c : S.Cmd} {k : S.Resp c → Program S α} {r : S.Resp c} {w' : W} {l' : L}
    (h : M.exec t w l c = some (r, w', l')) :
    M.solo t n (.call c k) w l = M.solo t n (k r) w' l' := by
  rw [solo_call, h, Option.bind_some]

theorem solo_bind (p : Program S α) (f : α → Program S β) :
    M.solo t n (p >>= f) w l =
      (M.solo t n p w l).bind fun x ↦ M.solo t n (f x.1) x.2.1 x.2.2 := by
  induction p generalizing w l with
  | ret a => rfl
  | call c k ih =>
    rw [Program.call_bind, solo_call, solo_call, Option.bind_assoc]
    exact congrArg _ (funext fun x ↦ ih x.1)
  | poll c again k ih =>
    rw [Program.poll_bind, solo_poll, solo_poll, Option.bind_assoc]
    exact congrArg _ (funext fun x ↦ ih x.1)

/-- **How long a poll lasts.** When the command is never held up and leaves the local part alone, `poll`
ends with the first answer that fails the test, if that comes within the bound. -/
theorem pollUntil_eq_some_iff {c : S.Cmd} {again : S.Resp c → Bool} {answer : W → S.Resp c}
    {after : W → W} (hexec : ∀ w, M.exec t w l c = some (answer w, after w, l))
    {x : S.Resp c × W × L} : M.pollUntil t c again n w l = some x ↔
      ∃ k < n, (∀ i < k, again (answer (after^[i] w)) = true) ∧
        again (answer (after^[k] w)) = false ∧
        x = (answer (after^[k] w), after^[k + 1] w, l) := by
  induction n generalizing w with
  | zero => simp [pollUntil]
  | succ n ih =>
    rw [pollUntil, hexec, Option.bind_some]
    show (if again (answer w) = true then M.pollUntil t c again n (after w) l else _) = _ ↔ _
    by_cases hw : again (answer w) = true
    · rw [if_pos hw, ih]
      constructor
      · rintro ⟨k, hk, hbefore, hend, hx⟩
        refine ⟨k + 1, by omega, fun i hi ↦ ?_, hend, hx⟩
        rcases i with - | i
        · exact hw
        · exact hbefore i (by omega)
      · rintro ⟨k, hk, hbefore, hend, hx⟩
        rcases k with - | k
        · exact absurd (hw.symm.trans hend) (by simp)
        · exact ⟨k, by omega, fun i hi ↦ hbefore (i + 1) (by omega), hend, hx⟩
    · rw [if_neg hw]
      constructor
      · intro hx
        refine ⟨0, by omega, fun i hi ↦ absurd hi (by omega), ?_, (Option.some.inj hx).symm⟩
        exact Bool.eq_false_iff.2 hw
      · rintro ⟨k, -, hbefore, -, rfl⟩
        rcases k with - | k
        · rfl
        · exact absurd (hbefore 0 (by omega)) hw

/-! ### Specifications of runs alone -/

variable (M t n)

/-- The program, run alone, comes to a result, and the result satisfies `Q`. -/
def Ends (Q : α → W → L → Prop) (p : Program S α) (w : W) (l : L) : Prop :=
  ∃ a w' l', M.solo t n p w l = some (a, w', l') ∧ Q a w' l'

variable {M t n} {P : α → W → L → Prop} {Q : β → W → L → Prop}

theorem Ends.ret {b : β} (h : Q b w l) : M.Ends t n Q (.ret b) w l := ⟨b, w, l, rfl, h⟩

/-- The rule for one command. -/
theorem Ends.call {c : S.Cmd} {k : S.Resp c → Program S β} {r : S.Resp c} {w' : W} {l' : L}
    (hx : M.exec t w l c = some (r, w', l')) (h : M.Ends t n Q (k r) w' l') :
    M.Ends t n Q (.call c k) w l := by
  obtain ⟨b, w'', l'', hsolo, hQ⟩ := h
  exact ⟨b, w'', l'', (solo_call_of_exec hx).trans hsolo, hQ⟩

/-- **Sequencing.** -/
theorem Ends.bind {p : Program S α} {f : α → Program S β} (hp : M.Ends t n P p w l)
    (hf : ∀ a w l, P a w l → M.Ends t n Q (f a) w l) : M.Ends t n Q (p >>= f) w l := by
  obtain ⟨a, w', l', hsolo, hP⟩ := hp
  obtain ⟨b, w'', l'', hsolo', hQ⟩ := hf a w' l' hP
  exact ⟨b, w'', l'', by rw [solo_bind, hsolo, Option.bind_some, hsolo'], hQ⟩

theorem Ends.mono {P' : α → W → L → Prop} {p : Program S α} (h : M.Ends t n P p w l)
    (hP : ∀ a w l, P a w l → P' a w l) : M.Ends t n P' p w l := by
  obtain ⟨a, w', l', hsolo, h⟩ := h
  exact ⟨a, w', l', hsolo, hP _ _ _ h⟩

/-- The result of a run alone is the specified one. -/
theorem Ends.of_solo {p : Program S α} (h : M.Ends t n P p w l) {a : α} {w' : W} {l' : L}
    (hsolo : M.solo t n p w l = some (a, w', l')) : P a w' l' := by
  obtain ⟨b, w'', l'', hsolo', hP⟩ := h
  cases hsolo.symm.trans hsolo'
  exact hP

/-! ### One after another -/

section Series

variable (M n) (l₀ : L)

/-- Run programs one after another, each alone and each from the local part `l₀`. -/
def series : List (ι × Program S α) → W → Option W
  | [], w => some w
  | (t, p) :: rest, w => (M.solo t n p w l₀).bind fun x ↦ series rest x.2.1

variable {M n l₀} {ps : List (ι × Program S α)} {p : Program S α}

theorem series_concat : M.series n l₀ (ps ++ [(t, p)]) w =
    (M.series n l₀ ps w).bind fun w' ↦ (M.solo t n p w' l₀).map fun x ↦ x.2.1 := by
  induction ps generalizing w with
  | nil =>
    show (M.solo t n p w l₀).bind (fun x ↦ some x.2.1) = (M.solo t n p w l₀).map fun x ↦ x.2.1
    exact Option.map_eq_bind.symm
  | cons q ps ih =>
    obtain ⟨u, q⟩ := q
    rw [List.cons_append, series, series, Option.bind_assoc]
    exact congrArg _ (funext fun x ↦ ih)

/-- One more program. -/
theorem Ends.series {P : α → W → L → Prop} {w' : W} (h : M.Ends t n P p w' l₀)
    (hps : M.series n l₀ ps w = some w') :
    ∃ a w'' l, M.series n l₀ (ps ++ [(t, p)]) w = some w'' ∧ P a w'' l := by
  obtain ⟨a, w'', l, hsolo, hP⟩ := h
  exact ⟨a, w'', l, by rw [series_concat, hps, Option.bind_some, hsolo, Option.map_some], hP⟩

section Turns

variable {R : Type} (M n l₀) (turn : R → ι × Program S α)

/-- In a series of programs — those that belong to the elements of a list — every one of them, run alone,
comes to a result, and `P` holds of the worlds before and after it and of its result. -/
def EachTurn (P : W → R → α → W → Prop) : List R → W → Prop
  | [], _ => True
  | x :: xs, w => ∃ a w' l, M.solo (turn x).1 n (turn x).2 w l₀ = some (a, w', l) ∧ P w x a w' ∧
      EachTurn P xs w'

variable {M n l₀ turn}

/-- **When every turn is good.** If, in every world with `I`, a turn comes to an end, is good exactly if
it satisfies `C`, and leaves a world with `I` if it is good, then all turns of a series are good exactly if
all of them satisfy `C`. -/
theorem eachTurn_iff {I : W → Prop} {P : W → R → α → W → Prop} {C : W → R → Prop} {xs : List R}
    (h : ∀ x ∈ xs, ∀ w, I w → M.Ends (turn x).1 n
      (fun a w' _ ↦ (P w x a w' ↔ C w x) ∧ (P w x a w' → I w')) (turn x).2 w l₀) (hI : I w) :
    M.EachTurn n l₀ turn P xs w ↔ M.EachTurn n l₀ turn (fun w x _ _ ↦ C w x) xs w := by
  induction xs generalizing w with
  | nil => exact Iff.rfl
  | cons x xs ih =>
    have hx := h x List.mem_cons_self w hI
    have hrest := fun w' ↦ ih (w := w') fun y hy ↦ h y (List.mem_cons_of_mem _ hy)
    constructor
    · rintro ⟨a, w', l, hsolo, hP, hall⟩
      obtain ⟨hiff, hnext⟩ := hx.of_solo hsolo
      exact ⟨a, w', l, hsolo, hiff.1 hP, (hrest w' (hnext hP)).1 hall⟩
    · rintro ⟨a, w', l, hsolo, hC, hall⟩
      obtain ⟨hiff, hnext⟩ := hx.of_solo hsolo
      have hP := hiff.2 hC
      exact ⟨a, w', l, hsolo, hP, (hrest w' (hnext hP)).2 hall⟩

end Turns

end Series

/-! ### Running alone is a schedule -/

variable [DecidableEq ι] {M : Machine S ι W L γ} {s : State S ι W L γ}

theorem put_put (s : State S ι W L γ) (w w' : W) (l l' : L) (p p' : Program S γ) :
    (s.put t w l p).put t w' l' p' = s.put t w' l' p' := by
  simp only [State.put, Function.update_idem]

theorem put_self (s : State S ι W L γ) : s.put t s.world (s.loc t) (s.prog t) = s := by
  simp only [State.put, Function.update_eq_self]

theorem reach_of_pollUntil {c : S.Cmd} {again : S.Resp c → Bool} {k : S.Resp c → Program S γ}
    {x : S.Resp c × W × L} (h : M.pollUntil t c again n w l = some x) :
    M.Reach AnyMove (s.put t w l (.poll c again k)) (s.put t x.2.1 x.2.2 (k x.1)) := by
  induction n generalizing w l with
  | zero => cases h
  | succ n ih =>
    rw [pollUntil] at h
    obtain ⟨⟨r, w', l'⟩, hx, hrest⟩ := Option.bind_eq_some_iff.1 h
    have hnext : M.next (s.put t w l (.poll c again k)) (.step t) =
        some (s.put t w' l' (if again r then .poll c again k else k r)) := by
      rw [next, State.put_prog_self]
      simp only [State.put_world, State.put_loc_self, hx, Option.map_some, put_put]
    refine (Reach.move .refl trivial hnext).trans ?_
    split at hrest
    · rename_i ha
      rw [if_pos ha]
      exact ih hrest
    · rename_i ha
      cases hrest
      rw [if_neg ha]
      exact .refl

/-- **A run alone is a run.** -/
theorem reach_of_solo {p : Program S γ} {a : γ} {w' : W} {l' : L}
    (h : M.solo t n p w l = some (a, w', l')) :
    M.Reach AnyMove (s.put t w l p) (s.put t w' l' (.ret a)) := by
  induction p generalizing w l with
  | ret b => cases h; exact .refl
  | call c k ih =>
    rw [solo_call] at h
    obtain ⟨⟨r, w₁, l₁⟩, hx, hrest⟩ := Option.bind_eq_some_iff.1 h
    have hnext : M.next (s.put t w l (.call c k)) (.step t) = some (s.put t w₁ l₁ (k r)) := by
      rw [next, State.put_prog_self]
      simp only [State.put_world, State.put_loc_self, hx, Option.map_some, put_put]
    exact (Reach.move .refl trivial hnext).trans (ih r hrest)
  | poll c again k ih =>
    rw [solo_poll] at h
    obtain ⟨x, hx, hrest⟩ := Option.bind_eq_some_iff.1 h
    exact (reach_of_pollUntil hx).trans (ih x.1 hrest)

end Machine

end Interleave
