import DailyFresh.Interleave.System

/-!
# Rely and guarantee

A **contract** says what the processes of a system may assume of each other: an invariant of the
shared world, the changes of the world that process `t` tolerates while it waits (`rely t`, a
preorder), and what a move of `t` promises beyond that (`promise t`).

`Safe C t Q p w l` is the weakest precondition of the program `p` of process `t` under the
contract: wherever the other processes have moved the world to, within `rely t`, the next command of
`p` keeps the invariant, stays within the rely of every other process, keeps the promise, and
leaves a safe program; a returned result satisfies `Q`, and goes on satisfying it. It is defined by
recursion on the program, so a proof of safety follows the program's text (`Safe.call`,
`Safe.poll`, `Safe.bind`) and never looks at another process.

`Contract.sound` is the theorem this buys: if every process starts safe, then in every reachable
state — any number of processes, any interleaving, any of them killed at any point — the invariant
holds and every process is still safe; and every move keeps the promise (`Contract.sound_move`).
-/

namespace Interleave

variable {S : Signature} {ι W L α β γ : Type}

/-- What the processes of a system may assume of each other and owe to each other. -/
structure Contract (ι W : Type) where
  /-- The invariant of the shared world. -/
  inv : W → Prop
  /-- The changes of the world by others that process `t` tolerates. -/
  rely : ι → W → W → Prop
  /-- What a move of process `t` promises, beyond the invariant and the others' rely. -/
  promise : ι → W → W → Prop
  /-- Nothing having happened is tolerated. -/
  rely_refl : ∀ t w, rely t w w
  /-- Two tolerated changes in a row are tolerated. -/
  rely_trans : ∀ {t w₁ w₂ w₃}, rely t w₁ w₂ → rely t w₂ w₃ → rely t w₁ w₃

namespace Contract

variable (C : Contract ι W)

/-- What process `t` owes for a move of the world from `w` to `w'`. -/
structure Guar (t : ι) (w w' : W) : Prop where
  /-- The invariant is kept. -/
  inv : C.inv w'
  /-- Every other process tolerates the move. -/
  rely : ∀ u, u ≠ t → C.rely u w w'
  /-- The promise is kept. -/
  promise : C.promise t w w'

/-- An assertion of process `t` about the world and its own local part that no tolerated change
destroys. -/
def Stable (t : ι) (A : W → L → Prop) : Prop :=
  ∀ w l w', A w l → C.rely t w w' → C.inv w' → A w' l

end Contract

variable (M : Machine S ι W L α) (C : Contract ι W)

/-- Safety of a program of process `t` with the result condition `Q`. -/
def Safe (t : ι) (Q : β → W → L → Prop) : Program S β → W → L → Prop
  | .ret a, w, l => ∀ w', C.rely t w w' → C.inv w' → Q a w' l
  | .call c k, w, l => ∀ w', C.rely t w w' → C.inv w' →
      ∀ r w'' l', M.exec t w' l c = some (r, w'', l') → C.Guar t w' w'' ∧ Safe t Q (k r) w'' l'
  | .poll c again k, w, l => ∃ J : W → L → Prop, J w l ∧ C.Stable t J ∧
      ∀ w l, J w l → C.inv w → ∀ r w' l', M.exec t w l c = some (r, w', l') →
        C.Guar t w w' ∧ if again r then J w' l' else Safe t Q (k r) w' l'

namespace Safe

variable {M C} {t : ι} {Q : β → W → L → Prop}

/-- The rule for a returned result: a stable condition that holds now. -/
theorem ret {A : W → L → Prop} (hstable : C.Stable t A) {a : β} {w : W} {l : L} (hA : A w l)
    (h : ∀ w l, C.inv w → A w l → Q a w l) : Safe M C t Q (.ret a) w l :=
  fun _ hr hi ↦ h _ _ hi (hstable _ _ _ hA hr hi)

/-- The rule for one command: a stable assertion holds before it, and from the assertion the
command owes what it owes and leaves a safe continuation. -/
theorem call {A : W → L → Prop} (hstable : C.Stable t A) {c : S.Cmd} {k : S.Resp c → Program S β}
    {w : W} {l : L} (hA : A w l)
    (h : ∀ w l r w' l', C.inv w → A w l → M.exec t w l c = some (r, w', l') →
      C.Guar t w w' ∧ Safe M C t Q (k r) w' l') : Safe M C t Q (.call c k) w l :=
  fun _ hr hi r _ _ hx ↦ h _ _ r _ _ hi (hstable _ _ _ hA hr hi) hx

/-- The rule for polling: a stable assertion that every repeated round keeps. -/
theorem poll {J : W → L → Prop} (hstable : C.Stable t J) {c : S.Cmd} {again : S.Resp c → Bool}
    {k : S.Resp c → Program S β} {w : W} {l : L} (hJ : J w l)
    (h : ∀ w l r w' l', C.inv w → J w l → M.exec t w l c = some (r, w', l') →
      C.Guar t w w' ∧ if again r then J w' l' else Safe M C t Q (k r) w' l') :
    Safe M C t Q (.poll c again k) w l :=
  ⟨J, hJ, hstable, fun _ _ hJ hi r _ _ hx ↦ h _ _ r _ _ hi hJ hx⟩

/-- Safety is itself stable: it already quantifies over what the others may do first. -/
theorem stable {p : Program S β} : C.Stable t (Safe M C t Q p) := by
  intro w l w' hs hr hi
  cases p with
  | ret a => exact fun w'' hr' hi' ↦ hs w'' (C.rely_trans hr hr') hi'
  | call c k => exact fun w'' hr' hi' ↦ hs w'' (C.rely_trans hr hr') hi'
  | poll c again k =>
    obtain ⟨J, hJ, hstable, h⟩ := hs
    exact ⟨J, hstable _ _ _ hJ hr hi, hstable, h⟩

/-- **Sequencing.** -/
theorem bind {p : Program S γ} {f : γ → Program S β} {w : W} {l : L}
    (hi : C.inv w) (h : Safe M C t (fun a w l ↦ C.inv w → Safe M C t Q (f a) w l) p w l) :
    Safe M C t Q (p >>= f) w l := by
  induction p generalizing w l with
  | ret a => exact h w (C.rely_refl t w) hi hi
  | call c k ih =>
    intro w' hr hi' r w'' l' hx
    obtain ⟨hg, hs⟩ := h w' hr hi' r w'' l' hx
    exact ⟨hg, ih r hg.inv hs⟩
  | poll c again k ih =>
    obtain ⟨J, hJ, hstable, hround⟩ := h
    refine ⟨J, hJ, hstable, fun w l hJ hi r w' l' hx ↦ ?_⟩
    obtain ⟨hg, hs⟩ := hround w l hJ hi r w' l' hx
    refine ⟨hg, ?_⟩
    split
    · rename_i ha; rwa [if_pos ha] at hs
    · rename_i ha; rw [if_neg ha] at hs; exact ih r hg.inv hs

/-- Weakening of the result condition, under the invariant. -/
theorem mono {Q' : β → W → L → Prop} (hQ : ∀ a w l, C.inv w → Q a w l → Q' a w l)
    {p : Program S β} {w : W} {l : L} (h : Safe M C t Q p w l) : Safe M C t Q' p w l := by
  induction p generalizing w l with
  | ret a => exact fun w' hr hi ↦ hQ a w' l hi (h w' hr hi)
  | call c k ih =>
    intro w' hr hi r w'' l' hx
    exact (h w' hr hi r w'' l' hx).imp_right (ih r)
  | poll c again k ih =>
    obtain ⟨J, hJ, hstable, hround⟩ := h
    refine ⟨J, hJ, hstable, fun w l hJ hi r w' l' hx ↦ ?_⟩
    obtain ⟨hg, hs⟩ := hround w l hJ hi r w' l' hx
    refine ⟨hg, ?_⟩
    split
    · rename_i ha; rwa [if_pos ha] at hs
    · rename_i ha; rw [if_neg ha] at hs; exact ih r hs

end Safe

/-! ### Soundness -/

section Sound

variable [DecidableEq ι] {M C} {Q : ι → α → W → L → Prop}

/-- The world satisfies the invariant and every process is safe. -/
def AllSafe (M : Machine S ι W L α) (C : Contract ι W) (Q : ι → α → W → L → Prop)
    (s : State S ι W L α) : Prop :=
  C.inv s.world ∧ ∀ t, Safe M C t (Q t) (s.prog t) s.world (s.loc t)

/-- A killed process does what it owes, and its reported result satisfies every `Q`. -/
structure AbortOk (M : Machine S ι W L α) (C : Contract ι W) (Q : ι → α → W → L → Prop) :
    Prop where
  guar : ∀ t w l, C.inv w → C.Guar t w (M.abort t w l).1
  crash : ∀ t w l, Q t M.crash w l

/-- The local half of soundness: the moving process owes what it owes and is safe afterwards. -/
theorem safe_next (ha : AbortOk M C Q) {s s' : State S ι W L α} {m : Move ι}
    (hs : AllSafe M C Q s) (hn : M.next s m = some s') :
    C.Guar m.process s.world s'.world ∧
      Safe M C m.process (Q m.process) (s'.prog m.process) s'.world (s'.loc m.process) := by
  obtain ⟨hi, hsafe⟩ := hs
  cases m with
  | step t =>
    have ht := hsafe t
    obtain ⟨c, k, r, w, l, hp, hx, rfl⟩ | ⟨c, again, k, r, w, l, hp, hx, rfl⟩ :=
      M.next_step_cases hn
    · rw [hp] at ht
      simpa [Move.process] using ht _ (C.rely_refl t _) hi r w l hx
    · rw [hp] at ht
      obtain ⟨J, hJ, hstable, hround⟩ := ht
      obtain ⟨hg, hrest⟩ := hround _ _ hJ hi r w l hx
      refine ⟨by simpa [Move.process] using hg, ?_⟩
      simp only [Move.process, State.put_prog_self, State.put_world, State.put_loc_self]
      split
      · rename_i hagain
        rw [if_pos hagain] at hrest
        exact ⟨J, hrest, hstable, hround⟩
      · rename_i hagain
        rwa [if_neg hagain] at hrest
  | kill t =>
    obtain ⟨-, rfl⟩ := M.next_kill_cases hn
    refine ⟨by simpa [Move.process] using ha.guar t _ (s.loc t) hi, ?_⟩
    simp only [Move.process, State.put_prog_self]
    exact fun w' _ _ ↦ ha.crash t w' _

/-- One move keeps everybody safe: the mover by its own proof, the others because it stayed within
their rely. -/
theorem AllSafe.next (ha : AbortOk M C Q) {s s' : State S ι W L α} {m : Move ι}
    (hs : AllSafe M C Q s) (hn : M.next s m = some s') : AllSafe M C Q s' := by
  obtain ⟨hg, hself⟩ := safe_next ha hs hn
  refine ⟨hg.inv, fun u ↦ ?_⟩
  by_cases hu : u = m.process
  · exact hu ▸ hself
  · obtain ⟨hp, hl⟩ := M.next_other hn hu
    rw [hp, hl]
    exact Safe.stable _ _ _ (hs.2 u) (hg.rely u hu) hg.inv

/-- **Soundness.** Safe processes stay safe, and the invariant holds, in every reachable state. -/
theorem Contract.sound (ha : AbortOk M C Q) {ok : State S ι W L α → Move ι → Prop}
    {s₀ s : State S ι W L α} (h₀ : AllSafe M C Q s₀) (hs : M.Reach ok s₀ s) : AllSafe M C Q s :=
  hs.invariant h₀ fun _ _ _ h _ hn ↦ h.next ha hn

/-- Every move out of a reachable state keeps the mover's promise. -/
theorem Contract.sound_move (ha : AbortOk M C Q) {ok : State S ι W L α → Move ι → Prop}
    {s₀ s s' : State S ι W L α} (h₀ : AllSafe M C Q s₀) (hs : M.Reach ok s₀ s) {m : Move ι}
    (hn : M.next s m = some s') : C.Guar m.process s.world s'.world :=
  (safe_next ha (C.sound ha h₀ hs) hn).1

/-- The result of a process that has returned satisfies its condition. -/
theorem Contract.sound_result (ha : AbortOk M C Q) {ok : State S ι W L α → Move ι → Prop}
    {s₀ s : State S ι W L α} (h₀ : AllSafe M C Q s₀) (hs : M.Reach ok s₀ s) {t : ι} {a : α}
    (ht : s.prog t = .ret a) : Q t a s.world (s.loc t) := by
  obtain ⟨hi, hsafe⟩ := C.sound ha h₀ hs
  have h := hsafe t
  rw [ht] at h
  exact h _ (C.rely_refl t _) hi

end Sound

end Interleave
