import DailyFresh.Interleave.System

/-!
# What a program does on all its paths

What a process has left to run is determined by the answers it has got, whatever the others did in
between. `Throughout entry P p es` says that `P` holds of every point that the program `p` can come to:
of the **log** of its commands with their answers, newest first, that begins with `es`, and of what is
left to run. Like `Safe` it is defined by recursion on the program, but it looks at no world: all answers
are possible.

`Logs` says that the world keeps such logs. `Throughout.of_reach` then turns a property of all paths into
a property of all reachable states, for every process that has not been killed.
-/

namespace Interleave

variable {S : Signature} {ι W L E α β : Type}

/-- `P` holds at every point of every path of the program. -/
def Throughout (entry : (c : S.Cmd) → S.Resp c → E) (P : List E → Program S α → Prop) :
    Program S α → List E → Prop
  | .ret a, es => P es (.ret a)
  | .call c k, es => P es (.call c k) ∧ ∀ r, Throughout entry P (k r) (entry c r :: es)
  | .poll c again k, es => ∃ J : List E → Prop, J es ∧ ∀ es, J es → P es (.poll c again k) ∧
      ∀ r, if again r then J (entry c r :: es) else Throughout entry P (k r) (entry c r :: es)

namespace Throughout

variable {entry : (c : S.Cmd) → S.Resp c → E} {P : List E → Program S α → Prop} {p : Program S α}
  {es : List E}

/-- The first point of a path is the present one. -/
theorem now (h : Throughout entry P p es) : P es p := by
  cases p with
  | ret a => exact h
  | call c k => exact h.1
  | poll c again k =>
    obtain ⟨J, hJ, hround⟩ := h
    exact (hround es hJ).1

/-- **Sequencing.** What is known of the points of the first program gives what is wanted of them, and of
the programs that follow its results. -/
theorem bind {P' : List E → Program S β → Prop} {f : α → Program S β} (h : Throughout entry P p es)
    (hask : ∀ es q, P es q → q.result? = none → P' es (q >>= f))
    (hret : ∀ es a, P es (.ret a) → Throughout entry P' (f a) es) :
    Throughout entry P' (p >>= f) es := by
  induction p generalizing es with
  | ret a => exact hret es a h
  | call c k ih => exact ⟨hask _ _ h.1 rfl, fun r ↦ ih r (h.2 r)⟩
  | poll c again k ih =>
    obtain ⟨J, hJ, hround⟩ := h
    refine ⟨J, hJ, fun es hJ ↦ ⟨hask _ _ (hround es hJ).1 rfl, fun r ↦ ?_⟩⟩
    have hr := (hround es hJ).2 r
    split
    · rename_i hagain
      rwa [if_pos hagain] at hr
    · rename_i hagain
      rw [if_neg hagain] at hr
      exact ih r hr

end Throughout

/-- The world keeps a log of each process. -/
structure Machine.Logs (M : Machine S ι W L α) (entry : ι → (c : S.Cmd) → S.Resp c → E)
    (log : ι → W → List E) : Prop where
  own : ∀ {t w l c r w' l'}, M.exec t w l c = some (r, w', l') → log t w' = entry t c r :: log t w
  other : ∀ {t u w l c r w' l'}, u ≠ t → M.exec t w l c = some (r, w', l') → log u w' = log u w
  abort : ∀ {t u w l}, u ≠ t → log u (M.abort t w l).1 = log u w

variable [DecidableEq ι] {M : Machine S ι W L α} {entry : ι → (c : S.Cmd) → S.Resp c → E}
  {log : ι → W → List E} {P : List E → Program S α → Prop} {t : ι}

/-- One move, of anybody, that does not kill the process. -/
theorem Throughout.next (hlog : M.Logs entry log) {s s' : State S ι W L α} {m : Move ι}
    (h : Throughout (entry t) P (s.prog t) (log t s.world)) (hn : M.next s m = some s')
    (hm : m ≠ .kill t) : Throughout (entry t) P (s'.prog t) (log t s'.world) := by
  by_cases ht : t = m.process
  · cases m with
    | kill u => exact absurd (congrArg Move.kill ht).symm hm
    | step u =>
      obtain rfl : t = u := ht
      obtain ⟨c, k, r, w, l, hp, hx, rfl⟩ | ⟨c, again, k, r, w, l, hp, hx, rfl⟩ := M.next_step_cases hn
      · rw [hp] at h
        rw [State.put_prog_self, State.put_world, hlog.own hx]
        exact h.2 r
      · rw [hp] at h
        rw [State.put_prog_self, State.put_world, hlog.own hx]
        obtain ⟨J, hJ, hround⟩ := h
        have hr := (hround _ hJ).2 r
        split
        · rename_i hagain
          rw [if_pos hagain] at hr
          exact ⟨J, hr, hround⟩
        · rename_i hagain
          rwa [if_neg hagain] at hr
  · obtain ⟨hp, -⟩ := M.next_other hn ht
    rw [hp]
    have hsame : log t s'.world = log t s.world := by
      cases m with
      | step u =>
        obtain ⟨c, r, w, l, p, -, hx, rfl⟩ := M.next_step_exec hn
        exact hlog.other ht hx
      | kill u =>
        obtain ⟨-, rfl⟩ := M.next_kill_cases hn
        exact hlog.abort ht
    rwa [hsame]

/-- **Every point of a run is a point of a path**, for a process that is not killed. -/
theorem Throughout.of_reach (hlog : M.Logs entry log) {ok : State S ι W L α → Move ι → Prop}
    (hok : ∀ s, ¬ ok s (.kill t)) {s₀ s : State S ι W L α}
    (h : Throughout (entry t) P (s₀.prog t) (log t s₀.world)) (hs : M.Reach ok s₀ s) :
    P (log t s.world) (s.prog t) := by
  refine Throughout.now (hs.invariant
    (I := fun s ↦ Throughout (entry t) P (s.prog t) (log t s.world)) h ?_)
  intro s m s' h hm hn
  refine h.next hlog hn fun hkill ↦ ?_
  rw [hkill] at hm
  exact hok s hm

/-- At every point of a run the process is on a path, or it has been killed. -/
theorem Throughout.of_reach_or (hlog : M.Logs entry log) {ok : State S ι W L α → Move ι → Prop}
    {s₀ s : State S ι W L α} (h : Throughout (entry t) P (s₀.prog t) (log t s₀.world))
    (hs : M.Reach ok s₀ s) :
    s.prog t = .ret M.crash ∨ Throughout (entry t) P (s.prog t) (log t s.world) := by
  induction hs with
  | refl => exact .inr h
  | @move s s' m _ _ hn ih =>
    by_cases hm : m = .kill t
    · subst hm
      obtain ⟨-, rfl⟩ := M.next_kill_cases hn
      exact .inl (State.put_prog_self ..)
    rcases ih with hdead | h
    · by_cases ht : t = m.process
      · cases m with
        | kill u => exact absurd (congrArg Move.kill ht).symm hm
        | step u =>
          obtain rfl : t = u := ht
          rw [Machine.next, hdead] at hn
          cases hn
      · exact .inl ((M.next_other hn ht).1.trans hdead)
    · exact .inr (h.next hlog hn hm)

/-- A process that is about to send a command has not been killed. -/
theorem Throughout.of_reach_of_next (hlog : M.Logs entry log) {ok : State S ι W L α → Move ι → Prop}
    {s₀ s : State S ι W L α} (h : Throughout (entry t) P (s₀.prog t) (log t s₀.world))
    (hs : M.Reach ok s₀ s) {c : S.Cmd} (hc : (s.prog t).next? = some c) :
    Throughout (entry t) P (s.prog t) (log t s.world) := by
  rcases h.of_reach_or hlog hs with hdead | hpath
  · rw [hdead] at hc
    cases hc
  · exact hpath

end Interleave
