import DailyFresh.Interleave.Monitor

/-!
# Processes that nobody notices

Some processes of a system are *shown*, the others are *hidden*. When do the hidden ones have no influence
on the shown ones? `Unwinding` says it about single commands, for a relation `E` between two worlds that
look alike to the shown processes:

* what a hidden process sends, and its death, lead to a world that looks as before;
* what a shown process sends is answered alike in worlds that look alike, and they go on looking alike.

`Unwinding.perform` is what this buys for runs: in a system that looks alike at the start, in which the
hidden processes may be any others or none, the moves of the shown processes are a run, and what they have
left to run, their results among it, is the same at its end.
-/

namespace Interleave

variable {S : Signature} {ι W L α : Type} [DecidableEq ι] {M : Machine S ι W L α} {P : ι → S.Cmd → Prop}

/-- What the processes send satisfies `P`, also after a move. -/
theorem Monitor.Sends.next {s s' : State S ι W L α} {m : Move ι} (h : ∀ t, Monitor.Sends (P t) (s.prog t))
    (hn : M.next s m = some s') (t : ι) : Monitor.Sends (P t) (s'.prog t) := by
  let watch (t : ι) : Monitor S Unit := { allowed := fun _ c ↦ P t c, after := fun _ _ _ ↦ () }
  have hfollows : Monitor.Follows watch M fun _ _ _ _ ↦ True :=
    ⟨fun _ _ ↦ trivial, fun _ _ _ ↦ trivial, fun _ ↦ trivial, fun _ _ ↦ trivial⟩
  obtain ⟨_, -, hsends⟩ := hfollows.next (fun t ↦ ⟨(), trivial, h t⟩) hn t
  exact hsends

/-- What the processes send satisfies `P`, in every state of a run. -/
theorem Monitor.Sends.of_reach {ok : State S ι W L α → Move ι → Prop} {s₀ s : State S ι W L α}
    (h : ∀ t, Monitor.Sends (P t) (s₀.prog t)) (hs : M.Reach ok s₀ s) (t : ι) :
    Monitor.Sends (P t) (s.prog t) :=
  hs.invariant (I := fun s ↦ ∀ t, Monitor.Sends (P t) (s.prog t)) h
    (fun _ _ _ hI _ hn ↦ Monitor.Sends.next hI hn) t

/-- The next command of a program that sends commands with `P`. -/
theorem Monitor.Sends.allowed {P : S.Cmd → Prop} {p : Program S α} (h : Monitor.Sends P p) {c : S.Cmd}
    (hc : p.next? = some c) : P c := Monitor.Accepts.allowed h hc

/-- The hidden processes, which send commands with `P`, have no influence on the shown ones. -/
structure Unwinding (M : Machine S ι W L α) (shown : ι → Prop) (P : ι → S.Cmd → Prop)
    (E : W → W → Prop) : Prop where
  symm : ∀ {w v}, E w v → E v w
  hidden : ∀ {t w v l c r w' l'}, ¬ shown t → P t c → E w v → M.exec t w l c = some (r, w', l') → E w' v
  hiddenAbort : ∀ {t w v l}, ¬ shown t → E w v → E (M.abort t w l).1 v
  step : ∀ {t w v l c r w' l'}, shown t → P t c → E w v → M.exec t w l c = some (r, w', l') →
    ∃ v', M.exec t v l c = some (r, v', l') ∧ E w' v'
  abort : ∀ {t w v l}, shown t → E w v →
    (M.abort t v l).2 = (M.abort t w l).2 ∧ E (M.abort t w l).1 (M.abort t v l).1

/-- Two states that look alike to the shown processes. -/
structure Alike (shown : ι → Prop) (E : W → W → Prop) (s s' : State S ι W L α) : Prop where
  world : E s.world s'.world
  loc : ∀ t, shown t → s'.loc t = s.loc t
  prog : ∀ t, shown t → s'.prog t = s.prog t

namespace Alike

variable {shown : ι → Prop} {E : W → W → Prop} {s s' : State S ι W L α} {t : ι} {w v : W} {l : L}
  {p : Program S α}

omit [DecidableEq ι] in
theorem symm (h : Alike shown E s s') (hsymm : ∀ {w v}, E w v → E v w) : Alike shown E s' s :=
  ⟨hsymm h.world, fun t ht ↦ (h.loc t ht).symm, fun t ht ↦ (h.prog t ht).symm⟩

/-- A hidden process moves, to a world that looks as before. -/
theorem put_hidden (h : Alike shown E s s') (ht : ¬ shown t) (hw : E w s'.world) :
    Alike shown E (s.put t w l p) s' where
  world := hw
  loc u hu := by
    have hne : u ≠ t := fun heq ↦ ht (heq ▸ hu)
    rw [s.put_loc_of_ne _ _ _ hne]
    exact h.loc u hu
  prog u hu := by
    have hne : u ≠ t := fun heq ↦ ht (heq ▸ hu)
    rw [s.put_prog_of_ne _ _ _ hne]
    exact h.prog u hu

/-- A process makes the same move in both states. -/
theorem put (h : Alike shown E s s') (hw : E w v) :
    Alike shown E (s.put t w l p) (s'.put t v l p) where
  world := hw
  loc u hu := by
    rcases eq_or_ne u t with rfl | hne
    · rw [State.put_loc_self, State.put_loc_self]
    · rw [s.put_loc_of_ne _ _ _ hne, s'.put_loc_of_ne _ _ _ hne]
      exact h.loc u hu
  prog u hu := by
    rcases eq_or_ne u t with rfl | hne
    · rw [State.put_prog_self, State.put_prog_self]
    · rw [s.put_prog_of_ne _ _ _ hne, s'.put_prog_of_ne _ _ _ hne]
      exact h.prog u hu

end Alike

namespace Unwinding

variable {shown : ι → Prop} {E : W → W → Prop} {s s₁ s' : State S ι W L α} {m : Move ι}

/-- **A hidden move** changes nothing that the shown processes see. -/
theorem next_hidden (h : Unwinding M shown P E) (hsends : ∀ t, Monitor.Sends (P t) (s.prog t))
    (hs : Alike shown E s s') (hn : M.next s m = some s₁) (hm : ¬ shown m.process) :
    Alike shown E s₁ s' := by
  cases m with
  | step t =>
    obtain ⟨c, r, w, l, p, hc, hx, rfl⟩ := M.next_step_exec hn
    exact hs.put_hidden hm (h.hidden hm ((hsends t).allowed hc) hs.world hx)
  | kill t =>
    obtain ⟨-, rfl⟩ := M.next_kill_cases hn
    exact hs.put_hidden hm (h.hiddenAbort hm hs.world)

/-- **A shown move** is a move in the other state as well. -/
theorem next_shown (h : Unwinding M shown P E)
    (hsends : ∀ t, shown t → Monitor.Sends (P t) (s.prog t)) (hs : Alike shown E s s')
    (hn : M.next s m = some s₁) (hm : shown m.process) :
    ∃ s₁', M.next s' m = some s₁' ∧ Alike shown E s₁ s₁' := by
  cases m with
  | step t =>
    have hm : shown t := hm
    have hprog : s'.prog t = s.prog t := hs.prog t hm
    have hloc : s'.loc t = s.loc t := hs.loc t hm
    obtain ⟨c, k, r, w, l, hp, hx, rfl⟩ | ⟨c, again, k, r, w, l, hp, hx, rfl⟩ := M.next_step_cases hn
    · obtain ⟨v, hx', hv⟩ := h.step hm ((hsends t hm).allowed (by rw [hp]; rfl)) hs.world hx
      refine ⟨s'.put t v l (k r), ?_, hs.put hv⟩
      rw [Machine.next, hprog, hp]
      dsimp only
      rw [hloc, hx', Option.map_some]
    · obtain ⟨v, hx', hv⟩ := h.step hm ((hsends t hm).allowed (by rw [hp]; rfl)) hs.world hx
      refine ⟨s'.put t v l (if again r then .poll c again k else k r), ?_, hs.put hv⟩
      rw [Machine.next, hprog, hp]
      dsimp only
      rw [hloc, hx', Option.map_some]
  | kill t =>
    have hm : shown t := hm
    have hprog : s'.prog t = s.prog t := hs.prog t hm
    have hloc : s'.loc t = s.loc t := hs.loc t hm
    obtain ⟨hp, rfl⟩ := M.next_kill_cases hn
    obtain ⟨hlocal, hv⟩ := h.abort hm hs.world (l := s.loc t)
    refine ⟨s'.put t (M.abort t s'.world (s.loc t)).1 (M.abort t s.world (s.loc t)).2 (.ret M.crash),
      ?_, hs.put hv⟩
    rw [Machine.next, hprog, hloc, ← hlocal]
    rcases hret : s.prog t with a | ⟨c, k⟩ | ⟨c, again, k⟩
    · exact absurd hret (hp a)
    · rfl
    · rfl

/-- **Hidden processes hold nobody up**: a shown process can move in the one state exactly if it can in
the other. -/
theorem next_isSome_iff (h : Unwinding M shown P E)
    (hsends : ∀ t, shown t → Monitor.Sends (P t) (s.prog t)) (hs : Alike shown E s s')
    (hm : shown m.process) : (M.next s m).isSome ↔ (M.next s' m).isSome := by
  have hsends' : ∀ t, shown t → Monitor.Sends (P t) (s'.prog t) := by
    intro t ht
    rw [hs.prog t ht]
    exact hsends t ht
  rw [Option.isSome_iff_exists, Option.isSome_iff_exists]
  constructor
  · rintro ⟨s₁, hn⟩
    obtain ⟨s₁', hn', -⟩ := h.next_shown hsends hs hn hm
    exact ⟨s₁', hn'⟩
  · rintro ⟨s₁, hn⟩
    obtain ⟨s₁', hn', -⟩ := h.next_shown hsends' (hs.symm h.symm) hn hm
    exact ⟨s₁', hn'⟩

/-- **The hidden moves can be left out of a run.** -/
theorem perform [DecidablePred shown] (h : Unwinding M shown P E)
    (hsends : ∀ t, Monitor.Sends (P t) (s.prog t)) (hs : Alike shown E s s') {ms : List (Move ι)}
    (hms : M.perform s ms = some s₁) :
    ∃ s₁', M.perform s' (ms.filter fun m ↦ shown m.process) = some s₁' ∧ Alike shown E s₁ s₁' := by
  induction ms generalizing s s' with
  | nil =>
    cases hms
    exact ⟨s', rfl, hs⟩
  | cons m ms ih =>
    obtain ⟨s₂, hn, hrest⟩ := Option.bind_eq_some_iff.1 hms
    by_cases hm : shown m.process
    · obtain ⟨s₂', hn', hs₂⟩ := h.next_shown (fun t _ ↦ hsends t) hs hn hm
      obtain ⟨s₁', hrest', hs₁⟩ := ih (Monitor.Sends.next hsends hn) hs₂ hrest
      refine ⟨s₁', ?_, hs₁⟩
      rw [List.filter_cons_of_pos (by simpa using hm), Machine.perform, hn', Option.bind_some, hrest']
    · rw [List.filter_cons_of_neg (by simpa using hm)]
      exact ih (Monitor.Sends.next hsends hn) (h.next_hidden hsends hs hn hm) hrest

end Unwinding

end Interleave
