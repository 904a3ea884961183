import DailyFresh.Interleave.System

/-!
# Monitors

A **monitor** follows what one program sends and what it is answered: it has a state of its own, says in
each state which commands are allowed, and moves on with every answer. `Monitor.Accepts` is a property of
the program alone — *whatever* the answers are, every command that it sends is allowed — and has a rule for
each construct of the program's text.

To use a monitor in a run of many programs, its state is related to the shared world. If the commands keep
that relation, those of the watched process and those of the others (`Monitor.Follows`), then in every
reachable state each process is in a relation with a monitor state that accepts what it still has to run
(`Monitor.Follows.sound`).
-/

namespace Interleave

variable {S : Signature} {ι W L G α β γ : Type}

/-- A monitor of the commands of one program. -/
structure Monitor (S : Signature) (G : Type) where
  /-- The commands that may be sent now. -/
  allowed : G → S.Cmd → Prop
  /-- The state after a command was answered. -/
  after : G → (c : S.Cmd) → S.Resp c → G

namespace Monitor

/-- Whatever the answers are, the program sends allowed commands only, and `Q` holds at its end. A command
that is sent again and again leaves the monitor where it is. -/
def Accepts (M : Monitor S G) (Q : α → G → Prop) : Program S α → G → Prop
  | .ret a, g => Q a g
  | .call c k, g => M.allowed g c ∧ ∀ r, Accepts M Q (k r) (M.after g c r)
  | .poll c again k, g => M.allowed g c ∧
      ∀ r, (again r = true → M.after g c r = g) ∧ Accepts M Q (k r) (M.after g c r)

variable {M : Monitor S G} {g : G}

/-- **Sequencing.** -/
theorem Accepts.bind {P : α → G → Prop} {Q : β → G → Prop} {p : Program S α} {f : α → Program S β}
    (h : M.Accepts P p g) (hf : ∀ a g, P a g → M.Accepts Q (f a) g) : M.Accepts Q (p >>= f) g := by
  induction p generalizing g with
  | ret a => exact hf a g h
  | call c k ih => exact ⟨h.1, fun r ↦ ih r (h.2 r)⟩
  | poll c again k ih => exact ⟨h.1, fun r ↦ ⟨(h.2 r).1, ih r (h.2 r).2⟩⟩

theorem Accepts.mono {Q Q' : α → G → Prop} {p : Program S α} (h : M.Accepts Q p g)
    (hQ : ∀ a g, Q a g → Q' a g) : M.Accepts Q' p g := by
  induction p generalizing g with
  | ret a => exact hQ a g h
  | call c k ih => exact ⟨h.1, fun r ↦ ih r (h.2 r)⟩
  | poll c again k ih => exact ⟨h.1, fun r ↦ ⟨(h.2 r).1, ih r (h.2 r).2⟩⟩

/-- The rule for one command. -/
theorem Accepts.send {Q : β → G → Prop} {c : S.Cmd} {f : S.Resp c → Program S β} (hc : M.allowed g c)
    (h : ∀ r, M.Accepts Q (f r) (M.after g c r)) : M.Accepts Q (Program.send c >>= f) g := ⟨hc, h⟩

/-- What is left after an answer to a command that may be sent again. -/
theorem Accepts.answered {Q : α → G → Prop} {c : S.Cmd} {again : S.Resp c → Bool}
    {k : S.Resp c → Program S α} (h : M.Accepts Q (.poll c again k) g) (r : S.Resp c) :
    M.Accepts Q (if again r then .poll c again k else k r) (M.after g c r) := by
  split
  · rename_i hagain
    rw [(h.2 r).1 hagain]
    exact h
  · exact (h.2 r).2

/-- The next command is allowed. -/
theorem Accepts.allowed {Q : α → G → Prop} {p : Program S α} (h : M.Accepts Q p g) {c : S.Cmd}
    (hc : p.next? = some c) : M.allowed g c := by
  cases p with
  | ret a => cases hc
  | call c' k =>
    obtain rfl := Option.some.inj hc
    exact h.1
  | poll c' again k =>
    obtain rfl := Option.some.inj hc
    exact h.1

/-! ### Monitors without memory -/

/-- All commands of the program, whatever the answers are, satisfy `P`. -/
def Sends (P : S.Cmd → Prop) (p : Program S α) : Prop :=
  Accepts (G := Unit) { allowed := fun _ c ↦ P c, after := fun _ _ _ ↦ () } (fun _ _ ↦ True) p ()

theorem Sends.bind {P : S.Cmd → Prop} {p : Program S α} {f : α → Program S β} (hp : Sends P p)
    (hf : ∀ a, Sends P (f a)) : Sends P (p >>= f) := Accepts.bind hp fun a _ _ ↦ hf a

theorem Sends.send {P : S.Cmd → Prop} {c : S.Cmd} {f : S.Resp c → Program S β} (hc : P c)
    (hf : ∀ r, Sends P (f r)) : Sends P (Program.send c >>= f) := ⟨hc, hf⟩

theorem Sends.mono {P P' : S.Cmd → Prop} {p : Program S α} (hp : Sends P p) (h : ∀ c, P c → P' c) :
    Sends P' p := by
  induction p with
  | ret a => trivial
  | call c k ih => exact ⟨h c hp.1, fun r ↦ ih r (hp.2 r)⟩
  | poll c again k ih => exact ⟨h c hp.1, fun r ↦ ⟨(hp.2 r).1, ih r (hp.2 r).2⟩⟩

/-! ### Invariants of a monitor -/

/-- In the states with `I`, the monitor allows the commands with `P`, and they lead to such states. -/
def Keeps (M : Monitor S G) (I : G → Prop) (P : S.Cmd → Prop) : Prop :=
  ∀ g c, I g → P c → M.allowed g c ∧ ∀ r, I (M.after g c r)

/-- The rule for one command that keeps an invariant. -/
theorem Accepts.keep {I : G → Prop} {P : S.Cmd → Prop} {Q : β → G → Prop} (h : M.Keeps I P) (hg : I g)
    {c : S.Cmd} {f : S.Resp c → Program S β} (hc : P c) (hf : ∀ r g, I g → M.Accepts Q (f r) g) :
    M.Accepts Q (Program.send c >>= f) g := by
  obtain ⟨hallowed, hafter⟩ := h g c hg hc
  exact .send hallowed fun r ↦ hf r _ (hafter r)

/-! ### What is sent, and what is repeated -/

/-- Whatever the answers are, the program sends commands with `P` only, and `R` holds of what it sends again
and again and of the test it makes. -/
def Only (P : S.Cmd → Prop) (R : (c : S.Cmd) → (S.Resp c → Bool) → Prop) : Program S α → Prop
  | .ret _ => True
  | .call c k => P c ∧ ∀ r, Only P R (k r)
  | .poll c again k => (P c ∧ R c again) ∧ ∀ r, Only P R (k r)

namespace Only

variable {P P' : S.Cmd → Prop} {R : (c : S.Cmd) → (S.Resp c → Bool) → Prop} {p : Program S α}

theorem bind {f : α → Program S β} (hp : Only P R p) (hf : ∀ a, Only P R (f a)) : Only P R (p >>= f) := by
  induction p with
  | ret a => exact hf a
  | call c k ih => exact ⟨hp.1, fun r ↦ ih r (hp.2 r)⟩
  | poll c again k ih => exact ⟨hp.1, fun r ↦ ih r (hp.2 r)⟩

theorem send {c : S.Cmd} {f : S.Resp c → Program S β} (hc : P c) (hf : ∀ r, Only P R (f r)) :
    Only P R (Program.send c >>= f) := ⟨hc, hf⟩

theorem mono (hp : Only P R p) (h : ∀ c, P c → P' c) : Only P' R p := by
  induction p with
  | ret a => trivial
  | call c k ih => exact ⟨h c hp.1, fun r ↦ ih r (hp.2 r)⟩
  | poll c again k ih => exact ⟨⟨h c hp.1.1, hp.1.2⟩, fun r ↦ ih r (hp.2 r)⟩

/-- What is left after an answer to a command that may be sent again. -/
theorem answered {c : S.Cmd} {again : S.Resp c → Bool} {k : S.Resp c → Program S α}
    (h : Only P R (.poll c again k)) (r : S.Resp c) :
    Only P R (if again r then .poll c again k else k r) := by
  split
  · exact h
  · exact h.2 r

theorem sends (hp : Only P R p) : Sends P p := by
  induction p with
  | ret a => trivial
  | call c k ih => exact ⟨hp.1, fun r ↦ ih r (hp.2 r)⟩
  | poll c again k ih => exact ⟨hp.1.1, fun r ↦ ⟨fun _ ↦ rfl, ih r (hp.2 r)⟩⟩

/-- A monitor whose invariant is kept by everything that is sent, and which stays where it is as long as a
command is repeated. -/
theorem accepts {I : G → Prop} (hp : Only P R p) (h : M.Keeps I P)
    (hrepeat : ∀ g c again, I g → R c again → ∀ r, again r = true → M.after g c r = g) (hg : I g) :
    M.Accepts (fun _ g ↦ I g) p g := by
  induction p generalizing g with
  | ret a => exact hg
  | call c k ih =>
    obtain ⟨hallowed, hafter⟩ := h g c hg hp.1
    exact ⟨hallowed, fun r ↦ ih r (hp.2 r) (hafter r)⟩
  | poll c again k ih =>
    obtain ⟨hallowed, hafter⟩ := h g c hg hp.1.1
    exact ⟨hallowed, fun r ↦ ⟨hrepeat g c again hg hp.1.2 r, ih r (hp.2 r) (hafter r)⟩⟩

end Only

/-- The monitor that allows everything. -/
def anything (S : Signature) (G : Type) : Monitor S G where
  allowed _ _ := True
  after g _ _ := g

theorem accepts_anything (p : Program S α) (g : G) : (anything S G).Accepts (fun _ _ ↦ True) p g := by
  induction p with
  | ret a => trivial
  | call c k ih => exact ⟨trivial, ih⟩
  | poll c again k ih => exact ⟨trivial, fun r ↦ ⟨fun _ ↦ rfl, ih r⟩⟩

/-! ### Monitors in runs -/

variable [DecidableEq ι] {M : ι → Monitor S G} {m : Machine S ι W L γ} {R : ι → W → L → G → Prop}

/-- The states of the monitors, one for each process, go with the worlds of a run. -/
structure Follows (M : ι → Monitor S G) (m : Machine S ι W L γ) (R : ι → W → L → G → Prop) : Prop where
  own : ∀ {t w l g c r w' l'}, R t w l g → m.exec t w l c = some (r, w', l') → R t w' l' ((M t).after g c r)
  other : ∀ {t u w l lu g c r w' l'}, u ≠ t → R u w lu g → m.exec t w l c = some (r, w', l') → R u w' lu g
  abort : ∀ {t w l g}, R t w l g → R t (m.abort t w l).1 (m.abort t w l).2 g
  abortOther : ∀ {t u w l lu g}, u ≠ t → R u w lu g → R u (m.abort t w l).1 lu g

/-- Every process is watched. -/
def Watched (M : ι → Monitor S G) (R : ι → W → L → G → Prop) (s : State S ι W L γ) : Prop :=
  ∀ t, ∃ g, R t s.world (s.loc t) g ∧ (M t).Accepts (fun _ _ ↦ True) (s.prog t) g

theorem Watched.put {s : State S ι W L γ} (hs : Watched M R s) {t : ι} {w : W} {l : L} {p : Program S γ}
    {g : G} (hR : R t w l g) (haccepts : (M t).Accepts (fun _ _ ↦ True) p g)
    (hother : ∀ u, u ≠ t → ∀ g, R u s.world (s.loc u) g → R u w (s.loc u) g) :
    Watched M R (s.put t w l p) := by
  intro u
  by_cases hu : u = t
  · subst hu
    rw [State.put_loc_self, State.put_prog_self]
    exact ⟨g, hR, haccepts⟩
  · obtain ⟨g', hR', haccepts'⟩ := hs u
    rw [State.put_loc_of_ne _ _ _ _ hu, State.put_prog_of_ne _ _ _ _ hu]
    exact ⟨g', hother u hu g' hR', haccepts'⟩

/-- **One move.** -/
theorem Follows.next (h : Follows M m R) {s s' : State S ι W L γ} {move : Move ι} (hs : Watched M R s)
    (hn : m.next s move = some s') : Watched M R s' := by
  cases move with
  | step t =>
    obtain ⟨g, hR, haccepts⟩ := hs t
    obtain ⟨c, k, r, w, l, hp, hx, rfl⟩ | ⟨c, again, k, r, w, l, hp, hx, rfl⟩ := m.next_step_cases hn
    · rw [hp] at haccepts
      exact hs.put (h.own hR hx) (haccepts.2 r) fun u hu g' hR' ↦ h.other hu hR' hx
    · rw [hp] at haccepts
      exact hs.put (h.own hR hx) (haccepts.answered r) fun u hu g' hR' ↦ h.other hu hR' hx
  | kill t =>
    obtain ⟨g, hR, -⟩ := hs t
    obtain ⟨-, rfl⟩ := m.next_kill_cases hn
    exact hs.put (h.abort hR) trivial fun u hu g' hR' ↦ h.abortOther hu hR'

/-- **Every reachable state.** -/
theorem Follows.sound (h : Follows M m R) {s₀ s : State S ι W L γ} (h₀ : Watched M R s₀)
    (hs : m.Reach AnyMove s₀ s) : Watched M R s :=
  hs.invariant h₀ fun _ _ _ hI _ hn ↦ h.next hI hn

omit [DecidableEq ι] in
/-- What a watched process is about to send is allowed. -/
theorem Watched.allowed {s : State S ι W L γ} (hs : Watched M R s) {t : ι} {c : S.Cmd}
    (hc : (s.prog t).next? = some c) : ∃ g, R t s.world (s.loc t) g ∧ (M t).allowed g c := by
  obtain ⟨g, hR, haccepts⟩ := hs t
  exact ⟨g, hR, haccepts.allowed hc⟩

/-- As `Follows`, for processes that count on each other: what a command does to the states of the others is
known only of commands that the monitor of its own process allows. -/
structure Cooperates (M : ι → Monitor S G) (m : Machine S ι W L γ) (R : ι → W → L → G → Prop) : Prop where
  own : ∀ {t w l g c r w' l'}, R t w l g → (M t).allowed g c → m.exec t w l c = some (r, w', l') →
    R t w' l' ((M t).after g c r)
  other : ∀ {t u w l lu g gu c r w' l'}, u ≠ t → R t w l g → (M t).allowed g c → R u w lu gu →
    m.exec t w l c = some (r, w', l') → R u w' lu gu
  abort : ∀ {t w l g}, R t w l g → R t (m.abort t w l).1 (m.abort t w l).2 g
  abortOther : ∀ {t u w l lu g}, u ≠ t → R u w lu g → R u (m.abort t w l).1 lu g

theorem Cooperates.next (h : Cooperates M m R) {s s' : State S ι W L γ} {move : Move ι} (hs : Watched M R s)
    (hn : m.next s move = some s') : Watched M R s' := by
  cases move with
  | step t =>
    obtain ⟨g, hR, haccepts⟩ := hs t
    obtain ⟨c, k, r, w, l, hp, hx, rfl⟩ | ⟨c, again, k, r, w, l, hp, hx, rfl⟩ := m.next_step_cases hn
    · rw [hp] at haccepts
      exact hs.put (h.own hR haccepts.1 hx) (haccepts.2 r)
        fun u hu g' hR' ↦ h.other hu hR haccepts.1 hR' hx
    · rw [hp] at haccepts
      exact hs.put (h.own hR haccepts.1 hx) (haccepts.answered r)
        fun u hu g' hR' ↦ h.other hu hR haccepts.1 hR' hx
  | kill t =>
    obtain ⟨g, hR, -⟩ := hs t
    obtain ⟨-, rfl⟩ := m.next_kill_cases hn
    exact hs.put (h.abort hR) trivial fun u hu g' hR' ↦ h.abortOther hu hR'

/-- **Every reachable state**, of processes that count on each other. -/
theorem Cooperates.sound (h : Cooperates M m R) {ok : State S ι W L γ → Move ι → Prop}
    {s₀ s : State S ι W L γ} (h₀ : Watched M R s₀) (hs : m.Reach ok s₀ s) : Watched M R s :=
  hs.invariant h₀ fun _ _ _ hI _ hn ↦ h.next hI hn

/-! ### Monitors of the local part -/

/-- A monitor whose state can be read off the local part of its process (`view`) accepts what the process
still has to run, in every reachable state; so its condition on the end holds of every process that has
returned. -/
theorem Accepts.of_reach {Q : γ → G → Prop} {view : L → G} {M : Monitor S G}
    (hown : ∀ {t w l c r w' l'}, m.exec t w l c = some (r, w', l') → view l' = M.after (view l) c r)
    (habort : ∀ t w l, Q m.crash (view (m.abort t w l).2)) {ok : State S ι W L γ → Move ι → Prop}
    {s₀ s : State S ι W L γ} (h₀ : ∀ t, M.Accepts Q (s₀.prog t) (view (s₀.loc t)))
    (hs : m.Reach ok s₀ s) (t : ι) : M.Accepts Q (s.prog t) (view (s.loc t)) := by
  refine hs.invariant (I := fun s ↦ ∀ t, M.Accepts Q (s.prog t) (view (s.loc t))) h₀ ?_ t
  intro s move s' h _ hn u
  by_cases hu : u = move.process
  · cases move with
    | step t =>
      obtain rfl : u = t := hu
      have haccepts := h u
      obtain ⟨c, k, r, w, l, hp, hx, rfl⟩ | ⟨c, again, k, r, w, l, hp, hx, rfl⟩ := m.next_step_cases hn
      · rw [State.put_prog_self, State.put_loc_self, hown hx]
        rw [hp] at haccepts
        exact haccepts.2 r
      · rw [State.put_prog_self, State.put_loc_self, hown hx]
        rw [hp] at haccepts
        exact haccepts.answered r
    | kill t =>
      obtain rfl : u = t := hu
      obtain ⟨-, rfl⟩ := m.next_kill_cases hn
      rw [State.put_prog_self, State.put_loc_self]
      exact habort ..
  · obtain ⟨hp, hl⟩ := m.next_other hn hu
    rw [hp, hl]
    exact h u

end Monitor

end Interleave
