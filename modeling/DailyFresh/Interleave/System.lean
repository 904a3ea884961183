import DailyFresh.Interleave.Program
import Mathlib.Logic.Function.Basic

/-!
# Interleaved runs of programs

A **machine** gives commands their meaning: how one command of process `t` acts on the shared world
`W` and on the process's own local part `L` (its connection, say). Executing a command is *partial*:
a command that has to wait — for a lock, say — simply cannot take its step yet. A machine also says
what is left when a process dies in the middle (`abort`), and what its caller then sees (`crash`).

A `State` is a world together with, for every process of an arbitrary index type, its local part
and the program it still has to run. A `Move` lets one process execute its next command, or kills
it; which move comes next is nowhere restricted, so a statement about every state in `Reach` is a
statement about every interleaving and every place a process may be killed in.

`Reach ok` is reachability through moves that satisfy `ok` in the state before them. The general
case is `ok = AnyMove`; a condition on the moves of a run is stated by another `ok`, and
`AllMoves P ms s` is its companion for one given list of moves.
-/

namespace Interleave

variable {S : Signature} {ι W L α : Type}

/-- The meaning of commands: their effect, what a killed process leaves behind, and what is
reported for it. -/
structure Machine (S : Signature) (ι W L α : Type) where
  /-- Execute one command of process `t`; `none` when it has to wait. -/
  exec : (t : ι) → W → L → (c : S.Cmd) → Option (S.Resp c × W × L)
  /-- The world and the local part after process `t` died. -/
  abort : ι → W → L → W × L
  /-- The result reported for a process that died. -/
  crash : α

/-- A state of the whole system. -/
structure State (S : Signature) (ι W L α : Type) where
  /-- The shared world. -/
  world : W
  /-- The local part of each process. -/
  loc : ι → L
  /-- What each process still has to run. -/
  prog : ι → Program S α

/-- One move of the scheduler. -/
inductive Move (ι : Type) where
  /-- Process `t` executes its next command. -/
  | step (t : ι)
  /-- Process `t` is killed. -/
  | kill (t : ι)
  deriving DecidableEq, Repr

/-- The process that a move is about. -/
def Move.process : Move ι → ι
  | step t => t
  | kill t => t

/-- No condition on the moves of a run. -/
def AnyMove (_ : State S ι W L α) (_ : Move ι) : Prop := True

/-- The move kills nobody. -/
def NoKill (_ : State S ι W L α) (m : Move ι) : Prop := ∀ t, m ≠ .kill t

theorem not_noKill (t : ι) (s : State S ι W L α) : ¬ NoKill s (.kill t) := fun h ↦ h t rfl

namespace State

variable [DecidableEq ι]

/-- Replace the world and process `t`'s part of the state. -/
def put (s : State S ι W L α) (t : ι) (w : W) (l : L) (p : Program S α) : State S ι W L α where
  world := w
  loc := Function.update s.loc t l
  prog := Function.update s.prog t p

variable (s : State S ι W L α) (t u : ι) (w : W) (l : L) (p : Program S α)

@[simp] theorem put_world : (s.put t w l p).world = w := rfl

@[simp] theorem put_loc_self : (s.put t w l p).loc t = l := Function.update_self ..

@[simp] theorem put_prog_self : (s.put t w l p).prog t = p := Function.update_self ..

variable {t u}

theorem put_loc_of_ne (h : u ≠ t) : (s.put t w l p).loc u = s.loc u := Function.update_of_ne h ..

theorem put_prog_of_ne (h : u ≠ t) : (s.put t w l p).prog u = s.prog u := Function.update_of_ne h ..

end State

namespace Machine

variable [DecidableEq ι] (M : Machine S ι W L α)

/-- The state after a move, if the move is possible. -/
def next (s : State S ι W L α) : Move ι → Option (State S ι W L α)
  | .step t =>
    match s.prog t with
    | .ret _ => none
    | .call c k => (M.exec t s.world (s.loc t) c).map fun x ↦ s.put t x.2.1 x.2.2 (k x.1)
    | .poll c again k =>
      (M.exec t s.world (s.loc t) c).map fun x ↦
        s.put t x.2.1 x.2.2 (if again x.1 then .poll c again k else k x.1)
  | .kill t =>
    match s.prog t with
    | .ret _ => none
    | _ => some (s.put t (M.abort t s.world (s.loc t)).1 (M.abort t s.world (s.loc t)).2
        (.ret M.crash))

/-- **What a step can do.** A process at `call` continues with the answer; a process at `poll`
continues, or stays where it is, depending on the answer. -/
theorem next_step_cases {s s' : State S ι W L α} {t : ι} (h : M.next s (.step t) = some s') :
    (∃ c k r w l, s.prog t = .call c k ∧ M.exec t s.world (s.loc t) c = some (r, w, l) ∧
      s' = s.put t w l (k r)) ∨
    (∃ c again k r w l, s.prog t = .poll c again k ∧
      M.exec t s.world (s.loc t) c = some (r, w, l) ∧
      s' = s.put t w l (if again r then .poll c again k else k r)) := by
  rw [next] at h
  split at h
  · cases h
  · rename_i c k hp
    obtain ⟨⟨r, w, l⟩, hx, rfl⟩ := Option.map_eq_some_iff.1 h
    exact .inl ⟨c, k, r, w, l, hp, hx, rfl⟩
  · rename_i c again k hp
    obtain ⟨⟨r, w, l⟩, hx, rfl⟩ := Option.map_eq_some_iff.1 h
    exact .inr ⟨c, again, k, r, w, l, hp, hx, rfl⟩

/-- A step executes the next command of the process. -/
theorem next_step_exec {s s' : State S ι W L α} {t : ι} (h : M.next s (.step t) = some s') :
    ∃ c r w l p, (s.prog t).next? = some c ∧ M.exec t s.world (s.loc t) c = some (r, w, l) ∧
      s' = s.put t w l p := by
  obtain ⟨c, k, r, w, l, hp, hx, rfl⟩ | ⟨c, again, k, r, w, l, hp, hx, rfl⟩ := M.next_step_cases h
  · exact ⟨c, r, w, l, k r, by rw [hp]; rfl, hx, rfl⟩
  · exact ⟨c, r, w, l, _, by rw [hp]; rfl, hx, rfl⟩

/-- **What a kill can do**: it needs a process that has not returned, and leaves what `abort`
says. -/
theorem next_kill_cases {s s' : State S ι W L α} {t : ι} (h : M.next s (.kill t) = some s') :
    (∀ a, s.prog t ≠ .ret a) ∧ s' = s.put t (M.abort t s.world (s.loc t)).1
      (M.abort t s.world (s.loc t)).2 (.ret M.crash) := by
  rw [next] at h
  split at h
  · cases h
  · rename_i hp
    exact ⟨hp, (Option.some.inj h).symm⟩

/-- A move of one process leaves what every other process still has to run, and its local part. -/
theorem next_other {s s' : State S ι W L α} {m : Move ι} (h : M.next s m = some s') {u : ι}
    (hu : u ≠ m.process) : s'.prog u = s.prog u ∧ s'.loc u = s.loc u := by
  cases m with
  | step t =>
    obtain ⟨c, k, r, w, l, -, -, rfl⟩ | ⟨c, again, k, r, w, l, -, -, rfl⟩ := M.next_step_cases h
    · exact ⟨s.put_prog_of_ne _ _ _ hu, s.put_loc_of_ne _ _ _ hu⟩
    · exact ⟨s.put_prog_of_ne _ _ _ hu, s.put_loc_of_ne _ _ _ hu⟩
  | kill t =>
    obtain ⟨-, rfl⟩ := M.next_kill_cases h
    exact ⟨s.put_prog_of_ne _ _ _ hu, s.put_loc_of_ne _ _ _ hu⟩

/-! ### Runs -/

/-- Reachability from `s₀` through moves that satisfy `ok` in the state before them. -/
inductive Reach (ok : State S ι W L α → Move ι → Prop) (s₀ : State S ι W L α) :
    State S ι W L α → Prop where
  | refl : Reach ok s₀ s₀
  | move {s s' : State S ι W L α} {m : Move ι} :
      Reach ok s₀ s → ok s m → M.next s m = some s' → Reach ok s₀ s'

variable {M}

theorem Reach.mono {ok ok' : State S ι W L α → Move ι → Prop} (h : ∀ s m, ok s m → ok' s m)
    {s₀ s : State S ι W L α} (hs : M.Reach ok s₀ s) : M.Reach ok' s₀ s := by
  induction hs with
  | refl => exact .refl
  | move _ hok hn ih => exact .move ih (h _ _ hok) hn

theorem Reach.trans {ok : State S ι W L α → Move ι → Prop} {s₀ s₁ s₂ : State S ι W L α}
    (h₁ : M.Reach ok s₀ s₁) (h₂ : M.Reach ok s₁ s₂) : M.Reach ok s₀ s₂ := by
  induction h₂ with
  | refl => exact h₁
  | move _ hok hn ih => exact .move ih hok hn

/-- **Invariants.** What holds at the start and is kept by every allowed move holds in every
reachable state. -/
theorem Reach.invariant {ok : State S ι W L α → Move ι → Prop} {I : State S ι W L α → Prop}
    {s₀ s : State S ι W L α} (hs : M.Reach ok s₀ s) (h₀ : I s₀)
    (hstep : ∀ s m s', I s → ok s m → M.next s m = some s' → I s') : I s := by
  induction hs with
  | refl => exact h₀
  | move _ hok hn ih => exact hstep _ _ _ ih hok hn

variable (M)

/-- Perform a list of moves. -/
def perform : State S ι W L α → List (Move ι) → Option (State S ι W L α)
  | s, [] => some s
  | s, m :: ms => (M.next s m).bind fun s' ↦ perform s' ms

theorem reach_of_perform {ms : List (Move ι)} {s s' : State S ι W L α}
    (h : M.perform s ms = some s') : M.Reach AnyMove s s' := by
  induction ms generalizing s with
  | nil => cases h; exact .refl
  | cons m ms ih =>
    obtain ⟨s₁, h₁, h₂⟩ := Option.bind_eq_some_iff.1 h
    exact (Reach.move .refl trivial h₁).trans (ih h₂)

theorem perform_append (s : State S ι W L α) (ms ms' : List (Move ι)) :
    M.perform s (ms ++ ms') = (M.perform s ms).bind fun s' ↦ M.perform s' ms' := by
  induction ms generalizing s with
  | nil => rfl
  | cons m ms ih =>
    rw [List.cons_append, perform, perform, Option.bind_assoc]
    exact congrArg _ (funext ih)

/-- Every move of the list `ms`, performed from `s`, satisfies `P` together with the states before
and after it. -/
def AllMoves (P : State S ι W L α → Move ι → State S ι W L α → Prop) :
    List (Move ι) → State S ι W L α → Prop
  | [], _ => True
  | m :: ms, s => ∀ s', M.next s m = some s' → P s m s' ∧ AllMoves P ms s'

instance decidableAllMoves (P : State S ι W L α → Move ι → State S ι W L α → Prop)
    [∀ s m s', Decidable (P s m s')] : ∀ ms s, Decidable (M.AllMoves P ms s)
  | [], _ => isTrue trivial
  | m :: ms, s =>
    match h : M.next s m with
    | none => isTrue fun _ h' ↦ nomatch h.symm.trans h'
    | some s' =>
      have := decidableAllMoves P ms s'
      decidable_of_iff (P s m s' ∧ M.AllMoves P ms s')
        ⟨fun hp _ h' ↦ Option.some.inj (h.symm.trans h') ▸ hp, fun hp ↦ hp s' h⟩

variable {M}

/-- A list of moves that all satisfy `ok` is a run of such moves. -/
theorem reach_of_allMoves {ok : State S ι W L α → Move ι → Prop} {ms : List (Move ι)}
    {s₀ s s' : State S ι W L α} (h₀ : M.Reach ok s₀ s) (h : M.perform s ms = some s')
    (hok : M.AllMoves (fun s m _ ↦ ok s m) ms s) : M.Reach ok s₀ s' := by
  induction ms generalizing s with
  | nil => cases h; exact h₀
  | cons m ms ih =>
    obtain ⟨s₁, h₁, h₂⟩ := Option.bind_eq_some_iff.1 h
    obtain ⟨hm, hms⟩ := hok s₁ h₁
    exact ih (h₀.move hm h₁) h₂ hms

/-- What holds of all moves of a run holds of its last move. -/
theorem allMoves_last {P : State S ι W L α → Move ι → State S ι W L α → Prop} {ms : List (Move ι)}
    {m : Move ι} {s₀ s s' : State S ι W L α} (h : M.AllMoves P (ms ++ [m]) s₀)
    (hms : M.perform s₀ ms = some s) (hn : M.next s m = some s') : P s m s' := by
  induction ms generalizing s₀ with
  | nil =>
    cases hms
    exact (h s' hn).1
  | cons m₀ ms ih =>
    obtain ⟨s₁, h₁, h₂⟩ := Option.bind_eq_some_iff.1 hms
    exact ih (h s₁ h₁).2 h₂

/-- What holds of every move between a reachable state and the last state of a run holds of all
moves of the run. -/
theorem allMoves_of_perform {P : State S ι W L α → Move ι → State S ι W L α → Prop}
    {s₀ sf : State S ι W L α}
    (h : ∀ s m s', M.Reach AnyMove s₀ s → M.next s m = some s' → M.Reach AnyMove s' sf → P s m s')
    {ms : List (Move ι)} {s : State S ι W L α} (hs : M.Reach AnyMove s₀ s)
    (hms : M.perform s ms = some sf) : M.AllMoves P ms s := by
  induction ms generalizing s with
  | nil => trivial
  | cons m ms ih =>
    intro s' hn
    obtain ⟨s₁, h₁, h₂⟩ := Option.bind_eq_some_iff.1 hms
    obtain rfl := Option.some.inj (hn.symm.trans h₁)
    exact ⟨h s m s' hs hn (M.reach_of_perform h₂), ih (hs.move trivial hn) h₂⟩

theorem allMoves_of_forall {P : State S ι W L α → Move ι → State S ι W L α → Prop}
    (h : ∀ s m s', P s m s') (ms : List (Move ι)) (s : State S ι W L α) : M.AllMoves P ms s := by
  induction ms generalizing s with
  | nil => trivial
  | cons m ms ih => exact fun s' _ ↦ ⟨h s m s', ih s'⟩

/-- A list of steps kills nobody. -/
theorem allMoves_noKill (ts : List ι) (s : State S ι W L α) :
    M.AllMoves (fun s m _ ↦ NoKill s m) (ts.map .step) s := by
  induction ts generalizing s with
  | nil => trivial
  | cons t ts ih => exact fun s' _ ↦ ⟨fun _ ↦ by simp, ih s'⟩

theorem AllMoves.and {P Q : State S ι W L α → Move ι → State S ι W L α → Prop} {ms : List (Move ι)}
    {s : State S ι W L α} (hP : M.AllMoves P ms s) (hQ : M.AllMoves Q ms s) :
    M.AllMoves (fun s m s' ↦ P s m s' ∧ Q s m s') ms s := by
  induction ms generalizing s with
  | nil => trivial
  | cons m ms ih =>
    exact fun s' hn ↦ ⟨⟨(hP s' hn).1, (hQ s' hn).1⟩, ih (hP s' hn).2 (hQ s' hn).2⟩

/-- If `P` implies `Q` for the allowed moves out of every reachable state, it does so for every list of
allowed moves. -/
theorem AllMoves.imp (ok : State S ι W L α → Move ι → Prop)
    {P Q : State S ι W L α → Move ι → State S ι W L α → Prop} {s₀ : State S ι W L α}
    (h : ∀ s m s', M.Reach ok s₀ s → ok s m → M.next s m = some s' → P s m s' → Q s m s')
    {ms : List (Move ι)} {s : State S ι W L α} (hs : M.Reach ok s₀ s)
    (hok : M.AllMoves (fun s m _ ↦ ok s m) ms s) (hP : M.AllMoves P ms s) : M.AllMoves Q ms s := by
  induction ms generalizing s with
  | nil => trivial
  | cons m ms ih =>
    intro s' hn
    obtain ⟨hm, hms⟩ := hok s' hn
    exact ⟨h s m s' hs hm hn (hP s' hn).1, ih (hs.move hm hn) hms (hP s' hn).2⟩

/-- Two properties of moves that agree on the allowed moves out of every reachable state agree on
every list of allowed moves. -/
theorem allMoves_congr {ok : State S ι W L α → Move ι → Prop}
    {P Q : State S ι W L α → Move ι → State S ι W L α → Prop} {s₀ : State S ι W L α}
    (h : ∀ s m s', M.Reach ok s₀ s → ok s m → M.next s m = some s' → (P s m s' ↔ Q s m s'))
    {ms : List (Move ι)} {s : State S ι W L α} (hs : M.Reach ok s₀ s)
    (hok : M.AllMoves (fun s m _ ↦ ok s m) ms s) : M.AllMoves P ms s ↔ M.AllMoves Q ms s :=
  ⟨AllMoves.imp _ (fun s m s' hs hm hn ↦ (h s m s' hs hm hn).1) hs hok,
    AllMoves.imp _ (fun s m s' hs hm hn ↦ (h s m s' hs hm hn).2) hs hok⟩

/-- **When an invariant lasts.** If, in every reachable state that satisfies `I`, an allowed move keeps
`I` exactly when it satisfies `C`, then a run from such a state satisfies `I` throughout exactly when all
its moves satisfy `C`. -/
theorem allMoves_inv_iff (ok : State S ι W L α → Move ι → Prop) {I : State S ι W L α → Prop}
    {C : State S ι W L α → Move ι → Prop} {s₀ : State S ι W L α}
    (h : ∀ s m s', M.Reach ok s₀ s → ok s m → M.next s m = some s' → I s → (I s' ↔ C s m))
    {ms : List (Move ι)} {s : State S ι W L α} (hs : M.Reach ok s₀ s)
    (hok : M.AllMoves (fun s m _ ↦ ok s m) ms s) (hI : I s) :
    M.AllMoves (fun _ _ s' ↦ I s') ms s ↔ M.AllMoves (fun s m _ ↦ C s m) ms s := by
  induction ms generalizing s with
  | nil => exact Iff.rfl
  | cons m ms ih =>
    refine forall_congr' fun s' ↦ forall_congr' fun hn ↦ ?_
    obtain ⟨hm, hms⟩ := hok s' hn
    have hiff := h s m s' hs hm hn hI
    constructor
    · rintro ⟨hI', hrest⟩
      exact ⟨hiff.1 hI', (ih (hs.move hm hn) hms hI').1 hrest⟩
    · rintro ⟨hC, hrest⟩
      have hI' := hiff.2 hC
      exact ⟨hI', (ih (hs.move hm hn) hms hI').2 hrest⟩

/-- **When the last state is good.** If, in every reachable state, an allowed move leads to a state with
`I` exactly when `I` held and the move satisfies `C` — what is lost stays lost — then the last state of a
run satisfies `I` exactly when its first state does and all its moves satisfy `C`. -/
theorem last_inv_iff (ok : State S ι W L α → Move ι → Prop) {I : State S ι W L α → Prop}
    {C : State S ι W L α → Move ι → Prop} {s₀ : State S ι W L α}
    (h : ∀ s m s', M.Reach ok s₀ s → ok s m → M.next s m = some s' → (I s' ↔ I s ∧ C s m))
    {ms : List (Move ι)} {s sf : State S ι W L α} (hs : M.Reach ok s₀ s)
    (hok : M.AllMoves (fun s m _ ↦ ok s m) ms s) (hrun : M.perform s ms = some sf) :
    I sf ↔ I s ∧ M.AllMoves (fun s m _ ↦ C s m) ms s := by
  induction ms generalizing s with
  | nil =>
    obtain rfl := Option.some.inj hrun
    exact ⟨fun hI ↦ ⟨hI, trivial⟩, And.left⟩
  | cons m ms ih =>
    obtain ⟨s', hn, hrest⟩ := Option.bind_eq_some_iff.1 hrun
    obtain ⟨hm, hms⟩ := hok s' hn
    rw [ih (hs.move hm hn) hms hrest, h s m s' hs hm hn]
    constructor
    · rintro ⟨⟨hI, hC⟩, hall⟩
      refine ⟨hI, fun s₁ hn₁ ↦ ?_⟩
      obtain rfl := Option.some.inj (hn.symm.trans hn₁)
      exact ⟨hC, hall⟩
    · rintro ⟨hI, hall⟩
      obtain ⟨hC, hall⟩ := hall s' hn
      exact ⟨⟨hI, hC⟩, hall⟩

end Machine

end Interleave
