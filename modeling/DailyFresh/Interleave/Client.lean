import DailyFresh.Interleave.System
import Mathlib.Data.List.Nodup

/-!
# A client of the processes

A script runs at a client: it handles the events of its page, may post a request when it does, and hands the
answer to a callback. The requests are served by processes of a machine, among other processes that have
nothing to do with the client. Requests that were posted asynchronously are answered in any order, while the
page goes on handling events; as long as a **synchronous** one is unanswered, nothing else happens at the
page.

The `n`-th request that the client posts is the process `.inl n`; the family `posts` says which request that
is. A run fixes `posts` in hindsight, so a statement for all `posts` is one about all runs. Seen from the
machine, what the client does is nothing but a restriction of the scheduler: a process `.inl n` does not move
before its request has been posted (`Script.Reach.site`).
-/

namespace Interleave

variable {S : Signature} {ι W L α P E Q K : Type}

/-- The script of a client: pages `P`, events `E`, requests `Q`, callbacks `K`, answers `α`. -/
structure Script (P E Q K α : Type) where
  /-- What an event does to the page, and the request that it posts, with its callback; `none` where the
  event cannot happen. -/
  act : P → E → Option (P × Option (Q × K))
  /-- What a callback does with the answer. -/
  callback : P → K → α → P
  /-- The client waits for the answer. -/
  sync : K → Bool

/-- The client and the processes. -/
structure Visit (S : Signature) (ι W L α P K : Type) where
  site : State S (ℕ ⊕ ι) W L α
  page : P
  /-- How many requests have been posted. -/
  posted : ℕ
  /-- The requests that are unanswered, with their callbacks. -/
  waiting : List (ℕ × K)

/-- One move. -/
inductive VisitMove (ι E : Type) where
  /-- A process moves. -/
  | site (m : Move (ℕ ⊕ ι))
  /-- Something happens at the page. -/
  | act (e : E)
  /-- The answer to the `n`-th request arrives. -/
  | answer (n : ℕ)
  deriving DecidableEq

namespace Visit

/-- The process belongs to no request that has not been posted. -/
def Begun (v : Visit S ι W L α P K) : ℕ ⊕ ι → Prop
  | .inl n => n < v.posted
  | .inr _ => True

instance (v : Visit S ι W L α P K) : DecidablePred v.Begun
  | .inl n => Nat.decLt n v.posted
  | .inr _ => isTrue trivial

/-- The client waits for an answer. -/
def blocked (script : Script P E Q K α) (v : Visit S ι W L α P K) : Bool :=
  v.waiting.any fun x ↦ script.sync x.2

theorem not_sync_of_not_blocked {script : Script P E Q K α} {v : Visit S ι W L α P K}
    (h : v.blocked script = false) {x : ℕ × K} (hx : x ∈ v.waiting) : script.sync x.2 = false :=
  Bool.eq_false_iff.2 (List.any_eq_false.1 h x hx)

/-- What is unanswered has been posted, and each request once. -/
structure Orderly (v : Visit S ι W L α P K) : Prop where
  posted : ∀ x ∈ v.waiting, x.1 < v.posted
  nodup : (v.waiting.map Prod.fst).Nodup

theorem Orderly.unique {v : Visit S ι W L α P K} (h : v.Orderly) {n : ℕ} {k k' : K}
    (hk : (n, k) ∈ v.waiting) (hk' : (n, k') ∈ v.waiting) : k = k' :=
  (Prod.mk.inj (List.inj_on_of_nodup_map h.nodup hk hk' rfl)).2

/-- The next request has a number of its own. -/
theorem Orderly.post {v : Visit S ι W L α P K} (h : v.Orderly) (page : P) (k : K) :
    ({ v with page, posted := v.posted + 1, waiting := (v.posted, k) :: v.waiting } :
      Visit S ι W L α P K).Orderly := by
  refine ⟨fun x hx ↦ ?_, List.nodup_cons.2 ⟨fun hmem ↦ ?_, h.nodup⟩⟩
  · rcases List.mem_cons.1 hx with rfl | hx
    · exact Nat.lt_succ_self _
    · exact Nat.lt_succ_of_lt (h.posted x hx)
  · obtain ⟨x, hx, heq⟩ := List.mem_map.1 hmem
    have hlt := h.posted x hx
    omega

theorem Orderly.answer {v : Visit S ι W L α P K} (h : v.Orderly) (page : P) (n : ℕ) :
    ({ v with page, waiting := v.waiting.filter fun x ↦ x.1 ≠ n } : Visit S ι W L α P K).Orderly :=
  ⟨fun x hx ↦ h.posted x (List.mem_of_mem_filter hx), (List.filter_sublist.map Prod.fst).nodup h.nodup⟩

end Visit

namespace Script

variable [DecidableEq ι] [DecidableEq Q] (script : Script P E Q K α) (M : Machine S (ℕ ⊕ ι) W L α)
  (posts : ℕ → Q)

/-- The state after a move, if the move is possible. -/
def next (v : Visit S ι W L α P K) : VisitMove ι E → Option (Visit S ι W L α P K)
  | .site m => if v.Begun m.process then (M.next v.site m).map fun s ↦ { v with site := s } else none
  | .act e =>
    if v.blocked script then none
    else
      match script.act v.page e with
      | none => none
      | some (page, none) => some { v with page }
      | some (page, some (q, k)) =>
        if posts v.posted = q then
          some { v with page, posted := v.posted + 1, waiting := (v.posted, k) :: v.waiting }
        else none
  | .answer n =>
    match v.waiting.find? fun x ↦ x.1 = n, (v.site.prog (.inl n)).result? with
    | some (_, k), some a =>
      if v.blocked script = true ∧ script.sync k = false then none
      else
        some { v with page := script.callback v.page k a, waiting := v.waiting.filter fun x ↦ x.1 ≠ n }
    | _, _ => none

variable {script M posts} {v v' : Visit S ι W L α P K}

/-- **What a move of a process can do.** -/
theorem next_site_cases {m : Move (ℕ ⊕ ι)} (h : script.next M posts v (.site m) = some v') :
    v.Begun m.process ∧ ∃ s, M.next v.site m = some s ∧ v' = { v with site := s } := by
  rw [next] at h
  split at h
  · rename_i hbegun
    obtain ⟨s, hs, rfl⟩ := Option.map_eq_some_iff.1 h
    exact ⟨hbegun, s, hs, rfl⟩
  · cases h

/-- **What an event can do.** -/
theorem next_act_cases {e : E} (h : script.next M posts v (.act e) = some v') :
    v.blocked script = false ∧ ∃ page request, script.act v.page e = some (page, request) ∧
      (request = none ∧ v' = { v with page } ∨ ∃ k, request = some (posts v.posted, k) ∧
        v' = { v with page, posted := v.posted + 1, waiting := (v.posted, k) :: v.waiting }) := by
  rw [next] at h
  split at h
  · cases h
  rename_i hfree
  refine ⟨Bool.eq_false_iff.2 hfree, ?_⟩
  split at h
  · cases h
  · rename_i page hact
    exact ⟨page, none, hact, .inl ⟨rfl, (Option.some.inj h).symm⟩⟩
  · rename_i page q k hact
    split at h
    · rename_i hposts
      exact ⟨page, _, hact, .inr ⟨k, by rw [hposts], (Option.some.inj h).symm⟩⟩
    · cases h

/-- **What an answer can do.** -/
theorem next_answer_cases {n : ℕ} (h : script.next M posts v (.answer n) = some v') :
    ∃ k a, (n, k) ∈ v.waiting ∧ (v.site.prog (.inl n)).result? = some a ∧
      (v.blocked script = true → script.sync k = true) ∧
      v' = { v with
        page := script.callback v.page k a
        waiting := v.waiting.filter fun x ↦ x.1 ≠ n } := by
  rw [next] at h
  split at h
  · rename_i n' k a hfind hresult
    have hfound := List.find?_some hfind
    obtain rfl : n' = n := of_decide_eq_true hfound
    split at h
    · cases h
    · rename_i hturn
      refine ⟨k, a, List.mem_of_find?_eq_some hfind, hresult, fun hblocked ↦ ?_, (Option.some.inj h).symm⟩
      exact Bool.not_eq_false _ |>.mp fun hsync ↦ hturn ⟨hblocked, hsync⟩
  · cases h

/-! ### Runs -/

variable (script M posts)

/-- Reachability from `v₀` through moves that satisfy `ok` in the state before them. -/
inductive Reach (ok : Visit S ι W L α P K → VisitMove ι E → Prop) (v₀ : Visit S ι W L α P K) :
    Visit S ι W L α P K → Prop where
  | refl : Reach ok v₀ v₀
  | move {v v' : Visit S ι W L α P K} {m : VisitMove ι E} :
      Reach ok v₀ v → ok v m → script.next M posts v m = some v' → Reach ok v₀ v'

/-- Perform a list of moves. -/
def perform : Visit S ι W L α P K → List (VisitMove ι E) → Option (Visit S ι W L α P K)
  | v, [] => some v
  | v, m :: ms => (script.next M posts v m).bind fun v' ↦ perform v' ms

/-- Every move of the list `ms`, performed from `v`, satisfies `ok`. -/
def AllMoves (ok : Visit S ι W L α P K → VisitMove ι E → Prop) :
    List (VisitMove ι E) → Visit S ι W L α P K → Prop
  | [], _ => True
  | m :: ms, v => ∀ v', script.next M posts v m = some v' → ok v m ∧ AllMoves ok ms v'

instance decidableAllMoves (ok : Visit S ι W L α P K → VisitMove ι E → Prop) [∀ v m, Decidable (ok v m)] :
    ∀ ms v, Decidable (script.AllMoves M posts ok ms v)
  | [], _ => isTrue trivial
  | m :: ms, v =>
    match h : script.next M posts v m with
    | none => isTrue fun _ h' ↦ (by cases h.symm.trans h')
    | some v' =>
      have := decidableAllMoves ok ms v'
      decidable_of_iff (ok v m ∧ script.AllMoves M posts ok ms v')
        ⟨fun hok _ h' ↦ Option.some.inj (h.symm.trans h') ▸ hok, fun hok ↦ hok v' h⟩

variable {script M posts} {ok ok' : Visit S ι W L α P K → VisitMove ι E → Prop}
  {v₀ v₁ v₂ : Visit S ι W L α P K}

theorem Reach.mono (h : ∀ v m, ok v m → ok' v m) (hv : script.Reach M posts ok v₀ v) :
    script.Reach M posts ok' v₀ v := by
  induction hv with
  | refl => exact .refl
  | move _ hok hn ih => exact .move ih (h _ _ hok) hn

theorem Reach.trans (h₁ : script.Reach M posts ok v₀ v₁) (h₂ : script.Reach M posts ok v₁ v₂) :
    script.Reach M posts ok v₀ v₂ := by
  induction h₂ with
  | refl => exact h₁
  | move _ hok hn ih => exact .move ih hok hn

/-- **Invariants.** -/
theorem Reach.invariant {I : Visit S ι W L α P K → Prop} (hv : script.Reach M posts ok v₀ v) (h₀ : I v₀)
    (hstep : ∀ v m v', script.Reach M posts ok v₀ v → I v → ok v m → script.next M posts v m = some v' →
      I v') : I v := by
  induction hv with
  | refl => exact h₀
  | move hreach hok hn ih => exact hstep _ _ _ hreach ih hok hn

/-- **Seen from the processes**, the client only decides when they move. -/
theorem Reach.site {okSite : State S (ℕ ⊕ ι) W L α → Move (ℕ ⊕ ι) → Prop}
    (hok : ∀ v m, ok v (.site m) → okSite v.site m) (hv : script.Reach M posts ok v₀ v) :
    M.Reach okSite v₀.site v.site := by
  induction hv with
  | refl => exact .refl
  | @move v v' m _ hm hn ih =>
    cases m with
    | site m =>
      obtain ⟨-, s, hs, rfl⟩ := next_site_cases hn
      exact ih.move (hok v m hm) hs
    | act e =>
      obtain ⟨-, page, request, -, ⟨-, rfl⟩ | ⟨k, -, rfl⟩⟩ := next_act_cases hn
      · exact ih
      · exact ih
    | answer n =>
      obtain ⟨k, a, -, -, -, rfl⟩ := next_answer_cases hn
      exact ih

/-- A process whose request has been answered has returned. -/
theorem Reach.returned (hv : script.Reach M posts ok v₀ v) (h₀ : v₀.posted = 0) {n : ℕ} (hn : n < v.posted)
    (hanswered : n ∉ v.waiting.map Prod.fst) : ∃ a, v.site.prog (.inl n) = .ret a := by
  induction hv with
  | refl => omega
  | @move v v' m _ _ hmove ih =>
    cases m with
    | site m =>
      obtain ⟨-, s, hs, rfl⟩ := next_site_cases hmove
      obtain ⟨a, ha⟩ := ih hn hanswered
      by_cases hne : (.inl n : ℕ ⊕ ι) = m.process
      · -- it does not move any more
        cases m with
        | step u =>
          obtain rfl : (.inl n : ℕ ⊕ ι) = u := hne
          rw [Machine.next, ha] at hs
          cases hs
        | kill u =>
          obtain rfl : (.inl n : ℕ ⊕ ι) = u := hne
          rw [Machine.next, ha] at hs
          cases hs
      · exact ⟨a, (M.next_other hs hne).1.trans ha⟩
    | act e =>
      obtain ⟨-, page, request, -, ⟨-, rfl⟩ | ⟨k, -, rfl⟩⟩ := next_act_cases hmove
      · exact ih hn hanswered
      · obtain ⟨hne, hanswered⟩ := not_or.1 fun h ↦ hanswered (List.mem_cons.2 h)
        exact ih (Nat.lt_of_le_of_ne (Nat.le_of_lt_succ hn) hne) hanswered
    | answer n' =>
      obtain ⟨k, a, -, hresult, -, rfl⟩ := next_answer_cases hmove
      by_cases hsame : n = n'
      · subst hsame
        exact ⟨a, Program.result?_eq_some_iff.1 hresult⟩
      · refine ih hn fun hmem ↦ hanswered ?_
        obtain ⟨x, hx, rfl⟩ := List.mem_map.1 hmem
        exact List.mem_map_of_mem (List.mem_filter.2 ⟨hx, decide_eq_true hsame⟩)

/-- A list of moves that all satisfy `ok` is a run of such moves. -/
theorem reach_of_allMoves {ms : List (VisitMove ι E)} (h : script.perform M posts v ms = some v')
    (hok : script.AllMoves M posts ok ms v) : script.Reach M posts ok v v' := by
  induction ms generalizing v with
  | nil =>
    cases h
    exact .refl
  | cons m ms ih =>
    obtain ⟨v₁, h₁, h₂⟩ := Option.bind_eq_some_iff.1 h
    obtain ⟨hm, hms⟩ := hok v₁ h₁
    exact (Reach.move .refl hm h₁).trans (ih h₂ hms)

end Script

end Interleave
