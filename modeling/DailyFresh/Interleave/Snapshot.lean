import DailyFresh.Interleave.Monitor

/-!
# Programs that read a store

Some commands only read; an `answer` function says what they are answered as long as the store does not
change, and answers no other command. `p.ahead answer` is what is left of the program when all its reads
have been answered up to the first other command, and `p.asked answer` are these reads. `Along answer p q`
says that the program `p` comes to `q` by reads.

A program that is along `p` comes to the same point as `p` (`Along.ahead_eq`), and this does not change
when the store changes and the reads of `p` are answered as before (`Along.congr`).
-/

namespace Interleave.Program

variable {S : Signature} {α β : Type} (answer : (c : S.Cmd) → Option (S.Resp c))

/-- What is left of the program at the first command that is not answered. -/
def ahead : Program S α → Program S α
  | ret a => ret a
  | call c k =>
    match answer c with
    | some r => (k r).ahead
    | none => call c k
  | poll c again k => poll c again k

/-- The commands that are answered on the way there. -/
def asked : Program S α → List S.Cmd
  | ret _ => []
  | call c k =>
    match answer c with
    | some r => c :: (k r).asked
    | none => []
  | poll _ _ _ => []

/-- The program comes to `q` by commands that are answered. -/
inductive Along (p : Program S α) : Program S α → Prop where
  | refl : Along p p
  | next {c : S.Cmd} {k : S.Resp c → Program S α} {r : S.Resp c} :
      Along p (call c k) → answer c = some r → Along p (k r)

variable {answer} {answer' : (c : S.Cmd) → Option (S.Resp c)} {p q : Program S α} {c : S.Cmd}
  {k : S.Resp c → Program S α}

theorem ahead_call_of_some {r : S.Resp c} (h : answer c = some r) :
    (call c k).ahead answer = (k r).ahead answer := by
  rw [ahead, h]

theorem ahead_call_of_none (h : answer c = none) : (call c k).ahead answer = call c k := by
  rw [ahead, h]

theorem asked_call_of_some {r : S.Resp c} (h : answer c = some r) :
    (call c k).asked answer = c :: (k r).asked answer := by
  rw [asked, h]

/-- **Sequencing**, when the first program only reads. -/
theorem ahead_bind {a : α} (h : p.ahead answer = ret a) (f : α → Program S β) :
    (p >>= f).ahead answer = (f a).ahead answer := by
  induction p with
  | ret b =>
    cases h
    rfl
  | call c k ih =>
    rcases hc : answer c with - | r
    · rw [ahead_call_of_none hc] at h
      cases h
    · rw [ahead_call_of_some hc] at h
      rw [call_bind, ahead_call_of_some hc]
      exact ih r h
  | poll c again k ih => cases h

/-- One read. -/
theorem ahead_send_bind {r : S.Resp c} (h : answer c = some r) (f : S.Resp c → Program S β) :
    (send c >>= f).ahead answer = (f r).ahead answer := ahead_call_of_some h

/-- A program comes to the same point if its reads, and no other commands, are answered the same way. -/
theorem ahead_congr (hnone : ∀ c, answer c = none → answer' c = none)
    (h : ∀ c ∈ p.asked answer, answer' c = answer c) : p.ahead answer' = p.ahead answer := by
  induction p with
  | ret a => rfl
  | poll c again k ih => rfl
  | call c k ih =>
    rcases hc : answer c with - | r
    · rw [ahead_call_of_none hc, ahead_call_of_none (hnone c hc)]
    · rw [asked_call_of_some hc] at h
      have hc' : answer' c = some r := (h c List.mem_cons_self).trans hc
      rw [ahead_call_of_some hc, ahead_call_of_some hc']
      exact ih r fun c hmem ↦ h c (List.mem_cons_of_mem _ hmem)

namespace Along

/-- A program on the way comes to the same point. -/
theorem ahead_eq (h : Along answer p q) : q.ahead answer = p.ahead answer := by
  induction h with
  | refl => rfl
  | next _ hc ih => exact (ahead_call_of_some hc).symm.trans ih

/-- A program on the way has part of the reads before it. -/
theorem asked_subset (h : Along answer p q) : q.asked answer ⊆ p.asked answer := by
  induction h with
  | refl => exact List.Subset.refl _
  | next _ hc ih =>
    rw [asked_call_of_some hc] at ih
    exact List.Subset.trans (List.subset_cons_self _ _) ih

/-- A program stays on the way if the reads are answered the same way. -/
theorem congr (h : Along answer p q) (hsame : ∀ c ∈ p.asked answer, answer' c = answer c) :
    Along answer' p q := by
  induction h with
  | refl => exact .refl
  | @next c k r hp hc ih =>
    have hmem : c ∈ p.asked answer := by
      refine hp.asked_subset ?_
      rw [asked_call_of_some hc]
      exact List.mem_cons_self
    exact ih.next ((hsame c hmem).trans hc)

/-- A program on the way whose next command is not answered has come to the end of the way. -/
theorem eq_of_none (h : Along answer p (call c k)) (hc : answer c = none) :
    p.ahead answer = call c k := h.ahead_eq.symm.trans (ahead_call_of_none hc)

/-- What comes after the first read. -/
theorem eq_or_sends {P : S.Cmd → Prop} (h : Along answer (call c k) q)
    (hk : ∀ r, Monitor.Sends P (k r)) : q = call c k ∨ Monitor.Sends P q := by
  induction h with
  | refl => exact .inl rfl
  | @next d k' r hp hd ih =>
    rcases ih with heq | hsends
    · obtain ⟨rfl, hk'⟩ := Program.call.inj heq
      cases hk'
      exact .inr (hk r)
    · exact .inr (hsends.2 r)

end Along

end Interleave.Program
