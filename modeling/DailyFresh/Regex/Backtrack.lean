import DailyFresh.Regex.Pattern

/-!
# Backtracking

The matcher of the engines: the places where a match can end, the preferred ones first. A repetition takes
as much as it can, and beyond its minimum it takes no iteration that reads nothing, so it comes to an end.

The places are those that the pattern leads to (`mem_ends`), so `re.match` finds a match at the start of a
text exactly if there is one (`isSome_match?_iff`), and a search finds one exactly if there is one somewhere
(`test_iff`). For a pattern `^p$` the two are the same (`test_line`).
-/

namespace Regex

variable {α : Type}

/-! ### The matcher -/

/-- `n` steps, and then `next`. -/
def exactly (step next : Cursor α → List (Cursor α)) : ℕ → Cursor α → List (Cursor α)
  | 0, x => next x
  | n + 1, x => (step x).flatMap (exactly step next n)

/-- As many steps as possible, `n` at most, all of which read something. -/
def upTo (step : Cursor α → List (Cursor α)) : ℕ → Cursor α → List (Cursor α)
  | 0, x => [x]
  | n + 1, x => ((step x).filter fun y ↦ x.read < y.read).flatMap (upTo step n) ++ [x]

namespace Engine

variable (E : Engine α)

/-- The places where a match from `x` can end, the preferred ones first. -/
def ends : Pattern → Cursor α → List (Cursor α)
  | .start, x => if x.read = 0 then [x] else []
  | .finish, x => if E.atEnd x.rest then [x] else []
  | .set items, x =>
    match x.rest with
    | [] => []
    | a :: rest => if E.takes items a then [⟨x.read + 1, rest⟩] else []
  | .seq p q, x => (ends p x).flatMap (ends q)
  | .rep p min max _, x =>
    -- without a maximum, what is left of the text bounds the steps that read something
    exactly (ends p) (fun y ↦ upTo (ends p) (max.elim y.rest.length (· - min)) y) min x

/-- `re.match(p, text)`: where the match at the start of the text ends. -/
def match? (p : Pattern) (text : List α) : Option (Cursor α) := (E.ends p ⟨0, text⟩).head?

/-- `p.test(text)`: there is a match somewhere in the text. -/
def test (p : Pattern) (text : List α) : Bool :=
  (List.range (text.length + 1)).any fun k ↦ (E.ends p ⟨k, text.drop k⟩).head?.isSome

end Engine

/-! ### What it finds -/

section Steps

variable {step next : Cursor α → List (Cursor α)} {R : Cursor α → Cursor α → Prop} {n : ℕ} {x y : Cursor α}

theorem mem_exactly (hstep : ∀ x y, y ∈ step x ↔ R x y) :
    y ∈ exactly step next n x ↔ ∃ z, Iterated R n x z ∧ y ∈ next z := by
  induction n generalizing x with
  | zero =>
    constructor
    · exact fun hy ↦ ⟨x, .zero x, hy⟩
    · rintro ⟨_, ⟨⟩, hy⟩
      exact hy
  | succ n ih =>
    rw [exactly, List.mem_flatMap]
    constructor
    · rintro ⟨v, hv, hy⟩
      obtain ⟨z, hz, hy⟩ := ih.1 hy
      exact ⟨z, .succ ((hstep x v).1 hv) hz, hy⟩
    · rintro ⟨z, _ | ⟨head, tail⟩, hy⟩
      exact ⟨_, (hstep x _).2 head, ih.2 ⟨z, tail, hy⟩⟩

theorem iterated_of_mem_upTo (hstep : ∀ x y, y ∈ step x ↔ R x y) (hy : y ∈ upTo step n x) :
    ∃ k ≤ n, Iterated R k x y := by
  induction n generalizing x with
  | zero =>
    obtain rfl := List.mem_singleton.1 hy
    exact ⟨0, le_rfl, .zero y⟩
  | succ n ih =>
    rcases List.mem_append.1 hy with hy | hy
    · obtain ⟨v, hv, hy⟩ := List.mem_flatMap.1 hy
      obtain ⟨k, hk, htail⟩ := ih hy
      exact ⟨k + 1, Nat.succ_le_succ hk, .succ ((hstep x v).1 (List.mem_of_mem_filter hv)) htail⟩
    · obtain rfl := List.mem_singleton.1 hy
      exact ⟨0, Nat.zero_le _, .zero y⟩

theorem self_mem_upTo : x ∈ upTo step n x := by
  cases n with
  | zero => exact List.mem_singleton_self x
  | succ n => exact List.mem_append_right _ (List.mem_singleton_self x)

/-- Steps that read nothing can be left out, so the rest of the text bounds the steps. -/
theorem mem_upTo_of_iterated (hstep : ∀ x y, y ∈ step x ↔ R x y)
    (hreads : ∀ x y, R x y → ∃ w, x.Reads w y) {k : ℕ} (h : Iterated R k x y)
    (hn : min k x.rest.length ≤ n) : y ∈ upTo step n x := by
  induction h generalizing n with
  | zero x => exact self_mem_upTo
  | @succ k x v y head tail ih =>
    obtain ⟨w, hw⟩ := hreads x v head
    rcases w with - | ⟨a, w⟩
    · obtain rfl := Cursor.reads_nil_iff.1 hw
      exact ih (by omega)
    · have hlength : x.rest.length = w.length + 1 + v.rest.length := by
        rw [hw.1, List.length_append, List.length_cons]
      have hread : x.read < v.read := by
        rw [hw.2, List.length_cons]
        omega
      rcases n with - | n
      · omega
      refine List.mem_append_left _ (List.mem_flatMap.2 ⟨v, ?_, ih (by omega)⟩)
      exact List.mem_filter.2 ⟨(hstep x v).2 head, decide_eq_true hread⟩

end Steps

namespace Engine

variable {E : Engine α} {p : Pattern} {x y : Cursor α} {text : List α}

/-- What a pattern leads over is read. -/
theorem Matches.reads (h : E.Matches p x y) : ∃ w, x.Reads w y := by
  have hiterated : ∀ {R : Cursor α → Cursor α → Prop}, (∀ x y, R x y → ∃ w, x.Reads w y) →
      ∀ {n x y}, Iterated R n x y → ∃ w, x.Reads w y := by
    intro R hR n x y hn
    induction hn with
    | zero x => exact ⟨[], Cursor.reads_nil_iff.2 rfl⟩
    | succ head _ ih =>
      obtain ⟨u, hu⟩ := hR _ _ head
      obtain ⟨v, hv⟩ := ih
      exact ⟨u ++ v, hu.append hv⟩
  induction p generalizing x y with
  | start => exact ⟨[], Cursor.reads_nil_iff.2 h.2⟩
  | finish => exact ⟨[], Cursor.reads_nil_iff.2 h.2⟩
  | set items =>
    obtain ⟨a, -, hrest, hread⟩ := h
    exact ⟨[a], hrest, hread⟩
  | seq p q ihp ihq =>
    obtain ⟨z, hz, hy⟩ := h
    obtain ⟨u, hu⟩ := ihp hz
    obtain ⟨v, hv⟩ := ihq hy
    exact ⟨u ++ v, hu.append hv⟩
  | rep p min max _ ih =>
    obtain ⟨n, -, -, hn⟩ := h
    exact hiterated (fun x y ↦ ih) hn

/-- **The matcher finds what the pattern means.** -/
theorem mem_ends : y ∈ E.ends p x ↔ E.Matches p x y := by
  induction p generalizing x y with
  | start =>
    rw [ends, Matches, List.mem_ite_nil_right, List.mem_singleton, eq_comm, and_comm]
  | finish =>
    rw [ends, Matches, List.mem_ite_nil_right, List.mem_singleton, eq_comm, and_comm]
  | set items =>
    obtain ⟨read, rest⟩ := x
    rcases rest with - | ⟨a, rest⟩
    · simp [ends, Matches]
    · rw [ends, Matches]
      dsimp only
      split
      · rename_i ha
        rw [List.mem_singleton]
        constructor
        · rintro rfl
          exact ⟨a, ha, rfl, rfl⟩
        · rintro ⟨_, -, hrest, hread⟩
          exact Cursor.ext hread (List.cons.inj hrest).2.symm
      · rename_i ha
        constructor
        · exact fun h ↦ nomatch h
        rintro ⟨_, hb, hrest, -⟩
        obtain ⟨rfl, -⟩ := List.cons.inj hrest
        exact absurd hb ha
  | seq p q ihp ihq =>
    rw [ends, Matches, List.mem_flatMap]
    exact exists_congr fun z ↦ and_congr ihp ihq
  | rep p min max hle ih =>
    have hstep : ∀ x y, y ∈ E.ends p x ↔ E.Matches p x y := fun x y ↦ ih
    rw [ends, Matches, mem_exactly hstep]
    constructor
    · rintro ⟨z, hz, hy⟩
      obtain ⟨k, hk, hiterated⟩ := iterated_of_mem_upTo hstep hy
      refine ⟨min + k, Nat.le_add_right .., fun m hm ↦ ?_, hz.append hiterated⟩
      obtain rfl := Option.mem_def.1 hm
      have hmin := hle m rfl
      have hk' : k ≤ m - min := hk
      omega
    · rintro ⟨n, hmin, hmax, hn⟩
      obtain ⟨k, rfl⟩ := Nat.exists_eq_add_of_le hmin
      obtain ⟨z, hz, hiterated⟩ := hn.split
      refine ⟨z, hz, mem_upTo_of_iterated hstep (fun x y ↦ Matches.reads) hiterated ?_⟩
      rcases max with - | m
      · exact Nat.min_le_right ..
      · have hm := hmax m rfl
        have hk : k ≤ m - min := by omega
        exact (Nat.min_le_left ..).trans hk

theorem isSome_ends : (E.ends p x).head?.isSome = true ↔ ∃ y, E.Matches p x y := by
  rw [List.isSome_head?]
  constructor
  · intro hne
    obtain ⟨y, hy⟩ := List.exists_mem_of_ne_nil _ hne
    exact ⟨y, mem_ends.1 hy⟩
  · rintro ⟨y, hy⟩
    exact List.ne_nil_of_mem (mem_ends.2 hy)

theorem isSome_match?_iff : (E.match? p text).isSome = true ↔ ∃ y, E.Matches p ⟨0, text⟩ y := isSome_ends

theorem test_iff : E.test p text = true ↔ ∃ k ≤ text.length, ∃ y, E.Matches p ⟨k, text.drop k⟩ y := by
  rw [test, List.any_eq_true]
  refine exists_congr fun k ↦ and_congr ?_ isSome_ends
  rw [List.mem_range, Nat.lt_succ_iff]

/-! ### Lines -/

/-- **`re.match(r'^p$', text)`** -/
theorem isSome_match?_line_iff (h : p.anchorFree = true) : (E.match? p.line text).isSome = true ↔
    ∃ w ∈ E.language p, ∃ rest, text = w ++ rest ∧ E.atEnd rest = true := by
  rw [isSome_match?_iff, matches_line_iff h]
  exact and_iff_right rfl

/-- **`/^p$/.test(text)`**: no search finds more than the match at the start. -/
theorem test_line (h : p.anchorFree = true) : E.test p.line text = (E.match? p.line text).isSome := by
  refine Bool.eq_iff_iff.2 ?_
  rw [test_iff, isSome_match?_iff]
  constructor
  · rintro ⟨k, -, hy⟩
    obtain rfl := ((matches_line_iff h).1 hy).1
    exact hy
  · exact fun hy ↦ ⟨0, Nat.zero_le _, hy⟩

end Engine

end Regex
