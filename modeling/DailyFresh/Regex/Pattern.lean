import Mathlib.Computability.Language

/-!
# Regular expressions

The patterns that engines with different ideas of a character have in common. An `Engine` says how a
pattern is read over an alphabet: which code a character has, which characters `\w` takes, and where `$`
holds. `Engine.Matches` is what a pattern means, as a relation between two places in a text.

A pattern without anchors takes the words of a language (`matches_iff_language`). Two engines that read the
characters of a word alike agree on the word (`map_mem_language_iff`), and a word has only characters that
some class of the pattern takes (`forall_of_mem_language`).
-/

namespace Regex

/-! ### Syntax -/

/-- An item of a character class. -/
inductive ClassItem where
  | char (c : Char)
  /-- `lo-hi`. -/
  | range (lo hi : Char)
  /-- `\w`. -/
  | word

/-- Regular expressions. A group that nothing refers to is its pattern. -/
inductive Pattern where
  /-- `^`. -/
  | start
  /-- `$`. -/
  | finish
  /-- `[items]`; a character alone is a class of one item. -/
  | set (items : List ClassItem)
  /-- `pq`. -/
  | seq (p q : Pattern)
  /-- `p{min,max}`, without `max` for `p{min,}`. -/
  | rep (p : Pattern) (min : ℕ) (max : Option ℕ) (le : ∀ m ∈ max, min ≤ m)

namespace Pattern

/-- `p*`. -/
def star (p : Pattern) : Pattern := .rep p 0 none nofun

/-- `p+`. -/
def plus (p : Pattern) : Pattern := .rep p 1 none nofun

/-- `^p$`. -/
def line (p : Pattern) : Pattern := .seq .start (.seq p .finish)

/-- The pattern has no anchor. -/
def anchorFree : Pattern → Bool
  | start => false
  | finish => false
  | set _ => true
  | seq p q => p.anchorFree && q.anchorFree
  | rep p .. => p.anchorFree

end Pattern

/-! ### Meaning -/

/-- How a pattern is read over the alphabet `α`. -/
structure Engine (α : Type) where
  /-- The code of a character, by which classes compare. -/
  code : α → ℕ
  /-- `\w`. -/
  isWord : α → Bool
  /-- Whether `$` holds before this rest of the text. -/
  atEnd : List α → Bool

/-- A place in a text: how much has been read, and what is left. -/
@[ext]
structure Cursor (α : Type) where
  read : ℕ
  rest : List α

/-- `n` steps of `R`, one after the other. -/
inductive Iterated {β : Type} (R : β → β → Prop) : ℕ → β → β → Prop where
  | zero (x : β) : Iterated R 0 x x
  | succ {n : ℕ} {x y z : β} (head : R x y) (tail : Iterated R n y z) : Iterated R (n + 1) x z

namespace Engine

variable {α : Type} (E : Engine α)

/-- The item takes the character. -/
def takesItem : ClassItem → α → Bool
  | .char c, a => E.code a = c.toNat
  | .range lo hi, a => lo.toNat ≤ E.code a && E.code a ≤ hi.toNat
  | .word, a => E.isWord a

/-- The class takes the character. -/
def takes (items : List ClassItem) (a : α) : Bool := items.any fun item ↦ E.takesItem item a

/-- The pattern leads from one place to another. -/
def Matches : Pattern → Cursor α → Cursor α → Prop
  | .start, x, y => x.read = 0 ∧ y = x
  | .finish, x, y => E.atEnd x.rest = true ∧ y = x
  | .set items, x, y => ∃ a, E.takes items a = true ∧ x.rest = a :: y.rest ∧ y.read = x.read + 1
  | .seq p q, x, z => ∃ y, Matches p x y ∧ Matches q y z
  | .rep p min max _, x, y => ∃ n, min ≤ n ∧ (∀ m ∈ max, n ≤ m) ∧ Iterated (Matches p) n x y

/-- The words of a pattern; the anchors take the empty word. -/
def language : Pattern → Language α
  | .start => 1
  | .finish => 1
  | .set items => {w | ∃ a, E.takes items a = true ∧ w = [a]}
  | .seq p q => language p * language q
  | .rep p min max _ => {w | ∃ n, min ≤ n ∧ (∀ m ∈ max, n ≤ m) ∧ w ∈ language p ^ n}

end Engine

namespace Iterated

variable {β : Type} {R : β → β → Prop} {m n : ℕ} {x y z : β}

theorem append (h : Iterated R m x y) (h' : Iterated R n y z) : Iterated R (m + n) x z := by
  induction h with
  | zero => rwa [Nat.zero_add]
  | succ head _ ih =>
    rw [Nat.succ_add]
    exact .succ head (ih h')

theorem split (h : Iterated R (m + n) x z) : ∃ y, Iterated R m x y ∧ Iterated R n y z := by
  induction m generalizing x with
  | zero => exact ⟨x, .zero x, by rwa [Nat.zero_add] at h⟩
  | succ m ih =>
    rw [Nat.succ_add] at h
    cases h with
    | succ head tail =>
      obtain ⟨y, hy, hz⟩ := ih tail
      exact ⟨y, .succ head hy, hz⟩

end Iterated

/-! ### Words -/

namespace Cursor

variable {α : Type} {x y z : Cursor α} {w v : List α}

/-- Reading the word leads from `x` to `y`. -/
def Reads (x : Cursor α) (w : List α) (y : Cursor α) : Prop :=
  x.rest = w ++ y.rest ∧ y.read = x.read + w.length

theorem reads_nil_iff : x.Reads [] y ↔ y = x := by
  refine ⟨fun ⟨hrest, hread⟩ ↦ Cursor.ext hread hrest.symm, ?_⟩
  rintro rfl
  exact ⟨rfl, rfl⟩

theorem Reads.append (h : x.Reads w y) (h' : y.Reads v z) : x.Reads (w ++ v) z := by
  refine ⟨by rw [h.1, h'.1, List.append_assoc], ?_⟩
  rw [h'.2, h.2, List.length_append, Nat.add_assoc]

theorem reads_append_iff : x.Reads (w ++ v) z ↔ ∃ y, x.Reads w y ∧ y.Reads v z := by
  constructor
  · rintro ⟨hrest, hread⟩
    refine ⟨⟨x.read + w.length, v ++ z.rest⟩, ⟨by rw [hrest, List.append_assoc], rfl⟩, rfl, ?_⟩
    rw [hread, List.length_append, Nat.add_assoc]
  · rintro ⟨y, h, h'⟩
    exact h.append h'

/-- Reading the word at the start of the rest. -/
theorem reads_append (k : ℕ) (w rest : List α) :
    (⟨k, w ++ rest⟩ : Cursor α).Reads w ⟨k + w.length, rest⟩ := ⟨rfl, rfl⟩

end Cursor

namespace Engine

variable {α β : Type} {E : Engine α} {p q : Pattern} {x y : Cursor α} {w : List α}

theorem mem_language_pow_succ {L : Language α} {n : ℕ} :
    w ∈ L ^ (n + 1) ↔ ∃ u ∈ L, ∃ v ∈ L ^ n, u ++ v = w := by
  rw [pow_succ', Language.mem_mul]

/-- The steps of a pattern with a language read the words of its power. -/
theorem iterated_iff_pow {L : Language α} {R : Cursor α → Cursor α → Prop}
    (hR : ∀ x y, R x y ↔ ∃ w ∈ L, x.Reads w y) (n : ℕ) :
    ∀ x y, Iterated R n x y ↔ ∃ w ∈ L ^ n, x.Reads w y := by
  induction n with
  | zero =>
    intro x y
    simp only [pow_zero, Language.mem_one, exists_eq_left, Cursor.reads_nil_iff]
    constructor
    · rintro ⟨⟩
      rfl
    · rintro rfl
      exact .zero y
  | succ n ih =>
    intro x z
    constructor
    · rintro (_ | ⟨head, tail⟩)
      obtain ⟨u, hu, hreads⟩ := (hR _ _).1 head
      obtain ⟨v, hv, hreads'⟩ := (ih _ _).1 tail
      exact ⟨u ++ v, mem_language_pow_succ.2 ⟨u, hu, v, hv, rfl⟩, hreads.append hreads'⟩
    · rintro ⟨w, hw, hreads⟩
      obtain ⟨u, hu, v, hv, rfl⟩ := mem_language_pow_succ.1 hw
      obtain ⟨y, hy, hz⟩ := Cursor.reads_append_iff.1 hreads
      exact .succ ((hR _ _).2 ⟨u, hu, hy⟩) ((ih _ _).2 ⟨v, hv, hz⟩)

/-- **A pattern without anchors** takes the words of its language. -/
theorem matches_iff_language (h : p.anchorFree = true) :
    E.Matches p x y ↔ ∃ w ∈ E.language p, x.Reads w y := by
  induction p generalizing x y with
  | start => cases h
  | finish => cases h
  | set items =>
    constructor
    · rintro ⟨a, ha, hrest, hread⟩
      exact ⟨[a], ⟨a, ha, rfl⟩, hrest, hread⟩
    · rintro ⟨_, ⟨a, ha, rfl⟩, hrest, hread⟩
      exact ⟨a, ha, hrest, hread⟩
  | seq p q ihp ihq =>
    obtain ⟨hp, hq⟩ := Bool.and_eq_true_iff.1 h
    constructor
    · rintro ⟨z, hz, hy⟩
      obtain ⟨u, hu, hreads⟩ := (ihp hp).1 hz
      obtain ⟨v, hv, hreads'⟩ := (ihq hq).1 hy
      exact ⟨u ++ v, Language.append_mem_mul hu hv, hreads.append hreads'⟩
    · rintro ⟨w, hw, hreads⟩
      obtain ⟨u, hu, v, hv, rfl⟩ := Language.mem_mul.1 hw
      obtain ⟨z, hz, hy⟩ := Cursor.reads_append_iff.1 hreads
      exact ⟨z, (ihp hp).2 ⟨u, hu, hz⟩, (ihq hq).2 ⟨v, hv, hy⟩⟩
  | rep p min max hle ih =>
    have hpow := iterated_iff_pow fun x y ↦ ih (x := x) (y := y) h
    constructor
    · rintro ⟨n, hmin, hmax, hn⟩
      obtain ⟨w, hw, hreads⟩ := (hpow n x y).1 hn
      exact ⟨w, ⟨n, hmin, hmax, hw⟩, hreads⟩
    · rintro ⟨w, ⟨n, hmin, hmax, hw⟩, hreads⟩
      exact ⟨n, hmin, hmax, (hpow n x y).2 ⟨w, hw, hreads⟩⟩

/-! ### Repetitions of a class -/

variable {items : List ClassItem}

@[simp] theorem takes_nil {a : α} : E.takes [] a = false := rfl

@[simp] theorem takes_cons {item : ClassItem} {a : α} :
    E.takes (item :: items) a = (E.takesItem item a || E.takes items a) := rfl

theorem mem_language_set_pow {n : ℕ} :
    w ∈ E.language (.set items) ^ n ↔ (∀ a ∈ w, E.takes items a = true) ∧ w.length = n := by
  induction n generalizing w with
  | zero =>
    rw [pow_zero, Language.mem_one, List.length_eq_zero_iff]
    constructor
    · rintro rfl
      exact ⟨fun a ha ↦ (nomatch ha), rfl⟩
    · exact And.right
  | succ n ih =>
    rw [mem_language_pow_succ]
    constructor
    · rintro ⟨_, ⟨a, ha, rfl⟩, v, hv, rfl⟩
      obtain ⟨hall, hlength⟩ := ih.1 hv
      exact ⟨List.forall_mem_cons.2 ⟨ha, hall⟩, congrArg Nat.succ hlength⟩
    · rintro ⟨hall, hlength⟩
      obtain ⟨a, v, rfl⟩ := List.exists_cons_of_length_eq_add_one hlength
      obtain ⟨ha, hv⟩ := List.forall_mem_cons.1 hall
      exact ⟨[a], ⟨a, ha, rfl⟩, v, ih.2 ⟨hv, Nat.succ.inj hlength⟩, rfl⟩

/-- `[items]{min,max}`. -/
theorem mem_language_rep_set_iff {min : ℕ} {max : Option ℕ} {hle : ∀ m ∈ max, min ≤ m} :
    w ∈ E.language (.rep (.set items) min max hle) ↔
      (∀ a ∈ w, E.takes items a = true) ∧ min ≤ w.length ∧ ∀ m ∈ max, w.length ≤ m := by
  constructor
  · rintro ⟨n, hmin, hmax, hn⟩
    obtain ⟨hall, rfl⟩ := mem_language_set_pow.1 hn
    exact ⟨hall, hmin, hmax⟩
  · rintro ⟨hall, hmin, hmax⟩
    exact ⟨_, hmin, hmax, mem_language_set_pow.2 ⟨hall, rfl⟩⟩

/-- `[items]*`. -/
theorem mem_language_star_set_iff :
    w ∈ E.language (Pattern.set items).star ↔ ∀ a ∈ w, E.takes items a = true := by
  rw [Pattern.star, mem_language_rep_set_iff]
  exact and_iff_left ⟨Nat.zero_le _, nofun⟩

/-- `[items]+`. -/
theorem mem_language_plus_set_iff :
    w ∈ E.language (Pattern.set items).plus ↔ (∀ a ∈ w, E.takes items a = true) ∧ w ≠ [] := by
  rw [Pattern.plus, mem_language_rep_set_iff, ← List.length_pos_iff]
  exact and_congr_right fun _ ↦ and_iff_left nofun

/-! ### Lines -/

/-- **`^p$`** at the start of a text: a word of `p`, and a rest that `$` holds before. -/
theorem matches_line_iff (h : p.anchorFree = true) {k : ℕ} {text : List α} :
    (∃ y, E.Matches p.line ⟨k, text⟩ y) ↔
      k = 0 ∧ ∃ w ∈ E.language p, ∃ rest, text = w ++ rest ∧ E.atEnd rest = true := by
  constructor
  · rintro ⟨y, _, ⟨hstart, rfl⟩, z, hp, hend, -⟩
    obtain ⟨w, hw, hrest, -⟩ := (matches_iff_language h).1 hp
    exact ⟨hstart, w, hw, z.rest, hrest, hend⟩
  · rintro ⟨rfl, w, hw, rest, rfl, hend⟩
    have hp := (matches_iff_language h).2 ⟨w, hw, Cursor.reads_append 0 w rest⟩
    exact ⟨_, _, ⟨rfl, rfl⟩, _, hp, hend, rfl⟩

/-! ### Words of two engines -/

/-- `E'` reads `f a` as `E` reads `a`. -/
structure ReadsAs (E : Engine α) (E' : Engine β) (f : α → β) (a : α) : Prop where
  code : E'.code (f a) = E.code a
  isWord : E'.isWord (f a) = E.isWord a

variable {E' : Engine β} {f : α → β}

theorem ReadsAs.takes {a : α} (h : ReadsAs E E' f a) (items : List ClassItem) :
    E'.takes items (f a) = E.takes items a := by
  have hitem : ∀ item, E'.takesItem item (f a) = E.takesItem item a := by
    intro item
    cases item with
    | char c => simp only [takesItem, h.code]
    | range lo hi => simp only [takesItem, h.code]
    | word => exact h.isWord
  simp only [Engine.takes, hitem]

theorem map_mem_pow_iff {L : Language α} {L' : Language β} {P : α → Prop}
    (hL : ∀ w : List α, (∀ a ∈ w, P a) → (w.map f ∈ L' ↔ w ∈ L)) (n : ℕ) :
    ∀ w : List α, (∀ a ∈ w, P a) → (w.map f ∈ L' ^ n ↔ w ∈ L ^ n) := by
  induction n with
  | zero => simp
  | succ n ih =>
    intro w hw
    rw [mem_language_pow_succ, mem_language_pow_succ]
    constructor
    · rintro ⟨u', hu, v', hv, heq⟩
      obtain ⟨u, v, rfl, rfl, rfl⟩ := List.map_eq_append_iff.1 heq.symm
      obtain ⟨hwu, hwv⟩ := List.forall_mem_append.1 hw
      exact ⟨u, (hL u hwu).1 hu, v, (ih v hwv).1 hv, rfl⟩
    · rintro ⟨u, hu, v, hv, rfl⟩
      obtain ⟨hwu, hwv⟩ := List.forall_mem_append.1 hw
      exact ⟨u.map f, (hL u hwu).2 hu, v.map f, (ih v hwv).2 hv, List.map_append.symm⟩

/-- **Engines that read the characters of a word alike** agree on the word. -/
theorem map_mem_language_iff (hw : ∀ a ∈ w, ReadsAs E E' f a) :
    w.map f ∈ E'.language p ↔ w ∈ E.language p := by
  induction p generalizing w with
  | start => exact List.map_eq_nil_iff
  | finish => exact List.map_eq_nil_iff
  | set items =>
    constructor
    · rintro ⟨_, ha, heq⟩
      obtain ⟨a, rfl, rfl⟩ := List.map_eq_singleton_iff.1 heq
      exact ⟨a, (hw a List.mem_cons_self).takes items ▸ ha, rfl⟩
    · rintro ⟨a, ha, rfl⟩
      exact ⟨f a, ((hw a List.mem_cons_self).takes items).trans ha, rfl⟩
  | seq p q ihp ihq =>
    constructor
    · intro h
      obtain ⟨u', hu, v', hv, heq⟩ := Language.mem_mul.1 h
      obtain ⟨u, v, rfl, rfl, rfl⟩ := List.map_eq_append_iff.1 heq.symm
      obtain ⟨hwu, hwv⟩ := List.forall_mem_append.1 hw
      exact Language.append_mem_mul ((ihp hwu).1 hu) ((ihq hwv).1 hv)
    · intro h
      obtain ⟨u, hu, v, hv, rfl⟩ := Language.mem_mul.1 h
      obtain ⟨hwu, hwv⟩ := List.forall_mem_append.1 hw
      rw [List.map_append]
      exact Language.append_mem_mul ((ihp hwu).2 hu) ((ihq hwv).2 hv)
  | rep p min max _ ih =>
    have hpow := map_mem_pow_iff (P := ReadsAs E E' f) fun v hv ↦ ih (w := v) hv
    exact exists_congr fun n ↦ and_congr_right fun _ ↦ and_congr_right fun _ ↦ hpow n w hw

/-! ### Characters of a word -/

/-- Every class of the pattern takes characters with `P` only. -/
def TakesOnly (E : Engine α) (P : α → Prop) : Pattern → Prop
  | .start => True
  | .finish => True
  | .set items => ∀ a, E.takes items a = true → P a
  | .seq p q => TakesOnly E P p ∧ TakesOnly E P q
  | .rep p .. => TakesOnly E P p

/-- **The characters of a word** are among those that the classes take. -/
theorem forall_of_mem_language {P : α → Prop} (h : E.TakesOnly P p) (hw : w ∈ E.language p) :
    ∀ a ∈ w, P a := by
  induction p generalizing w with
  | start =>
    obtain rfl := hw
    exact fun a ha ↦ nomatch ha
  | finish =>
    obtain rfl := hw
    exact fun a ha ↦ nomatch ha
  | set items =>
    obtain ⟨a, ha, rfl⟩ := hw
    exact fun b hb ↦ List.mem_singleton.1 hb ▸ h a ha
  | seq p q ihp ihq =>
    obtain ⟨u, hu, v, hv, rfl⟩ := Language.mem_mul.1 hw
    exact List.forall_mem_append.2 ⟨ihp h.1 hu, ihq h.2 hv⟩
  | rep p min max _ ih =>
    obtain ⟨n, -, -, hn⟩ := hw
    obtain ⟨words, rfl, -, hwords⟩ := Language.mem_pow.1 hn
    intro a ha
    obtain ⟨v, hv, hav⟩ := List.mem_flatten.1 ha
    exact ih h (hwords v hv) a hav

end Engine

end Regex
