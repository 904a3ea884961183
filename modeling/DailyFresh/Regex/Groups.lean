import DailyFresh.Regex.Engines
import Mathlib.Data.List.TakeWhile

/-!
# Patterns with groups

A pattern that is a row of pieces: texts that are read as they are, named groups that take a run of characters
of one class, and `$`. `capture` reads the start of a text as a backtracking engine does: a group takes the
longest run with which the rest of the row still matches.

Where no group can go on with what follows it (`decided`), there is only one way to read a text:
`capture_eq_some_iff` says what is read and what is left. Then `fill`, which writes arguments into the groups,
is undone by `capture` exactly if every group takes its argument (`capture_fill_iff`). And two rows that
differ early enough never read the same text (`not_begins_of_apart`).
-/

namespace Regex

/-! ### Rows of pieces -/

/-- A class of characters. -/
inductive CharClass where
  /-- `\d`. -/
  | digit
  /-- `.`. -/
  | dot
  deriving DecidableEq

/-- A piece of a pattern. -/
inductive Piece where
  | text (s : List Char)
  /-- `(?P<name>c{min,})`. -/
  | group (name : String) (c : CharClass) (min : ℕ)
  /-- `$`. -/
  | finish

/-- What `\d` takes of the ASCII characters. -/
def AsciiDigit (isDigit : Char → Bool) : Prop := ∀ c, IsAscii c → isDigit c = c.isDigit

/-- The class takes the character; `isDigit` is what `\d` takes. -/
def CharClass.takes (isDigit : Char → Bool) : CharClass → Char → Bool
  | digit, a => isDigit a
  | dot, a => decide (a ≠ '\n')

/-- `$` holds at the end and before a final newline. -/
def AtEnd (text : List Char) : Prop := text = [] ∨ text = ['\n']

instance (text : List Char) : Decidable (AtEnd text) := inferInstanceAs (Decidable (_ ∨ _))

/-- The names of the groups. -/
def groupNames : List Piece → List String
  | [] => []
  | .group name _ _ :: ps => name :: groupNames ps
  | _ :: ps => groupNames ps

section Rows

variable (isDigit : Char → Bool)

/-- What the groups take at the start of the text, and what is left of it. -/
def capture : List Piece → List Char → Option (List (List Char) × List Char)
  | [], text => some ([], text)
  | .text s :: ps, text => if s.isPrefixOf text then capture ps (text.drop s.length) else none
  | .group _ c min :: ps, text =>
    -- the longest run first
    (List.range ((text.takeWhile (c.takes isDigit)).length + 1)).reverse.findSome? fun k ↦
      if min ≤ k then (capture ps (text.drop k)).map fun x ↦ (text.take k :: x.1, x.2) else none
  | .finish :: ps, text => if AtEnd text then capture ps text else none

/-- The text with these arguments in the groups. -/
def fill : List Piece → List (List Char) → Option (List Char)
  | [], [] => some []
  | [], _ :: _ => none
  | .text s :: ps, ws => (fill ps ws).map (s ++ ·)
  | .group .. :: _, [] => none
  | .group .. :: ps, w :: ws => (fill ps ws).map (w ++ ·)
  | .finish :: ps, ws => fill ps ws

/-- Every group takes its argument. -/
def Takes : List Piece → List (List Char) → Prop
  | [], ws => ws = []
  | .text _ :: ps, ws => Takes ps ws
  | .group .. :: _, [] => False
  | .group _ c min :: ps, w :: ws => (∀ a ∈ w, c.takes isDigit a = true) ∧ min ≤ w.length ∧ Takes ps ws
  | .finish :: ps, ws => Takes ps ws

/-- What may be left of the text. -/
def Leaves : List Piece → List Char → Prop
  | [], _ => True
  | .text _ :: ps, rest => Leaves ps rest
  | .group _ c _ :: ps, rest => (ps = [] → ∀ a ∈ rest.head?, c.takes isDigit a = false) ∧ Leaves ps rest
  | .finish :: _, rest => AtEnd rest

end Rows

/-! ### One way to read a text -/

/-- A group of the class stops where this row begins. -/
def stops (c : CharClass) : List Piece → Bool
  | [] => true
  | .finish :: _ => true
  | .text (a :: _) :: _ => decide (IsAscii a) && !c.takes Char.isDigit a
  | _ => false

/-- Every group stops where the next piece begins, and `$` comes last. -/
def decided : List Piece → Bool
  | [] => true
  | .text _ :: ps => decided ps
  | .group _ c _ :: ps => stops c ps && decided ps
  | .finish :: ps => ps.isEmpty

section Decided

variable {isDigit : Char → Bool} {c : CharClass} {ps : List Piece} {ws : List (List Char)} {w text rest : List Char}
  {a : Char}

theorem takes_of_isAscii (hdigit : AsciiDigit isDigit) (ha : IsAscii a) :
    c.takes isDigit a = c.takes Char.isDigit a := by
  cases c with
  | digit => exact hdigit a ha
  | dot => rfl

theorem takes_newline (hdigit : AsciiDigit isDigit) : c.takes isDigit '\n' = false := by
  rw [takes_of_isAscii hdigit (by decide)]
  cases c with
  | digit => decide
  | dot => decide

/-- `$` holds at no character of a class. -/
theorem not_atEnd_cons (hdigit : AsciiDigit isDigit) (ha : c.takes isDigit a = true) : ¬ AtEnd (a :: text) := by
  rintro (h | h)
  · cases h
  · rw [(List.cons.inj h).1, takes_newline hdigit] at ha
    cases ha

/-- What follows a group reads no character of it. -/
theorem capture_of_stops (hdigit : AsciiDigit isDigit) (hstops : stops c ps = true) (hps : ps ≠ [])
    (ha : c.takes isDigit a = true) : capture isDigit ps (a :: text) = none := by
  match ps, hstops with
  | [], _ => exact absurd rfl hps
  | .finish :: ps, _ => exact if_neg (not_atEnd_cons hdigit ha)
  | .text (b :: s) :: ps, hstops =>
    obtain ⟨hb, htakes⟩ := Bool.and_eq_true_iff.1 hstops
    refine if_neg fun hprefix ↦ ?_
    obtain ⟨rest, hrest⟩ := List.isPrefixOf_iff_prefix.1 hprefix
    obtain rfl : b = a := (List.cons.inj hrest).1
    rw [takes_of_isAscii hdigit (of_decide_eq_true hb)] at ha
    rw [ha] at htakes
    cases htakes

/-- **A group takes all it can**, if it stops where the row goes on. -/
theorem capture_group (hdigit : AsciiDigit isDigit) (hstops : stops c ps = true) (name : String) (min : ℕ)
    (text : List Char) : capture isDigit (.group name c min :: ps) text =
      if min ≤ (text.takeWhile (c.takes isDigit)).length then
        (capture isDigit ps (text.dropWhile (c.takes isDigit))).map fun x ↦
          (text.takeWhile (c.takes isDigit) :: x.1, x.2)
      else none := by
  rw [capture, List.range_succ, List.reverse_append, List.reverse_singleton, List.singleton_append,
    List.findSome?_cons]
  -- the shorter runs are followed by a character of the class
  have hshorter : (List.range (text.takeWhile (c.takes isDigit)).length).reverse.findSome? (fun k ↦
      if min ≤ k then (capture isDigit ps (text.drop k)).map fun x ↦ (text.take k :: x.1, x.2) else none) =
        none ∨ ps = [] := by
    refine or_iff_not_imp_right.2 fun hps ↦ List.findSome?_eq_none_iff.2 fun k hk ↦ ?_
    have hlt := List.mem_range.1 (List.mem_reverse.1 hk)
    have hsplit : text.drop k = (text.takeWhile (c.takes isDigit)).drop k ++
        text.dropWhile (c.takes isDigit) := by
      conv_lhs => rw [← List.takeWhile_append_dropWhile (p := c.takes isDigit) (l := text)]
      rw [List.drop_append_of_le_length hlt.le]
    have hmem := List.getElem_mem hlt
    rw [hsplit, List.drop_eq_getElem_cons hlt, List.cons_append,
      capture_of_stops hdigit hstops hps (List.mem_takeWhile_imp hmem)]
    exact ite_self _
  have hsplit := List.takeWhile_append_dropWhile (p := c.takes isDigit) (l := text)
  have htake : text.take (text.takeWhile (c.takes isDigit)).length = text.takeWhile (c.takes isDigit) :=
    (congrArg _ hsplit.symm).trans (List.take_left' rfl)
  have hdrop : text.drop (text.takeWhile (c.takes isDigit)).length = text.dropWhile (c.takes isDigit) :=
    (congrArg _ hsplit.symm).trans (List.drop_left' rfl)
  rw [htake, hdrop]
  by_cases hmin : min ≤ (text.takeWhile (c.takes isDigit)).length
  · rw [if_pos hmin]
    rcases hrest : capture isDigit ps (text.dropWhile (c.takes isDigit)) with - | x
    · obtain hnone | rfl := hshorter
      · exact hnone
      · cases hrest
    · rfl
  · -- no run is long enough
    rw [if_neg hmin]
    refine List.findSome?_eq_none_iff.2 fun k hk ↦ if_neg ?_
    have hlt := List.mem_range.1 (List.mem_reverse.1 hk)
    omega

theorem leaves_nil : ∀ ps, Leaves isDigit ps []
  | [] => trivial
  | .text _ :: ps => leaves_nil ps
  | .group .. :: ps => ⟨fun _ _ h ↦ (by cases h), leaves_nil ps⟩
  | .finish :: _ => .inl rfl

theorem takeWhile_append {p : Char → Bool} {v u : List Char} (hv : ∀ a ∈ v, p a = true)
    (hu : ∀ a ∈ u.head?, p a = false) : (v ++ u).takeWhile p = v ∧ (v ++ u).dropWhile p = u := by
  rw [List.takeWhile_append_of_pos hv, List.dropWhile_append_of_pos hv]
  rcases u with - | ⟨a, u⟩
  · exact ⟨List.append_nil v, rfl⟩
  · have ha : ¬ p a = true := by
      rw [hu a rfl]
      exact Bool.false_ne_true
    rw [List.takeWhile_cons_of_neg ha, List.dropWhile_cons_of_neg ha]
    exact ⟨List.append_nil v, rfl⟩

/-- A group stops at what follows it in the text. -/
theorem head_of_stops (hdigit : AsciiDigit isDigit) (hstops : stops c ps = true) (hw : fill ps ws = some w)
    (hend : ps = [] → ∀ a ∈ rest.head?, c.takes isDigit a = false) (hrest : Leaves isDigit ps rest)
    (hps : decided ps = true) :
    ∀ a ∈ (w ++ rest).head?, c.takes isDigit a = false := by
  match ps, hstops with
  | [], _ =>
    cases ws with
    | nil =>
      cases hw
      exact hend rfl
    | cons => cases hw
  | .finish :: ps, _ =>
    obtain rfl := List.isEmpty_iff.1 hps
    cases ws with
    | nil =>
      cases hw
      obtain rfl | rfl : AtEnd rest := hrest
      · exact fun _ h ↦ (by cases h)
      · intro a ha
        obtain rfl := Option.some.inj ha
        exact takes_newline hdigit
    | cons => cases hw
  | .text (b :: s) :: ps, hstops =>
    obtain ⟨hb, htakes⟩ := Bool.and_eq_true_iff.1 hstops
    obtain ⟨v, -, rfl⟩ := Option.map_eq_some_iff.1 hw
    intro a ha
    obtain rfl : b = a := Option.some.inj ha
    rw [takes_of_isAscii hdigit (of_decide_eq_true hb)]
    exact (Bool.not_eq_true' _).mp htakes

/-- **What a row reads.** -/
theorem capture_eq_some_iff (hdigit : AsciiDigit isDigit) (hps : decided ps = true) :
    capture isDigit ps text = some (ws, rest) ↔
      ∃ w, fill ps ws = some w ∧ text = w ++ rest ∧ Takes isDigit ps ws ∧ Leaves isDigit ps rest := by
  induction ps generalizing text ws with
  | nil =>
    constructor
    · intro h
      cases h
      exact ⟨[], rfl, rfl, rfl, trivial⟩
    · rintro ⟨w, hw, rfl, hws, -⟩
      obtain rfl : ws = [] := hws
      cases hw
      rfl
  | cons p ps ih =>
    cases p with
    | text s =>
      have hps : decided ps = true := hps
      rw [capture]
      constructor
      · intro h
        split at h
        · rename_i hprefix
          obtain ⟨u, rfl⟩ := List.isPrefixOf_iff_prefix.1 hprefix
          rw [List.drop_left' rfl] at h
          obtain ⟨w, hw, rfl, hws, hrest⟩ := (ih hps).1 h
          exact ⟨s ++ w, by rw [fill, hw]; rfl, (List.append_assoc ..).symm, hws, hrest⟩
        · cases h
      · rintro ⟨w, hw, rfl, hws, hrest⟩
        obtain ⟨v, hv, rfl⟩ := Option.map_eq_some_iff.1 hw
        rw [List.append_assoc, if_pos (List.isPrefixOf_iff_prefix.2 (List.prefix_append ..)),
          List.drop_left' rfl]
        exact (ih hps).2 ⟨v, hv, rfl, hws, hrest⟩
    | group name c min =>
      obtain ⟨hstops, hps⟩ := Bool.and_eq_true_iff.1 hps
      rw [capture_group hdigit hstops]
      constructor
      · intro h
        split at h
        · rename_i hmin
          obtain ⟨⟨ws, rest⟩, hrow, heq⟩ := Option.map_eq_some_iff.1 h
          cases heq
          obtain ⟨w, hw, htext, hws, hrest⟩ := (ih hps).1 hrow
          refine ⟨text.takeWhile (c.takes isDigit) ++ w, by rw [fill, hw]; rfl, ?_,
            ⟨fun a ha ↦ List.mem_takeWhile_imp ha, hmin, hws⟩, fun hnil a ha ↦ ?_, hrest⟩
          · rw [List.append_assoc, ← htext, List.takeWhile_append_dropWhile]
          · -- the last group has stopped by itself
            subst hnil
            cases hrow
            have hhead := List.head?_dropWhile_not (c.takes isDigit) text
            rw [Option.mem_def.1 ha] at hhead
            exact hhead
        · cases h
      · rintro ⟨w, hw, rfl, hws, hend, hrest⟩
        match ws, hw, hws with
        | v :: ws, hw, ⟨hv, hmin, hws⟩ =>
          obtain ⟨u, hu, rfl⟩ := Option.map_eq_some_iff.1 hw
          obtain ⟨htake, hdrop⟩ := takeWhile_append hv (head_of_stops hdigit hstops hu hend hrest hps)
          rw [List.append_assoc, htake, hdrop, if_pos hmin, (ih hps).2 ⟨u, hu, rfl, hws, hrest⟩]
          rfl
    | finish =>
      obtain rfl := List.isEmpty_iff.1 hps
      rw [capture]
      constructor
      · intro h
        split at h
        · rename_i hend
          cases h
          exact ⟨[], rfl, rfl, rfl, hend⟩
        · cases h
      · rintro ⟨w, hw, rfl, hws, hrest⟩
        obtain rfl : ws = [] := hws
        cases hw
        exact if_pos hrest

end Decided

/-! ### Round trips -/

section Fill

variable {isDigit : Char → Bool} {ps : List Piece} {ws : List (List Char)} {w : List Char}

/-- **Arguments come back** exactly if every group takes its one. -/
theorem capture_fill_iff (hdigit : AsciiDigit isDigit) (hps : decided ps = true) (hw : fill ps ws = some w) :
    (∃ rest, capture isDigit ps w = some (ws, rest)) ↔ Takes isDigit ps ws := by
  constructor
  · rintro ⟨rest, h⟩
    obtain ⟨-, -, -, hws, -⟩ := (capture_eq_some_iff hdigit hps).1 h
    exact hws
  · intro hws
    exact ⟨[], (capture_eq_some_iff hdigit hps).2 ⟨w, hw, (List.append_nil w).symm, hws, leaves_nil ps⟩⟩

theorem fill_of_takes :
    ∀ {ps : List Piece} {ws : List (List Char)}, Takes isDigit ps ws → ∃ w, fill ps ws = some w
  | [], _, rfl => ⟨[], rfl⟩
  | .text s :: ps, ws, h => by
    obtain ⟨w, hw⟩ := fill_of_takes (show Takes isDigit ps ws from h)
    exact ⟨s ++ w, by rw [fill, hw]; rfl⟩
  | .group .. :: ps, v :: ws, ⟨_, _, h⟩ => by
    obtain ⟨w, hw⟩ := fill_of_takes h
    exact ⟨v ++ w, by rw [fill, hw]; rfl⟩
  | .finish :: ps, ws, h => by
    obtain ⟨w, hw⟩ := fill_of_takes (show Takes isDigit ps ws from h)
    exact ⟨w, hw⟩

/-- There are as many arguments as groups. -/
theorem length_of_fill : ∀ {ps : List Piece} {ws : List (List Char)} {w : List Char}, fill ps ws = some w →
    ws.length = (groupNames ps).length
  | [], [], _, _ => rfl
  | [], _ :: _, _, h => by cases h
  | .text s :: ps, ws, _, h => by
    obtain ⟨v, hv, -⟩ := Option.map_eq_some_iff.1 h
    have ih : ws.length = (groupNames ps).length := length_of_fill hv
    exact ih
  | .group .. :: _, [], _, h => by cases h
  | .group name c min :: ps, w :: ws, _, h => by
    obtain ⟨v, hv, -⟩ := Option.map_eq_some_iff.1 h
    have ih : ws.length = (groupNames ps).length := length_of_fill hv
    exact congrArg (· + 1) ih
  | .finish :: ps, ws, w, h => by
    have ih : ws.length = (groupNames ps).length := length_of_fill (show fill ps ws = some w from h)
    exact ih

end Fill

/-! ### Rows that differ -/

/-- What a row says of one character. -/
inductive Atom where
  | char (a : Char)
  | one (c : CharClass)
  | stop

/-- What a row says of the first characters. -/
def atoms : List Piece → List Atom
  | [] => []
  | .text s :: ps => s.map .char ++ atoms ps
  | .group _ c min :: _ => List.replicate min (.one c)
  | .finish :: _ => [.stop]

/-- The text begins so. -/
def Begins (isDigit : Char → Bool) : List Atom → List Char → Prop
  | [], _ => True
  | .char a :: as, text => ∃ rest, text = a :: rest ∧ Begins isDigit as rest
  | .one c :: as, text => ∃ a rest, text = a :: rest ∧ c.takes isDigit a = true ∧ Begins isDigit as rest
  | .stop :: _, text => AtEnd text

/-- No text begins in both ways. -/
def apart : List Atom → List Atom → Bool
  | .char a :: as, .char b :: bs => decide (a ≠ b) || apart as bs
  | .char a :: as, .one c :: bs => decide (IsAscii a) && !c.takes Char.isDigit a || apart as bs
  | .one c :: as, .char b :: bs => decide (IsAscii b) && !c.takes Char.isDigit b || apart as bs
  | .char a :: _, .stop :: _ => decide (a ≠ '\n')
  | .stop :: _, .char b :: _ => decide (b ≠ '\n')
  | .one _ :: _, .stop :: _ => true
  | .stop :: _, .one _ :: _ => true
  | _, _ => false

section Apart

variable {isDigit : Char → Bool} {ps : List Piece} {text : List Char}

theorem begins_replicate {c : CharClass} : ∀ {n : ℕ} {v : List Char}, (∀ a ∈ v, c.takes isDigit a = true) →
    n ≤ v.length → ∀ rest, Begins isDigit (List.replicate n (.one c)) (v ++ rest)
  | 0, _, _, _, _ => trivial
  | _ + 1, [], _, h, _ => absurd h (Nat.not_succ_le_zero _)
  | _ + 1, a :: v, hv, h, rest =>
    ⟨a, v ++ rest, rfl, hv a List.mem_cons_self,
      begins_replicate (fun b hb ↦ hv b (List.mem_cons_of_mem _ hb)) (Nat.le_of_succ_le_succ h) rest⟩

theorem begins_chars {as : List Atom} : ∀ {s rest : List Char}, Begins isDigit as rest →
    Begins isDigit (s.map .char ++ as) (s ++ rest)
  | [], _, h => h
  | _ :: s, rest, h => ⟨s ++ rest, rfl, begins_chars h⟩

/-- What is filled in begins as the row says. -/
theorem begins_of_takes : ∀ {ps : List Piece} {ws : List (List Char)} {w rest : List Char},
    decided ps = true → fill ps ws = some w → Takes isDigit ps ws → Leaves isDigit ps rest →
      Begins isDigit (atoms ps) (w ++ rest)
  | [], _, _, _, _, _, _, _ => trivial
  | .text s :: ps, ws, _, rest, hps, hw, hws, hrest => by
    obtain ⟨v, hv, rfl⟩ := Option.map_eq_some_iff.1 hw
    have hps : decided ps = true := hps
    rw [List.append_assoc]
    exact begins_chars (begins_of_takes hps hv hws hrest)
  | .group .. :: _, [], _, _, _, hw, _, _ => by cases hw
  | .group name c min :: ps, v :: ws, _, rest, _, hw, ⟨hv, hmin, _⟩, _ => by
    obtain ⟨u, hu, rfl⟩ := Option.map_eq_some_iff.1 hw
    rw [List.append_assoc]
    exact begins_replicate hv hmin _
  | .finish :: ps, ws, _, rest, hps, hw, hws, hrest => by
    obtain rfl := List.isEmpty_iff.1 hps
    obtain rfl : ws = [] := hws
    cases hw
    exact hrest

/-- What is read begins as the row says. -/
theorem begins_of_capture (hdigit : AsciiDigit isDigit) (hps : decided ps = true)
    {x : List (List Char) × List Char} (h : capture isDigit ps text = some x) :
    Begins isDigit (atoms ps) text := by
  obtain ⟨w, hw, htext, hws, hrest⟩ := (capture_eq_some_iff hdigit hps).1 h
  rw [htext]
  exact begins_of_takes hps hw hws hrest

/-- **Rows that are apart** never read the same text. -/
theorem not_begins_of_apart (hdigit : AsciiDigit isDigit) {as bs : List Atom} (h : apart as bs = true)
    (ha : Begins isDigit as text) (hb : Begins isDigit bs text) : False := by
  -- a character against a class
  have hone : ∀ {a : Char} {c : CharClass}, (decide (IsAscii a) && !c.takes Char.isDigit a) = true →
      c.takes isDigit a = true → False := by
    intro a c h htakes
    obtain ⟨hascii, hnot⟩ := Bool.and_eq_true_iff.1 h
    rw [takes_of_isAscii hdigit (of_decide_eq_true hascii)] at htakes
    rw [htakes] at hnot
    cases hnot
  fun_induction apart as bs generalizing text with
  | case1 a as b bs ih =>
    obtain ⟨rest, rfl, ha⟩ := ha
    obtain ⟨rest', heq, hb⟩ := hb
    obtain ⟨rfl, rfl⟩ := List.cons.inj heq
    rcases Bool.or_eq_true_iff.1 h with hne | h
    · exact of_decide_eq_true hne rfl
    · exact ih h ha hb
  | case2 a as c bs ih =>
    obtain ⟨rest, rfl, ha⟩ := ha
    obtain ⟨b, rest', heq, htakes, hb⟩ := hb
    obtain ⟨rfl, rfl⟩ := List.cons.inj heq
    rcases Bool.or_eq_true_iff.1 h with hnot | h
    · exact hone hnot htakes
    · exact ih h ha hb
  | case3 c as b bs ih =>
    obtain ⟨rest, rfl, hb⟩ := hb
    obtain ⟨a, rest', heq, htakes, ha⟩ := ha
    obtain ⟨rfl, rfl⟩ := List.cons.inj heq
    rcases Bool.or_eq_true_iff.1 h with hnot | h
    · exact hone hnot htakes
    · exact ih h ha hb
  | case4 a as bs =>
    obtain ⟨rest, rfl, -⟩ := ha
    rcases hb with hb | hb
    · cases hb
    · exact of_decide_eq_true h (List.cons.inj hb).1
  | case5 as b bs =>
    obtain ⟨rest, rfl, -⟩ := hb
    rcases ha with ha | ha
    · cases ha
    · exact of_decide_eq_true h (List.cons.inj ha).1
  | case6 c as bs =>
    obtain ⟨a, rest, rfl, htakes, -⟩ := ha
    exact not_atEnd_cons hdigit htakes hb
  | case7 as c bs =>
    obtain ⟨a, rest, rfl, htakes, -⟩ := hb
    exact not_atEnd_cons hdigit htakes ha
  | case8 => cases h

end Apart

end Regex
