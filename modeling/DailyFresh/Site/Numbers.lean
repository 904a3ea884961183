import DailyFresh.Python.Text
import Mathlib.Algebra.Order.Group.Abs
import Mathlib.Data.List.TakeWhile
import Mathlib.Data.Option.NAry

/-!
# Numbers of JavaScript

The cart page computes with the numbers of JavaScript. They are a parameter of its model (`Numbers`), and what
is used of them is what the standard says of safe integers (`Numbers.Lawful`). The integers, with `NaN`, are
such numbers (`wholeNumbers`).
-/

namespace DailyFresh

open Python

/-- JavaScript's numbers, as far as the page uses them. -/
structure Numbers where
  Num : Type
  /-- `parseInt(text)`. -/
  parseInt : Str → Num
  /-- `isNaN(text)`. -/
  isNaN : Str → Bool
  ofInt : ℤ → Num
  add : Num → Num → Num
  sub : Num → Num → Num
  /-- `n <= 0`. -/
  nonpos : Num → Bool
  /-- `String(n)`. -/
  text : Num → Str

/-- `Number.MAX_SAFE_INTEGER`. -/
def maxSafe : ℤ := 9007199254740991

/-- What ECMAScript says of these operations on safe integers; and a number whose text denotes an integer is
written as that integer is. -/
structure Numbers.Lawful (N : Numbers) : Prop where
  parseInt_intStr : ∀ n : ℤ, |n| ≤ maxSafe → N.parseInt (intStr n) = N.ofInt n
  add_ofInt : ∀ m n : ℤ, |m| ≤ maxSafe → |n| ≤ maxSafe → |m + n| ≤ maxSafe →
    N.add (N.ofInt m) (N.ofInt n) = N.ofInt (m + n)
  text_ofInt : ∀ n : ℤ, |n| ≤ maxSafe → N.text (N.ofInt n) = intStr n
  text_of_int : ∀ x (n : ℤ), int (N.text x) = some n → N.text x = intStr n

/-- What `trim` takes off. -/
def isJsSpace (c : Char) : Bool :=
  [0x09, 0x0a, 0x0b, 0x0c, 0x0d, 0x20, 0xa0, 0x1680, 0x2000, 0x2001, 0x2002, 0x2003, 0x2004, 0x2005, 0x2006,
    0x2007, 0x2008, 0x2009, 0x200a, 0x2028, 0x2029, 0x202f, 0x205f, 0x3000, 0xfeff].contains c.toNat

/-! ### Whole numbers -/

/-- The integer at the front of a text. -/
def leadingInt : Str → Option ℤ
  | '-' :: digits => (int (digits.takeWhile Char.isDigit)).map fun n ↦ -n
  | digits => int (digits.takeWhile Char.isDigit)

/-- The integers, and `none` for `NaN`. -/
def wholeNumbers : Numbers where
  Num := Option ℤ
  parseInt text := leadingInt (text.dropWhile isJsSpace)
  isNaN text := !text.all isJsSpace && (int text).isNone
  ofInt := some
  add := Option.map₂ (· + ·)
  sub := Option.map₂ (· - ·)
  nonpos n := n.any (· ≤ 0)
  text n := n.elim "NaN".toList intStr

theorem takeWhile_str (n : ℕ) : (str n).takeWhile Char.isDigit = str n := by
  refine List.takeWhile_eq_self_iff.2 fun c hc ↦ ?_
  obtain ⟨d, hd, rfl⟩ := exists_digitChar_of_mem_str hc
  have hdigit : ∀ d < 10, (Nat.digitChar d).isDigit = true := by decide
  exact hdigit d hd

/-- A canonical spelling starts with a digit. -/
theorem exists_cons_str (n : ℕ) : ∃ d < 10, ∃ digits, str n = Nat.digitChar d :: digits := by
  obtain ⟨c, digits, hstr⟩ := List.exists_cons_of_ne_nil (str_ne_nil n)
  obtain ⟨d, hd, rfl⟩ := exists_digitChar_of_mem_str (hstr ▸ List.mem_cons_self : c ∈ str n)
  exact ⟨d, hd, digits, hstr⟩

theorem leadingInt_str (n : ℕ) : leadingInt (str n) = some (n : ℤ) := by
  obtain ⟨d, hd, digits, hstr⟩ := exists_cons_str n
  have hsign : ∀ d < 10, Nat.digitChar d ≠ '-' := by decide
  have hleading : leadingInt (str n) = int ((str n).takeWhile Char.isDigit) := by
    rw [hstr, leadingInt]
    exact fun digits h ↦ hsign d hd (List.cons.inj h).1
  rw [hleading, takeWhile_str, int_str]

theorem leadingInt_intStr (n : ℤ) : leadingInt (intStr n) = some n := by
  rw [intStr]
  split
  · rw [leadingInt, takeWhile_str, int_str, Option.map_some]
    exact congrArg some (by omega)
  · rw [leadingInt_str]
    exact congrArg some (by omega)

theorem dropWhile_intStr (n : ℤ) : (intStr n).dropWhile isJsSpace = intStr n := by
  rw [intStr]
  split
  · rfl
  · obtain ⟨d, hd, digits, hstr⟩ := exists_cons_str n.natAbs
    have hspace : ∀ d < 10, ¬ isJsSpace (Nat.digitChar d) = true := by decide
    rw [hstr, List.dropWhile_cons_of_neg (hspace d hd)]

theorem wholeNumbers_lawful : wholeNumbers.Lawful where
  parseInt_intStr n _ := (congrArg leadingInt (dropWhile_intStr n)).trans (leadingInt_intStr n)
  add_ofInt _ _ _ _ _ := rfl
  text_ofInt _ _ := rfl
  text_of_int x n hx := by
    rcases x with - | m
    · cases hx
    · have hint := (int_intStr m).symm.trans hx
      exact congrArg intStr (Option.some.inj hint)

end DailyFresh
