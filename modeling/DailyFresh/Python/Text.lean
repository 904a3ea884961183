import Mathlib.Algebra.Order.Ring.Int
import Mathlib.Data.List.Basic

/-!
# Python text

The part of Python's text handling that web code leans on: truth of an optional string, `str.split`
with a one-character separator, decimal printing of a natural number and `int(text)`.

A string is the list of its code points. `int` is the interesting function, because clients choose
what it is given: it accepts blanks around the number, a sign, single underscores between digits,
leading zeros and the decimal digits of every script, so many strings denote one number. `str n` is
the one **canonical** spelling of `n`, and `int_str` says that `int` reads it back.

`int` follows CPython 3.7 (Unicode 11): a non-ASCII string is first rewritten, blanks to `' '` and
decimal digits to ASCII digits, and then scanned.
-/

namespace Python

/-- A Python string: its code points. -/
abbrev Str := List Char

/-- A value that is `None` or a string, if Python takes it for true. -/
def nonempty : Option Str → Option Str
  | none => none
  | some s => if s = [] then none else some s

theorem nonempty_eq_some_iff {x : Option Str} {s : Str} :
    nonempty x = some s ↔ x = some s ∧ s ≠ [] := by
  rcases x with - | y
  · simp [nonempty]
  · by_cases hy : y = []
    · subst hy
      simp [nonempty, eq_comm]
    · have hys : nonempty (some y) = some y := if_neg hy
      rw [hys]
      exact ⟨fun h ↦ ⟨h, Option.some.inj h ▸ hy⟩, And.left⟩

/-- `s.split(sep)` for a one-character separator; never empty, as in Python. -/
def split (sep : Char) (s : Str) : List Str :=
  s.splitOn sep

/-- Splitting a joined text gives its parts back. -/
theorem split_intercalate {sep : Char} {parts : List Str} (hsep : ∀ s ∈ parts, sep ∉ s)
    (hne : parts ≠ []) : split sep (List.intercalate [sep] parts) = parts :=
  List.splitOn_intercalate sep hsep hne

/-- Decimal printing, `str(n)` of a natural number. -/
def str (n : ℕ) : Str :=
  Nat.toDigits 10 n

/-- `'%02d' % n`. -/
def pad2 (n : ℕ) : Str :=
  if n < 10 then '0' :: str n else str n

/-- `str(d)` of a decimal number with two places, given in hundredths. -/
def decimalStr (n : ℤ) : Str :=
  (if n < 0 then ['-'] else []) ++ str (n.natAbs / 100) ++ '.' :: pad2 (n.natAbs % 100)

example : decimalStr (-1205) = "-12.05".toList := by decide

/-! ### Reading integers -/

/-- What `int` skips on both sides of the number. -/
def isBlank (c : Char) : Bool :=
  [0x09, 0x0a, 0x0b, 0x0c, 0x0d, 0x20, 0x85, 0xa0, 0x1680, 0x2000, 0x2001, 0x2002, 0x2003, 0x2004,
    0x2005, 0x2006, 0x2007, 0x2008, 0x2009, 0x200a, 0x2028, 0x2029, 0x202f, 0x205f,
    0x3000].contains c.toNat

/-- The code points of the zeros: each script's decimal digits are the ten code points from its
zero on. -/
def decimalZeros : List ℕ :=
  [0x30, 0x660, 0x6f0, 0x7c0, 0x966, 0x9e6, 0xa66, 0xae6, 0xb66, 0xbe6, 0xc66, 0xce6, 0xd66, 0xde6,
    0xe50, 0xed0, 0xf20, 0x1040, 0x1090, 0x17e0, 0x1810, 0x1946, 0x19d0, 0x1a80, 0x1a90, 0x1b50,
    0x1bb0, 0x1c40, 0x1c50, 0xa620, 0xa8d0, 0xa900, 0xa9d0, 0xa9f0, 0xaa50, 0xabf0, 0xff10, 0x104a0,
    0x10d30, 0x11066, 0x110f0, 0x11136, 0x111d0, 0x112f0, 0x11450, 0x114d0, 0x11650, 0x116c0,
    0x11730, 0x118e0, 0x11c50, 0x11d50, 0x11da0, 0x16a60, 0x16b50, 0x1d7ce, 0x1d7d8, 0x1d7e2,
    0x1d7ec, 0x1d7f6, 0x1e950]

/-- The value of a decimal digit. -/
def digitValue (c : Char) : Option ℕ :=
  (decimalZeros.find? fun z ↦ decide (z ≤ c.toNat ∧ c.toNat < z + 10)).map (c.toNat - ·)

/-- Scan digits, most significant first, onto the value `acc`. The flag says that the last
character was a digit: only then may an underscore, a blank or the end follow. -/
def scanDigits (acc : ℕ) : Bool → Str → Option ℕ
  | lastDigit, [] => if lastDigit then some acc else none
  | lastDigit, c :: cs =>
    match digitValue c with
    | some d => scanDigits (10 * acc + d) true cs
    | none =>
      if lastDigit then
        if c = '_' then scanDigits acc false cs
        else if isBlank c && cs.all isBlank then some acc else none
      else none

/-- `int(s)`; `none` where Python raises `ValueError`. -/
def int (s : Str) : Option ℤ :=
  match s.dropWhile isBlank with
  | '-' :: cs => (scanDigits 0 false cs).map fun n : ℕ ↦ -(n : ℤ)
  | '+' :: cs => (scanDigits 0 false cs).map fun n : ℕ ↦ (n : ℤ)
  | cs => (scanDigits 0 false cs).map fun n : ℕ ↦ (n : ℤ)

example : int " +0_12 ".toList = some 12 := by decide

example : int "1__0".toList = none := by decide

/-! ### Decimal digits -/

/-- A blank is no digit. -/
theorem digitValue_of_isBlank {c : Char} (h : isBlank c = true) : digitValue c = none := by
  have hall : ∀ {l : List ℕ} {n : ℕ}, l.all (fun n ↦ (digitValue (Char.ofNat n)).isNone) = true →
      l.contains n = true → digitValue (Char.ofNat n) = none := fun hl hn ↦
    Option.isNone_iff_eq_none.1 (List.all_eq_true.1 hl _ (List.contains_iff_mem.1 hn))
  rw [← Char.ofNat_toNat c]
  exact hall (by decide) h

/-- A digit is neither a blank nor a sign. -/
theorem not_blank_of_digitValue {c : Char} (h : (digitValue c).isSome = true) :
    isBlank c = false ∧ c ≠ '-' ∧ c ≠ '+' := by
  refine ⟨Bool.eq_false_iff.2 fun hblank ↦ ?_, ?_, ?_⟩
  · rw [digitValue_of_isBlank hblank] at h
    cases h
  · rintro rfl
    exact absurd h (by decide)
  · rintro rfl
    exact absurd h (by decide)

/-- The number that digits denote, most significant first, onto `acc`. -/
def ofDigits (acc : ℕ) (cs : Str) : ℕ := cs.foldl (fun acc c ↦ 10 * acc + (digitValue c).getD 0) acc

/-- Scanning digits, of any script. -/
theorem scanDigits_eq_ofDigits {cs : Str} (h : ∀ c ∈ cs, (digitValue c).isSome = true) :
    ∀ {acc : ℕ} {lastDigit : Bool}, lastDigit = true ∨ cs ≠ [] →
      scanDigits acc lastDigit cs = some (ofDigits acc cs) := by
  induction cs with
  | nil =>
    intro acc lastDigit hne
    obtain rfl : lastDigit = true := by simpa using hne
    rfl
  | cons c cs ih =>
    intro acc lastDigit _
    obtain ⟨d, hd⟩ := Option.isSome_iff_exists.1 (h c List.mem_cons_self)
    rw [scanDigits, hd, ofDigits, List.foldl_cons, hd]
    exact ih (fun c hc ↦ h c (List.mem_cons_of_mem _ hc)) (.inl rfl)

/-- **`int` of digits**, of any script: no blank, sign or underscore is in the way. -/
theorem int_of_digits {s : Str} (hne : s ≠ []) (h : ∀ c ∈ s, (digitValue c).isSome = true) :
    int s = some ((ofDigits 0 s : ℕ) : ℤ) := by
  have hscan : scanDigits 0 false s = some (ofDigits 0 s) := scanDigits_eq_ofDigits h (.inr hne)
  obtain ⟨c, cs, rfl⟩ := List.exists_cons_of_ne_nil hne
  obtain ⟨hblank, hminus, hplus⟩ := not_blank_of_digitValue (h c List.mem_cons_self)
  rw [int, List.dropWhile_cons_of_neg (by rw [hblank]; exact Bool.false_ne_true)]
  split
  · rename_i heq
    exact absurd (List.cons.inj heq).1 hminus
  · rename_i heq
    exact absurd (List.cons.inj heq).1 hplus
  · rw [hscan, Option.map_some]

/-- Digits denote zero if all of them do. -/
theorem ofDigits_eq_zero_iff {acc : ℕ} {cs : Str} :
    ofDigits acc cs = 0 ↔ acc = 0 ∧ ∀ c ∈ cs, (digitValue c).getD 0 = 0 := by
  induction cs generalizing acc with
  | nil => simp [ofDigits]
  | cons c cs ih =>
    show ofDigits (10 * acc + (digitValue c).getD 0) cs = 0 ↔ _
    rw [ih, List.forall_mem_cons]
    constructor
    · rintro ⟨hacc, hcs⟩
      exact ⟨by omega, by omega, hcs⟩
    · rintro ⟨hacc, hc, hcs⟩
      exact ⟨by omega, hcs⟩

/-! ### The canonical spelling -/

theorem digitValue_digitChar {d : ℕ} (h : d < 10) : digitValue d.digitChar = some d := by
  revert d
  decide

theorem isBlank_digitChar {d : ℕ} (h : d < 10) : isBlank d.digitChar = false := by
  revert d
  decide

/-- Every character of a canonical spelling is an ASCII digit. -/
theorem exists_digitChar_of_mem_str {n : ℕ} {c : Char} (h : c ∈ str n) :
    ∃ d < 10, c = d.digitChar := by
  have hdigit : c.isDigit = true := Nat.isDigit_of_mem_toDigits (by decide) (by decide) h
  obtain ⟨hlo, hhi⟩ : 48 ≤ c.toNat ∧ c.toNat ≤ 57 := by
    rw [Char.isDigit, Bool.and_eq_true, decide_eq_true_iff, decide_eq_true_iff] at hdigit
    exact hdigit
  refine ⟨c.toNat - 48, by omega, Char.toNat_inj.1 ?_⟩
  rw [Nat.toNat_digitChar_of_lt_ten (by omega)]
  omega

theorem comma_notMem_str (n : ℕ) : ',' ∉ str n := by
  intro h
  obtain ⟨d, hd, hc⟩ := exists_digitChar_of_mem_str h
  have hdigit : ∀ d < 10, ',' ≠ Nat.digitChar d := by decide
  exact hdigit d hd hc

theorem str_ne_nil (n : ℕ) : str n ≠ [] := Nat.toDigits_ne_nil

/-- Scanning plain digits reads their decimal value. -/
theorem scanDigits_of_digits {cs : Str} (h : ∀ c ∈ cs, ∃ d < 10, c = Nat.digitChar d) :
    ∀ {acc : ℕ} {lastDigit : Bool}, lastDigit = true ∨ cs ≠ [] →
      scanDigits acc lastDigit cs = some (Nat.ofDigitChars 10 cs acc) := by
  induction cs with
  | nil =>
    intro acc lastDigit hne
    obtain rfl : lastDigit = true := by simpa using hne
    simp [scanDigits]
  | cons c cs ih =>
    intro acc lastDigit _
    obtain ⟨d, hd, rfl⟩ := h c List.mem_cons_self
    rw [scanDigits, digitValue_digitChar hd, Nat.ofDigitChars_cons_digitChar_of_lt_ten hd]
    exact ih (fun c hc ↦ h c (List.mem_cons_of_mem _ hc)) (.inl rfl)

theorem scanDigits_str (n : ℕ) : scanDigits 0 false (str n) = some n := by
  rw [scanDigits_of_digits (fun c hc ↦ exists_digitChar_of_mem_str hc) (.inr (str_ne_nil n))]
  exact congrArg some Nat.ofDigitChars_ten_toDigits

/-- **`int` reads back the canonical spelling.** -/
@[simp] theorem int_str (n : ℕ) : int (str n) = some (n : ℤ) := by
  have hdigits : ∀ c ∈ str n, ∃ d < 10, c = Nat.digitChar d :=
    fun c hc ↦ exists_digitChar_of_mem_str hc
  obtain ⟨c, cs, hcs⟩ := List.exists_cons_of_ne_nil (Nat.toDigits_ne_nil (n := n) (b := 10))
  obtain ⟨d, hd, hc⟩ := hdigits c (by rw [str, hcs]; exact List.mem_cons_self)
  have hdrop : (str n).dropWhile isBlank = str n := by
    rw [str, hcs, hc, List.dropWhile_cons_of_neg (by simp [isBlank_digitChar hd])]
  have hsign : ∀ d < 10, Nat.digitChar d ≠ '-' ∧ Nat.digitChar d ≠ '+' := by decide
  rw [int, hdrop]
  split
  · rename_i h
    rw [str, hcs] at h
    exact absurd (hc.symm.trans (List.cons.inj h).1) (hsign d hd).1
  · rename_i h
    rw [str, hcs] at h
    exact absurd (hc.symm.trans (List.cons.inj h).1) (hsign d hd).2
  · rw [scanDigits_str, Option.map_some]

theorem str_injective : Function.Injective str := by
  intro m n h
  have hint := congrArg int h
  rw [int_str, int_str] at hint
  exact_mod_cast Option.some.inj hint

/-- `str(n)` of an integer. -/
def intStr (n : ℤ) : Str := if n < 0 then '-' :: str n.natAbs else str n.natAbs

theorem int_intStr (n : ℤ) : int (intStr n) = some n := by
  rw [intStr]
  split
  · have hint : int ('-' :: str n.natAbs) = (scanDigits 0 false (str n.natAbs)).map fun m : ℕ ↦ -(m : ℤ) :=
      rfl
    rw [hint, scanDigits_str, Option.map_some]
    exact congrArg some (by omega)
  · rw [int_str]
    exact congrArg some (by omega)

/-! ### Fixed widths -/

/-- The number of digits of a number. -/
theorem length_str {n k : ℕ} (hlo : 10 ^ k ≤ n) (hhi : n < 10 ^ (k + 1)) : (str n).length = k + 1 := by
  have hle : (str n).length ≤ k + 1 := (Nat.length_toDigits_le_iff (by decide) (Nat.succ_pos k)).2 hhi
  rcases k with - | k
  · have hpos : 0 < (str n).length := Nat.length_toDigits_pos
    omega
  · have hgt : ¬ (str n).length ≤ k + 1 := fun h ↦
      absurd ((Nat.length_toDigits_le_iff (by decide) (Nat.succ_pos k)).1 h) (not_lt.2 hlo)
    omega

theorem length_pad2 {n : ℕ} (h : n < 100) : (pad2 n).length = 2 := by
  revert n
  decide

theorem int_pad2 {n : ℕ} (h : n < 100) : int (pad2 n) = some (n : ℤ) := by
  revert n
  decide

/-- A field of two digits at the end of a text can be taken off. -/
theorem append_pad2_inj {s s' : Str} {m n : ℕ} (hm : m < 100) (hn : n < 100)
    (h : s ++ pad2 m = s' ++ pad2 n) : s = s' ∧ m = n := by
  obtain ⟨hs, hpad⟩ := List.append_inj' h ((length_pad2 hm).trans (length_pad2 hn).symm)
  have hint := congrArg int hpad
  rw [int_pad2 hm, int_pad2 hn] at hint
  exact ⟨hs, Int.ofNat_inj.1 (Option.some.inj hint)⟩

end Python
