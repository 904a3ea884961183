import DailyFresh.Regex.Backtrack

/-!
# Python and JavaScript

Two engines. Python's reads code points, has a `\w` that takes what `isalnum` says of any script, and lets
`$` hold before a final newline. JavaScript's reads code units, has a `\w` of ASCII characters, and lets `$`
hold at the end only.

On ASCII characters they agree, so they disagree on a text by those two differences alone: on `^p$`, whose
classes take ASCII units only in JavaScript and no newline, they agree on a text unless it is a word of `p`
with another character than an ASCII one, or a word of `p` and a newline (`agree_iff`).
-/

namespace Regex

open Engine

/-- Python's `re` for texts of type `str`, without flags; `isAlnum c` is `c.isalnum()`. -/
def python (isAlnum : Char → Bool) : Engine Char where
  code := Char.toNat
  isWord c := isAlnum c || c = '_'
  atEnd rest := rest = [] || rest = ['\n']

/-- JavaScript's `RegExp` without flags. -/
def javaScript : Engine UInt16 where
  code := UInt16.toNat
  isWord u := ('a'.toNat ≤ u.toNat && u.toNat ≤ 'z'.toNat) || ('A'.toNat ≤ u.toNat && u.toNat ≤ 'Z'.toNat) ||
    ('0'.toNat ≤ u.toNat && u.toNat ≤ '9'.toNat) || u.toNat = '_'.toNat
  atEnd rest := rest = []

/-- The character is an ASCII one. -/
def IsAscii (c : Char) : Prop := c.toNat < 128

instance (c : Char) : Decidable (IsAscii c) := inferInstanceAs (Decidable (c.toNat < 128))

/-! ### Code units -/

/-- The code units of a character. -/
def utf16 (c : Char) : List UInt16 :=
  if c.toNat < 0x10000 then [.ofNat c.toNat]
  else [.ofNat (0xD800 + (c.toNat - 0x10000) / 0x400), .ofNat (0xDC00 + (c.toNat - 0x10000) % 0x400)]

/-- A text as JavaScript has it. -/
def toUtf16 (text : List Char) : List UInt16 := text.flatMap utf16

theorem utf16_of_isAscii {c : Char} (h : IsAscii c) : utf16 c = [.ofNat c.toNat] :=
  if_pos (h.trans (by decide))

/-- A character that is not an ASCII one has no ASCII unit, and it has a unit. -/
theorem exists_unit_of_not_isAscii {c : Char} (h : ¬ IsAscii c) : ∃ u ∈ utf16 c, 128 ≤ u.toNat := by
  have hc : 128 ≤ c.toNat := Nat.le_of_not_lt h
  have hlt : c.toNat < 0x110000 := by
    rcases c.valid with h | h
    · exact h.trans (by decide)
    · exact h.2
  unfold utf16
  split
  · refine ⟨_, List.mem_singleton_self _, ?_⟩
    rw [UInt16.toNat_ofNat']
    omega
  · refine ⟨_, List.mem_cons_self, ?_⟩
    rw [UInt16.toNat_ofNat']
    omega

theorem toUtf16_of_ascii {text : List Char} (h : ∀ c ∈ text, IsAscii c) :
    toUtf16 text = text.map fun c ↦ UInt16.ofNat c.toNat := by
  rw [toUtf16, List.map_eq_flatMap]
  exact List.flatMap_congr fun c hc ↦ utf16_of_isAscii (h c hc)

theorem ascii_of_toUtf16 {text : List Char} (h : ∀ u ∈ toUtf16 text, u.toNat < 128) :
    ∀ c ∈ text, IsAscii c := by
  intro c hc
  by_contra hascii
  obtain ⟨u, hu, hlarge⟩ := exists_unit_of_not_isAscii hascii
  exact absurd (h u (List.mem_flatMap.2 ⟨c, hc, hu⟩)) (Nat.not_lt.2 hlarge)

/-! ### Agreement -/

section Agreement

variable {isAlnum : Char → Bool} {p : Pattern} {text : List Char}

/-- What the Python library says of `isalnum` for ASCII characters. -/
def AsciiAlnum (isAlnum : Char → Bool) : Prop := ∀ c, IsAscii c → isAlnum c = c.isAlphanum

/-- **The engines agree on ASCII characters.** -/
theorem readsAs_of_isAscii (halnum : AsciiAlnum isAlnum) {c : Char} (hc : IsAscii c) :
    ReadsAs (python isAlnum) javaScript (fun c ↦ UInt16.ofNat c.toNat) c := by
  have hcode : (UInt16.ofNat c.toNat).toNat = c.toNat := by
    rw [UInt16.toNat_ofNat']
    exact Nat.mod_eq_of_lt (hc.trans (by decide))
  refine ⟨hcode, ?_⟩
  have hunder : (c = '_') ↔ c.toNat = '_'.toNat := ⟨fun h ↦ h ▸ rfl, fun h ↦ Char.ext (UInt32.toNat.inj h)⟩
  have hword : ∀ n < 128, (('a'.toNat ≤ n && n ≤ 'z'.toNat) || ('A'.toNat ≤ n && n ≤ 'Z'.toNat) ||
      ('0'.toNat ≤ n && n ≤ '9'.toNat) || decide (n = '_'.toNat)) =
        ((Char.ofNat n).isAlphanum || decide (n = '_'.toNat)) := by decide
  show javaScript.isWord _ = (isAlnum c || decide (c = '_'))
  rw [halnum c hc, decide_eq_decide.2 hunder]
  have h := hword c.toNat hc
  rw [Char.ofNat_toNat] at h
  rw [← h]
  simp only [javaScript, hcode]

/-- The item names ASCII characters only. -/
def ClassItem.isAscii : ClassItem → Bool
  | char c => IsAscii c
  | range _ hi => IsAscii hi
  | word => true

/-- The classes of the pattern name ASCII characters only. -/
def Pattern.isAscii : Pattern → Bool
  | start => true
  | finish => true
  | set items => items.all ClassItem.isAscii
  | seq p q => p.isAscii && q.isAscii
  | rep p .. => p.isAscii

theorem lt_of_takesItem {item : ClassItem} (h : item.isAscii = true) {u : UInt16}
    (hu : javaScript.takesItem item u = true) : u.toNat < 128 := by
  cases item with
  | char c => exact (of_decide_eq_true hu).trans_lt (of_decide_eq_true h)
  | range lo hi => exact (of_decide_eq_true (Bool.and_eq_true_iff.1 hu).2).trans_lt (of_decide_eq_true h)
  | word =>
    have hword : javaScript.isWord u = true := hu
    simp only [javaScript, Bool.or_eq_true, Bool.and_eq_true, decide_eq_true_iff] at hword
    have hz : 'z'.toNat = 122 := rfl
    have hZ : 'Z'.toNat = 90 := rfl
    have h9 : '9'.toNat = 57 := rfl
    have hunder : '_'.toNat = 95 := rfl
    omega

/-- In JavaScript, a pattern that names ASCII characters only takes no other ones, `\w` included. -/
theorem Pattern.takesOnly_of_isAscii (h : p.isAscii = true) :
    javaScript.TakesOnly (fun u ↦ u.toNat < 128) p := by
  induction p with
  | start => trivial
  | finish => trivial
  | set items =>
    intro u hu
    obtain ⟨item, hitem, hu⟩ := List.any_eq_true.1 hu
    exact lt_of_takesItem (List.all_eq_true.1 h item hitem) hu
  | seq p q ihp ihq =>
    obtain ⟨hp, hq⟩ := Bool.and_eq_true_iff.1 h
    exact ⟨ihp hp, ihq hq⟩
  | rep p min max _ ih => exact ih h

/-- A word of a pattern of ASCII classes, in JavaScript. -/
theorem toUtf16_mem_language_iff (halnum : AsciiAlnum isAlnum) (hp : p.isAscii = true) :
    toUtf16 text ∈ javaScript.language p ↔ (∀ c ∈ text, IsAscii c) ∧ text ∈ (python isAlnum).language p := by
  have hiff : (∀ c ∈ text, IsAscii c) →
      (toUtf16 text ∈ javaScript.language p ↔ text ∈ (python isAlnum).language p) := by
    intro hascii
    rw [toUtf16_of_ascii hascii]
    exact map_mem_language_iff fun c hc ↦ readsAs_of_isAscii halnum (hascii c hc)
  constructor
  · intro h
    have hascii := ascii_of_toUtf16 (forall_of_mem_language (Pattern.takesOnly_of_isAscii hp) h)
    exact ⟨hascii, (hiff hascii).1 h⟩
  · rintro ⟨hascii, h⟩
    exact (hiff hascii).2 h

/-- `re.match(r'^p$', text)`. -/
theorem python_line_iff (h : p.anchorFree = true) : ((python isAlnum).match? p.line text).isSome = true ↔
    ∃ w ∈ (python isAlnum).language p, text = w ∨ text = w ++ ['\n'] := by
  rw [isSome_match?_line_iff h]
  refine exists_congr fun w ↦ and_congr_right fun _ ↦ ?_
  simp [python, and_or_left, exists_or]

/-- `/^p$/.test(text)`. -/
theorem javaScript_line_iff (h : p.anchorFree = true) (text : List UInt16) :
    javaScript.test p.line text = true ↔ text ∈ javaScript.language p := by
  rw [test_line h, isSome_match?_line_iff h]
  simp [javaScript]

/-- **When the engines agree** on `^p$`. -/
theorem agree_iff (halnum : AsciiAlnum isAlnum) (h : p.anchorFree = true)
    (hascii : p.isAscii = true) (hnewline : ∀ w ∈ (python isAlnum).language p, '\n' ∉ w) :
    (((python isAlnum).match? p.line text).isSome = true ↔ javaScript.test p.line (toUtf16 text) = true) ↔
      ¬ ∃ w ∈ (python isAlnum).language p,
        text = w ++ ['\n'] ∨ (text = w ∧ ∃ c ∈ w, ¬ IsAscii c) := by
  rw [python_line_iff h, javaScript_line_iff h, toUtf16_mem_language_iff halnum hascii]
  constructor
  · rintro hiff ⟨w, hw, rfl | ⟨rfl, c, hc, hne⟩⟩
    · obtain ⟨-, hword⟩ := hiff.1 ⟨w, hw, .inr rfl⟩
      exact hnewline _ hword (List.mem_append_right _ (List.mem_singleton_self _))
    · exact hne ((hiff.1 ⟨text, hw, .inl rfl⟩).1 c hc)
  · intro hnone
    constructor
    · rintro ⟨w, hw, rfl | rfl⟩
      · refine ⟨fun c hc ↦ ?_, hw⟩
        by_contra hne
        exact hnone ⟨text, hw, .inr ⟨rfl, c, hc, hne⟩⟩
      · exact absurd ⟨w, hw, .inl rfl⟩ hnone
    · rintro ⟨-, hword⟩
      exact ⟨text, hword, .inl rfl⟩

end Agreement

end Regex
