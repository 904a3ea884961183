import DailyFresh.Results.Activation
import DailyFresh.Site.RegisterPage

/-!
# E-mail addresses on both sides

`RegistView.post` and the registration page have the same pattern for an e-mail address and run it on two
engines. The words of the pattern are the texts of `EmailParts`. Whatever the page accepts, the server
accepts; the server also accepts an address followed by a newline, and one whose local part has a letter or
digit of another script. `email_agree_iff`: those are all the texts on which the two sides disagree.
-/

namespace DailyFresh

open Python Regex Engine RegistView

/-! ### The parts of an address -/

/-- What the pattern tells apart in an address: the character at the start, the rest of the local part, the
host, and the texts after the dots behind it. -/
structure EmailParts where
  first : Char
  rest : Str
  host : Str
  groups : List Str

namespace EmailParts

/-- What stands behind the `@`. -/
def domain (e : EmailParts) : Str := e.host ++ e.groups.flatMap ('.' :: ·)

/-- The address. -/
def text (e : EmailParts) : Str := e.first :: (e.rest ++ '@' :: e.domain)

/-- The parts are as the pattern wants them. -/
structure Valid (isAlnum : Char → Bool) (e : EmailParts) : Prop where
  first : isLowerOrDigit e.first = true
  rest : ∀ c ∈ e.rest, (isAlnum c || c = '_' || c = '.' || c = '-') = true
  host : ∀ c ∈ e.host, (isLowerOrDigit c || c = '-') = true
  host_ne : e.host ≠ []
  groups : ∀ g ∈ e.groups, (∀ c ∈ g, isLower c = true) ∧ 2 ≤ g.length ∧ g.length ≤ 5
  groups_length : e.groups.length = 1 ∨ e.groups.length = 2

end EmailParts

section Words

variable {isAlnum : Char → Bool} {c : Char} {w : Str}

theorem takesItem_char {d : Char} : (python isAlnum).takesItem (.char d) c = decide (c = d) :=
  decide_eq_decide.2 ⟨fun h ↦ Char.ext (UInt32.toNat.inj h), fun h ↦ h ▸ rfl⟩

theorem takes_char_iff {d : Char} : (python isAlnum).takes [.char d] c = true ↔ c = d := by
  rw [takes_cons, takes_nil, Bool.or_false, takesItem_char, decide_eq_true_iff]

theorem takes_lower : (python isAlnum).takes [.range 'a' 'z'] c = isLower c := by
  rw [takes_cons, takes_nil, Bool.or_false]
  rfl

theorem takes_lowerOrDigit : (python isAlnum).takes [.range 'a' 'z', .range '0' '9'] c = isLowerOrDigit c := by
  rw [takes_cons, takes_cons, takes_nil, Bool.or_false]
  rfl

theorem takes_host : (python isAlnum).takes [.range 'a' 'z', .range '0' '9', .char '-'] c =
    (isLowerOrDigit c || c = '-') := by
  rw [takes_cons, takes_cons, ← Bool.or_assoc, takes_cons, takes_nil, Bool.or_false, takesItem_char]
  rfl

theorem takes_local : (python isAlnum).takes [.word, .char '.', .char '-'] c =
    (isAlnum c || c = '_' || c = '.' || c = '-') := by
  rw [takes_cons, takes_cons, ← Bool.or_assoc, takes_cons, takes_nil, Bool.or_false, takesItem_char,
    takesItem_char]
  rfl

/-- The words of one group. -/
theorem mem_group_iff : w ∈ (python isAlnum).language
      (.seq (.set [.char '.']) (.rep (.set [.range 'a' 'z']) 2 (some 5) (by decide))) ↔
    ∃ g, ((∀ c ∈ g, isLower c = true) ∧ 2 ≤ g.length ∧ g.length ≤ 5) ∧ w = '.' :: g := by
  constructor
  · intro h
    obtain ⟨_, ⟨a, ha, rfl⟩, g, hg, rfl⟩ := Language.mem_mul.1 h
    obtain rfl := takes_char_iff.1 ha
    obtain ⟨hall, hmin, hmax⟩ := mem_language_rep_set_iff.1 hg
    exact ⟨g, ⟨fun c hc ↦ takes_lower ▸ hall c hc, hmin, hmax 5 rfl⟩, rfl⟩
  · rintro ⟨g, ⟨hall, hmin, hmax⟩, rfl⟩
    refine Language.append_mem_mul (a := ['.']) ⟨'.', takes_char_iff.2 rfl, rfl⟩ ?_
    refine mem_language_rep_set_iff.2 ⟨fun c hc ↦ takes_lower.trans (hall c hc), hmin, fun m hm ↦ ?_⟩
    exact Option.some.inj hm ▸ hmax

/-- The words of all groups. -/
theorem mem_groups_iff : w ∈ (python isAlnum).language
      (.rep (.seq (.set [.char '.']) (.rep (.set [.range 'a' 'z']) 2 (some 5) (by decide))) 1 (some 2)
        (by decide)) ↔
    ∃ groups : List Str, w = groups.flatMap ('.' :: ·) ∧ (groups.length = 1 ∨ groups.length = 2) ∧
      ∀ g ∈ groups, (∀ c ∈ g, isLower c = true) ∧ 2 ≤ g.length ∧ g.length ≤ 5 := by
  constructor
  · rintro ⟨n, hmin, hmax, hn⟩
    have hmax' := hmax 2 rfl
    obtain ⟨words, rfl, hlength, hwords⟩ := Language.mem_pow.1 hn
    have hdot : ∀ v ∈ words, v = '.' :: v.tail ∧
        (∀ c ∈ v.tail, isLower c = true) ∧ 2 ≤ v.tail.length ∧ v.tail.length ≤ 5 := by
      intro v hv
      obtain ⟨g, hg, rfl⟩ := mem_group_iff.1 (hwords v hv)
      exact ⟨rfl, hg⟩
    refine ⟨words.map List.tail, ?_, ?_, List.forall_mem_map.2 fun v hv ↦ (hdot v hv).2⟩
    · rw [List.flatMap_map, ← List.flatMap_id]
      exact List.flatMap_congr fun v hv ↦ (hdot v hv).1
    · rw [List.length_map]
      omega
  · rintro ⟨groups, rfl, hlength, hgroups⟩
    refine ⟨groups.length, by omega, fun m hm ↦ ?_, Language.mem_pow.2 ⟨groups.map ('.' :: ·), ?_, ?_, ?_⟩⟩
    · obtain rfl := Option.some.inj hm
      omega
    · exact List.flatMap_def ..
    · exact List.length_map ..
    · intro v hv
      obtain ⟨g, hg, rfl⟩ := List.mem_map.1 hv
      exact mem_group_iff.2 ⟨g, hgroups g hg, rfl⟩

/-- **The words of the pattern.** -/
theorem mem_emailAddress_iff : w ∈ (python isAlnum).language emailAddress ↔
    ∃ e : EmailParts, e.Valid isAlnum ∧ w = e.text := by
  constructor
  · intro h
    obtain ⟨_, ⟨first, hfirst, rfl⟩, _, htail, rfl⟩ := Language.mem_mul.1 h
    obtain ⟨rest, hrest, _, hbehind, rfl⟩ := Language.mem_mul.1 htail
    obtain ⟨_, ⟨a, ha, rfl⟩, _, hdomain, rfl⟩ := Language.mem_mul.1 hbehind
    obtain ⟨host, hhost, _, hlast, rfl⟩ := Language.mem_mul.1 hdomain
    obtain rfl := takes_char_iff.1 ha
    obtain ⟨groups, rfl, hlength, hgroups⟩ := mem_groups_iff.1 hlast
    obtain ⟨hhost, hne⟩ := mem_language_plus_set_iff.1 hhost
    refine ⟨⟨first, rest, host, groups⟩, ?_, rfl⟩
    exact
      { first := takes_lowerOrDigit ▸ hfirst
        rest := fun c hc ↦ takes_local ▸ mem_language_star_set_iff.1 hrest c hc
        host := fun c hc ↦ takes_host ▸ hhost c hc
        host_ne := hne
        groups := hgroups
        groups_length := hlength }
  · rintro ⟨e, he, rfl⟩
    refine Language.append_mem_mul (a := [e.first]) ⟨_, takes_lowerOrDigit.trans he.first, rfl⟩ ?_
    refine Language.append_mem_mul (mem_language_star_set_iff.2 fun c hc ↦ takes_local.trans (he.rest c hc)) ?_
    refine Language.append_mem_mul (a := ['@']) ⟨_, takes_char_iff.2 rfl, rfl⟩ ?_
    refine Language.append_mem_mul (mem_language_plus_set_iff.2 ⟨fun c hc ↦ ?_, he.host_ne⟩) ?_
    · exact takes_host.trans (he.host c hc)
    · exact mem_groups_iff.2 ⟨e.groups, rfl, he.groups_length, he.groups⟩

end Words

/-! ### The server -/

section Server

variable {isAlnum : Char → Bool} {e : EmailParts} {c : Char}

/-- A character that no part of an address has. -/
theorem EmailParts.Valid.notMem_local (he : e.Valid isAlnum) (hfirst : isLowerOrDigit c = false)
    (hrest : (isAlnum c || c = '_' || c = '.' || c = '-') = false) : c ∉ e.first :: e.rest := by
  intro hc
  rcases List.mem_cons.1 hc with rfl | hc
  · exact Bool.false_ne_true (hfirst.symm.trans he.first)
  · exact Bool.false_ne_true (hrest.symm.trans (he.rest c hc))

theorem EmailParts.Valid.notMem_host (he : e.Valid isAlnum) (h : (isLowerOrDigit c || c = '-') = false) :
    c ∉ e.host :=
  fun hc ↦ Bool.false_ne_true (h.symm.trans (he.host c hc))

theorem EmailParts.Valid.notMem_group (he : e.Valid isAlnum) (h : isLower c = false) {g : Str}
    (hg : g ∈ e.groups) : c ∉ g :=
  fun hc ↦ Bool.false_ne_true (h.symm.trans ((he.groups g hg).1 c hc))

theorem EmailParts.Valid.notMem_domain (he : e.Valid isAlnum) (hhost : (isLowerOrDigit c || c = '-') = false)
    (hdot : c ≠ '.') (hlower : isLower c = false) : c ∉ e.domain := by
  intro hc
  rcases List.mem_append.1 hc with hc | hc
  · exact he.notMem_host hhost hc
  · obtain ⟨g, hg, hc⟩ := List.mem_flatMap.1 hc
    rcases List.mem_cons.1 hc with rfl | hc
    · exact hdot rfl
    · exact he.notMem_group hlower hg hc

theorem intercalate_dot (host : Str) (groups : List Str) :
    List.intercalate ['.'] (host :: groups) = host ++ groups.flatMap ('.' :: ·) := by
  induction groups generalizing host with
  | nil => simp
  | cons g groups ih =>
    rw [List.intercalate_cons_cons, ih, List.flatMap_cons, List.append_assoc]
    rfl

theorem intercalate_at (front back : Str) : List.intercalate ['@'] [front, back] = front ++ '@' :: back := by
  simp

/-- An address comes apart at the `@`. -/
theorem EmailParts.Valid.split_text (he : e.Valid isAlnum) (halnum : AsciiAlnum isAlnum) :
    split '@' e.text = [e.first :: e.rest, e.domain] := by
  have hparts : ∀ s ∈ [e.first :: e.rest, e.domain], '@' ∉ s := by
    refine List.forall_mem_cons.2 ⟨he.notMem_local (by decide) ?_, List.forall_mem_singleton.2 ?_⟩
    · rw [halnum '@' (by decide)]
      decide
    · exact he.notMem_domain (by decide) (by decide) (by decide)
  have hsplit := split_intercalate hparts (by simp)
  rwa [intercalate_at] at hsplit

/-- What stands behind the `@` comes apart at its dots. -/
theorem EmailParts.Valid.split_domain (he : e.Valid isAlnum) : split '.' e.domain = e.host :: e.groups := by
  have hparts : ∀ s ∈ e.host :: e.groups, '.' ∉ s :=
    List.forall_mem_cons.2 ⟨he.notMem_host (by decide), fun g hg ↦ he.notMem_group (by decide) hg⟩
  have hsplit := split_intercalate hparts (by simp)
  rwa [intercalate_dot] at hsplit

theorem EmailParts.Valid.newline_notMem (he : e.Valid isAlnum) (halnum : AsciiAlnum isAlnum) :
    '\n' ∉ e.text := by
  have hlocal : '\n' ∉ e.first :: e.rest := by
    refine he.notMem_local (by decide) ?_
    rw [halnum '\n' (by decide)]
    decide
  intro hmem
  rcases List.mem_append.1 (show '\n' ∈ (e.first :: e.rest) ++ '@' :: e.domain from hmem) with h | h
  · exact hlocal h
  rcases List.mem_cons.1 h with h | h
  · cases h
  · exact he.notMem_domain (by decide) (by decide) (by decide) h

/-- The text without a final newline. -/
theorem strip_newline (email : Str) : ∃ rest, (rest = [] ∨ rest = ['\n']) ∧
    email = (if email.getLast? = some '\n' then email.dropLast else email) ++ rest := by
  split
  · rename_i hlast
    refine ⟨['\n'], .inr rfl, ?_⟩
    exact (List.dropLast_append_getLast? _ hlast).symm
  · exact ⟨[], .inl rfl, (List.append_nil _).symm⟩

/-- **What the server accepts**, in terms of the parts. -/
theorem emailMatches_iff {lib : Library} (halnum : AsciiAlnum lib.isAlnum) {email : Str} :
    emailMatches lib email = true ↔
      ∃ e : EmailParts, e.Valid lib.isAlnum ∧ (email = e.text ∨ email = e.text ++ ['\n']) := by
  constructor
  · intro h
    obtain ⟨tail, htail, hemail⟩ := strip_newline email
    dsimp only [emailMatches] at h
    generalize (if email.getLast? = some '\n' then email.dropLast else email) = text at h hemail
    split at h
    · rename_i first rest domain hat
      obtain ⟨hlocal, h⟩ := Bool.and_eq_true_iff.1 h
      obtain ⟨hfirst, hrest⟩ := Bool.and_eq_true_iff.1 hlocal
      split at h
      · rename_i host groups hdot
        obtain ⟨h, hgroups⟩ := Bool.and_eq_true_iff.1 h
        obtain ⟨h, hlength⟩ := Bool.and_eq_true_iff.1 h
        obtain ⟨hne, hhost⟩ := Bool.and_eq_true_iff.1 h
        refine ⟨⟨first, rest, host, groups⟩, ?_, ?_⟩
        · exact
            { first := hfirst
              rest := List.all_eq_true.1 hrest
              host := List.all_eq_true.1 hhost
              host_ne := of_decide_eq_true hne
              groups := fun g hg ↦ by simpa [and_assoc] using List.all_eq_true.1 hgroups g hg
              groups_length := by simpa using hlength }
        · have htext : text = EmailParts.text ⟨first, rest, host, groups⟩ := by
            have hjoined : List.intercalate ['@'] (split '@' text) = text := List.intercalate_splitOn '@'
            have hdomain : List.intercalate ['.'] (split '.' domain) = domain := List.intercalate_splitOn '.'
            rw [hat, intercalate_at] at hjoined
            rw [hdot, intercalate_dot] at hdomain
            rw [← hjoined, ← hdomain]
            rfl
          obtain rfl | rfl := htail
          · exact .inl (by rw [hemail, htext, List.append_nil])
          · exact .inr (by rw [hemail, htext])
      · cases h
    · cases h
  · rintro ⟨e, he, hemail⟩
    have htext : (if email.getLast? = some '\n' then email.dropLast else email) = e.text := by
      obtain rfl | rfl := hemail
      · exact if_neg fun hlast ↦ he.newline_notMem halnum (List.mem_of_getLast? hlast)
      · rw [if_pos List.getLast?_concat, List.dropLast_concat]
    dsimp only [emailMatches]
    rw [htext, he.split_text halnum]
    dsimp only
    rw [he.split_domain]
    have hgroups : e.groups.all (fun g ↦ g.all isLower && 2 ≤ g.length && g.length ≤ 5) = true :=
      List.all_eq_true.2 fun g hg ↦ by simpa [and_assoc] using he.groups g hg
    simp only [he.first, List.all_eq_true.2 he.rest, List.all_eq_true.2 he.host, hgroups, Bool.true_and,
      Bool.and_true]
    simpa using ⟨he.host_ne, he.groups_length⟩

/-- **The server's check is the pattern**, as `re.match` runs it. -/
theorem emailMatches_eq_match {lib : Library} (halnum : AsciiAlnum lib.isAlnum) (email : Str) :
    emailMatches lib email = ((python lib.isAlnum).match? emailPattern email).isSome := by
  refine Bool.eq_iff_iff.2 ?_
  rw [emailMatches_iff halnum, emailPattern, python_line_iff rfl]
  constructor
  · rintro ⟨e, he, hemail⟩
    exact ⟨e.text, mem_emailAddress_iff.2 ⟨e, he, rfl⟩, hemail⟩
  · rintro ⟨w, hw, hemail⟩
    obtain ⟨e, he, rfl⟩ := mem_emailAddress_iff.1 hw
    exact ⟨e, he, hemail⟩

end Server

/-! ### Both sides -/

/-- The text is an address with a newline behind it, or one whose local part has a character that is no
ASCII one. -/
def ServerOnly (isAlnum : Char → Bool) (email : Str) : Prop :=
  ∃ e : EmailParts, e.Valid isAlnum ∧
    (email = e.text ++ ['\n'] ∨ email = e.text ∧ ∃ c ∈ e.rest, ¬ IsAscii c)

theorem newline_notMem_of_mem {isAlnum : Char → Bool} (halnum : AsciiAlnum isAlnum) :
    ∀ w ∈ (python isAlnum).language emailAddress, '\n' ∉ w := by
  intro w hw
  obtain ⟨e, he, rfl⟩ := mem_emailAddress_iff.1 hw
  exact he.newline_notMem halnum

theorem isAscii_of_isLower {c : Char} (h : isLower c = true) : IsAscii c := by
  have hz : c ≤ 'z' := of_decide_eq_true (Bool.and_eq_true_iff.1 h).2
  exact Nat.lt_of_le_of_lt (show c.toNat ≤ 'z'.toNat from hz) (by decide)

theorem isAscii_of_isLowerOrDigit {c : Char} (h : isLowerOrDigit c = true) : IsAscii c := by
  rcases Bool.or_eq_true_iff.1 h with h | h
  · exact isAscii_of_isLower h
  · have h9 : c ≤ '9' := of_decide_eq_true (Bool.and_eq_true_iff.1 h).2
    exact Nat.lt_of_le_of_lt (show c.toNat ≤ '9'.toNat from h9) (by decide)

theorem EmailParts.Valid.domain_isAscii {isAlnum : Char → Bool} {e : EmailParts} (he : e.Valid isAlnum) :
    ∀ c ∈ e.domain, IsAscii c := by
  intro c hc
  rcases List.mem_append.1 hc with hc | hc
  · rcases Bool.or_eq_true_iff.1 (he.host c hc) with h | h
    · exact isAscii_of_isLowerOrDigit h
    · obtain rfl := of_decide_eq_true h
      decide
  · obtain ⟨g, hg, hc⟩ := List.mem_flatMap.1 hc
    rcases List.mem_cons.1 hc with rfl | hc
    · decide
    · exact isAscii_of_isLower ((he.groups g hg).1 c hc)

/-- Only the local part can have another character than an ASCII one. -/
theorem EmailParts.Valid.foreign_iff {isAlnum : Char → Bool} {e : EmailParts} (he : e.Valid isAlnum) :
    (∃ c ∈ e.text, ¬ IsAscii c) ↔ ∃ c ∈ e.rest, ¬ IsAscii c := by
  constructor
  · rintro ⟨c, hc, hne⟩
    rcases List.mem_cons.1 hc with rfl | hc
    · exact absurd (isAscii_of_isLowerOrDigit he.first) hne
    rcases List.mem_append.1 hc with hc | hc
    · exact ⟨c, hc, hne⟩
    rcases List.mem_cons.1 hc with rfl | hc
    · exact absurd (by decide) hne
    · exact absurd (he.domain_isAscii c hc) hne
  · rintro ⟨c, hc, hne⟩
    exact ⟨c, List.mem_cons_of_mem _ (List.mem_append_left _ hc), hne⟩

/-- **When both sides agree.** -/
theorem email_agree_iff {lib : Library} (halnum : AsciiAlnum lib.isAlnum) (email : Str) :
    emailMatches lib email = ((python lib.isAlnum).match? emailPattern email).isSome ∧
    ((emailMatches lib email = true ↔ RegisterPage.emailTest email = true) ↔
      ¬ ServerOnly lib.isAlnum email) := by
  have heq := emailMatches_eq_match halnum email
  refine ⟨heq, ?_⟩
  rw [heq, RegisterPage.emailTest, emailPattern,
    agree_iff halnum rfl rfl (newline_notMem_of_mem halnum)]
  refine not_congr ?_
  constructor
  · rintro ⟨w, hw, hemail⟩
    obtain ⟨e, he, rfl⟩ := mem_emailAddress_iff.1 hw
    exact ⟨e, he, hemail.imp_right (And.imp_right he.foreign_iff.1)⟩
  · rintro ⟨e, he, hemail⟩
    exact ⟨e.text, mem_emailAddress_iff.2 ⟨e, he, rfl⟩, hemail.imp_right (And.imp_right he.foreign_iff.2)⟩

/-- A library that knows one letter beyond ASCII. -/
def oneAccent : Library := { unsigned with isAlnum := fun c ↦ c.isAlphanum || c = 'é' }

theorem oneAccent_asciiAlnum : AsciiAlnum oneAccent.isAlnum := by
  intro c hc
  have hne : c ≠ 'é' := by
    rintro rfl
    exact absurd hc (by decide)
  show (c.isAlphanum || decide (c = 'é')) = _
  rw [decide_eq_false hne, Bool.or_false]

/-- An address with that letter. -/
theorem email_agree_iff_oneAccent : ¬ (emailMatches oneAccent "aé@b.co".toList = true ↔
    RegisterPage.emailTest "aé@b.co".toList = true) := by
  obtain ⟨-, hagree⟩ := email_agree_iff oneAccent_asciiAlnum "aé@b.co".toList
  refine mt hagree.1 (not_not_intro ⟨⟨'a', ['é'], ['b'], ["co".toList]⟩, ?_, .inr ⟨rfl, 'é', ?_, ?_⟩⟩)
  · exact
      { first := rfl
        rest := List.forall_mem_singleton.2 rfl
        host := List.forall_mem_singleton.2 rfl
        host_ne := List.cons_ne_nil _ _
        groups := List.forall_mem_singleton.2
          ⟨List.forall_mem_cons.2 ⟨rfl, List.forall_mem_singleton.2 rfl⟩, by decide, by decide⟩
        groups_length := .inl rfl }
  · exact List.mem_singleton_self _
  · decide

/-- A newline behind the address, and a letter that is no ASCII one: the server accepts both, and the page
accepts neither. -/
theorem email_newline :
    (∀ lib : Library, emailMatches lib "a@b.co\n".toList = true) ∧
    RegisterPage.emailTest "a@b.co\n".toList = false ∧
    (∀ lib : Library, lib.isAlnum 'é' = true → emailMatches lib "aé@b.co".toList = true) ∧
    RegisterPage.emailTest "aé@b.co".toList = false := by
  refine ⟨fun lib ↦ rfl, rfl, fun lib halnum ↦ ?_, rfl⟩
  show ((true && ((lib.isAlnum 'é' || _ || _ || _) && true)) && _) = true
  rw [halnum]
  rfl

end DailyFresh
