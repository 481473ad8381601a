import BlinkLnurl.Identifier
import BlinkLnurl.Lib.AsciiCase

/-!
# The username grammar

`checked_to_username` tests the Unicode lowercase of what it trimmed. On a text
without Kelvin signs that is the case-insensitive ASCII pattern of Blink Core
(`UsernameGrammar`); a Kelvin sign passes as the letter `k`.
-/

namespace BlinkLnurl

open RustStr

def isUsernameChar (c : Char) : Bool :=
  isAsciiDigit c || isAsciiLowercase c || isAsciiUppercase c || c == '_'

def isAsciiLetter (c : Char) : Bool := isAsciiLowercase c || isAsciiUppercase c

/-- Blink Core's pattern: what a trimmed username has to be. -/
structure UsernameGrammar (t : String) : Prop where
  long : 3 ≤ t.toList.length
  short : t.toList.length ≤ 50
  alphabet : ∀ c ∈ t.toList, isUsernameChar c = true
  letter : ∃ c ∈ t.toList, isAsciiLetter c = true
  beginning : ∀ p ∈ ["1", "3", "_", "bc1", "lnbc1"], startsWith p (asciiLowercase t) = false

section Chars

variable {c : Char}

theorem isUsernameChar_iff : isUsernameChar c = true ↔
    (48 ≤ c.toNat ∧ c.toNat ≤ 57) ∨ (97 ≤ c.toNat ∧ c.toNat ≤ 122) ∨
      (65 ≤ c.toNat ∧ c.toNat ≤ 90) ∨ c.toNat = 95 := by
  have hle : ∀ a b : Char, a ≤ b ↔ a.toNat ≤ b.toNat := fun a b => Iff.rfl
  have hunder : c = '_' ↔ c.toNat = 95 := Char.toNat_inj.symm
  unfold isUsernameChar isAsciiDigit isAsciiLowercase isAsciiUppercase
  simp only [Bool.or_eq_true, Bool.and_eq_true, decide_eq_true_eq, beq_iff_eq, hle, hunder,
    or_assoc]
  exact Iff.rfl

theorem isAscii_of_isUsernameChar (h : isUsernameChar c = true) : isAscii c = true := by
  rw [isUsernameChar_iff] at h
  rw [isAscii_iff]
  omega

/-- The ASCII characters, one by one. -/
theorem forall_ascii {P : Char → Prop} (h : ∀ n < 0x80, P (Char.ofNat n)) (hc : isAscii c = true) :
    P c := by
  rw [← Char.ofNat_toNat c]
  exact h c.toNat (isAscii_iff.mp hc)

/-- The alphabet and the letters, read off the lowercase. -/
theorem asciiLowerChar_alphabet (hc : isAscii c = true) :
    (isAsciiLowercase (asciiLowerChar c) || isAsciiDigit (asciiLowerChar c) ||
      asciiLowerChar c == '_') = isUsernameChar c ∧
      isAsciiLowercase (asciiLowerChar c) = isAsciiLetter c := by
  refine forall_ascii (P := fun c => (isAsciiLowercase (asciiLowerChar c) ||
    isAsciiDigit (asciiLowerChar c) || asciiLowerChar c == '_') = isUsernameChar c ∧
      isAsciiLowercase (asciiLowerChar c) = isAsciiLetter c) ?_ hc
  decide +kernel

end Chars

section Grammar

variable {cp : CaseProperties} {t u x : String}

theorem isAscii_of_isUsernameText (h : isUsernameText t = true) :
    ∀ c ∈ t.toList, isAscii c = true := by
  intro c hc
  have hrange := (isUsernameText_username h).toNat_mem c hc
  rw [isAscii_iff]
  omega

/-- On an ASCII text the test of the lowercase is the pattern. -/
theorem isUsernameText_asciiLowercase (hascii : ∀ c ∈ t.toList, isAscii c = true) :
    isUsernameText (asciiLowercase t) = true ↔ UsernameGrammar t := by
  have hlist : (asciiLowercase t).toList = t.toList.map asciiLowerChar := String.toList_ofList
  have halphabet : (∀ c ∈ t.toList, (isAsciiLowercase (asciiLowerChar c) ||
      isAsciiDigit (asciiLowerChar c) || asciiLowerChar c == '_') = true) ↔
      ∀ c ∈ t.toList, isUsernameChar c = true :=
    forall_congr' fun c => forall_congr' fun hc => by rw [(asciiLowerChar_alphabet (hascii c hc)).1]
  have hletter : (∃ c ∈ t.toList, isAsciiLowercase (asciiLowerChar c) = true) ↔
      ∃ c ∈ t.toList, isAsciiLetter c = true :=
    exists_congr fun c =>
      and_congr_right fun hc => by rw [(asciiLowerChar_alphabet (hascii c hc)).2]
  have hbeginning : (!(startsWith "1" (asciiLowercase t) || startsWith "3" (asciiLowercase t) ||
      startsWith "_" (asciiLowercase t) || startsWith "bc1" (asciiLowercase t) ||
      startsWith "lnbc1" (asciiLowercase t))) = true ↔
      ∀ p ∈ ["1", "3", "_", "bc1", "lnbc1"], startsWith p (asciiLowercase t) = false := by
    simp only [Bool.not_eq_true', Bool.or_eq_false_iff, List.forall_mem_cons, and_assoc,
      List.not_mem_nil, false_imp_iff, implies_true, and_true]
  unfold isUsernameText
  rw [Bool.and_eq_true, Bool.and_eq_true, Bool.and_eq_true, Bool.and_eq_true, hbeginning, hlist,
    List.length_map, decide_eq_true_eq, decide_eq_true_eq, List.all_map, List.any_map,
    List.all_eq_true, List.any_eq_true]
  constructor
  · intro ⟨⟨⟨⟨hlong, hshort⟩, hbegins⟩, hall⟩, hany⟩
    exact ⟨hlong, hshort, halphabet.mp hall, hletter.mp hany, hbegins⟩
  · intro h
    exact ⟨⟨⟨⟨h.long, h.short⟩, h.beginning⟩, halphabet.mpr h.alphabet⟩, hletter.mpr h.letter⟩

theorem UsernameGrammar.isAscii (h : UsernameGrammar t) : ∀ c ∈ t.toList, isAscii c = true :=
  fun c hc => isAscii_of_isUsernameChar (h.alphabet c hc)

theorem UsernameGrammar.ne_empty (h : UsernameGrammar t) : t ≠ "" := by
  intro hempty
  have hlong := h.long
  rw [hempty] at hlong
  exact absurd hlong (by decide)

/-- The test accepts what is a username once Kelvin signs are read as `K`. -/
theorem matchesBlinkUsernameRegex_iff :
    matchesBlinkUsernameRegex cp t = true ↔ UsernameGrammar (readKelvin t) := by
  unfold matchesBlinkUsernameRegex
  constructor
  · intro h
    have hascii : ∀ c ∈ (readKelvin t).toList, RustStr.isAscii c = true :=
      readsAscii_of_toLowercase (isAscii_of_isUsernameText h)
    rw [toLowercase_of_readsAscii hascii] at h
    exact (isUsernameText_asciiLowercase hascii).mp h
  · intro h
    rw [toLowercase_of_readsAscii h.isAscii]
    exact (isUsernameText_asciiLowercase h.isAscii).mpr h

/-- What `checked_to_username` accepts and returns, for every text. -/
theorem checkedToUsername_eq_ok_iff :
    checkedToUsername cp x = .ok u ↔
      UsernameGrammar (readKelvin (trim x)) ∧ u = asciiLowercase (readKelvin (trim x)) := by
  unfold checkedToUsername
  by_cases hgrammar : UsernameGrammar (readKelvin (trim x))
  · have hne : trim x ≠ "" := by
      intro hempty
      rw [hempty] at hgrammar
      exact hgrammar.ne_empty rfl
    simp only [hne, if_false, matchesBlinkUsernameRegex_iff.mpr hgrammar, if_true,
      toLowercase_of_readsAscii hgrammar.isAscii]
    constructor
    · intro h
      exact ⟨hgrammar, (Except.ok.inj h).symm⟩
    · intro h
      rw [h.2]
  · have hno : ¬ matchesBlinkUsernameRegex cp (trim x) = true :=
      fun h => hgrammar (matchesBlinkUsernameRegex_iff.mp h)
    simp only [hno]
    constructor
    · intro h
      split at h <;> exact nomatch h
    · intro h
      exact absurd h.1 hgrammar

/-- What `checked_to_username` promises of a text. -/
structure ChecksUsername (cp : CaseProperties) (x : String) : Prop where
  accepts : (∃ u, checkedToUsername cp x = .ok u) ↔ UsernameGrammar (trim x)
  returns : ∀ u, checkedToUsername cp x = .ok u → u = asciiLowercase (trim x)
  again : ∀ u, checkedToUsername cp x = .ok u → checkedToUsername cp u = .ok u

/-- It keeps the promise except where a Kelvin sign stands for a letter of what
is a username otherwise. -/
theorem checksUsername_iff (cp : CaseProperties) (x : String) :
    ChecksUsername cp x ↔
      ¬ (kelvinSign ∈ (trim x).toList ∧ UsernameGrammar (readKelvin (trim x))) := by
  have hreturned : ∀ u, checkedToUsername cp x = .ok u → checkedToUsername cp u = .ok u :=
    fun u h => checkedToUsername_eq_self (checkedToUsername_ok h)
  by_cases hkelvin : kelvinSign ∈ (trim x).toList
  · have hno : ¬ UsernameGrammar (trim x) :=
      fun h => absurd (h.isAscii kelvinSign hkelvin) (by decide)
    constructor
    · intro h ⟨_, hgrammar⟩
      exact hno (h.accepts.mp ⟨_, checkedToUsername_eq_ok_iff.mpr ⟨hgrammar, rfl⟩⟩)
    · intro h
      have hrefused : ∀ u, checkedToUsername cp x ≠ .ok u :=
        fun u hu => h ⟨hkelvin, (checkedToUsername_eq_ok_iff.mp hu).1⟩
      refine ⟨⟨fun ⟨u, hu⟩ => absurd hu (hrefused u), fun hg => absurd hg hno⟩, ?_, hreturned⟩
      exact fun u hu => absurd hu (hrefused u)
  · have hsame := readKelvin_eq_self hkelvin
    constructor
    · intro _ h
      exact hkelvin h.1
    · intro _
      refine ⟨⟨?_, ?_⟩, ?_, hreturned⟩
      · intro ⟨u, hu⟩
        rw [← hsame]
        exact (checkedToUsername_eq_ok_iff.mp hu).1
      · intro hgrammar
        rw [← hsame] at hgrammar
        exact ⟨_, checkedToUsername_eq_ok_iff.mpr ⟨hgrammar, rfl⟩⟩
      · intro u hu
        rw [← hsame]
        exact (checkedToUsername_eq_ok_iff.mp hu).2

/-- The Unicode properties of letters, as far as ASCII texts need them. -/
def asciiCases : CaseProperties := ⟨isAsciiLetter, fun _ => false⟩

/-- `mar` and a Kelvin sign is registered as `mark`. -/
theorem kelvinSign_in_username :
    checkedToUsername asciiCases "mar\u212A" = .ok "mark" ∧
      ¬ UsernameGrammar (trim "mar\u212A") ∧ "mark" ≠ asciiLowercase (trim "mar\u212A") := by
  have hkelvin : kelvinSign ∈ (trim "mar\u212A").toList := by decide +kernel
  refine ⟨by decide +kernel, fun h => ?_, by decide +kernel⟩
  exact absurd (h.isAscii kelvinSign hkelvin) (by decide)

end Grammar

end BlinkLnurl
