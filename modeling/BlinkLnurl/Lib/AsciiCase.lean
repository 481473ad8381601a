import BlinkLnurl.Lib.RustStr

/-!
# Texts whose lowercase is ASCII

Unicode lowercasing leads into ASCII from outside it in one place: the Kelvin
sign becomes `k`. So a text whose lowercase is ASCII is ASCII but for Kelvin
signs, and its lowercase is the ASCII lowercase of it with each Kelvin sign read
as `K` (`toLowercase_of_readsAscii`).
-/

namespace RustStr

/-- `char::is_ascii`. -/
def isAscii (c : Char) : Bool := c.toNat < 0x80

def isAsciiUppercase (c : Char) : Bool := 'A' ≤ c && c ≤ 'Z'

/-- `str::to_ascii_lowercase`. -/
def asciiLowercase (s : String) : String := String.ofList (s.toList.map asciiLowerChar)

def kelvinSign : Char := '\u212A'

def readKelvinChar (c : Char) : Char := if c = kelvinSign then 'K' else c

/-- The text with each Kelvin sign read as `K`. -/
def readKelvin (s : String) : String := String.ofList (s.toList.map readKelvinChar)

section Chars

variable {c d : Char}

theorem isAscii_iff : isAscii c = true ↔ c.toNat < 0x80 := decide_eq_true_iff

theorem isAscii_of_readKelvinChar (h : isAscii (readKelvinChar c) = true) :
    isAscii c = true ∨ c = kelvinSign := by
  unfold readKelvinChar at h
  by_cases hc : c = kelvinSign
  · exact Or.inr hc
  · rw [if_neg hc] at h
    exact Or.inl h

theorem readKelvinChar_ascii (h : isAscii c = true) : readKelvinChar c = c := by
  refine if_neg fun hc => ?_
  subst hc
  exact absurd h (by decide)

theorem lowerChar_ascii (h : isAscii c = true) : lowerChar c = [asciiLowerChar c] :=
  if_pos (isAscii_iff.mp h)

/-- The entries of the table lead out of ASCII, all but one. -/
theorem lowerTable_aboveAscii : ∀ e ∈ lowerTable,
    e = (0x212A, 0x212A, 1, -8383) ∨
      0x80 ≤ e.1 + e.2.2.2 ∧ e.2.1 + e.2.2.2 < 0x110000 ∧
        (e.2.1 + e.2.2.2 < 0xD800 ∨ 0xDFFF < e.1 + e.2.2.2) := by
  decide +kernel

theorem toNat_ofNat_valid {n : Nat} (hlow : n < 0xD800 ∨ 0xDFFF < n) (hhigh : n < 0x110000) :
    (Char.ofNat n).toNat = n := by
  have hvalid : n.isValidChar := by
    rcases hlow with hlow | hlow
    · exact Or.inl hlow
    · exact Or.inr ⟨hlow, hhigh⟩
  unfold Char.ofNat
  rw [dif_pos hvalid]
  rfl

/-- A character whose lowercase is ASCII is ASCII or a Kelvin sign. -/
theorem readKelvinChar_of_lowerChar (h : ∀ d ∈ lowerChar c, isAscii d = true) :
    isAscii (readKelvinChar c) = true := by
  by_cases hascii : isAscii c = true
  · rw [readKelvinChar_ascii hascii]
    exact hascii
  · unfold lowerChar at h
    rw [if_neg fun hlt => hascii (isAscii_iff.mpr hlt)] at h
    split at h
    · have hdot := h (Char.ofNat 0x307) (List.mem_cons_of_mem _ List.mem_cons_self)
      exact absurd hdot (by decide)
    · split at h
      · rename_i e he
        have hmem := List.mem_of_find?_eq_some he
        have hrange := List.find?_some he
        simp only [Bool.and_eq_true, decide_eq_true_eq] at hrange
        rcases lowerTable_aboveAscii e hmem with hkelvin | ⟨habove, hbelow, hscalar⟩
        · subst hkelvin
          have hc : c = kelvinSign := Char.toNat_inj.mp (le_antisymm hrange.1.2 hrange.1.1)
          rw [hc]
          rfl
        · have htarget := isAscii_iff.mp (h _ List.mem_cons_self)
          rw [toNat_ofNat_valid (by omega) (by omega)] at htarget
          omega
      · exact absurd (h c List.mem_cons_self) hascii

/-- The lowercase of such a character. -/
theorem lowerChar_of_readKelvinChar (h : isAscii (readKelvinChar c) = true) :
    lowerChar c = [asciiLowerChar (readKelvinChar c)] := by
  rcases isAscii_of_readKelvinChar h with hascii | hkelvin
  · rw [readKelvinChar_ascii hascii, lowerChar_ascii hascii]
  · rw [hkelvin]
    decide +kernel

end Chars

section Texts

variable {cp : CaseProperties} {before cs : List Char} {s : String}

/-- If the lowercase is ASCII, the text reads as ASCII. -/
theorem readsAscii_of_lowerChars (h : ∀ d ∈ lowerChars cp before cs, isAscii d = true) :
    ∀ c ∈ cs, isAscii (readKelvinChar c) = true := by
  induction cs generalizing before with
  | nil => exact fun c hc => absurd hc List.not_mem_nil
  | cons c cs ih =>
      rw [lowerChars] at h
      intro x hx
      rcases List.mem_cons.mp hx with rfl | hx
      · by_cases hsigma : x = 'Σ'
        · rw [if_pos hsigma] at h
          have hfirst := h _ (List.mem_append_left _ List.mem_cons_self)
          split at hfirst <;> exact absurd hfirst (by decide)
        · rw [if_neg hsigma] at h
          exact readKelvinChar_of_lowerChar fun d hd => h d (List.mem_append_left _ hd)
      · exact ih (fun d hd => h d (List.mem_append_right _ hd)) x hx

theorem lowerChars_of_readsAscii (h : ∀ c ∈ cs, isAscii (readKelvinChar c) = true) :
    lowerChars cp before cs = cs.map fun c => asciiLowerChar (readKelvinChar c) := by
  induction cs generalizing before with
  | nil => rfl
  | cons c cs ih =>
      have hc := h c List.mem_cons_self
      have hsigma : c ≠ 'Σ' := by
        intro hsigma
        rw [hsigma] at hc
        exact absurd hc (by decide)
      rw [lowerChars, if_neg hsigma, lowerChar_of_readKelvinChar hc,
        ih fun x hx => h x (List.mem_cons_of_mem _ hx)]
      rfl

/-- A text with an ASCII lowercase: what it reads as, and that lowercase. -/
theorem toLowercase_of_readsAscii (h : ∀ c ∈ (readKelvin s).toList, isAscii c = true) :
    toLowercase cp s = asciiLowercase (readKelvin s) := by
  have hchars : ∀ c ∈ s.toList, isAscii (readKelvinChar c) = true := by
    intro c hc
    refine h _ ?_
    rw [readKelvin, String.toList_ofList]
    exact List.mem_map_of_mem hc
  unfold toLowercase asciiLowercase readKelvin
  rw [lowerChars_of_readsAscii hchars, String.toList_ofList, List.map_map]
  rfl

theorem readsAscii_of_toLowercase (h : ∀ c ∈ (toLowercase cp s).toList, isAscii c = true) :
    ∀ c ∈ (readKelvin s).toList, isAscii c = true := by
  rw [toLowercase, String.toList_ofList] at h
  rw [readKelvin, String.toList_ofList]
  intro d hd
  obtain ⟨c, hc, rfl⟩ := List.mem_map.mp hd
  exact readsAscii_of_lowerChars h c hc

/-- Without Kelvin signs a text reads as it is. -/
theorem readKelvin_eq_self (h : kelvinSign ∉ s.toList) : readKelvin s = s := by
  have hsame : s.toList.map readKelvinChar = s.toList := by
    refine (List.map_congr_left fun c hc => ?_).trans (List.map_id _)
    have hc : c ≠ kelvinSign := fun hkelvin => h (hkelvin ▸ hc)
    exact if_neg hc
  rw [readKelvin, hsame, String.ofList_toList]

end Texts

end RustStr
