import Mathlib.Algebra.Group.Int.Defs
import Mathlib.Algebra.Group.Nat.Defs
import Mathlib.Data.List.DropRight

/-!
# Strings as Rust's standard library sees them

`trim`, `to_lowercase` and `eq_ignore_ascii_case`, over Unicode scalar values.
Lowercasing is one scalar value at a time except for two characters: `İ`
becomes two characters, and `Σ` becomes `ς` at the end of a word. The two
properties that decide where a word ends are a parameter (`CaseProperties`);
they are consulted around a `Σ` only.
-/

namespace RustStr

/-- What holds of each character of a list; `decide` on the statement itself may
try all characters there are. -/
theorem forall_mem_of_all {P : Char → Prop} [DecidablePred P] {cs : List Char}
    (h : (cs.all fun c => decide (P c)) = true) : ∀ c ∈ cs, P c :=
  fun c hc => of_decide_eq_true (List.all_eq_true.mp h c hc)

/-- The Unicode property `White_Space`. -/
def isWhitespace (c : Char) : Bool :=
  (0x09 ≤ c.toNat && c.toNat ≤ 0x0D) || c.toNat == 0x20 || c.toNat == 0x85 || c.toNat == 0xA0 ||
    c.toNat == 0x1680 || (0x2000 ≤ c.toNat && c.toNat ≤ 0x200A) || c.toNat == 0x2028 ||
    c.toNat == 0x2029 || c.toNat == 0x202F || c.toNat == 0x205F || c.toNat == 0x3000

def trimChars (cs : List Char) : List Char :=
  ((cs.dropWhile isWhitespace).reverse.dropWhile isWhitespace).reverse

/-- `str::trim`. -/
def trim (s : String) : String := String.ofList (trimChars s.toList)

theorem trim_eq_self {s : String} (h : ∀ c ∈ s.toList, isWhitespace c = false) : trim s = s := by
  have hdrop : ∀ l : List Char, (∀ c ∈ l, isWhitespace c = false) →
      l.dropWhile isWhitespace = l := by
    intro l hl
    cases l with
    | nil => rfl
    | cons c l => exact List.dropWhile_cons_of_neg (by simp [hl c List.mem_cons_self])
  unfold trim trimChars
  rw [hdrop _ h, hdrop _ (fun c hc => h c (List.mem_reverse.mp hc)), List.reverse_reverse,
    String.ofList_toList]

/-- Neither the first nor the last character is white space. -/
structure Trimmed (cs : List Char) : Prop where
  head : ∀ c, cs.head? = some c → isWhitespace c = false
  last : ∀ c, cs.getLast? = some c → isWhitespace c = false

theorem trimChars_eq (cs : List Char) :
    trimChars cs = (cs.dropWhile isWhitespace).rdropWhile isWhitespace := rfl

theorem head_of_prefix {α : Type} {l l' : List α} {a : α} (h : l <+: l') (ha : l.head? = some a) :
    l'.head? = some a := by
  obtain ⟨t, rfl⟩ := h
  cases l with
  | nil => cases ha
  | cons b l => exact ha

theorem trimmed_trimChars (cs : List Char) : Trimmed (trimChars cs) where
  head := by
    intro c hc
    rw [trimChars_eq] at hc
    have hhead := head_of_prefix (List.rdropWhile_prefix _ _) hc
    have hnot := List.head?_dropWhile_not isWhitespace cs
    rw [hhead] at hnot
    exact hnot
  last := by
    intro c hc
    rw [trimChars_eq] at hc
    have hne : (cs.dropWhile isWhitespace).rdropWhile isWhitespace ≠ [] := by
      intro hnil
      rw [hnil] at hc
      cases hc
    have hnot := List.rdropWhile_last_not isWhitespace _ hne
    rw [List.getLast?_eq_getLast_of_ne_nil hne, Option.some.injEq] at hc
    rw [hc] at hnot
    exact Bool.eq_false_iff.mpr hnot

theorem Trimmed.trimChars_eq_self {cs : List Char} (h : Trimmed cs) : trimChars cs = cs := by
  have hdrop : cs.dropWhile isWhitespace = cs := by
    cases cs with
    | nil => rfl
    | cons c cs => exact List.dropWhile_cons_of_neg (by simp [h.head c rfl])
  rw [trimChars_eq, hdrop, List.rdropWhile_eq_self_iff]
  intro hne
  have hlast := h.last _ (List.getLast?_eq_getLast_of_ne_nil hne)
  simp [hlast]

/-! ## Lowercase -/

/-- The scalar values above ASCII whose lowercase is one other scalar value:
`(first, last, step, offset)`. -/
def lowerTable : List (Nat × Nat × Nat × Int) :=
  [(0xC0, 0xD6, 1, 32), (0xD8, 0xDE, 1, 32), (0x100, 0x12E, 2, 1), (0x132, 0x136, 2, 1),
   (0x139, 0x147, 2, 1), (0x14A, 0x176, 2, 1), (0x178, 0x178, 1, -121), (0x179, 0x17D, 2, 1),
   (0x181, 0x181, 1, 210), (0x182, 0x184, 2, 1), (0x186, 0x186, 1, 206), (0x187, 0x187, 1, 1),
   (0x189, 0x18A, 1, 205), (0x18B, 0x18B, 1, 1), (0x18E, 0x18E, 1, 79), (0x18F, 0x18F, 1, 202),
   (0x190, 0x190, 1, 203), (0x191, 0x191, 1, 1), (0x193, 0x193, 1, 205), (0x194, 0x194, 1, 207),
   (0x196, 0x196, 1, 211), (0x197, 0x197, 1, 209), (0x198, 0x198, 1, 1), (0x19C, 0x19C, 1, 211),
   (0x19D, 0x19D, 1, 213), (0x19F, 0x19F, 1, 214), (0x1A0, 0x1A4, 2, 1), (0x1A6, 0x1A6, 1, 218),
   (0x1A7, 0x1A7, 1, 1), (0x1A9, 0x1A9, 1, 218), (0x1AC, 0x1AC, 1, 1), (0x1AE, 0x1AE, 1, 218),
   (0x1AF, 0x1AF, 1, 1), (0x1B1, 0x1B2, 1, 217), (0x1B3, 0x1B5, 2, 1), (0x1B7, 0x1B7, 1, 219),
   (0x1B8, 0x1B8, 1, 1), (0x1BC, 0x1BC, 1, 1), (0x1C4, 0x1C4, 1, 2), (0x1C5, 0x1C5, 1, 1),
   (0x1C7, 0x1C7, 1, 2), (0x1C8, 0x1C8, 1, 1), (0x1CA, 0x1CA, 1, 2), (0x1CB, 0x1DB, 2, 1),
   (0x1DE, 0x1EE, 2, 1), (0x1F1, 0x1F1, 1, 2), (0x1F2, 0x1F4, 2, 1), (0x1F6, 0x1F6, 1, -97),
   (0x1F7, 0x1F7, 1, -56), (0x1F8, 0x21E, 2, 1), (0x220, 0x220, 1, -130), (0x222, 0x232, 2, 1),
   (0x23A, 0x23A, 1, 10795), (0x23B, 0x23B, 1, 1), (0x23D, 0x23D, 1, -163),
   (0x23E, 0x23E, 1, 10792), (0x241, 0x241, 1, 1), (0x243, 0x243, 1, -195),
   (0x244, 0x244, 1, 69), (0x245, 0x245, 1, 71), (0x246, 0x24E, 2, 1), (0x370, 0x372, 2, 1),
   (0x376, 0x376, 1, 1), (0x37F, 0x37F, 1, 116), (0x386, 0x386, 1, 38), (0x388, 0x38A, 1, 37),
   (0x38C, 0x38C, 1, 64), (0x38E, 0x38F, 1, 63), (0x391, 0x3A1, 1, 32), (0x3A3, 0x3AB, 1, 32),
   (0x3CF, 0x3CF, 1, 8), (0x3D8, 0x3EE, 2, 1), (0x3F4, 0x3F4, 1, -60), (0x3F7, 0x3F7, 1, 1),
   (0x3F9, 0x3F9, 1, -7), (0x3FA, 0x3FA, 1, 1), (0x3FD, 0x3FF, 1, -130), (0x400, 0x40F, 1, 80),
   (0x410, 0x42F, 1, 32), (0x460, 0x480, 2, 1), (0x48A, 0x4BE, 2, 1), (0x4C0, 0x4C0, 1, 15),
   (0x4C1, 0x4CD, 2, 1), (0x4D0, 0x52E, 2, 1), (0x531, 0x556, 1, 48), (0x10A0, 0x10C5, 1, 7264),
   (0x10C7, 0x10C7, 1, 7264), (0x10CD, 0x10CD, 1, 7264), (0x13A0, 0x13EF, 1, 38864),
   (0x13F0, 0x13F5, 1, 8), (0x1C89, 0x1C89, 1, 1), (0x1C90, 0x1CBA, 1, -3008),
   (0x1CBD, 0x1CBF, 1, -3008), (0x1E00, 0x1E94, 2, 1), (0x1E9E, 0x1E9E, 1, -7615),
   (0x1EA0, 0x1EFE, 2, 1), (0x1F08, 0x1F0F, 1, -8), (0x1F18, 0x1F1D, 1, -8),
   (0x1F28, 0x1F2F, 1, -8), (0x1F38, 0x1F3F, 1, -8), (0x1F48, 0x1F4D, 1, -8),
   (0x1F59, 0x1F5F, 2, -8), (0x1F68, 0x1F6F, 1, -8), (0x1F88, 0x1F8F, 1, -8),
   (0x1F98, 0x1F9F, 1, -8), (0x1FA8, 0x1FAF, 1, -8), (0x1FB8, 0x1FB9, 1, -8),
   (0x1FBA, 0x1FBB, 1, -74), (0x1FBC, 0x1FBC, 1, -9), (0x1FC8, 0x1FCB, 1, -86),
   (0x1FCC, 0x1FCC, 1, -9), (0x1FD8, 0x1FD9, 1, -8), (0x1FDA, 0x1FDB, 1, -100),
   (0x1FE8, 0x1FE9, 1, -8), (0x1FEA, 0x1FEB, 1, -112), (0x1FEC, 0x1FEC, 1, -7),
   (0x1FF8, 0x1FF9, 1, -128), (0x1FFA, 0x1FFB, 1, -126), (0x1FFC, 0x1FFC, 1, -9),
   (0x2126, 0x2126, 1, -7517), (0x212A, 0x212A, 1, -8383), (0x212B, 0x212B, 1, -8262),
   (0x2132, 0x2132, 1, 28), (0x2160, 0x216F, 1, 16), (0x2183, 0x2183, 1, 1),
   (0x24B6, 0x24CF, 1, 26), (0x2C00, 0x2C2F, 1, 48), (0x2C60, 0x2C60, 1, 1),
   (0x2C62, 0x2C62, 1, -10743), (0x2C63, 0x2C63, 1, -3814), (0x2C64, 0x2C64, 1, -10727),
   (0x2C67, 0x2C6B, 2, 1), (0x2C6D, 0x2C6D, 1, -10780), (0x2C6E, 0x2C6E, 1, -10749),
   (0x2C6F, 0x2C6F, 1, -10783), (0x2C70, 0x2C70, 1, -10782), (0x2C72, 0x2C72, 1, 1),
   (0x2C75, 0x2C75, 1, 1), (0x2C7E, 0x2C7F, 1, -10815), (0x2C80, 0x2CE2, 2, 1),
   (0x2CEB, 0x2CED, 2, 1), (0x2CF2, 0x2CF2, 1, 1), (0xA640, 0xA66C, 2, 1),
   (0xA680, 0xA69A, 2, 1), (0xA722, 0xA72E, 2, 1), (0xA732, 0xA76E, 2, 1),
   (0xA779, 0xA77B, 2, 1), (0xA77D, 0xA77D, 1, -35332), (0xA77E, 0xA786, 2, 1),
   (0xA78B, 0xA78B, 1, 1), (0xA78D, 0xA78D, 1, -42280), (0xA790, 0xA792, 2, 1),
   (0xA796, 0xA7A8, 2, 1), (0xA7AA, 0xA7AA, 1, -42308), (0xA7AB, 0xA7AB, 1, -42319),
   (0xA7AC, 0xA7AC, 1, -42315), (0xA7AD, 0xA7AD, 1, -42305), (0xA7AE, 0xA7AE, 1, -42308),
   (0xA7B0, 0xA7B0, 1, -42258), (0xA7B1, 0xA7B1, 1, -42282), (0xA7B2, 0xA7B2, 1, -42261),
   (0xA7B3, 0xA7B3, 1, 928), (0xA7B4, 0xA7C2, 2, 1), (0xA7C4, 0xA7C4, 1, -48),
   (0xA7C5, 0xA7C5, 1, -42307), (0xA7C6, 0xA7C6, 1, -35384), (0xA7C7, 0xA7C9, 2, 1),
   (0xA7CB, 0xA7CB, 1, -42343), (0xA7CC, 0xA7DA, 2, 1), (0xA7DC, 0xA7DC, 1, -42561),
   (0xA7F5, 0xA7F5, 1, 1), (0xFF21, 0xFF3A, 1, 32), (0x10400, 0x10427, 1, 40),
   (0x104B0, 0x104D3, 1, 40), (0x10570, 0x1057A, 1, 39), (0x1057C, 0x1058A, 1, 39),
   (0x1058C, 0x10592, 1, 39), (0x10594, 0x10595, 1, 39), (0x10C80, 0x10CB2, 1, 64),
   (0x10D50, 0x10D65, 1, 32), (0x118A0, 0x118BF, 1, 32), (0x16E40, 0x16E5F, 1, 32),
   (0x16EA0, 0x16EB8, 1, 27), (0x1E900, 0x1E921, 1, 34)]

/-- `char::to_lowercase`. -/
def lowerChar (c : Char) : List Char :=
  if c.toNat < 0x80 then
    [if 'A' ≤ c ∧ c ≤ 'Z' then Char.ofNat (c.toNat + 32) else c]
  else if c.toNat = 0x130 then ['i', Char.ofNat 0x307]
  else
    match lowerTable.find? fun e =>
        e.1 ≤ c.toNat && c.toNat ≤ e.2.1 && (c.toNat - e.1) % e.2.2.1 == 0 with
    | some e => [Char.ofNat (c.toNat + e.2.2.2).toNat]
    | none => [c]

/-- The Unicode properties `Cased` and `Case_Ignorable`. -/
structure CaseProperties where
  cased : Char → Bool
  caseIgnorable : Char → Bool

/-- The first character that is not case-ignorable is cased. -/
def CaseProperties.ignorableThenCased (cp : CaseProperties) (cs : List Char) : Bool :=
  (cs.dropWhile cp.caseIgnorable).head?.any cp.cased

/-- `str::to_lowercase`, `before` being what was read already, last first. -/
def lowerChars (cp : CaseProperties) (before : List Char) : List Char → List Char
  | [] => []
  | c :: cs =>
      (if c = 'Σ' then
        [if cp.ignorableThenCased before && !cp.ignorableThenCased cs then 'ς' else 'σ']
      else lowerChar c) ++ lowerChars cp (c :: before) cs

/-- `str::to_lowercase`. -/
def toLowercase (cp : CaseProperties) (s : String) : String :=
  String.ofList (lowerChars cp [] s.toList)

/-- ASCII, and not an uppercase letter. -/
def isLowerAscii (c : Char) : Bool := c.toNat < 0x80 && !('A' ≤ c && c ≤ 'Z')

theorem lowerChar_eq_self {c : Char} (h : isLowerAscii c = true) : lowerChar c = [c] := by
  simp only [isLowerAscii, Bool.and_eq_true, decide_eq_true_eq, Bool.not_eq_true',
    Bool.and_eq_false_iff, decide_eq_false_iff_not] at h
  have hno : ¬ ('A' ≤ c ∧ c ≤ 'Z') := fun hc => h.2.elim (fun h => h hc.1) fun h => h hc.2
  rw [lowerChar, if_pos h.1, if_neg hno]

theorem lowerChars_eq_self {cp : CaseProperties} {before cs : List Char}
    (h : ∀ c ∈ cs, isLowerAscii c = true) : lowerChars cp before cs = cs := by
  induction cs generalizing before with
  | nil => rfl
  | cons c cs ih =>
      have hc : isLowerAscii c = true := h c List.mem_cons_self
      have hsigma : c ≠ 'Σ' := by
        rintro rfl
        exact absurd hc (by decide)
      have hcs : lowerChars cp (c :: before) cs = cs :=
        ih fun x hx => h x (List.mem_cons_of_mem _ hx)
      rw [lowerChars, if_neg hsigma, lowerChar_eq_self hc, hcs]
      rfl

/-- A string without uppercase letters and without characters above ASCII is
its own lowercase. -/
theorem toLowercase_eq_self {cp : CaseProperties} {s : String}
    (h : ∀ c ∈ s.toList, isLowerAscii c = true) : toLowercase cp s = s := by
  rw [toLowercase, lowerChars_eq_self h, String.ofList_toList]

/-- White space, digits and `+`. Lowercasing another character gives none of
these. -/
def isPlain (n : Nat) : Bool :=
  (0x09 ≤ n && n ≤ 0x0D) || n == 0x20 || n == 0x85 || n == 0xA0 || n == 0x1680 ||
    (0x2000 ≤ n && n ≤ 0x200A) || n == 0x2028 || n == 0x2029 || n == 0x202F || n == 0x205F ||
    n == 0x3000 || (0x30 ≤ n && n ≤ 0x39) || n == 0x2B

/-- No plain character from `lo` to `hi`. -/
def avoidsPlain (lo hi : Int) : Bool :=
  0x39 < lo && (hi < 0x85 || 0x85 < lo) && (hi < 0xA0 || 0xA0 < lo) &&
    (hi < 0x1680 || 0x1680 < lo) && (hi < 0x2000 || 0x205F < lo) && (hi < 0x3000 || 0x3000 < lo)

theorem lowerTable_avoids :
    ∀ e ∈ lowerTable, avoidsPlain (e.1 + e.2.2.2) (e.2.1 + e.2.2.2) = true := by
  decide +kernel

theorem isPlain_of_avoids {lo hi : Int} {n : Nat} (h : avoidsPlain lo hi = true) (hlo : lo ≤ n)
    (hhi : n ≤ hi) : isPlain n = false := by
  simp only [avoidsPlain, Bool.and_eq_true, Bool.or_eq_true, decide_eq_true_eq] at h
  simp only [isPlain, Bool.or_eq_false_iff, Bool.and_eq_false_iff, decide_eq_false_iff_not,
    beq_eq_false_iff_ne]
  omega

theorem toNat_ofNat (n : Nat) : (Char.ofNat n).toNat = n ∨ (Char.ofNat n).toNat = 0 := by
  unfold Char.ofNat
  by_cases hvalid : n.isValidChar
  · rw [dif_pos hvalid]
    exact Or.inl rfl
  · rw [dif_neg hvalid]
    exact Or.inr rfl

theorem eq_of_mem_lowerChar {c d : Char} (hd : d ∈ lowerChar c) (hplain : isPlain d.toNat = true) :
    d = c := by
  have notPlain : ∀ n : Nat, isPlain n = false → d ≠ Char.ofNat n := by
    rintro n hn rfl
    rcases toNat_ofNat n with h | h
    · rw [h, hn] at hplain
      exact Bool.noConfusion hplain
    · rw [h] at hplain
      exact absurd hplain (by decide)
  unfold lowerChar at hd
  split at hd
  · rename_i hascii
    rw [List.mem_singleton] at hd
    split at hd
    · rename_i hupper
      have hle : ∀ a b : Char, a ≤ b ↔ a.toNat ≤ b.toNat := fun a b => Iff.rfl
      have hA : 'A'.toNat = 65 := rfl
      have hZ : 'Z'.toNat = 90 := rfl
      rw [hle, hle, hA, hZ] at hupper
      refine absurd hd (notPlain _ ?_)
      simp only [isPlain, Bool.or_eq_false_iff, Bool.and_eq_false_iff, decide_eq_false_iff_not,
        beq_eq_false_iff_ne]
      omega
    · exact hd
  · split at hd
    · rcases List.mem_cons.mp hd with rfl | hd
      · exact absurd hplain (by decide)
      · exact absurd (List.mem_singleton.mp hd) (notPlain _ (by decide))
    · split at hd
      · rename_i e he
        have hmem := List.mem_of_find?_eq_some he
        have hrange := List.find?_some he
        simp only [Bool.and_eq_true, decide_eq_true_eq] at hrange
        refine absurd (List.mem_singleton.mp hd) (notPlain _ ?_)
        refine isPlain_of_avoids (lowerTable_avoids e hmem) ?_ ?_
        · have := lowerTable_avoids e hmem
          simp only [avoidsPlain, Bool.and_eq_true, decide_eq_true_eq] at this
          omega
        · have := lowerTable_avoids e hmem
          simp only [avoidsPlain, Bool.and_eq_true, decide_eq_true_eq] at this
          omega
      · exact List.mem_singleton.mp hd

/-- What lowercasing one character puts down: something, and nothing plain that
was not there. -/
theorem lowerChars_cons (cp : CaseProperties) (before : List Char) (c : Char) (cs : List Char) :
    ∃ out, lowerChars cp before (c :: cs) = out ++ lowerChars cp (c :: before) cs ∧ out ≠ [] ∧
      (∀ d ∈ out, isPlain d.toNat = true → d = c) ∧ (isLowerAscii c = true → out = [c]) := by
  by_cases hsigma : c = 'Σ'
  · refine ⟨_, rfl, ?_, ?_, ?_⟩
    · rw [if_pos hsigma]
      exact List.cons_ne_nil _ _
    · rw [if_pos hsigma]
      intro d hd hplain
      rw [List.mem_singleton] at hd
      split at hd <;> exact absurd hplain (by rw [hd]; decide)
    · subst hsigma
      exact fun h => absurd h (by decide)
  · refine ⟨lowerChar c, by rw [lowerChars, if_neg hsigma], ?_, ?_, lowerChar_eq_self⟩
    · unfold lowerChar
      split
      · exact List.cons_ne_nil _ _
      · split
        · exact List.cons_ne_nil _ _
        · split <;> exact List.cons_ne_nil _ _
    · exact fun d hd hplain => eq_of_mem_lowerChar hd hplain

section Plain

variable {cp : CaseProperties} {before cs : List Char} {d : Char}

theorem mem_of_mem_lowerChars (hd : d ∈ lowerChars cp before cs) (hplain : isPlain d.toNat = true) :
    d ∈ cs := by
  induction cs generalizing before with
  | nil => exact absurd hd List.not_mem_nil
  | cons c cs ih =>
      obtain ⟨out, heq, _, hout, _⟩ := lowerChars_cons cp before c cs
      rw [heq] at hd
      rcases List.mem_append.mp hd with hd | hd
      · rw [hout d hd hplain]
        exact List.mem_cons_self
      · exact List.mem_cons_of_mem _ (ih hd)

theorem head_of_head_lowerChars (hd : (lowerChars cp before cs).head? = some d)
    (hplain : isPlain d.toNat = true) : cs.head? = some d := by
  cases cs with
  | nil => cases hd
  | cons c cs =>
      obtain ⟨out, heq, hne, hout, _⟩ := lowerChars_cons cp before c cs
      obtain ⟨x, xs, rfl⟩ := List.exists_cons_of_ne_nil hne
      rw [heq] at hd
      cases hd
      rw [hout d List.mem_cons_self hplain]
      rfl

theorem lowerChars_ne_nil (h : cs ≠ []) : lowerChars cp before cs ≠ [] := by
  obtain ⟨c, cs, rfl⟩ := List.exists_cons_of_ne_nil h
  obtain ⟨out, heq, hne, _⟩ := lowerChars_cons cp before c cs
  rw [heq]
  exact fun hnil => hne (List.append_eq_nil_iff.mp hnil).1

theorem last_of_last_lowerChars (hd : (lowerChars cp before cs).getLast? = some d)
    (hplain : isPlain d.toNat = true) : cs.getLast? = some d := by
  induction cs generalizing before with
  | nil => cases hd
  | cons c cs ih =>
      obtain ⟨out, heq, _, hout, _⟩ := lowerChars_cons cp before c cs
      rw [heq] at hd
      by_cases hcs : cs = []
      · subst hcs
        rw [show lowerChars cp (c :: before) [] = [] from rfl, List.append_nil] at hd
        rw [hout d (List.mem_of_getLast? hd) hplain]
        rfl
      · rw [List.getLast?_append_of_ne_nil _ (lowerChars_ne_nil hcs)] at hd
        obtain ⟨c', cs', rfl⟩ := List.exists_cons_of_ne_nil hcs
        rw [List.getLast?_cons_cons]
        exact ih hd

/-- Plain characters at the front were there before. -/
theorem prefix_of_prefix_lowerChars {p : List Char}
    (hp : ∀ c ∈ p, isPlain c.toNat = true ∧ isLowerAscii c = true)
    (h : p <+: lowerChars cp before cs) : p <+: cs := by
  induction p generalizing before cs with
  | nil => exact List.nil_prefix
  | cons a p ih =>
      obtain ⟨hplain, hlower⟩ := hp a List.mem_cons_self
      obtain ⟨tail, htail⟩ := h
      have hhead : cs.head? = some a := head_of_head_lowerChars (by rw [← htail]; rfl) hplain
      cases cs with
      | nil => cases hhead
      | cons c cs =>
          obtain rfl : c = a := Option.some.inj hhead
          obtain ⟨out, heq, _, _, hascii⟩ := lowerChars_cons cp before c cs
          rw [heq, hascii hlower] at htail
          have hrest : p <+: lowerChars cp (c :: before) cs := ⟨tail, (List.cons.inj htail).2⟩
          exact List.cons_prefix_cons.mpr
            ⟨rfl, ih (fun x hx => hp x (List.mem_cons_of_mem _ hx)) hrest⟩

/-- If the lowercase is plain throughout, so was the text. -/
theorem mem_lowerChars_of_plain (h : ∀ d ∈ lowerChars cp before cs, isPlain d.toNat = true) :
    ∀ c ∈ cs, c ∈ lowerChars cp before cs := by
  induction cs generalizing before with
  | nil => exact fun c hc => absurd hc List.not_mem_nil
  | cons c cs ih =>
      obtain ⟨out, heq, hne, hout, _⟩ := lowerChars_cons cp before c cs
      rw [heq] at h ⊢
      intro x hx
      rcases List.mem_cons.mp hx with rfl | hx
      · obtain ⟨d, ds, rfl⟩ := List.exists_cons_of_ne_nil hne
        have hd : d = x := hout d List.mem_cons_self
          (h d (List.mem_append.mpr (Or.inl List.mem_cons_self)))
        exact List.mem_append.mpr (Or.inl (hd ▸ List.mem_cons_self))
      · exact List.mem_append.mpr
          (Or.inr (ih (fun d hd => h d (List.mem_append.mpr (Or.inr hd))) x hx))

end Plain

theorem isPlain_of_isWhitespace {c : Char} (h : isWhitespace c = true) :
    isPlain c.toNat = true := by
  simp only [isWhitespace, isPlain, Bool.or_eq_true, Bool.and_eq_true, decide_eq_true_eq,
    beq_iff_eq] at h ⊢
  omega

/-- A trimmed text stays trimmed. -/
theorem Trimmed.lowercase {cp : CaseProperties} {cs : List Char} (h : Trimmed cs) :
    Trimmed (lowerChars cp [] cs) where
  head := fun c hc => by
    by_contra hspace
    rw [Bool.not_eq_false] at hspace
    rw [h.head c (head_of_head_lowerChars hc (isPlain_of_isWhitespace hspace))] at hspace
    exact Bool.noConfusion hspace
  last := fun c hc => by
    by_contra hspace
    rw [Bool.not_eq_false] at hspace
    rw [h.last c (last_of_last_lowerChars hc (isPlain_of_isWhitespace hspace))] at hspace
    exact Bool.noConfusion hspace

/-! ## Lowercase twice -/

/-- In the range of an entry, and on its step. -/
def inEntry (n : Nat) (e : Nat × Nat × Nat × Int) : Bool :=
  e.1 ≤ n && n ≤ e.2.1 && (n - e.1) % e.2.2.1 == 0

/-- The scalar value is its own lowercase. -/
structure Lowered (n : Nat) : Prop where
  notUpper : ¬ (65 ≤ n ∧ n ≤ 90)
  notDotted : n ≠ 0x130
  unlisted : ∀ e ∈ lowerTable, inEntry n e = false

/-- The first scalar value an entry leads to. -/
def firstTarget (e : Nat × Nat × Nat × Int) : Nat := (e.1 + e.2.2.2).toNat

/-- The last scalar value an entry leads to. -/
def lastTarget (e : Nat × Nat × Nat × Int) : Nat := (e.2.1 + e.2.2.2).toNat

/-- No target of `e` is in `f`. -/
def leadsOutOf (e f : Nat × Nat × Nat × Int) : Bool :=
  (lastTarget e).blt f.1 || f.2.1.blt (firstTarget e) ||
    (f.2.2.1 == 2 && (e.2.2.1 == 2 || e.1 == e.2.1) && firstTarget e % 2 != f.1 % 2)

theorem lowerTable_leadsOut :
    (lowerTable.all fun e => lowerTable.all fun f => leadsOutOf e f) = true := by
  decide +kernel

theorem lowerTable_targets : ∀ e ∈ lowerTable, 0xC0 ≤ e.1 ∧ 0x5A < e.1 + e.2.2.2 ∧
    (e.2.1 + e.2.2.2 < 0x130 ∨ 0x130 < e.1 + e.2.2.2) := by
  decide +kernel

theorem lowerChar_of_lowered {c : Char} (h : Lowered c.toNat) : lowerChar c = [c] := by
  have hnone : lowerTable.find? (fun e =>
      e.1 ≤ c.toNat && c.toNat ≤ e.2.1 && (c.toNat - e.1) % e.2.2.1 == 0) = none := by
    refine List.find?_eq_none.mpr fun e he => ?_
    rw [show (decide (e.1 ≤ c.toNat) && decide (c.toNat ≤ e.2.1) &&
      (c.toNat - e.1) % e.2.2.1 == 0) = false from h.unlisted e he]
    exact Bool.false_ne_true
  have hle : ∀ a b : Char, a ≤ b ↔ a.toNat ≤ b.toNat := fun a b => Iff.rfl
  have hupper : ¬ ('A' ≤ c ∧ c ≤ 'Z') := by
    rw [hle, hle]
    exact h.notUpper
  unfold lowerChar
  rw [if_neg hupper, if_neg h.notDotted, hnone, ite_self]

theorem lowered_of_ascii {n : Nat} (hascii : n < 0x80) (hupper : ¬ (65 ≤ n ∧ n ≤ 90)) :
    Lowered n := by
  refine ⟨hupper, by omega, fun e he => ?_⟩
  have htarget := lowerTable_targets e he
  simp only [inEntry, Bool.and_eq_false_iff, decide_eq_false_iff_not]
  omega

/-- An entry leads to lowercase. -/
theorem lowered_target {e : Nat × Nat × Nat × Int} {n : Nat} (he : e ∈ lowerTable)
    (hn : inEntry n e = true) : Lowered (n + e.2.2.2).toNat := by
  have htarget := lowerTable_targets e he
  simp only [inEntry, Bool.and_eq_true, decide_eq_true_eq, beq_iff_eq] at hn
  refine ⟨by omega, by omega, fun f hf => ?_⟩
  have hleads := List.all_eq_true.mp (List.all_eq_true.mp lowerTable_leadsOut e he) f hf
  simp only [leadsOutOf, Bool.or_eq_true, Bool.and_eq_true, Nat.blt_eq, beq_iff_eq,
    bne_iff_ne, firstTarget, lastTarget] at hleads
  simp only [inEntry, Bool.and_eq_false_iff, decide_eq_false_iff_not, beq_eq_false_iff_ne]
  rcases hleads with (hbelow | habove) | ⟨⟨hstep, hsteps⟩, hodd⟩
  · omega
  · omega
  · rw [hstep]
    rcases hsteps with hsteps | hsteps
    · rw [hsteps] at hn
      omega
    · omega

/-- Lowercasing a character gives lowercase. -/
theorem lowered_of_mem_lowerChar {c d : Char} (hd : d ∈ lowerChar c) : Lowered d.toNat := by
  have ofNat : ∀ n : Nat, Lowered n → Lowered (Char.ofNat n).toNat := by
    intro n hn
    rcases toNat_ofNat n with h | h
    · rw [h]
      exact hn
    · rw [h]
      exact lowered_of_ascii (by omega) (by omega)
  unfold lowerChar at hd
  split at hd
  · rename_i hascii
    rw [List.mem_singleton] at hd
    have hle : ∀ a b : Char, a ≤ b ↔ a.toNat ≤ b.toNat := fun a b => Iff.rfl
    have hA : 'A'.toNat = 65 := rfl
    have hZ : 'Z'.toNat = 90 := rfl
    split at hd
    · rename_i hupper
      rw [hle, hle, hA, hZ] at hupper
      subst hd
      exact ofNat _ (lowered_of_ascii (by omega) (by omega))
    · rename_i hupper
      subst hd
      exact lowered_of_ascii hascii hupper
  · rename_i habove
    split at hd
    · rcases List.mem_cons.mp hd with rfl | hd
      · exact lowered_of_ascii (by decide) (by decide)
      · rw [List.mem_singleton.mp hd]
        exact ⟨by decide, by decide, by decide +kernel⟩
    · rename_i hdotted
      split at hd
      · rename_i e he
        rw [List.mem_singleton.mp hd]
        exact ofNat _ (lowered_target (List.mem_of_find?_eq_some he) (List.find?_some he))
      · rename_i hnone
        rw [List.mem_singleton.mp hd]
        refine ⟨by omega, hdotted, fun e he => ?_⟩
        exact Bool.eq_false_iff.mpr (List.find?_eq_none.mp hnone e he)

theorem lowered_of_mem_lowerChars {cp : CaseProperties} {before cs : List Char} {d : Char}
    (hd : d ∈ lowerChars cp before cs) : Lowered d.toNat := by
  induction cs generalizing before with
  | nil => exact absurd hd List.not_mem_nil
  | cons c cs ih =>
      rw [lowerChars] at hd
      rcases List.mem_append.mp hd with hd | hd
      · by_cases hsigma : c = 'Σ'
        · rw [if_pos hsigma, List.mem_singleton] at hd
          have hfinal : Lowered 'ς'.toNat := ⟨by decide, by decide, by decide +kernel⟩
          have hmedial : Lowered 'σ'.toNat := ⟨by decide, by decide, by decide +kernel⟩
          rw [hd]
          split
          · exact hfinal
          · exact hmedial
        · rw [if_neg hsigma] at hd
          exact lowered_of_mem_lowerChar hd
      · exact ih hd

theorem lowerChars_of_lowered {cp : CaseProperties} {before cs : List Char}
    (h : ∀ c ∈ cs, Lowered c.toNat) : lowerChars cp before cs = cs := by
  induction cs generalizing before with
  | nil => rfl
  | cons c cs ih =>
      have hc : Lowered c.toNat := h c List.mem_cons_self
      have hsigma : c ≠ 'Σ' := by
        rintro rfl
        exact absurd (hc.unlisted (0x3A3, 0x3AB, 1, 32) (by decide +kernel)) (by decide)
      have hcs : lowerChars cp (c :: before) cs = cs :=
        ih fun x hx => h x (List.mem_cons_of_mem _ hx)
      rw [lowerChars, if_neg hsigma, lowerChar_of_lowered hc, hcs]
      rfl

/-- Lowercasing is idempotent. -/
theorem toLowercase_toLowercase (cp : CaseProperties) (s : String) :
    toLowercase cp (toLowercase cp s) = toLowercase cp s := by
  have hs : ∀ c ∈ (toLowercase cp s).toList, Lowered c.toNat := by
    intro c hc
    rw [toLowercase, String.toList_ofList] at hc
    exact lowered_of_mem_lowerChars hc
  conv_lhs => rw [toLowercase]
  rw [lowerChars_of_lowered hs, String.ofList_toList]

/-! ## ASCII -/

def isAsciiDigit (c : Char) : Bool := '0' ≤ c && c ≤ '9'

theorem isPlain_of_isAsciiDigit {c : Char} (h : isAsciiDigit c = true) :
    isPlain c.toNat = true := by
  have hle : ∀ a b : Char, a ≤ b ↔ a.toNat ≤ b.toNat := fun a b => Iff.rfl
  have h0 : '0'.toNat = 48 := rfl
  have h9 : '9'.toNat = 57 := rfl
  simp only [isAsciiDigit, Bool.and_eq_true, decide_eq_true_eq, hle, h0, h9] at h
  simp only [isPlain, Bool.or_eq_true, Bool.and_eq_true, decide_eq_true_eq]
  omega

def isAsciiLowercase (c : Char) : Bool := 'a' ≤ c && c ≤ 'z'

def asciiLowerChar (c : Char) : Char :=
  if 'A' ≤ c ∧ c ≤ 'Z' then Char.ofNat (c.toNat + 32) else c

/-- `str::eq_ignore_ascii_case`. -/
def eqIgnoreAsciiCase (s t : String) : Bool :=
  s.toList.map asciiLowerChar == t.toList.map asciiLowerChar

/-- `u64::from_str`: decimal digits, with or without a plus sign. -/
def parseU64 (s : String) : Option Nat :=
  let digits := match s.toList with
    | '+' :: digits => digits
    | digits => digits
  let n := digits.foldl (fun n c => 10 * n + (c.toNat - '0'.toNat)) 0
  if digits.all isAsciiDigit && !digits.isEmpty && n < 2 ^ 64 then some n else none

/-! ## Bytes -/

/-- `str::as_bytes`: the UTF-8 encoding. -/
def utf8 (s : String) : List UInt8 := s.toList.flatMap String.utf8EncodeChar

/-- `str::len`: the length in UTF-8 bytes. -/
def byteLen (s : String) : Nat := (utf8 s).length

example (cp : CaseProperties) : toLowercase cp "Alice_\u212A" = "alice_k" := rfl

end RustStr
