import BlinkLnurl.Lib.RustStr
import Mathlib.Data.List.TakeWhile

/-!
# Identifiers

`identifier.rs`: what a username is, what a phone number is, and how a public
identifier is parsed into one of the two with an optional wallet suffix. The
`phonenumber` crate is a parameter (`PhoneNumbers`): a partial parser into
numbers whose E.164 form begins with `+`. What else is asked of it is `E164`.

A registered username is parsed back to itself, unless it begins with `00`
(`parsePublicIdentifier_username`): the public parser tries the phone shape
first.
-/

namespace BlinkLnurl

open RustStr

inductive WalletModifier
  | btc
  | usd
deriving DecidableEq, Repr

inductive IdentifierKind
  | username
  | phone
deriving DecidableEq, Repr

structure ParsedIdentifier where
  canonical : String
  kind : IdentifierKind
  wallet : Option WalletModifier
deriving DecidableEq, Repr

inductive IdentifierError
  | emptyIdentifier
  | invalidUsername
  | invalidPhoneNumber
  | invalidModifier
deriving DecidableEq, Repr

/-- A parsed phone number, as far as the server looks at it. -/
structure PhoneNumber where
  hasCountryId : Bool
  isValid : Bool
  e164 : String
  plus : e164.toList.head? = some '+'

/-- `phonenumber::parse(None, ·)`. -/
abbrev PhoneNumbers := String → Option PhoneNumber

section

variable (cp : CaseProperties) (phones : PhoneNumbers)

def startsWith (p : String) (s : String) : Bool := p.toList.isPrefixOf s.toList

def isPhoneLike (value : String) : Bool :=
  startsWith "+" value || startsWith "00" value || value.toList.all isAsciiDigit

/-- What `matches_blink_username_regex` demands of the lowercased value. -/
def isUsernameText (lower : String) : Bool :=
  3 ≤ lower.toList.length && lower.toList.length ≤ 50 &&
    !(startsWith "1" lower || startsWith "3" lower || startsWith "_" lower ||
      startsWith "bc1" lower || startsWith "lnbc1" lower) &&
    lower.toList.all (fun c => isAsciiLowercase c || isAsciiDigit c || c == '_') &&
    lower.toList.any isAsciiLowercase

def matchesBlinkUsernameRegex (value : String) : Bool := isUsernameText (toLowercase cp value)

def checkedToUsername (value : String) : Except IdentifierError String :=
  let trimmed := trim value
  if trimmed = "" then .error .invalidUsername
  else if matchesBlinkUsernameRegex cp trimmed then .ok (toLowercase cp trimmed)
  else .error .invalidUsername

def checkedToPhoneNumber (value : String) : Except IdentifierError String :=
  let trimmed := trim value
  if trimmed = "" then .error .invalidPhoneNumber
  else
    let normalized : String :=
      if startsWith "+" trimmed then "+" ++ String.ofList (trimmed.toList.drop 1)
      else if startsWith "00" trimmed then "+" ++ String.ofList (trimmed.toList.drop 2)
      else "+" ++ trimmed
    match phones normalized with
    | none => .error .invalidPhoneNumber
    | some phone =>
        if !phone.hasCountryId || !phone.isValid then .error .invalidPhoneNumber else .ok phone.e164

/-- `split_final_wallet_modifier`: what stands before the first `+` that is
not the first character, and the wallet after it. -/
def splitFinalWalletModifier (value : String) :
    Except IdentifierError (String × Option WalletModifier) :=
  match value.toList with
  | [] => .ok (value, none)
  | first :: rest =>
      let base := rest.takeWhile (· != '+')
      match rest.dropWhile (· != '+') with
      | [] => .ok (value, none)
      | _ :: suffix =>
          let suffix := String.ofList suffix
          -- `base` holds no further `+`, so the last check of the source cannot fail
          if eqIgnoreAsciiCase suffix "btc" then .ok (String.ofList (first :: base), some .btc)
          else if eqIgnoreAsciiCase suffix "usd" then .ok (String.ofList (first :: base), some .usd)
          else .error .invalidModifier

def parsePublicIdentifier (value : String) : Except IdentifierError ParsedIdentifier :=
  let trimmed := trim value
  if trimmed = "" then .error .emptyIdentifier
  else do
    let (base, wallet) ← splitFinalWalletModifier trimmed
    let (canonical, kind) ←
      (if isPhoneLike base then (checkedToPhoneNumber phones base).map fun c => (c, .phone)
      else (checkedToUsername cp base).map fun c => (c, .username) :
        Except IdentifierError (String × IdentifierKind))
    return ⟨canonical, kind, wallet⟩

def canonicalSparkUsername (value : String) : Except IdentifierError String :=
  checkedToUsername cp value

end

/-! ## The username grammar -/

section

variable {cp : CaseProperties} {phones : PhoneNumbers} {value u : String}

/-- A canonical username. -/
structure Username (u : String) : Prop where
  long : 3 ≤ u.toList.length
  alphabet : ∀ c ∈ u.toList, isAsciiLowercase c = true ∨ isAsciiDigit c = true ∨ c = '_'
  letter : ∃ c ∈ u.toList, isAsciiLowercase c = true

theorem isUsernameText_username (h : isUsernameText u = true) : Username u := by
  unfold isUsernameText at h
  simp only [Bool.and_eq_true, decide_eq_true_eq, List.all_eq_true, List.any_eq_true,
    Bool.or_eq_true, beq_iff_eq] at h
  obtain ⟨⟨⟨⟨hlong, _⟩, _⟩, halpha⟩, hletter⟩ := h
  exact ⟨hlong, fun c hc => by rcases halpha c hc with (h | h) | h <;> simp [h], hletter⟩

theorem checkedToUsername_ok (h : checkedToUsername cp value = .ok u) :
    isUsernameText u = true := by
  unfold checkedToUsername at h
  by_cases hempty : trim value = ""
  · simp [hempty] at h
  · by_cases hmatch : matchesBlinkUsernameRegex cp (trim value) = true
    · simp only [hempty, if_false, hmatch, if_true] at h
      rw [← Except.ok.inj h]
      exact hmatch
    · simp [hempty, hmatch] at h

namespace Username

variable (hu : Username u)

include hu

/-- A property of lowercase letters, digits and `_` holds of all characters of
a username. -/
theorem forall_mem {P : Char → Prop} (hletter : ∀ c, isAsciiLowercase c = true → P c)
    (hdigit : ∀ c, isAsciiDigit c = true → P c) (hunder : P '_') : ∀ c ∈ u.toList, P c := by
  intro c hc
  rcases hu.alphabet c hc with h | h | h
  · exact hletter c h
  · exact hdigit c h
  · exact h ▸ hunder

theorem toNat_mem : ∀ c ∈ u.toList, (97 ≤ c.toNat ∧ c.toNat ≤ 122) ∨
    (48 ≤ c.toNat ∧ c.toNat ≤ 57) ∨ c.toNat = 95 := by
  have hle : ∀ a b : Char, a ≤ b ↔ a.toNat ≤ b.toNat := fun a b => Iff.rfl
  refine hu.forall_mem (fun c h => ?_) (fun c h => ?_) (Or.inr (Or.inr rfl))
  · simp only [isAsciiLowercase, Bool.and_eq_true, decide_eq_true_eq, hle] at h
    exact Or.inl h
  · simp only [isAsciiDigit, Bool.and_eq_true, decide_eq_true_eq, hle] at h
    exact Or.inr (Or.inl h)

theorem trim_eq : trim u = u := by
  refine trim_eq_self fun c hc => ?_
  have hrange := hu.toNat_mem c hc
  simp only [isWhitespace, Bool.or_eq_false_iff, Bool.and_eq_false_iff, decide_eq_false_iff_not,
    beq_eq_false_iff_ne]
  omega

theorem toLowercase_eq : toLowercase cp u = u := by
  refine toLowercase_eq_self fun c hc => ?_
  have hrange := hu.toNat_mem c hc
  have hle : ∀ a b : Char, a ≤ b ↔ a.toNat ≤ b.toNat := fun a b => Iff.rfl
  have hA : 'A'.toNat = 65 := rfl
  have hZ : 'Z'.toNat = 90 := rfl
  simp only [isLowerAscii, Bool.and_eq_true, decide_eq_true_eq, Bool.not_eq_true',
    Bool.and_eq_false_iff, decide_eq_false_iff_not, hle, hA, hZ]
  omega

theorem ne_empty : u ≠ "" := by
  rintro rfl
  have hlong := hu.long
  simp at hlong

theorem not_mem {c : Char} (hc : ¬ ((97 ≤ c.toNat ∧ c.toNat ≤ 122) ∨
    (48 ≤ c.toNat ∧ c.toNat ≤ 57) ∨ c.toNat = 95)) : c ∉ u.toList :=
  fun hm => hc (hu.toNat_mem c hm)

theorem splitFinalWalletModifier_eq : splitFinalWalletModifier u = .ok (u, none) := by
  have hplus : '+' ∉ u.toList := hu.not_mem (by decide)
  unfold splitFinalWalletModifier
  split
  · rfl
  · rename_i first rest hl
    have hall : ∀ c ∈ rest, (c != '+') = true := by
      intro c hc
      rw [bne_iff_ne]
      rintro rfl
      exact hplus (hl ▸ List.mem_cons_of_mem _ hc)
    have hdrop : rest.dropWhile (· != '+') = [] := List.dropWhile_eq_nil_iff.mpr hall
    simp only [hdrop]

/-- A username has the shape of a phone number only if it begins with `00`. -/
theorem isPhoneLike_eq : isPhoneLike u = startsWith "00" u := by
  have hplus : startsWith "+" u = false := by
    by_contra h
    have hpre := List.isPrefixOf_iff_prefix.mp (eq_true_of_ne_false h)
    exact hu.not_mem (by decide) (hpre.subset List.mem_cons_self)
  have hdigits : u.toList.all isAsciiDigit = false := by
    obtain ⟨c, hc, hletter⟩ := hu.letter
    rw [List.all_eq_false]
    refine ⟨c, hc, fun hdigit => ?_⟩
    have hle : ∀ a b : Char, a ≤ b ↔ a.toNat ≤ b.toNat := fun a b => Iff.rfl
    have h9 : '9'.toNat = 57 := rfl
    have ha : 'a'.toNat = 97 := rfl
    simp only [isAsciiLowercase, isAsciiDigit, Bool.and_eq_true, decide_eq_true_eq, hle, h9, ha]
      at hletter hdigit
    omega
  rw [isPhoneLike, hplus, hdigits, Bool.false_or, Bool.or_false]

end Username

theorem checkedToUsername_eq_self (h : isUsernameText u = true) :
    checkedToUsername cp u = .ok u := by
  have hu := isUsernameText_username h
  unfold checkedToUsername matchesBlinkUsernameRegex
  simp only [hu.trim_eq, hu.ne_empty, if_false, hu.toLowercase_eq, h, if_true]

/-- How the public parser reads a registered username. -/
theorem parsePublicIdentifier_username (h : isUsernameText u = true) :
    parsePublicIdentifier cp phones u =
      if startsWith "00" u then
        (checkedToPhoneNumber phones u).map fun canonical => ⟨canonical, .phone, none⟩
      else .ok ⟨u, .username, none⟩ := by
  have hu := isUsernameText_username h
  unfold parsePublicIdentifier
  simp only [hu.trim_eq, hu.ne_empty, if_false, hu.splitFinalWalletModifier_eq, bind, Except.bind,
    hu.isPhoneLike_eq]
  cases startsWith "00" u with
  | true =>
      cases hphone : checkedToPhoneNumber phones u with
      | error e => rfl
      | ok p => rfl
  | false =>
      simp only [checkedToUsername_eq_self h]
      rfl

/-! ## What the public parser returns -/

/-- `phonenumber` formats as E.164 what it parses, `+` and digits, and parses
that back to itself. -/
structure E164 (phones : PhoneNumbers) : Prop where
  digits : ∀ text phone, phones text = some phone → ∀ c ∈ phone.e164.toList.drop 1,
    isAsciiDigit c = true
  parses : ∀ text phone, phones text = some phone → phone.hasCountryId = true →
    phone.isValid = true → ∃ phone', phones phone.e164 = some phone' ∧
      phone'.hasCountryId = true ∧ phone'.isValid = true ∧ phone'.e164 = phone.e164

theorem startsWith_iff {p s : String} : startsWith p s = true ↔ p.toList <+: s.toList :=
  List.isPrefixOf_iff_prefix

theorem splitFinalWalletModifier_head {base : String} {wallet : Option WalletModifier}
    (h : splitFinalWalletModifier value = .ok (base, wallet)) :
    base.toList.head? = value.toList.head? := by
  unfold splitFinalWalletModifier at h
  split at h
  · cases h
    rfl
  · rename_i first rest hl
    simp only at h
    split at h
    · cases h
      rfl
    · rw [hl]
      split at h
      · cases h
        rw [String.toList_ofList]
        rfl
      · split at h
        · cases h
          rw [String.toList_ofList]
          rfl
        · cases h

theorem checkedToUsername_lower (h : checkedToUsername cp value = .ok u) :
    u.toList = lowerChars cp [] (trimChars value.toList) := by
  unfold checkedToUsername at h
  by_cases hempty : trim value = ""
  · simp [hempty] at h
  · by_cases hmatch : matchesBlinkUsernameRegex cp (trim value) = true
    · simp only [hempty, if_false, hmatch, if_true] at h
      have hlower := congrArg String.toList (Except.ok.inj h)
      rw [toLowercase, trim, String.toList_ofList, String.toList_ofList] at hlower
      exact hlower.symm
    · simp [hempty, hmatch] at h

/-- Lowercasing makes no digit: a username only begins with `00` if what was
typed did. -/
theorem startsWith_of_username {base : String}
    (hhead : ∀ c, base.toList.head? = some c → isWhitespace c = false)
    (h : checkedToUsername cp base = .ok u) (h00 : startsWith "00" u = true) :
    startsWith "00" base = true := by
  have hzeros : "00".toList <+: trimChars base.toList := by
    have hprefix := startsWith_iff.mp h00
    rw [checkedToUsername_lower h] at hprefix
    exact prefix_of_prefix_lowerChars (forall_mem_of_all (by decide)) hprefix
  -- nothing is trimmed off the front
  have hprefix : trimChars base.toList <+: base.toList := by
    have hdrop : base.toList.dropWhile isWhitespace = base.toList := by
      cases hb : base.toList with
      | nil => rfl
      | cons c cs => exact List.dropWhile_cons_of_neg (by simp [hhead c (by rw [hb]; rfl)])
    rw [trimChars_eq, hdrop]
    exact List.rdropWhile_prefix _ _
  exact startsWith_iff.mpr (hzeros.trans hprefix)

/-- A canonical form: the public parser reads it as itself, also before a
wallet suffix. -/
structure Canonical (cp : CaseProperties) (phones : PhoneNumbers) (c : String)
    (kind : IdentifierKind) : Prop where
  ne : c ≠ ""
  noPlus : '+' ∉ c.toList.drop 1
  solid : ∀ x ∈ c.toList, isWhitespace x = false
  checked : (if isPhoneLike c then (checkedToPhoneNumber phones c).map fun c => (c, .phone)
    else (checkedToUsername cp c).map fun c => (c, .username) :
      Except IdentifierError (String × IdentifierKind)) = .ok (c, kind)

theorem canonical_username (h : isUsernameText u = true) (h00 : startsWith "00" u = false) :
    Canonical cp phones u .username where
  ne := (isUsernameText_username h).ne_empty
  noPlus := fun hmem => (isUsernameText_username h).not_mem (by decide) (List.mem_of_mem_drop hmem)
  solid := fun x hx => by
    have hrange := (isUsernameText_username h).toNat_mem x hx
    simp only [isWhitespace, Bool.or_eq_false_iff, Bool.and_eq_false_iff, decide_eq_false_iff_not,
      beq_eq_false_iff_ne]
    omega
  checked := by
    rw [(isUsernameText_username h).isPhoneLike_eq, h00, checkedToUsername_eq_self h]
    rfl

theorem checkedToPhoneNumber_ok (h : checkedToPhoneNumber phones value = .ok u) :
    ∃ text phone, phones text = some phone ∧ phone.hasCountryId = true ∧ phone.isValid = true ∧
      phone.e164 = u := by
  unfold checkedToPhoneNumber at h
  simp only at h
  split at h
  · cases h
  · split at h
    · cases h
    · rename_i phone hphone
      split at h
      · cases h
      · rename_i hchecks
        cases h
        rw [Bool.or_eq_true, not_or] at hchecks
        exact ⟨_, phone, hphone, by simpa using hchecks.1, by simpa using hchecks.2, rfl⟩

theorem canonical_phone (e164 : E164 phones) (h : checkedToPhoneNumber phones value = .ok u) :
    Canonical cp phones u .phone := by
  obtain ⟨text, phone, hphone, hcountry, hvalid, rfl⟩ := checkedToPhoneNumber_ok h
  obtain ⟨phone', hphone', hcountry', hvalid', heq⟩ := e164.parses text phone hphone hcountry hvalid
  have hdigits := e164.digits text phone hphone
  obtain ⟨digits, hlist⟩ : ∃ digits, phone.e164.toList = '+' :: digits := by
    have hplus := phone.plus
    cases hl : phone.e164.toList with
    | nil =>
        rw [hl] at hplus
        cases hplus
    | cons c cs =>
        rw [hl] at hplus
        cases hplus
        exact ⟨cs, rfl⟩
  have hne : phone.e164 ≠ "" := by
    intro hempty
    rw [hempty] at hlist
    cases hlist
  have hle : ∀ a b : Char, a ≤ b ↔ a.toNat ≤ b.toNat := fun a b => Iff.rfl
  have h0 : '0'.toNat = 48 := rfl
  have h9 : '9'.toNat = 57 := rfl
  have hsolid : ∀ x ∈ phone.e164.toList, isWhitespace x = false := by
    intro x hx
    rw [hlist] at hx
    rcases List.mem_cons.mp hx with rfl | hx
    · decide
    · have hdigit := hdigits x (by rw [hlist]; exact hx)
      simp only [isAsciiDigit, Bool.and_eq_true, decide_eq_true_eq, hle, h0, h9] at hdigit
      simp only [isWhitespace, Bool.or_eq_false_iff, Bool.and_eq_false_iff,
        decide_eq_false_iff_not, beq_eq_false_iff_ne]
      omega
  have hplus : startsWith "+" phone.e164 = true :=
    startsWith_iff.mpr (by rw [hlist]; exact ⟨digits, rfl⟩)
  refine ⟨hne, ?_, hsolid, ?_⟩
  · intro hmem
    exact absurd (hdigits '+' hmem) (by decide)
  · have hnormal : "+" ++ String.ofList (phone.e164.toList.drop 1) = phone.e164 := by
      apply String.toList_inj.mp
      rw [String.toList_append, String.toList_ofList, hlist]
      simp
    rw [if_pos (by rw [isPhoneLike, hplus]; rfl)]
    unfold checkedToPhoneNumber
    simp only [trim_eq_self hsolid, hne, if_false, hplus, if_true, hnormal, hphone', hcountry',
      hvalid', heq]
    rfl

/-- What the public parser returns is canonical. -/
theorem parsePublicIdentifier_canonical (e164 : E164 phones) {parsed : ParsedIdentifier}
    (h : parsePublicIdentifier cp phones value = .ok parsed) :
    Canonical cp phones parsed.canonical parsed.kind := by
  unfold parsePublicIdentifier at h
  simp only at h
  split at h
  · cases h
  · cases hsplit : splitFinalWalletModifier (trim value) with
    | error e =>
        rw [hsplit] at h
        cases h
    | ok out =>
        obtain ⟨base, wallet⟩ := out
        rw [hsplit] at h
        simp only [bind, Except.bind] at h
        have hhead : ∀ c, base.toList.head? = some c → isWhitespace c = false := by
          intro c hc
          rw [splitFinalWalletModifier_head hsplit, trim, String.toList_ofList] at hc
          exact (trimmed_trimChars _).head c hc
        by_cases hlike : isPhoneLike base = true
        · rw [if_pos hlike] at h
          cases hphone : checkedToPhoneNumber phones base with
          | error e =>
              rw [hphone] at h
              cases h
          | ok c =>
              rw [hphone] at h
              cases h
              exact canonical_phone e164 hphone
        · rw [if_neg hlike] at h
          cases husername : checkedToUsername cp base with
          | error e =>
              rw [husername] at h
              cases h
          | ok c =>
              rw [husername] at h
              cases h
              refine canonical_username (checkedToUsername_ok husername) ?_
              by_contra h00
              rw [Bool.not_eq_false] at h00
              refine hlike ?_
              rw [isPhoneLike, startsWith_of_username hhead husername h00, Bool.or_true,
                Bool.true_or]

theorem splitFinalWalletModifier_none {c : String} (hplus : '+' ∉ c.toList.drop 1) :
    splitFinalWalletModifier c = .ok (c, none) := by
  unfold splitFinalWalletModifier
  split
  · rfl
  · rename_i first rest hl
    rw [hl] at hplus
    have hdrop : rest.dropWhile (· != '+') = [] := by
      refine List.dropWhile_eq_nil_iff.mpr fun x hx => ?_
      rw [bne_iff_ne]
      rintro rfl
      exact hplus hx
    simp only [hdrop]

theorem splitFinalWalletModifier_some {c suffix : String} (hne : c ≠ "")
    (hplus : '+' ∉ c.toList.drop 1) :
    splitFinalWalletModifier (c ++ ("+" ++ suffix)) =
      if eqIgnoreAsciiCase suffix "btc" then .ok (c, some .btc)
      else if eqIgnoreAsciiCase suffix "usd" then .ok (c, some .usd)
      else .error .invalidModifier := by
  obtain ⟨first, rest, hc⟩ : ∃ first rest, c.toList = first :: rest := by
    cases hl : c.toList with
    | nil => exact absurd (String.toList_inj.mp hl) hne
    | cons first rest => exact ⟨first, rest, rfl⟩
  rw [hc] at hplus
  have hrest : ∀ x ∈ rest, (x != '+') = true := by
    intro x hx
    rw [bne_iff_ne]
    rintro rfl
    exact hplus hx
  have hlist : (c ++ ("+" ++ suffix)).toList = first :: (rest ++ '+' :: suffix.toList) := by
    rw [String.toList_append, String.toList_append, hc]
    rfl
  have htake : (rest ++ '+' :: suffix.toList).takeWhile (· != '+') = rest := by
    rw [List.takeWhile_append_of_pos hrest]
    simp
  have hdrop : (rest ++ '+' :: suffix.toList).dropWhile (· != '+') = '+' :: suffix.toList := by
    rw [List.dropWhile_append_of_pos hrest]
    simp
  have hbase : String.ofList (first :: rest) = c := by rw [← hc, String.ofList_toList]
  unfold splitFinalWalletModifier
  rw [hlist]
  simp only [htake, hdrop, String.ofList_toList, hbase]

end

example :
    parsePublicIdentifier ⟨fun _ => false, fun _ => false⟩ (fun _ => none) " Alice+BTC" =
      .ok ⟨"alice", .username, some .btc⟩ := by
  decide

end BlinkLnurl
