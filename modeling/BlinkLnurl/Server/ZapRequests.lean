import BlinkLnurl.Server.Deployment

/-!
# Zap requests

The NIP-57 rules that the LNURL callback enforces on the event a payer sends
along. All but the last hold of every event that passes. The amount is compared
with the first tag that standardizes as one, so a second amount tag, or one
whose value is no number, says whatever it likes (`ValuesAgree`, and
`AmountsAgree` for tags that have to standardize).
-/

namespace BlinkLnurl

open RustStr

namespace NostrTag

/-- The first field of the tag. -/
def IsNamed (name : String) (t : NostrTag) : Prop := t.values.head? = some name

/-- What the `nostr` crate promises of `as_standardized`: an amount tag
standardizes only if its value is a `u64`, and only a `relays` tag as relays. -/
structure Standard (t : NostrTag) : Prop where
  amount : ∀ n, t.standardized = some (.amount n) →
    t.IsNamed "amount" ∧ t.values[1]?.bind parseU64 = some n
  relays : ∀ urls, t.standardized = some (.relays urls) → t.IsNamed "relays"

/-- The tag is a well-formed amount tag with the value `n`. -/
def StatesAmount (n : Nat) (t : NostrTag) : Prop :=
  t.standardized = some (.amount n) ∧ t.values[1]?.bind parseU64 = some n

/-- The value of the tag is the number `n`, whether or not the tag standardizes. -/
def ValueIs (n : Nat) (t : NostrTag) : Prop := t.values[1]?.bind parseU64 = some n

instance (name : String) : DecidablePred (IsNamed name) := fun _ =>
  inferInstanceAs (Decidable (_ = _))

end NostrTag

/-- The amount tags are all well-formed and all state one amount. -/
def AmountsAgree (tags : List NostrTag) : Prop :=
  ∃ n, ∀ t ∈ tags, t.IsNamed "amount" → t.standardized = some (.amount n)

/-- The values of the amount tags agree; where none of the tags standardizes as an
amount, with `n`. -/
def ValuesAgree (n : Nat) (tags : List NostrTag) : Prop :=
  (∃ m, ∀ t ∈ tags, t.IsNamed "amount" → t.ValueIs m) ∧
    (findAmount tags = none → ∀ t ∈ tags, t.IsNamed "amount" → t.ValueIs n)

section Tags

variable {tags : List NostrTag} {n : Nat}

theorem exists_of_findAmount (h : findAmount tags = some n) :
    ∃ t ∈ tags, t.standardized = some (.amount n) := by
  unfold findAmount at h
  obtain ⟨t, ht, hvalue⟩ := List.exists_of_findSome?_eq_some h
  refine ⟨t, ht, ?_⟩
  split at hvalue
  · rename_i m hstandardized
    obtain rfl := Option.some.inj hvalue
    exact hstandardized
  · exact nomatch hvalue

theorem not_standardized_of_findAmount (h : findAmount tags = none) :
    ∀ t ∈ tags, t.standardized ≠ some (.amount n) := by
  intro t ht hstandardized
  unfold findAmount at h
  rw [List.findSome?_eq_none_iff] at h
  have hskipped := h t ht
  rw [hstandardized] at hskipped
  exact nomatch hskipped

theorem exists_of_hasRelays (h : hasRelays tags = true) :
    ∃ t ∈ tags, ∃ urls, t.standardized = some (.relays urls) := by
  unfold hasRelays at h
  obtain ⟨t, ht, hrelays⟩ := List.any_eq_true.mp h
  refine ⟨t, ht, ?_⟩
  split at hrelays
  · rename_i urls hstandardized
    exact ⟨urls, hstandardized⟩
  · exact nomatch hrelays

/-- The tags that standardize decide: they agree with the amount asked for
exactly if they agree. -/
theorem statesAmount_iff (hstd : ∀ t ∈ tags, t.Standard)
    (hfirst : ∀ m, findAmount tags = some m → m = n) :
    (∀ t ∈ tags, t.IsNamed "amount" → t.StatesAmount n) ↔ AmountsAgree tags := by
  constructor
  · intro h
    exact ⟨n, fun t ht hnamed => (h t ht hnamed).1⟩
  · intro ⟨m, hagree⟩ t ht hnamed
    have hstates := hagree t ht hnamed
    have hm : m = n := by
      cases hfind : findAmount tags with
      | none => exact absurd hstates (not_standardized_of_findAmount hfind t ht)
      | some first =>
          -- the first one is an amount tag like the others
          obtain ⟨t', ht', hfirst'⟩ := exists_of_findAmount hfind
          have hagree' := hagree t' ht' ((hstd t' ht').amount first hfirst').1
          rw [hfirst'] at hagree'
          injection hagree' with hsome
          injection hsome with hfirst''
          rw [← hfirst'', hfirst first hfind]
    subst hm
    exact ⟨hstates, ((hstd t ht).amount m hstates).2⟩

/-- By their values alone: the one that was compared has the amount asked for, and
the others have its value. -/
theorem valueIs_iff (hstd : ∀ t ∈ tags, t.Standard)
    (hfirst : ∀ m, findAmount tags = some m → m = n) :
    (∀ t ∈ tags, t.IsNamed "amount" → t.ValueIs n) ↔ ValuesAgree n tags := by
  constructor
  · intro h
    exact ⟨⟨n, h⟩, fun _ => h⟩
  · intro ⟨⟨m, hagree⟩, hnone⟩
    cases hfind : findAmount tags with
    | none => exact hnone hfind
    | some first =>
        obtain ⟨t', ht', hstandardized⟩ := exists_of_findAmount hfind
        obtain ⟨hnamed, hvalue⟩ := (hstd t' ht').amount first hstandardized
        have hm : first = m := Option.some.inj (hvalue.symm.trans (hagree t' ht' hnamed))
        intro t ht hnamed'
        rw [← hfirst first hfind, hm]
        exact hagree t ht hnamed'

end Tags

/-! ## What an accepted event satisfies -/

section Accepted

variable {crates : Crates} {amountMsat : Nat} {event : NostrEvent}

theorem isValidNostrZapRequest_iff :
    isValidNostrZapRequest crates amountMsat event = true ↔
      event.kind = NostrEvent.zapRequestKind ∧ crates.verifyEvent event = true ∧ event.tags ≠ [] ∧
      countTags "p" event.tags = 1 ∧ countTags "e" event.tags ≤ 1 ∧ hasRelays event.tags = true ∧
      ∀ m, findAmount event.tags = some m → m = amountMsat := by
  unfold isValidNostrZapRequest
  simp only [Bool.and_eq_true, decide_eq_true_eq, beq_iff_eq, Bool.not_eq_true',
    List.isEmpty_eq_false_iff, Option.all_eq_true, and_assoc, ne_eq]

/-- An accepted event is a verified zap request with one `p` tag, at most one
`e` tag and a `relays` tag; and its amount tags state the amount asked for
exactly if they agree, by their values and as tags that standardize. -/
theorem zap_request_rules (hstd : ∀ t ∈ event.tags, t.Standard)
    (h : isValidNostrZapRequest crates amountMsat event = true) :
    (event.kind = 9734 ∧ crates.verifyEvent event = true ∧
      event.tags.countP (fun t => t.IsNamed "p") = 1 ∧
      event.tags.countP (fun t => t.IsNamed "e") ≤ 1 ∧ ∃ t ∈ event.tags, t.IsNamed "relays") ∧
    ((∀ t ∈ event.tags, t.IsNamed "amount" → t.ValueIs amountMsat) ↔
      ValuesAgree amountMsat event.tags) ∧
    ((∀ t ∈ event.tags, t.IsNamed "amount" → t.StatesAmount amountMsat) ↔
      AmountsAgree event.tags) := by
  obtain ⟨hkind, hverified, _, hp, he, hrelays, hfirst⟩ := isValidNostrZapRequest_iff.mp h
  obtain ⟨t, ht, urls, hurls⟩ := exists_of_hasRelays hrelays
  refine ⟨⟨hkind, hverified, hp, he, t, ht, (hstd t ht).relays urls hurls⟩, ?_, ?_⟩
  · exact valueIs_iff hstd hfirst
  · exact statesAmount_iff hstd hfirst

end Accepted

/-! ## Examples -/

section Example

def amountTag (text : String) : NostrTag :=
  ⟨["amount", text], (parseU64 text).map .amount⟩

theorem standard_amountTag (text : String) : (amountTag text).Standard where
  amount := fun n h => by
    obtain ⟨m, hm, hamount⟩ := Option.map_eq_some_iff.mp h
    obtain rfl := TagStandard.amount.inj hamount
    exact ⟨rfl, hm⟩
  relays := fun urls h => by
    obtain ⟨m, _, hamount⟩ := Option.map_eq_some_iff.mp h
    exact nomatch hamount

/-- A zap request to one recipient over one relay. -/
def zapRequestWith (amounts : List String) : NostrEvent where
  kind := 9734
  pubkey := "payer"
  tags := [⟨["p", "recipient"], some (.publicKey "recipient" false)⟩,
    ⟨["relays", "wss://r.io"], some (.relays ["wss://r.io"])⟩] ++ amounts.map amountTag
  json := ""

theorem standard_zapRequestWith (amounts : List String) :
    ∀ t ∈ (zapRequestWith amounts).tags, t.Standard := by
  intro t ht
  rcases List.mem_append.mp ht with hfixed | hamount
  · rcases List.mem_cons.mp hfixed with rfl | hrelays
    · exact ⟨fun _ h => (nomatch h), fun _ h => nomatch h⟩
    · obtain rfl := List.mem_singleton.mp hrelays
      exact ⟨fun _ h => (nomatch h), fun _ _ => rfl⟩
  · obtain ⟨text, _, rfl⟩ := List.mem_map.mp hamount
    exact standard_amountTag text

theorem zap_request_of_ten_satoshis :
    isValidNostrZapRequest payeeSigned.crates 10000 (zapRequestWith ["10000"]) = true ∧
    ∀ t ∈ (zapRequestWith ["10000"]).tags, t.IsNamed "amount" → t.StatesAmount 10000 := by
  have haccepted : isValidNostrZapRequest payeeSigned.crates 10000 (zapRequestWith ["10000"]) =
      true := by decide
  refine ⟨haccepted, ?_⟩
  refine (zap_request_rules (standard_zapRequestWith _) haccepted).2.2.mpr ⟨10000, ?_⟩
  decide

/-- Ten satoshis are asked for; a second amount tag says twenty, or the only one
says nothing. -/
theorem zap_request_of_other_amount :
    (∀ t ∈ (zapRequestWith ["10000", "20000"]).tags, t.Standard) ∧
    isValidNostrZapRequest payeeSigned.crates 10000 (zapRequestWith ["10000", "20000"]) = true ∧
    (∃ t ∈ (zapRequestWith ["10000", "20000"]).tags, t.IsNamed "amount" ∧
      t.values[1]?.bind parseU64 = some 20000) ∧
    (∀ t ∈ (zapRequestWith ["ten"]).tags, t.Standard) ∧
    isValidNostrZapRequest payeeSigned.crates 10000 (zapRequestWith ["ten"]) = true ∧
    ∃ t ∈ (zapRequestWith ["ten"]).tags, t.IsNamed "amount" ∧
      t.values[1]?.bind parseU64 = none :=
  ⟨standard_zapRequestWith _, by decide, ⟨amountTag "20000", by decide, rfl, by decide⟩,
    standard_zapRequestWith _, by decide, amountTag "ten", by decide, rfl, by decide⟩

end Example

end BlinkLnurl
