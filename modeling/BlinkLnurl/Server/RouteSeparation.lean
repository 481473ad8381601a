import BlinkLnurl.Lib.AsciiCase
import BlinkLnurl.Server.Deployment

/-!
# Separate messages for separate routes

The ten signed routes share keys and mix three message formats. A message of
fields names its route in its second field; a pre-v2 message is a bare text and
a timestamp, where the text is a username, hexadecimal digits, a JSON document
or, for the mode, begins with `mode:`. So a message that changes a mode, gives
up an address or transfers one is read back: it tells the route, the side of a
transfer and every field it names (`route_separation`).
-/

namespace BlinkLnurl

open RustStr Text

/-! ## The messages of the other routes -/

namespace SignedMessage

def available (domain pubkey username : String) (timestamp : UInt64) : String :=
  message [breezVersion, "available", domain, pubkey, username] timestamp

def recover (domain pubkey : String) (timestamp : UInt64) : String :=
  message [breezVersion, "recover", domain, pubkey] timestamp

def metadata (domain pubkey : String) (timestamp : UInt64) : String :=
  message [breezVersion, "metadata", domain, pubkey] timestamp

/-- `blink::recover`. -/
def blinkRecover (domain pubkey : String) (timestamp : UInt64) : String :=
  message [blinkVersion, "recover", domain, pubkey] timestamp

end SignedMessage

def availableCandidates (domain : String) (identity : PublicKey) (username : String)
    (timestamp : UInt64) : List Candidate :=
  [.breezV2 (SignedMessage.available domain identity.hex username timestamp) .available]

def recoverCandidates (domain : String) (identity : PublicKey) (pathPubkey : String)
    (timestamp : UInt64) : List Candidate :=
  [.breezV2 (SignedMessage.recover domain identity.hex timestamp) .recover,
    .blinkV1 (SignedMessage.blinkRecover domain identity.hex timestamp) .recover,
    -- the path segment verbatim, which is what the pre-v2 message was built from
    .legacy (SignedMessage.legacyTimestamped pathPubkey timestamp) .recover]

def metadataCandidates (domain : String) (identity : PublicKey) (pathPubkey : String)
    (timestamp : UInt64) : List Candidate :=
  [.breezV2 (SignedMessage.metadata domain identity.hex timestamp) .metadata,
    .legacy (SignedMessage.legacyTimestamped pathPubkey timestamp) .metadata]

/-- The one candidate of `validate`. -/
def legacyCandidates (text : String) (timestamp : UInt64) (route : SignedRoute) : List Candidate :=
  [.legacy (SignedMessage.legacyTimestamped text timestamp) route]

/-! ## Signed requests -/

/-- What a signed request is about. A transfer is signed by both sides. -/
inductive SignedRequest
  | available (domain : String) (identity : PublicKey) (username : String)
  | register (domain username description : String)
  | unregister (domain username : String)
  | transferFrom (domain username : String) (source target : PublicKey)
  | transferTo (domain username : String) (source target : PublicKey) (description : String)
  | recover (domain : String) (identity : PublicKey) (pathPubkey : String)
  | metadata (domain : String) (identity : PublicKey) (pathPubkey : String)
  | mode (domain : String) (identity : PublicKey) (pathPubkey : String) (mode : AccountMode)
  | zapReceipt (zapReceipt : String)
  | invoicePaid (preimage : String)
  | invoicesPaid (pathPubkey : String)

inductive TransferSide
  | source
  | target
deriving DecidableEq, Repr

/-- The route of a message, and the fields it names, as they are printed. -/
structure SignedFields where
  route : SignedRoute
  side : Option TransferSide := none
  domain : Option String := none
  pubkeys : List String := []
  username : Option String := none
  mode : Option String := none
deriving DecidableEq

/-- A canonical username, as the routes take it from a request. -/
def IsCanonicalUsername (crates : Crates) (username : String) : Prop :=
  ∃ text, canonicalSparkUsernameForRoute crates text = .ok username

namespace SignedRequest

/-- The messages the route tries the signature on. -/
def candidates (crates : Crates) (timestamp : UInt64) : SignedRequest → List Candidate
  | available domain identity username => availableCandidates domain identity username timestamp
  | register domain username description =>
      registerCandidates crates domain username description timestamp
  | unregister domain username => unregisterCandidates domain username timestamp
  | transferFrom domain username source target =>
      transferFromCandidates domain username source target timestamp
  | transferTo domain username source target description =>
      transferToCandidates crates domain username source target description timestamp
  | recover domain identity pathPubkey => recoverCandidates domain identity pathPubkey timestamp
  | metadata domain identity pathPubkey => metadataCandidates domain identity pathPubkey timestamp
  | mode domain identity pathPubkey accountMode =>
      modeCandidates domain identity pathPubkey accountMode timestamp
  | zapReceipt json => legacyCandidates json timestamp .zapReceipt
  | invoicePaid preimage => legacyCandidates preimage timestamp .invoicePaid
  | invoicesPaid pathPubkey => legacyCandidates pathPubkey timestamp .invoicesPaid

/-- The request passes the checks of its route on what it signs. -/
def IsValid (crates : Crates) : SignedRequest → Prop
  | available domain _ username => '\n' ∉ domain.toList ∧ IsCanonicalUsername crates username
  | register domain username _ => '\n' ∉ domain.toList ∧ IsCanonicalUsername crates username
  | unregister domain username => '\n' ∉ domain.toList ∧ IsCanonicalUsername crates username
  | transferFrom domain username _ _ =>
      '\n' ∉ domain.toList ∧ IsCanonicalUsername crates username
  | transferTo domain username _ _ _ =>
      '\n' ∉ domain.toList ∧ IsCanonicalUsername crates username
  | recover domain identity pathPubkey =>
      '\n' ∉ domain.toList ∧ parsePubkey crates pathPubkey = .ok identity
  | metadata domain identity pathPubkey =>
      '\n' ∉ domain.toList ∧ parsePubkey crates pathPubkey = .ok identity
  | mode domain identity pathPubkey _ =>
      '\n' ∉ domain.toList ∧ parsePubkey crates pathPubkey = .ok identity
  | zapReceipt json => ∃ event, crates.nostrEvent json = some event
  | invoicePaid preimage => ∃ bytes, crates.hexDecode preimage = .ok bytes
  | invoicesPaid pathPubkey => ∃ identity, parsePubkey crates pathPubkey = .ok identity

/-- The request sets a mode, unregisters or transfers. -/
def IsGuarded : SignedRequest → Prop
  | unregister _ _ => True
  | transferFrom _ _ _ _ => True
  | transferTo _ _ _ _ _ => True
  | mode _ _ _ _ => True
  | _ => False

/-- What a message of the format says of the request. The pre-v2 messages name
no domain, and the key by the path segment. -/
def fields (format : MessageFormat) : SignedRequest → SignedFields
  | available domain identity username =>
      { route := .available, domain, pubkeys := [identity.hex], username }
  | register domain username _ =>
      if format = .legacy then { route := .register, username }
      else { route := .register, domain, username }
  | unregister domain username => { route := .unregister, domain, username }
  | transferFrom domain username source target =>
      { route := .transfer, side := some .source, domain, pubkeys := [source.hex, target.hex],
        username }
  | transferTo domain username source target _ =>
      { route := .transfer, side := some .target, domain, pubkeys := [source.hex, target.hex],
        username }
  | recover domain identity _ =>
      if format = .legacy then { route := .recover, pubkeys := [identity.hex] }
      else { route := .recover, domain, pubkeys := [identity.hex] }
  | metadata domain identity _ =>
      if format = .legacy then { route := .metadata, pubkeys := [identity.hex] }
      else { route := .metadata, domain, pubkeys := [identity.hex] }
  | mode domain identity _ accountMode =>
      if format = .legacy then
        { route := .mode, pubkeys := [identity.hex], mode := accountMode.asStr }
      else { route := .mode, domain, pubkeys := [identity.hex], mode := accountMode.asStr }
  | zapReceipt _ => { route := .zapReceipt }
  | invoicePaid _ => { route := .invoicePaid }
  | invoicesPaid _ => { route := .invoicesPaid }

end SignedRequest

/-! ## Layouts -/

/-- The version and the name that begin a message of fields. -/
inductive Header
  | available
  | register
  | unregister
  | transferFrom
  | transferTo
  | recover
  | metadata
  | blinkRecover
  | blinkMode
deriving DecidableEq, Repr

namespace Header

def version : Header → String
  | blinkRecover => SignedMessage.blinkVersion
  | blinkMode => SignedMessage.blinkVersion
  | _ => SignedMessage.breezVersion

def name : Header → String
  | available => "available"
  | register => "register"
  | unregister => "unregister"
  | transferFrom => "transfer-from"
  | transferTo => "transfer-to"
  | recover => "recover"
  | metadata => "metadata"
  | blinkRecover => "recover"
  | blinkMode => "mode"

theorem eq_of_name {h h' : Header} (hversion : h.version = h'.version) (hname : h.name = h'.name) :
    h = h' := by
  cases h <;> cases h' <;>
    first
    | rfl
    | exact absurd hname (by decide)
    | exact absurd hversion (by decide)

theorem noLf (h : Header) : '\n' ∉ h.version.toList ∧ '\n' ∉ h.name.toList := by
  cases h <;> decide

theorem version_head (h : Header) : h.version.toList.head? = some 'b' := by
  cases h <;> rfl

end Header

/-- How a message is made: of fields, or of one text. -/
inductive Layout
  | fields (header : Header) (body : List String)
  | legacy (text : String)

namespace Layout

def message (timestamp : UInt64) : Layout → String
  | fields header body =>
      SignedMessage.message (header.version :: header.name :: body) timestamp
  | legacy text => SignedMessage.legacyTimestamped text timestamp

/-- The first character of a JSON document. -/
def startsJson (c : Char) : Bool :=
  isAsciiDigit c || ['{', '[', '"', '-', 't', 'f', 'n', ' ', '\t', '\n', '\r'].contains c

/-- The fields hold no line break; nor does the text, unless it is JSON. -/
def WellFormed : Layout → Prop
  | fields _ body => ∀ f ∈ body, '\n' ∉ f.toList
  | legacy text => '\n' ∉ text.toList ∨ ∃ c, text.toList.head? = some c ∧ startsJson c = true

theorem head_legacy {text : String} {timestamp : UInt64} {c : Char}
    (h : text.toList.head? = some c) :
    (SignedMessage.legacyTimestamped text timestamp).toList.head? = some c := by
  unfold SignedMessage.legacyTimestamped
  rw [String.toList_append, String.toList_append, List.append_assoc, List.head?_append, h]
  rfl

theorem head_fields (header : Header) (body : List String) (timestamp : UInt64) :
    ((fields header body).message timestamp).toList.head? = some 'b' := by
  have hversion := header.version_head
  unfold message SignedMessage.message join
  rw [String.toList_ofList]
  show (header.version.toList ++ _).head? = _
  rw [List.head?_append, hversion]
  rfl

theorem lf_mem_fields (header : Header) (body : List String) (timestamp : UInt64) :
    '\n' ∈ ((fields header body).message timestamp).toList := sep_mem_join _ _ _

theorem not_lf_mem_legacy {text : String} (h : '\n' ∉ text.toList) (timestamp : UInt64) :
    '\n' ∉ (SignedMessage.legacyTimestamped text timestamp).toList := by
  unfold SignedMessage.legacyTimestamped
  rw [String.toList_append, String.toList_append]
  intro hmem
  rcases List.mem_append.mp hmem with hmem | hdigit
  · rcases List.mem_append.mp hmem with hmem | hdash
    · exact h hmem
    · exact absurd hdash (by decide)
  · exact absurd (isDigit_decimal hdigit) (by decide)

theorem legacy_inj {text text' : String} {timestamp timestamp' : UInt64}
    (h : SignedMessage.legacyTimestamped text timestamp =
      SignedMessage.legacyTimestamped text' timestamp') :
    text = text' ∧ timestamp = timestamp' := by
  have htimestamp : timestamp = timestamp' := by
    have hends :
        EndsInDecimal (SignedMessage.legacyTimestamped text timestamp) timestamp'.toNat := by
      rw [h]
      exact SignedMessage.endsInDecimal_legacy
    exact UInt64.toNat_inj.mp (SignedMessage.endsInDecimal_legacy.unique hends)
  subst htimestamp
  refine ⟨?_, rfl⟩
  have hl := congrArg String.toList h
  unfold SignedMessage.legacyTimestamped at hl
  simp only [String.toList_append, List.append_assoc] at hl
  exact String.toList_inj.mp (List.append_cancel_right hl)

theorem not_fields_eq_legacy {header : Header} {body : List String} {text : String}
    {timestamp timestamp' : UInt64} (htext : (legacy text).WellFormed) :
    (fields header body).message timestamp ≠ (legacy text).message timestamp' := by
  intro h
  rcases htext with hlf | ⟨c, hhead, hjson⟩
  · refine not_lf_mem_legacy hlf timestamp' ?_
    have hmem := lf_mem_fields header body timestamp
    rw [h] at hmem
    exact hmem
  · -- JSON does not begin with a `b`
    have hfirst := head_fields header body timestamp
    rw [h] at hfirst
    obtain rfl := Option.some.inj ((head_legacy hhead).symm.trans hfirst)
    exact absurd hjson (by decide)

/-- A message tells its layout and its timestamp. -/
theorem message_inj {l l' : Layout} {timestamp timestamp' : UInt64} (hl : l.WellFormed)
    (hl' : l'.WellFormed) (h : l.message timestamp = l'.message timestamp') :
    l = l' ∧ timestamp = timestamp' := by
  have noLf : ∀ (header : Header) {body : List String} (timestamp : UInt64),
      (∀ f ∈ body, '\n' ∉ f.toList) →
      ∀ f ∈ (header.version :: header.name :: body) ++ [decimal timestamp.toNat],
        '\n' ∉ f.toList := by
    intro header body timestamp hbody f hf
    rcases List.mem_append.mp hf with hf | hf
    · rcases List.mem_cons.mp hf with rfl | hf
      · exact header.noLf.1
      · rcases List.mem_cons.mp hf with rfl | hf
        · exact header.noLf.2
        · exact hbody f hf
    · rw [List.mem_singleton.mp hf]
      exact fun hdigit => absurd (isDigit_decimal hdigit) (by decide)
  cases l with
  | legacy text =>
      cases l' with
      | legacy text' =>
          obtain ⟨htext, htimestamp⟩ := legacy_inj h
          exact ⟨congrArg legacy htext, htimestamp⟩
      | fields header body => exact absurd h.symm (not_fields_eq_legacy hl)
  | fields header body =>
      cases l' with
      | legacy text => exact absurd h (not_fields_eq_legacy hl')
      | fields header' body' =>
          have hlists := join_inj (by simp) (by simp) (noLf header timestamp hl)
            (noLf header' timestamp' hl') h
          obtain ⟨hfront, hlast⟩ := List.append_inj' hlists rfl
          injection hfront with hversion hfront
          injection hfront with hname hbody
          have hheader := Header.eq_of_name hversion hname
          have htimestamp := UInt64.toNat_inj.mp (decimal_inj (List.cons.inj hlast).1)
          exact ⟨by rw [hheader, hbody], htimestamp⟩

end Layout

/-! ## The layouts of a request -/

/-- What is asked of the crates: `hex::decode` accepts hexadecimal digits only,
a hash is printed without line breaks, and an event is a JSON document. -/
structure Crates.SignedTexts (crates : Crates) : Prop where
  hex : ∀ text bytes, crates.hexDecode text = .ok bytes → ∀ c ∈ text.toList, isHexChar c = true
  hash : ∀ bytes, '\n' ∉ (crates.sha256 bytes).toList
  json : ∀ text event, crates.nostrEvent text = some event →
    ∃ c, text.toList.head? = some c ∧ Layout.startsJson c = true

namespace SignedRequest

def layout (crates : Crates) : SignedRequest → MessageFormat → Option Layout
  | available domain identity username, .breezV2 =>
      some (.fields .available [domain, identity.hex, username])
  | register domain username description, .breezV2 =>
      some (.fields .register
        [domain, username, SignedMessage.descriptionHash crates description])
  | register _ username _, .legacy => some (.legacy username)
  | unregister domain username, .breezV2 => some (.fields .unregister [domain, username])
  | transferFrom domain username source target, .breezV2 =>
      some (.fields .transferFrom [domain, username, source.hex, target.hex])
  | transferTo domain username source target description, .breezV2 =>
      some (.fields .transferTo [domain, username, source.hex, target.hex,
        SignedMessage.descriptionHash crates description])
  | recover domain identity _, .breezV2 => some (.fields .recover [domain, identity.hex])
  | recover domain identity _, .blinkV1 => some (.fields .blinkRecover [domain, identity.hex])
  | recover _ _ pathPubkey, .legacy => some (.legacy pathPubkey)
  | metadata domain identity _, .breezV2 => some (.fields .metadata [domain, identity.hex])
  | metadata _ _ pathPubkey, .legacy => some (.legacy pathPubkey)
  | mode domain identity _ accountMode, .blinkV1 =>
      some (.fields .blinkMode [domain, identity.hex, accountMode.asStr])
  | mode _ _ pathPubkey accountMode, .legacy =>
      some (.legacy ("mode:" ++ accountMode.asStr ++ ":" ++ pathPubkey))
  | zapReceipt json, .legacy => some (.legacy json)
  | invoicePaid preimage, .legacy => some (.legacy preimage)
  | invoicesPaid pathPubkey, .legacy => some (.legacy pathPubkey)
  | _, _ => none

variable {crates : Crates} {r r' : SignedRequest} {timestamp timestamp' : UInt64} {c c' : Candidate}
  {format format' : MessageFormat} {l : Layout}

theorem layout_of_mem_candidates (h : c ∈ r.candidates crates timestamp) :
    ∃ l, r.layout crates c.format = some l ∧ c.message = l.message timestamp ∧
      c.route = (r.fields c.format).route := by
  cases r <;> simp only [candidates, availableCandidates, registerCandidates, unregisterCandidates,
    transferFromCandidates, transferToCandidates, recoverCandidates, metadataCandidates,
    modeCandidates, legacyCandidates, List.mem_cons, List.not_mem_nil, or_false] at h
  case recover => rcases h with rfl | rfl | rfl <;> exact ⟨_, rfl, rfl, rfl⟩
  case register => rcases h with rfl | rfl <;> exact ⟨_, rfl, rfl, rfl⟩
  case metadata => rcases h with rfl | rfl <;> exact ⟨_, rfl, rfl, rfl⟩
  case mode => rcases h with rfl | rfl <;> exact ⟨_, rfl, rfl, rfl⟩
  all_goals
    subst h
    exact ⟨_, rfl, rfl, rfl⟩

/-- What a message of fields says, read off its header and its body. -/
def readFields : Header → List String → Option SignedFields
  | .available, [domain, pubkey, username] =>
      some { route := .available, domain, pubkeys := [pubkey], username }
  | .register, [domain, username, _] => some { route := .register, domain, username }
  | .unregister, [domain, username] => some { route := .unregister, domain, username }
  | .transferFrom, [domain, username, source, target] =>
      some
        { route := .transfer, side := some .source, domain, pubkeys := [source, target], username }
  | .transferTo, [domain, username, source, target, _] =>
      some
        { route := .transfer, side := some .target, domain, pubkeys := [source, target], username }
  | .recover, [domain, pubkey] => some { route := .recover, domain, pubkeys := [pubkey] }
  | .blinkRecover, [domain, pubkey] => some { route := .recover, domain, pubkeys := [pubkey] }
  | .metadata, [domain, pubkey] => some { route := .metadata, domain, pubkeys := [pubkey] }
  | .blinkMode, [domain, pubkey, modeName] =>
      some { route := .mode, domain, pubkeys := [pubkey], mode := modeName }
  | _, _ => none

theorem readFields_of_layout {header : Header} {body : List String}
    (h : r.layout crates format = some (.fields header body)) :
    readFields header body = some (r.fields format) := by
  cases r <;> cases format <;> cases h <;> rfl

/-- The text of the pre-v2 message, for the routes that accept one. -/
def legacyText : SignedRequest → Option String
  | register _ username _ => some username
  | recover _ _ pathPubkey => some pathPubkey
  | metadata _ _ pathPubkey => some pathPubkey
  | mode _ _ pathPubkey accountMode => some ("mode:" ++ accountMode.asStr ++ ":" ++ pathPubkey)
  | zapReceipt json => some json
  | invoicePaid preimage => some preimage
  | invoicesPaid pathPubkey => some pathPubkey
  | _ => none

theorem legacyText_of_layout {text : String} (h : r.layout crates format = some (.legacy text)) :
    format = .legacy ∧ r.legacyText = some text := by
  cases r <;> cases format <;> cases h <;> exact ⟨rfl, rfl⟩

/-! ## The texts -/

theorem not_mem_of_hexDecode (hcrates : crates.SignedTexts) {text : String} {bytes : Bytes}
    (h : crates.hexDecode text = .ok bytes) {c : Char} (hc : isHexChar c = false) :
    c ∉ text.toList := by
  intro hmem
  have hhex := hcrates.hex text bytes h c hmem
  rw [hc] at hhex
  exact nomatch hhex

theorem not_mem_of_parsePubkey (hcrates : crates.SignedTexts) {text : String} {identity : PublicKey}
    (h : parsePubkey crates text = .ok identity) {c : Char} (hc : isHexChar c = false) :
    c ∉ text.toList := by
  unfold parsePubkey at h
  cases hbytes : crates.hexDecode text with
  | error e =>
      rw [hbytes] at h
      exact nomatch h
  | ok bytes => exact not_mem_of_hexDecode hcrates hbytes hc

theorem not_mem_of_username {username : String} (h : IsCanonicalUsername crates username) {c : Char}
    (hc : ¬ ((97 ≤ c.toNat ∧ c.toNat ≤ 122) ∨ (48 ≤ c.toNat ∧ c.toNat ≤ 57) ∨ c.toNat = 95)) :
    c ∉ username.toList := by
  obtain ⟨text, htext⟩ := h
  unfold canonicalSparkUsernameForRoute canonicalSparkUsername at htext
  split at htext
  · rename_i name hname
    obtain rfl := Except.ok.inj htext
    exact (isUsernameText_username (checkedToUsername_ok hname)).not_mem hc
  · exact nomatch htext

theorem noLf_hex (identity : PublicKey) : '\n' ∉ identity.hex.toList :=
  fun hmem => absurd (identity.digits _ hmem) (by decide)

theorem noLf_asStr (accountMode : AccountMode) : '\n' ∉ accountMode.asStr.toList := by
  cases accountMode <;> decide

/-- A valid request makes well-formed messages. -/
theorem layout_wellFormed (hcrates : crates.SignedTexts) (hvalid : r.IsValid crates)
    (h : r.layout crates format = some l) : l.WellFormed := by
  have hname : ∀ {username}, IsCanonicalUsername crates username → '\n' ∉ username.toList :=
    fun hu => not_mem_of_username hu (by decide)
  have hpath : ∀ {path identity}, parsePubkey crates path = .ok identity → '\n' ∉ path.toList :=
    fun hp => not_mem_of_parsePubkey hcrates hp (by decide)
  have hhash := hcrates.hash
  have nil : ∀ f ∈ ([] : List String), '\n' ∉ f.toList := fun _ hf => absurd hf List.not_mem_nil
  have cons : ∀ {f : String} {fs : List String}, '\n' ∉ f.toList →
      (∀ x ∈ fs, '\n' ∉ x.toList) → ∀ x ∈ f :: fs, '\n' ∉ x.toList :=
    fun hf hfs => List.forall_mem_cons.mpr ⟨hf, hfs⟩
  cases r with
  | available domain identity username =>
      cases format <;> cases h
      exact cons hvalid.1 (cons (noLf_hex _) (cons (hname hvalid.2) nil))
  | register domain username description =>
      cases format <;> cases h
      · exact cons hvalid.1 (cons (hname hvalid.2) (cons (hhash _) nil))
      · exact Or.inl (hname hvalid.2)
  | unregister domain username =>
      cases format <;> cases h
      exact cons hvalid.1 (cons (hname hvalid.2) nil)
  | transferFrom domain username source target =>
      cases format <;> cases h
      exact cons hvalid.1 (cons (hname hvalid.2) (cons (noLf_hex _) (cons (noLf_hex _) nil)))
  | transferTo domain username source target description =>
      cases format <;> cases h
      exact cons hvalid.1 (cons (hname hvalid.2)
        (cons (noLf_hex _) (cons (noLf_hex _) (cons (hhash _) nil))))
  | recover domain identity pathPubkey =>
      cases format <;> cases h
      · exact cons hvalid.1 (cons (noLf_hex _) nil)
      · exact cons hvalid.1 (cons (noLf_hex _) nil)
      · exact Or.inl (hpath hvalid.2)
  | metadata domain identity pathPubkey =>
      cases format <;> cases h
      · exact cons hvalid.1 (cons (noLf_hex _) nil)
      · exact Or.inl (hpath hvalid.2)
  | mode domain identity pathPubkey accountMode =>
      cases format <;> cases h
      · exact cons hvalid.1 (cons (noLf_hex _) (cons (noLf_asStr _) nil))
      · refine Or.inl ?_
        have hmode := noLf_asStr accountMode
        simp only [String.toList_append, List.mem_append, not_or]
        exact ⟨⟨⟨by decide, hmode⟩, by decide⟩, hpath hvalid.2⟩
  | zapReceipt json =>
      cases format <;> cases h
      obtain ⟨event, hevent⟩ := hvalid
      exact Or.inr (hcrates.json json event hevent)
  | invoicePaid preimage =>
      cases format <;> cases h
      obtain ⟨bytes, hbytes⟩ := hvalid
      exact Or.inl (not_mem_of_hexDecode hcrates hbytes (by decide))
  | invoicesPaid pathPubkey =>
      cases format <;> cases h
      obtain ⟨identity, hidentity⟩ := hvalid
      exact Or.inl (hpath hidentity)

/-! ## Separation -/

theorem modeText_inj {m m' : AccountMode} {path path' : String}
    (h : "mode:" ++ m.asStr ++ ":" ++ path = "mode:" ++ m'.asStr ++ ":" ++ path') :
    m = m' ∧ path = path' := by
  have noColon : ∀ m : AccountMode, ':' ∉ m.asStr.toList := by
    intro m
    cases m <;> decide
  have hl := congrArg String.toList h
  simp only [String.toList_append, List.append_assoc] at hl
  obtain ⟨hmode, hpath⟩ := append_cons_inj (noColon m) (noColon m') (List.append_cancel_left hl)
  refine ⟨?_, String.toList_inj.mp hpath⟩
  have hname := String.toList_inj.mp hmode
  cases m <;> cases m' <;> first | rfl | exact absurd hname (by decide)

/-- The pre-v2 message of a mode is no other request's. -/
theorem fields_of_modeText (hcrates : crates.SignedTexts) (hvalid : r.IsValid crates)
    {domain path : String} {identity : PublicKey} {accountMode : AccountMode}
    (hidentity : parsePubkey crates path = .ok identity)
    (h : r.legacyText = some ("mode:" ++ accountMode.asStr ++ ":" ++ path)) :
    (mode domain identity path accountMode).fields .legacy = r.fields .legacy := by
  -- the other texts hold no colon, or begin as JSON does
  have hcolon : ∀ {text : String}, some text = r.legacyText → ':' ∈ text.toList := by
    intro text htext
    rw [Option.some.inj (htext.trans h)]
    simp only [String.toList_append, List.mem_append]
    exact Or.inl (Or.inr (by decide))
  cases r with
  | mode domain' identity' path' accountMode' =>
      obtain ⟨rfl, rfl⟩ := modeText_inj (Option.some.inj h).symm
      obtain rfl := Except.ok.inj (hidentity.symm.trans hvalid.2)
      rfl
  | register domain' username description =>
      exact absurd (hcolon rfl) (not_mem_of_username hvalid.2 (by decide))
  | recover domain' identity' path' =>
      exact absurd (hcolon rfl) (not_mem_of_parsePubkey hcrates hvalid.2 (by decide))
  | metadata domain' identity' path' =>
      exact absurd (hcolon rfl) (not_mem_of_parsePubkey hcrates hvalid.2 (by decide))
  | invoicesPaid path' =>
      obtain ⟨identity', hidentity'⟩ := hvalid
      exact absurd (hcolon rfl) (not_mem_of_parsePubkey hcrates hidentity' (by decide))
  | invoicePaid preimage =>
      obtain ⟨bytes, hbytes⟩ := hvalid
      exact absurd (hcolon rfl) (not_mem_of_hexDecode hcrates hbytes (by decide))
  | zapReceipt json =>
      obtain ⟨event, hevent⟩ := hvalid
      obtain ⟨c, hhead, hjson⟩ := hcrates.json json event hevent
      rw [Option.some.inj h, String.toList_append, String.toList_append, String.toList_append]
        at hhead
      obtain rfl := Option.some.inj hhead
      exact absurd hjson (by decide)
  | _ => exact nomatch h

/-- A message that a guarded request is tried on is a candidate of no request
that differs from it in the route, the side of a transfer or a field that the
message names. -/
theorem route_separation (hcrates : crates.SignedTexts) (hvalid : r.IsValid crates)
    (hvalid' : r'.IsValid crates) (hguarded : r.IsGuarded)
    (hc : c ∈ r.candidates crates timestamp) (hc' : c' ∈ r'.candidates crates timestamp')
    (hsame : c.message = c'.message) :
    c.route = c'.route ∧ r.fields c.format = r'.fields c'.format ∧ timestamp = timestamp' := by
  obtain ⟨l, hl, hmessage, hroute⟩ := layout_of_mem_candidates hc
  obtain ⟨l', hl', hmessage', hroute'⟩ := layout_of_mem_candidates hc'
  rw [hmessage, hmessage'] at hsame
  obtain ⟨hlayout, htimestamp⟩ := Layout.message_inj (layout_wellFormed hcrates hvalid hl)
    (layout_wellFormed hcrates hvalid' hl') hsame
  subst hlayout
  have hfields : r.fields c.format = r'.fields c'.format := by
    cases l with
    | fields header body =>
        exact Option.some.inj ((readFields_of_layout hl).symm.trans (readFields_of_layout hl'))
    | legacy text =>
        obtain ⟨hformat, htext⟩ := legacyText_of_layout hl
        obtain ⟨hformat', htext'⟩ := legacyText_of_layout hl'
        rw [hformat, hformat']
        -- of the guarded requests only the mode has a pre-v2 message
        cases r with
        | mode domain identity path accountMode =>
            rw [← Option.some.inj htext] at htext'
            exact fields_of_modeText hcrates hvalid' hvalid.2 htext'
        | unregister => exact nomatch htext
        | transferFrom => exact nomatch htext
        | transferTo => exact nomatch htext
        | _ => exact hguarded.elim
  rw [hroute, hroute', hfields]
  exact ⟨rfl, rfl, htimestamp⟩

end SignedRequest

/-! ## An example -/

section Example

theorem payeeSigned_texts : payeeSigned.crates.SignedTexts where
  hex := fun _ _ h => isHexChar_of_hexBytes h
  hash := Deployment.not_mem_sha256 (by decide) (by decide)
  json := fun _ _ h => nomatch h

/-- The pre-v2 message of a mode names no domain: it is the same on another
one. -/
theorem mode_message_on_two_domains :
    ∃ c ∈ (SignedRequest.mode "d.io" ownerKey ownerKey.hex .anon).candidates
        payeeSigned.crates 1000,
      ∃ c' ∈ (SignedRequest.mode "e.io" ownerKey ownerKey.hex .anon).candidates
        payeeSigned.crates 1000, c.message = c'.message ∧ c.route = c'.route ∧
          (SignedRequest.mode "d.io" ownerKey ownerKey.hex .anon).fields c.format =
            (SignedRequest.mode "e.io" ownerKey ownerKey.hex .anon).fields c'.format := by
  have hpath : parsePubkey payeeSigned.crates ownerKey.hex = .ok ownerKey := by decide +kernel
  refine ⟨_, List.mem_cons_of_mem _ List.mem_cons_self, _,
    List.mem_cons_of_mem _ List.mem_cons_self, rfl, ?_⟩
  have hseparate := @SignedRequest.route_separation payeeSigned.crates
    (.mode "d.io" ownerKey ownerKey.hex .anon) (.mode "e.io" ownerKey ownerKey.hex .anon) 1000 1000
    _ _ payeeSigned_texts ⟨by decide, hpath⟩ ⟨by decide, hpath⟩ trivial
    (List.mem_cons_of_mem _ List.mem_cons_self) (List.mem_cons_of_mem _ List.mem_cons_self) rfl
  exact ⟨hseparate.1, hseparate.2.1⟩

end Example

end BlinkLnurl
