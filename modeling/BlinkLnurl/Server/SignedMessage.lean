import BlinkLnurl.Lib.Text
import BlinkLnurl.Server.Crates

/-!
# Signed messages and statement claims

The messages a Spark identity key signs (`signed_message.rs` and its golden
vectors, `docs/API.md`): `breez-lnurl:v2` and `blink-lnurl:v1` messages are
fields joined by LF, the version first and the timestamp last; a pre-v2
message is its text, a hyphen and the timestamp.

Two facts about them carry the single use of statements. A message determines
its timestamp (`Candidate.EndsIn`, `Text.EndsInDecimal.unique`). And a claim's
hash determines the statement, up to collisions of SHA-256
(`statementText_inj`).
-/

namespace BlinkLnurl

open RustStr Text

/-- The accept window in seconds, `VALIDITY_SECS` of `lnurl-models`. -/
def acceptableTimeDiffSecs : Nat := 600

namespace SignedMessage

def breezVersion : String := "breez-lnurl:v2"

def blinkVersion : String := "blink-lnurl:v1"

/-- The fields of a message but for the timestamp, and the timestamp. -/
def message (fields : List String) (timestamp : UInt64) : String :=
  join '\n' (fields ++ [decimal timestamp.toNat])

def descriptionHash (crates : Crates) (description : String) : String :=
  crates.sha256 (utf8 description)

def register (crates : Crates) (domain username description : String) (timestamp : UInt64) :
    String :=
  message [breezVersion, "register", domain, username, descriptionHash crates description] timestamp

def unregister (domain username : String) (timestamp : UInt64) : String :=
  message [breezVersion, "unregister", domain, username] timestamp

def transferFrom (domain username fromPubkey toPubkey : String) (timestamp : UInt64) : String :=
  message [breezVersion, "transfer-from", domain, username, fromPubkey, toPubkey] timestamp

def transferTo (crates : Crates) (domain username fromPubkey toPubkey description : String)
    (timestamp : UInt64) : String :=
  message [breezVersion, "transfer-to", domain, username, fromPubkey, toPubkey,
    descriptionHash crates description] timestamp

/-- `blink::mode`. -/
def blinkMode (domain pubkey mode : String) (timestamp : UInt64) : String :=
  message [blinkVersion, "mode", domain, pubkey, mode] timestamp

/-- `legacy_timestamped`. -/
def legacyTimestamped (text : String) (timestamp : UInt64) : String :=
  text ++ "-" ++ decimal timestamp.toNat

theorem endsInDecimal_message {fields : List String} {timestamp : UInt64} (hne : fields ≠ []) :
    EndsInDecimal (message fields timestamp) timestamp.toNat :=
  endsInDecimal_join (by decide) hne

theorem endsInDecimal_legacy {text : String} {timestamp : UInt64} :
    EndsInDecimal (legacyTimestamped text timestamp) timestamp.toNat := by
  refine ⟨text.toList, '-', by decide, ?_⟩
  simp [legacyTimestamped]

end SignedMessage

/-! ## Candidates -/

inductive SignedRoute
  | available
  | register
  | unregister
  | transfer
  | recover
  | metadata
  | mode
  | zapReceipt
  | invoicePaid
  | invoicesPaid
deriving DecidableEq, Repr

def SignedRoute.asStr : SignedRoute → String
  | .available => "available"
  | .register => "register"
  | .unregister => "unregister"
  | .transfer => "transfer"
  | .recover => "recover"
  | .metadata => "metadata"
  | .mode => "mode"
  | .zapReceipt => "zap_receipt"
  | .invoicePaid => "invoice_paid"
  | .invoicesPaid => "invoices_paid"

inductive MessageFormat
  | breezV2
  | blinkV1
  | legacy
deriving DecidableEq, Repr

/-- A message a signature may cover. -/
structure Candidate where
  message : String
  route : SignedRoute
  format : MessageFormat
deriving DecidableEq

namespace Candidate

def breezV2 (message : String) (route : SignedRoute) : Candidate := ⟨message, route, .breezV2⟩

def blinkV1 (message : String) (route : SignedRoute) : Candidate := ⟨message, route, .blinkV1⟩

def legacy (message : String) (route : SignedRoute) : Candidate := ⟨message, route, .legacy⟩

end Candidate

/-- The loop of `verify_candidates`: the first candidate that verifies. -/
def firstVerified (crates : Crates) (pubkey : PublicKey) (signature : Signature)
    (candidates : List Candidate) : Option Candidate :=
  candidates.find? fun c => crates.verifyMessage c.message signature pubkey

theorem firstVerified_mem {crates : Crates} {pubkey : PublicKey} {signature : Signature}
    {candidates : List Candidate} {c : Candidate}
    (h : firstVerified crates pubkey signature candidates = some c) :
    c ∈ candidates ∧ crates.verifyMessage c.message signature pubkey = true := by
  unfold firstVerified at h
  have verified := List.find?_some h
  exact ⟨List.mem_of_find?_eq_some h, by simpa using verified⟩

/-! ## Statement claims -/

/-- What a claim is about: the key, the resolved domain and the message it
signed. -/
structure Statement where
  pubkey : PublicKey
  domain : String
  message : String
deriving DecidableEq

/-- The text a statement is hashed as. -/
def Statement.text (s : Statement) : String :=
  s.pubkey.hex ++ "\x00" ++ s.domain ++ "\x00" ++ s.message

def Statement.hash (crates : Crates) (s : Statement) : String := crates.sha256 (utf8 s.text)

/-- The fields are delimited: keys and domains hold no NUL. -/
theorem statementText_inj {s t : Statement} (hs : '\x00' ∉ s.domain.toList)
    (ht : '\x00' ∉ t.domain.toList) (h : s.text = t.text) : s = t := by
  have hhex : ∀ k : PublicKey, '\x00' ∉ k.hex.toList := by
    intro k hk
    exact absurd (k.digits _ hk) (by decide)
  have hl := congrArg String.toList h
  simp only [Statement.text, String.toList_append, List.append_assoc] at hl
  obtain ⟨hpk, hrest⟩ := append_cons_inj (hhex _) (hhex _) hl
  obtain ⟨hd, hm⟩ := append_cons_inj hs ht hrest
  cases s with
  | mk pubkey domain message =>
      cases t with
      | mk pubkey' domain' message' =>
          cases pubkey
          cases pubkey'
          simp only at hpk hd hm
          have hpk' := String.toList_inj.mp hpk
          subst hpk'
          rw [String.toList_inj.mp hd, String.toList_inj.mp hm]

/-- `claim_expires_at`: the end of the accept window, in `i64`. -/
def claimExpiresAt (timestamp : UInt64) : Int :=
  let sum := min (timestamp.toNat + acceptableTimeDiffSecs) (2 ^ 64 - 1)
  if sum < 2 ^ 63 then sum else 2 ^ 63 - 1

/-- `statement_claim`. -/
def statementClaim (crates : Crates) (pubkey : PublicKey) (domain : String) (candidate : Candidate)
    (timestamp : UInt64) : StatementClaim :=
  { statementHash := Statement.hash crates ⟨pubkey, domain, candidate.message⟩
    route := candidate.route.asStr
    expiresAt := claimExpiresAt timestamp }

/-- Whether a timestamp is inside the accept window at `now`. -/
def acceptsTimestamp (now : Nat) (timestamp : UInt64) : Bool :=
  timestamp.toNat - now ≤ acceptableTimeDiffSecs && now - timestamp.toNat ≤ acceptableTimeDiffSecs

/-- A timestamp whose claim has expired is refused on its own. -/
theorem not_acceptsTimestamp_of_expired {now : Nat} {timestamp : UInt64} (hnow : now < 2 ^ 63)
    {n : Int} (hn : n ≤ now) (hexp : claimExpiresAt timestamp < n) :
    acceptsTimestamp now timestamp = false := by
  have hts := timestamp.toNat_lt
  unfold claimExpiresAt at hexp
  unfold acceptsTimestamp acceptableTimeDiffSecs at *
  simp only at hexp
  simp only [Bool.and_eq_false_iff, decide_eq_false_iff_not]
  split at hexp <;> omega

end BlinkLnurl
