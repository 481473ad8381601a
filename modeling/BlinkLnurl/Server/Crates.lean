import BlinkLnurl.Identifier
import BlinkLnurl.Repository.Types

/-!
# What the server takes from elsewhere

The functions of third-party crates that the handlers call (hashes, curves,
BOLT11, Nostr, JSON), as one record of functions, and the configuration of
`state.rs`. Types whose values the crates only hand out well formed carry that
as a field: a public key is printed as hexadecimal digits, a host name holds
visible ASCII characters.
-/

namespace BlinkLnurl

open RustStr

abbrev Bytes := List UInt8

def isHexDigit (c : Char) : Bool := isAsciiDigit c || ('a' ≤ c && c ≤ 'f')

/-- A digit of a hexadecimal text, in either case. -/
def isHexChar (c : Char) : Bool := isHexDigit c || ('A' ≤ c && c ≤ 'F')

/-- `secp256k1::PublicKey`, by its `to_string`. -/
structure PublicKey where
  hex : String
  digits : ∀ c ∈ hex.toList, isHexDigit c = true
deriving DecidableEq

/-- The value of the `Host` header: `HeaderValue::to_str` admits visible ASCII
characters and tabs only. -/
structure Host where
  text : String
  visible : ∀ c ∈ text.toList, c = '\t' ∨ (32 ≤ c.toNat ∧ c.toNat < 127)

/-- `ecdsa::Signature`, by its bytes. -/
structure Signature where
  bytes : Bytes
deriving DecidableEq

/-- What the server reads of a `Bolt11Invoice`. -/
structure Bolt11Invoice where
  paymentHash : String
  /-- The description, where it is a hash. -/
  descriptionHash : Option String
  amountMilliSatoshis : Option Nat
  /-- `expires_at`, in milliseconds since the epoch. -/
  expiresAt : Option Nat
deriving DecidableEq

/-- `as_standardized` of a Nostr tag, for the kinds the server looks for. -/
inductive TagStandard
  | bolt11 (invoice : String)
  | preimage (preimage : String)
  | relays (relays : List String)
  | amount (millisats : Nat)
  | publicKey (key : String) (uppercase : Bool)
  | description (text : String)
deriving DecidableEq

structure NostrTag where
  values : List String
  standardized : Option TagStandard
deriving DecidableEq

structure NostrEvent where
  kind : Nat
  pubkey : String
  tags : List NostrTag
  /-- `as_json`. -/
  json : String
deriving DecidableEq

namespace NostrEvent

/-- `Kind::ZapRequest`. -/
def zapRequestKind : Nat := 9734

/-- `Kind::ZapReceipt`. -/
def zapReceiptKind : Nat := 9735

end NostrEvent

/-- The first tag of a kind, `tags.iter().find_map(..)`. -/
def findBolt11 (tags : List NostrTag) : Option String :=
  tags.findSome? fun t => match t.standardized with
    | some (.bolt11 b) => some b
    | _ => none

def findPreimage (tags : List NostrTag) : Option String :=
  tags.findSome? fun t => match t.standardized with
    | some (.preimage p) => some p
    | _ => none

def findAmount (tags : List NostrTag) : Option Nat :=
  tags.findSome? fun t => match t.standardized with
    | some (.amount n) => some n
    | _ => none

/-- The relays of all `relays` tags, `limit` of them at most. -/
def relaysOf (tags : List NostrTag) (limit : Nat) : List String :=
  (tags.flatMap fun t => match t.standardized with
    | some (.relays rs) => rs
    | _ => []).take limit

/-- `SspWebhookPayload`. -/
structure SspAmount where
  value : Int
  unit : String
deriving DecidableEq

structure SspWebhookPayload where
  eventType : String
  paymentPreimage : Option String
  receiverIdentityPublicKey : Option String
  htlcAmount : Option SspAmount
deriving DecidableEq

/-- The third-party functions. -/
structure Crates where
  caseProperties : CaseProperties
  phoneNumbers : PhoneNumbers
  /-- `hex::decode`, with the text of its error. -/
  hexDecode : String → Except String Bytes
  /-- `sha256::Hash::hash(..).to_string()`. -/
  sha256 : Bytes → String
  /-- HMAC-SHA256 of a body under a secret. -/
  hmacSha256 : Bytes → Bytes → Bytes
  /-- `PublicKey::from_slice`. -/
  publicKey : Bytes → Option PublicKey
  /-- `Signature::from_der`. -/
  signature : Bytes → Option Signature
  /-- `spark_client.verify_message`. -/
  verifyMessage : String → Signature → PublicKey → Bool
  /-- `Bolt11Invoice::from_str`, with the text of its error. -/
  bolt11 : String → Except String Bolt11Invoice
  /-- `Event::from_json`. -/
  nostrEvent : String → Option NostrEvent
  /-- `Event::verify`. -/
  verifyEvent : NostrEvent → Bool
  /-- The tags `EventBuilder::zap_receipt` puts on a receipt. -/
  zapReceiptTags : String → Option String → NostrEvent → List NostrTag
  /-- A string as a JSON literal. -/
  jsonString : String → String
  /-- `serde_json::from_slice::<SspWebhookPayload>`. -/
  sspWebhookPayload : Bytes → Option SspWebhookPayload

/-- NIP-57 as `EventBuilder::zap_receipt` implements it: the receipt carries
the invoice it is given, and the preimage if it is given one. -/
structure Crates.ZapReceipts (crates : Crates) : Prop where
  bolt11 : ∀ b p request, findBolt11 (crates.zapReceiptTags b p request) = some b
  preimage : ∀ b p request, findPreimage (crates.zapReceiptTags b p request) = p

/-- The fields of `State` that the handlers read, and the crates. -/
structure State where
  crates : Crates
  sparkEnabled : Bool
  blinkEnabled : Bool
  /-- `blink_status_enabled` of the provider registry. -/
  blinkStatusEnabled : Bool
  scheme : String
  callbackDomain : Option String
  minSendable : Nat
  maxSendable : Nat
  includeSparkAddress : Bool
  /-- The x-only public key of the server's Nostr keys, if configured. -/
  nostrKeys : Option String
  webhookSecret : String
  webhookDeliveryTtlDays : Nat

/-! ## Responses -/

/-- The bodies of error responses. -/
inductive ErrorBody
  /-- `Value::String`. -/
  | text (message : String)
  /-- An object with an `error` field. -/
  | error (message : String)
  /-- An object with `status` `ERROR` and a `reason` field. -/
  | lnurl (reason : String)
deriving DecidableEq, Repr

structure ApiError where
  status : Nat
  body : ErrorBody
deriving DecidableEq, Repr

namespace ApiError

def badRequest (message : String) : ApiError := ⟨400, .text message⟩

def notFound (message : String) : ApiError := ⟨404, .text message⟩

def conflict (message : String) : ApiError := ⟨409, .text message⟩

def internalServerError : ApiError := ⟨500, .text "internal server error"⟩

/-- `lnurl_error`: LNURL errors are sent with status 200. -/
def lnurlError (reason : String) : ApiError := ⟨200, .lnurl reason⟩

end ApiError

end BlinkLnurl
