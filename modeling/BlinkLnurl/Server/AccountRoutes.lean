import BlinkLnurl.Server.Requests

/-!
# Routes that write accounts

`register`, `transfer`, `unregister` and `set_mode` of `routes/account.rs`, the
routes of `routes/internal.rs` that write, and the two background tasks that
write account tables: the pruner of statement claims and the refresh of
country evidence. The refresh that `register` spawns is a request of its own
here, so it may run at any time.
-/

namespace BlinkLnurl

open Conc RustStr

/-! ## Register -/

structure RegisterLnurlPayRequest where
  username : String
  signature : String
  timestamp : UInt64
  description : String

structure LightningAddress where
  lnurl : String
  lightningAddress : String
deriving DecidableEq

def lightningAddressOf (username domain : String) : LightningAddress :=
  { lnurl := "lnurlp://" ++ domain ++ "/lnurlp/" ++ username
    lightningAddress := username ++ "@" ++ domain }

/-- What the pre-v2 SDK sends when the app passes no description. -/
def defaultDescription (username domain : String) : String :=
  "Pay to " ++ username ++ "@" ++ domain

def registerCandidates (crates : Crates) (domain username description : String)
    (timestamp : UInt64) : List Candidate :=
  [Candidate.breezV2 (SignedMessage.register crates domain username description timestamp)
    .register,
    Candidate.legacy (SignedMessage.legacyTimestamped username timestamp) .register]

/-- The registration a verified request asks for. -/
def newRegistration (crates : Crates) (pubkey : PublicKey) (domain username : String)
    (payload : RegisterLnurlPayRequest) (authorization : Candidate) : NewSparkRegistration :=
  { accountId := none
    pubkey := pubkey.hex
    identifier :=
      { domain
        identifier := username
        identifierKind := .username
        description :=
          -- a legacy signature does not cover the description
          if authorization.format = .legacy then defaultDescription username domain
          else payload.description }
    claim := some (statementClaim crates pubkey domain authorization payload.timestamp) }

def register (state : State) (host : Host) (pubkey : String) (payload : RegisterLnurlPayRequest) :
    Handler LightningAddress := do
  .ofExcept (requireSparkProviderEnabled state)
  let username ← .ofExcept (canonicalSparkUsernameForRoute state.crates payload.username)
  .ofExcept (validateDescription payload.description)
  let domain ← sanitizeDomain state.crates host.text
  let signed ← .ofExcept (parseSignedRequest state.crates pubkey payload.signature)
  checkTimestamp payload.timestamp
  let authorization ← .ofExcept (verifyCandidates state.crates signed.1 signed.2
    (registerCandidates state.crates domain username payload.description payload.timestamp)
    (some domain))
  let storedMode ← storedAccountMode signed.1.hex
  Prog.require (storedMode ≠ some .anon) enhancedModeRequired
  (Store.account (.upsertSparkRegistration
    (newRegistration state.crates signed.1 domain username payload authorization))).mapError
    sparkRegistrationError
  return lightningAddressOf username domain

/-! ## Transfer -/

structure TransferLnurlPayRequest where
  username : String
  description : String
  fromPubkey : String
  fromSignature : String
  toSignature : String
  timestamp : Option UInt64

def transferRequiresV2 : ApiError :=
  .badRequest "transfer requires a timestamped breez-lnurl:v2 authorization"

def transferExpired : ApiError :=
  .badRequest "transfer authorization is expired or not yet valid"

def samePubkeys : ApiError := .badRequest "transfer source and target are the same pubkey"

def transferFromCandidates (domain username : String) (fromPubkey toPubkey : PublicKey)
    (timestamp : UInt64) : List Candidate :=
  [.breezV2 (SignedMessage.transferFrom domain username fromPubkey.hex toPubkey.hex timestamp)
    .transfer]

def transferToCandidates (crates : Crates) (domain username : String)
    (fromPubkey toPubkey : PublicKey) (description : String) (timestamp : UInt64) :
    List Candidate :=
  [.breezV2 (SignedMessage.transferTo crates domain username fromPubkey.hex toPubkey.hex description
    timestamp) .transfer]

def transfer (state : State) (host : Host) (toPubkey : String) (payload : TransferLnurlPayRequest) :
    Handler LightningAddress := do
  .ofExcept (requireSparkProviderEnabled state)
  let username ← .ofExcept (canonicalSparkUsernameForRoute state.crates payload.username)
  .ofExcept (validateDescription payload.description)
  let domain ← sanitizeDomain state.crates host.text
  let source ← .ofExcept (parseSignedRequest state.crates payload.fromPubkey payload.fromSignature)
  let target ← .ofExcept (parseSignedRequest state.crates toPubkey payload.toSignature)
  let timestamp ← .ofExcept (match payload.timestamp with
    | some timestamp => .ok timestamp
    | none => .error transferRequiresV2)
  (checkTimestamp timestamp).mapError fun _ => transferExpired
  let authorization ← .ofExcept (verifyCandidates state.crates source.1 source.2
    (transferFromCandidates domain username source.1 target.1 timestamp) (some domain))
  let _ ← .ofExcept (verifyCandidates state.crates target.1 target.2
    (transferToCandidates state.crates domain username source.1 target.1 payload.description
      timestamp)
    (some domain))
  -- the current owner's statement is the one claimed
  let claim := statementClaim state.crates source.1 domain authorization timestamp
  Prog.require (source.1 ≠ target.1) samePubkeys
  let storedMode ← storedAccountMode target.1.hex
  Prog.require (storedMode ≠ some .anon) enhancedModeRequired
  let resolved ← (Store.account (.resolveRecipientByIdentifier domain username)).mapError
    sparkTransferError
  let recipient ← .ofExcept (match resolved with
    | some recipient => .ok recipient
    | none => .error (sparkTransferError .sourceNotOwner))
  Prog.require (recipient.sparkPubkey = some source.1.hex) (sparkTransferError .sourceNotOwner)
  (Store.account (.transferIdentifier
    { domain
      identifier := username
      sourceAccountId := recipient.accountId
      destinationSparkPubkey := target.1.hex
      description := payload.description
      claim := some claim })).mapError sparkTransferError
  -- a failure here is only logged
  let _ ← (Store.account (.setSparkModeEnhancedIfUnset target.1.hex)).attempt
  return lightningAddressOf username domain

/-! ## Unregister -/

structure UnregisterLnurlPayRequest where
  username : String
  signature : String
  timestamp : UInt64

def unregisterCandidates (domain username : String) (timestamp : UInt64) : List Candidate :=
  [.breezV2 (SignedMessage.unregister domain username timestamp) .unregister]

def unregister (state : State) (host : Host) (pubkey : String)
    (payload : UnregisterLnurlPayRequest) : Handler Unit := do
  .ofExcept (requireSparkProviderEnabled state)
  let username ← .ofExcept (canonicalSparkUsernameForRoute state.crates payload.username)
  let domain ← sanitizeDomain state.crates host.text
  let signed ← .ofExcept (parseSignedRequest state.crates pubkey payload.signature)
  checkTimestamp payload.timestamp
  let authorization ← .ofExcept (verifyCandidates state.crates signed.1 signed.2
    (unregisterCandidates domain username payload.timestamp) (some domain))
  let _ ← (Store.account (.getAccountBySparkPubkey signed.1.hex)).mapError storageError
  let claim := statementClaim state.crates signed.1 domain authorization payload.timestamp
  (Store.account (.deleteSparkRegistration domain signed.1.hex username (some claim))).mapError
    sparkUnregisterError

/-! ## Mode -/

structure SetLnurlPayModeRequest where
  mode : String
  signature : String
  timestamp : UInt64

def parseAccountMode (mode : String) : Except ApiError AccountMode :=
  match trim mode with
  | "enhanced" => .ok .enhanced
  | "anon" => .ok .anon
  | _ => .error (.badRequest "invalid_mode")

/-- `MODE_MAX_FUTURE_SKEW_SECS`. -/
def modeMaxFutureSkewSecs : Int := 30

def modeCandidates (domain : String) (pubkey : PublicKey) (pathPubkey : String) (mode : AccountMode)
    (timestamp : UInt64) : List Candidate :=
  [.blinkV1 (SignedMessage.blinkMode domain pubkey.hex mode.asStr timestamp) .mode,
    .legacy (SignedMessage.legacyTimestamped ("mode:" ++ mode.asStr ++ ":" ++ pathPubkey) timestamp)
      .mode]

def ensureSparkAccount (pubkey : String) : Store Unit := do
  let stored ← Store.account (.sparkAccountIdByPubkey pubkey)
  match stored with
  | some _ => return ()
  | none => Store.account (.insertSparkAccount pubkey)

/-- `upsert_spark_mode` is not one transaction: other requests run between its
statements. -/
def upsertSparkMode (update : SparkModeUpdate) : Store Unit := do
  ensureSparkAccount update.pubkey
  let updated ← Store.account (.updateSparkMode update)
  if updated then return ()
  else do
    let record ← Store.account (.getSparkAccountMode update.pubkey)
    .ofExcept (classifyRefusedModeWrite record update)

def setMode (state : State) (host : Host) (pubkey : String) (payload : SetLnurlPayModeRequest) :
    Handler String := do
  .ofExcept (requireSparkProviderEnabled state)
  let mode ← .ofExcept (parseAccountMode payload.mode)
  let withinLimit ← env .ipRateLimit
  Prog.require (withinLimit = true) ⟨429, .text "rate_limited"⟩
  let domain ← sanitizeDomain state.crates host.text
  let signed ← .ofExcept (parseSignedRequest state.crates pubkey payload.signature)
  checkTimestamp payload.timestamp
  let _ ← .ofExcept (verifyCandidates state.crates signed.1 signed.2
    (modeCandidates domain signed.1 pubkey mode payload.timestamp) (some domain))
  Prog.require (payload.timestamp.toNat < 2 ^ 63) (.badRequest "invalid timestamp")
  let now ← now
  Prog.require ((payload.timestamp.toNat : Int) ≤ now + modeMaxFutureSkewSecs)
    (.badRequest "mode_timestamp_in_future")
  let country ← (match mode with
    | .enhanced => env .resolveCountry
    | .anon => return none)
  (upsertSparkMode
    { pubkey := signed.1.hex
      mode
      clientTimestamp := payload.timestamp.toNat
      country }).mapError sparkModeError
  return mode.asStr

/-! ## Internal routes -/

/-- The scopes of a verified internal token. -/
structure InternalPrincipal where
  scopes : List String

def internalError (status : Nat) (message : String) : ApiError := ⟨status, .error message⟩

def internalBadRequest (message : String) : ApiError := internalError 400 message

def requireScope (principal : InternalPrincipal) (scope : String) : Except ApiError Unit :=
  if scope ∈ principal.scopes then .ok () else .error (internalError 403 "forbidden")

def requireInternalProviderEnabled (enabled : Bool) : Except ApiError Unit :=
  if enabled then .ok () else .error (internalError 503 "provider_disabled")

def validateInternalDomain (crates : Crates) (domain : String) : Except ApiError String :=
  let domain := lowercase crates (trim domain)
  if domain = "" then .error (internalBadRequest "invalid_request") else .ok domain

def validateInternalRequiredString (value : String) : Except ApiError String :=
  let value := trim value
  if value = "" then .error (internalBadRequest "invalid_request") else .ok value

def validateInternalDescription (description : String) : Except ApiError String :=
  match validateInternalRequiredString description with
  | .error e => .error e
  | .ok description =>
      match validateDescription description with
      | .ok () => .ok description
      | .error _ => .error (internalBadRequest "invalid_request")

def parseInternalDefaultWallet (crates : Crates) (wallet : String) : Except ApiError WalletKind :=
  match lowercase crates (trim wallet) with
  | "btc" => .ok .btc
  | "usd" => .ok .usd
  | _ => .error (internalBadRequest "invalid_request")

def parseInternalIdentifier (crates : Crates) (identifier : String) :
    Except ApiError ParsedIdentifier :=
  match parsePublicIdentifier crates.caseProperties crates.phoneNumbers identifier with
  | .error _ => .error (internalBadRequest "invalid_identifier")
  | .ok parsed =>
      if parsed.wallet.isSome then .error (internalBadRequest "wallet_modifier_not_allowed")
      else .ok parsed

def internalAccountCreationError : RepositoryError → ApiError
  | .blinkAccountExists => internalError 409 "blink_account_exists"
  | .identifierConflict => internalError 409 "identifier_conflict"
  | .nameTaken => internalError 409 "identifier_conflict"
  | _ => internalError 500 "internal_server_error"

def internalAccountUpdateError : RepositoryError → ApiError
  | .accountNotFound => internalError 404 "not_found"
  | _ => internalError 500 "internal_server_error"

def internalTransferToSparkError : RepositoryError → ApiError
  | .sourceNotOwner => internalError 404 "not_found"
  | .accountNotFound => internalError 404 "not_found"
  | .invalidOwnership => internalError 409 "invalid_request"
  | .invalidProvider => internalError 409 "invalid_request"
  | .identifierConflict => internalError 409 "identifier_conflict"
  | .nameTaken => internalError 409 "identifier_conflict"
  | _ => internalError 500 "internal_server_error"

structure InternalTransferToSparkRequest where
  domain : String
  identifier : String
  destinationSparkPubkey : String
  description : String

structure InternalTransferToSparkResponse where
  domain : String
  identifier : String
  provider : AccountProvider
  sparkPubkey : String
  address : LightningAddress
deriving DecidableEq

/-- `none` for a body that is no such JSON. -/
def parseBody {α : Type} (body : Option α) : Except ApiError α :=
  match body with
  | some payload => .ok payload
  | none => .error (internalBadRequest "invalid_request")

def transferIdentifierToSpark (state : State) (principal : InternalPrincipal)
    (body : Option InternalTransferToSparkRequest) : Handler InternalTransferToSparkResponse := do
  .ofExcept (requireScope principal "blink:transfers:write")
  .ofExcept (requireInternalProviderEnabled (state.sparkEnabled && state.blinkEnabled))
  let payload ← .ofExcept (parseBody body)
  let domain ← .ofExcept (validateInternalDomain state.crates payload.domain)
  let parsed ← .ofExcept (parseInternalIdentifier state.crates payload.identifier)
  let destination ← .ofExcept (validateInternalRequiredString payload.destinationSparkPubkey)
  let destination ← .ofExcept ((parsePubkey state.crates destination).mapError fun _ =>
    internalBadRequest "invalid_request")
  let description ← .ofExcept (validateInternalDescription payload.description)
  let resolved ← (Store.account (.resolveRecipientByIdentifier domain parsed.canonical)).mapError
    internalTransferToSparkError
  let source ← .ofExcept (match resolved with
    | some source => .ok source
    | none => .error (internalTransferToSparkError .sourceNotOwner))
  Prog.require (source.provider = .blink) (internalTransferToSparkError .invalidOwnership)
  (Store.account (.transferBlinkIdentifierToSpark
    { domain
      identifier := parsed.canonical
      sourceAccountId := source.accountId
      destinationSparkPubkey := destination.hex
      description })).mapError internalTransferToSparkError
  let _ ← (Store.account (.setSparkModeEnhancedIfUnset destination.hex)).attempt
  return {
    domain
    identifier := parsed.canonical
    provider := .spark
    sparkPubkey := destination.hex
    address := lightningAddressOf parsed.canonical domain }

structure CreateBlinkAccountRequest where
  domain : String
  blinkAccountId : String
  btcWalletId : String
  usdWalletId : String
  defaultWallet : String
  description : String
  identifiers : List String

def accountIdentifierKind : IdentifierKind → AccountIdentifierKind
  | .username => .username
  | .phone => .phone

/-- The loop over the identifiers; `seen` are the ones before, in reverse. -/
def newIdentifiers (crates : Crates) (domain description : String) :
    List String → List NewAccountIdentifier → Except ApiError (List NewAccountIdentifier)
  | [], seen => .ok seen.reverse
  | raw :: rest, seen =>
      match parseInternalIdentifier crates raw with
      | .error e => .error e
      | .ok parsed =>
          if seen.any (fun ident => ident.identifier = parsed.canonical) then
            .error (internalBadRequest "invalid_request")
          else
            newIdentifiers crates domain description rest
              ({ domain
                 identifier := parsed.canonical
                 identifierKind := accountIdentifierKind parsed.kind
                 description } :: seen)

def createInternalBlinkAccount (state : State) (principal : InternalPrincipal)
    (payload : CreateBlinkAccountRequest) : Handler NewBlinkAccount := do
  .ofExcept (requireScope principal "blink:accounts:create")
  .ofExcept (requireInternalProviderEnabled state.blinkEnabled)
  let domain ← .ofExcept (validateInternalDomain state.crates payload.domain)
  let blinkAccountId ← .ofExcept (validateInternalRequiredString payload.blinkAccountId)
  let btcWalletId ← .ofExcept (validateInternalRequiredString payload.btcWalletId)
  let usdWalletId ← .ofExcept (validateInternalRequiredString payload.usdWalletId)
  let description ← .ofExcept (validateInternalDescription payload.description)
  Prog.require (payload.identifiers ≠ []) (internalBadRequest "invalid_request")
  let defaultWallet ← .ofExcept (parseInternalDefaultWallet state.crates payload.defaultWallet)
  let identifiers ← .ofExcept
    (newIdentifiers state.crates domain description payload.identifiers [])
  let accountId ← env .generateAccountId
  let account : NewBlinkAccount :=
    { accountId := some accountId, blinkAccountId, btcWalletId, usdWalletId, defaultWallet
      identifiers }
  (Store.account (.createBlinkAccount account)).mapError internalAccountCreationError
  return account

structure UpdateBlinkAccountRequest where
  defaultWallet : String

def updateInternalBlinkAccount (state : State) (principal : InternalPrincipal)
    (blinkAccountId : String) (body : Option UpdateBlinkAccountRequest) :
    Handler UpdatedBlinkAccount := do
  .ofExcept (requireScope principal "blink:accounts:update")
  .ofExcept (requireInternalProviderEnabled state.blinkEnabled)
  let payload ← .ofExcept (parseBody body)
  let blinkAccountId ← .ofExcept (validateInternalRequiredString blinkAccountId)
  let defaultWallet ← .ofExcept (parseInternalDefaultWallet state.crates payload.defaultWallet)
  (Store.account (.updateBlinkDefaultWallet blinkAccountId defaultWallet)).mapError
    internalAccountUpdateError

/-! ## Background tasks -/

/-- One tick of `spawn_signed_message_pruner`. -/
def pruneSignedMessages : Handler Unit := do
  let now ← now
  let _ ← (Store.account (.deleteExpiredSignedMessages now)).attempt
  return ()

/-- The task of `spawn_country_evidence_refresh`. -/
def refreshCountryEvidence (pubkey : String) : Handler Unit := do
  let withinLimit ← env .ipRateLimit
  if withinLimit then do
    let country ← env .resolveCountry
    match country with
    | some country => do
        let _ ← (Store.account (.refreshSparkCountryEvidence pubkey country)).attempt
        return ()
    | none => return ()
  else return ()

end BlinkLnurl
