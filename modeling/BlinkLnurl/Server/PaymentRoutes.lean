import BlinkLnurl.Server.Settlement

/-!
# Routes of a payment

`routes/lnurl_pay.rs` and `routes/webhook.rs`: public discovery, the invoice
callback, LUD-21 verify, the notifications of the clients and the webhooks of
the providers. `/webhook/blink` and `/verify` are public.
-/

namespace BlinkLnurl

open Conc RustStr

/-! ## Public identifiers -/

structure PublicIdentifierIntent where
  canonical : String
  wallet : Option WalletKind
  callbackIdentifier : String
deriving DecidableEq

def walletModifierToKind : WalletModifier → WalletKind
  | .btc => .btc
  | .usd => .usd

/-- `identifier+btc`, `identifier+usd` or the identifier alone. -/
def callbackIdentifier (parsed : ParsedIdentifier) : String :=
  match parsed.wallet with
  | some .btc => parsed.canonical ++ "+btc"
  | some .usd => parsed.canonical ++ "+usd"
  | none => parsed.canonical

/-- `sanitize_username`: trimmed and lowercased. -/
def sanitizeUsername (crates : Crates) (username : String) : String :=
  lowercase crates (trim username)

def isPhoneLikePublicIdentifier (identifier : String) : Bool :=
  startsWith "+" identifier || startsWith "00" identifier || identifier.toList.all isAsciiDigit

def isLegacySparkLookupCandidate (identifier : String) : Bool :=
  !isPhoneLikePublicIdentifier identifier && !((identifier.toList.drop 1).any fun c => c == '+')

def parsePublicIdentifierForPublicRoute (crates : Crates) (identifier : String) :
    Except IdentifierError (Option PublicIdentifierIntent) :=
  let trimmed := trim identifier
  if trimmed = "" then .error .emptyIdentifier
  else
    match parsePublicIdentifier crates.caseProperties crates.phoneNumbers trimmed with
    | .ok parsed =>
        .ok (some
          { canonical := parsed.canonical
            wallet := parsed.wallet.map walletModifierToKind
            callbackIdentifier := callbackIdentifier parsed })
    | .error e =>
        if e = .invalidUsername ∧ isLegacySparkLookupCandidate trimmed then
          .ok (some
            { canonical := sanitizeUsername crates trimmed
              wallet := none
              callbackIdentifier := sanitizeUsername crates trimmed })
        else if e = .invalidPhoneNumber ∧ isPhoneLikePublicIdentifier trimmed then .ok none
        else .error e

structure PublicRecipient where
  recipient : ResolvedRecipient
  wallet : Option WalletKind
  callbackIdentifier : String
deriving DecidableEq

def resolvePublicRecipient (domain : String) (intent : PublicIdentifierIntent) :
    Handler (Option PublicRecipient) := do
  let recipient ← (Store.account (.resolveRecipientByIdentifier domain intent.canonical)).mapError
    fun _ => .lnurlError "internal server error"
  return recipient.map fun recipient =>
    { recipient, wallet := intent.wallet, callbackIdentifier := intent.callbackIdentifier }

/-- The public recipient of an identifier on a domain: parsed, resolved, or
refused with the error `missing`. -/
def publicRecipient (crates : Crates) (domain identifier : String) (missing : ApiError) :
    Handler PublicRecipient := do
  let parsed ← .ofExcept ((parsePublicIdentifierForPublicRoute crates identifier).mapError fun _ =>
    .lnurlError "invalid identifier")
  let intent ← .ofExcept (match parsed with
    | some intent => .ok intent
    | none => .error (.notFound ""))
  let recipient ← resolvePublicRecipient domain intent
  .ofExcept (match recipient with
    | some recipient => .ok recipient
    | none => .error missing)

/-! ## Discovery -/

def publicRecipientWallet (r : PublicRecipient) : Option WalletKind :=
  r.wallet.or r.recipient.defaultWallet

def isBlinkUsdRecipient (r : PublicRecipient) : Bool :=
  r.recipient.provider = .blink && publicRecipientWallet r = some .usd

/-- `BLINK_USD_MIN_SENDABLE_FALLBACK_MSAT`. -/
def blinkUsdMinSendableFallbackMsat : Nat := 50000

def resolveMinSendableMsat (state : State) (r : PublicRecipient) : Handler Nat :=
  if isBlinkUsdRecipient r then do
    let answer ← env .blinkUsdMinSendable
    return max (answer.getD blinkUsdMinSendableFallbackMsat) state.minSendable
  else return state.minSendable

def buildCallbackUrl (state : State) (recipientDomain callbackIdentifier : String) : String :=
  match state.callbackDomain with
  | some callbackDomain =>
      state.scheme ++ "://" ++ callbackDomain ++ "/lnurlp/" ++ recipientDomain ++ "/" ++
        callbackIdentifier ++ "/invoice"
  | none =>
      state.scheme ++ "://" ++ recipientDomain ++ "/lnurlp/" ++ callbackIdentifier ++ "/invoice"

def buildVerifyUrl (state : State) (recipientDomain paymentHash : String) : String :=
  state.scheme ++ "://" ++ state.callbackDomain.getD recipientDomain ++ "/verify/" ++ paymentHash

/-- The LNURL metadata: an array of two arrays of JSON strings. -/
def getMetadataForRecipient (crates : Crates) (recipient : ResolvedRecipient)
    (requestedIdentifier : String) : String :=
  "[[\"text/plain\"," ++ crates.jsonString recipient.description ++ "],[\"text/identifier\"," ++
    crates.jsonString (requestedIdentifier ++ "@" ++ recipient.domain) ++ "]]"

/-- `MAX_COMMENT_LENGTH`. -/
def maxCommentLength : Nat := 255

/-- `MAX_NOSTR_EVENT_SIZE`. -/
def maxNostrEventSize : Nat := 32768

/-- `MAX_NOSTR_RELAYS`. -/
def maxNostrRelays : Nat := 10

structure PayResponse where
  callback : String
  maxSendable : Nat
  minSendable : Nat
  metadata : String
  commentAllowed : Nat
  nostrPubkey : Option String
deriving DecidableEq

def handleLnurlPay (state : State) (host : Host) (identifier : String) : Handler PayResponse := do
  Prog.require (identifier ≠ "") (.notFound "")
  let domain ← sanitizeDomain state.crates host.text
  let recipient ← publicRecipient state.crates domain identifier
    (.lnurlError ("Couldn't find user '" ++ identifier ++ "'."))
  let minSendable ← resolveMinSendableMsat state recipient
  Prog.require (minSendable ≤ state.maxSendable) (.lnurlError "internal server error")
  return {
    callback := buildCallbackUrl state domain recipient.callbackIdentifier
    maxSendable := state.maxSendable
    minSendable
    metadata := getMetadataForRecipient state.crates recipient.recipient
      recipient.callbackIdentifier
    commentAllowed := maxCommentLength
    nostrPubkey := state.nostrKeys }

/-! ## The invoice callback -/

structure LnurlPayCallbackParams where
  amount : Option Nat
  comment : Option String
  nostr : Option String
  expiry : Option Nat

/-- `BLINK_BTC_EXPIRY_LIMIT_SECS` and `BLINK_USD_EXPIRY_LIMIT_SECS`. -/
def blinkExpiryLimitSecs : WalletKind → Nat
  | .btc => 86400
  | .usd => 300

/-- Spark takes seconds, Blink minutes. -/
def callbackExpiryForProvider (provider : AccountProvider)
    (requestedWallet defaultWallet : Option WalletKind) (expirySecs : Option Nat) :
    Except ApiError (Option Nat) :=
  if provider ≠ .blink then .ok expirySecs
  else
    match expirySecs, requestedWallet.or defaultWallet with
    | none, _ => .ok none
    | some _, none => .error (.lnurlError "internal server error")
    | some seconds, some wallet =>
        if seconds > blinkExpiryLimitSecs wallet then .error (.lnurlError "expiry too long")
        else .ok (some ((seconds + 59) / 60))

def mapProviderInvoiceError : ProviderError → ApiError
  | .unsupportedWallet => .lnurlError "unsupported wallet"
  | .invoiceCreationFailed => .lnurlError "invoice creation failed"
  | .other => .lnurlError "internal server error"

/-- The number of tags named by one lowercase letter. -/
def countTags (name : String) (tags : List NostrTag) : Nat :=
  tags.countP fun t => t.values.head? = some name

def hasRelays (tags : List NostrTag) : Bool :=
  tags.any fun t => match t.standardized with
    | some (.relays _) => true
    | _ => false

/-- NIP-57's checks of a zap request; all of them fail alike. -/
def isValidNostrZapRequest (crates : Crates) (amountMsat : Nat) (event : NostrEvent) : Bool :=
  event.kind = NostrEvent.zapRequestKind && crates.verifyEvent event && !event.tags.isEmpty &&
    countTags "p" event.tags == 1 && countTags "e" event.tags ≤ 1 && hasRelays event.tags &&
    (findAmount event.tags).all fun millisats => millisats = amountMsat

/-- The description the invoice has to commit to. -/
def invoiceDescription (state : State) (recipient : PublicRecipient)
    (params : LnurlPayCallbackParams) (amountMsat : Nat) : Except ApiError String :=
  match params.nostr with
  | none =>
      .ok (getMetadataForRecipient state.crates recipient.recipient recipient.callbackIdentifier)
  | some rawEvent =>
      if state.nostrKeys = none then .error (.lnurlError "nostr zap not supported")
      else if byteLen rawEvent > maxNostrEventSize then .error (.lnurlError "nostr event too large")
      else
        match state.crates.nostrEvent rawEvent with
        | none => .error (.lnurlError "invalid nostr event")
        | some event =>
            if isValidNostrZapRequest state.crates amountMsat event then .ok rawEvent
            else .error (.lnurlError "invalid nostr event")

/-- The checks of the parameters before anything is asked of a provider: the
amount in millisatoshis. -/
def checkCallbackParams (state : State) (params : LnurlPayCallbackParams) : Except ApiError Nat :=
  match params.amount with
  | none => .error (.lnurlError "missing amount")
  | some amountMsat =>
      if amountMsat % 1000 ≠ 0 then .error (.lnurlError "amount must be a whole sat amount")
      else if amountMsat < state.minSendable then .error (.lnurlError "amount out of range")
      else if amountMsat > state.maxSendable then .error (.lnurlError "amount out of range")
      else if params.comment.any (fun c => byteLen (trim c) > maxCommentLength) then
        .error (.lnurlError "comment too long")
      else .ok amountMsat

/-- The checks of the invoice a provider returned: the invoice, and its expiry
in seconds. -/
def checkProviderInvoice (crates : Crates) (bolt11 descriptionHash : String) (amountMsat : Nat) :
    Except ApiError (Bolt11Invoice × Int) :=
  match crates.bolt11 bolt11 with
  | .error _ => .error (.lnurlError "internal server error")
  | .ok invoice =>
      if invoice.descriptionHash ≠ some descriptionHash then
        .error (.lnurlError "internal server error")
      else if invoice.amountMilliSatoshis ≠ some amountMsat then
        .error (.lnurlError "internal server error")
      else
        match invoice.expiresAt with
        | none => .error (.lnurlError "internal server error")
        | some millis =>
            if millis / 1000 < 2 ^ 63 then .ok (invoice, (millis / 1000 : Nat))
            else .error (.lnurlError "internal server error")

def storeZap (paymentHash accountId userPubkey : String) (invoiceExpiry updatedAt : Int)
    (nostr : Option String) : Store Unit :=
  match nostr with
  | some zapRequest =>
      Store.payment (.upsertZap
        { accountId := some accountId
          paymentHash
          zapRequest
          zapEvent := none
          userPubkey
          invoiceExpiry
          updatedAt
          isUserNostrKey := false })
  | none => return ()

def storeComment (paymentHash accountId userPubkey : String) (updatedAt : Int)
    (comment : Option String) : Store Unit :=
  match comment with
  | some comment =>
      if trim comment = "" then return ()
      else
        Store.payment (.insertLnurlSenderComment
          { accountId := some accountId, comment := trim comment, paymentHash, userPubkey,
            updatedAt })
  | none => return ()

/-- The zap and comment rows, stored before the invoice row. -/
def storeZapAndComment (paymentHash accountId userPubkey : String) (invoiceExpiry updatedAt : Int)
    (params : LnurlPayCallbackParams) : Store Unit := do
  storeZap paymentHash accountId userPubkey invoiceExpiry updatedAt params.nostr
  storeComment paymentHash accountId userPubkey updatedAt params.comment

/-- Anon mode refuses invoices; an unreadable mode refuses them as well. -/
def requireReceiving (recipient : PublicRecipient) : Handler Unit :=
  match recipient.recipient.sparkPubkey with
  | some pubkey => do
      let mode ← (storedAccountMode pubkey).mapError fun _ => .lnurlError "internal server error"
      Prog.require (mode ≠ some .anon) (.lnurlError "recipient not accepting payments")
  | none => return ()

structure InvoiceResponse where
  pr : String
  verify : String
deriving DecidableEq

def handleInvoiceForResolvedDomain (state : State) (domain identifier : String)
    (params : LnurlPayCallbackParams) : Handler InvoiceResponse := do
  Prog.require (identifier ≠ "") (.notFound "")
  let recipient ← publicRecipient state.crates domain identifier (.notFound "")
  requireReceiving recipient
  let accountId := recipient.recipient.accountId
  let legacyUserPubkey := recipient.recipient.sparkPubkey.getD ""
  let amountMsat ← .ofExcept (checkCallbackParams state params)
  let description ← .ofExcept (invoiceDescription state recipient params amountMsat)
  let descHash := state.crates.sha256 (utf8 description)
  let expiry ← .ofExcept (callbackExpiryForProvider recipient.recipient.provider recipient.wallet
    recipient.recipient.defaultWallet params.expiry)
  let minSendable ← resolveMinSendableMsat state recipient
  Prog.require (minSendable ≤ amountMsat) (.lnurlError "amount out of range")
  let answer ← env (.createInvoice
    { recipient := recipient.recipient
      wallet := recipient.wallet
      amountSat := amountMsat / 1000
      descriptionHash := descHash
      expiry
      includeSparkAddress := state.includeSparkAddress })
  let res ← .ofExcept (answer.mapError mapProviderInvoiceError)
  let checked ← .ofExcept (checkProviderInvoice state.crates res.bolt11 descHash amountMsat)
  let updatedAt ← nowMillis
  let paymentHash := checked.1.paymentHash
  (storeZapAndComment paymentHash accountId legacyUserPubkey checked.2 updatedAt params).mapError
    fun _ => .lnurlError "internal server error"
  (createProviderInvoiceForAccount paymentHash accountId recipient.recipient.provider res
    legacyUserPubkey checked.2 domain).mapError fun _ => .lnurlError "internal server error"
  return { pr := res.bolt11, verify := buildVerifyUrl state domain paymentHash }

def handleInvoice (state : State) (host : Host) (identifier : String)
    (params : LnurlPayCallbackParams) : Handler InvoiceResponse := do
  Prog.require (identifier ≠ "") (.notFound "")
  let domain ← sanitizeDomain state.crates host.text
  handleInvoiceForResolvedDomain state domain identifier params

def handleInvoiceForDomain (state : State) (host : Host) (domain identifier : String)
    (params : LnurlPayCallbackParams) : Handler InvoiceResponse := do
  Prog.require (identifier ≠ "") (.notFound "")
  Prog.require (state.callbackDomain.any (fun d => eqIgnoreAsciiCase (trim host.text) d) = true)
    (.notFound "")
  let domain ← sanitizeDomain state.crates domain
  handleInvoiceForResolvedDomain state domain identifier params

/-! ## Verify -/

inductive VerifyResponse
  | error (reason : String)
  | ok (settled : Bool) (preimage : Option String) (pr : String)
deriving DecidableEq

/-- The preimage `verify` answers with: the stored one, or the one a Blink
settlement returns. -/
def verifiedPreimage (state : State) (paymentHash : String) (invoice : Invoice) :
    BlinkSettle (Option String) :=
  if invoice.preimage.isNone && invoice.expiredAt.isNone && invoice.provider = some .blink then
    settleBlinkInvoiceByPaymentHash state paymentHash none
  else return invoice.preimage

def verify (state : State) (paymentHash : String) : Handler VerifyResponse := do
  let stored ← (Store.payment (.getInvoiceByPaymentHash paymentHash)).attempt
  match stored with
  | .error _ => return .error "Internal server error"
  | .ok none => return .error "Not found"
  | .ok (some invoice) => do
      let preimage ← (verifiedPreimage state paymentHash invoice).attempt
      match preimage with
      | .error _ => return .error "Internal server error"
      | .ok preimage => return .ok preimage.isSome preimage invoice.invoice

/-! ## Notifications of clients -/

structure InvoicePaidRequest where
  signature : String
  timestamp : UInt64
  preimage : String

def invoicePaid (state : State) (pubkey : String) (payload : InvoicePaidRequest) :
    Handler Unit := do
  let pubkey ← validate state.crates pubkey payload.signature payload.preimage payload.timestamp
    .invoicePaid
  let paymentHash ← .ofExcept ((preimageHash state.crates payload.preimage).mapError fun _ =>
    .badRequest "invalid preimage")
  let stored ← (Store.payment (.getInvoiceByPaymentHash paymentHash)).mapError storageError
  Prog.require (stored.map Invoice.userPubkey = some pubkey.hex) (.notFound "invoice not found")
  (handleInvoicePaid state.crates paymentHash payload.preimage none).mapError fun _ =>
    .internalServerError

structure InvoicesPaidRequest where
  signature : String
  timestamp : UInt64
  invoices : List PaidInvoice

/-- `MAX_PREIMAGES`. -/
def maxPreimages : Nat := 100

def invoicesPaidError : HandleInvoicePaidError → ApiError
  | .invalidInvoice message => .badRequest message
  | .invalidPreimage message => .badRequest message
  | .repository _ => .internalServerError

def invoicesPaid (state : State) (pubkey : String) (payload : InvoicesPaidRequest) :
    Handler Unit := do
  Prog.require (payload.invoices ≠ []) (.badRequest "invoices must not be empty")
  Prog.require (payload.invoices.length ≤ maxPreimages)
    (.badRequest ("too many invoices, max is " ++ Text.decimal maxPreimages))
  let pubkey ← validate state.crates pubkey payload.signature pubkey payload.timestamp .invoicesPaid
  (handleInvoicesPaid state.crates payload.invoices pubkey.hex).mapError invoicesPaidError

/-! ## Webhooks -/

def missingSignature : ApiError := ⟨401, .text "missing signature"⟩

def invalidSignature : ApiError := ⟨401, .text "invalid signature"⟩

/-- The HMAC check of `process_webhook`, then the payload. -/
def authenticWebhook (state : State) (signatureHeader : Option String) (body : Bytes) :
    Except ApiError SspWebhookPayload :=
  match signatureHeader with
  | none => .error missingSignature
  | some header =>
      match state.crates.hexDecode header with
      | .error _ => .error invalidSignature
      | .ok signature =>
          if state.crates.hmacSha256 (utf8 state.webhookSecret) body ≠ signature then
            .error invalidSignature
          else
            match state.crates.sspWebhookPayload body with
            | none => .error (.badRequest "invalid payload")
            | some payload => .ok payload

/-- What a finished receive reports: the preimage and the receiver. -/
def webhookReceipt (payload : SspWebhookPayload) : Except ApiError (String × String) :=
  match payload.paymentPreimage, payload.receiverIdentityPublicKey with
  | none, _ => .error (.badRequest "missing payment_preimage")
  | some _, none => .error (.badRequest "missing receiver_identity_public_key")
  | some preimage, some receiver => .ok (preimage, receiver)

def webhookAmountSat (payload : SspWebhookPayload) : Option Int :=
  payload.htlcAmount.bind fun amount =>
    if amount.unit = "SATOSHI" then some amount.value
    -- `/` on `i64` truncates
    else if amount.unit = "MILLISATOSHI" then some (amount.value.tdiv 1000)
    else none

def webhook (state : State) (signatureHeader : Option String) (body : Bytes) : Handler Unit := do
  let payload ← .ofExcept (authenticWebhook state signatureHeader body)
  if payload.eventType ≠ "SPARK_LIGHTNING_RECEIVE_FINISHED" then return ()
  else do
    let receipt ← .ofExcept (webhookReceipt payload)
    let paymentHash ← .ofExcept ((preimageHash state.crates receipt.1).mapError fun _ =>
      .badRequest "invalid preimage")
    let stored ← (Store.payment (.getInvoiceByPaymentHash paymentHash)).mapError storageError
    if stored.map Invoice.userPubkey = some receipt.2 then
      (handleInvoicePaid state.crates paymentHash receipt.1 (webhookAmountSat payload)).mapError
        fun _ => .internalServerError
    else return ()

inductive BlinkInvoiceWebhookStatus
  | paid
  | expired
deriving DecidableEq, Repr

structure BlinkInvoiceWebhookPayload where
  paymentHash : String
  paymentPreimage : Option String
  paymentRequest : Option String
  status : BlinkInvoiceWebhookStatus

def validateBlinkPaymentRequestHash (crates : Crates) (paymentHash : String)
    (paymentRequest : Option String) : Except ApiError Unit :=
  match paymentRequest with
  | none => .ok ()
  | some paymentRequest =>
      match crates.bolt11 paymentRequest with
      | .error _ => .error (.badRequest "invalid paymentRequest")
      | .ok invoice =>
          if invoice.paymentHash ≠ paymentHash then
            .error (.badRequest "paymentRequest hash mismatch")
          else .ok ()

def blinkWebhookSettlementError : BlinkSettlementError → ApiError
  | .invoicePaid (.invalidInvoice _) => .badRequest "invalid payload"
  | .invoicePaid (.invalidPreimage _) => .badRequest "invalid payload"
  | _ => .internalServerError

def blinkWebhook (state : State) (payload : BlinkInvoiceWebhookPayload) : Handler Unit := do
  .ofExcept (validateBlinkPaymentRequestHash state.crates payload.paymentHash
    payload.paymentRequest)
  match payload.status with
  | .paid => do
      let _ ← (settleBlinkInvoiceByPaymentHash state payload.paymentHash
        payload.paymentPreimage).mapError blinkWebhookSettlementError
      return ()
  | .expired =>
      (expireBlinkInvoiceByPaymentHash state payload.paymentHash).mapError
        blinkWebhookSettlementError

end BlinkLnurl
