import BlinkLnurl.Lib.Table

/-!
# Rows, arguments and errors of the repository

The tables of `migrations/` as row structures, and the arguments of the
repository trait. Columns that a `CHECK` constrains to a few values are
enumerations; timestamps and amounts are `i64` columns, kept as `Int`.

`used_signed_messages` is keyed by a SHA-256 digest; digests are kept as the
text of their hexadecimal rendering, which is also how `payment_hash` columns
hold them.
-/

namespace BlinkLnurl

inductive RepositoryError
  | identifierConflict
  | blinkAccountExists
  | accountNotFound
  | invalidOwnership
  | invalidProvider
  | invalidIdentifierKind
  | nameTaken
  | sourceNotOwner
  | invalidAccountMode
  | staleModeTimestamp
  | statementAlreadyUsed
  /-- `General`: the database failed or refused a constraint. -/
  | general
deriving DecidableEq, Repr

inductive AccountProvider
  | spark
  | blink
deriving DecidableEq, Repr

inductive AccountIdentifierKind
  | username
  | phone
deriving DecidableEq, Repr

inductive WalletKind
  | btc
  | usd
deriving DecidableEq, Repr

inductive AccountMode
  | enhanced
  | anon
deriving DecidableEq, Repr

def AccountMode.asStr : AccountMode → String
  | .enhanced => "enhanced"
  | .anon => "anon"

inductive ModeSource
  | signup
  | switch
  | migration
deriving DecidableEq, Repr

/-! ## Account tables -/

structure Account where
  accountId : String
  provider : AccountProvider
  createdAt : Int
  updatedAt : Int
deriving DecidableEq

structure AccountIdentifier where
  accountId : String
  domain : String
  identifier : String
  identifierKind : AccountIdentifierKind
  description : String
  createdAt : Int
  updatedAt : Int
deriving DecidableEq

structure SparkAccount where
  accountId : String
  pubkey : String
  mode : Option AccountMode
  modeSource : Option ModeSource
  modeUpdatedAt : Option Int
  modeLastTimestamp : Option Int
  country : Option String
  countryUpdatedAt : Option Int
  createdAt : Int
  updatedAt : Int
deriving DecidableEq

structure BlinkAccount where
  accountId : String
  blinkAccountId : String
  btcWalletId : String
  usdWalletId : String
  defaultWallet : WalletKind
  createdAt : Int
  updatedAt : Int
deriving DecidableEq

structure UsedSignedMessage where
  statementHash : String
  route : String
  expiresAt : Int
  createdAt : Int
deriving DecidableEq

instance : Rel.Keyed Account String := ⟨Account.accountId⟩

/-- The unique index over `(domain, identifier)`; the primary key
`(account_id, domain, identifier)` follows from it. -/
instance : Rel.Keyed AccountIdentifier (String × String) := ⟨fun r => (r.domain, r.identifier)⟩

instance : Rel.Keyed UsedSignedMessage String := ⟨UsedSignedMessage.statementHash⟩

instance : Rel.Schema SparkAccount where
  clash a b := a.accountId = b.accountId ∨ a.pubkey = b.pubkey
  clash_symm h := h.imp Eq.symm Eq.symm
  decidable := fun a b =>
    inferInstanceAs (Decidable (a.accountId = b.accountId ∨ a.pubkey = b.pubkey))

instance : Rel.Schema BlinkAccount where
  clash a b := a.accountId = b.accountId ∨ a.blinkAccountId = b.blinkAccountId
  clash_symm h := h.imp Eq.symm Eq.symm
  decidable := fun a b =>
    inferInstanceAs (Decidable (a.accountId = b.accountId ∨ a.blinkAccountId = b.blinkAccountId))

/-! ## Arguments and results of the account operations -/

structure SparkAccountMode where
  accountId : String
  pubkey : String
  mode : Option AccountMode
  modeSource : Option ModeSource
  modeUpdatedAt : Option Int
  modeLastTimestamp : Option Int
  country : Option String
  countryUpdatedAt : Option Int
deriving DecidableEq

structure SparkModeUpdate where
  pubkey : String
  mode : AccountMode
  clientTimestamp : Int
  country : Option String
deriving DecidableEq

/-- A signed statement a mutating route acts on, recorded so it is acted on
once. -/
structure StatementClaim where
  statementHash : String
  route : String
  expiresAt : Int
deriving DecidableEq

structure NewAccountIdentifier where
  domain : String
  identifier : String
  identifierKind : AccountIdentifierKind
  description : String
deriving DecidableEq

structure NewSparkRegistration where
  accountId : Option String
  pubkey : String
  identifier : NewAccountIdentifier
  claim : Option StatementClaim
deriving DecidableEq

def NewSparkRegistration.validate (registration : NewSparkRegistration) :
    Except RepositoryError Unit :=
  if registration.identifier.identifierKind = .phone then .error .invalidIdentifierKind else .ok ()

structure NewBlinkAccount where
  accountId : Option String
  blinkAccountId : String
  btcWalletId : String
  usdWalletId : String
  defaultWallet : WalletKind
  identifiers : List NewAccountIdentifier
deriving DecidableEq

structure UpdatedBlinkAccount where
  accountId : String
  blinkAccountId : String
  defaultWallet : WalletKind
deriving DecidableEq

structure IdentifierTransfer where
  domain : String
  identifier : String
  sourceAccountId : String
  destinationSparkPubkey : String
  description : String
  claim : Option StatementClaim
deriving DecidableEq

structure BlinkToSparkIdentifierTransfer where
  domain : String
  identifier : String
  sourceAccountId : String
  destinationSparkPubkey : String
  description : String
deriving DecidableEq

structure ResolvedRecipient where
  accountId : String
  provider : AccountProvider
  domain : String
  identifier : String
  identifierKind : AccountIdentifierKind
  description : String
  sparkPubkey : Option String
  blinkAccountId : Option String
  btcWalletId : Option String
  usdWalletId : Option String
  defaultWallet : Option WalletKind
deriving DecidableEq

structure SparkUsername where
  domain : String
  pubkey : String
  username : String
  description : String
deriving DecidableEq

/-- Re-sending the exact last-accepted request is idempotent; anything older
or different is stale. -/
def classifyRefusedModeWrite (record : Option SparkAccountMode) (update : SparkModeUpdate) :
    Except RepositoryError Unit :=
  match record with
  | some record =>
      if record.mode = some update.mode ∧
        record.modeLastTimestamp = some update.clientTimestamp then
        .ok ()
      else .error .staleModeTimestamp
  | none => .error .accountNotFound

/-! ## Payment tables -/

structure Invoice where
  accountId : Option String
  provider : Option AccountProvider
  walletKind : Option WalletKind
  walletId : Option String
  providerPaymentHash : Option String
  paymentHash : String
  userPubkey : String
  invoice : String
  preimage : Option String
  expiredAt : Option Int
  invoiceExpiry : Int
  createdAt : Int
  updatedAt : Int
  domain : Option String
  amountReceivedSat : Option Int
deriving DecidableEq

structure Zap where
  accountId : Option String
  paymentHash : String
  zapRequest : String
  zapEvent : Option String
  userPubkey : String
  invoiceExpiry : Int
  updatedAt : Int
  isUserNostrKey : Bool
deriving DecidableEq

structure LnurlSenderComment where
  accountId : Option String
  comment : String
  paymentHash : String
  userPubkey : String
  updatedAt : Int
deriving DecidableEq

structure PendingZapReceipt where
  paymentHash : String
  createdAt : Int
  retryCount : Int
  nextRetryAt : Int
deriving DecidableEq

/-- A row of `pending_zap_receipts`: the queue entry and its claim. -/
structure PendingZapReceiptRow where
  entry : PendingZapReceipt
  claimedAt : Option Int
deriving DecidableEq

instance : Rel.Keyed Invoice String := ⟨Invoice.paymentHash⟩

instance : Rel.Keyed Zap String := ⟨Zap.paymentHash⟩

instance : Rel.Keyed LnurlSenderComment String := ⟨LnurlSenderComment.paymentHash⟩

instance : Rel.Keyed PendingZapReceiptRow String := ⟨fun r => r.entry.paymentHash⟩

/-- What `webhook_notify` reads about a settled invoice. -/
structure WebhookPayloadData where
  accountId : Option String
  paymentHash : String
  userPubkey : String
  invoice : String
  preimage : String
  amountReceivedSat : Option Int
  lightningAddress : Option String
  senderComment : Option String
  domain : String
deriving DecidableEq

/-- The `PaymentReceived` payload, before it is rendered as JSON. -/
structure WebhookPayload where
  paymentHash : String
  invoice : String
  preimage : String
  amountSat : Option Int
  lightningAddress : Option String
  senderComment : Option String
  timestamp : Int
deriving DecidableEq

structure NewWebhookDelivery where
  identifier : String
  domain : String
  payload : WebhookPayload
deriving DecidableEq

/-- A row of `webhook_deliveries`, with the columns' defaults. -/
structure WebhookDeliveryRow where
  id : Nat
  delivery : NewWebhookDelivery
  createdAt : Int
  succeededAt : Option Int := none
  nextRetryAt : Int
  url : Option String := none
  retryCount : Int := 0
  claimedAt : Option Int := none
  lastErrorStatusCode : Option Int := none
  lastErrorBody : Option String := none
deriving DecidableEq

/-- The primary key and the partial unique index over pending deliveries. -/
instance : Rel.Schema WebhookDeliveryRow where
  clash a b := a.id = b.id ∨
    (a.succeededAt = none ∧ b.succeededAt = none ∧
      a.delivery.identifier = b.delivery.identifier ∧ a.delivery.domain = b.delivery.domain)
  clash_symm h := h.imp Eq.symm fun ⟨ha, hb, hi, hd⟩ => ⟨hb, ha, hi.symm, hd.symm⟩
  decidable := fun a b => inferInstanceAs (Decidable (a.id = b.id ∨
    (a.succeededAt = none ∧ b.succeededAt = none ∧
      a.delivery.identifier = b.delivery.identifier ∧ a.delivery.domain = b.delivery.domain)))

/-- What a worker is given of a delivery it takes. -/
structure WebhookDelivery where
  id : Nat
  identifier : String
  domain : String
  url : Option String
  payload : WebhookPayload
  createdAt : Int
  retryCount : Int
  nextRetryAt : Int
deriving DecidableEq

end BlinkLnurl
