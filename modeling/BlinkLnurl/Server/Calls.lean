import BlinkLnurl.Lib.Outline
import BlinkLnurl.Repository.Accounts
import BlinkLnurl.Repository.Deliveries
import BlinkLnurl.Server.Crates

/-!
# The calls of the handlers

Between two points where a handler waits it asks one thing of the outside: an
operation of the repository, a reading of the clock, an answer of a provider
or a relay. These are the calls of the model, and `semantics` says what each
does to the `World`.

A store call may fail at any time, with nothing written. Account ids that
`generate_account_id` returns are in no stored row. There is one clock, and it
never goes back.
-/

namespace BlinkLnurl

open Conc

/-! ## Account operations -/

inductive AccountOp
  | getSparkAccountMode (pubkey : String)
  | getAccountBySparkPubkey (pubkey : String)
  | resolveRecipientByIdentifier (domain identifier : String)
  | upsertSparkRegistration (registration : NewSparkRegistration)
  | deleteSparkRegistration (domain pubkey identifier : String) (claim : Option StatementClaim)
  | transferIdentifier (transfer : IdentifierTransfer)
  | transferBlinkIdentifierToSpark (transfer : BlinkToSparkIdentifierTransfer)
  | createBlinkAccount (account : NewBlinkAccount)
  | updateBlinkDefaultWallet (blinkAccountId : String) (defaultWallet : WalletKind)
  | setSparkModeEnhancedIfUnset (pubkey : String)
  | refreshSparkCountryEvidence (pubkey country : String)
  | deleteExpiredSignedMessages (now : Int)
  | sparkAccountIdByPubkey (pubkey : String)
  | insertSparkAccount (pubkey : String)
  | updateSparkMode (update : SparkModeUpdate)

namespace AccountOp

abbrev Result : AccountOp → Type
  | getSparkAccountMode _ => Option SparkAccountMode
  | getAccountBySparkPubkey _ => Option Account
  | resolveRecipientByIdentifier _ _ => Option ResolvedRecipient
  | upsertSparkRegistration _ => Unit
  | deleteSparkRegistration _ _ _ _ => Unit
  | transferIdentifier _ => Unit
  | transferBlinkIdentifierToSpark _ => Unit
  | createBlinkAccount _ => Unit
  | updateBlinkDefaultWallet _ _ => UpdatedBlinkAccount
  | setSparkModeEnhancedIfUnset _ => Unit
  | refreshSparkCountryEvidence _ _ => Unit
  | deleteExpiredSignedMessages _ => Nat
  | sparkAccountIdByPubkey _ => Option String
  | insertSparkAccount _ => Unit
  | updateSparkMode _ => Bool

/-- The operation run to its end: its result and the committed store. -/
def run (ctx : Ctx) (s : AccountStore) : (op : AccountOp) →
    Except RepositoryError (op.Result × AccountStore)
  | getSparkAccountMode pubkey => .ok (s.getSparkAccountMode pubkey, s)
  | getAccountBySparkPubkey pubkey => .ok (s.getAccountBySparkPubkey pubkey, s)
  | resolveRecipientByIdentifier domain identifier =>
      (s.resolveRecipientByIdentifier domain identifier).map fun r => (r, s)
  | upsertSparkRegistration registration =>
      (s.upsertSparkRegistration ctx registration).map fun s => ((), s)
  | deleteSparkRegistration domain pubkey identifier claim =>
      (s.deleteSparkRegistration ctx domain pubkey identifier claim).map fun s => ((), s)
  | transferIdentifier transfer => (s.transferIdentifier ctx transfer).map fun s => ((), s)
  | transferBlinkIdentifierToSpark transfer =>
      (s.transferBlinkIdentifierToSpark ctx transfer).map fun s => ((), s)
  | createBlinkAccount account => (s.createBlinkAccount ctx account).map fun s => ((), s)
  | updateBlinkDefaultWallet blinkAccountId defaultWallet =>
      s.updateBlinkDefaultWallet ctx blinkAccountId defaultWallet
  | setSparkModeEnhancedIfUnset pubkey => .ok ((), s.setSparkModeEnhancedIfUnset ctx pubkey)
  | refreshSparkCountryEvidence pubkey country =>
      .ok ((), s.refreshSparkCountryEvidence ctx pubkey country)
  | deleteExpiredSignedMessages now => .ok (s.deleteExpiredSignedMessages now)
  | sparkAccountIdByPubkey pubkey => .ok (s.sparkAccountIdByPubkey pubkey, s)
  | insertSparkAccount pubkey => (s.insertSparkAccount ctx pubkey).map fun s => ((), s)
  | updateSparkMode update => .ok (s.updateSparkMode ctx update)

end AccountOp

/-! ## Payment operations -/

inductive PaymentOp
  | upsertZap (zap : Zap)
  | getZapByPaymentHash (paymentHash : String)
  | insertLnurlSenderComment (comment : LnurlSenderComment)
  | filterKnownPaymentHashes (paymentHashes : List String)
  | upsertInvoice (invoice : Invoice)
  | upsertInvoicesPaid (invoices : List Invoice)
  | getInvoiceByPaymentHash (paymentHash : String)
  | markInvoiceExpired (paymentHash : String) (expiredAt : Int)
  | getZapAndInvoiceByPaymentHash (paymentHash : String)
  | insertPendingZapReceipt (pending : PendingZapReceipt)
  | insertPendingZapReceiptBatch (pending : List PendingZapReceipt)
  | takePendingZapReceipts (limit : Nat)
  | updatePendingZapReceiptRetry (paymentHash : String) (retryCount nextRetryAt : Int)
  | deletePendingZapReceipt (paymentHash : String)
  | getWebhookPayloads (paymentHashes : List String)
  | insertWebhookDeliveries (deliveries : List NewWebhookDelivery)
  | takePendingWebhookDeliveries
  | webhook (w : WebhookWrite)

namespace PaymentOp

abbrev Result : PaymentOp → Type
  | upsertZap _ => Unit
  | getZapByPaymentHash _ => Option Zap
  | insertLnurlSenderComment _ => Unit
  | filterKnownPaymentHashes _ => List String
  | upsertInvoice _ => Unit
  | upsertInvoicesPaid _ => List String
  | getInvoiceByPaymentHash _ => Option Invoice
  | markInvoiceExpired _ _ => Unit
  | getZapAndInvoiceByPaymentHash _ => Option Zap × Option Invoice
  | insertPendingZapReceipt _ => Unit
  | insertPendingZapReceiptBatch _ => Unit
  | takePendingZapReceipts _ => List PendingZapReceipt
  | updatePendingZapReceiptRetry _ _ _ => Unit
  | deletePendingZapReceipt _ => Unit
  | getWebhookPayloads _ => List WebhookPayloadData
  | insertWebhookDeliveries _ => Unit
  | takePendingWebhookDeliveries => List WebhookDelivery
  | webhook w => w.Result

/-- The operation run to its end; `now` is `now_millis()`. -/
def run (now : Int) (identifiers : Rel.Table AccountIdentifier) (order : PaymentStore.RowOrder)
    (s : PaymentStore) : (op : PaymentOp) → op.Result × PaymentStore
  | upsertZap zap => ((), s.upsertZap zap)
  | getZapByPaymentHash paymentHash => (s.getZapByPaymentHash paymentHash, s)
  | insertLnurlSenderComment comment => ((), s.insertLnurlSenderComment comment)
  | filterKnownPaymentHashes paymentHashes => (s.filterKnownPaymentHashes paymentHashes, s)
  | upsertInvoice invoice => ((), s.upsertInvoice invoice)
  | upsertInvoicesPaid invoices => s.upsertInvoicesPaid invoices
  | getInvoiceByPaymentHash paymentHash => (s.getInvoiceByPaymentHash paymentHash, s)
  | markInvoiceExpired paymentHash expiredAt => ((), s.markInvoiceExpired paymentHash expiredAt)
  | getZapAndInvoiceByPaymentHash paymentHash => (s.getZapAndInvoiceByPaymentHash paymentHash, s)
  | insertPendingZapReceipt pending => ((), s.insertPendingZapReceipt pending)
  | insertPendingZapReceiptBatch pending => ((), s.insertPendingZapReceiptBatch pending)
  | takePendingZapReceipts limit => s.takePendingZapReceipts now limit order
  | updatePendingZapReceiptRetry paymentHash retryCount nextRetryAt =>
      ((), s.updatePendingZapReceiptRetry paymentHash retryCount nextRetryAt)
  | deletePendingZapReceipt paymentHash => ((), s.deletePendingZapReceipt paymentHash)
  | getWebhookPayloads paymentHashes => (s.getWebhookPayloads identifiers paymentHashes, s)
  | insertWebhookDeliveries deliveries => ((), s.insertWebhookDeliveries now deliveries)
  | takePendingWebhookDeliveries =>
      let (taken, webhookDeliveries) :=
        WebhookDeliveries.takePendingWebhookDeliveries now s.webhookDeliveries
      (taken, { s with webhookDeliveries })
  | webhook w =>
      let (result, webhookDeliveries) := w.run s.webhookDeliveries
      (result, { s with webhookDeliveries })

end PaymentOp

/-! ## The environment -/

structure CreateInvoiceRequest where
  recipient : ResolvedRecipient
  wallet : Option WalletKind
  amountSat : Nat
  descriptionHash : String
  expiry : Option Nat
  includeSparkAddress : Bool

structure ProviderInvoice where
  bolt11 : String
  walletKind : WalletKind
  walletId : Option String
  providerPaymentHash : Option String
deriving DecidableEq

/-- The provider errors the callback answers differently. -/
inductive ProviderError
  | unsupportedWallet
  | invoiceCreationFailed
  | other
deriving DecidableEq, Repr

/-- What the Blink client returns from the status endpoint. -/
structure BlinkPaymentStatus where
  paymentHash : String
  settled : Bool
  /-- `state == PaymentStatusState::Expired`. -/
  expired : Bool
  preimage : Option String
  amountReceivedSat : Option Int
deriving DecidableEq

/-- Where the webhooks of a domain are sent. -/
structure WebhookConfig where
  domain : String
  url : String
  secret : String
deriving DecidableEq

/-- How a webhook failed. -/
structure WebhookError where
  statusCode : Option Int
  body : Option String
deriving DecidableEq

inductive EnvOp
  /-- `now_u64`, in seconds. -/
  | nowU64
  | nowMillis
  /-- The allowed domains at the time; `domains.rs` refreshes them. -/
  | allowedDomains
  | ipRateLimit
  | resolveCountry
  | generateAccountId
  | createInvoice (request : CreateInvoiceRequest)
  | blinkPaymentStatus (paymentHash : String)
  | blinkUsdMinSendable
  /-- `sign_with_keys` with the server's Nostr keys. -/
  | signEvent (kind : Nat) (tags : List NostrTag)
  /-- Connect to the relays and send. -/
  | sendEvent (relays : List String) (event : NostrEvent)
  /-- The configuration of a domain at the time; `config.rs` refreshes it. -/
  | webhookConfig (domain : String)
  /-- `try_acquire_owned` on the semaphore of a domain. -/
  | acquirePermit (domain : String)
  | sendWebhook (url : String) (payload : WebhookPayload) (secret : String)

namespace EnvOp

abbrev Answer : EnvOp → Type
  | nowU64 => Nat
  | nowMillis => Int
  | allowedDomains => List String
  | ipRateLimit => Bool
  | resolveCountry => Option String
  | generateAccountId => String
  | createInvoice _ => Except ProviderError ProviderInvoice
  | blinkPaymentStatus _ => Option BlinkPaymentStatus
  | blinkUsdMinSendable => Option Nat
  | signEvent _ _ => Option NostrEvent
  | sendEvent _ _ => Bool
  | webhookConfig _ => Option WebhookConfig
  | acquirePermit _ => Bool
  | sendWebhook _ _ _ => Except WebhookError Unit

/-- What the environment is free to choose. -/
abbrev Choice : EnvOp → Type
  | nowU64 => Unit
  | nowMillis => Unit
  | op => op.Answer

end EnvOp

/-- The tags a Nostr event builder may drop: keys equal to the signer's own. -/
def isKeyTag (t : NostrTag) : Bool :=
  match t.standardized with
  | some (.publicKey _ false) => true
  | _ => false

/-- An event the server may get back when it signs `kind` and `tags`. -/
def signsEvent (kind : Nat) (tags : List NostrTag) (event : NostrEvent) : Bool :=
  event.kind = kind && event.tags.filter (fun t => !isKeyTag t) = tags.filter fun t => !isKeyTag t

/-! ## The world -/

/-- The system clock, in milliseconds since the epoch. `now()` and
`now_millis()` panic on times that do not fit an `i64`. -/
structure Clock where
  millis : Nat
  fits : millis < 2 ^ 63

def Clock.secs (c : Clock) : Nat := c.millis / 1000

theorem Clock.secs_lt (c : Clock) : c.secs < 2 ^ 63 := by
  have hfits := c.fits
  unfold Clock.secs
  omega

/-- Time passes. -/
def Clock.advance (c : Clock) (millis : Nat) : Option Clock :=
  if h : c.millis + millis < 2 ^ 63 then some ⟨c.millis + millis, h⟩ else none

theorem Clock.secs_advance {c c' : Clock} {n : Nat} (h : c.advance n = some c') :
    c.secs ≤ c'.secs := by
  unfold Clock.advance at h
  split at h
  · cases h
    show c.millis / 1000 ≤ (c.millis + n) / 1000
    omega
  · cases h

structure World where
  accounts : AccountStore
  payments : PaymentStore
  clock : Clock

namespace World

/-- A fresh database. -/
def fresh (clock : Clock) : World := ⟨.empty, .empty, clock⟩

def ctx (w : World) (generatedId : String) : Ctx := ⟨w.clock.secs, generatedId⟩

end World

/-! ## Calls and what they do -/

inductive Call
  | account (op : AccountOp)
  | payment (op : PaymentOp)
  | env (op : EnvOp)

abbrev Reply : Call → Type
  | .account op => Except RepositoryError op.Result
  | .payment op => Except RepositoryError op.Result
  | .env op => op.Answer

/-- Whether a store call fails, and the account id it would generate. -/
structure StoreChoice where
  fails : Bool
  generatedId : String

/-- Whether a payment call fails, and the order of rows where it is open. -/
structure PaymentChoice where
  fails : Bool
  order : PaymentStore.RowOrder

abbrev Choice : Call → Type
  | .account _ => StoreChoice
  | .payment _ => PaymentChoice
  | .env op => op.Choice

/-- The answer of the environment; `none` for a choice that cannot be. -/
def EnvOp.answer (w : World) : (op : EnvOp) → op.Choice → Option op.Answer
  | nowU64, _ => some w.clock.secs
  | nowMillis, _ => some w.clock.millis
  | allowedDomains, domains => some domains
  | ipRateLimit, ch => some ch
  | resolveCountry, country => some country
  | generateAccountId, accountId =>
      if (w.accounts.accounts.get accountId).isSome then none else some accountId
  | createInvoice _, invoice => some invoice
  | blinkPaymentStatus _, status => some status
  | blinkUsdMinSendable, min => some min
  | signEvent kind tags, event => if event.all (signsEvent kind tags) then some event else none
  | sendEvent _ _, sent => some sent
  | webhookConfig _, config => some config
  | acquirePermit _, permit => some permit
  | sendWebhook _ _ _, sent => some sent

def execAccount (op : AccountOp) (ch : StoreChoice) (w : World) :
    Option (Except RepositoryError op.Result × World) :=
  if (w.accounts.accounts.get ch.generatedId).isSome then none
  else if ch.fails then some (.error .general, w)
  else
    match op.run (w.ctx ch.generatedId) w.accounts with
    | .ok (result, accounts) => some (.ok result, { w with accounts })
    | .error e => some (.error e, w)

def execPayment (op : PaymentOp) (ch : PaymentChoice) (w : World) :
    Except RepositoryError op.Result × World :=
  if ch.fails then (.error .general, w)
  else
    let out := op.run w.clock.millis w.accounts.accountIdentifiers ch.order w.payments
    (.ok out.1, { w with payments := out.2 })

def exec : (c : Call) → Choice c → World → Option (Reply c × World)
  | .account op, ch, w => execAccount op ch w
  | .payment op, ch, w => some (execPayment op ch w)
  | .env op, ch, w => (op.answer w ch).map fun a => (a, w)

/-- The calls of the server on its world; the ticks are of the clock. -/
def semantics : Semantics Call Reply World where
  Choice := Choice
  exec := fun _ => exec
  Tick := Nat
  tick := fun millis w => (w.clock.advance millis).map fun clock => { w with clock }

abbrev History := Hist Call Reply World

abbrev CallEvent := Event Call Reply

/-! ## Performing calls -/

/-- What waits for a call and may fail with a repository error. -/
abbrev Store (α : Type) := Prog Call Reply RepositoryError α

/-- A route. -/
abbrev Handler (α : Type) := Prog Call Reply ApiError α

namespace Store

def account (op : AccountOp) : Store op.Result := .call (.account op) .ofExcept

def payment (op : PaymentOp) : Store op.Result := .call (.payment op) .ofExcept

end Store

def env {ε : Type} (op : EnvOp) : Prog Call Reply ε op.Answer := Prog.perform (Call.env op)

def nowMillis {ε : Type} : Prog Call Reply ε Int := env .nowMillis

/-- `now()`. -/
def now {ε : Type} : Prog Call Reply ε Int := do return ((← env .nowU64 : Nat) : Int)

end BlinkLnurl
