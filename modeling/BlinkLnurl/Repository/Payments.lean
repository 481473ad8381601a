import BlinkLnurl.Repository.Types
import Mathlib.Data.List.Dedup
import Mathlib.Data.List.Sort

/-!
# Payment operations of the SQLite repository

The invoice, zap, comment, receipt-queue and webhook tables, and the operations
of `sqlite/repository.rs` on them. The columns `account_id` reference
`accounts`; accounts are never deleted and the ids come from stored accounts,
so the foreign keys are left out.

Three statements write an invoice row. `upsertInvoice` overwrites every column
but the ones it coalesces, the preimage included; `upsertInvoicesPaid` and
`markInvoiceExpired` leave a settled row alone.
-/

namespace BlinkLnurl

open Rel

structure PaymentStore where
  invoices : Table Invoice
  zaps : Table Zap
  senderComments : Table LnurlSenderComment
  pendingZapReceipts : Table PendingZapReceiptRow
  webhookDeliveries : Table WebhookDeliveryRow

namespace PaymentStore

/-- A fresh database. -/
def empty : PaymentStore := ⟨.empty, .empty, .empty, .empty, .empty⟩

/-! ## Zaps and comments -/

def upsertZap (zap : Zap) (s : PaymentStore) : PaymentStore :=
  { s with
    zaps := s.zaps.upsert zap
      (fun old => { zap with
        paymentHash := old.paymentHash
        accountId := zap.accountId.or old.accountId })
      fun _ => rfl }

def getZapByPaymentHash (paymentHash : String) (s : PaymentStore) : Option Zap :=
  s.zaps.get paymentHash

def insertLnurlSenderComment (comment : LnurlSenderComment) (s : PaymentStore) : PaymentStore :=
  { s with
    senderComments := s.senderComments.upsert comment
      (fun old => { comment with
        paymentHash := old.paymentHash
        accountId := comment.accountId.or old.accountId })
      fun _ => rfl }

/-- The `UNION` over invoices, zaps and comments. -/
def isKnown (paymentHash : String) (s : PaymentStore) : Bool :=
  (s.invoices.get paymentHash).isSome || (s.zaps.get paymentHash).isSome ||
    (s.senderComments.get paymentHash).isSome

def filterKnownPaymentHashes (paymentHashes : List String) (s : PaymentStore) : List String :=
  (paymentHashes.filter fun h => s.isKnown h).dedup

/-! ## Invoices -/

/-- `CASE WHEN excluded.preimage IS NOT NULL THEN NULL ELSE
COALESCE(excluded.expired_at, invoices.expired_at) END`. -/
def expiredAtAfter (excluded old : Invoice) : Option Int :=
  if excluded.preimage.isSome then none else excluded.expiredAt.or old.expiredAt

/-- The `DO UPDATE SET` of `upsert_invoice`. -/
def overwriteInvoice (excluded old : Invoice) : Invoice :=
  { paymentHash := old.paymentHash
    userPubkey := excluded.userPubkey
    invoice := excluded.invoice
    preimage := excluded.preimage
    expiredAt := expiredAtAfter excluded old
    invoiceExpiry := excluded.invoiceExpiry
    createdAt := old.createdAt
    updatedAt := excluded.updatedAt
    domain := excluded.domain
    amountReceivedSat := excluded.amountReceivedSat
    accountId := excluded.accountId.or old.accountId
    provider := excluded.provider.or old.provider
    walletKind := excluded.walletKind.or old.walletKind
    walletId := excluded.walletId.or old.walletId
    providerPaymentHash := excluded.providerPaymentHash.or old.providerPaymentHash }

def upsertInvoice (invoice : Invoice) (s : PaymentStore) : PaymentStore :=
  { s with invoices := s.invoices.upsert invoice (overwriteInvoice invoice) fun _ => rfl }

/-- The `DO UPDATE SET` of `upsert_invoices_paid`. -/
def settleInvoice (excluded old : Invoice) : Invoice :=
  { old with
    preimage := excluded.preimage
    expiredAt := expiredAtAfter excluded old
    updatedAt := excluded.updatedAt
    accountId := excluded.accountId.or old.accountId
    provider := excluded.provider.or old.provider
    walletKind := excluded.walletKind.or old.walletKind
    walletId := excluded.walletId.or old.walletId
    providerPaymentHash := excluded.providerPaymentHash.or old.providerPaymentHash }

/-- The `WHERE` of that update. -/
def mayBeSettledBy (excluded old : Invoice) : Bool :=
  old.userPubkey = excluded.userPubkey && old.preimage.isNone

/-- One statement of `upsert_invoices_paid`, and whether it returned a row. The
statement inserts neither `domain` nor `amount_received_sat`. -/
def upsertInvoicePaid (invoice : Invoice) (invoices : Table Invoice) : Bool × Table Invoice :=
  let inserted : Invoice := { invoice with domain := none, amountReceivedSat := none }
  let written := invoices.upsert inserted (settleInvoice invoice) fun _ => rfl
  match invoices.get invoice.paymentHash with
  | none => (true, written)
  | some old => if mayBeSettledBy invoice old then (true, written) else (false, invoices)

/-- The loop of `upsert_invoices_paid`: the hashes affected, and the table. -/
def upsertInvoicesPaidRows : List Invoice → Table Invoice → List String × Table Invoice
  | [], invoices => ([], invoices)
  | invoice :: rest, invoices =>
      let (written, invoices) := upsertInvoicePaid invoice invoices
      let (affected, invoices) := upsertInvoicesPaidRows rest invoices
      (if written then invoice.paymentHash :: affected else affected, invoices)

def upsertInvoicesPaid (invoices : List Invoice) (s : PaymentStore) : List String × PaymentStore :=
  let (affected, rows) := upsertInvoicesPaidRows invoices s.invoices
  (affected, { s with invoices := rows })

def getInvoiceByPaymentHash (paymentHash : String) (s : PaymentStore) : Option Invoice :=
  s.invoices.get paymentHash

def markInvoiceExpired (paymentHash : String) (expiredAt : Int) (s : PaymentStore) : PaymentStore :=
  { s with
    invoices := s.invoices.update
      (fun r => r.paymentHash = paymentHash && r.preimage.isNone)
      (fun r => { r with expiredAt := some expiredAt, updatedAt := expiredAt })
      fun _ => rfl }

def getZapAndInvoiceByPaymentHash (paymentHash : String) (s : PaymentStore) :
    Option Zap × Option Invoice :=
  (s.zaps.get paymentHash, s.invoices.get paymentHash)

/-! ## The zap receipt queue -/

def insertPendingZapReceipt (pending : PendingZapReceipt) (s : PaymentStore) : PaymentStore :=
  { s with
    pendingZapReceipts :=
      s.pendingZapReceipts.upsert ⟨pending, none⟩ (fun row => row) fun _ => rfl }

def insertPendingZapReceiptBatch : List PendingZapReceipt → PaymentStore → PaymentStore
  | [], s => s
  | pending :: rest, s => insertPendingZapReceiptBatch rest (insertPendingZapReceipt pending s)

/-- How long a claim on a queue entry lasts, in milliseconds. -/
def claimLease : Int := 300000

/-- What the statement below leaves open: which of the entries with equal retry times come
first, and in which order it answers. Both are by payment hash. -/
structure RowOrder where
  ties : String → Nat
  answer : String → Nat

/-- Ties stay as the rows are stored. -/
def RowOrder.stored : RowOrder := ⟨fun _ => 0, fun _ => 0⟩

/-- `ORDER BY next_retry_at ASC`, with the ties settled. -/
def RowOrder.retriesFirst (order : RowOrder) (a b : PendingZapReceiptRow) : Bool :=
  a.entry.nextRetryAt < b.entry.nextRetryAt || (a.entry.nextRetryAt == b.entry.nextRetryAt &&
    order.ties a.entry.paymentHash ≤ order.ties b.entry.paymentHash)

/-- Claims the due entries that nobody holds, `limit` of them at most. -/
def takePendingZapReceipts (now : Int) (limit : Nat) (order : RowOrder) (s : PaymentStore) :
    List PendingZapReceipt × PaymentStore :=
  let due := s.pendingZapReceipts.select fun r =>
    r.entry.nextRetryAt ≤ now && r.claimedAt.getD 0 < now - claimLease
  let sorted := due.insertionSort fun a b => order.retriesFirst a b
  let taken := ((sorted.take limit).map PendingZapReceiptRow.entry).insertionSort fun a b =>
    order.answer a.paymentHash ≤ order.answer b.paymentHash
  (taken,
    { s with
      pendingZapReceipts := s.pendingZapReceipts.update
        (fun r => taken.any fun e => e.paymentHash = r.entry.paymentHash)
        (fun r => { r with claimedAt := some now })
        fun _ => rfl })

def updatePendingZapReceiptRetry (paymentHash : String) (retryCount nextRetryAt : Int)
    (s : PaymentStore) : PaymentStore :=
  { s with
    pendingZapReceipts := s.pendingZapReceipts.update
      (fun r => r.entry.paymentHash = paymentHash)
      (fun r => ⟨{ r.entry with retryCount, nextRetryAt }, none⟩)
      fun _ => rfl }

def deletePendingZapReceipt (paymentHash : String) (s : PaymentStore) : PaymentStore :=
  { s with pendingZapReceipts := s.pendingZapReceipts.delete fun r =>
      r.entry.paymentHash = paymentHash }

/-! ## Webhooks -/

/-- `ORDER BY CASE identifier_kind WHEN 'username' THEN 0 ELSE 1 END,
identifier`. -/
def addressOrder (a b : AccountIdentifier) : Bool :=
  (a.identifierKind = .username && b.identifierKind ≠ .username) ||
    (a.identifierKind = b.identifierKind && decide (a.identifier ≤ b.identifier))

/-- The address shown for an account on a domain. -/
def lightningAddress (identifiers : Table AccountIdentifier) (accountId : Option String)
    (domain : String) : Option String :=
  let rows := identifiers.select fun r => some r.accountId = accountId && r.domain = domain
  (rows.insertionSort fun a b => addressOrder a b).head?.map fun r =>
    r.identifier ++ "@" ++ r.domain

def webhookPayload (identifiers : Table AccountIdentifier) (s : PaymentStore) (i : Invoice) :
    Option WebhookPayloadData :=
  match i.domain, i.preimage with
  | some domain, some preimage =>
      some
        { accountId := i.accountId
          paymentHash := i.paymentHash
          userPubkey := i.userPubkey
          invoice := i.invoice
          preimage
          amountReceivedSat := i.amountReceivedSat
          lightningAddress := lightningAddress identifiers i.accountId domain
          senderComment := (s.senderComments.get i.paymentHash).map LnurlSenderComment.comment
          domain }
  | _, _ => none

def getWebhookPayloads (identifiers : Table AccountIdentifier) (paymentHashes : List String)
    (s : PaymentStore) : List WebhookPayloadData :=
  (s.invoices.select fun i => paymentHashes.contains i.paymentHash).filterMap
    (webhookPayload identifiers s)

/-- The next `INTEGER PRIMARY KEY`. -/
def nextDeliveryId (deliveries : Table WebhookDeliveryRow) : Nat :=
  deliveries.rows.foldl (fun n r => max n (r.id + 1)) 1

/-- A delivery is queued once for each payment and domain. -/
def insertWebhookDelivery (now : Int) (delivery : NewWebhookDelivery)
    (deliveries : Table WebhookDeliveryRow) : Table WebhookDeliveryRow :=
  if deliveries.any fun r =>
      r.delivery.identifier = delivery.identifier && r.delivery.domain = delivery.domain then
    deliveries
  else
    (deliveries.insert
      { id := nextDeliveryId deliveries, delivery, createdAt := now, nextRetryAt := now }).getD
      deliveries

def insertWebhookDeliveries (now : Int) (deliveries : List NewWebhookDelivery) (s : PaymentStore) :
    PaymentStore :=
  { s with
    webhookDeliveries := deliveries.foldl (fun t d => insertWebhookDelivery now d t)
      s.webhookDeliveries }

end PaymentStore

end BlinkLnurl
