import BlinkLnurl.Server.Requests

/-!
# Settlement

`invoice_paid.rs`, `webhook_notify.rs`, the queueing half of `zap.rs`, and the
two helpers of `routes/webhook.rs` that ask Blink for the state of a payment.
Each store call is its own transaction; a settlement is several of them.

Triggering the background processor leaves no trace here: the processor may
run at any time.
-/

namespace BlinkLnurl

open Conc RustStr

inductive HandleInvoicePaidError
  | invalidInvoice (message : String)
  | invalidPreimage (message : String)
  | repository (e : RepositoryError)
deriving DecidableEq, Repr

abbrev Settle (α : Type) := Prog Call Reply HandleInvoicePaidError α

/-- The hash a preimage pays: hex-decoded, hashed, rendered in hex. -/
def preimageHash (crates : Crates) (preimage : String) : Except String String :=
  (crates.hexDecode preimage).map crates.sha256

def verifyPreimage (crates : Crates) (paymentHash preimage : String) :
    Except HandleInvoicePaidError Unit :=
  match preimageHash crates preimage with
  | .error e => .error (.invalidPreimage ("could not hex-decode preimage: " ++ e))
  | .ok hash =>
      if hash ≠ paymentHash then .error (.invalidPreimage "preimage does not match payment hash")
      else .ok ()

section VerifyPreimage

variable {crates : Crates} {paymentHash preimage : String}

theorem verifyPreimage_ok {u : Unit} (h : verifyPreimage crates paymentHash preimage = .ok u) :
    preimageHash crates preimage = .ok paymentHash := by
  unfold verifyPreimage at h
  cases hhash : preimageHash crates preimage with
  | error e =>
      rw [hhash] at h
      cases h
  | ok hash =>
      simp only [hhash] at h
      split at h
      · cases h
      · rename_i heq
        rw [not_not.mp heq]

theorem verifyPreimage_error {e : HandleInvoicePaidError}
    (h : verifyPreimage crates paymentHash preimage = .error e) :
    ∃ message, e = .invalidPreimage message := by
  unfold verifyPreimage at h
  cases hhash : preimageHash crates preimage with
  | error message =>
      rw [hhash] at h
      exact ⟨_, (Except.error.inj h).symm⟩
  | ok hash =>
      simp only [hhash] at h
      split at h
      · exact ⟨_, (Except.error.inj h).symm⟩
      · cases h

end VerifyPreimage

/-! ## Queueing -/

def enqueueZapReceipt (paymentHash : String) : Store Unit := do
  let now ← nowMillis
  Store.payment (.insertPendingZapReceipt
    { paymentHash, createdAt := now, retryCount := 0, nextRetryAt := now })

def enqueueZapReceipts (paymentHashes : List String) : Store Unit :=
  if paymentHashes = [] then return ()
  else do
    let now ← nowMillis
    Store.payment (.insertPendingZapReceiptBatch (paymentHashes.map fun paymentHash =>
      { paymentHash, createdAt := now, retryCount := 0, nextRetryAt := now }))

/-- The delivery of one settled invoice. -/
def paymentReceived (timestamp : Int) (data : WebhookPayloadData) : NewWebhookDelivery :=
  { identifier := data.paymentHash
    domain := data.domain
    payload :=
      { paymentHash := data.paymentHash
        invoice := data.invoice
        preimage := data.preimage
        amountSat := data.amountReceivedSat
        lightningAddress := data.lightningAddress
        senderComment := data.senderComment
        timestamp } }

def notifyWebhooks (paymentHashes : List String) : Store Unit := do
  let data ← Store.payment (.getWebhookPayloads paymentHashes)
  if data = [] then return ()
  else do
    let now ← nowMillis
    Store.payment (.insertWebhookDeliveries (data.map (paymentReceived now)))

/-! ## One invoice -/

/-- Store the preimage of an invoice that has none, and queue its receipt. -/
def storePreimage (paymentHash : String) (invoice : Invoice) (preimage : String)
    (amountReceivedSat : Option Int) (now : Int) : Store Unit :=
  if invoice.preimage.isNone then do
    Store.payment (.upsertInvoice
      { invoice with preimage := some preimage, amountReceivedSat, updatedAt := now })
    enqueueZapReceipt paymentHash
  else return ()

def handleInvoicePaid (crates : Crates) (paymentHash preimage : String)
    (amountReceivedSat : Option Int) : Settle Unit := do
  .ofExcept (verifyPreimage crates paymentHash preimage)
  let now ← nowMillis
  let stored ← (Store.payment (.getInvoiceByPaymentHash paymentHash)).mapError .repository
  match stored with
  | none => return ()
  | some invoice => do
      (storePreimage paymentHash invoice preimage amountReceivedSat now).mapError .repository
      -- webhook errors are only logged
      let _ ← (notifyWebhooks [paymentHash]).attempt
      return ()

/-! ## Batches -/

structure PaidInvoice where
  preimage : String
  invoice : String

/-- The row an entry of a batch asks for. -/
def paidInvoice (crates : Crates) (userPubkey : String) (now : Int) (item : PaidInvoice) :
    Except HandleInvoicePaidError Invoice :=
  match preimageHash crates item.preimage with
  | .error e => .error (.invalidPreimage ("could not hex-decode preimage: " ++ e))
  | .ok paymentHash =>
      match crates.bolt11 item.invoice with
      | .error e => .error (.invalidInvoice ("invalid bolt11 invoice: " ++ e))
      | .ok bolt11 =>
          if bolt11.paymentHash ≠ paymentHash then
            .error (.invalidPreimage
              ("invoice payment hash does not match preimage for hash " ++ paymentHash))
          else
            .ok
              { accountId := none
                provider := none
                walletKind := none
                walletId := none
                providerPaymentHash := none
                paymentHash
                userPubkey
                invoice := item.invoice
                preimage := some item.preimage
                expiredAt := none
                invoiceExpiry := bolt11.expiresAt.elim 0 fun millis =>
                  if millis < 2 ^ 63 then millis else 2 ^ 63 - 1
                createdAt := now
                updatedAt := now
                domain := none
                amountReceivedSat := none }

/-- The loop over a batch; it ends at the first entry that is refused. -/
def paidInvoices (crates : Crates) (userPubkey : String) (now : Int) :
    List PaidInvoice → Except HandleInvoicePaidError (List Invoice)
  | [] => .ok []
  | item :: rest =>
      match paidInvoice crates userPubkey now item with
      | .error e => .error e
      | .ok invoice =>
          (paidInvoices crates userPubkey now rest).map fun invoices => invoice :: invoices

/-- What an entry of a batch asks for. -/
structure PaidRow (k userPubkey preimage : String) (now : Int) (i : Invoice) : Prop where
  paymentHash : i.paymentHash = k
  userPubkey : i.userPubkey = userPubkey
  preimage : i.preimage = some preimage
  updatedAt : i.updatedAt = now
  accountId : i.accountId = none
  provider : i.provider = none
  walletKind : i.walletKind = none
  walletId : i.walletId = none
  providerPaymentHash : i.providerPaymentHash = none
  expiredAt : i.expiredAt = none

theorem paidInvoice_ok {crates : Crates} {userPubkey : String} {now : Int} {item : PaidInvoice}
    {i : Invoice} (h : paidInvoice crates userPubkey now item = .ok i) :
    ∃ k, preimageHash crates item.preimage = .ok k ∧
      PaidRow k userPubkey item.preimage now i := by
  unfold paidInvoice at h
  cases hpreimage : preimageHash crates item.preimage with
  | error e =>
      rw [hpreimage] at h
      exact nomatch h
  | ok k =>
      rw [hpreimage] at h
      cases hbolt11 : crates.bolt11 item.invoice with
      | error e =>
          rw [hbolt11] at h
          exact nomatch h
      | ok bolt11 =>
          simp only [hbolt11] at h
          split at h
          · exact nomatch h
          · obtain rfl := Except.ok.inj h
            exact ⟨k, rfl, rfl, rfl, rfl, rfl, rfl, rfl, rfl, rfl, rfl, rfl⟩

/-- Every row of a batch is one of its entries. -/
theorem mem_paidInvoices {crates : Crates} {userPubkey : String} {now : Int}
    {items : List PaidInvoice} {invoices : List Invoice} {i : Invoice}
    (h : paidInvoices crates userPubkey now items = .ok invoices) (hi : i ∈ invoices) :
    ∃ item ∈ items, paidInvoice crates userPubkey now item = .ok i := by
  induction items generalizing invoices with
  | nil =>
      obtain rfl := Except.ok.inj h
      exact absurd hi List.not_mem_nil
  | cons item rest ih =>
      unfold paidInvoices at h
      cases hitem : paidInvoice crates userPubkey now item with
      | error e =>
          rw [hitem] at h
          exact nomatch h
      | ok invoice =>
          rw [hitem] at h
          cases hrest : paidInvoices crates userPubkey now rest with
          | error e =>
              rw [hrest] at h
              exact nomatch h
          | ok later =>
              rw [hrest] at h
              obtain rfl := Except.ok.inj h
              rcases List.mem_cons.mp hi with rfl | hi
              · exact ⟨item, List.mem_cons_self, hitem⟩
              · obtain ⟨item', hitem', hlater⟩ := ih hrest hi
                exact ⟨item', List.mem_cons_of_mem _ hitem', hlater⟩

def settleBatch (invoices : List Invoice) : Store Unit := do
  let affected ← Store.payment (.upsertInvoicesPaid invoices)
  if affected = [] then return () else enqueueZapReceipts affected

def handleInvoicesPaid (crates : Crates) (items : List PaidInvoice) (userPubkey : String) :
    Settle Unit := do
  let now ← nowMillis
  let invoices ← .ofExcept (paidInvoices crates userPubkey now items)
  let hashes := invoices.map Invoice.paymentHash
  let known ← (Store.payment (.filterKnownPaymentHashes hashes)).mapError .repository
  let invoices := invoices.filter fun i => known.contains i.paymentHash
  if invoices = [] then return ()
  else do
    (settleBatch invoices).mapError .repository
    let _ ← (notifyWebhooks (invoices.map Invoice.paymentHash)).attempt
    return ()

/-! ## New invoices -/

def createProviderInvoiceForAccount (paymentHash accountId : String) (provider : AccountProvider)
    (invoice : ProviderInvoice) (userPubkey : String) (invoiceExpiry : Int) (domain : String) :
    Store Unit := do
  let now ← nowMillis
  Store.payment (.upsertInvoice
    { accountId := some accountId
      provider := some provider
      walletKind := some invoice.walletKind
      walletId := invoice.walletId
      providerPaymentHash := invoice.providerPaymentHash
      paymentHash
      userPubkey
      invoice := invoice.bolt11
      preimage := none
      expiredAt := none
      invoiceExpiry
      createdAt := now
      updatedAt := now
      domain := some domain
      amountReceivedSat := none })

/-! ## Asking Blink -/

inductive BlinkSettlementError
  | repository (e : RepositoryError)
  | provider
  | invoicePaid (e : HandleInvoicePaidError)
deriving DecidableEq, Repr

abbrev BlinkSettle (α : Type) := Prog Call Reply BlinkSettlementError α

/-- `payment_status` of the registry; `none` when the status endpoint is
disabled. An answer about another payment is an error. -/
def blinkPaymentStatus (state : State) (paymentHash : String) :
    BlinkSettle (Option BlinkPaymentStatus) :=
  if state.blinkStatusEnabled then do
    let status ← env (.blinkPaymentStatus paymentHash)
    match status with
    | none => .fail .provider
    | some status => do
        Prog.require (status.paymentHash = paymentHash) .provider
        return some status
  else return none

/-- The preimage of a settled status. -/
def settledPreimage (status : Option BlinkPaymentStatus) : Option (String × Option Int) :=
  match status with
  | none => none
  | some status =>
      if status.settled then status.preimage.map fun p => (p, status.amountReceivedSat) else none

/-- The preimage a settlement uses: the supplied one, else the one Blink
reports. -/
def settlementPreimage (state : State) (paymentHash : String) (suppliedPreimage : Option String) :
    BlinkSettle (Option (String × Option Int)) :=
  match suppliedPreimage with
  | some preimage => return some (preimage, none)
  | none => do
      let status ← blinkPaymentStatus state paymentHash
      return settledPreimage status

def settleBlinkInvoiceByPaymentHash (state : State) (paymentHash : String)
    (suppliedPreimage : Option String) : BlinkSettle (Option String) := do
  let stored ← (Store.payment (.getInvoiceByPaymentHash paymentHash)).mapError .repository
  if stored.bind Invoice.provider = some .blink then do
    let settlement ← settlementPreimage state paymentHash suppliedPreimage
    match settlement with
    | none => return none
    | some (preimage, amountReceivedSat) => do
        (handleInvoicePaid state.crates paymentHash preimage amountReceivedSat).mapError
          .invoicePaid
        return some preimage
  else return none

def expireBlinkInvoiceByPaymentHash (state : State) (paymentHash : String) : BlinkSettle Unit := do
  let stored ← (Store.payment (.getInvoiceByPaymentHash paymentHash)).mapError .repository
  if stored.bind Invoice.provider = some .blink then do
    let status ← blinkPaymentStatus state paymentHash
    match status with
    | some status =>
        if status.expired then do
          let now ← nowMillis
          (Store.payment (.markInvoiceExpired paymentHash now)).mapError .repository
        else return ()
    | none => return ()
  else return ()

end BlinkLnurl
