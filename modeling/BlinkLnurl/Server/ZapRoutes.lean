import BlinkLnurl.Server.PaymentRoutes

/-!
# Zap receipts

The two publishers of zap receipts: the route of `routes/zap.rs`, which gets a
receipt from a client, and the background processor of `zap.rs`, which works
off the queue. Each reads the zap row, publishes, and writes the row back.
-/

namespace BlinkLnurl

open Conc RustStr

/-! ## The route -/

structure PublishZapReceiptRequest where
  signature : String
  timestamp : UInt64
  zapReceipt : String

structure PublishZapReceiptResponse where
  published : Bool
  zapReceipt : String
deriving DecidableEq

def zapError (status : Nat) (message : String) : ApiError := ⟨status, .error message⟩

/-- Parse a receipt: an event of the right kind with a valid signature. -/
def parseZapReceipt (crates : Crates) (json : String) : Except ApiError NostrEvent :=
  if byteLen json > maxNostrEventSize then .error (zapError 400 "zap receipt too large")
  else
    match crates.nostrEvent json with
    | none => .error (zapError 400 "invalid zap receipt")
    | some event =>
        if event.kind ≠ NostrEvent.zapReceiptKind then
          .error (zapError 400 "event is not a zap receipt")
        else if crates.verifyEvent event then .ok event
        else .error (zapError 400 "invalid zap receipt signature")

/-- The settlement a receipt with a preimage triggers. Only a preimage that is
wrong ends the request, other errors are logged. -/
def settleFromReceipt (crates : Crates) (paymentHash : String) (preimage : Option String) :
    Handler Unit :=
  match preimage with
  | none => return ()
  | some preimage => do
      let settled ← (handleInvoicePaid crates paymentHash preimage none).attempt
      match settled with
      | .error (.invalidPreimage _) => .fail (zapError 400 "invalid preimage")
      | _ => return ()

/-- The event to publish: the client's own for a user key, else one the server
builds from the client's tags and signs. -/
def receiptToPublish (state : State) (zap : Zap) (zapReceipt zapRequest : NostrEvent) :
    Handler NostrEvent :=
  if zap.isUserNostrKey then return zapReceipt
  else if state.nostrKeys = none then
    .fail (zapError 500
      "zap receipt should be server-published, but server does not support nostr (anymore)")
  else do
    let invoice ← .ofExcept (match findBolt11 zapReceipt.tags with
      | some invoice => .ok invoice
      | none => .error (zapError 400 "zap receipt missing bolt11 tag"))
    let signed ← env (.signEvent NostrEvent.zapReceiptKind
      (state.crates.zapReceiptTags invoice (findPreimage zapReceipt.tags) zapRequest))
    .ofExcept (match signed with
      | some event => .ok event
      | none => .error (zapError 500 "internal server error"))

/-- Send the event to the relays of the zap request, if it names any. -/
def sendToRelays (zapRequest event : NostrEvent) : Handler Bool :=
  let relays := relaysOf zapRequest.tags maxNostrRelays
  if relays = [] then return false else env (.sendEvent relays event)

def publishZapReceipt (state : State) (pubkey paymentHash : String)
    (payload : PublishZapReceiptRequest) : Handler PublishZapReceiptResponse := do
  let pubkey ← validate state.crates pubkey payload.signature payload.zapReceipt payload.timestamp
    .zapReceipt
  let zapReceipt ← .ofExcept (parseZapReceipt state.crates payload.zapReceipt)
  let stored ← (Store.payment (.getZapByPaymentHash paymentHash)).mapError fun _ =>
    zapError 500 "internal server error"
  let zap ← .ofExcept (match stored with
    | some zap => .ok zap
    | none => .error (zapError 404 "zap not found"))
  Prog.require (zap.userPubkey = pubkey.hex) (zapError 403 "unauthorized")
  settleFromReceipt state.crates paymentHash (findPreimage zapReceipt.tags)
  -- the row read before the settlement decides
  match zap.zapEvent with
  | some stored => return { published := false, zapReceipt := stored }
  | none => do
      let zapRequest ← .ofExcept (match state.crates.nostrEvent zap.zapRequest with
        | some event => .ok event
        | none => .error (zapError 500 "internal server error"))
      let event ← receiptToPublish state zap zapReceipt zapRequest
      let published ← sendToRelays zapRequest event
      let now ← nowMillis
      let zap := { zap with zapEvent := some event.json, updatedAt := now }
      (Store.payment (.upsertZap zap)).mapError fun _ => zapError 500 "internal server error"
      return { published, zapReceipt := event.json }

/-! ## The background processor -/

/-- `BASE_RETRY_DELAY_MS * RETRY_MULTIPLIER^n`, in the range where the
floating point product is exact. -/
def nextRetryDelay (retryCount : Int) : Int :=
  30000 * 3 ^ retryCount.toNat / 2 ^ retryCount.toNat

/-- `ZAP_RECEIPT_BATCH_LIMIT`. -/
def zapReceiptBatchLimit : Nat := 4

/-- `MAX_RETRY_DURATION_MS`: 14 days. -/
def maxRetryDurationMs : Int := 14 * 24 * 60 * 60 * 1000

def bolt11Tag (bolt11 : String) : NostrTag := ⟨["bolt11", bolt11], some (.bolt11 bolt11)⟩

def descriptionTag (text : String) : NostrTag := ⟨["description", text], some (.description text)⟩

def preimageTag (preimage : String) : NostrTag :=
  ⟨["preimage", preimage], some (.preimage preimage)⟩

def senderTag (key : String) : NostrTag := ⟨["P", key], some (.publicKey key true)⟩

/-- The tags of `build_zap_receipt_event`. -/
def zapReceiptTags (zap : Zap) (zapRequest : NostrEvent) (bolt11 preimage : String) :
    List NostrTag :=
  [bolt11Tag bolt11, descriptionTag zap.zapRequest, preimageTag preimage] ++
    zapRequest.tags.filter (fun t => t.values.head?.any fun name => name ∈ ["e", "a", "p"]) ++
    [senderTag zapRequest.pubkey]

inductive PublishError
  | zapRequest
  | sign
  | noRelays
  | send
  | repository (e : RepositoryError)
deriving DecidableEq, Repr

/-- `publish_zap_receipt` of the processor. -/
def publishPending (crates : Crates) (zap : Zap) (bolt11 preimage : String) :
    Prog Call Reply PublishError Unit := do
  let zapRequest ← .ofExcept (match crates.nostrEvent zap.zapRequest with
    | some event => .ok event
    | none => .error .zapRequest)
  let signed ← env (.signEvent NostrEvent.zapReceiptKind
    (zapReceiptTags zap zapRequest bolt11 preimage))
  let event ← .ofExcept (match signed with
    | some event => .ok event
    | none => .error .sign)
  let relays := relaysOf zapRequest.tags maxNostrRelays
  Prog.require (relays ≠ []) .noRelays
  let sent ← env (.sendEvent relays event)
  Prog.require (sent = true) .send
  let now ← nowMillis
  (Store.payment (.upsertZap { zap with zapEvent := some event.json, updatedAt := now })).mapError
    .repository

/-- Errors of the queue are logged. -/
def dropPending (paymentHash : String) : Handler Unit := do
  let _ ← (Store.payment (.deletePendingZapReceipt paymentHash)).attempt
  return ()

/-- Publish, then drop the entry, or put it off. -/
def publishOrRetry (crates : Crates) (item : PendingZapReceipt) (now : Int) (zap : Zap)
    (bolt11 preimage : String) : Handler Unit := do
  let published ← (publishPending crates zap bolt11 preimage).attempt
  match published with
  | .ok () => dropPending item.paymentHash
  | .error _ => do
      let retryCount := item.retryCount + 1
      let _ ← (Store.payment (.updatePendingZapReceiptRetry item.paymentHash retryCount
        (now + nextRetryDelay retryCount))).attempt
      return ()

def processPendingZapReceipt (state : State) (item : PendingZapReceipt) : Handler Unit :=
  if state.nostrKeys = none then dropPending item.paymentHash
  else do
    let now ← nowMillis
    if now - item.createdAt > maxRetryDurationMs then dropPending item.paymentHash
    else do
      let stored ← (Store.payment (.getZapAndInvoiceByPaymentHash item.paymentHash)).attempt
      match stored with
      | .error _ => return ()
      | .ok (none, _) => dropPending item.paymentHash
      | .ok (some zap, invoice) =>
          if zap.zapEvent.isSome then dropPending item.paymentHash
          else
            match invoice with
            | none => dropPending item.paymentHash
            | some invoice =>
                match invoice.preimage with
                | none => return ()
                | some preimage =>
                    publishOrRetry state.crates item now zap invoice.invoice preimage

def processBatch (state : State) : List PendingZapReceipt → Handler Unit
  | [] => return ()
  | item :: rest => do
      processPendingZapReceipt state item
      processBatch state rest

/-- `process_pending_zap_receipts`: rounds until the queue is drained; the
model cuts the loop after `rounds`. -/
def processPendingZapReceipts (state : State) : (rounds : Nat) → Handler Unit
  | 0 => return ()
  | rounds + 1 => do
      let pending ← (Store.payment (.takePendingZapReceipts zapReceiptBatchLimit)).attempt
      match pending with
      | .error _ => return ()
      | .ok pending =>
          if pending = [] then return ()
          else do
            processBatch state pending
            if pending.length < zapReceiptBatchLimit then return ()
            else processPendingZapReceipts state rounds

end BlinkLnurl
