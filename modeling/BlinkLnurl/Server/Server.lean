import BlinkLnurl.Server.AccountRoutes
import BlinkLnurl.Server.Background
import BlinkLnurl.Server.ZapRoutes

/-!
# The server

Every request the server serves and every task it runs in the background, as
one type, with the program each of them is. A run of the server is a run of
the pool `Conc.Step` over these programs and `semantics`. The task that sends a
delivery is spawned by the one that takes it; here it is a request of its own,
which a run may start at any time and for any delivery.

The routes fall into two groups by what they touch: account routes make no
payment call, payment routes only read accounts.
-/

namespace BlinkLnurl

open Conc

inductive Request
  | register (host : Host) (pubkey : String) (payload : RegisterLnurlPayRequest)
  | transfer (host : Host) (toPubkey : String) (payload : TransferLnurlPayRequest)
  | unregister (host : Host) (pubkey : String) (payload : UnregisterLnurlPayRequest)
  | setMode (host : Host) (pubkey : String) (payload : SetLnurlPayModeRequest)
  | transferIdentifierToSpark (principal : InternalPrincipal)
      (body : Option InternalTransferToSparkRequest)
  | createInternalBlinkAccount (principal : InternalPrincipal) (payload : CreateBlinkAccountRequest)
  | updateInternalBlinkAccount (principal : InternalPrincipal) (blinkAccountId : String)
      (body : Option UpdateBlinkAccountRequest)
  | pruneSignedMessages
  | refreshCountryEvidence (pubkey : String)
  | handleLnurlPay (host : Host) (identifier : String)
  | handleInvoice (host : Host) (identifier : String) (params : LnurlPayCallbackParams)
  | handleInvoiceForDomain (host : Host) (domain identifier : String)
      (params : LnurlPayCallbackParams)
  | verify (paymentHash : String)
  | invoicePaid (pubkey : String) (payload : InvoicePaidRequest)
  | invoicesPaid (pubkey : String) (payload : InvoicesPaidRequest)
  | webhook (signatureHeader : Option String) (body : Bytes)
  | blinkWebhook (payload : BlinkInvoiceWebhookPayload)
  | publishZapReceipt (pubkey paymentHash : String) (payload : PublishZapReceiptRequest)
  | processPendingZapReceipts (rounds : Nat)
  | processPendingWebhookDeliveries
  | processWebhookDelivery (delivery : WebhookDelivery)
  | cleanupOldWebhookDeliveries

inductive Response
  | address (address : LightningAddress)
  | done
  | mode (mode : String)
  | transferred (response : InternalTransferToSparkResponse)
  | blinkAccount (account : NewBlinkAccount)
  | updatedBlinkAccount (account : UpdatedBlinkAccount)
  | pay (response : PayResponse)
  | invoice (response : InvoiceResponse)
  | verify (response : VerifyResponse)
  | zapReceipt (response : PublishZapReceiptResponse)
deriving DecidableEq

def handler (state : State) : Request → Handler Response
  | .register host pubkey payload => do return .address (← register state host pubkey payload)
  | .transfer host toPubkey payload => do return .address (← transfer state host toPubkey payload)
  | .unregister host pubkey payload => do
      unregister state host pubkey payload
      return .done
  | .setMode host pubkey payload => do return .mode (← setMode state host pubkey payload)
  | .transferIdentifierToSpark principal body => do
      return .transferred (← transferIdentifierToSpark state principal body)
  | .createInternalBlinkAccount principal payload => do
      return .blinkAccount (← createInternalBlinkAccount state principal payload)
  | .updateInternalBlinkAccount principal blinkAccountId body => do
      return .updatedBlinkAccount (← updateInternalBlinkAccount state principal blinkAccountId body)
  | .pruneSignedMessages => do
      pruneSignedMessages
      return .done
  | .refreshCountryEvidence pubkey => do
      refreshCountryEvidence pubkey
      return .done
  | .handleLnurlPay host identifier => do return .pay (← handleLnurlPay state host identifier)
  | .handleInvoice host identifier params => do
      return .invoice (← handleInvoice state host identifier params)
  | .handleInvoiceForDomain host domain identifier params => do
      return .invoice (← handleInvoiceForDomain state host domain identifier params)
  | .verify paymentHash => do return .verify (← verify state paymentHash)
  | .invoicePaid pubkey payload => do
      invoicePaid state pubkey payload
      return .done
  | .invoicesPaid pubkey payload => do
      invoicesPaid state pubkey payload
      return .done
  | .webhook signatureHeader body => do
      webhook state signatureHeader body
      return .done
  | .blinkWebhook payload => do
      blinkWebhook state payload
      return .done
  | .publishZapReceipt pubkey paymentHash payload => do
      return .zapReceipt (← publishZapReceipt state pubkey paymentHash payload)
  | .processPendingZapReceipts rounds => do
      processPendingZapReceipts state rounds
      return .done
  | .processPendingWebhookDeliveries => do
      processPendingWebhookDeliveries
      return .done
  | .processWebhookDelivery delivery => do
      processWebhookDelivery delivery
      return .done
  | .cleanupOldWebhookDeliveries => do
      cleanupOldWebhookDeliveries state
      return .done

abbrev Server := Config Request Call Reply ApiError Response World

/-! ## Footprints -/

/-- A call of an account route. -/
def Call.OnAccounts : Call → Prop
  | .account _ => True
  | .payment _ => False
  | .env _ => True

/-- A call of a payment route. -/
def Call.OnPayments : Call → Prop
  | .account (.getSparkAccountMode _) => True
  | .account (.resolveRecipientByIdentifier _ _) => True
  | .account _ => False
  | .payment _ => True
  | .env _ => True

namespace Request

/-- The requests that make no payment call. -/
def IsAccountRequest : Request → Prop
  | register _ _ _ => True
  | transfer _ _ _ => True
  | unregister _ _ _ => True
  | setMode _ _ _ => True
  | transferIdentifierToSpark _ _ => True
  | createInternalBlinkAccount _ _ => True
  | updateInternalBlinkAccount _ _ _ => True
  | pruneSignedMessages => True
  | refreshCountryEvidence _ => True
  | _ => False

instance : DecidablePred IsAccountRequest := fun q => by
  cases q <;> unfold IsAccountRequest <;> infer_instance

end Request

section Footprints

open Prog

variable {P : Call → Prop} {state : State}

theorem calls_account {op : AccountOp} (h : P (.account op)) : (Store.account op).Calls P :=
  calls_call.mpr ⟨h, fun _ => calls_ofExcept⟩

theorem calls_payment {op : PaymentOp} (h : P (.payment op)) : (Store.payment op).Calls P :=
  calls_call.mpr ⟨h, fun _ => calls_ofExcept⟩

theorem calls_env {ε : Type} {op : EnvOp} (h : P (.env op)) :
    (env op : Prog Call Reply ε op.Answer).Calls P := calls_perform.mpr h

theorem calls_nowMillis {ε : Type} (h : ∀ op, P (.env op)) :
    (nowMillis : Prog Call Reply ε Int).Calls P := calls_env (h _)

theorem calls_now {ε : Type} (h : ∀ op, P (.env op)) : (now : Prog Call Reply ε Int).Calls P :=
  calls_bind (calls_env (h _)) fun _ => calls_ret _

theorem calls_sanitizeDomain {crates : Crates} {domain : String} (h : ∀ op, P (.env op)) :
    (sanitizeDomain crates domain).Calls P :=
  calls_bind (calls_env (h _)) fun _ => calls_bind calls_require fun _ => calls_ret _

theorem calls_checkTimestamp {timestamp : UInt64} (h : ∀ op, P (.env op)) :
    (checkTimestamp timestamp).Calls P := calls_bind (calls_env (h _)) fun _ => calls_require

theorem calls_validate {crates : Crates} {pubkey signature message : String} {timestamp : UInt64}
    {route : SignedRoute} (h : ∀ op, P (.env op)) :
    (validate crates pubkey signature message timestamp route).Calls P :=
  calls_bind calls_ofExcept fun _ => calls_bind (calls_checkTimestamp h) fun _ =>
    calls_bind calls_ofExcept fun _ => calls_ret _

theorem calls_storedAccountMode {pubkey : String} (h : P (.account (.getSparkAccountMode pubkey))) :
    (storedAccountMode pubkey).Calls P :=
  calls_bind (calls_mapError.mpr (calls_account h)) fun _ => calls_ret _

end Footprints

end BlinkLnurl
