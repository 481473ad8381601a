import BlinkLnurl.Repository.OutcomeReports
import BlinkLnurl.Server.Server

/-!
# Footprints of the routes

Which calls a route can make at all, whatever the replies. Of the account
routes, those are listed that never write identifiers by a signed statement.
The payment routes make payment calls and read accounts; of their parts, most
write no invoice row (`SparesInvoices`), a settlement touches no zap row
(`SparesZaps`), and what follows a settlement does neither (`IsNotice`).
-/

namespace BlinkLnurl

open Conc Prog

section Accounts

variable {P : Call → Prop} {state : State}

/-- Mode requests, the internal account routes and the country refresh. -/
def AccountOp.IsUpkeep : AccountOp → Prop
  | .upsertSparkRegistration _ => False
  | .deleteSparkRegistration _ _ _ _ => False
  | .transferIdentifier _ => False
  | .transferBlinkIdentifierToSpark _ => False
  | .deleteExpiredSignedMessages _ => False
  | _ => True

def Call.IsUpkeep : Call → Prop
  | .account op => op.IsUpkeep
  | .payment _ => False
  | .env _ => True

section Routes

variable (henv : ∀ op, P (.env op))

include henv

theorem calls_register {host : Host} {pubkey : String} {payload : RegisterLnurlPayRequest}
    (hmode : ∀ pubkey, P (.account (.getSparkAccountMode pubkey)))
    (hwrite : ∀ registration, P (.account (.upsertSparkRegistration registration))) :
    (register state host pubkey payload).Calls P := by
  simp only [register, bind_eq, pure_eq]
  refine calls_bind calls_ofExcept fun _ => calls_bind calls_ofExcept fun _ => ?_
  refine calls_bind calls_ofExcept fun _ => calls_bind (calls_sanitizeDomain henv) fun _ => ?_
  refine calls_bind calls_ofExcept fun _ => calls_bind (calls_checkTimestamp henv) fun _ => ?_
  refine calls_bind calls_ofExcept fun _ =>
    calls_bind (calls_storedAccountMode (hmode _)) fun _ => ?_
  refine calls_bind calls_require fun _ => ?_
  exact calls_bind (calls_mapError.mpr (calls_account (hwrite _))) fun _ => calls_ret _

theorem calls_unregister {host : Host} {pubkey : String} {payload : UnregisterLnurlPayRequest}
    (hread : ∀ pubkey, P (.account (.getAccountBySparkPubkey pubkey)))
    (hwrite : ∀ domain pubkey identifier claim,
      P (.account (.deleteSparkRegistration domain pubkey identifier claim))) :
    (unregister state host pubkey payload).Calls P := by
  simp only [unregister, bind_eq]
  refine calls_bind calls_ofExcept fun _ => calls_bind calls_ofExcept fun _ => ?_
  refine calls_bind (calls_sanitizeDomain henv) fun _ => calls_bind calls_ofExcept fun _ => ?_
  refine calls_bind (calls_checkTimestamp henv) fun _ => calls_bind calls_ofExcept fun _ => ?_
  refine calls_bind (calls_mapError.mpr (calls_account (hread _))) fun _ => ?_
  exact calls_mapError.mpr (calls_account (hwrite _ _ _ _))

theorem calls_transfer {host : Host} {toPubkey : String} {payload : TransferLnurlPayRequest}
    (hmode : ∀ pubkey, P (.account (.getSparkAccountMode pubkey)))
    (hread : ∀ domain identifier, P (.account (.resolveRecipientByIdentifier domain identifier)))
    (hwrite : ∀ transfer, P (.account (.transferIdentifier transfer)))
    (hfill : ∀ pubkey, P (.account (.setSparkModeEnhancedIfUnset pubkey))) :
    (transfer state host toPubkey payload).Calls P := by
  simp only [transfer, bind_eq, pure_eq]
  refine calls_bind calls_ofExcept fun _ => calls_bind calls_ofExcept fun _ => ?_
  refine calls_bind calls_ofExcept fun _ => calls_bind (calls_sanitizeDomain henv) fun _ => ?_
  refine calls_bind calls_ofExcept fun _ => calls_bind calls_ofExcept fun _ => ?_
  refine calls_bind calls_ofExcept fun _ => ?_
  refine calls_bind (calls_mapError.mpr (calls_checkTimestamp henv)) fun _ => ?_
  refine calls_bind calls_ofExcept fun _ => calls_bind calls_ofExcept fun _ => ?_
  refine calls_bind calls_require fun _ =>
    calls_bind (calls_storedAccountMode (hmode _)) fun _ => ?_
  refine calls_bind calls_require fun _ => ?_
  refine calls_bind (calls_mapError.mpr (calls_account (hread _ _))) fun _ => ?_
  refine calls_bind calls_ofExcept fun _ => calls_bind calls_require fun _ => ?_
  refine calls_bind (calls_mapError.mpr (calls_account (hwrite _))) fun _ => ?_
  exact calls_bind (calls_attempt.mpr (calls_account (hfill _))) fun _ => calls_ret _

omit henv in
theorem calls_upsertSparkMode {update : SparkModeUpdate}
    (hlook : P (.account (.sparkAccountIdByPubkey update.pubkey)))
    (hinsert : P (.account (.insertSparkAccount update.pubkey)))
    (hwrite : P (.account (.updateSparkMode update)))
    (hread : P (.account (.getSparkAccountMode update.pubkey))) :
    (upsertSparkMode update).Calls P := by
  simp only [upsertSparkMode, ensureSparkAccount, bind_eq, pure_eq]
  refine calls_bind (calls_bind (calls_account hlook) fun stored => ?_) fun _ => ?_
  · cases stored with
    | none => exact calls_account hinsert
    | some _ => exact calls_ret _
  · refine calls_bind (calls_account hwrite) fun updated => ?_
    cases updated with
    | true => exact calls_ret _
    | false => exact calls_bind (calls_account hread) fun _ => calls_ofExcept

theorem calls_setMode {host : Host} {pubkey : String} {payload : SetLnurlPayModeRequest}
    (hlook : ∀ pubkey, P (.account (.sparkAccountIdByPubkey pubkey)))
    (hinsert : ∀ pubkey, P (.account (.insertSparkAccount pubkey)))
    (hwrite : ∀ update, P (.account (.updateSparkMode update)))
    (hread : ∀ pubkey, P (.account (.getSparkAccountMode pubkey))) :
    (setMode state host pubkey payload).Calls P := by
  simp only [setMode, bind_eq, pure_eq]
  refine calls_bind calls_ofExcept fun _ => calls_bind calls_ofExcept fun mode => ?_
  refine calls_bind (calls_env (henv _)) fun _ => calls_bind calls_require fun _ => ?_
  refine calls_bind (calls_sanitizeDomain henv) fun _ => calls_bind calls_ofExcept fun _ => ?_
  refine calls_bind (calls_checkTimestamp henv) fun _ => calls_bind calls_ofExcept fun _ => ?_
  refine calls_bind calls_require fun _ => calls_bind (calls_now henv) fun _ => ?_
  refine calls_bind calls_require fun _ => calls_bind ?_ fun _ => ?_
  · cases mode with
    | enhanced => exact calls_env (henv _)
    | anon => exact calls_ret _
  · refine calls_bind (calls_mapError.mpr ?_) fun _ => calls_ret _
    exact calls_upsertSparkMode (hlook _) (hinsert _) (hwrite _) (hread _)

omit henv in
theorem calls_transferIdentifierToSpark {principal : InternalPrincipal}
    {body : Option InternalTransferToSparkRequest}
    (hread : ∀ domain identifier, P (.account (.resolveRecipientByIdentifier domain identifier)))
    (hwrite : ∀ transfer, P (.account (.transferBlinkIdentifierToSpark transfer)))
    (hfill : ∀ pubkey, P (.account (.setSparkModeEnhancedIfUnset pubkey))) :
    (transferIdentifierToSpark state principal body).Calls P := by
  simp only [transferIdentifierToSpark, bind_eq, pure_eq]
  refine calls_bind calls_ofExcept fun _ => calls_bind calls_ofExcept fun _ => ?_
  refine calls_bind calls_ofExcept fun _ => calls_bind calls_ofExcept fun _ => ?_
  refine calls_bind calls_ofExcept fun _ => calls_bind calls_ofExcept fun _ => ?_
  refine calls_bind calls_ofExcept fun _ => calls_bind calls_ofExcept fun _ => ?_
  refine calls_bind (calls_mapError.mpr (calls_account (hread _ _))) fun _ => ?_
  refine calls_bind calls_ofExcept fun _ => calls_bind calls_require fun _ => ?_
  refine calls_bind (calls_mapError.mpr (calls_account (hwrite _))) fun _ => ?_
  exact calls_bind (calls_attempt.mpr (calls_account (hfill _))) fun _ => calls_ret _

theorem calls_createInternalBlinkAccount {principal : InternalPrincipal}
    {payload : CreateBlinkAccountRequest}
    (hwrite : ∀ account, P (.account (.createBlinkAccount account))) :
    (createInternalBlinkAccount state principal payload).Calls P := by
  simp only [createInternalBlinkAccount, bind_eq, pure_eq]
  refine calls_bind calls_ofExcept fun _ => calls_bind calls_ofExcept fun _ => ?_
  refine calls_bind calls_ofExcept fun _ => calls_bind calls_ofExcept fun _ => ?_
  refine calls_bind calls_ofExcept fun _ => calls_bind calls_ofExcept fun _ => ?_
  refine calls_bind calls_ofExcept fun _ => calls_bind calls_require fun _ => ?_
  refine calls_bind calls_ofExcept fun _ => calls_bind calls_ofExcept fun _ => ?_
  refine calls_bind (calls_env (henv _)) fun _ => ?_
  exact calls_bind (calls_mapError.mpr (calls_account (hwrite _))) fun _ => calls_ret _

omit henv in
theorem calls_updateInternalBlinkAccount {principal : InternalPrincipal} {id : String}
    {body : Option UpdateBlinkAccountRequest}
    (hwrite : ∀ id wallet, P (.account (.updateBlinkDefaultWallet id wallet))) :
    (updateInternalBlinkAccount state principal id body).Calls P := by
  simp only [updateInternalBlinkAccount, bind_eq]
  refine calls_bind calls_ofExcept fun _ => calls_bind calls_ofExcept fun _ => ?_
  refine calls_bind calls_ofExcept fun _ => calls_bind calls_ofExcept fun _ => ?_
  exact calls_bind calls_ofExcept fun _ => calls_mapError.mpr (calls_account (hwrite _ _))

theorem calls_pruneSignedMessages
    (hwrite : ∀ now, P (.account (.deleteExpiredSignedMessages now))) :
    pruneSignedMessages.Calls P := by
  simp only [pruneSignedMessages, bind_eq, pure_eq]
  refine calls_bind (calls_now henv) fun _ => ?_
  exact calls_bind (calls_attempt.mpr (calls_account (hwrite _))) fun _ => calls_ret _

theorem calls_refreshCountryEvidence {pubkey : String}
    (hwrite : ∀ country, P (.account (.refreshSparkCountryEvidence pubkey country))) :
    (refreshCountryEvidence pubkey).Calls P := by
  simp only [refreshCountryEvidence, bind_eq, pure_eq]
  refine calls_bind (calls_env (henv _)) fun withinLimit => ?_
  cases withinLimit with
  | false => exact calls_ret _
  | true =>
      refine calls_bind (calls_env (henv _)) fun country => ?_
      cases country with
      | none => exact calls_ret _
      | some country =>
          exact calls_bind (calls_attempt.mpr (calls_account (hwrite _))) fun _ => calls_ret _

end Routes

end Accounts

/-! ## Payment routes -/

section Payments

variable {state : State} {crates : Crates}

/-- The operations that write no invoice row. -/
def PaymentOp.SparesInvoices : PaymentOp → Prop
  | .upsertInvoice _ => False
  | .upsertInvoicesPaid _ => False
  | .markInvoiceExpired _ _ => False
  | _ => True

/-- The operations that neither read nor write zap rows. -/
def PaymentOp.SparesZaps : PaymentOp → Prop
  | .upsertZap _ => False
  | .getZapByPaymentHash _ => False
  | .getZapAndInvoiceByPaymentHash _ => False
  | _ => True

/-- The rows that the callback writes before the invoice row: a zap without a
receipt, to be signed by the server, and a comment. -/
def PaymentOp.PreparesInvoice : PaymentOp → Prop
  | .upsertZap zap => zap.zapEvent = none ∧ zap.isUserNostrKey = false
  | .insertLnurlSenderComment _ => True
  | _ => False

/-- The operations of the processor of zap receipts. -/
def PaymentOp.OnReceipts : PaymentOp → Prop
  | .takePendingZapReceipts _ => True
  | .getZapAndInvoiceByPaymentHash _ => True
  | .upsertZap _ => True
  | .updatePendingZapReceiptRetry _ _ _ => True
  | .deletePendingZapReceipt _ => True
  | _ => False

/-- The payment calls whose operation is in `W`, account reads, and the
environment. -/
def Call.Within (W : PaymentOp → Prop) : Call → Prop
  | .payment op => W op
  | c => c.OnPayments

abbrev Call.SparesInvoices : Call → Prop := Call.Within PaymentOp.SparesInvoices

abbrev Call.SparesZaps : Call → Prop := Call.Within PaymentOp.SparesZaps

abbrev Call.OnReceipts : Call → Prop := Call.Within PaymentOp.OnReceipts

abbrev Call.PreparesInvoice : Call → Prop := Call.Within PaymentOp.PreparesInvoice

/-- Account reads and the environment. -/
abbrev Call.IsLookup : Call → Prop := Call.Within fun _ => False

/-- The queue of receipts and the webhooks. -/
def Call.IsNotice : Call → Prop
  | .payment (.insertPendingZapReceipt _) => True
  | .payment (.insertPendingZapReceiptBatch _) => True
  | .payment (.getWebhookPayloads _) => True
  | .payment (.insertWebhookDeliveries _) => True
  | .payment _ => False
  | .account _ => False
  | .env _ => True

theorem within_env {W : PaymentOp → Prop} (op : EnvOp) : Call.Within W (.env op) := trivial

theorem Call.Within.mono {W W' : PaymentOp → Prop} (hW : ∀ op, W op → W' op) (c : Call)
    (h : c.Within W) : c.Within W' := by
  cases c with
  | payment op => exact hW op h
  | account op => exact h
  | env op => exact h

theorem Call.Within.onPayments {W : PaymentOp → Prop} (c : Call) (h : c.Within W) :
    c.OnPayments := by
  cases c with
  | payment op => trivial
  | account op => exact h
  | env op => trivial

theorem Call.IsNotice.sparesInvoices (c : Call) (h : c.IsNotice) : c.SparesInvoices := by
  cases c with
  | payment op => cases op <;> first | exact trivial | exact absurd h id
  | account op => exact absurd h id
  | env op => trivial

theorem Call.IsNotice.sparesZaps (c : Call) (h : c.IsNotice) : c.SparesZaps := by
  cases c with
  | payment op => cases op <;> first | exact trivial | exact absurd h id
  | account op => exact absurd h id
  | env op => trivial

theorem Call.PreparesInvoice.sparesInvoices : ∀ c, Call.PreparesInvoice c → c.SparesInvoices :=
  Call.Within.mono fun op _ => by cases op <;> trivial

theorem notice_env (op : EnvOp) : Call.IsNotice (.env op) := trivial

theorem onPayments_env (op : EnvOp) : Call.OnPayments (.env op) := trivial

theorem calls_enqueueZapReceipt {paymentHash : String} :
    (enqueueZapReceipt paymentHash).Calls Call.IsNotice := by
  simp only [enqueueZapReceipt, bind_eq]
  exact calls_bind (calls_nowMillis notice_env) fun _ => calls_payment trivial

theorem calls_enqueueZapReceipts {paymentHashes : List String} :
    (enqueueZapReceipts paymentHashes).Calls Call.IsNotice := by
  simp only [enqueueZapReceipts, bind_eq, pure_eq]
  split
  · exact calls_ret _
  · exact calls_bind (calls_nowMillis notice_env) fun _ => calls_payment trivial

theorem calls_notifyWebhooks {paymentHashes : List String} :
    (notifyWebhooks paymentHashes).Calls Call.IsNotice := by
  simp only [notifyWebhooks, bind_eq, pure_eq]
  refine calls_bind (calls_payment trivial) fun data => ?_
  split
  · exact calls_ret _
  · exact calls_bind (calls_nowMillis notice_env) fun _ => calls_payment trivial

theorem calls_storePreimage {paymentHash : String} {invoice : Invoice} {preimage : String}
    {amount : Option Int} {now : Int} :
    (storePreimage paymentHash invoice preimage amount now).Calls Call.SparesZaps := by
  simp only [storePreimage, bind_eq, pure_eq]
  split
  · exact calls_bind (calls_payment trivial) fun _ =>
      calls_enqueueZapReceipt.mono Call.IsNotice.sparesZaps
  · exact calls_ret _

theorem calls_handleInvoicePaid {paymentHash preimage : String} {amount : Option Int} :
    (handleInvoicePaid crates paymentHash preimage amount).Calls Call.SparesZaps := by
  simp only [handleInvoicePaid, bind_eq, pure_eq]
  refine calls_bind calls_ofExcept fun _ => calls_bind (calls_nowMillis within_env) fun _ => ?_
  refine calls_bind (calls_mapError.mpr (calls_payment trivial)) fun stored => ?_
  cases stored with
  | none => exact calls_ret _
  | some invoice =>
      refine calls_bind (calls_mapError.mpr calls_storePreimage) fun _ => ?_
      refine calls_bind (calls_attempt.mpr ?_) fun _ => calls_ret _
      exact calls_notifyWebhooks.mono Call.IsNotice.sparesZaps

theorem calls_handleInvoicesPaid {P : Call → Prop} {items : List PaidInvoice} {userPubkey : String}
    (hnotice : ∀ c, Call.IsNotice c → P c)
    (hknown : ∀ hashes, P (.payment (.filterKnownPaymentHashes hashes)))
    (hbatch : ∀ now invoices,
      (∀ i ∈ invoices, ∃ item ∈ items, paidInvoice crates userPubkey now item = .ok i) →
        P (.payment (.upsertInvoicesPaid invoices))) :
    (handleInvoicesPaid crates items userPubkey).Calls P := by
  simp only [handleInvoicesPaid, settleBatch, bind_eq, pure_eq]
  refine calls_bind (calls_nowMillis fun _ => hnotice _ trivial) fun now => ?_
  refine calls_ofExcept_bind fun invoices hinvoices => ?_
  refine calls_bind (calls_mapError.mpr (calls_payment (hknown _))) fun known => ?_
  split
  · exact calls_ret _
  · have hasked : ∀ i ∈ invoices.filter fun i => known.contains i.paymentHash,
        ∃ item ∈ items, paidInvoice crates userPubkey now item = .ok i :=
      fun i hi => mem_paidInvoices hinvoices (List.mem_filter.mp hi).1
    refine calls_bind (calls_mapError.mpr (calls_bind (calls_payment (hbatch now _ hasked))
      fun affected => ?_)) fun _ => calls_bind (calls_attempt.mpr ?_) fun _ => calls_ret _
    · split
      · exact calls_ret _
      · exact calls_enqueueZapReceipts.mono hnotice
    · exact calls_notifyWebhooks.mono hnotice

theorem calls_blinkPaymentStatus {P : Call → Prop} (henv : ∀ op, P (.env op))
    {paymentHash : String} : (blinkPaymentStatus state paymentHash).Calls P := by
  simp only [blinkPaymentStatus, bind_eq, pure_eq]
  split
  · refine calls_bind (calls_env (henv _)) fun status => ?_
    cases status with
    | none => exact calls_fail _
    | some status => exact calls_bind calls_require fun _ => calls_ret _
  · exact calls_ret _

theorem calls_settlementPreimage_env {P : Call → Prop} (henv : ∀ op, P (.env op))
    {paymentHash : String} {supplied : Option String} :
    (settlementPreimage state paymentHash supplied).Calls P := by
  cases supplied with
  | some preimage => exact calls_ret _
  | none => exact calls_bind (calls_blinkPaymentStatus henv) fun _ => calls_ret _

theorem calls_settlementPreimage {paymentHash : String} {supplied : Option String} :
    (settlementPreimage state paymentHash supplied).Calls Call.IsNotice :=
  calls_settlementPreimage_env notice_env

theorem calls_settleBlinkInvoice {paymentHash : String} {supplied : Option String} :
    (settleBlinkInvoiceByPaymentHash state paymentHash supplied).Calls Call.SparesZaps := by
  simp only [settleBlinkInvoiceByPaymentHash, bind_eq, pure_eq]
  refine calls_bind (calls_mapError.mpr (calls_payment trivial)) fun stored => ?_
  split
  · refine calls_bind (calls_settlementPreimage.mono Call.IsNotice.sparesZaps) fun settlement => ?_
    cases settlement with
    | none => exact calls_ret _
    | some settlement =>
        exact calls_bind (calls_mapError.mpr calls_handleInvoicePaid) fun _ => calls_ret _
  · exact calls_ret _

theorem calls_expireBlinkInvoice_env {P : Call → Prop} {paymentHash : String}
    (henv : ∀ op, P (.env op))
    (hread : P (.payment (.getInvoiceByPaymentHash paymentHash)))
    (hwrite : ∀ now, P (.payment (.markInvoiceExpired paymentHash now))) :
    (expireBlinkInvoiceByPaymentHash state paymentHash).Calls P := by
  simp only [expireBlinkInvoiceByPaymentHash, bind_eq, pure_eq]
  refine calls_bind (calls_mapError.mpr (calls_payment hread)) fun stored => ?_
  split
  · refine calls_bind (calls_blinkPaymentStatus henv) fun status => ?_
    split
    · split
      · exact calls_bind (calls_nowMillis henv) fun _ =>
          calls_mapError.mpr (calls_payment (hwrite _))
      · exact calls_ret _
    · exact calls_ret _
  · exact calls_ret _

theorem calls_expireBlinkInvoice {P : Call → Prop} {paymentHash : String}
    (hnotice : ∀ c, Call.IsNotice c → P c)
    (hread : P (.payment (.getInvoiceByPaymentHash paymentHash)))
    (hwrite : ∀ now, P (.payment (.markInvoiceExpired paymentHash now))) :
    (expireBlinkInvoiceByPaymentHash state paymentHash).Calls P :=
  calls_expireBlinkInvoice_env (fun op => hnotice _ (notice_env op)) hread hwrite

theorem calls_publicRecipient {domain identifier : String} {missing : ApiError} :
    (publicRecipient crates domain identifier missing).Calls Call.IsLookup := by
  simp only [publicRecipient, resolvePublicRecipient, bind_eq, pure_eq]
  refine calls_bind calls_ofExcept fun _ => calls_bind calls_ofExcept fun _ => ?_
  refine calls_bind ?_ fun _ => calls_ofExcept
  exact calls_bind (calls_mapError.mpr (calls_account trivial)) fun _ => calls_ret _

theorem calls_resolveMinSendableMsat {r : PublicRecipient} :
    (resolveMinSendableMsat state r).Calls Call.IsLookup := by
  simp only [resolveMinSendableMsat, bind_eq, pure_eq]
  split
  · exact calls_bind (calls_env trivial) fun _ => calls_ret _
  · exact calls_ret _

theorem calls_handleLnurlPay {host : Host} {identifier : String} :
    (handleLnurlPay state host identifier).Calls Call.IsLookup := by
  simp only [handleLnurlPay, bind_eq, pure_eq]
  refine calls_bind calls_require fun _ => calls_bind (calls_sanitizeDomain within_env) fun _ => ?_
  refine calls_bind calls_publicRecipient fun _ => ?_
  refine calls_bind calls_resolveMinSendableMsat fun _ => ?_
  exact calls_bind calls_require fun _ => calls_ret _

theorem calls_storeZapAndComment {paymentHash accountId userPubkey : String} {expiry at' : Int}
    {params : LnurlPayCallbackParams} :
    (storeZapAndComment paymentHash accountId userPubkey expiry at' params).Calls
      Call.PreparesInvoice := by
  simp only [storeZapAndComment, bind_eq]
  refine calls_bind ?_ fun _ => ?_
  · unfold storeZap
    split
    · exact calls_payment ⟨rfl, rfl⟩
    · exact calls_ret _
  · unfold storeComment
    split
    · split
      · exact calls_ret _
      · exact calls_payment trivial
    · exact calls_ret _

theorem calls_requireReceiving {recipient : PublicRecipient} :
    (requireReceiving recipient).Calls Call.IsLookup := by
  simp only [requireReceiving, bind_eq, pure_eq]
  cases recipient.recipient.sparkPubkey with
  | none => exact calls_ret _
  | some pubkey =>
      exact calls_bind (calls_mapError.mpr (calls_storedAccountMode trivial)) fun _ => calls_require

/-- A row the callback asks for: the provider's invoice, with the expiry that was
checked. -/
def CallbackRow (crates : Crates) (row : Invoice) : Prop :=
  ∃ descriptionHash amountMsat bolt11,
    checkProviderInvoice crates row.invoice descriptionHash amountMsat =
      .ok (bolt11, row.invoiceExpiry)

theorem checkProviderInvoice_ok {bolt11 descriptionHash : String} {amountMsat : Nat}
    {checked : Bolt11Invoice × Int}
    (h : checkProviderInvoice crates bolt11 descriptionHash amountMsat = .ok checked) :
    crates.bolt11 bolt11 = .ok checked.1 ∧ ∃ millis, checked.1.expiresAt = some millis ∧
      millis / 1000 < 2 ^ 63 ∧ checked.2 = (millis / 1000 : Nat) := by
  unfold checkProviderInvoice at h
  split at h
  · exact nomatch h
  · rename_i invoice hinvoice
    split at h
    · exact nomatch h
    · split at h
      · exact nomatch h
      · split at h
        · exact nomatch h
        · rename_i millis hmillis
          split at h
          · rename_i hfits
            obtain rfl := Except.ok.inj h
            exact ⟨hinvoice, millis, hmillis, hfits, rfl⟩
          · exact nomatch h

section Callback

variable {P : Call → Prop} {params : LnurlPayCallbackParams}

theorem calls_createProviderInvoice {paymentHash accountId userPubkey domain : String}
    {provider : AccountProvider} {invoice : ProviderInvoice} {expiry : Int}
    (henv : ∀ op, P (.env op))
    (hwrite : ∀ row : Invoice, row.invoice = invoice.bolt11 → row.invoiceExpiry = expiry →
      P (.payment (.upsertInvoice row))) :
    (createProviderInvoiceForAccount paymentHash accountId provider invoice userPubkey expiry
      domain).Calls P := by
  simp only [createProviderInvoiceForAccount, bind_eq]
  exact calls_bind (calls_nowMillis henv) fun _ => calls_payment (hwrite _ rfl rfl)

variable (hspares : ∀ c, Call.PreparesInvoice c → P c)
  (hwrite : ∀ row, CallbackRow state.crates row → P (.payment (.upsertInvoice row)))

include hspares hwrite

theorem calls_handleInvoiceForResolvedDomain {domain identifier : String} :
    (handleInvoiceForResolvedDomain state domain identifier params).Calls P := by
  have lookup : ∀ c, Call.IsLookup c → P c := fun c hc =>
    hspares c (Call.Within.mono (fun _ hop => absurd hop id) c hc)
  simp only [handleInvoiceForResolvedDomain, bind_eq, pure_eq]
  refine calls_bind calls_require fun _ => ?_
  refine calls_bind (calls_publicRecipient.mono lookup) fun _ => ?_
  refine calls_bind (calls_requireReceiving.mono lookup) fun _ => ?_
  refine calls_bind calls_ofExcept fun _ => ?_
  refine calls_bind calls_ofExcept fun _ => calls_bind calls_ofExcept fun _ => ?_
  refine calls_bind (calls_resolveMinSendableMsat.mono lookup) fun _ => ?_
  refine calls_bind calls_require fun _ => ?_
  refine calls_bind (calls_env (hspares _ (within_env _))) fun _ => ?_
  refine calls_bind calls_ofExcept fun res => calls_ofExcept_bind fun checked hchecked => ?_
  refine calls_bind (calls_nowMillis fun op => hspares _ (within_env op)) fun _ => ?_
  refine calls_bind (calls_mapError.mpr (calls_storeZapAndComment.mono hspares)) fun _ => ?_
  refine calls_bind (calls_mapError.mpr (calls_createProviderInvoice
    (fun op => hspares _ (within_env op)) fun row hinvoice hexpiry => ?_)) fun _ => calls_ret _
  rw [← hinvoice] at hchecked
  exact hwrite row ⟨_, _, checked.1, by rw [hexpiry, hchecked]⟩

theorem calls_handleInvoice {host : Host} {identifier : String} :
    (handleInvoice state host identifier params).Calls P := by
  simp only [handleInvoice, bind_eq]
  exact calls_bind calls_require fun _ =>
    calls_bind (calls_sanitizeDomain fun op => hspares _ (within_env op)) fun _ =>
      calls_handleInvoiceForResolvedDomain hspares hwrite

theorem calls_handleInvoiceForDomain {host : Host} {domain identifier : String} :
    (handleInvoiceForDomain state host domain identifier params).Calls P := by
  simp only [handleInvoiceForDomain, bind_eq]
  exact calls_bind calls_require fun _ => calls_bind calls_require fun _ =>
    calls_bind (calls_sanitizeDomain fun op => hspares _ (within_env op)) fun _ =>
      calls_handleInvoiceForResolvedDomain hspares hwrite

end Callback

theorem calls_verifiedPreimage {paymentHash : String} {invoice : Invoice} :
    (verifiedPreimage state paymentHash invoice).Calls Call.SparesZaps := by
  simp only [verifiedPreimage, pure_eq]
  split
  · exact calls_settleBlinkInvoice
  · exact calls_ret _

theorem calls_verify {paymentHash : String} : (verify state paymentHash).Calls Call.SparesZaps := by
  simp only [verify, bind_eq, pure_eq]
  refine calls_bind (calls_attempt.mpr (calls_payment trivial)) fun stored => ?_
  cases stored with
  | error e => exact calls_ret _
  | ok stored =>
      cases stored with
      | none => exact calls_ret _
      | some invoice =>
          refine calls_bind (calls_attempt.mpr calls_verifiedPreimage) fun preimage => ?_
          cases preimage <;> exact calls_ret _

theorem calls_invoicePaid {pubkey : String} {payload : InvoicePaidRequest} :
    (invoicePaid state pubkey payload).Calls Call.SparesZaps := by
  simp only [invoicePaid, bind_eq]
  refine calls_bind (calls_validate within_env) fun _ => calls_bind calls_ofExcept fun _ => ?_
  refine calls_bind (calls_mapError.mpr (calls_payment trivial)) fun _ => ?_
  exact calls_bind calls_require fun _ => calls_mapError.mpr calls_handleInvoicePaid

theorem calls_invoicesPaid {pubkey : String} {payload : InvoicesPaidRequest} :
    (invoicesPaid state pubkey payload).Calls Call.SparesZaps := by
  simp only [invoicesPaid, bind_eq]
  refine calls_bind calls_require fun _ => calls_bind calls_require fun _ => ?_
  exact calls_bind (calls_validate within_env) fun _ => calls_mapError.mpr
    (calls_handleInvoicesPaid Call.IsNotice.sparesZaps (fun _ => trivial) fun _ _ _ => trivial)

theorem calls_webhook {header : Option String} {body : Bytes} :
    (webhook state header body).Calls Call.SparesZaps := by
  simp only [webhook, bind_eq, pure_eq]
  refine calls_bind calls_ofExcept fun payload => ?_
  split
  · exact calls_ret _
  · refine calls_bind calls_ofExcept fun _ => calls_bind calls_ofExcept fun _ => ?_
    refine calls_bind (calls_mapError.mpr (calls_payment trivial)) fun stored => ?_
    split
    · exact calls_mapError.mpr calls_handleInvoicePaid
    · exact calls_ret _

theorem calls_blinkWebhook {payload : BlinkInvoiceWebhookPayload} :
    (blinkWebhook state payload).Calls Call.SparesZaps := by
  simp only [blinkWebhook, bind_eq, pure_eq]
  refine calls_bind calls_ofExcept fun _ => ?_
  cases payload.status with
  | paid => exact calls_bind (calls_mapError.mpr calls_settleBlinkInvoice) fun _ => calls_ret _
  | expired =>
      exact calls_mapError.mpr
        (calls_expireBlinkInvoice Call.IsNotice.sparesZaps trivial fun _ => trivial)

theorem calls_settleFromReceipt {paymentHash : String} {preimage : Option String} :
    (settleFromReceipt crates paymentHash preimage).Calls Call.SparesZaps := by
  cases preimage with
  | none => exact calls_ret _
  | some preimage =>
      refine calls_bind (calls_attempt.mpr calls_handleInvoicePaid) fun settled => ?_
      split
      · exact calls_fail _
      · exact calls_ret _

theorem calls_receiptToPublish_env {P : Call → Prop} (henv : ∀ op, P (.env op)) {zap : Zap}
    {zapReceipt zapRequest : NostrEvent} :
    (receiptToPublish state zap zapReceipt zapRequest).Calls P := by
  simp only [receiptToPublish, bind_eq, pure_eq]
  split
  · exact calls_ret _
  · split
    · exact calls_fail _
    · exact calls_bind calls_ofExcept fun _ => calls_bind (calls_env (henv _)) fun _ =>
        calls_ofExcept

theorem calls_receiptToPublish {zap : Zap} {zapReceipt zapRequest : NostrEvent} :
    (receiptToPublish state zap zapReceipt zapRequest).Calls Call.IsNotice :=
  calls_receiptToPublish_env notice_env

theorem calls_sendToRelays_env {P : Call → Prop} (henv : ∀ op, P (.env op))
    {zapRequest event : NostrEvent} : (sendToRelays zapRequest event).Calls P := by
  unfold sendToRelays
  simp only
  split
  · exact calls_ret _
  · exact calls_env (henv _)

theorem calls_sendToRelays {zapRequest event : NostrEvent} :
    (sendToRelays zapRequest event).Calls Call.IsNotice := calls_sendToRelays_env notice_env

theorem calls_publishZapReceipt {pubkey paymentHash : String} {payload : PublishZapReceiptRequest} :
    (publishZapReceipt state pubkey paymentHash payload).Calls Call.OnPayments := by
  simp only [publishZapReceipt, bind_eq, pure_eq]
  refine calls_bind (calls_validate onPayments_env) fun _ => calls_bind calls_ofExcept fun _ => ?_
  refine calls_bind (calls_mapError.mpr (calls_payment trivial)) fun _ => ?_
  refine calls_bind calls_ofExcept fun zap => calls_bind calls_require fun _ => ?_
  refine calls_bind (calls_settleFromReceipt.mono Call.Within.onPayments) fun _ => ?_
  cases zap.zapEvent with
  | some stored => exact calls_ret _
  | none =>
      refine calls_bind calls_ofExcept fun _ => ?_
      refine calls_bind ((calls_receiptToPublish.mono Call.IsNotice.sparesZaps).mono
        Call.Within.onPayments) fun _ => ?_
      refine calls_bind
        ((calls_sendToRelays.mono Call.IsNotice.sparesZaps).mono Call.Within.onPayments) fun _ => ?_
      refine calls_bind (calls_nowMillis onPayments_env) ?_
      exact fun _ => calls_bind (calls_mapError.mpr (calls_payment trivial)) fun _ => calls_ret _

theorem calls_publishPending {zap : Zap} {bolt11 preimage : String} :
    (publishPending crates zap bolt11 preimage).Calls Call.OnReceipts := by
  simp only [publishPending, bind_eq]
  refine calls_bind calls_ofExcept fun _ => calls_bind (calls_env trivial) fun _ => ?_
  refine calls_bind calls_ofExcept fun _ => calls_bind calls_require fun _ => ?_
  refine calls_bind (calls_env trivial) fun _ => calls_bind calls_require fun _ => ?_
  exact calls_bind (calls_nowMillis within_env) fun _ => calls_mapError.mpr (calls_payment trivial)

theorem calls_dropPending {paymentHash : String} :
    (dropPending paymentHash).Calls Call.OnReceipts := by
  simp only [dropPending, bind_eq, pure_eq]
  exact calls_bind (calls_attempt.mpr (calls_payment trivial)) fun _ => calls_ret _

theorem calls_publishOrRetry {item : PendingZapReceipt} {now : Int} {zap : Zap}
    {bolt11 preimage : String} :
    (publishOrRetry crates item now zap bolt11 preimage).Calls Call.OnReceipts := by
  simp only [publishOrRetry, bind_eq, pure_eq]
  refine calls_bind (calls_attempt.mpr calls_publishPending) fun published => ?_
  cases published with
  | ok _ => exact calls_dropPending
  | error e => exact calls_bind (calls_attempt.mpr (calls_payment trivial)) fun _ => calls_ret _

theorem calls_processPendingZapReceipt {item : PendingZapReceipt} :
    (processPendingZapReceipt state item).Calls Call.OnReceipts := by
  simp only [processPendingZapReceipt, bind_eq, pure_eq]
  split
  · exact calls_dropPending
  · refine calls_bind (calls_nowMillis within_env) fun now => ?_
    split
    · exact calls_dropPending
    · refine calls_bind (calls_attempt.mpr (calls_payment trivial)) fun stored => ?_
      split
      · exact calls_ret _
      · exact calls_dropPending
      · split
        · exact calls_dropPending
        · split
          · exact calls_dropPending
          · split
            · exact calls_ret _
            · exact calls_publishOrRetry

theorem calls_processBatch {items : List PendingZapReceipt} :
    (processBatch state items).Calls Call.OnReceipts := by
  induction items with
  | nil => exact calls_ret _
  | cons item rest ih => exact calls_bind calls_processPendingZapReceipt fun _ => ih

theorem calls_processPendingZapReceipts_on {rounds : Nat} :
    (processPendingZapReceipts state rounds).Calls Call.OnReceipts := by
  induction rounds with
  | zero => exact calls_ret _
  | succ rounds ih =>
      refine calls_bind (calls_attempt.mpr (calls_payment trivial)) fun pending => ?_
      split
      · exact calls_ret _
      · split
        · exact calls_ret _
        · refine calls_bind calls_processBatch fun _ => ?_
          split
          · exact calls_ret _
          · exact ih

theorem calls_processPendingZapReceipts {rounds : Nat} :
    (processPendingZapReceipts state rounds).Calls Call.SparesInvoices :=
  calls_processPendingZapReceipts_on.mono (Call.Within.mono fun op _ => by cases op <;> trivial)

end Payments

/-! ## Webhooks -/

section Webhooks

/-- The operations of the delivery worker and the clean-up. -/
def PaymentOp.OnDeliveries : PaymentOp → Prop
  | .takePendingWebhookDeliveries => True
  | .webhook _ => True
  | _ => False

/-- The write reports what became of a delivery. -/
def PaymentOp.ReportsOn (delivery : WebhookDelivery) : PaymentOp → Prop
  | .webhook w => w.IsOutcome [delivery]
  | _ => False

theorem calls_writeWebhook {W : PaymentOp → Prop} {w : WebhookWrite} (h : W (.webhook w)) :
    (writeWebhook w).Calls (Call.Within W) := by
  simp only [writeWebhook, bind_eq, pure_eq]
  exact calls_bind (calls_attempt.mpr (calls_payment h)) fun _ => calls_ret _

/-- The task that sends a delivery reports on that delivery only. -/
theorem calls_processWebhookDelivery {delivery : WebhookDelivery} :
    (processWebhookDelivery delivery).Calls (Call.Within (PaymentOp.ReportsOn delivery)) := by
  simp only [processWebhookDelivery, bind_eq]
  refine calls_bind (calls_env trivial) fun config => ?_
  cases config with
  | none =>
      show (if delivery.url.isSome then _ else _ : Handler Unit).Calls _
      split
      · exact calls_writeWebhook rfl
      · exact calls_writeWebhook rfl
  | some config =>
      refine calls_bind (calls_nowMillis within_env) fun now => ?_
      refine calls_bind (calls_env trivial) fun sent => ?_
      cases sent with
      | ok _ => exact calls_writeWebhook rfl
      | error e => exact calls_writeWebhook rfl

theorem calls_withoutPermit {deliveries : List WebhookDelivery} :
    (withoutPermit deliveries).Calls Call.IsLookup := by
  induction deliveries with
  | nil => exact calls_ret _
  | cons delivery rest ih =>
      exact calls_bind (calls_env trivial) fun _ => calls_bind ih fun _ => calls_ret _

theorem onDeliveries_of_reportsOn {delivery : WebhookDelivery} (op : PaymentOp)
    (h : op.ReportsOn delivery) : op.OnDeliveries := by
  cases op with
  | webhook w => trivial
  | _ => exact h.elim

theorem calls_processPendingWebhookDeliveries :
    processPendingWebhookDeliveries.Calls (Call.Within PaymentOp.OnDeliveries) := by
  simp only [processPendingWebhookDeliveries, bind_eq, pure_eq]
  refine calls_bind (calls_attempt.mpr (calls_payment trivial)) fun taken => ?_
  split
  · exact calls_ret _
  · refine calls_bind (calls_withoutPermit.mono (Call.Within.mono fun _ h => absurd h id))
      fun ids => ?_
    split
    · exact calls_ret _
    · exact calls_writeWebhook trivial

theorem calls_cleanupOldWebhookDeliveries {state : State} :
    (cleanupOldWebhookDeliveries state).Calls (Call.Within PaymentOp.OnDeliveries) := by
  simp only [cleanupOldWebhookDeliveries, bind_eq]
  exact calls_bind (calls_nowMillis within_env) fun _ => calls_writeWebhook trivial

end Webhooks

namespace Request

/-- The tasks that send webhooks and clean up. -/
def IsDeliveryTask : Request → Prop
  | processPendingWebhookDeliveries => True
  | processWebhookDelivery _ => True
  | cleanupOldWebhookDeliveries => True
  | _ => False

end Request

theorem calls_handler_onDeliveries {state : State} {q : Request} (hq : q.IsDeliveryTask) :
    (handler state q).Calls (Call.Within PaymentOp.OnDeliveries) := by
  cases q with
  | processPendingWebhookDeliveries =>
      exact calls_bind calls_processPendingWebhookDeliveries fun _ => calls_ret _
  | processWebhookDelivery =>
      refine calls_bind ?_ fun _ => calls_ret _
      exact calls_processWebhookDelivery.mono (Call.Within.mono onDeliveries_of_reportsOn)
  | cleanupOldWebhookDeliveries =>
      exact calls_bind calls_cleanupOldWebhookDeliveries fun _ => calls_ret _
  | _ => exact hq.elim

/-! ## The handlers -/

/-- A request that is no account request only reads accounts. -/
theorem calls_handler_onPayments {state : State} {q : Request} (hq : ¬ q.IsAccountRequest) :
    (handler state q).Calls Call.OnPayments := by
  have within : ∀ {W : PaymentOp → Prop} {α : Type} {p : Handler α} {r : α → Response},
      p.Calls (Call.Within W) → (p.bind fun a => .ret (r a)).Calls Call.OnPayments :=
    fun hp => calls_bind (hp.mono Call.Within.onPayments) fun _ => calls_ret _
  have delivers : ∀ {q' : Request}, q'.IsDeliveryTask →
      (handler state q').Calls Call.OnPayments :=
    fun hq => (calls_handler_onDeliveries hq).mono Call.Within.onPayments
  cases q with
  | handleLnurlPay => exact within calls_handleLnurlPay
  | handleInvoice =>
      exact calls_bind (calls_handleInvoice Call.Within.onPayments fun _ _ => trivial) fun _ =>
        calls_ret _
  | handleInvoiceForDomain =>
      exact calls_bind (calls_handleInvoiceForDomain Call.Within.onPayments fun _ _ => trivial)
        fun _ => calls_ret _
  | verify => exact within calls_verify
  | invoicePaid => exact within calls_invoicePaid
  | invoicesPaid => exact within calls_invoicesPaid
  | webhook => exact within calls_webhook
  | blinkWebhook => exact within calls_blinkWebhook
  | publishZapReceipt => exact calls_bind calls_publishZapReceipt fun _ => calls_ret _
  | processPendingZapReceipts => exact within calls_processPendingZapReceipts
  | processPendingWebhookDeliveries => exact delivers trivial
  | processWebhookDelivery => exact delivers trivial
  | cleanupOldWebhookDeliveries => exact delivers trivial
  | _ => exact absurd trivial hq

end BlinkLnurl
