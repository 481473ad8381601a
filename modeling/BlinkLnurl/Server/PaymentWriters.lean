import BlinkLnurl.Server.Effects
import BlinkLnurl.Server.Footprints

/-!
# Who writes the payment tables

Few pieces of code write the rows of a payment: a settlement, a batch, an
expiry, the callback and the two publishers of zap receipts. Every other route
makes calls that write no such row and then runs a settlement, a batch or an
expiry, or nothing. So a contract that minds only these writes is kept by every
handler once these pieces keep it (`PaymentPieces.handler`). For a contract that
minds only invoices, zaps and comments there is `PaymentWriters`, and for one
that minds only invoice rows less is left to show (`InvoiceWriters`).
-/

namespace BlinkLnurl

open Conc

/-- The calls that write invoice rows. -/
def Call.WritesInvoices : Call → Prop
  | .payment op => ¬ op.SparesInvoices
  | _ => False

/-- The operations that write no invoice, zap or comment. -/
def PaymentOp.SparesRows : PaymentOp → Prop
  | .upsertZap _ => False
  | .insertLnurlSenderComment _ => False
  | op => op.SparesInvoices

/-- The calls that write invoices, zaps or comments. -/
def Call.WritesRows : Call → Prop
  | .payment op => ¬ op.SparesRows
  | _ => False

/-- The operations that only read, and those of the webhook worker. -/
def PaymentOp.IsQuiet : PaymentOp → Prop
  | .getZapByPaymentHash _ => True
  | .filterKnownPaymentHashes _ => True
  | .getInvoiceByPaymentHash _ => True
  | .getZapAndInvoiceByPaymentHash _ => True
  | .getWebhookPayloads _ => True
  | .takePendingWebhookDeliveries => True
  | .webhook _ => True
  | _ => False

/-- The calls that write the payment tables, but for the webhook worker's. -/
def Call.WritesPayments : Call → Prop
  | .payment op => ¬ op.IsQuiet
  | _ => False

theorem writesPayments_of_writesRows {c : Call} (h : c.WritesRows) : c.WritesPayments := by
  cases c with
  | payment op => cases op <;> first | exact id | exact absurd trivial h
  | account op => exact h
  | env op => exact h

theorem quiet_env (op : EnvOp) : ¬ Call.WritesPayments (.env op) := id

theorem quiet_of_onAccounts (c : Call) (h : c.OnAccounts) : ¬ c.WritesPayments := by
  cases c with
  | payment op => exact absurd h id
  | account op => exact id
  | env op => exact id

theorem quiet_of_lookup (c : Call) (h : c.IsLookup) : ¬ c.WritesPayments := by
  cases c with
  | payment op => exact absurd h id
  | account op => exact id
  | env op => exact id

theorem quiet_of_onDeliveries (c : Call) (h : c.Within PaymentOp.OnDeliveries) :
    ¬ c.WritesPayments := by
  cases c with
  | payment op => cases op <;> first | exact not_not.mpr trivial | exact absurd h id
  | account op => exact id
  | env op => exact id

theorem writesRows_of_writesInvoices {c : Call} (h : c.WritesInvoices) : c.WritesRows := by
  cases c with
  | payment op => cases op <;> first | exact h | exact absurd trivial h
  | account op => exact h
  | env op => exact h

theorem spares_of_sparesInvoices (c : Call) (h : c.SparesInvoices) : ¬ c.WritesInvoices := by
  cases c with
  | payment op => exact not_not.mpr h
  | account op => exact id
  | env op => exact id

/-- A call that spares invoices leaves every row. -/
theorem invoiceOf_of_sparesInvoices {c : Call} {ch : Choice c} {r : Reply c} {w w' : World}
    (hc : c.SparesInvoices) (hexec : exec c ch w = some (r, w')) (k : String) :
    w'.payments.invoiceOf k = w.payments.invoiceOf k := by
  have hchange := exec_invoice hexec k
  generalize w'.payments.invoiceOf k = new at hchange ⊢
  cases hchange with
  | keeps => rfl
  | upserts => exact hc.elim
  | settles => exact hc.elim
  | expires => exact hc.elim

theorem sparesRows_of_notice (c : Call) (h : c.IsNotice) : ¬ c.WritesRows := by
  cases c with
  | payment op => cases op <;> first | exact not_not.mpr trivial | exact absurd h id
  | account op => exact id
  | env op => exact id

theorem sparesRows_of_lookup (c : Call) (h : c.IsLookup) : ¬ c.WritesRows := by
  cases c with
  | payment op => exact absurd h id
  | account op => exact id
  | env op => exact id

/-- An account request makes no payment call. -/
theorem calls_handler_onAccounts {state : State} {q : Request} (hq : q.IsAccountRequest) :
    (handler state q).Calls Call.OnAccounts := by
  have andReturn : ∀ {α : Type} {p : Handler α} {r : α → Response}, p.Calls Call.OnAccounts →
      (p.bind fun a => .ret (r a)).Calls Call.OnAccounts :=
    fun hp => Prog.calls_bind hp fun _ => Prog.calls_ret _
  have henv : ∀ op, Call.OnAccounts (.env op) := fun _ => trivial
  cases q with
  | register => exact andReturn (calls_register henv (fun _ => trivial) fun _ => trivial)
  | transfer =>
      exact andReturn (calls_transfer henv (fun _ => trivial) (fun _ _ => trivial)
        (fun _ => trivial) fun _ => trivial)
  | unregister =>
      exact andReturn (calls_unregister henv (fun _ => trivial) fun _ _ _ _ => trivial)
  | setMode =>
      exact andReturn (calls_setMode henv (fun _ => trivial) (fun _ => trivial) (fun _ => trivial)
        fun _ => trivial)
  | transferIdentifierToSpark =>
      exact andReturn (calls_transferIdentifierToSpark (fun _ _ => trivial) (fun _ => trivial)
        fun _ => trivial)
  | createInternalBlinkAccount =>
      exact andReturn (calls_createInternalBlinkAccount henv fun _ => trivial)
  | updateInternalBlinkAccount =>
      exact andReturn (calls_updateInternalBlinkAccount fun _ _ => trivial)
  | pruneSignedMessages => exact andReturn (calls_pruneSignedMessages henv fun _ => trivial)
  | refreshCountryEvidence =>
      exact andReturn (calls_refreshCountryEvidence henv fun _ => trivial)
  | _ => exact absurd hq (by unfold Request.IsAccountRequest; exact id)

/-- The pieces that write the payment tables keep to the contract while they serve
`q`, and the contract minds no other call. -/
structure PaymentPieces (K : Contract Request Call Reply World)
    (ok : History → CallEvent → Prop) (state : State) (q : Request) : Prop where
  spares : ∀ {i h c}, K.inv h → ¬ c.WritesPayments → K.guard i q h c
  paid : ∀ {i h paymentHash preimage amount},
    K.wp semantics ok i q (handleInvoicePaid state.crates paymentHash preimage amount)
      (fun _ _ => True) h
  batch : ∀ {i h items userPubkey},
    K.wp semantics ok i q (handleInvoicesPaid state.crates items userPubkey) (fun _ _ => True) h
  expires : ∀ {i h paymentHash},
    K.wp semantics ok i q (expireBlinkInvoiceByPaymentHash state paymentHash) (fun _ _ => True) h
  callback : ∀ {i h domain identifier params},
    K.wp semantics ok i q (handleInvoiceForResolvedDomain state domain identifier params)
      (fun _ _ => True) h
  publish : ∀ {i h pubkey paymentHash payload}, q = .publishZapReceipt pubkey paymentHash payload →
    K.wp semantics ok i q (publishZapReceipt state pubkey paymentHash payload) (fun _ _ => True) h
  process : ∀ {i h rounds},
    K.wp semantics ok i q (processPendingZapReceipts state rounds) (fun _ _ => True) h

namespace PaymentPieces

variable {K : Contract Request Call Reply World} {ok : History → CallEvent → Prop} {state : State}
  {i : Nat} {q : Request} {h : History} {ε α β : Type}

theorem carries (W : PaymentPieces K ok state q) :
    K.Carries semantics ok i q (fun c => ¬ c.WritesPayments) fun _ => True where
  rely := fun _ _ => trivial
  guard := W.spares
  call := fun _ _ _ _ _ => trivial

/-- A part that writes no row, then the rest. -/
theorem spared_bind (W : PaymentPieces K ok state q) {p : Prog Call Reply ε α}
    {f : α → Prog Call Reply ε β} (hp : p.Calls fun c => ¬ c.WritesPayments)
    (hf : ∀ a h, K.wp semantics ok i q (f a) (fun _ _ => True) h) :
    K.wp semantics ok i q (p.bind f) (fun _ _ => True) h :=
  W.carries.bind hp (fun _ => trivial) trivial fun a h _ => hf a h

theorem spared (W : PaymentPieces K ok state q) {p : Prog Call Reply ε α}
    (hp : p.Calls fun c => ¬ c.WritesPayments) :
    K.wp semantics ok i q p (fun _ _ => True) h :=
  W.carries.last hp (fun _ => trivial) trivial

/-- A part that keeps to the contract, then one that writes no row. -/
theorem then_spared (W : PaymentPieces K ok state q) {p : Prog Call Reply ε α}
    {f : α → Prog Call Reply ε β} (hp : K.wp semantics ok i q p (fun _ _ => True) h)
    (hf : ∀ a, (f a).Calls fun c => ¬ c.WritesPayments) :
    K.wp semantics ok i q (p.bind f) (fun _ _ => True) h := by
  refine Contract.wp_bind.mpr (Contract.wp_mono ?_ hp)
  intro h r _
  cases r with
  | ok a => exact W.spared (hf a)
  | error e => exact trivial

theorem mapError {ε' : Type} {p : Prog Call Reply ε α} {e : ε → ε'}
    (hp : K.wp semantics ok i q p (fun _ _ => True) h) :
    K.wp semantics ok i q (p.mapError e) (fun _ _ => True) h :=
  Contract.wp_mapError.mpr hp

theorem attempt {ε' : Type} {p : Prog Call Reply ε α}
    (hp : K.wp semantics ok i q p (fun _ _ => True) h) :
    K.wp semantics ok i q (p.attempt : Prog Call Reply ε' (Except ε α)) (fun _ _ => True) h :=
  Contract.wp_attempt.mpr hp

theorem calls_read {paymentHash : String} :
    (Store.payment (.getInvoiceByPaymentHash paymentHash)).Calls fun c => ¬ c.WritesPayments :=
  calls_payment (not_not.mpr trivial)

theorem settleBlinkInvoice (W : PaymentPieces K ok state q) {paymentHash : String}
    {supplied : Option String} :
    K.wp semantics ok i q (settleBlinkInvoiceByPaymentHash state paymentHash supplied)
      (fun _ _ => True) h := by
  simp only [settleBlinkInvoiceByPaymentHash, Prog.bind_eq, Prog.pure_eq]
  refine W.spared_bind (Prog.calls_mapError.mpr calls_read) fun stored h => ?_
  split
  · refine W.spared_bind (calls_settlementPreimage_env quiet_env) fun settlement h => ?_
    cases settlement with
    | none => exact Contract.wp_ret.mpr trivial
    | some settlement => exact W.then_spared (mapError W.paid) fun _ => Prog.calls_ret _
  · exact Contract.wp_ret.mpr trivial

theorem verify (W : PaymentPieces K ok state q) {paymentHash : String} :
    K.wp semantics ok i q (BlinkLnurl.verify state paymentHash) (fun _ _ => True) h := by
  simp only [BlinkLnurl.verify, Prog.bind_eq, Prog.pure_eq]
  refine W.spared_bind (Prog.calls_attempt.mpr calls_read) fun stored h => ?_
  cases stored with
  | error e => exact Contract.wp_ret.mpr trivial
  | ok stored =>
      cases stored with
      | none => exact Contract.wp_ret.mpr trivial
      | some invoice =>
          refine W.then_spared (attempt ?_) fun preimage => ?_
          · unfold verifiedPreimage
            split
            · exact W.settleBlinkInvoice
            · exact Contract.wp_ret.mpr trivial
          · cases preimage <;> exact Prog.calls_ret _

theorem invoicePaid (W : PaymentPieces K ok state q) {pubkey : String}
    {payload : InvoicePaidRequest} :
    K.wp semantics ok i q (BlinkLnurl.invoicePaid state pubkey payload) (fun _ _ => True) h := by
  simp only [BlinkLnurl.invoicePaid, Prog.bind_eq]
  refine W.spared_bind (calls_validate quiet_env) fun _ h => ?_
  refine W.spared_bind Prog.calls_ofExcept fun _ h => ?_
  refine W.spared_bind (Prog.calls_mapError.mpr calls_read) fun stored h => ?_
  exact W.spared_bind Prog.calls_require fun _ h => mapError W.paid

theorem invoicesPaid (W : PaymentPieces K ok state q) {pubkey : String}
    {payload : InvoicesPaidRequest} :
    K.wp semantics ok i q (BlinkLnurl.invoicesPaid state pubkey payload) (fun _ _ => True) h := by
  simp only [BlinkLnurl.invoicesPaid, Prog.bind_eq]
  refine W.spared_bind Prog.calls_require fun _ h => ?_
  refine W.spared_bind Prog.calls_require fun _ h => ?_
  exact W.spared_bind (calls_validate quiet_env) fun _ h => mapError W.batch

theorem webhook (W : PaymentPieces K ok state q) {header : Option String} {body : Bytes} :
    K.wp semantics ok i q (BlinkLnurl.webhook state header body) (fun _ _ => True) h := by
  simp only [BlinkLnurl.webhook, Prog.bind_eq, Prog.pure_eq]
  refine W.spared_bind Prog.calls_ofExcept fun payload h => ?_
  split
  · exact Contract.wp_ret.mpr trivial
  · refine W.spared_bind Prog.calls_ofExcept fun _ h => ?_
    refine W.spared_bind Prog.calls_ofExcept fun _ h => ?_
    refine W.spared_bind (Prog.calls_mapError.mpr calls_read) fun stored h => ?_
    split
    · exact mapError W.paid
    · exact Contract.wp_ret.mpr trivial

theorem blinkWebhook (W : PaymentPieces K ok state q) {payload : BlinkInvoiceWebhookPayload} :
    K.wp semantics ok i q (BlinkLnurl.blinkWebhook state payload) (fun _ _ => True) h := by
  simp only [BlinkLnurl.blinkWebhook, Prog.bind_eq, Prog.pure_eq]
  refine W.spared_bind Prog.calls_ofExcept fun _ h => ?_
  cases payload.status with
  | paid => exact W.then_spared (mapError W.settleBlinkInvoice) fun _ => Prog.calls_ret _
  | expired => exact mapError W.expires

/-- Every handler keeps to the contract. -/
theorem handler (W : PaymentPieces K ok state q) :
    K.wp semantics ok i q (BlinkLnurl.handler state q) (fun _ _ => True) h := by
  have delivers : ∀ {q' : Request}, q'.IsDeliveryTask →
      (BlinkLnurl.handler state q').Calls fun c => ¬ c.WritesPayments :=
    fun hq => (calls_handler_onDeliveries hq).mono quiet_of_onDeliveries
  by_cases haccount : q.IsAccountRequest
  · exact W.spared ((calls_handler_onAccounts haccount).mono quiet_of_onAccounts)
  · cases q with
    | handleLnurlPay =>
        exact W.spared (Prog.calls_bind (calls_handleLnurlPay.mono quiet_of_lookup)
          fun _ => Prog.calls_ret _)
    | handleInvoice =>
        refine W.then_spared ?_ fun _ => Prog.calls_ret _
        refine W.spared_bind Prog.calls_require fun _ h => ?_
        exact W.spared_bind (calls_sanitizeDomain quiet_env) fun _ h => W.callback
    | handleInvoiceForDomain =>
        refine W.then_spared ?_ fun _ => Prog.calls_ret _
        refine W.spared_bind Prog.calls_require fun _ h => ?_
        refine W.spared_bind Prog.calls_require fun _ h => ?_
        exact W.spared_bind (calls_sanitizeDomain quiet_env) fun _ h => W.callback
    | verify => exact W.then_spared W.verify fun _ => Prog.calls_ret _
    | invoicePaid => exact W.then_spared W.invoicePaid fun _ => Prog.calls_ret _
    | invoicesPaid => exact W.then_spared W.invoicesPaid fun _ => Prog.calls_ret _
    | webhook => exact W.then_spared W.webhook fun _ => Prog.calls_ret _
    | blinkWebhook => exact W.then_spared W.blinkWebhook fun _ => Prog.calls_ret _
    | publishZapReceipt => exact W.then_spared (W.publish rfl) fun _ => Prog.calls_ret _
    | processPendingZapReceipts => exact W.then_spared W.process fun _ => Prog.calls_ret _
    | processPendingWebhookDeliveries => exact W.spared (delivers trivial)
    | processWebhookDelivery => exact W.spared (delivers trivial)
    | cleanupOldWebhookDeliveries => exact W.spared (delivers trivial)
    | _ => exact absurd trivial haccount

end PaymentPieces

/-- The pieces that write rows of payments keep to the contract, and the
contract minds no other call. -/
structure PaymentWriters (K : Contract Request Call Reply World)
    (ok : History → CallEvent → Prop) (state : State) : Prop where
  spares : ∀ {i q h c}, K.inv h → ¬ c.WritesRows → K.guard i q h c
  paid : ∀ {i q h paymentHash preimage amount},
    K.wp semantics ok i q (handleInvoicePaid state.crates paymentHash preimage amount)
      (fun _ _ => True) h
  batch : ∀ {i q h items userPubkey},
    K.wp semantics ok i q (handleInvoicesPaid state.crates items userPubkey) (fun _ _ => True) h
  expires : ∀ {i q h paymentHash},
    K.wp semantics ok i q (expireBlinkInvoiceByPaymentHash state paymentHash) (fun _ _ => True) h
  callback : ∀ {i q h domain identifier params},
    K.wp semantics ok i q (handleInvoiceForResolvedDomain state domain identifier params)
      (fun _ _ => True) h
  publish : ∀ {i h pubkey paymentHash payload},
    K.wp semantics ok i (.publishZapReceipt pubkey paymentHash payload)
      (publishZapReceipt state pubkey paymentHash payload) (fun _ _ => True) h
  process : ∀ {i q h rounds},
    K.wp semantics ok i q (processPendingZapReceipts state rounds) (fun _ _ => True) h

/-- Such a contract minds the pieces that write the payment tables. -/
theorem PaymentWriters.pieces {K : Contract Request Call Reply World}
    {ok : History → CallEvent → Prop} {state : State} {q : Request}
    (W : PaymentWriters K ok state) :
    PaymentPieces K ok state q where
  spares := fun hinv hc => W.spares hinv fun hrows => hc (writesPayments_of_writesRows hrows)
  paid := W.paid
  batch := W.batch
  expires := W.expires
  callback := W.callback
  publish := fun hq => by
    subst hq
    exact W.publish
  process := W.process

theorem PaymentWriters.handler {K : Contract Request Call Reply World}
    {ok : History → CallEvent → Prop} {state : State} {i : Nat} {q : Request} {h : History}
    (W : PaymentWriters K ok state) :
    K.wp semantics ok i q (BlinkLnurl.handler state q) (fun _ _ => True) h := W.pieces.handler

/-! ## Contracts about invoice rows only -/

/-- The pieces that write invoice rows of payments that are known keep to the
contract, and the contract minds no other call. -/
structure SettlementWriters (K : Contract Request Call Reply World)
    (ok : History → CallEvent → Prop) (state : State) : Prop where
  spares : ∀ {i q h c}, K.inv h → ¬ c.WritesInvoices → K.guard i q h c
  paid : ∀ {i q h paymentHash preimage amount},
    K.wp semantics ok i q (handleInvoicePaid state.crates paymentHash preimage amount)
      (fun _ _ => True) h
  batch : ∀ {i q h items userPubkey},
    K.wp semantics ok i q (handleInvoicesPaid state.crates items userPubkey) (fun _ _ => True) h
  expires : ∀ {i q h paymentHash},
    K.wp semantics ok i q (expireBlinkInvoiceByPaymentHash state paymentHash) (fun _ _ => True) h

/-- And so does the piece that writes new ones. -/
structure InvoiceWriters (K : Contract Request Call Reply World)
    (ok : History → CallEvent → Prop) (state : State) : Prop
    extends SettlementWriters K ok state where
  create : ∀ {i q h paymentHash accountId provider invoice userPubkey expiry domain},
    K.wp semantics ok i q (createProviderInvoiceForAccount paymentHash accountId provider invoice
      userPubkey expiry domain) (fun _ _ => True) h

section Writers

variable {K : Contract Request Call Reply World} {ok : History → CallEvent → Prop} {state : State}
  {i : Nat} {q : Request} {h : History} {ε α β : Type}

namespace SettlementWriters

/-- A part that writes no invoice row. -/
theorem spared (W : SettlementWriters K ok state) {p : Prog Call Reply ε α}
    (hp : p.Calls Call.SparesInvoices) : K.wp semantics ok i q p (fun _ _ => True) h := by
  have carries : K.Carries semantics ok i q (fun c => ¬ c.WritesInvoices) fun _ => True :=
    ⟨fun _ _ => trivial, W.spares, fun _ _ _ _ _ => trivial⟩
  exact carries.last (hp.mono spares_of_sparesInvoices) (fun _ => trivial) trivial

/-- The same before or after a part that keeps to the contract. -/
theorem spared_bind (W : SettlementWriters K ok state) {p : Prog Call Reply ε α}
    {f : α → Prog Call Reply ε β} (hp : p.Calls Call.SparesInvoices)
    (hf : ∀ a h, K.wp semantics ok i q (f a) (fun _ _ => True) h) :
    K.wp semantics ok i q (p.bind f) (fun _ _ => True) h := by
  refine Contract.wp_bind.mpr (Contract.wp_mono ?_ (W.spared hp))
  intro h r _
  cases r with
  | ok a => exact hf a h
  | error e => exact trivial

theorem then_spared (W : SettlementWriters K ok state) {p : Prog Call Reply ε α}
    {f : α → Prog Call Reply ε β} (hp : K.wp semantics ok i q p (fun _ _ => True) h)
    (hf : ∀ a, (f a).Calls Call.SparesInvoices) :
    K.wp semantics ok i q (p.bind f) (fun _ _ => True) h := by
  refine Contract.wp_bind.mpr (Contract.wp_mono ?_ hp)
  intro h r _
  cases r with
  | ok a => exact W.spared (hf a)
  | error e => exact trivial

theorem publish (W : SettlementWriters K ok state) {pubkey paymentHash : String}
    {payload : PublishZapReceiptRequest} :
    K.wp semantics ok i q (publishZapReceipt state pubkey paymentHash payload)
      (fun _ _ => True) h := by
  simp only [publishZapReceipt, Prog.bind_eq, Prog.pure_eq]
  refine W.spared_bind (calls_validate within_env) fun _ h => ?_
  refine W.spared_bind Prog.calls_ofExcept fun zapReceipt h => ?_
  refine W.spared_bind (Prog.calls_mapError.mpr (calls_payment trivial)) fun stored h => ?_
  refine W.spared_bind Prog.calls_ofExcept fun zap h => ?_
  refine W.spared_bind Prog.calls_require fun _ h => ?_
  refine W.then_spared ?_ fun _ => ?_
  · cases findPreimage zapReceipt.tags with
    | none => exact Contract.wp_ret.mpr trivial
    | some preimage =>
        refine W.then_spared (Contract.wp_attempt.mpr W.paid) fun settled => ?_
        split
        · exact Prog.calls_fail _
        · exact Prog.calls_ret _
  · -- what is left reads the request, publishes and writes the zap row
    cases zap.zapEvent with
    | some stored => exact Prog.calls_ret _
    | none =>
        refine Prog.calls_bind Prog.calls_ofExcept fun _ => ?_
        refine Prog.calls_bind (calls_receiptToPublish.mono Call.IsNotice.sparesInvoices)
          fun _ => ?_
        refine Prog.calls_bind (calls_sendToRelays.mono Call.IsNotice.sparesInvoices) fun _ => ?_
        refine Prog.calls_bind (calls_nowMillis within_env) fun _ => ?_
        exact Prog.calls_bind (Prog.calls_mapError.mpr (calls_payment trivial))
          fun _ => Prog.calls_ret _

/-- What is left to show is the callback. -/
theorem paymentWriters (W : SettlementWriters K ok state)
    (hcallback : ∀ {i q h domain identifier params},
      K.wp semantics ok i q (handleInvoiceForResolvedDomain state domain identifier params)
        (fun _ _ => True) h) : PaymentWriters K ok state where
  spares := fun hinv hc => W.spares hinv fun hwrites => hc (writesRows_of_writesInvoices hwrites)
  paid := W.paid
  batch := W.batch
  expires := W.expires
  callback := hcallback
  publish := W.publish
  process := W.spared calls_processPendingZapReceipts

end SettlementWriters

namespace InvoiceWriters

/-- The callback writes its invoice row last. -/
theorem callback (W : InvoiceWriters K ok state) {domain identifier : String}
    {params : LnurlPayCallbackParams} :
    K.wp semantics ok i q (handleInvoiceForResolvedDomain state domain identifier params)
      (fun _ _ => True) h := by
  have lookup : ∀ c, Call.IsLookup c → c.SparesInvoices :=
    Call.Within.mono fun _ hop => absurd hop id
  simp only [handleInvoiceForResolvedDomain, Prog.bind_eq, Prog.pure_eq]
  refine W.spared_bind Prog.calls_require fun _ h => ?_
  refine W.spared_bind (calls_publicRecipient.mono lookup) fun recipient h => ?_
  refine W.spared_bind (calls_requireReceiving.mono lookup) fun _ h => ?_
  refine W.spared_bind Prog.calls_ofExcept fun amount h => ?_
  refine W.spared_bind Prog.calls_ofExcept fun description h => ?_
  refine W.spared_bind Prog.calls_ofExcept fun expiry h => ?_
  refine W.spared_bind (calls_resolveMinSendableMsat.mono lookup) fun _ h => ?_
  refine W.spared_bind Prog.calls_require fun _ h => ?_
  refine W.spared_bind (calls_env trivial) fun answer h => ?_
  refine W.spared_bind Prog.calls_ofExcept fun res h => ?_
  refine W.spared_bind Prog.calls_ofExcept fun checked h => ?_
  refine W.spared_bind (calls_nowMillis within_env) fun now h => ?_
  refine W.spared_bind (Prog.calls_mapError.mpr (calls_storeZapAndComment.mono
    Call.PreparesInvoice.sparesInvoices)) fun _ h => ?_
  exact W.then_spared (Contract.wp_mapError.mpr W.create) fun _ => Prog.calls_ret _

theorem paymentWriters (W : InvoiceWriters K ok state) : PaymentWriters K ok state :=
  W.toSettlementWriters.paymentWriters W.callback

end InvoiceWriters

end Writers

end BlinkLnurl
