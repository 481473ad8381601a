import BlinkLnurl.Server.PaymentContract
import BlinkLnurl.Server.PaymentWriters

/-!
# Settlement is sound

All handlers keep to `paymentContract`. So whatever is reported, and however
requests interleave, a stored preimage hashes to the payment hash of its row, a
settled row has not expired, and Blink has said of an expired one that it is;
`/verify` answers with no other preimage either. That only Blink rows expire is
shown for requests served one at a time, by providers that do not hand out a
payment hash of another provider.
-/

namespace BlinkLnurl

open Conc Rel PaymentStore

/-- The payment hash of an invoice that a provider has handed out. -/
def handedOut (crates : Crates) : CallEvent → Option (String × AccountProvider)
  | ⟨_, .env (.createInvoice request), .ok invoice⟩ =>
      match crates.bolt11 invoice.bolt11 with
      | .ok bolt11 => some (bolt11.paymentHash, request.recipient.provider)
      | .error _ => none
  | _ => none

/-- A provider hands out no payment hash under which a row of another provider is
stored. -/
def HandsOutOwn (crates : Crates) (h : History) (ev : CallEvent) : Prop :=
  ∀ k provider, handedOut crates ev = some (k, provider) →
    NoForeignRow h.state.payments k (some provider)

/-! ## The pieces that write invoices -/

section Pieces

variable {state : State} {crates : Crates} {alone : Prop} {ok : History → CallEvent → Prop}
  {h : History} {i : Nat} {q : Request} {k : String} {ε α β : Type}

theorem mayPay_of_spares {c : Call} (hc : ¬ c.WritesInvoices) :
    (paymentContract crates alone).guard i q h c := by
  intro op hop
  subst hop
  have hspares : op.SparesInvoices := not_not.mp hc
  cases op <;> first | exact trivial | exact hspares.elim

/-- What holds of all stores with the same invoices is kept by calls that spare
invoices, and by other threads where there are none. -/
theorem sparesInvoices_carries {P : PaymentStore → Prop}
    (hP : ∀ s s' : PaymentStore, (∀ k, s'.invoiceOf k = s.invoiceOf k) → P s → P s') :
    (paymentContract crates alone).Carries semantics ok i q Call.SparesInvoices
      fun h => alone → P h.state.payments where
  rely := fun {h h'} hrely hI halone => by
    refine hP _ _ (fun k => ?_) (hI halone)
    rw [invoiceOf, invoiceOf, hrely.same halone]
  guard := fun _ hc => mayPay_of_spares (spares_of_sparesInvoices _ hc)
  call := fun _ hc hexec _ hI halone =>
    hP _ _ (invoiceOf_of_sparesInvoices hc hexec) (hI halone)

theorem noForeignRow_congr {provider : Option AccountProvider} (s s' : PaymentStore)
    (hsame : ∀ k, s'.invoiceOf k = s.invoiceOf k) (h : NoForeignRow s k provider) :
    NoForeignRow s' k provider := by
  intro row p hrow
  rw [hsame] at hrow
  exact h row p hrow

/-- Nothing to carry. -/
theorem spared_carries :
    (paymentContract crates alone).Carries semantics ok i q (fun c => ¬ c.WritesInvoices)
      fun _ => True where
  rely := fun _ _ => trivial
  guard := fun _ hc => mayPay_of_spares hc
  call := fun _ _ _ _ _ => trivial

theorem sparesInvoices_of_notice (c : Call) (h : c.IsNotice) : ¬ c.WritesInvoices :=
  spares_of_sparesInvoices c (Call.IsNotice.sparesInvoices c h)

theorem storePreimage_pays {invoice : Invoice} {preimage : String} {amount : Option Int} {now : Int}
    (hpays : preimageHash crates preimage = .ok invoice.paymentHash)
    (hstored : (h.state.payments.invoiceOf invoice.paymentHash).isSome) :
    (paymentContract crates alone).wp semantics ok i q
      (storePreimage k invoice preimage amount now) (fun _ _ => True) h := by
  simp only [storePreimage, Prog.bind_eq, Prog.pure_eq]
  split
  · refine Contract.wp_bind.mpr (Contract.wp_call.mpr fun h₁ hrely _ => ⟨?_, ?_⟩)
    · intro op hop
      obtain rfl := Call.payment.inj hop
      exact Or.inr ⟨⟨preimage, rfl, hpays⟩, hrely.stored _ hstored⟩
    · intro ch r s' _ _ _
      refine Contract.wp_ofExcept.mpr ?_
      cases r with
      | error e => exact trivial
      | ok _ =>
          exact spared_carries.last (calls_enqueueZapReceipt.mono sparesInvoices_of_notice)
            (fun _ => trivial) trivial
  · exact Contract.wp_ret.mpr trivial

/-- A settlement ends well only with a preimage of the payment hash. -/
theorem handleInvoicePaid_pays {paymentHash preimage : String} {amount : Option Int} :
    (paymentContract crates alone).wp semantics ok i q
      (handleInvoicePaid crates paymentHash preimage amount)
      (fun _ r => r = .ok () → preimageHash crates preimage = .ok paymentHash) h := by
  simp only [handleInvoicePaid, Prog.bind_eq, Prog.pure_eq]
  refine Contract.wp_ofExcept_bind (fun _ hr => (by cases hr)) fun _ hverify => ?_
  have hpays := verifyPreimage_ok hverify
  refine Contract.wp_mono (Q := fun _ _ => True) (fun _ _ _ _ => hpays) ?_
  refine spared_carries.bind (calls_nowMillis fun _ => id) (fun _ => trivial) trivial
    fun now h _ => ?_
  refine Contract.wp_bind.mpr
    (Contract.wp_mapError.mpr (Contract.wp_call.mpr fun h₁ _ _ => ⟨?_, ?_⟩))
  · exact mayPay_of_spares (not_not.mpr trivial)
  · intro ch r s' hexec _ _
    refine Contract.wp_ofExcept.mpr ?_
    cases r with
    | error e => exact trivial
    | ok stored =>
        cases stored with
        | none => exact Contract.wp_ret.mpr trivial
        | some invoice =>
            obtain ⟨rfl, hrow⟩ := read_invoice hexec
            have hhash := paymentHash_of_get hrow
            refine Contract.wp_bind.mpr (Contract.wp_mapError.mpr (Contract.wp_mono ?_
              (storePreimage_pays (hhash.symm ▸ hpays) ?_)))
            · intro h r _
              cases r with
              | error e => exact trivial
              | ok _ =>
                  exact spared_carries.attempt_bind
                    (calls_notifyWebhooks.mono sparesInvoices_of_notice) trivial fun _ _ _ =>
                      Contract.wp_ret.mpr trivial
            · show (h₁.state.payments.invoiceOf invoice.paymentHash).isSome
              rw [hhash, hrow]
              rfl

/-- The rows of a batch pay themselves. -/
theorem paidInvoices_pay {userPubkey : String} {now : Int} {items : List PaidInvoice}
    {invoices : List Invoice} (h : paidInvoices crates userPubkey now items = .ok invoices) :
    ∀ invoice ∈ invoices, PaysItself crates invoice ∧ invoice.expiredAt = none := by
  intro invoice hi
  obtain ⟨item, _, hitem⟩ := mem_paidInvoices h hi
  obtain ⟨k, hpreimage, hpaid⟩ := paidInvoice_ok hitem
  exact ⟨⟨item.preimage, hpaid.preimage, hpaid.paymentHash.symm ▸ hpreimage⟩, hpaid.expiredAt⟩

theorem handleInvoicesPaid_pays {items : List PaidInvoice} {userPubkey : String} :
    (paymentContract crates alone).wp semantics ok i q (handleInvoicesPaid crates items userPubkey)
      (fun _ _ => True) h := by
  simp only [handleInvoicesPaid, settleBatch, Prog.bind_eq, Prog.pure_eq]
  refine spared_carries.bind (calls_nowMillis fun _ => id) (fun _ => trivial) trivial
    fun now h _ => ?_
  refine Contract.wp_ofExcept_bind (fun _ => trivial) fun invoices hinvoices => ?_
  refine spared_carries.bind (Prog.calls_mapError.mpr (calls_payment (not_not.mpr
    (show PaymentOp.SparesInvoices (.filterKnownPaymentHashes _) from trivial)))) (fun _ => trivial)
    trivial fun known h _ => ?_
  split
  · exact Contract.wp_ret.mpr trivial
  · refine Contract.wp_bind.mpr (Contract.wp_mapError.mpr (Contract.wp_bind.mpr
      (Contract.wp_call.mpr fun h₁ _ _ => ⟨?_, fun ch r s' _ _ _ => Contract.wp_ofExcept.mpr ?_⟩)))
    · intro op hop
      obtain rfl := Call.payment.inj hop
      exact fun invoice hi => paidInvoices_pay hinvoices invoice (List.mem_filter.mp hi).1
    · cases r with
      | error e => exact trivial
      | ok affected =>
          refine Contract.wp_mono ?_ (spared_carries.last (Q := fun _ _ => True) ?_
            (fun _ => trivial) trivial)
          · intro h r _
            cases r with
            | error e => exact trivial
            | ok _ =>
                exact spared_carries.attempt_bind
                  (calls_notifyWebhooks.mono sparesInvoices_of_notice) trivial fun _ _ _ =>
                    Contract.wp_ret.mpr trivial
          · split
            · exact Prog.calls_ret _
            · exact calls_enqueueZapReceipts.mono sparesInvoices_of_notice

/-- Alone, a Blink row stays one; and what Blink has answered stays in the log. -/
theorem blink_carries :
    (paymentContract crates alone).Carries semantics ok i q Call.SparesInvoices fun h =>
      (alone → (h.state.payments.invoiceOf k).bind Invoice.provider = some .blink) ∧
        AnsweredExpired h.log k where
  rely := fun {h h'} hrely hI => by
    refine ⟨fun halone => ?_, hI.2.mono hrely.log⟩
    rw [invoiceOf, hrely.same halone]
    exact hI.1 halone
  guard := fun _ hc => mayPay_of_spares (spares_of_sparesInvoices _ hc)
  call := fun {h c ch r s'} _ hc hexec _ hI => by
    refine ⟨fun halone => ?_, hI.2.mono (List.prefix_append _ _)⟩
    show (s'.payments.invoiceOf k).bind Invoice.provider = some .blink
    rw [invoiceOf_of_sparesInvoices hc hexec]
    exact hI.1 halone

/-- Blink's answer about a payment, on the way to which no invoice row changes. -/
theorem blinkPaymentStatus_answers {P : PaymentStore → Prop}
    (hP : ∀ s s' : PaymentStore, (∀ k, s'.invoiceOf k = s.invoiceOf k) → P s → P s')
    (hI : alone → P h.state.payments) :
    (paymentContract crates alone).wp semantics ok i q (blinkPaymentStatus state k)
      (fun h r => ∀ status, r = .ok (some status) → (alone → P h.state.payments) ∧
        (status.expired = true → AnsweredExpired h.log k)) h := by
  have carries : (paymentContract crates alone).Carries semantics ok i q Call.SparesInvoices
      fun h => alone → P h.state.payments := sparesInvoices_carries hP
  simp only [blinkPaymentStatus, Prog.bind_eq, Prog.pure_eq]
  split
  · refine Contract.wp_bind.mpr (Contract.wp_call.mpr fun h₁ hrely inv => ⟨?_, ?_⟩)
    · exact mayPay_of_spares id
    · intro ch r s' hexec hok _
      have hI : alone → P s'.payments :=
        carries.call inv (within_env (.blinkPaymentStatus k)) hexec hok (carries.rely hrely hI)
      cases r with
      | none => exact Contract.wp_ret.mpr (Contract.wp_fail.mpr fun _ hr => by cases hr)
      | some status =>
          refine Contract.wp_ret.mpr ?_
          refine Contract.wp_require_bind (fun _ hr => by cases hr) fun hhash =>
            Contract.wp_ret.mpr ?_
          intro status' hstatus
          obtain rfl := Option.some.inj (Except.ok.inj hstatus)
          refine ⟨hI, fun hexpired => ⟨i, status, ?_, hhash, hexpired⟩⟩
          exact List.mem_append_right _ (List.mem_singleton_self _)
  · exact Contract.wp_ret.mpr fun _ hr => by cases hr

/-- The write of an expiry, after the answer. -/
theorem markExpired_pays
    (hI : alone → (h.state.payments.invoiceOf k).bind Invoice.provider = some .blink)
    (hanswer : AnsweredExpired h.log k) :
    (paymentContract crates alone).wp semantics ok i q
      ((nowMillis : BlinkSettle Int).bind fun now =>
        (Store.payment (.markInvoiceExpired k now)).mapError .repository) (fun _ _ => True) h := by
  have carries : (paymentContract crates alone).Carries semantics ok i q Call.SparesInvoices
      fun h => (alone → (h.state.payments.invoiceOf k).bind Invoice.provider = some .blink) ∧
        AnsweredExpired h.log k := blink_carries
  refine carries.bind (calls_nowMillis within_env) (fun _ => trivial) ⟨hI, hanswer⟩
    fun now h hI => ?_
  refine Contract.wp_mapError.mpr (Contract.wp_call.mpr fun h₁ hrely _ => ⟨?_, ?_⟩)
  · intro op hop
    obtain rfl := Call.payment.inj hop
    obtain ⟨hI, hanswer⟩ := carries.rely hrely hI
    refine ⟨hanswer, fun halone row hrow => ?_⟩
    have hprovider := hI halone
    rw [hrow] at hprovider
    exact hprovider
  · exact fun _ _ _ _ _ _ => Contract.wp_ofExcept.mpr trivial

theorem expireBlinkInvoice_pays :
    (paymentContract crates alone).wp semantics ok i q (expireBlinkInvoiceByPaymentHash state k)
      (fun _ _ => True) h := by
  simp only [expireBlinkInvoiceByPaymentHash, Prog.bind_eq, Prog.pure_eq]
  refine Contract.wp_bind.mpr
    (Contract.wp_mapError.mpr (Contract.wp_call.mpr fun h₁ _ _ => ⟨?_, ?_⟩))
  · exact mayPay_of_spares (not_not.mpr trivial)
  · intro ch r s' hexec _ _
    refine Contract.wp_ofExcept.mpr ?_
    cases r with
    | error e => exact trivial
    | ok stored =>
        obtain ⟨rfl, hrow⟩ := read_invoice hexec
        show Contract.wp _ _ _ _ _ (if stored.bind Invoice.provider = some .blink then _ else _) _ _
        by_cases hblink : stored.bind Invoice.provider = some .blink
        · rw [if_pos hblink]
          -- alone, the row stays Blink's
          have hP : ∀ s s' : PaymentStore, (∀ k, s'.invoiceOf k = s.invoiceOf k) →
              (s.invoiceOf k).bind Invoice.provider = some .blink →
                (s'.invoiceOf k).bind Invoice.provider = some .blink := by
            intro s s' hsame hrow
            rw [hsame]
            exact hrow
          refine Contract.wp_bind.mpr (Contract.wp_mono ?_ (blinkPaymentStatus_answers hP ?_))
          · intro h r hanswer
            cases r with
            | error e => exact trivial
            | ok status =>
                cases status with
                | none => exact Contract.wp_ret.mpr trivial
                | some status =>
                    obtain ⟨hI, hexpired⟩ := hanswer status rfl
                    show Contract.wp _ _ _ _ _ (if status.expired = true then _ else _) _ _
                    by_cases hstatus : status.expired = true
                    · rw [if_pos hstatus]
                      exact markExpired_pays hI (hexpired hstatus)
                    · rw [if_neg hstatus]
                      exact Contract.wp_ret.mpr trivial
          · intro _
            show (h₁.state.payments.invoiceOf k).bind Invoice.provider = some .blink
            rw [hrow]
            exact hblink
        · rw [if_neg hblink]
          exact Contract.wp_ret.mpr trivial

/-- The row of a new invoice, where nobody else's row is in the way. -/
theorem createProviderInvoice_pays {accountId userPubkey domain : String}
    {provider : AccountProvider} {invoice : ProviderInvoice} {expiry : Int}
    (hforeign : alone → NoForeignRow h.state.payments k (some provider)) :
    (paymentContract crates alone).wp semantics ok i q
      (createProviderInvoiceForAccount k accountId provider invoice userPubkey expiry domain)
      (fun _ _ => True) h := by
  have carries : (paymentContract crates alone).Carries semantics ok i q Call.SparesInvoices
      fun h => alone → NoForeignRow h.state.payments k (some provider) :=
    sparesInvoices_carries noForeignRow_congr
  simp only [createProviderInvoiceForAccount, Prog.bind_eq]
  refine carries.bind (calls_nowMillis within_env) (fun _ => trivial) hforeign
    fun now h hforeign => ?_
  refine Contract.wp_call.mpr fun h₁ hrely _ =>
    ⟨?_, fun _ _ _ _ _ _ => Contract.wp_ofExcept.mpr trivial⟩
  intro op hop
  obtain rfl := Call.payment.inj hop
  exact Or.inl ⟨rfl, rfl, carries.rely hrely hforeign⟩

/-- The callback writes nobody else's row if its provider hands out no hash of
another provider. -/
theorem callback_pays {domain identifier : String} {params : LnurlPayCallbackParams}
    (hown : alone → ∀ h ev, ok h ev → HandsOutOwn state.crates h ev) :
    (paymentContract state.crates alone).wp semantics ok i q
      (handleInvoiceForResolvedDomain state domain identifier params) (fun _ _ => True) h := by
  have lookup : ∀ c, Call.IsLookup c → ¬ c.WritesInvoices := fun c hc =>
    spares_of_sparesInvoices c (Call.Within.mono (fun _ hop => absurd hop id) c hc)
  simp only [handleInvoiceForResolvedDomain, Prog.bind_eq, Prog.pure_eq]
  refine spared_carries.bind Prog.calls_require (fun _ => trivial) trivial fun _ h _ => ?_
  refine spared_carries.bind (calls_publicRecipient.mono lookup) (fun _ => trivial) trivial
    fun recipient h _ => ?_
  refine spared_carries.bind (calls_requireReceiving.mono lookup) (fun _ => trivial) trivial
    fun _ h _ => ?_
  refine spared_carries.bind Prog.calls_ofExcept (fun _ => trivial) trivial fun amountMsat h _ => ?_
  refine spared_carries.bind Prog.calls_ofExcept (fun _ => trivial) trivial
    fun description h _ => ?_
  refine spared_carries.bind Prog.calls_ofExcept (fun _ => trivial) trivial fun expiry h _ => ?_
  refine spared_carries.bind (calls_resolveMinSendableMsat.mono lookup) (fun _ => trivial) trivial
    fun minSendable h _ => ?_
  refine spared_carries.bind Prog.calls_require (fun _ => trivial) trivial fun _ h _ => ?_
  refine Contract.wp_bind.mpr (Contract.wp_call.mpr fun h₁ _ _ => ⟨mayPay_of_spares id, ?_⟩)
  intro ch answer s' hexec hok _
  refine Contract.wp_ret.mpr ?_
  refine Contract.wp_ofExcept_bind (fun _ => trivial) fun res hres => ?_
  refine Contract.wp_ofExcept_bind (fun _ => trivial) fun checked hchecked => ?_
  have hanswer : answer = .ok res := by
    cases answer with
    | ok invoice => rw [Except.ok.inj hres]
    | error e => cases hres
  subst hanswer
  have hforeign : alone → NoForeignRow s'.payments checked.1.paymentHash
      (some recipient.recipient.provider) := by
    intro halone
    have hexec : exec (.env (.createInvoice _)) ch h₁.state = some (.ok res, s') := hexec
    rw [(exec_env hexec).1]
    refine hown halone h₁ _ hok _ _ ?_
    simp only [handedOut, (checkProviderInvoice_ok hchecked).1]
  have carries : (paymentContract state.crates alone).Carries semantics ok i q Call.SparesInvoices
      fun h => alone → NoForeignRow h.state.payments checked.1.paymentHash
        (some recipient.recipient.provider) :=
    sparesInvoices_carries noForeignRow_congr
  refine carries.bind (calls_nowMillis within_env) (fun _ => trivial) hforeign
    fun updatedAt h hforeign => ?_
  refine carries.bind (Prog.calls_mapError.mpr (calls_storeZapAndComment.mono
    Call.PreparesInvoice.sparesInvoices)) (fun _ => trivial) hforeign
    fun _ h hforeign => ?_
  refine Contract.wp_bind.mpr (Contract.wp_mapError.mpr (Contract.wp_mono ?_
    (createProviderInvoice_pays hforeign)))
  intro h r _
  cases r with
  | error e => exact trivial
  | ok _ => exact Contract.wp_ret.mpr trivial

theorem settlementWriters_pay :
    SettlementWriters (paymentContract state.crates alone) ok state where
  spares := fun _ hc => mayPay_of_spares hc
  paid := Contract.wp_mono (fun _ _ _ => trivial) handleInvoicePaid_pays
  batch := handleInvoicesPaid_pays
  expires := expireBlinkInvoice_pays

/-- What a settlement through Blink returns is the preimage it has stored. -/
theorem settleBlinkInvoice_pays :
    (paymentContract state.crates alone).wp semantics ok i q
      (settleBlinkInvoiceByPaymentHash state k none)
      (fun _ r => ∀ p, r = .ok (some p) → preimageHash state.crates p = .ok k) h := by
  simp only [settleBlinkInvoiceByPaymentHash, Prog.bind_eq, Prog.pure_eq]
  refine spared_carries.bind (Prog.calls_mapError.mpr (calls_payment (not_not.mpr
    (show PaymentOp.SparesInvoices (.getInvoiceByPaymentHash k) from trivial))))
    (fun _ _ hr => by cases hr) trivial fun stored h _ => ?_
  split
  · refine spared_carries.bind (calls_settlementPreimage.mono sparesInvoices_of_notice)
      (fun _ _ hr => by cases hr) trivial fun settlement h _ => ?_
    cases settlement with
    | none => exact Contract.wp_ret.mpr fun _ hr => by cases hr
    | some settlement =>
        refine Contract.wp_bind.mpr (Contract.wp_mapError.mpr (Contract.wp_mono ?_
          handleInvoicePaid_pays))
        intro h r hpays
        cases r with
        | error e => exact fun _ hr => by cases hr
        | ok u =>
            refine Contract.wp_ret.mpr fun p hp => ?_
            obtain rfl := Option.some.inj (Except.ok.inj hp)
            exact hpays rfl
  · exact Contract.wp_ret.mpr fun _ hr => by cases hr

/-- `verify` answers with a preimage of the payment hash it was asked about. -/
theorem verify_pays :
    (paymentContract state.crates alone).wp semantics ok i q (verify state k)
      (fun _ r => ∀ preimage pr, r = .ok (.ok true preimage pr) →
        ∃ p, preimage = some p ∧ preimageHash state.crates p = .ok k) h := by
  simp only [verify, Prog.bind_eq, Prog.pure_eq]
  refine Contract.wp_bind.mpr
    (Contract.wp_attempt.mpr (Contract.wp_call.mpr fun h₁ _ inv => ⟨?_, ?_⟩))
  · exact mayPay_of_spares (not_not.mpr trivial)
  · intro ch r s' hexec _ _
    refine Contract.wp_ofExcept.mpr ?_
    cases r with
    | error e => exact Contract.wp_ret.mpr fun _ _ hr => by cases hr
    | ok stored =>
        obtain ⟨rfl, hrow⟩ := read_invoice hexec
        cases stored with
        | none => exact Contract.wp_ret.mpr fun _ _ hr => by cases hr
        | some invoice =>
            have hsound := inv.1 k invoice hrow
            have hhash := paymentHash_of_get hrow
            refine Contract.wp_bind.mpr (Contract.wp_attempt.mpr (Contract.wp_mono
              (Q := fun _ r => ∀ p, r = .ok (some p) → preimageHash state.crates p = .ok k) ?_ ?_))
            · intro h r hpays
              cases r with
              | error e => exact Contract.wp_ret.mpr fun _ _ hr => by cases hr
              | ok preimage =>
                  refine Contract.wp_ret.mpr fun preimage' pr hr => ?_
                  obtain ⟨hsettled, rfl, _⟩ := VerifyResponse.ok.inj (Except.ok.inj hr)
                  obtain ⟨p, rfl⟩ := Option.isSome_iff_exists.mp hsettled
                  exact ⟨p, rfl, hpays p rfl⟩
            · unfold verifiedPreimage
              split
              · exact settleBlinkInvoice_pays
              · refine Contract.wp_ret.mpr fun p hp => ?_
                rw [hsound.preimage p (Except.ok.inj hp), hhash]

end Pieces

/-! ## Every run -/

/-- An answer of `verify`. -/
def VerifyPays (crates : Crates) (q : Request) (r : Except ApiError Response) : Prop :=
  ∀ k preimage pr, q = .verify k → r = .ok (.verify (.ok true preimage pr)) →
    ∃ p, preimage = some p ∧ preimageHash crates p = .ok k

section Runs

variable {state : State} {alone : Prop} {ok : History → CallEvent → Prop} {h : History} {i : Nat}
  {q : Request} {clock : Clock} {cfg : Server}

theorem handler_pays (hown : alone → ∀ h ev, ok h ev → HandsOutOwn state.crates h ev) :
    (paymentContract state.crates alone).wp semantics ok i q (handler state q)
      (fun _ r => VerifyPays state.crates q r) h := by
  have settles : SettlementWriters (paymentContract state.crates alone) ok state :=
    settlementWriters_pay
  have W := settles.paymentWriters (callback_pays hown)
  cases q with
  | verify k =>
      refine Contract.wp_bind.mpr (Contract.wp_mono ?_ verify_pays)
      intro h r hpays
      cases r with
      | error e => exact fun _ _ _ _ hr => by cases hr
      | ok response =>
          refine Contract.wp_ret.mpr fun k' preimage pr hk hr => ?_
          obtain rfl := Request.verify.inj hk
          obtain rfl := Response.verify.inj (Except.ok.inj hr)
          exact hpays preimage pr rfl
  | _ => exact Contract.wp_mono (fun _ _ _ _ _ _ hk _ => by cases hk) W.handler

theorem payments_initial (alone : Prop) (clock : Clock) :
    (paymentContract state.crates alone).inv ⟨World.fresh clock, []⟩ :=
  ⟨fun _ _ h => (by cases h), fun _ _ _ h => (by cases h)⟩

theorem payment_outline (state : State) :
    Outline (paymentContract state.crates False) semantics always (handler state)
      (fun _ q _ r => VerifyPays state.crates q r) where
  lawful := paymentContract_lawful
  post_stable := fun _ _ h => h
  accept := fun _ _ => handler_pays False.elim

/-- However requests interleave and whatever they report: stored preimages hash to
the payment hash of their row, a settled row has not expired, an expired one has
been answered for by Blink, and a settled answer of `verify` carries a preimage of
the payment hash. Served one at a time, by providers that hand out no payment hash
of another provider's row, only rows of Blink expire. -/
theorem settlement_sound :
    (∀ cfg, Reachable semantics always (handler state) (World.fresh clock) cfg →
      (∀ k row, cfg.hist.state.payments.invoiceOf k = some row →
        SoundRow state.crates cfg.hist.log row) ∧
      ∀ i k preimage pr, cfg.request i = some (.verify k) →
        cfg.outcome i = some (.ok (.verify (.ok true preimage pr))) →
          ∃ p, preimage = some p ∧ preimageHash state.crates p = .ok k) ∧
    ∀ cfg, Serially semantics (HandsOutOwn state.crates) (handler state) (World.fresh clock) cfg →
      ∀ k row, cfg.hist.state.payments.invoiceOf k = some row → row.expiredAt ≠ none →
        row.provider = some .blink := by
  constructor
  · intro cfg hreach
    have hcfg := Reachable.sound (payment_outline state) (payments_initial False clock) hreach
    refine ⟨hcfg.inv.1, fun i k preimage pr hrequest houtcome => ?_⟩
    obtain ⟨q, hq, hpays⟩ := hcfg.finished houtcome
    exact hpays k preimage pr (Option.some.inj (hq.symm.trans hrequest)) rfl
  · intro cfg hserial
    have hcfg : Outlined (paymentContract state.crates True) semantics (HandsOutOwn state.crates)
        (fun _ q _ r => VerifyPays state.crates q r) cfg :=
      Serially.sound paymentContract_keeps (fun _ _ => handler_pays fun _ _ _ h => h)
        (payments_initial True clock) hserial
    exact hcfg.inv.2 trivial

end Runs

/-! ## Examples

An invoice of a Blink account expires, and is paid all the same. -/

section Example

open Schedule RustStr

def blinkPayeeSigned : Deployment :=
  { digests := [([0], "aa"),
      (utf8 "[[\"text/plain\",\"Pay\"],[\"text/identifier\",\"bob@d.io\"]]", "ee")]
    invoices := [("lnbc2", ⟨"aa", some "ee", some 10000, some 2000000⟩)] }

def opensBlinkPayee : Request :=
  .createInternalBlinkAccount ⟨["blink:accounts:create"]⟩
    { domain := "d.io", blinkAccountId := "blink", btcWalletId := "btc", usdWalletId := "usd"
      defaultWallet := "btc", description := "Pay", identifiers := ["bob"] }

def asksBlinkInvoice : Request := .handleInvoice blinkHost "bob" ⟨some 10000, none, none, none⟩

def reportsBlink (status : BlinkInvoiceWebhookStatus) (preimage : Option String) : Request :=
  .blinkWebhook ⟨"aa", preimage, none, status⟩

/-- Blink says that the invoice has expired. -/
def blinkExpired : Schedule :=
  serve opensBlinkPayee ++ calls 0 2 ++ serve asksBlinkInvoice ++
    calls 1 6 { generatedId := "acct_2", invoice := .ok ⟨"lnbc2", .btc, some "btc", none⟩ } ++
    serve (reportsBlink .expired none) ++ calls 2 4
      { status := some ⟨"aa", false, true, none, none⟩ }

/-- It is paid, and verified. -/
def blinkPaid : Schedule :=
  blinkExpired ++ serve (reportsBlink .paid (some "00")) ++ calls 3 7 ++ serve (.verify "aa") ++
    calls 4 1

instance (s : PaymentStore) (k : String) (provider : Option AccountProvider) :
    Decidable (NoForeignRow s k provider) :=
  decidable_of_iff (((s.invoiceOf k).bind Invoice.provider).all fun p => provider = some p) <| by
    unfold NoForeignRow
    rw [Option.all_eq_true_iff_get]
    constructor
    · intro hall row p hrow hp
      have hbind : (s.invoiceOf k).bind Invoice.provider = some p := by
        rw [hrow]
        exact hp
      have hget := hall (by rw [hbind]; rfl)
      simp only [hbind, Option.get_some, decide_eq_true_eq] at hget
      exact hget
    · intro hno hsome
      obtain ⟨p, hbind⟩ := Option.isSome_iff_exists.mp hsome
      obtain ⟨row, hrow, hp⟩ := Option.bind_eq_some_iff.mp hbind
      simp only [hbind, Option.get_some, decide_eq_true_eq]
      exact hno row p hrow hp

instance (crates : Crates) (h : History) (ev : CallEvent) : Decidable (HandsOutOwn crates h ev) :=
  decidable_of_iff ((handedOut crates ev).all fun x =>
      decide (NoForeignRow h.state.payments x.1 (some x.2))) <| by
    unfold HandsOutOwn
    constructor
    · intro hall k provider hout
      rw [hout, Option.all_some] at hall
      exact of_decide_eq_true hall
    · intro hown
      rw [Option.all_eq_true_iff_get]
      intro hsome
      exact decide_eq_true (hown _ _ (Option.some_get hsome).symm)

theorem settlement_sound_for_bob :
    ∃ cfg cfg' : Server,
      Serially semantics (HandsOutOwn blinkPayeeSigned.state.crates)
        (handler blinkPayeeSigned.state) (World.fresh ⟨1000000, by decide⟩) cfg ∧
      (∃ row, cfg.hist.state.payments.invoiceOf "aa" = some row ∧ row.expiredAt ≠ none ∧
        row.provider = some .blink ∧ AnsweredExpired cfg.hist.log "aa") ∧
      cfg'.request 4 = some (.verify "aa") ∧
      cfg'.outcome 4 = some (.ok (.verify (.ok true (some "00") "lnbc2"))) ∧
      preimageHash blinkPayeeSigned.state.crates "00" = .ok "aa" := by
  have hexpired : (replaySerially semantics (HandsOutOwn blinkPayeeSigned.state.crates)
      (handler blinkPayeeSigned.state) blinkExpired
      (.initial (World.fresh ⟨1000000, startMillis_fits⟩))).any (fun cfg =>
        (cfg.hist.state.payments.invoiceOf "aa").any fun row => row.expiredAt.isSome) = true := by
    decide +kernel
  have hpaid : (replay semantics always (handler blinkPayeeSigned.state) blinkPaid
      (.initial (World.fresh ⟨1000000, startMillis_fits⟩))).any (fun cfg =>
        decide (cfg.outcome 4 = some (.ok (.verify (.ok true (some "00") "lnbc2"))))) = true := by
    decide +kernel
  obtain ⟨cfg, hrun, hcfg⟩ := (Option.any_eq_true _ _).mp hexpired
  obtain ⟨row, hrow, hsome⟩ := (Option.any_eq_true _ _).mp hcfg
  obtain ⟨cfg', hreach', hserved', hcfg'⟩ := reachable_of_replay hpaid
  have hserial := serially_of_replay .refl hrun
  have houtcome := of_decide_eq_true hcfg'
  have hne : row.expiredAt ≠ none := Option.isSome_iff_ne_none.mp hsome
  have hblink := settlement_sound.2 cfg hserial "aa" row hrow hne
  have hanswered := ((settlement_sound.1 cfg
    (Steps.mono (fun _ _ _ => trivial) hserial.reachable)).1 "aa" row hrow).expired hne
  rw [paymentHash_of_get hrow] at hanswered
  obtain ⟨p, hp, hhash⟩ := (settlement_sound.1 cfg' hreach').2 4 "aa" _ _ (hserved' 4) houtcome
  obtain rfl := Option.some.inj hp
  exact ⟨cfg, cfg', hserial, ⟨row, hrow, hne, hblink, hanswered⟩, hserved' 4, houtcome, hhash⟩

end Example

end BlinkLnurl
