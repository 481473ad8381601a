import BlinkLnurl.Lib.Ends
import BlinkLnurl.Server.Discovery
import BlinkLnurl.Server.SoundSettlement

/-!
# Invoices that are handed out

An invoice leaves the callback only after the server has asked for it, checked it
and stored it (`HandsOut`). No statement deletes an invoice row, and every row holds
an invoice over its own payment hash. So the link to `/verify` that goes out with an
invoice is good from then on.
-/

namespace BlinkLnurl

open Conc Rel PaymentStore RustStr

/-! ## How the callback came to its answer -/

section Ends

variable {state : State} {crates : Crates} {i : Nat} {calls : List CallEvent} {k : String}

theorem ends_payment {op : PaymentOp} {r : op.Result} :
    (Store.payment op).Ends i calls (.ok r) ↔ (⟨i, .payment op, .ok r⟩ : CallEvent) ∈ calls := by
  unfold Store.payment
  rw [Prog.ends_call]
  constructor
  · rintro ⟨reply, hreply, hend⟩
    obtain rfl := Prog.ends_ofExcept.mp hend
    exact hreply
  · exact fun h => ⟨_, h, Prog.ends_ofExcept.mpr rfl⟩

theorem ends_account {op : AccountOp} {r : op.Result} :
    (Store.account op).Ends i calls (.ok r) ↔ (⟨i, .account op, .ok r⟩ : CallEvent) ∈ calls := by
  unfold Store.account
  rw [Prog.ends_call]
  constructor
  · rintro ⟨reply, hreply, hend⟩
    obtain rfl := Prog.ends_ofExcept.mp hend
    exact hreply
  · exact fun h => ⟨_, h, Prog.ends_ofExcept.mpr rfl⟩

theorem sanitizeDomain_ends {text domain : String}
    (h : (sanitizeDomain crates text).Ends i calls (.ok domain)) :
    domain = lowercase crates (trim text) ∧
      ∃ domains, (⟨i, .env .allowedDomains, domains⟩ : CallEvent) ∈ calls ∧
        (domains = [] ∨ domain ∈ domains) := by
  simp only [sanitizeDomain, env, Prog.bind_eq, Prog.pure_eq] at h
  obtain ⟨domains, hdomains, h⟩ := Prog.ends_bind_ok.mp h
  obtain ⟨_, hallowed, h⟩ := Prog.ends_bind_ok.mp h
  obtain rfl := Except.ok.inj (Prog.ends_ret.mp h)
  exact ⟨rfl, domains, Prog.ends_perform.mp hdomains, Prog.ends_require_ok.mp hallowed⟩

theorem publicRecipient_ends {domain identifier : String} {missing : ApiError}
    {recipient : PublicRecipient}
    (h : (publicRecipient crates domain identifier missing).Ends i calls (.ok recipient)) :
    ∃ intent, parsePublicIdentifierForPublicRoute crates identifier = .ok (some intent) ∧
      (⟨i, .account (.resolveRecipientByIdentifier domain intent.canonical),
        .ok (some recipient.recipient)⟩ : CallEvent) ∈ calls := by
  simp only [publicRecipient, resolvePublicRecipient, Prog.bind_eq, Prog.pure_eq] at h
  obtain ⟨parsed, hparsed, h⟩ := Prog.ends_bind_ok.mp h
  obtain ⟨intent, hintent, h⟩ := Prog.ends_bind_ok.mp h
  obtain ⟨found, hfound, h⟩ := Prog.ends_bind_ok.mp h
  obtain ⟨stored, hstored, hfound⟩ := Prog.ends_bind_ok.mp hfound
  have hstored := ends_account.mp (Prog.ends_mapError_ok.mp hstored)
  have hparsed := Prog.ends_ofExcept.mp hparsed
  have hintent := Prog.ends_ofExcept.mp hintent
  have hrecipient := Prog.ends_ofExcept.mp h
  obtain rfl := Except.ok.inj (Prog.ends_ret.mp hfound)
  cases stored with
  | none => cases hrecipient
  | some row =>
      obtain rfl := Except.ok.inj hrecipient
      cases parsed with
      | none => cases hintent
      | some intent' =>
          obtain rfl := Except.ok.inj hintent
          refine ⟨intent, ?_, hstored⟩
          cases hcase : parsePublicIdentifierForPublicRoute crates identifier with
          | error e =>
              rw [hcase] at hparsed
              cases hparsed
          | ok out =>
              rw [hcase] at hparsed
              rw [Except.ok.inj hparsed]

/-- A Spark recipient was not anonymous when its mode was read. -/
theorem requireReceiving_ends {recipient : PublicRecipient} {pubkey : String}
    (h : (requireReceiving recipient).Ends i calls (.ok ()))
    (hpubkey : recipient.recipient.sparkPubkey = some pubkey) :
    ∃ record, (⟨i, .account (.getSparkAccountMode pubkey), .ok record⟩ : CallEvent) ∈ calls ∧
      record.bind SparkAccountMode.mode ≠ some .anon := by
  simp only [requireReceiving, hpubkey, storedAccountMode, Prog.bind_eq, Prog.pure_eq] at h
  obtain ⟨mode, hmode, h⟩ := Prog.ends_bind_ok.mp h
  obtain ⟨record, hrecord, hmode⟩ := Prog.ends_bind_ok.mp (Prog.ends_mapError_ok.mp hmode)
  obtain rfl := Except.ok.inj (Prog.ends_ret.mp hmode)
  exact ⟨record, ends_account.mp (Prog.ends_mapError_ok.mp hrecord), Prog.ends_require_ok.mp h⟩

/-- The invoice commits to the description and is for the amount. -/
theorem checkProviderInvoice_commits {bolt11 descriptionHash : String} {amountMsat : Nat}
    {checked : Bolt11Invoice × Int}
    (h : checkProviderInvoice crates bolt11 descriptionHash amountMsat = .ok checked) :
    checked.1.descriptionHash = some descriptionHash ∧
      checked.1.amountMilliSatoshis = some amountMsat := by
  unfold checkProviderInvoice at h
  split at h
  · cases h
  · split at h
    · cases h
    · rename_i hhash
      split at h
      · cases h
      · rename_i hamount
        split at h
        · cases h
        · split at h
          · obtain rfl := Except.ok.inj h
            exact ⟨not_not.mp hhash, not_not.mp hamount⟩
          · cases h

/-- The zap and the comment that were asked for were stored under the payment hash. -/
theorem storeZapAndComment_ends {accountId userPubkey : String} {expiry updatedAt : Int}
    {params : LnurlPayCallbackParams}
    (h : (storeZapAndComment k accountId userPubkey expiry updatedAt params).Ends i
      calls (.ok ())) :
    (∀ zapRequest, params.nostr = some zapRequest → ∃ zap : Zap,
      (⟨i, .payment (.upsertZap zap), .ok ()⟩ : CallEvent) ∈ calls ∧ zap.paymentHash = k ∧
        zap.zapRequest = zapRequest ∧ zap.zapEvent = none ∧ zap.accountId = some accountId) ∧
    ∀ text, params.comment = some text → trim text ≠ "" → ∃ comment : LnurlSenderComment,
      (⟨i, .payment (.insertLnurlSenderComment comment), .ok ()⟩ : CallEvent) ∈ calls ∧
        comment.paymentHash = k ∧ comment.comment = trim text := by
  simp only [storeZapAndComment, storeZap, storeComment, Prog.bind_eq, Prog.pure_eq] at h
  obtain ⟨_, hzap, hcomment⟩ := Prog.ends_bind_ok.mp h
  refine ⟨fun zapRequest hnostr => ?_, fun text htext hne => ?_⟩
  · rw [hnostr] at hzap
    exact ⟨_, ends_payment.mp hzap, rfl, rfl, rfl, rfl⟩
  · rw [htext] at hcomment
    dsimp only at hcomment
    rw [if_neg hne] at hcomment
    exact ⟨_, ends_payment.mp hcomment, rfl, rfl⟩

/-- Where an invoice comes from that thread `i` hands out, after `calls`. -/
structure HandsOut (state : State) (i : Nat) (calls : List CallEvent) (domain identifier : String)
    (params : LnurlPayCallbackParams) (recipient : PublicRecipient) (bolt11 : Bolt11Invoice)
    (response : InvoiceResponse) : Prop where
  /-- The identifier resolves to the recipient, who takes payments. -/
  resolved : ∃ intent,
    parsePublicIdentifierForPublicRoute state.crates identifier = .ok (some intent) ∧
    (⟨i, .account (.resolveRecipientByIdentifier domain intent.canonical),
      .ok (some recipient.recipient)⟩ : CallEvent) ∈ calls
  receiving : ∀ pubkey, recipient.recipient.sparkPubkey = some pubkey →
    ∃ record, (⟨i, .account (.getSparkAccountMode pubkey), .ok record⟩ : CallEvent) ∈ calls ∧
      record.bind SparkAccountMode.mode ≠ some .anon
  /-- The provider of the recipient has made the invoice. -/
  made : ∃ request invoice, (⟨i, .env (.createInvoice request), .ok invoice⟩ : CallEvent) ∈ calls ∧
    request.recipient = recipient.recipient ∧ invoice.bolt11 = response.pr
  decoded : state.crates.bolt11 response.pr = .ok bolt11
  /-- It is for the amount that was asked for, and commits to what was described. -/
  pays : ∃ amountMsat description, params.amount = some amountMsat ∧ amountMsat % 1000 = 0 ∧
    state.minSendable ≤ amountMsat ∧ amountMsat ≤ state.maxSendable ∧
    invoiceDescription state recipient params amountMsat = .ok description ∧
    bolt11.amountMilliSatoshis = some amountMsat ∧
    bolt11.descriptionHash = some (state.crates.sha256 (utf8 description))
  /-- Everything about it is stored. -/
  zap : ∀ zapRequest, params.nostr = some zapRequest → ∃ zap : Zap,
    (⟨i, .payment (.upsertZap zap), .ok ()⟩ : CallEvent) ∈ calls ∧
      zap.paymentHash = bolt11.paymentHash ∧ zap.zapRequest = zapRequest ∧ zap.zapEvent = none ∧
      zap.accountId = some recipient.recipient.accountId
  comment : ∀ text, params.comment = some text → trim text ≠ "" → ∃ comment : LnurlSenderComment,
    (⟨i, .payment (.insertLnurlSenderComment comment), .ok ()⟩ : CallEvent) ∈ calls ∧
      comment.paymentHash = bolt11.paymentHash ∧ comment.comment = trim text
  stored : ∃ row : Invoice, (⟨i, .payment (.upsertInvoice row), .ok ()⟩ : CallEvent) ∈ calls ∧
    row.paymentHash = bolt11.paymentHash ∧ row.invoice = response.pr ∧ row.preimage = none ∧
    row.domain = some domain ∧ row.accountId = some recipient.recipient.accountId ∧
    row.provider = some recipient.recipient.provider
  verify : response.verify = buildVerifyUrl state domain bolt11.paymentHash

theorem handsOut_of_ends {domain identifier : String} {params : LnurlPayCallbackParams}
    {response : InvoiceResponse}
    (h : (handleInvoiceForResolvedDomain state domain identifier params).Ends i calls
      (.ok response)) :
    ∃ recipient bolt11,
    HandsOut state i calls domain identifier params recipient bolt11 response := by
  simp only [handleInvoiceForResolvedDomain, env, nowMillis, Prog.bind_eq, Prog.pure_eq] at h
  obtain ⟨_, _, h⟩ := Prog.ends_bind_ok.mp h
  obtain ⟨recipient, hrecipient, h⟩ := Prog.ends_bind_ok.mp h
  obtain ⟨_, hreceiving, h⟩ := Prog.ends_bind_ok.mp h
  obtain ⟨amountMsat, hamount, h⟩ := Prog.ends_bind_ok.mp h
  obtain ⟨description, hdescription, h⟩ := Prog.ends_bind_ok.mp h
  obtain ⟨_, _, h⟩ := Prog.ends_bind_ok.mp h
  obtain ⟨_, _, h⟩ := Prog.ends_bind_ok.mp h
  obtain ⟨_, _, h⟩ := Prog.ends_bind_ok.mp h
  obtain ⟨answer, hanswer, h⟩ := Prog.ends_bind_ok.mp h
  obtain ⟨res, hres, h⟩ := Prog.ends_bind_ok.mp h
  obtain ⟨checked, hchecked, h⟩ := Prog.ends_bind_ok.mp h
  obtain ⟨_, _, h⟩ := Prog.ends_bind_ok.mp h
  obtain ⟨_, hprepared, h⟩ := Prog.ends_bind_ok.mp h
  obtain ⟨_, hcreated, h⟩ := Prog.ends_bind_ok.mp h
  obtain rfl := Except.ok.inj (Prog.ends_ret.mp h)
  have hamount := checkCallbackParams_ok.mp (Prog.ends_ofExcept.mp hamount).symm
  have hchecked := (Prog.ends_ofExcept.mp hchecked).symm
  obtain ⟨hcommits, hpays⟩ := checkProviderInvoice_commits hchecked
  obtain ⟨hzap, hcomment⟩ := storeZapAndComment_ends (Prog.ends_mapError_ok.mp hprepared)
  have hanswer : (⟨i, .env (.createInvoice _), answer⟩ : CallEvent) ∈ calls :=
    Prog.ends_perform.mp hanswer
  have hres := Prog.ends_ofExcept.mp hres
  simp only [createProviderInvoiceForAccount, nowMillis, env, Prog.bind_eq] at hcreated
  obtain ⟨_, _, hcreated⟩ := Prog.ends_bind_ok.mp (Prog.ends_mapError_ok.mp hcreated)
  cases answer with
  | error e => cases hres
  | ok invoice =>
      obtain rfl := Except.ok.inj hres
      exact ⟨recipient, checked.1,
        { resolved := publicRecipient_ends hrecipient
          receiving := fun pubkey hpubkey => requireReceiving_ends hreceiving hpubkey
          made := ⟨_, _, hanswer, rfl, rfl⟩
          decoded := (checkProviderInvoice_ok hchecked).1
          pays := ⟨amountMsat, description, hamount.1, hamount.2.1, hamount.2.2.1, hamount.2.2.2.1,
            (Prog.ends_ofExcept.mp hdescription).symm, hpays, hcommits⟩
          zap := hzap
          comment := hcomment
          stored := ⟨_, ends_payment.mp hcreated, rfl, rfl, rfl, rfl, rfl, rfl⟩
          verify := rfl }⟩

end Ends

/-! ## Rows and their invoices -/

/-- The invoice of the row is over the payment hash of the row. -/
def NamesHash (crates : Crates) (row : Invoice) : Prop :=
  ∃ bolt11, crates.bolt11 row.invoice = .ok bolt11 ∧ bolt11.paymentHash = row.paymentHash

/-- Invoices are written so. -/
def handedContract (crates : Crates) : Contract Request Call Reply World where
  inv h := ∀ k row, h.state.payments.invoiceOf k = some row → NamesHash crates row
  rely _ _ _ := True
  guard _ _ _ c := (∀ row, c = .payment (.upsertInvoice row) → NamesHash crates row) ∧
    ∀ rows, c = .payment (.upsertInvoicesPaid rows) → ∀ row ∈ rows, NamesHash crates row

section Rows

variable {state : State} {crates : Crates} {ok : History → CallEvent → Prop} {h : History} {i : Nat}
  {q : Request} {k : String}

/-- Rows over a payment hash, whatever a call within the guard does to them. -/
theorem namesHash_of_change {c : Call} {r : Reply c} {new : Option Invoice} {row : Invoice}
    (inv : (handedContract crates).inv h) (hguard : (handedContract crates).guard i q h c)
    (hchange : InvoiceChange k (h.state.payments.invoiceOf k) c r new) (hnew : new = some row) :
    NamesHash crates row := by
  cases hchange with
  | keeps => exact inv k row hnew
  | @upserts invoice hk =>
      obtain ⟨bolt11, hdecoded, hhash⟩ := hguard.1 invoice rfl
      cases hold : h.state.payments.invoiceOf k with
      | none =>
          rw [hold] at hnew
          cases hnew
          exact ⟨bolt11, hdecoded, hhash⟩
      | some old =>
          rw [hold] at hnew
          cases hnew
          exact ⟨bolt11, hdecoded, (hhash.trans hk).trans (paymentHash_of_get hold).symm⟩
  | @settles invoices affected new hpaid _ =>
      -- each entry of the batch inserts its own invoice, or leaves the one that is there
      refine hpaid.preserves (fun x => ∀ row, x = some row → NamesHash crates row) ?_ ?_ (inv k)
        row hnew
      · intro entry hentry _ _ row hrow
        cases hrow
        exact hguard.2 invoices rfl entry hentry
      · intro entry hentry _ old hold _ row hrow
        cases hrow
        exact hold old rfl
  | @expires expiredAt old hold _ =>
      cases hnew
      exact inv k old hold

theorem handedContract_lawful : (handedContract crates).Lawful semantics ok where
  refl := fun _ _ => trivial
  trans := fun _ _ => trivial
  call := fun inv hguard hexec _ k _ hrow =>
    namesHash_of_change inv hguard (exec_invoice hexec k) hrow
  tick := fun {h t s'} inv htick => by
    intro k row hrow
    obtain ⟨_, hpayments, _⟩ := tick_cases htick
    have hrow : s'.payments.invoiceOf k = some row := hrow
    rw [hpayments] at hrow
    exact inv k row hrow
  ticks := fun _ _ => trivial
  others := fun _ _ _ _ _ => trivial

theorem handed_spares {c : Call} (hc : ¬ c.WritesInvoices) :
    (handedContract crates).guard i q h c := by
  refine ⟨fun row hcall => ?_, fun rows hcall => ?_⟩
  · subst hcall
    exact absurd (show Call.WritesInvoices (.payment (.upsertInvoice row)) from id) hc
  · subst hcall
    exact absurd (show Call.WritesInvoices (.payment (.upsertInvoicesPaid rows)) from id) hc

theorem handed_carries : (handedContract crates).Carries semantics ok i q
    (fun c => ¬ c.WritesInvoices) fun _ => True where
  rely := fun _ _ => trivial
  guard := fun _ hc => handed_spares hc
  call := fun _ _ _ _ _ => trivial

/-- A settlement writes the row back that it has read. -/
theorem handleInvoicePaid_names {paymentHash preimage : String} {amount : Option Int} :
    (handedContract crates).wp semantics ok i q
    (handleInvoicePaid crates paymentHash preimage amount)
      (fun _ _ => True) h := by
  simp only [handleInvoicePaid, storePreimage, Prog.bind_eq, Prog.pure_eq]
  refine Contract.wp_ofExcept_bind (fun _ => trivial) fun _ _ => ?_
  refine handed_carries.bind (calls_nowMillis fun _ => id) (fun _ => trivial) trivial
    fun now h _ => ?_
  refine Contract.wp_bind.mpr
    (Contract.wp_mapError.mpr (Contract.wp_call.mpr fun h₁ _ inv => ⟨?_, ?_⟩))
  · exact handed_spares (not_not.mpr trivial)
  · intro ch r s' hexec _ _
    refine Contract.wp_ofExcept.mpr ?_
    cases r with
    | error e => exact trivial
    | ok stored =>
        cases stored with
        | none => exact Contract.wp_ret.mpr trivial
        | some invoice =>
            obtain ⟨rfl, hrow⟩ := read_invoice hexec
            have hnames : NamesHash crates invoice := inv paymentHash invoice hrow
            refine Contract.wp_bind.mpr (Contract.wp_mono (Q := fun _ _ => True) ?_ ?_)
            · intro h r _
              cases r with
              | error e => exact trivial
              | ok _ =>
                  exact handed_carries.attempt_bind
                    (calls_notifyWebhooks.mono sparesInvoices_of_notice) trivial fun _ _ _ =>
                      Contract.wp_ret.mpr trivial
            · refine Contract.wp_mapError.mpr ?_
              split
              · refine Contract.wp_bind.mpr (Contract.wp_call.mpr fun h₂ _ _ => ⟨⟨?_, ?_⟩, ?_⟩)
                · intro row hcall
                  obtain rfl := PaymentOp.upsertInvoice.inj (Call.payment.inj hcall)
                  exact hnames
                · exact fun rows hcall => by cases hcall
                · intro _ r _ _ _ _
                  refine Contract.wp_ofExcept.mpr ?_
                  cases r with
                  | error e => exact trivial
                  | ok _ =>
                      exact handed_carries.last
                        (calls_enqueueZapReceipt.mono sparesInvoices_of_notice)
                        (fun _ => trivial) trivial
              · exact Contract.wp_ret.mpr trivial

theorem namesHash_of_paidInvoice {userPubkey : String} {now : Int} {item : PaidInvoice}
    {row : Invoice} (h : paidInvoice crates userPubkey now item = .ok row) :
    NamesHash crates row := by
  unfold paidInvoice at h
  split at h
  · cases h
  · rename_i hash _
    split at h
    · cases h
    · rename_i bolt11 hbolt11
      split at h
      · cases h
      · rename_i hsame
        obtain rfl := Except.ok.inj h
        exact ⟨bolt11, hbolt11, not_not.mp hsame⟩

theorem handleInvoicesPaid_names {items : List PaidInvoice} {userPubkey : String} :
    (handedContract crates).wp semantics ok i q (handleInvoicesPaid crates items userPubkey)
      (fun _ _ => True) h := by
  simp only [handleInvoicesPaid, settleBatch, Prog.bind_eq, Prog.pure_eq]
  refine handed_carries.bind (calls_nowMillis fun _ => id) (fun _ => trivial) trivial
    fun now h _ => ?_
  refine Contract.wp_ofExcept_bind (fun _ => trivial) fun invoices hinvoices => ?_
  refine handed_carries.bind (Prog.calls_mapError.mpr (calls_payment (not_not.mpr
    (show PaymentOp.SparesInvoices (.filterKnownPaymentHashes _) from trivial)))) (fun _ => trivial)
    trivial fun known h _ => ?_
  split
  · exact Contract.wp_ret.mpr trivial
  · refine Contract.wp_bind.mpr (Contract.wp_mapError.mpr (Contract.wp_bind.mpr
      (Contract.wp_call.mpr fun h₁ _ _ =>
        ⟨⟨?_, ?_⟩, fun ch r s' _ _ _ => Contract.wp_ofExcept.mpr ?_⟩)))
    · exact fun row hcall => by cases hcall
    · intro rows hcall row hrow
      obtain rfl := PaymentOp.upsertInvoicesPaid.inj (Call.payment.inj hcall)
      obtain ⟨item, _, hitem⟩ := mem_paidInvoices hinvoices (List.mem_filter.mp hrow).1
      exact namesHash_of_paidInvoice hitem
    · cases r with
      | error e => exact trivial
      | ok affected =>
          refine Contract.wp_mono ?_ (handed_carries.last (Q := fun _ _ => True) ?_
            (fun _ => trivial) trivial)
          · intro h r _
            cases r with
            | error e => exact trivial
            | ok _ =>
                exact handed_carries.attempt_bind
                  (calls_notifyWebhooks.mono sparesInvoices_of_notice) trivial fun _ _ _ =>
                    Contract.wp_ret.mpr trivial
          · split
            · exact Prog.calls_ret _
            · exact calls_enqueueZapReceipts.mono sparesInvoices_of_notice

theorem handed_writers : SettlementWriters (handedContract state.crates) ok state where
  spares := fun _ hc => handed_spares hc
  paid := handleInvoicePaid_names
  batch := handleInvoicesPaid_names
  expires := by
    -- an expiry leaves the invoice of its row
    have carries : ∀ {i q}, (handedContract state.crates).Carries semantics ok i q
        (fun c => ¬ c.WritesInvoices ∨ ∃ k at', c = .payment (.markInvoiceExpired k at'))
        fun _ => True := fun {i q} =>
      { rely := fun _ _ => trivial
        guard := fun {h c} _ hc => by
          rcases hc with hc | ⟨k, at', rfl⟩
          · exact handed_spares hc
          · exact ⟨fun _ hcall => (by cases hcall), fun _ hcall => (by cases hcall)⟩
        call := fun _ _ _ _ _ => trivial }
    intro i q h paymentHash
    refine carries.last (calls_expireBlinkInvoice_env (fun _ => Or.inl id) (Or.inl
      (not_not.mpr trivial)) fun now => Or.inr ⟨_, now, rfl⟩) (fun _ => trivial) trivial

/-- The callback stores an invoice under the payment hash it was checked to have. -/
theorem callback_names (W : SettlementWriters (handedContract state.crates) ok state)
    {domain identifier : String} {params : LnurlPayCallbackParams} :
    (handedContract state.crates).wp semantics ok i q
      (handleInvoiceForResolvedDomain state domain identifier params) (fun _ _ => True) h := by
  have lookup : ∀ c, Call.IsLookup c → c.SparesInvoices :=
    Call.Within.mono fun _ hop => absurd hop id
  simp only [handleInvoiceForResolvedDomain, createProviderInvoiceForAccount, Prog.bind_eq,
    Prog.pure_eq]
  refine W.spared_bind Prog.calls_require fun _ h => ?_
  refine W.spared_bind (calls_publicRecipient.mono lookup) fun recipient h => ?_
  refine W.spared_bind (calls_requireReceiving.mono lookup) fun _ h => ?_
  refine W.spared_bind Prog.calls_ofExcept fun amount h => ?_
  refine W.spared_bind Prog.calls_ofExcept fun description h => ?_
  refine W.spared_bind Prog.calls_ofExcept fun expiry h => ?_
  refine W.spared_bind (calls_resolveMinSendableMsat.mono lookup) fun _ h => ?_
  refine W.spared_bind Prog.calls_require fun _ h => ?_
  refine W.spared_bind (calls_env trivial) fun answer h => ?_
  refine W.spared_bind Prog.calls_ofExcept fun res h => ?_
  refine Contract.wp_ofExcept_bind (fun _ => trivial) fun checked hchecked => ?_
  refine W.spared_bind (calls_nowMillis within_env) fun now h => ?_
  refine W.spared_bind (Prog.calls_mapError.mpr (calls_storeZapAndComment.mono
    Call.PreparesInvoice.sparesInvoices)) fun _ h => ?_
  refine W.then_spared (Contract.wp_mapError.mpr ?_) fun _ => Prog.calls_ret _
  refine W.spared_bind (calls_nowMillis within_env) fun now h => ?_
  refine Contract.wp_call.mpr fun h₁ _ _ => ⟨⟨?_, ?_⟩, fun _ _ _ _ _ _ => ?_⟩
  · intro row hcall
    obtain rfl := PaymentOp.upsertInvoice.inj (Call.payment.inj hcall)
    exact ⟨checked.1, (checkProviderInvoice_ok hchecked).1, rfl⟩
  · exact fun _ hcall => by cases hcall
  · exact Contract.wp_ofExcept.mpr trivial

theorem handed_outline (state : State) :
    Outline (handedContract state.crates) semantics always (handler state)
      (fun _ _ _ _ => True) where
  lawful := handedContract_lawful
  post_stable := fun _ _ _ => trivial
  accept := fun _ _ => (handed_writers.paymentWriters fun {_ _ _ _ _ _} =>
    callback_names handed_writers).handler

theorem handed_initial (clock : Clock) : (handedContract crates).inv ⟨World.fresh clock, []⟩ :=
  fun _ _ hrow => by cases hrow

end Rows

/-! ## Links to verify -/

/-- The domain, the identifier and the parameters of a callback. -/
def Request.callback (crates : Crates) : Request → Option (String × String × LnurlPayCallbackParams)
  | .handleInvoice host identifier params => some (hostDomain crates host, identifier, params)
  | .handleInvoiceForDomain _ domain identifier params =>
      some (lowercase crates (trim domain), identifier, params)
  | _ => none

/-- What `verify` may answer about a payment whose invoice is out. -/
def KnowsInvoice (crates : Crates) (k : String) (answer : VerifyResponse) : Prop :=
  answer = .error "Internal server error" ∨ ∃ settled preimage pr bolt11,
    answer = .ok settled preimage pr ∧ crates.bolt11 pr = .ok bolt11 ∧ bolt11.paymentHash = k

section Runs

variable {state : State} {clock : Clock} {cfg cfg' : Server} {i : Nat} {calls : List CallEvent}
  {k : String} {q : Request}

/-- A finished callback has made up its answer so. -/
theorem callback_ends {domain identifier : String} {params : LnurlPayCallbackParams}
    {response : InvoiceResponse} (hq : q.callback state.crates = some (domain, identifier, params))
    (h : (handler state q).Ends i calls (.ok (.invoice response))) :
    (handleInvoiceForResolvedDomain state domain identifier params).Ends i calls (.ok response) ∧
      ∃ domains, (⟨i, .env .allowedDomains, domains⟩ : CallEvent) ∈ calls ∧
        (domains = [] ∨ domain ∈ domains) := by
  cases q with
  | handleInvoice host identifier' params' =>
      simp only [Request.callback, hostDomain, Option.some.injEq, Prod.mk.injEq] at hq
      obtain ⟨hdomain, rfl, rfl⟩ := hq
      simp only [handler, handleInvoice, Prog.bind_eq, Prog.pure_eq] at h
      obtain ⟨response', h, hresponse⟩ := Prog.ends_bind_ok.mp h
      obtain rfl := Response.invoice.inj (Except.ok.inj (Prog.ends_ret.mp hresponse))
      obtain ⟨_, _, h⟩ := Prog.ends_bind_ok.mp h
      obtain ⟨allowed, hallowed, h⟩ := Prog.ends_bind_ok.mp h
      obtain ⟨hsame, hallowed⟩ := sanitizeDomain_ends hallowed
      obtain rfl := hsame.trans hdomain
      exact ⟨h, hallowed⟩
  | handleInvoiceForDomain host domain' identifier' params' =>
      simp only [Request.callback, Option.some.injEq, Prod.mk.injEq] at hq
      obtain ⟨hdomain, rfl, rfl⟩ := hq
      simp only [handler, handleInvoiceForDomain, Prog.bind_eq, Prog.pure_eq] at h
      obtain ⟨response', h, hresponse⟩ := Prog.ends_bind_ok.mp h
      obtain rfl := Response.invoice.inj (Except.ok.inj (Prog.ends_ret.mp hresponse))
      obtain ⟨_, _, h⟩ := Prog.ends_bind_ok.mp h
      obtain ⟨_, _, h⟩ := Prog.ends_bind_ok.mp h
      obtain ⟨allowed, hallowed, h⟩ := Prog.ends_bind_ok.mp h
      obtain ⟨hsame, hallowed⟩ := sanitizeDomain_ends hallowed
      obtain rfl := hsame.trans hdomain
      exact ⟨h, hallowed⟩
  | _ => cases hq

/-- `verify` answers with the invoice that it has read. -/
theorem verify_ends {answer : VerifyResponse}
    (h : (handler state (.verify k)).Ends i calls (.ok (.verify answer))) :
    answer = .error "Internal server error" ∨
      ∃ stored, (⟨i, .payment (.getInvoiceByPaymentHash k), .ok stored⟩ : CallEvent) ∈ calls ∧
        ∀ row, stored = some row → answer = .error "Internal server error" ∨
          ∃ settled preimage, answer = .ok settled preimage row.invoice := by
  simp only [handler, verify, Prog.bind_eq, Prog.pure_eq] at h
  obtain ⟨answer', h, hanswer⟩ := Prog.ends_bind_ok.mp h
  obtain rfl := Response.verify.inj (Except.ok.inj (Prog.ends_ret.mp hanswer))
  obtain ⟨read, hread, h⟩ := Prog.ends_bind_ok.mp h
  have hread := Prog.ends_attempt.mp hread
  cases read with
  | error e => exact Or.inl (Except.ok.inj (Prog.ends_ret.mp h))
  | ok stored =>
      refine Or.inr ⟨stored, ends_payment.mp hread, fun row hrow => ?_⟩
      subst hrow
      obtain ⟨preimage, _, h⟩ := Prog.ends_bind_ok.mp h
      cases preimage with
      | error e => exact Or.inl (Except.ok.inj (Prog.ends_ret.mp h))
      | ok preimage => exact Or.inr ⟨_, _, Except.ok.inj (Prog.ends_ret.mp h)⟩

/-- Invoice rows stay. -/
theorem stored_of_steps (h : Steps semantics always (handler state) cfg cfg')
    (hrow : (cfg.hist.state.payments.invoiceOf k).isSome) :
    (cfg'.hist.state.payments.invoiceOf k).isSome := by
  induction h with
  | refl => exact hrow
  | tail _ hstep ih =>
      cases hstep with
      | accept => exact ih
      | call _ hexec _ => exact (exec_invoice hexec k).isSome ih
      | @tick _ s' htick =>
          obtain ⟨_, hpayments, _⟩ := tick_cases htick
          show (s'.payments.invoiceOf k).isSome
          rw [hpayments]
          exact ih

/-- What was stored is stored. -/
theorem stored_of_upserted
    (hreach : Reachable semantics always (handler state) (World.fresh clock) cfg) {row : Invoice}
    (hev : (⟨i, .payment (.upsertInvoice row), .ok ()⟩ : CallEvent) ∈ cfg.hist.log) :
    (cfg.hist.state.payments.invoiceOf row.paymentHash).isSome := by
  obtain ⟨mid, mid', took⟩ := hreach.took hev
  obtain ⟨_, _, ch, _, hexec, _⟩ := took.call
  refine stored_of_steps took.after ?_
  rcases execPayment_cases (exec_payment hexec) with ⟨_, e, hfails⟩ | ⟨out, hrun, _, hafter⟩
  · cases hfails
  · rw [hafter, ← hrun]
    show ((mid.hist.state.payments.upsertInvoice row).invoiceOf row.paymentHash).isSome
    rw [invoiceOf_upsertInvoice, if_pos rfl]
    rfl

/-- A log that does not have the event yet is over before it. -/
theorem prefix_of_new {log before since : List CallEvent} {ev : CallEvent}
    (h : log <+: before ++ ev :: since) (hnew : ev ∉ log) : log <+: before := by
  rcases Nat.lt_or_ge before.length log.length with hlt | hle
  · have hsplit : before ++ ev :: since = (before ++ [ev]) ++ since := by simp
    have hlong : (before ++ [ev]) <+: log := by
      refine List.prefix_of_prefix_length_le (hsplit ▸ List.prefix_append _ _) h ?_
      rw [List.length_append, List.length_singleton]
      omega
    exact absurd (hlong.subset (List.mem_append_right _ (List.mem_singleton_self _))) hnew
  · exact List.prefix_of_prefix_length_le h (List.prefix_append _ _) hle

/-- However requests interleave, an invoice that the callback hands out was made by
the provider of the recipient the identifier resolved to, is for the amount that was
asked for, commits to what was described, and is stored. From then on a row for it is
stored, over its payment hash, and `verify` of that hash does not answer that it is
not found, nor with another invoice. -/
theorem handed_out_invoices_known
    (hreach : Reachable semantics always (handler state) (World.fresh clock) cfg) {q : Request}
    {domain identifier : String} {params : LnurlPayCallbackParams} {response : InvoiceResponse}
    (hrequest : cfg.request i = some q)
    (hcallback : q.callback state.crates = some (domain, identifier, params))
    (houtcome : cfg.outcome i = some (.ok (.invoice response))) :
    (∃ domains, (⟨i, .env .allowedDomains, domains⟩ : CallEvent) ∈ cfg.hist.callsOf i ∧
      (domains = [] ∨ domain ∈ domains)) ∧
    ∃ recipient bolt11, HandsOut state i (cfg.hist.callsOf i) domain identifier params recipient
        bolt11 response ∧
      ∀ cfg', Steps semantics always (handler state) cfg cfg' →
        (∃ row, cfg'.hist.state.payments.invoiceOf bolt11.paymentHash = some row ∧
          NamesHash state.crates row) ∧
        ∀ j answer, cfg.threads.length ≤ j → cfg'.request j = some (.verify bolt11.paymentHash) →
          cfg'.outcome j = some (.ok (.verify answer)) →
            KnowsInvoice state.crates bolt11.paymentHash answer := by
  obtain ⟨hends, hallowed⟩ := callback_ends hcallback (hreach.ends hrequest houtcome)
  obtain ⟨recipient, bolt11, hout⟩ := handsOut_of_ends hends
  refine ⟨hallowed, recipient, bolt11, hout, fun cfg' hsteps => ?_⟩
  obtain ⟨row, hwritten, hhash, _⟩ := hout.stored
  have hwritten := (Hist.mem_callsOf.mp hwritten).1
  have hreach' : Reachable semantics always (handler state) (World.fresh clock) cfg' :=
    hreach.trans hsteps
  have names : ∀ {mid : Server},
      Reachable semantics always (handler state) (World.fresh clock) mid →
      (handedContract state.crates).inv mid.hist := fun hmid =>
    (Reachable.sound (handed_outline state) (handed_initial clock) hmid).inv
  constructor
  · obtain ⟨row', hrow'⟩ := Option.isSome_iff_exists.mp
      (hhash ▸ stored_of_upserted hreach' (hsteps.log_prefix.subset hwritten))
    exact ⟨row', hrow', names hreach' _ row' hrow'⟩
  · intro j answer hj hverify hanswer
    rcases verify_ends (hreach'.ends hverify hanswer) with herror | ⟨stored, hread, hanswers⟩
    · exact Or.inl herror
    · -- the row was read after the invoice was handed out
      obtain ⟨before, since, hlog⟩ := List.append_of_mem (Hist.mem_callsOf.mp hread).1
      have hlater : cfg.hist.log <+: before := by
        have hprefix := hsteps.log_prefix
        rw [hlog] at hprefix
        refine prefix_of_new hprefix fun hold => ?_
        have hbound := (Reachable.sound (handed_outline state) (handed_initial clock) hreach).bound
          _ hold
        exact absurd hj (Nat.not_le.mpr hbound)
      obtain ⟨mid, mid', took, rfl⟩ := hreach'.took_at hlog
      obtain ⟨_, _, ch, _, hexec, _⟩ := took.call
      obtain ⟨_, hstored⟩ := read_invoice hexec
      have hsome := stored_of_upserted took.before (hlater.subset hwritten)
      rw [hhash, hstored] at hsome
      obtain ⟨row', rfl⟩ := Option.isSome_iff_exists.mp hsome
      obtain ⟨bolt11', hdecoded, hhash'⟩ := names took.before _ row' hstored
      rcases hanswers row' rfl with herror | ⟨settled, preimage, rfl⟩
      · exact Or.inl herror
      · exact Or.inr ⟨settled, preimage, _, bolt11', rfl, hdecoded,
          hhash'.trans (paymentHash_of_get hstored)⟩

end Runs

/-! ## An example -/

section Example

open Deployment Schedule

/-- The payer asks at the link it was given. -/
def verified : Schedule := serve (.verify "aa") ++ calls 2 1

theorem handed_out_invoices_known_alice :
    ∃ (cfg cfg' : Server) (answer : VerifyResponse),
      Reachable semantics always (handler payeeServer) (World.fresh ⟨1000000, by decide⟩) cfg ∧
      Steps semantics always (handler payeeServer) cfg cfg' ∧
      cfg.outcome 1 = some (.ok (.invoice ⟨"lnbc1", "https://d.io/verify/aa"⟩)) ∧
      (∃ row, cfg'.hist.state.payments.invoiceOf "aa" = some row ∧
        NamesHash payeeServer.crates row) ∧
      cfg'.outcome 2 = some (.ok (.verify answer)) ∧
      KnowsInvoice payeeServer.crates "aa" answer := by
  have hout : (payeeRun always invoiced).any (fun cfg =>
      cfg.outcome 1 = some (.ok (.invoice ⟨"lnbc1", "https://d.io/verify/aa"⟩)) &&
        cfg.threads.length = 2) = true := by
    decide +kernel
  have hverified : (payeeRun always (invoiced ++ verified)).any (fun cfg =>
      cfg.outcome 2 = some (.ok (.verify (.ok false none "lnbc1")))) = true := by
    decide +kernel
  obtain ⟨cfg, cfg', hreach, hsteps, _, hserved, hcfg, hcfg'⟩ := steps_of_replay hout hverified
  rw [Bool.and_eq_true, decide_eq_true_eq, decide_eq_true_eq] at hcfg
  have hanswer := of_decide_eq_true hcfg'
  obtain ⟨q, hq, _⟩ := Config.thread_of_outcome hcfg.1
  have hasks : some q = some asksInvoice := (Steps.request hsteps hq).symm.trans (hserved 1)
  obtain rfl := Option.some.inj hasks
  obtain ⟨_, recipient, bolt11, hout, hknown⟩ := handed_out_invoices_known hreach hq rfl hcfg.1
  have hdecoded :
      payeeServer.crates.bolt11 "lnbc1" = .ok ⟨"aa", some "dd", some 10000, some 2000000⟩ :=
    rfl
  obtain rfl := Except.ok.inj (hout.decoded.symm.trans hdecoded)
  obtain ⟨hstored, hverify⟩ := hknown cfg' hsteps
  exact ⟨cfg, cfg', _, hreach, hsteps, hcfg.1, hstored, hanswer,
    hverify 2 _ (Nat.le_of_eq hcfg.2) (hserved 2) hanswer⟩

end Example

end BlinkLnurl
