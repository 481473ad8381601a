import BlinkLnurl.Server.Notified
import BlinkLnurl.Server.PaymentWriters
import BlinkLnurl.Server.SoundSettlement

/-!
# What webhooks tell

A delivery is queued with what one query has answered about a settled payment,
taken by the worker, and sent by a task of its own, each at its own time. The
contract ties a queued delivery to the answer it was made of, a message to the
delivery its task was given, and a report of success to the answer of the
endpoint. Since settlements are sound, whoever receives a webhook is told of a
payment that was stored as settled before (`webhooks_tell_payments`).
-/

namespace BlinkLnurl

open Conc Rel PaymentStore WebhookDeliveries

/-! ## The contract -/

/-- The store has answered with the payload. -/
def AnsweredPayload (log : List CallEvent) (data : WebhookPayloadData) : Prop :=
  ∃ (i : Nat) (hashes : List String) (answer : List WebhookPayloadData),
    (⟨i, .payment (.getWebhookPayloads hashes), .ok answer⟩ : CallEvent) ∈ log ∧ data ∈ answer

/-- The delivery is made of such an answer. -/
def MadeOfAnswer (log : List CallEvent) (delivery : NewWebhookDelivery) : Prop :=
  ∃ data timestamp, AnsweredPayload log data ∧ delivery = paymentReceived timestamp data

/-- The thread was told to send the deliveries of the domain to the URL. -/
def ConfiguredFor (i : Nat) (domain url secret : String) (log : List CallEvent) : Prop :=
  ∃ config : WebhookConfig, (⟨i, .env (.webhookConfig domain), some config⟩ : CallEvent) ∈ log ∧
    config.url = url ∧ config.secret = secret

/-- The thread has sent the payload to the URL, which has accepted it. -/
def AcceptedAt (i : Nat) (url : String) (payload : WebhookPayload) (log : List CallEvent) : Prop :=
  ∃ secret, (⟨i, .env (.sendWebhook url payload secret), .ok ()⟩ : CallEvent) ∈ log

/-- What the task of a delivery may do: send its payload to where its domain is
configured, and report the success of what was accepted. -/
def MaySend (i : Nat) (delivery : WebhookDelivery) (log : List CallEvent) : Call → Prop
  | .env (.sendWebhook url payload secret) =>
      payload = delivery.payload ∧ ConfiguredFor i delivery.domain url secret log
  | .payment (.webhook (.updateWebhookDeliverySuccess id _ url)) =>
      id = delivery.id ∧ AcceptedAt i url delivery.payload log
  | _ => True

/-- The call queues no delivery. -/
def PaymentOp.QueuesNothing : PaymentOp → Prop
  | .insertWebhookDeliveries _ => False
  | _ => True

/-- Only what was answered is queued, and only deliveries that were made of it
are sent. -/
def webhookContract : Contract Request Call Reply World where
  inv h := ∀ row ∈ h.state.payments.webhookDeliveries, MadeOfAnswer h.log row.delivery
  rely _ h h' := h.log <+: h'.log
  guard i q h c :=
    (∀ deliveries, c = .payment (.insertWebhookDeliveries deliveries) →
      ∀ delivery ∈ deliveries, MadeOfAnswer h.log delivery) ∧
    ∀ delivery, q = .processWebhookDelivery delivery → MaySend i delivery h.log c

theorem AnsweredPayload.mono {log log' : List CallEvent} {data : WebhookPayloadData}
    (hlog : log <+: log') (h : AnsweredPayload log data) : AnsweredPayload log' data := by
  obtain ⟨i, hashes, answer, hev, hdata⟩ := h
  exact ⟨i, hashes, answer, hlog.subset hev, hdata⟩

theorem MadeOfAnswer.mono {log log' : List CallEvent} {delivery : NewWebhookDelivery}
    (hlog : log <+: log') (h : MadeOfAnswer log delivery) : MadeOfAnswer log' delivery := by
  obtain ⟨data, timestamp, hdata, hdelivery⟩ := h
  exact ⟨data, timestamp, hdata.mono hlog, hdelivery⟩

section Law

variable {ok : History → CallEvent → Prop} {h : History} {i : Nat} {q : Request} {c : Call}
  {ch : Choice c} {r : Reply c} {w' : World}

theorem webhook_call (inv : webhookContract.inv h) (hguard : webhookContract.guard i q h c)
    (hexec : exec c ch h.state = some (r, w')) : webhookContract.inv (h.push ⟨i, c, r⟩ w') := by
  intro row hrow
  have hlog : h.log <+: (h.push ⟨i, c, r⟩ w').log := List.prefix_append _ _
  rcases exec_deliveries i hexec with ⟨deliveries, hqueued, hrows⟩ | ⟨_, hkept⟩
  · have hrow :
        row ∈ insertAll h.state.clock.millis deliveries h.state.payments.webhookDeliveries := by
      rw [← hrows]
      exact hrow
    rcases mem_insertAll hrow with hold | ⟨delivery, hdelivery, id, rfl, _⟩
    · exact (inv row hold).mono hlog
    · have hcall : c = .payment (.insertWebhookDeliveries deliveries) := by
        unfold queuedDeliveries at hqueued
        split at hqueued
        · rename_i hev
          obtain ⟨_, hc⟩ := Event.mk.inj hev
          obtain rfl := Option.some.inj hqueued
          exact hc.1
        · cases hqueued
      exact (hguard.1 deliveries hcall delivery hdelivery).mono hlog
  · obtain ⟨old, hold, hsame⟩ := hkept row hrow
    rw [hsame.delivery]
    exact (inv old hold).mono hlog

theorem webhookContract_lawful : webhookContract.Lawful semantics ok where
  refl := fun _ _ => List.prefix_rfl
  trans := fun h₁ h₂ => h₁.trans h₂
  call := fun inv hguard hexec _ => webhook_call inv hguard hexec
  tick := fun {h t s'} inv htick => by
    intro row hrow
    obtain ⟨_, hpayments, _⟩ := tick_cases htick
    have hrow : row ∈ s'.payments.webhookDeliveries := hrow
    rw [hpayments] at hrow
    exact inv row hrow
  ticks := fun _ _ => List.prefix_rfl
  others := fun _ _ _ _ _ => List.prefix_append _ _

end Law

/-! ## The handlers -/

section Pieces

variable {state : State} {crates : Crates} {ok : History → CallEvent → Prop} {i : Nat} {q : Request}
  {h : History} {ε α β : Type}

/-- The request is not the task of a delivery. -/
def Request.SendsNothing (q : Request) : Prop := ∀ delivery, q ≠ .processWebhookDelivery delivery

/-- Other requests may make any call that queues nothing. -/
theorem silent_guard {c : Call} (hq : q.SendsNothing) (hc : c.Within PaymentOp.QueuesNothing) :
    webhookContract.guard i q h c :=
  ⟨fun _ hqueues => by subst hqueues; exact hc.elim,
    fun delivery hdelivery => absurd hdelivery (hq delivery)⟩

theorem silent_carries (hq : q.SendsNothing) : webhookContract.Carries semantics ok i q
    (Call.Within PaymentOp.QueuesNothing) fun _ => True where
  rely := fun _ _ => trivial
  guard := fun _ hc => silent_guard hq hc
  call := fun _ _ _ _ _ => trivial

theorem silent_bind (hq : q.SendsNothing) {p : Prog Call Reply ε α} {f : α → Prog Call Reply ε β}
    (hp : p.Calls (Call.Within PaymentOp.QueuesNothing))
    (hf : ∀ a h, webhookContract.wp semantics ok i q (f a) (fun _ _ => True) h) :
    webhookContract.wp semantics ok i q (p.bind f) (fun _ _ => True) h :=
  (silent_carries hq).bind hp (fun _ => trivial) trivial fun a h _ => hf a h

theorem silent (hq : q.SendsNothing) {p : Prog Call Reply ε α}
    (hp : p.Calls (Call.Within PaymentOp.QueuesNothing)) :
    webhookContract.wp semantics ok i q p (fun _ _ => True) h :=
  (silent_carries hq).last hp (fun _ => trivial) trivial

theorem then_silent (hq : q.SendsNothing) {p : Prog Call Reply ε α} {f : α → Prog Call Reply ε β}
    (hp : webhookContract.wp semantics ok i q p (fun _ _ => True) h)
    (hf : ∀ a, (f a).Calls (Call.Within PaymentOp.QueuesNothing)) :
    webhookContract.wp semantics ok i q (p.bind f) (fun _ _ => True) h := by
  refine Contract.wp_bind.mpr (Contract.wp_mono ?_ hp)
  intro h r _
  cases r with
  | ok a => exact silent hq (hf a)
  | error e => exact trivial

/-- A notification queues what it has been answered. -/
theorem notifyWebhooks_tells (hq : q.SendsNothing) {hashes : List String} :
    webhookContract.wp semantics ok i q (notifyWebhooks hashes) (fun _ _ => True) h := by
  simp only [notifyWebhooks, Prog.bind_eq, Prog.pure_eq]
  refine Contract.wp_bind.mpr (Contract.wp_call.mpr fun h₁ _ _ => ⟨?_, ?_⟩)
  · exact silent_guard hq trivial
  · intro ch r s' _ _ _
    refine Contract.wp_ofExcept.mpr ?_
    cases r with
    | error e => exact trivial
    | ok data =>
        dsimp only
        split
        · exact Contract.wp_ret.mpr trivial
        · refine Contract.wp_call.mpr fun h₂ hrely _ =>
            ⟨silent_guard hq trivial, fun _ now s₂ _ _ _ => ?_⟩
          refine Contract.wp_call.mpr fun h₃ hrely₃ _ => ⟨⟨?_, ?_⟩, fun _ _ _ _ _ _ => ?_⟩
          · intro deliveries hinsert delivery hdelivery
            obtain rfl := PaymentOp.insertWebhookDeliveries.inj (Call.payment.inj hinsert)
            obtain ⟨payload, hpayload, rfl⟩ := List.mem_map.mp hdelivery
            refine ⟨payload, now, ⟨i, hashes, data, ?_, hpayload⟩, rfl⟩
            refine hrely₃.subset (List.mem_append_left _ (hrely.subset ?_))
            exact List.mem_append_right _ (List.mem_singleton_self _)
          · exact fun delivery hdelivery => absurd hdelivery (hq delivery)
          · exact Contract.wp_ofExcept.mpr trivial

theorem calls_enqueueZapReceipt_silent {paymentHash : String} :
    (enqueueZapReceipt paymentHash).Calls (Call.Within PaymentOp.QueuesNothing) := by
  simp only [enqueueZapReceipt, Prog.bind_eq]
  exact Prog.calls_bind (calls_nowMillis within_env) fun _ => calls_payment trivial

theorem calls_storePreimage_silent {paymentHash preimage : String} {invoice : Invoice}
    {amount : Option Int} {now : Int} :
    (storePreimage paymentHash invoice preimage amount now).Calls
      (Call.Within PaymentOp.QueuesNothing) := by
  simp only [storePreimage, Prog.bind_eq, Prog.pure_eq]
  split
  · exact Prog.calls_bind (calls_payment trivial) fun _ => calls_enqueueZapReceipt_silent
  · exact Prog.calls_ret _

theorem calls_settleBatch_silent {invoices : List Invoice} :
    (settleBatch invoices).Calls (Call.Within PaymentOp.QueuesNothing) := by
  simp only [settleBatch, enqueueZapReceipts, Prog.bind_eq, Prog.pure_eq]
  refine Prog.calls_bind (calls_payment trivial) fun affected => ?_
  split
  · exact Prog.calls_ret _
  · exact Prog.calls_bind (calls_nowMillis within_env) fun _ => calls_payment trivial

theorem handleInvoicePaid_tells (hq : q.SendsNothing) {paymentHash preimage : String}
    {amount : Option Int} :
    webhookContract.wp semantics ok i q (handleInvoicePaid crates paymentHash preimage amount)
      (fun _ _ => True) h := by
  simp only [handleInvoicePaid, Prog.bind_eq, Prog.pure_eq]
  refine silent_bind hq Prog.calls_ofExcept fun _ h => ?_
  refine silent_bind hq (calls_nowMillis within_env) fun now h => ?_
  refine silent_bind hq (Prog.calls_mapError.mpr (calls_payment trivial)) fun stored h => ?_
  cases stored with
  | none => exact Contract.wp_ret.mpr trivial
  | some invoice =>
      refine silent_bind hq (Prog.calls_mapError.mpr calls_storePreimage_silent) fun _ h => ?_
      exact then_silent hq (Contract.wp_attempt.mpr (notifyWebhooks_tells hq))
        fun _ => Prog.calls_ret _

theorem handleInvoicesPaid_tells (hq : q.SendsNothing) {items : List PaidInvoice}
    {userPubkey : String} :
    webhookContract.wp semantics ok i q (handleInvoicesPaid crates items userPubkey)
      (fun _ _ => True) h := by
  simp only [handleInvoicesPaid, Prog.bind_eq, Prog.pure_eq]
  refine silent_bind hq (calls_nowMillis within_env) fun now h => ?_
  refine silent_bind hq Prog.calls_ofExcept fun invoices h => ?_
  refine silent_bind hq (Prog.calls_mapError.mpr (calls_payment trivial)) fun known h => ?_
  split
  · exact Contract.wp_ret.mpr trivial
  · refine silent_bind hq (Prog.calls_mapError.mpr calls_settleBatch_silent) fun _ h => ?_
    exact then_silent hq (Contract.wp_attempt.mpr (notifyWebhooks_tells hq)) fun _ =>
      Prog.calls_ret _

theorem publishZapReceipt_tells (hq : q.SendsNothing) {pubkey paymentHash : String}
    {payload : PublishZapReceiptRequest} :
    webhookContract.wp semantics ok i q (publishZapReceipt state pubkey paymentHash payload)
      (fun _ _ => True) h := by
  simp only [publishZapReceipt, Prog.bind_eq, Prog.pure_eq]
  refine silent_bind hq (calls_validate within_env) fun _ h => ?_
  refine silent_bind hq Prog.calls_ofExcept fun zapReceipt h => ?_
  refine silent_bind hq (Prog.calls_mapError.mpr (calls_payment trivial)) fun stored h => ?_
  refine silent_bind hq Prog.calls_ofExcept fun zap h => ?_
  refine silent_bind hq Prog.calls_require fun _ h => ?_
  refine then_silent hq ?_ fun _ => ?_
  · cases findPreimage zapReceipt.tags with
    | none => exact Contract.wp_ret.mpr trivial
    | some preimage =>
        refine then_silent hq (Contract.wp_attempt.mpr (handleInvoicePaid_tells hq))
          fun settled => ?_
        split
        · exact Prog.calls_fail _
        · exact Prog.calls_ret _
  · cases zap.zapEvent with
    | some stored => exact Prog.calls_ret _
    | none =>
        refine Prog.calls_bind Prog.calls_ofExcept fun _ => ?_
        refine Prog.calls_bind (calls_receiptToPublish_env within_env) fun _ => ?_
        refine Prog.calls_bind (calls_sendToRelays_env within_env) fun _ => ?_
        refine Prog.calls_bind (calls_nowMillis within_env) fun _ => ?_
        exact Prog.calls_bind (Prog.calls_mapError.mpr (calls_payment trivial))
          fun _ => Prog.calls_ret _

theorem prepares_silent : ∀ c, Call.PreparesInvoice c → c.Within PaymentOp.QueuesNothing :=
  Call.Within.mono fun op _ => by cases op <;> trivial

theorem webhookPieces (hq : q.SendsNothing) : PaymentPieces webhookContract ok state q where
  spares := fun {i h c} _ hc =>
    ⟨fun _ hqueues => by subst hqueues; exact absurd id hc,
      fun delivery hdelivery => absurd hdelivery (hq delivery)⟩
  paid := handleInvoicePaid_tells hq
  batch := handleInvoicesPaid_tells hq
  expires := silent hq (calls_expireBlinkInvoice_env within_env trivial fun _ => trivial)
  callback := silent hq (calls_handleInvoiceForResolvedDomain prepares_silent fun _ _ => trivial)
  publish := fun _ => publishZapReceipt_tells hq
  process := silent hq (calls_processPendingZapReceipts_on.mono
    (Call.Within.mono fun op _ => by cases op <;> trivial))

/-- The report of a failure, a parking or a deletion. -/
theorem writeWebhook_tells {delivery : WebhookDelivery} {w : WebhookWrite}
    (hw : ∀ {log}, h.log <+: log → MaySend i delivery log (.payment (.webhook w))) :
    webhookContract.wp semantics ok i (.processWebhookDelivery delivery) (writeWebhook w)
      (fun _ _ => True) h := by
  simp only [writeWebhook, Prog.bind_eq, Prog.pure_eq]
  refine Contract.wp_bind.mpr (Contract.wp_attempt.mpr (Contract.wp_call.mpr fun h₁ hrely _ => ?_))
  refine ⟨⟨fun _ hqueues => (by cases hqueues), ?_⟩, fun ch r s' _ _ _ => ?_⟩
  · intro delivery' hdelivery
    obtain rfl := Request.processWebhookDelivery.inj hdelivery
    exact hw hrely
  · exact Contract.wp_ofExcept.mpr (Contract.wp_ret.mpr trivial)

/-- The task sends its payload to where it was told, and reports what came of it. -/
theorem processWebhookDelivery_tells {delivery : WebhookDelivery} :
    webhookContract.wp semantics ok i (.processWebhookDelivery delivery)
      (processWebhookDelivery delivery) (fun _ _ => True) h := by
  simp only [processWebhookDelivery, Prog.bind_eq]
  refine Contract.wp_bind.mpr (Contract.wp_call.mpr fun h₁ _ _ => ⟨⟨fun _ hqueues => (by
    cases hqueues), fun _ _ => trivial⟩, fun _ config s₁ _ _ _ => ?_⟩)
  refine Contract.wp_ret.mpr ?_
  cases config with
  | none =>
      dsimp only
      split
      · exact writeWebhook_tells fun _ => trivial
      · exact writeWebhook_tells fun _ => trivial
  | some config =>
      dsimp only
      refine Contract.wp_bind.mpr (Contract.wp_call.mpr fun h₂ hrely₂ _ => ⟨⟨fun _ hqueues => (by
        cases hqueues), fun _ _ => trivial⟩, fun _ now s₂ _ _ _ => ?_⟩)
      refine Contract.wp_ret.mpr (Contract.wp_bind.mpr (Contract.wp_call.mpr fun h₃ hrely₃ _ =>
        ⟨⟨fun _ hqueues => (by cases hqueues), fun delivery' hdelivery => ?_⟩,
          fun _ sent s₃ _ _ _ => ?_⟩))
      · obtain rfl := Request.processWebhookDelivery.inj hdelivery
        refine ⟨rfl, config, hrely₃.subset ?_, rfl, rfl⟩
        refine List.mem_append_left _ (hrely₂.subset ?_)
        exact List.mem_append_right _ (List.mem_singleton_self _)
      · refine Contract.wp_ret.mpr ?_
        cases sent with
        | error e => exact writeWebhook_tells fun _ => trivial
        | ok accepted =>
            refine writeWebhook_tells fun hlog => ⟨rfl, config.secret, hlog.subset ?_⟩
            exact List.mem_append_right _ (List.mem_singleton_self _)

/-- Every handler keeps to the contract. -/
theorem handler_tells :
    webhookContract.wp semantics ok i q (handler state q) (fun _ _ => True) h := by
  by_cases hq : q.SendsNothing
  · exact (webhookPieces hq).handler
  · unfold Request.SendsNothing at hq
    push Not at hq
    obtain ⟨delivery, rfl⟩ := hq
    refine Contract.wp_bind.mpr (Contract.wp_mono ?_ processWebhookDelivery_tells)
    intro h r _
    cases r with
    | ok a => exact Contract.wp_ret.mpr trivial
    | error e => exact trivial

end Pieces

theorem webhook_outline (state : State) :
    Outline webhookContract semantics always (handler state) (fun _ _ _ _ => True) where
  lawful := webhookContract_lawful
  post_stable := fun _ _ _ => trivial
  accept := fun _ _ => handler_tells

theorem webhooks_initial (clock : Clock) : webhookContract.inv ⟨World.fresh clock, []⟩ :=
  fun _ hrow => absurd hrow List.not_mem_nil

/-! ## What is told -/

/-- The payload tells a payment that is stored as settled on the domain. -/
structure TellsPayment (crates : Crates) (w : World) (domain : String) (payload : WebhookPayload) :
    Prop where
  pays : preimageHash crates payload.preimage = .ok payload.paymentHash
  comment : payload.senderComment =
    (w.payments.senderComments.get payload.paymentHash).map LnurlSenderComment.comment
  invoice : ∃ invoice, w.payments.invoiceOf payload.paymentHash = some invoice ∧
    invoice.domain = some domain ∧ invoice.preimage = some payload.preimage ∧
    payload.invoice = invoice.invoice ∧ payload.amountSat = invoice.amountReceivedSat ∧
    IsAddress w.accounts.accountIdentifiers invoice.accountId domain payload.lightningAddress

/-- The worker has taken the delivery. -/
def TakenIn (log : List CallEvent) (delivery : WebhookDelivery) : Prop :=
  ∃ (i : Nat) (answer : List WebhookDelivery),
    (⟨i, .payment .takePendingWebhookDeliveries, .ok answer⟩ : CallEvent) ∈ log ∧ delivery ∈ answer

section Runs

variable {state : State} {clock : Clock} {cfg : Server}

/-- The payment was told so in a state that the run has passed before the calls
in `log` were over. -/
def ToldBefore (state : State) (clock : Clock) (cfg : Server) (log : List CallEvent)
    (domain : String) (payload : WebhookPayload) : Prop :=
  ∃ mid : Server, Reachable semantics always (handler state) (World.fresh clock) mid ∧
    Steps semantics always (handler state) mid cfg ∧ mid.hist.log <+: log ∧
    TellsPayment state.crates mid.hist.state domain payload

theorem ToldBefore.mono {cfg' : Server} {log : List CallEvent} {domain : String}
    {payload : WebhookPayload} (h : ToldBefore state clock cfg log domain payload)
    (hsteps : Steps semantics always (handler state) cfg cfg') {log' : List CallEvent}
    (hlog : log <+: log') : ToldBefore state clock cfg' log' domain payload := by
  obtain ⟨mid, hmid, hto, hprefix, htells⟩ := h
  exact ⟨mid, hmid, hto.trans hsteps, hprefix.trans hlog, htells⟩

/-- What the store answers is stored. -/
theorem told_of_answered
    (hreach : Reachable semantics always (handler state) (World.fresh clock) cfg)
    {delivery : NewWebhookDelivery} (h : MadeOfAnswer cfg.hist.log delivery) :
    ToldBefore state clock cfg cfg.hist.log delivery.domain delivery.payload := by
  obtain ⟨data, timestamp, ⟨i, hashes, answer, hev, hdata⟩, rfl⟩ := h
  obtain ⟨mid, mid', took⟩ := hreach.took hev
  obtain ⟨_, _, ch, _, hexec, _⟩ := took.call
  have hto : Steps semantics always (handler state) mid cfg := .head took.step took.after
  refine ⟨mid, took.before, hto, hto.log_prefix, ?_⟩
  rcases execPayment_cases (exec_payment hexec) with ⟨_, e, hfails⟩ | ⟨out, hrun, hanswered, _⟩
  · cases hfails
  · obtain rfl := Except.ok.inj hanswered
    have hanswer : data ∈ mid.hist.state.payments.getWebhookPayloads
        mid.hist.state.accounts.accountIdentifiers hashes := by
      rw [← hrun] at hdata
      exact hdata
    obtain ⟨invoice, hinvoice, _, hpayload⟩ := mem_getWebhookPayloads.mp hanswer
    have hdelivery := @isDeliveryOf_payload _ _ _ _ 0 0 timestamp hinvoice hpayload
    obtain ⟨invoice', hinvoice', _, hdomain, hpreimage, htext, hamount, haddress⟩ :=
      hdelivery.invoice
    have hsound := (Reachable.sound (payment_outline state) (payments_initial False clock)
      took.before).inv.1 _ invoice' hinvoice'
    refine ⟨?_, hdelivery.comment, invoice', hinvoice', hdomain, hpreimage, htext, hamount,
      haddress⟩
    exact (hsound.preimage _ hpreimage).trans (congrArg Except.ok (paymentHash_of_get hinvoice'))

/-- What the worker has taken was told so. -/
theorem told_of_taken
    (hreach : Reachable semantics always (handler state) (World.fresh clock) cfg)
    {delivery : WebhookDelivery} (h : TakenIn cfg.hist.log delivery) :
    ToldBefore state clock cfg cfg.hist.log delivery.domain delivery.payload := by
  obtain ⟨i, answer, hev, hdelivery⟩ := h
  obtain ⟨mid, mid', took⟩ := hreach.took hev
  obtain ⟨_, _, ch, _, hexec, _⟩ := took.call
  have hto : Steps semantics always (handler state) mid cfg := .head took.step took.after
  rcases execPayment_cases (exec_payment hexec) with ⟨_, e, hfails⟩ | ⟨out, hrun, hanswered, _⟩
  · cases hfails
  · obtain rfl := Except.ok.inj hanswered
    rw [← hrun] at hdelivery
    obtain ⟨row, hrow, _, rfl⟩ := (takesPending_take _ _).row hdelivery
    have inv := (Reachable.sound (webhook_outline state) (webhooks_initial clock) took.before).inv
    exact (told_of_answered took.before (inv row hrow)).mono hto hto.log_prefix

/-- What the contract says of a call that was made. -/
theorem guard_of_call
    (hreach : Reachable semantics always (handler state) (World.fresh clock) cfg)
    {before since : List CallEvent} {i : Nat} {c : Call} {r : Reply c} {q : Request}
    (hlog : cfg.hist.log = before ++ ⟨i, c, r⟩ :: since) (hrequest : cfg.request i = some q) :
    ∃ mid : Server, Reachable semantics always (handler state) (World.fresh clock) mid ∧
      Steps semantics always (handler state) mid cfg ∧ mid.hist.log = before ∧
      webhookContract.guard i q mid.hist c := by
  obtain ⟨mid, mid', took, hbefore⟩ := hreach.took_at hlog
  obtain ⟨q', _, _, hth, _⟩ := took.call
  have hto : Steps semantics always (handler state) mid cfg := .head took.step took.after
  have hkept := Steps.request hto (Config.request_of_thread hth)
  obtain rfl := Option.some.inj (hkept.symm.trans hrequest)
  have hguard := (Reachable.sound (webhook_outline state) (webhooks_initial clock)
    took.before).guard webhookContract_lawful.toKeeps hth
  exact ⟨mid, took.before, hto, hbefore, hguard⟩

/-- However requests and tasks interleave: every queued delivery tells a payment
that was stored as settled before. A task sends its delivery's own payload to
where the domain of the delivery is configured, and if the worker has taken the
delivery, the payload tells a payment that was stored as settled before it was
sent. A task reports a delivery as sent only after the endpoint has accepted its
payload. -/
theorem webhooks_tell_payments
    (hreach : Reachable semantics always (handler state) (World.fresh clock) cfg) :
    (∀ row ∈ cfg.hist.state.payments.webhookDeliveries,
      ToldBefore state clock cfg cfg.hist.log row.delivery.domain row.delivery.payload) ∧
    (∀ before since i url payload secret sent delivery,
      cfg.hist.log = before ++ ⟨i, .env (.sendWebhook url payload secret), sent⟩ :: since →
      cfg.request i = some (.processWebhookDelivery delivery) →
        payload = delivery.payload ∧ ConfiguredFor i delivery.domain url secret before ∧
        (TakenIn before delivery → ToldBefore state clock cfg before delivery.domain payload)) ∧
    ∀ before since i id at' url reply delivery,
      cfg.hist.log = before ++
        ⟨i, .payment (.webhook (.updateWebhookDeliverySuccess id at' url)), reply⟩ :: since →
      cfg.request i = some (.processWebhookDelivery delivery) →
        id = delivery.id ∧ AcceptedAt i url delivery.payload before := by
  refine ⟨fun row hrow => ?_, ?_, ?_⟩
  · have inv := (Reachable.sound (webhook_outline state) (webhooks_initial clock) hreach).inv
    exact told_of_answered hreach (inv row hrow)
  · intro before since i url payload secret sent delivery hlog hrequest
    obtain ⟨mid, hmid, hto, rfl, hguard⟩ := guard_of_call hreach hlog hrequest
    obtain ⟨hpayload, hconfigured⟩ := hguard.2 delivery rfl
    refine ⟨hpayload, hconfigured, fun htaken => ?_⟩
    rw [hpayload]
    exact (told_of_taken hmid htaken).mono hto List.prefix_rfl
  · intro before since i id at' url reply delivery hlog hrequest
    obtain ⟨mid, _, _, rfl, hguard⟩ := guard_of_call hreach hlog hrequest
    exact hguard.2 delivery rfl

end Runs

/-! ## An example -/

section Example

open Deployment Schedule

/-- The payee's delivery is taken. -/
def takesPayee : CallEvent → Bool
  | ⟨_, .payment .takePendingWebhookDeliveries, .ok answer⟩ => answer.contains payeeDelivery
  | _ => false

/-- Its task sends it. -/
def sendsPayee : CallEvent → Bool
  | ⟨i, .env (.sendWebhook _ payload _), _⟩ => i = 4 && payload = payeeDelivery.payload
  | _ => false

theorem webhooks_tell_payments_alice :
    ∃ (cfg : Server) (before since : List CallEvent) (url secret : String)
      (sent : Except WebhookError Unit),
      Reachable semantics always (handler renotifiedSigned.state)
        (World.fresh ⟨1000000, by decide⟩) cfg ∧
      cfg.hist.log =
        before ++ ⟨4, .env (.sendWebhook url payeeDelivery.payload secret), sent⟩ :: since ∧
      TakenIn before payeeDelivery ∧ ConfiguredFor 4 "d.io" url secret before ∧
      ToldBefore renotifiedSigned.state ⟨1000000, by decide⟩ cfg before "d.io"
        payeeDelivery.payload := by
  have hrun : (renotifiedRun always webhookSent).any (fun cfg =>
      (cfg.hist.log.take 25).any takesPayee && (cfg.hist.log[25]?).any sendsPayee) = true := by
    decide +kernel
  obtain ⟨cfg, hreach, hserved, hcfg⟩ := reachable_of_replay hrun
  rw [Bool.and_eq_true, List.any_eq_true] at hcfg
  obtain ⟨⟨taken, htaken, htakes⟩, hsent⟩ := hcfg
  obtain ⟨ev, hev, hsends⟩ := (Option.any_eq_true _ _).mp hsent
  obtain ⟨hlt, rfl⟩ := List.getElem?_eq_some_iff.mp hev
  have hlog : cfg.hist.log = cfg.hist.log.take 25 ++ cfg.hist.log[25] :: cfg.hist.log.drop 26 := by
    rw [List.getElem_cons_drop, List.take_append_drop]
  have hgiven : TakenIn (cfg.hist.log.take 25) payeeDelivery := by
    unfold takesPayee at htakes
    split at htakes
    · exact ⟨_, _, htaken, List.contains_iff_mem.mp htakes⟩
    · cases htakes
  generalize cfg.hist.log[25] = ev at hsends hlog
  unfold sendsPayee at hsends
  split at hsends
  · rename_i i url payload secret sent
    rw [Bool.and_eq_true, decide_eq_true_eq, decide_eq_true_eq] at hsends
    obtain ⟨rfl, rfl⟩ := hsends
    obtain ⟨_, hconfigured, htold⟩ := (webhooks_tell_payments hreach).2.1 _ _ 4 url _ secret sent
      payeeDelivery hlog (hserved 4)
    exact ⟨cfg, _, _, url, secret, sent, hreach, hlog, hgiven, hconfigured, htold hgiven⟩
  · cases hsends

end Example

end BlinkLnurl
