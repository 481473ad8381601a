import BlinkLnurl.Lib.RunOn
import BlinkLnurl.Server.Amounts

/-!
# Settlement alone and in a batch

`handle_invoice_paid` reads the row of an invoice and writes it back as a whole;
`handle_invoices_paid` updates some of its columns under a guard. Both are run
here as functions of the stores (`runOn`), with every call answered and no time
passing. They come to the same stores because an unpaid invoice has no amount
yet (`settlements_agree`).
-/

namespace BlinkLnurl

open Conc Rel

/-! ## Answered calls -/

/-- The store and the clock answer, where no order of rows is left open. -/
def answer : (c : Call) → World → Option (Reply c × World)
  | .payment (.takePendingZapReceipts _), _ => none
  | .payment op, w => some (execPayment op ⟨false, .stored⟩ w)
  | .env .nowMillis, w => some (w.clock.millis, w)
  | _, _ => none

/-- No payment operation fails. -/
def answered (_ : History) : CallEvent → Prop
  | ⟨_, .payment _, .error _⟩ => False
  | _ => True

/-- Only a claim of queued receipts leaves an order open. -/
theorem PaymentOp.run_order {op : PaymentOp} {out : Reply (.payment op) × World} {w : World}
    (h : answer (.payment op) w = some out) (order : PaymentStore.RowOrder) :
    out = execPayment op ⟨false, order⟩ w := by
  cases op with
  | takePendingZapReceipts => exact nomatch h
  | _ => exact (Option.some.inj h).symm

theorem Clock.advance_le {c c' : Clock} {n : Nat} (h : c.advance n = some c') :
    c.millis ≤ c'.millis ∧ (c'.millis = c.millis → c' = c) := by
  unfold Clock.advance at h
  split at h
  · obtain rfl := Option.some.inj h
    refine ⟨Nat.le_add_right _ _, fun hsame => ?_⟩
    cases c
    exact (Clock.mk.injEq ..).mpr hsame
  · cases h

theorem answering :
    Answering semantics answered answer fun w => w.clock.millis where
  only := by
    intro i c ch r out s' h hanswer hexec hok
    cases c with
    | account op => exact nomatch hanswer
    | payment op =>
        obtain ⟨fails, order⟩ := ch
        have hexec : some (execPayment op ⟨fails, order⟩ h.state) = some (r, s') := hexec
        rw [← Option.some.inj hexec]
        cases fails with
        | false => exact PaymentOp.run_order hanswer order
        | true =>
            obtain ⟨hr, _⟩ := Prod.mk.inj (Option.some.inj hexec)
            rw [← hr] at hok
            exact hok.elim
    | env op =>
        cases op with
        | nowMillis =>
            obtain rfl := Option.some.inj hanswer
            exact Option.some.inj hexec
        | _ => exact nomatch hanswer
  exists_call := by
    intro i c r s' h hanswer
    cases c with
    | account op => exact nomatch hanswer
    | payment op =>
        have hrun := PaymentOp.run_order hanswer .stored
        refine ⟨⟨false, .stored⟩, congrArg some hrun.symm, ?_⟩
        obtain ⟨hr, _⟩ := Prod.mk.inj hrun
        rw [hr]
        trivial
    | env op =>
        cases op with
        | nowMillis => exact ⟨(), hanswer, trivial⟩
        | _ => exact nomatch hanswer
  call := by
    intro i c ch s r s' hexec
    have hclock := exec_clock (c := c) hexec
    rw [hclock]
  tick := by
    intro t s s' htick
    obtain ⟨clock, hclock, rfl⟩ := Option.map_eq_some_iff.mp htick
    obtain ⟨hle, hsame⟩ := Clock.advance_le hclock
    refine ⟨hle, fun htime => ?_⟩
    rw [hsame htime]

/-- With every call answered and no time passing, `p` ends without an error and
leaves the stores of `w`. -/
def Leaves {ε : Type} (p : Prog Call Reply ε Unit) (h : History) (w : World) : Prop :=
  (∃ i h', Runs semantics answered i p h (.ok ()) h' ∧ h'.state = w) ∧
  ∀ i r h', Runs semantics answered i p h r h' →
    h'.state.clock.millis = h.state.clock.millis → r = .ok () ∧ h'.state = w

theorem leaves_of_runOn {ε : Type} {p : Prog Call Reply ε Unit} {h : History} {w : World}
    (hp : p.runOn answer h.state = some (.ok (), w)) : Leaves p h w := by
  constructor
  · obtain ⟨h', hruns, hstate⟩ := runs_of_runOn answering 0 hp
    exact ⟨0, h', hruns, hstate⟩
  · intro i r h' hruns htime
    exact hruns.eq_runOn answering htime hp

/-! ## The pieces -/

namespace World

/-- The stores after `notify_webhooks`. -/
def notified (w : World) (paymentHashes : List String) : World :=
  { w with
    payments := w.payments.insertWebhookDeliveries w.clock.millis
      ((w.payments.getWebhookPayloads w.accounts.accountIdentifiers paymentHashes).map
        (paymentReceived w.clock.millis)) }

/-- The stores after an invoice was found to be paid. -/
def settled (w : World) (preimage : String) (row : Invoice) : World :=
  if row.preimage.isNone then
    { w with
      payments := (w.payments.upsertInvoice
          { row with
            preimage := some preimage
            amountReceivedSat := none
            updatedAt := w.clock.millis }).insertPendingZapReceipt
        { paymentHash := row.paymentHash
          createdAt := w.clock.millis
          retryCount := 0
          nextRetryAt := w.clock.millis } }
  else w

end World

section Pieces

variable {w w' : World} {ε α β : Type} {k preimage : String}

theorem runOn_getWebhookPayloads (hashes : List String) (w : World) :
    (Store.payment (.getWebhookPayloads hashes)).runOn answer w =
      some (.ok (w.payments.getWebhookPayloads w.accounts.accountIdentifiers hashes), w) := rfl

theorem runOn_getInvoice (k : String) (w : World) :
    (Store.payment (.getInvoiceByPaymentHash k)).runOn answer w =
      some (.ok (w.payments.invoiceOf k), w) := rfl

theorem runOn_filterKnown (hashes : List String) (w : World) :
    (Store.payment (.filterKnownPaymentHashes hashes)).runOn answer w =
      some (.ok (w.payments.filterKnownPaymentHashes hashes), w) := rfl

theorem runOn_nowMillis (w : World) :
    (nowMillis : Prog Call Reply ε Int).runOn answer w = some (.ok w.clock.millis, w) := rfl

theorem runOn_notifyWebhooks (hashes : List String) (w : World) :
    (notifyWebhooks hashes).runOn answer w = some (.ok (), w.notified hashes) := by
  simp only [notifyWebhooks, Prog.bind_eq, Prog.pure_eq]
  rw [Prog.runOn_bind (runOn_getWebhookPayloads hashes w)]
  show Prog.runOn answer (if w.payments.getWebhookPayloads w.accounts.accountIdentifiers hashes = []
    then _ else _) w = _
  by_cases hnil : w.payments.getWebhookPayloads w.accounts.accountIdentifiers hashes = []
  · rw [if_pos hnil, Prog.runOn_ret, World.notified, hnil]
    rfl
  · rw [if_neg hnil, Prog.runOn_bind (runOn_nowMillis w)]
    rfl

theorem runOn_storePreimage {row : Invoice} (hk : row.paymentHash = k) (w : World) :
    (storePreimage k row preimage none w.clock.millis).runOn answer w =
      some (.ok (), w.settled preimage row) := by
  unfold storePreimage World.settled
  by_cases hunpaid : row.preimage.isNone = true
  · rw [if_pos hunpaid, if_pos hunpaid, hk]
    rfl
  · rw [if_neg hunpaid, if_neg hunpaid]
    rfl

theorem runOn_handleInvoicePaid {crates : Crates} {row : Invoice}
    (hrow : w.payments.invoiceOf k = some row) (hpreimage : preimageHash crates preimage = .ok k) :
    (handleInvoicePaid crates k preimage none).runOn answer w =
      some (.ok (), (w.settled preimage row).notified [k]) := by
  have hverify : verifyPreimage crates k preimage = .ok () := by
    unfold verifyPreimage
    rw [hpreimage]
    exact if_neg (not_not.mpr rfl)
  have hget : ((Store.payment (.getInvoiceByPaymentHash k)).mapError
      HandleInvoicePaidError.repository).runOn answer w = some (.ok (some row), w) := by
    rw [Prog.runOn_mapError (runOn_getInvoice k w), hrow]
    rfl
  simp only [handleInvoicePaid, Prog.bind_eq, Prog.pure_eq]
  rw [hverify, Prog.ofExcept, Prog.ret_bind, Prog.runOn_bind (runOn_nowMillis w),
    Prog.runOn_bind hget]
  rw [Prog.runOn_bind (Prog.runOn_mapError
      (runOn_storePreimage (PaymentStore.paymentHash_of_get hrow) w)),
    Prog.runOn_bind (Prog.runOn_attempt (runOn_notifyWebhooks [k] _))]
  rfl

theorem exists_paidInvoice {crates : Crates} {invoice : String} {bolt11 : Bolt11Invoice}
    (hpreimage : preimageHash crates preimage = .ok k)
    (hbolt11 : crates.bolt11 invoice = .ok bolt11) (hhash : bolt11.paymentHash = k)
    (userPubkey : String) (now : Int) :
    ∃ i, paidInvoice crates userPubkey now ⟨preimage, invoice⟩ = .ok i := by
  unfold paidInvoice
  simp only [hpreimage, hbolt11]
  rw [if_neg (not_not.mpr hhash)]
  exact ⟨_, rfl⟩

/-- The update of a batch is the rewrite of a single settlement, for an unpaid row
without an amount. -/
theorem settleInvoice_eq_overwriteInvoice {row i : Invoice} {now : Int}
    (hi : PaidRow row.paymentHash row.userPubkey preimage now i)
    (hamount : row.amountReceivedSat = none) :
    PaymentStore.settleInvoice i row = PaymentStore.overwriteInvoice
      { row with preimage := some preimage, amountReceivedSat := none, updatedAt := now } row := by
  unfold PaymentStore.settleInvoice PaymentStore.overwriteInvoice PaymentStore.expiredAtAfter
  rw [hi.preimage, hi.updatedAt, hi.accountId, hi.provider, hi.walletKind, hi.walletId,
    hi.providerPaymentHash, hamount]
  simp

theorem upsertInvoicesPaid_one {s : PaymentStore} {row i : Invoice} {now : Int}
    (hrow : s.invoiceOf k = some row) (hi : PaidRow k row.userPubkey preimage now i)
    (hamount : row.preimage = none → row.amountReceivedSat = none) :
    s.upsertInvoicesPaid [i] =
      if row.preimage.isNone then
        ([k], s.upsertInvoice
          { row with preimage := some preimage, amountReceivedSat := none, updatedAt := now })
      else ([], s) := by
  have hk := PaymentStore.paymentHash_of_get hrow
  have hget : s.invoices.get i.paymentHash = some row := by
    rw [hi.paymentHash]
    exact hrow
  unfold PaymentStore.upsertInvoicesPaid PaymentStore.upsertInvoicesPaidRows
    PaymentStore.upsertInvoicesPaidRows PaymentStore.upsertInvoicePaid
  rw [hget]
  have hmay : PaymentStore.mayBeSettledBy i row = row.preimage.isNone := by
    unfold PaymentStore.mayBeSettledBy
    rw [hi.userPubkey, decide_eq_true rfl, Bool.true_and]
  simp only [hmay]
  by_cases hunpaid : row.preimage.isNone = true
  · have hnone := Option.isNone_iff_eq_none.mp hunpaid
    have hsame := settleInvoice_eq_overwriteInvoice (hk.symm ▸ hi) (hamount hnone)
    rw [if_pos hunpaid, if_pos hunpaid]
    simp only [if_true, hi.paymentHash]
    have hkey : s.invoices.get row.paymentHash = some row := by
      rw [hk]
      exact hrow
    exact congrArg (fun t => ([k], ({ s with invoices := t } : PaymentStore)))
      (Table.upsert_congr hkey hk.symm hsame)
  · rw [if_neg hunpaid, if_neg hunpaid]
    rfl

theorem runOn_settleBatch {row i : Invoice} (hrow : w.payments.invoiceOf k = some row)
    (hi : PaidRow k row.userPubkey preimage w.clock.millis i)
    (hamount : row.preimage = none → row.amountReceivedSat = none) :
    (settleBatch [i]).runOn answer w = some (.ok (), w.settled preimage row) := by
  have hk := PaymentStore.paymentHash_of_get hrow
  have hwrite : (Store.payment (.upsertInvoicesPaid [i])).runOn answer w =
      some (.ok (w.payments.upsertInvoicesPaid [i]).1,
        { w with payments := (w.payments.upsertInvoicesPaid [i]).2 }) := rfl
  simp only [settleBatch, Prog.bind_eq, Prog.pure_eq]
  rw [Prog.runOn_bind hwrite, upsertInvoicesPaid_one hrow hi hamount]
  unfold World.settled
  by_cases hunpaid : row.preimage.isNone = true
  · rw [if_pos hunpaid, if_pos hunpaid, hk]
    rfl
  · rw [if_neg hunpaid, if_neg hunpaid]
    rfl

theorem runOn_handleInvoicesPaid {crates : Crates} {row : Invoice} {invoice : String}
    {bolt11 : Bolt11Invoice} (hrow : w.payments.invoiceOf k = some row)
    (hpreimage : preimageHash crates preimage = .ok k)
    (hbolt11 : crates.bolt11 invoice = .ok bolt11) (hhash : bolt11.paymentHash = k)
    (hamount : row.preimage = none → row.amountReceivedSat = none) :
    (handleInvoicesPaid crates [⟨preimage, invoice⟩] row.userPubkey).runOn answer w =
      some (.ok (), (w.settled preimage row).notified [k]) := by
  obtain ⟨i, hi⟩ := exists_paidInvoice hpreimage hbolt11 hhash row.userPubkey w.clock.millis
  obtain ⟨k', hk', hpaid⟩ := paidInvoice_ok hi
  obtain rfl := Except.ok.inj (hpreimage.symm.trans hk')
  have hinvoices : paidInvoices crates row.userPubkey w.clock.millis [⟨preimage, invoice⟩] =
      .ok [i] := by
    unfold paidInvoices paidInvoices
    rw [hi]
    rfl
  have hknown : ((Store.payment (.filterKnownPaymentHashes ([i].map Invoice.paymentHash))).mapError
      HandleInvoicePaidError.repository).runOn answer w = some (.ok [k], w) := by
    rw [Prog.runOn_mapError (runOn_filterKnown _ w)]
    show some (Except.ok ([i.paymentHash].filter fun h => w.payments.isKnown h).dedup, w) = _
    have hstored : w.payments.isKnown k = true := by
      unfold PaymentStore.isKnown
      rw [show w.payments.invoices.get k = some row from hrow]
      rfl
    rw [hpaid.paymentHash, List.filter_cons, if_pos hstored, List.filter_nil,
      List.dedup_eq_self.mpr (List.nodup_singleton k)]
  simp only [handleInvoicesPaid, Prog.bind_eq, Prog.pure_eq]
  rw [Prog.runOn_bind (runOn_nowMillis w), hinvoices, Prog.ofExcept, Prog.ret_bind,
    Prog.runOn_bind hknown]
  have hfilter : [i].filter (fun i => [k].contains i.paymentHash) = [i] := by
    rw [List.filter_cons_of_pos (by simp [hpaid.paymentHash]), List.filter_nil]
  simp only [hfilter]
  rw [if_neg (List.cons_ne_nil _ _),
    Prog.runOn_bind (Prog.runOn_mapError (runOn_settleBatch hrow hpaid hamount)),
    Prog.runOn_bind (Prog.runOn_attempt (runOn_notifyWebhooks _ _))]
  rw [List.map_singleton, hpaid.paymentHash]
  rfl

end Pieces

/-! ## Rows of other pubkeys -/

/-- In every state, the call leaves the invoices of everybody but `userPubkey`
alone. -/
def Call.SparesOthers (userPubkey : String) (c : Call) : Prop :=
  ∀ ch w r w', exec c ch w = some (r, w') → ∀ k row, w.payments.invoiceOf k = some row →
    row.userPubkey ≠ userPubkey → w'.payments.invoiceOf k = some row

section Others

variable {userPubkey k : String} {row : Invoice} {invoices : List Invoice} {t : Table Invoice}

theorem get_upsertInvoicePaid_of_other {invoice : Invoice} (hget : t.get k = some row)
    (hother : row.userPubkey ≠ invoice.userPubkey) :
    (PaymentStore.upsertInvoicePaid invoice t).2.get k = some row := by
  unfold PaymentStore.upsertInvoicePaid
  by_cases hk : k = invoice.paymentHash
  · subst hk
    have hmay : PaymentStore.mayBeSettledBy invoice row = false := by
      unfold PaymentStore.mayBeSettledBy
      rw [decide_eq_false hother, Bool.false_and]
    rw [hget]
    simp only [hmay]
    exact hget
  · have hwritten : (t.upsert ({ invoice with domain := none, amountReceivedSat := none } : Invoice)
        (PaymentStore.settleInvoice invoice) fun _ => rfl).get k = some row :=
      (Table.get_upsert_ne hk).trans hget
    cases hold : t.get invoice.paymentHash with
    | none => exact hwritten
    | some old =>
        by_cases hmay : PaymentStore.mayBeSettledBy invoice old = true
        · simp only [hmay]
          exact hwritten
        · simp only [hmay]
          exact hget

theorem get_upsertInvoicesPaidRows_of_other (hget : t.get k = some row)
    (hothers : ∀ i ∈ invoices, row.userPubkey ≠ i.userPubkey) :
    (PaymentStore.upsertInvoicesPaidRows invoices t).2.get k = some row := by
  induction invoices generalizing t with
  | nil => exact hget
  | cons invoice rest ih =>
      exact ih (get_upsertInvoicePaid_of_other hget (hothers invoice List.mem_cons_self))
        fun i hi => hothers i (List.mem_cons_of_mem _ hi)

theorem sparesOthers_of_sparesInvoices (c : Call) (h : c.SparesInvoices) :
    c.SparesOthers userPubkey := by
  intro ch w r w' hexec k row hrow _
  rw [invoiceOf_of_sparesInvoices h hexec]
  exact hrow

theorem sparesOthers_upsertInvoicesPaid (hown : ∀ i ∈ invoices, i.userPubkey = userPubkey) :
    Call.SparesOthers userPubkey (.payment (.upsertInvoicesPaid invoices)) := by
  intro ch w r w' hexec k row hrow hother
  rcases execPayment_cases (exec_payment hexec) with ⟨rfl, _⟩ | ⟨out, hout, _, rfl⟩
  · exact hrow
  · subst hout
    refine get_upsertInvoicesPaidRows_of_other hrow fun i hi => ?_
    rw [hown i hi]
    exact hother

theorem handleInvoicesPaid_sparesOthers (crates : Crates) (items : List PaidInvoice)
    (userPubkey : String) :
    (handleInvoicesPaid crates items userPubkey).Calls (Call.SparesOthers userPubkey) := by
  refine calls_handleInvoicesPaid
    (fun c hc => sparesOthers_of_sparesInvoices c (Call.IsNotice.sparesInvoices c hc))
    (fun _ => sparesOthers_of_sparesInvoices _ trivial) fun now invoices hasked => ?_
  -- the rows of a batch are all for the pubkey that reports it
  refine sparesOthers_upsertInvoicesPaid fun i hi => ?_
  obtain ⟨item, _, hitem⟩ := hasked i hi
  obtain ⟨_, _, hpaid⟩ := paidInvoice_ok hitem
  exact hpaid.userPubkey

end Others

/-! ## The same stores -/

section Agree

variable {state : State} {clock : Clock} {cfg : Server} {k preimage invoice : String}
  {row : Invoice} {bolt11 : Bolt11Invoice}

/-- From any reachable state and for any stored invoice: its settlement without an
amount and a batch of its owner with that one payment leave the same stores. A
batch leaves the invoices of other pubkeys alone. -/
theorem settlements_agree
    (hreach : Reachable semantics always (handler state) (World.fresh clock) cfg)
    (hrow : cfg.hist.state.payments.invoiceOf k = some row)
    (hpreimage : preimageHash state.crates preimage = .ok k)
    (hbolt11 : state.crates.bolt11 invoice = .ok bolt11) (hhash : bolt11.paymentHash = k) :
    (∃ w, Leaves (handleInvoicePaid state.crates k preimage none) cfg.hist w ∧
      Leaves (handleInvoicesPaid state.crates [⟨preimage, invoice⟩] row.userPubkey) cfg.hist w) ∧
    ∀ items userPubkey,
      (handleInvoicesPaid state.crates items userPubkey).Calls (Call.SparesOthers userPubkey) := by
  have told := (Reachable.sound (amount_outline state) (amounts_initial clock) hreach).inv
  have hamount := told.unpaid k row hrow
  refine ⟨⟨(cfg.hist.state.settled preimage row).notified [k], ?_, ?_⟩, fun items userPubkey =>
    handleInvoicesPaid_sparesOthers state.crates items userPubkey⟩
  · exact leaves_of_runOn (runOn_handleInvoicePaid hrow hpreimage)
  · exact leaves_of_runOn (runOn_handleInvoicesPaid hrow hpreimage hbolt11 hhash hamount)

open Schedule in
/-- The invoice of `alice`, unpaid: both settle it. -/
theorem settlements_agree_for_alice :
    ∃ (cfg : Server) (row : Invoice) (w : World),
      cfg.hist.state.payments.invoiceOf "aa" = some row ∧ row.preimage = none ∧
      row.userPubkey = ownerKey.hex ∧
      Leaves (handleInvoicePaid payeeServer.crates "aa" "00" none) cfg.hist w ∧
      Leaves (handleInvoicesPaid payeeServer.crates [⟨"00", "lnbc1"⟩] ownerKey.hex) cfg.hist w := by
  have hrun : (payeeRun always invoiced).any (fun cfg =>
      (cfg.hist.state.payments.invoiceOf "aa").any fun row =>
        row.preimage = none && row.userPubkey = ownerKey.hex) = true := by decide +kernel
  obtain ⟨cfg, hreach, _, hcfg⟩ := reachable_of_replay hrun
  obtain ⟨row, hrow, hcfg⟩ := (Option.any_eq_true _ _).mp hcfg
  rw [Bool.and_eq_true, decide_eq_true_eq, decide_eq_true_eq] at hcfg
  obtain ⟨hunpaid, hown⟩ := hcfg
  have hpreimage : preimageHash payeeServer.crates "00" = .ok "aa" := by decide +kernel
  have hbolt11 : payeeServer.crates.bolt11 "lnbc1" =
      .ok ⟨"aa", some "dd", some 10000, some 2000000⟩ := by decide +kernel
  obtain ⟨⟨w, hsingle, hbatch⟩, _⟩ := settlements_agree hreach hrow hpreimage hbolt11 rfl
  rw [hown] at hbatch
  exact ⟨cfg, row, w, hrow, hunpaid, hown, hsingle, hbatch⟩

end Agree

end BlinkLnurl
