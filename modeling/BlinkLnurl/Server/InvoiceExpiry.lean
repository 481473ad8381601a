import BlinkLnurl.Server.Amounts

/-!
# The stored expiry of an invoice

Two paths insert invoice rows. The callback stores the expiry of the invoice in
seconds, and `handle_invoices_paid` in milliseconds, with the largest 64-bit
integer where these do not fit. Whatever else the server does in between, the
rows of the two carry one expiry only at the two ends of the range
(`invoice_expiries_agree`).
-/

namespace BlinkLnurl

open Conc PaymentStore

/-! ## What the paths compute -/

/-- The expiry of a row is that of its invoice, in seconds. -/
def ExpiryInSeconds (crates : Crates) (row : Invoice) : Prop :=
  ∃ bolt11 millis, crates.bolt11 row.invoice = .ok bolt11 ∧ bolt11.expiresAt = some millis ∧
    millis / 1000 < 2 ^ 63 ∧ row.invoiceExpiry = (millis / 1000 : Nat)

/-- The expiry of a row is that of its invoice, in milliseconds as far as they fit. -/
def ExpiryInMillis (crates : Crates) (row : Invoice) : Prop :=
  ∃ bolt11, crates.bolt11 row.invoice = .ok bolt11 ∧
    row.invoiceExpiry = bolt11.expiresAt.elim 0 fun millis =>
      if millis < 2 ^ 63 then (millis : Int) else 2 ^ 63 - 1

section Expiry

variable {crates : Crates} {row row' : Invoice}

theorem CallbackRow.expiry (h : CallbackRow crates row) : ExpiryInSeconds crates row := by
  obtain ⟨_, _, bolt11, hchecked⟩ := h
  obtain ⟨hbolt11, millis, hmillis, hfits, hexpiry⟩ := checkProviderInvoice_ok hchecked
  exact ⟨bolt11, millis, hbolt11, hmillis, hfits, hexpiry⟩

theorem paidInvoice_expiry {userPubkey : String} {now : Int} {item : PaidInvoice}
    (h : paidInvoice crates userPubkey now item = .ok row) : ExpiryInMillis crates row := by
  unfold paidInvoice at h
  cases hpreimage : preimageHash crates item.preimage with
  | error e =>
      rw [hpreimage] at h
      exact nomatch h
  | ok k =>
      cases hbolt11 : crates.bolt11 item.invoice with
      | error e =>
          simp only [hpreimage, hbolt11] at h
          exact nomatch h
      | ok bolt11 =>
          simp only [hpreimage, hbolt11] at h
          split at h
          · exact nomatch h
          · obtain rfl := Except.ok.inj h
            exact ⟨bolt11, hbolt11, rfl⟩

/-- Seconds and milliseconds come to one value at the epoch, and in the last
second that a 64-bit integer holds. -/
theorem seconds_eq_millis {millis : Nat} (hfits : millis / 1000 < 2 ^ 63) :
    ((if millis < 2 ^ 63 then (millis : Int) else 2 ^ 63 - 1) = (millis / 1000 : Nat)) ↔
      millis = 0 ∨ millis / 1000 = 2 ^ 63 - 1 := by
  by_cases hmillis : millis < 2 ^ 63
  · rw [if_pos hmillis]
    omega
  · -- the milliseconds are capped, and the seconds are at most the cap
    have hle := Nat.le_sub_one_of_lt hfits
    rw [if_neg hmillis]
    omega

theorem expiry_eq_iff (hseconds : ExpiryInSeconds crates row) (hmillis : ExpiryInMillis crates row')
    (hsame : row'.invoice = row.invoice) :
    row'.invoiceExpiry = row.invoiceExpiry ↔
      ∃ bolt11 millis, crates.bolt11 row.invoice = .ok bolt11 ∧ bolt11.expiresAt = some millis ∧
        (millis = 0 ∨ millis / 1000 = 2 ^ 63 - 1) := by
  obtain ⟨bolt11, millis, hbolt11, hexpires, hfits, hrow⟩ := hseconds
  obtain ⟨bolt11', hbolt11', hrow'⟩ := hmillis
  rw [hsame, hbolt11] at hbolt11'
  obtain rfl := Except.ok.inj hbolt11'
  rw [hexpires, Option.elim_some] at hrow'
  rw [hrow, hrow', seconds_eq_millis hfits]
  constructor
  · intro hends
    exact ⟨bolt11, millis, hbolt11, hexpires, hends⟩
  · rintro ⟨other, millis', hother, hexpires', hends⟩
    obtain rfl := Except.ok.inj (hbolt11.symm.trans hother)
    obtain rfl := Option.some.inj (hexpires.symm.trans hexpires')
    exact hends

end Expiry

/-! ## What the paths write -/

/-- The call hands no invoice row to the store but rows in `R`, and expires none. -/
def Call.WritesOnly (R : Invoice → Prop) : Call → Prop
  | .payment (.upsertInvoice invoice) => R invoice
  | .payment (.upsertInvoicesPaid invoices) => ∀ invoice ∈ invoices, R invoice
  | c => c.SparesInvoices

theorem Call.SparesInvoices.writesOnly {R : Invoice → Prop} (c : Call) (h : c.SparesInvoices) :
    c.WritesOnly R := by
  cases c with
  | payment op => cases op <;> first | exact h | exact h.elim
  | account op => exact h
  | env op => exact h

namespace Request

/-- A request for an invoice. -/
def IsCallback : Request → Prop
  | handleInvoice _ _ _ => True
  | handleInvoiceForDomain _ _ _ _ => True
  | _ => False

/-- A report of a batch of payments. -/
def IsBatchReport : Request → Prop
  | invoicesPaid _ _ => True
  | _ => False

end Request

section Handlers

variable {state : State} {q : Request}

theorem calls_callback (hq : q.IsCallback) :
    (handler state q).Calls (Call.WritesOnly (ExpiryInSeconds state.crates)) := by
  have hspares : ∀ c, Call.PreparesInvoice c → c.WritesOnly (ExpiryInSeconds state.crates) :=
    fun c hc => Call.SparesInvoices.writesOnly c (Call.PreparesInvoice.sparesInvoices c hc)
  have hwrite : ∀ row, CallbackRow state.crates row →
      Call.WritesOnly (ExpiryInSeconds state.crates) (.payment (.upsertInvoice row)) :=
    fun _ hrow => hrow.expiry
  cases q with
  | handleInvoice =>
      exact Prog.calls_bind (calls_handleInvoice hspares hwrite) fun _ => Prog.calls_ret _
  | handleInvoiceForDomain =>
      exact Prog.calls_bind (calls_handleInvoiceForDomain hspares hwrite) fun _ => Prog.calls_ret _
  | _ => exact hq.elim

theorem calls_batchReport (hq : q.IsBatchReport) :
    (handler state q).Calls (Call.WritesOnly (ExpiryInMillis state.crates)) := by
  cases q with
  | invoicesPaid pubkey payload =>
      refine Prog.calls_bind ?_ fun _ => Prog.calls_ret _
      simp only [invoicesPaid, Prog.bind_eq]
      refine Prog.calls_bind Prog.calls_require fun _ =>
        Prog.calls_bind Prog.calls_require fun _ => ?_
      refine Prog.calls_bind (calls_validate fun _ => trivial) fun _ => Prog.calls_mapError.mpr ?_
      refine calls_handleInvoicesPaid
        (fun c hc => Call.SparesInvoices.writesOnly c (Call.IsNotice.sparesInvoices c hc))
        (fun _ => trivial) fun now invoices hasked i hi => ?_
      obtain ⟨item, _, hitem⟩ := hasked i hi
      exact paidInvoice_expiry hitem
  | _ => exact hq.elim

end Handlers

/-! ## The rows -/

/-- A step of a run in which a request in `Q` makes the call `ev`. -/
structure TakenBy (state : State) (Q : Request → Prop) (ev : CallEvent) (cfg cfg' : Server) :
    Prop where
  took : ∃ clock, Took semantics always (handler state) (World.fresh clock) cfg' ev cfg cfg'
  request : ∃ q, cfg.request ev.thread = some q ∧ Q q

/-- In some run the callback has written the invoice row `row`. -/
def CallbackStores (state : State) (row : Invoice) : Prop :=
  ∃ ev cfg cfg', TakenBy state Request.IsCallback ev cfg cfg' ∧
    (wholeRow ev).map Invoice.paymentHash = some row.paymentHash ∧
    cfg'.hist.state.payments.invoiceOf row.paymentHash = some row

/-- In some run a batch has inserted the invoice row `row`. -/
def BatchInserts (state : State) (row : Invoice) : Prop :=
  ∃ ev cfg cfg', TakenBy state Request.IsBatchReport ev cfg cfg' ∧
    cfg.hist.state.payments.invoiceOf row.paymentHash = none ∧
    cfg'.hist.state.payments.invoiceOf row.paymentHash = some row

section Rows

variable {state : State} {Q : Request → Prop} {R : Invoice → Prop} {ev : CallEvent}
  {cfg cfg' : Server}
  {row row' : Invoice} {k : String} {c : Call} {r : Reply c}

theorem TakenBy.call (h : TakenBy state Q ev cfg cfg') {P : Call → Prop}
    (hcalls : ∀ q, Q q → (handler state q).Calls P) :
    P ev.call ∧ ∃ ch, exec ev.call ch cfg.hist.state = some (ev.reply, cfg'.hist.state) := by
  obtain ⟨clock, took⟩ := h.took
  obtain ⟨q, hrequest, hq⟩ := h.request
  obtain ⟨q', next, ch, hth, hexec, _⟩ := took.call
  obtain rfl := Option.some.inj ((Config.request_of_thread hth).symm.trans hrequest)
  exact ⟨(Prog.calls_call.mp (took.before.calls hcalls _ q' _ hth hq)).1, ch, hexec⟩

/-- A row that is inserted is one of those handed to the store, as far as the
invoice and its expiry go. -/
theorem inserted_of_change (hR : ∀ i j : Invoice, j.invoice = i.invoice →
      j.invoiceExpiry = i.invoiceExpiry → R i → R j)
    (hc : c.WritesOnly R) (h : InvoiceChange k none c r (some row)) : R row := by
  generalize hold : (none : Option Invoice) = old at h
  generalize hnew : some row = new at h
  cases h with
  | keeps => exact nomatch hnew.trans hold.symm
  | @upserts invoice =>
      subst hold
      obtain rfl : row = invoice := Option.some.inj hnew
      exact hc
  | @settles invoices affected _ hpaid =>
      subst hold
      refine hpaid.preserves (fun x => ∀ i, x = some i → R i) ?_ ?_
        (fun i hi => nomatch hi) row hnew.symm
      · intro entry hentry _ _ i hi
        obtain rfl := Option.some.inj hi
        exact hR entry _ rfl rfl (hc entry hentry)
      · intro entry _ _ old hold _ i hi
        obtain rfl := Option.some.inj hi
        exact hR old _ rfl rfl (hold old rfl)
  | expires hrow => exact nomatch hold.trans hrow

theorem CallbackStores.expiry (h : CallbackStores state row) :
    ExpiryInSeconds state.crates row := by
  obtain ⟨⟨i, c, r⟩, cfg, cfg', htaken, hwhole, hstored⟩ := h
  obtain ⟨hc, ch, hexec⟩ := htaken.call fun _ => calls_callback
  obtain ⟨invoice, hwhole, hhash⟩ := Option.map_eq_some_iff.mp hwhole
  have hc : ExpiryInSeconds state.crates invoice := by
    obtain rfl := call_of_wholeRow hwhole
    exact hc
  have hrow := invoiceOf_wholeRow hwhole hexec row.paymentHash
  rw [if_pos hhash.symm, hstored] at hrow
  -- inserted or written over, the row has the expiry of the new one
  cases hold : cfg.hist.state.payments.invoiceOf row.paymentHash with
  | none =>
      rw [hold] at hrow
      obtain rfl : row = invoice := Option.some.inj hrow
      exact hc
  | some old =>
      rw [hold] at hrow
      obtain rfl : row = overwriteInvoice invoice old := Option.some.inj hrow
      exact hc

theorem BatchInserts.expiry (h : BatchInserts state row) : ExpiryInMillis state.crates row := by
  obtain ⟨⟨i, c, r⟩, cfg, cfg', htaken, hnone, hstored⟩ := h
  obtain ⟨hc, ch, hexec⟩ := htaken.call fun _ => calls_batchReport
  have hchange := exec_invoice hexec row.paymentHash
  rw [hnone, hstored] at hchange
  refine inserted_of_change ?_ hc hchange
  rintro i j hinvoice hexpiry ⟨bolt11, hbolt11, hrow⟩
  exact ⟨bolt11, by rw [hinvoice, hbolt11], by rw [hexpiry, hrow]⟩

/-- The row of an invoice that the callback writes and the one that a batch inserts
have the same expiry exactly if the invoice expires at the epoch or in the last
second that fits. -/
theorem invoice_expiries_agree (hcallback : CallbackStores state row)
    (hbatch : BatchInserts state row') (hsame : row'.invoice = row.invoice) :
    row'.invoiceExpiry = row.invoiceExpiry ↔
      ∃ bolt11 millis, state.crates.bolt11 row.invoice = .ok bolt11 ∧
        bolt11.expiresAt = some millis ∧ (millis = 0 ∨ millis / 1000 = 2 ^ 63 - 1) :=
  expiry_eq_iff hcallback.expiry hbatch.expiry hsame

end Rows

/-! ## Examples

The callback for an invoice stores a comment, and then the invoice row or not. If
not, the payee's report of the payment inserts the row. -/

section Example

open Schedule RustStr

/-- That write has failed, and the report is about to insert the row. -/
def batchPending : Schedule :=
  rowPending ++ calls 1 1 { invoiceAnswer with fails := true } ++ serve reportsBatch ++ calls 2 3

abbrev expiringRun (millis : Nat) (ms : Schedule) : Option Server :=
  replay semantics always (handler (expiringServer millis)) ms
    (.initial (World.fresh ⟨1000000, startMillis_fits⟩))

/-- The row of the payment is there, with this expiry. -/
def hasExpiry (expiry : Int) (cfg : Server) : Bool :=
  (cfg.hist.state.payments.invoiceOf "aa").any fun row =>
    row.invoice = "lnbc1" && row.invoiceExpiry = expiry

theorem row_of_hasExpiry {expiry : Int} {cfg : Server} (h : hasExpiry expiry cfg = true) :
    ∃ row, cfg.hist.state.payments.invoiceOf row.paymentHash = some row ∧
      row.paymentHash = "aa" ∧ row.invoice = "lnbc1" ∧ row.invoiceExpiry = expiry := by
  obtain ⟨row, hrow, h⟩ := (Option.any_eq_true _ _).mp h
  have hhash : row.paymentHash = "aa" := paymentHash_of_get hrow
  rw [Bool.and_eq_true, decide_eq_true_eq, decide_eq_true_eq] at h
  refine ⟨row, ?_, hhash, h⟩
  rw [hhash]
  exact hrow

theorem stored_by_callback (millis : Nat) (expiry : Int)
    (hrun : (expiringRun millis (rowPending ++ [.call 1 invoiceAnswer.choice])).any (fun cfg =>
      (cfg.hist.log.getLast?.bind wholeRow).map Invoice.paymentHash = some "aa" &&
        hasExpiry expiry cfg) = true) :
    ∃ row, CallbackStores (expiringServer millis) row ∧ row.invoice = "lnbc1" ∧
      row.invoiceExpiry = expiry := by
  have hpending : (expiringRun millis rowPending).any (fun _ => true) = true := by
    obtain ⟨_, hcfg, _⟩ := (Option.any_eq_true _ _).mp hrun
    rw [expiringRun, replay_append] at hcfg
    obtain ⟨cfg, hcfg, _⟩ := Option.bind_eq_some_iff.mp hcfg
    rw [expiringRun, hcfg, Option.any_some]
  obtain ⟨cfg, cfg', ev, took, hthread, hserved, _, hcfg'⟩ := took_of_replay hpending hrun
  rw [Bool.and_eq_true, decide_eq_true_eq] at hcfg'
  obtain ⟨hwhole, hexpiry⟩ := hcfg'
  obtain ⟨row, hrow, hhash, hinvoice, hexpiry⟩ := row_of_hasExpiry hexpiry
  refine ⟨row, ⟨ev, cfg, cfg', ⟨⟨_, took⟩, asksWithComment, ?_, trivial⟩, ?_, hrow⟩, hinvoice,
    hexpiry⟩
  · rw [hthread]
    exact hserved 1
  · rw [took.log, List.getLast?_concat] at hwhole
    rw [hhash]
    exact hwhole

theorem inserted_by_batch (millis : Nat) (expiry : Int)
    (hpending : (expiringRun millis batchPending).any (fun cfg =>
      (cfg.hist.state.payments.invoiceOf "aa").isNone) = true)
    (hrun : (expiringRun millis (batchPending ++ [.call 2 (Answers.choice {})])).any
      (hasExpiry expiry) = true) :
    ∃ row, BatchInserts (expiringServer millis) row ∧ row.invoice = "lnbc1" ∧
      row.invoiceExpiry = expiry := by
  obtain ⟨cfg, cfg', ev, took, hthread, hserved, hnone, hexpiry⟩ := took_of_replay hpending hrun
  obtain ⟨row, hrow, hhash, hinvoice, hexpiry⟩ := row_of_hasExpiry hexpiry
  refine ⟨row, ⟨ev, cfg, cfg', ⟨⟨_, took⟩, reportsBatch, ?_, trivial⟩, ?_, hrow⟩, hinvoice, hexpiry⟩
  · rw [hthread]
    exact hserved 2
  · rw [hhash]
    exact Option.isNone_iff_eq_none.mp hnone

/-- An invoice that has expired at the epoch. -/
theorem invoice_expiries_agree_at_epoch :
    ∃ row row', CallbackStores (expiringServer 0) row ∧ BatchInserts (expiringServer 0) row' ∧
      row'.invoice = row.invoice ∧ row'.invoiceExpiry = row.invoiceExpiry := by
  obtain ⟨row, hcallback, hinvoice, _⟩ := stored_by_callback 0 0 (by decide +kernel)
  obtain ⟨row', hbatch, hinvoice', _⟩ :=
    inserted_by_batch 0 0 (by decide +kernel) (by decide +kernel)
  have hbolt11 : (expiringServer 0).crates.bolt11 "lnbc1" =
      .ok ⟨"aa", some "dd", some 10000, some 0⟩ := by decide +kernel
  have hsame := hinvoice'.trans hinvoice.symm
  rw [← hinvoice] at hbolt11
  exact ⟨row, row', hcallback, hbatch, hsame,
    (invoice_expiries_agree hcallback hbatch hsame).mpr ⟨_, 0, hbolt11, rfl, Or.inl rfl⟩⟩

/-- Any later, for example 2000 seconds after it: the callback stores seconds, the
batch milliseconds. -/
theorem invoice_expiries_differ :
    ∃ row row', CallbackStores (expiringServer 2000000) row ∧
      BatchInserts (expiringServer 2000000) row' ∧ row'.invoice = row.invoice ∧
      row.invoiceExpiry = 2000 ∧ row'.invoiceExpiry = 2000000 ∧
      row'.invoiceExpiry ≠ row.invoiceExpiry := by
  obtain ⟨row, hcallback, hinvoice, hexpiry⟩ := stored_by_callback 2000000 2000 (by decide +kernel)
  obtain ⟨row', hbatch, hinvoice', hexpiry'⟩ :=
    inserted_by_batch 2000000 2000000 (by decide +kernel) (by decide +kernel)
  refine ⟨row, row', hcallback, hbatch, hinvoice'.trans hinvoice.symm, hexpiry, hexpiry', ?_⟩
  rw [hexpiry, hexpiry']
  decide

end Example

end BlinkLnurl
