import BlinkLnurl.Lib.LastWrite
import BlinkLnurl.Server.Deployment
import BlinkLnurl.Server.Effects
import BlinkLnurl.Server.PaymentWriters

/-!
# Received amounts

A settlement reads the row of an invoice in one call and writes it back as a
whole, with the amount of its own notification, in a later one. The amount of a
row is therefore the one written last (`AmountsTold`), and a settlement that
was overtaken between the two calls replaces the amount of the other
(`amounts_kept`).
-/

namespace BlinkLnurl

open Conc Rel PaymentStore

/-! ## What the log says about amounts -/

/-- The invoice row that a call has written as a whole. -/
def wholeRow : CallEvent → Option Invoice
  | ⟨_, .payment (.upsertInvoice invoice), .ok _⟩ => some invoice
  | _ => none

def writeAmount (k : String) (amount : Option Int) (ev : CallEvent) : Option Int :=
  match wholeRow ev with
  | some invoice => if invoice.paymentHash = k then invoice.amountReceivedSat else amount
  | none => amount

/-- The amount last written for a payment hash. -/
def lastAmount (k : String) (log : List CallEvent) : Option Int := log.foldl (writeAmount k) none

section Log

variable {k : String} {log before since : List CallEvent} {ev : CallEvent} {invoice : Invoice}

theorem writeAmount_of_none {amount : Option Int} (h : wholeRow ev = none) :
    writeAmount k amount ev = amount := by
  unfold writeAmount
  rw [h]

theorem writeAmount_of_wholeRow {amount : Option Int} (h : wholeRow ev = some invoice) :
    writeAmount k amount ev =
      if invoice.paymentHash = k then invoice.amountReceivedSat else amount := by
  unfold writeAmount
  rw [h]

theorem lastAmount_concat :
    lastAmount k (log ++ [ev]) = writeAmount k (lastAmount k log) ev := List.foldl_concat ..

/-- What was written before there was an amount does not matter. -/
theorem lastAmount_append (h : lastAmount k before = none) :
    lastAmount k (before ++ since) = lastAmount k since := by
  unfold lastAmount at h ⊢
  rw [List.foldl_append, h]

theorem call_of_wholeRow {i : Nat} {c : Call} {r : Reply c}
    (h : wholeRow ⟨i, c, r⟩ = some invoice) :
    c = .payment (.upsertInvoice invoice) := by
  unfold wholeRow at h
  split at h
  · rename_i hev
    obtain ⟨_, hcall⟩ := Event.mk.inj hev
    rw [hcall.1, Option.some.inj h]
  · exact nomatch h

end Log

/-- The amount of a settled invoice. -/
def World.settledAmount (w : World) (k : String) : Option Int :=
  (w.payments.invoiceOf k).bind fun row =>
    if row.preimage.isSome then row.amountReceivedSat else none

/-- No amount of a settled invoice is lost or changed. -/
def KeepsAmounts (w w' : World) : Prop :=
  ∀ k v, w.settledAmount k = some v → w'.settledAmount k = some v

theorem KeepsAmounts.trans {w w' w'' : World} (h : KeepsAmounts w w') (h' : KeepsAmounts w' w'') :
    KeepsAmounts w w'' := fun k v hv => h' k v (h k v hv)

/-- The amount of a row is the one last written, and an unpaid row has none. -/
structure AmountsTold (h : History) : Prop where
  written : ∀ k, (h.state.payments.invoiceOf k).bind Invoice.amountReceivedSat = lastAmount k h.log
  unpaid : ∀ k row, h.state.payments.invoiceOf k = some row → row.preimage = none →
    row.amountReceivedSat = none

theorem AmountsTold.settled {h : History} (told : AmountsTold h) (k : String) :
    h.state.settledAmount k = lastAmount k h.log := by
  rw [← told.written k]
  unfold World.settledAmount
  cases hrow : h.state.payments.invoiceOf k with
  | none => rfl
  | some row =>
      show (if row.preimage.isSome then row.amountReceivedSat else none) = row.amountReceivedSat
      cases hpreimage : row.preimage with
      | none => exact (told.unpaid k row hrow hpreimage).symm
      | some _ => rfl

/-! ## What a call does to amounts -/

section Change

variable {k : String} {old new : Option Invoice} {i : Nat} {c : Call} {r : Reply c}
  {invoice : Invoice}

/-- A call that writes no whole row keeps every amount. -/
theorem amount_of_change (h : InvoiceChange k old c r new) (hwhole : wholeRow ⟨i, c, r⟩ = none) :
    new.bind Invoice.amountReceivedSat = old.bind Invoice.amountReceivedSat := by
  cases h with
  | keeps => rfl
  | upserts => exact nomatch hwhole
  | settles hpaid =>
      refine hpaid.preserves (fun row => row.bind Invoice.amountReceivedSat =
        old.bind Invoice.amountReceivedSat) ?_ ?_ rfl
      · intro entry _ _ hnone
        exact hnone
      · intro entry _ _ row hrow _
        exact hrow
  | expires hold => rw [hold]; rfl

/-- It settles no unpaid row with an amount either. -/
theorem unpaid_of_change (h : InvoiceChange k old c r new) (hwhole : wholeRow ⟨i, c, r⟩ = none)
    (hold : ∀ row, old = some row → row.preimage = none → row.amountReceivedSat = none) :
    ∀ row, new = some row → row.preimage = none → row.amountReceivedSat = none := by
  cases h with
  | keeps => exact hold
  | upserts => exact nomatch hwhole
  | settles hpaid =>
      refine hpaid.preserves (fun x => ∀ row, x = some row → row.preimage = none →
        row.amountReceivedSat = none) ?_ ?_ hold
      · intro entry _ _ _ row hrow _
        obtain rfl := Option.some.inj hrow
        rfl
      · intro entry _ _ old hold hnone row hrow _
        obtain rfl := Option.some.inj hrow
        exact hold old rfl hnone
  | @expires expiredAt row hrow hnone =>
      intro row' hrow' _
      obtain rfl := Option.some.inj hrow'
      exact hold row hrow hnone

/-- A settled row stays as it is. -/
theorem settled_of_change (h : InvoiceChange k old c r new) (hwhole : wholeRow ⟨i, c, r⟩ = none)
    {row : Invoice} (hold : old = some row) (hpaid : row.preimage ≠ none) : new = some row := by
  cases h with
  | keeps => exact hold
  | upserts => cases hwhole
  | settles hbatch =>
      refine hbatch.preserves (fun x => x = some row) ?_ ?_ hold
      · intro entry _ _ hrow
        cases hrow
      · intro entry _ _ row' hrow' hnone
        obtain rfl := Option.some.inj hrow'
        exact absurd hnone hpaid
  | @expires expiredAt row' hrow' hnone =>
      obtain rfl := Option.some.inj (hrow'.symm.trans hold)
      exact absurd hnone hpaid

theorem settledAmount_eq_some {w : World} {v : Int} :
    w.settledAmount k = some v ↔ ∃ row, w.payments.invoiceOf k = some row ∧ row.preimage.isSome ∧
      row.amountReceivedSat = some v := by
  unfold World.settledAmount
  rw [Option.bind_eq_some_iff]
  refine exists_congr fun row => and_congr_right fun _ => ?_
  by_cases hpreimage : row.preimage.isSome = true
  · rw [if_pos hpreimage]
    exact (and_iff_right hpreimage).symm
  · rw [if_neg hpreimage]
    exact iff_of_false (fun h => nomatch h) fun h => hpreimage h.1

end Change

/-! ## What the routes hold when they write whole rows -/

/-- A whole row is a new invoice, or the unpaid row that the thread has read in
the call before, settled. -/
inductive MayWriteRow (i : Nat) (h : History) (invoice : Invoice) : Prop
  | creates : invoice.preimage = none → invoice.amountReceivedSat = none → MayWriteRow i h invoice
  | settles (row : Invoice) : invoice.preimage ≠ none → row.preimage = none →
      (h.callsOf i).getLast? = some
        ⟨i, .payment (.getInvoiceByPaymentHash invoice.paymentHash), .ok (some row)⟩ →
      MayWriteRow i h invoice

def amountContract : Contract Request Call Reply World where
  inv := AmountsTold
  rely i h h' := h'.callsOf i = h.callsOf i
  guard i _ h c := ∀ invoice, c = .payment (.upsertInvoice invoice) → MayWriteRow i h invoice

/-- An unpaid row is written without an amount. -/
theorem MayWriteRow.unpaid {i : Nat} {h : History} {invoice : Invoice}
    (hmay : MayWriteRow i h invoice)
    (hnone : invoice.preimage = none) : invoice.amountReceivedSat = none := by
  cases hmay with
  | creates _ hamount => exact hamount
  | settles _ hpreimage => exact absurd hnone hpreimage

section Law

variable {ok : History → CallEvent → Prop} {h : History} {i : Nat} {q : Request} {c : Call}
  {ch : Choice c} {r : Reply c} {w' : World} {invoice : Invoice} {k : String}

/-- The row after a whole row was written. -/
theorem invoiceOf_wholeRow (hwhole : wholeRow ⟨i, c, r⟩ = some invoice)
    (hexec : exec c ch h.state = some (r, w')) (k : String) :
    w'.payments.invoiceOf k =
      if k = invoice.paymentHash then
        some ((h.state.payments.invoiceOf k).elim invoice (overwriteInvoice invoice))
      else h.state.payments.invoiceOf k := by
  obtain rfl := call_of_wholeRow hwhole
  rcases execPayment_cases (exec_payment hexec) with ⟨_, e, rfl⟩ | ⟨out, rfl, _, rfl⟩
  · exact nomatch hwhole
  · exact invoiceOf_upsertInvoice

theorem AmountsTold.call (told : AmountsTold h) (hguard : amountContract.guard i q h c)
    (hexec : exec c ch h.state = some (r, w')) : AmountsTold (h.push ⟨i, c, r⟩ w') := by
  cases hwhole : wholeRow ⟨i, c, r⟩ with
  | none =>
      refine ⟨fun k => ?_, fun k => unpaid_of_change (exec_invoice hexec k) hwhole (told.unpaid k)⟩
      show (w'.payments.invoiceOf k).bind _ = lastAmount k (h.log ++ [_])
      rw [amount_of_change (exec_invoice hexec k) hwhole, told.written, lastAmount_concat,
        writeAmount_of_none hwhole]
  | some invoice =>
      have hrow := invoiceOf_wholeRow hwhole hexec
      have hmay := hguard invoice (call_of_wholeRow hwhole)
      refine ⟨fun k => ?_, fun k row hnew hnone => ?_⟩
      · show (w'.payments.invoiceOf k).bind _ = lastAmount k (h.log ++ [_])
        rw [lastAmount_concat, writeAmount_of_wholeRow hwhole, hrow]
        by_cases hk : k = invoice.paymentHash
        · rw [if_pos hk, if_pos hk.symm]
          cases h.state.payments.invoiceOf k <;> rfl
        · rw [if_neg hk, if_neg (Ne.symm hk)]
          exact told.written k
      · have hnew : w'.payments.invoiceOf k = some row := hnew
        rw [hrow] at hnew
        by_cases hk : k = invoice.paymentHash
        · rw [if_pos hk] at hnew
          cases hold : h.state.payments.invoiceOf k with
          | none =>
              rw [hold] at hnew
              obtain rfl : invoice = row := Option.some.inj hnew
              exact hmay.unpaid hnone
          | some old =>
              rw [hold] at hnew
              obtain rfl : overwriteInvoice invoice old = row := Option.some.inj hnew
              exact hmay.unpaid hnone
        · rw [if_neg hk] at hnew
          exact told.unpaid k row hnew hnone

theorem amountContract_lawful : amountContract.Lawful semantics ok where
  refl := fun _ _ => rfl
  trans := fun h₁ h₂ => h₂.trans h₁
  call := fun told hguard hexec _ => told.call hguard hexec
  tick := fun {h t s'} told htick => by
    obtain ⟨_, hpayments, _⟩ := tick_cases htick
    constructor
    · show ∀ k, (s'.payments.invoiceOf k).bind _ = lastAmount k h.log
      rw [hpayments]
      exact told.written
    · show ∀ k row, s'.payments.invoiceOf k = some row → _
      rw [hpayments]
      exact told.unpaid
  ticks := fun _ _ => rfl
  others := fun _ _ _ _ hne => Hist.callsOf_push_ne hne

end Law

/-! ## The pieces that write invoices -/

section Pieces

variable {state : State} {crates : Crates} {ok : History → CallEvent → Prop} {h : History} {i : Nat}
  {q : Request} {ε α β : Type}

theorem mayWriteRow_spares {c : Call} (hc : ¬ c.WritesInvoices) : amountContract.guard i q h c := by
  intro invoice hinvoice
  subst hinvoice
  exact absurd id hc

/-- Nothing to carry through calls that write no whole row. -/
theorem noWholeRow_carries : amountContract.Carries semantics ok i q
    (fun c => ∀ invoice, c ≠ .payment (.upsertInvoice invoice)) fun _ => True where
  rely := fun _ _ => trivial
  guard := fun _ hc invoice hinvoice => absurd hinvoice (hc invoice)
  call := fun _ _ _ _ _ => trivial

theorem noWholeRow_of_notice (c : Call) (h : c.IsNotice) :
    ∀ invoice, c ≠ .payment (.upsertInvoice invoice) := by
  intro invoice hinvoice
  subst hinvoice
  exact absurd h id

/-- The row a settlement has read, and the write that follows at once. -/
theorem storePreimage_keepsAmounts {paymentHash : String} {invoice : Invoice} {preimage : String}
    {amount : Option Int} {now : Int} (hhash : invoice.paymentHash = paymentHash)
    (hread : (h.callsOf i).getLast? =
      some ⟨i, .payment (.getInvoiceByPaymentHash paymentHash), .ok (some invoice)⟩) :
    amountContract.wp semantics ok i q (storePreimage paymentHash invoice preimage amount now)
      (fun _ _ => True) h := by
  simp only [storePreimage, Prog.bind_eq, Prog.pure_eq]
  split
  · rename_i hunpaid
    refine Contract.wp_bind.mpr (Contract.wp_call.mpr fun h₁ hrely _ => ⟨?_, ?_⟩)
    · intro row hrow
      obtain rfl := PaymentOp.upsertInvoice.inj (Call.payment.inj hrow)
      refine .settles invoice (Option.some_ne_none _) (Option.isNone_iff_eq_none.mp hunpaid) ?_
      have hrely : h₁.callsOf i = h.callsOf i := hrely
      rw [hrely, hread, hhash]
    · intro ch r s' _ _ _
      refine Contract.wp_ofExcept.mpr ?_
      cases r with
      | error e => exact trivial
      | ok _ =>
          exact noWholeRow_carries.last (calls_enqueueZapReceipt.mono noWholeRow_of_notice)
            (fun _ => trivial) trivial
  · exact Contract.wp_ret.mpr trivial

theorem handleInvoicePaid_keepsAmounts {paymentHash preimage : String} {amount : Option Int} :
    amountContract.wp semantics ok i q (handleInvoicePaid crates paymentHash preimage amount)
      (fun _ _ => True) h := by
  simp only [handleInvoicePaid, Prog.bind_eq, Prog.pure_eq]
  refine Contract.wp_ofExcept_bind (fun _ => trivial) fun _ _ => ?_
  refine noWholeRow_carries.bind (calls_nowMillis fun _ _ h => by cases h)
    (fun _ => trivial) trivial
    fun now h _ => ?_
  refine Contract.wp_bind.mpr
    (Contract.wp_mapError.mpr (Contract.wp_call.mpr fun h₁ _ _ => ⟨?_, ?_⟩))
  · exact fun _ h => by cases h
  · intro ch r s' hexec _ _
    refine Contract.wp_ofExcept.mpr ?_
    cases r with
    | error e => exact trivial
    | ok stored =>
        cases stored with
        | none => exact Contract.wp_ret.mpr trivial
        | some invoice =>
            have hhash : invoice.paymentHash = paymentHash := by
              rcases execPayment_cases (exec_payment hexec) with ⟨_, _, h⟩ | ⟨out, hout, hr, _⟩
              · cases h
              · subst hout
                exact paymentHash_of_get (Except.ok.inj hr).symm
            refine Contract.wp_bind.mpr (Contract.wp_mapError.mpr (Contract.wp_mono ?_
              (storePreimage_keepsAmounts hhash
                (by rw [Hist.callsOf_push_self, List.getLast?_concat]))))
            intro h r _
            cases r with
            | error e => exact trivial
            | ok _ =>
                exact noWholeRow_carries.attempt_bind
                  (calls_notifyWebhooks.mono noWholeRow_of_notice) trivial fun _ _ _ =>
                    Contract.wp_ret.mpr trivial

theorem handleInvoicesPaid_keepsAmounts {items : List PaidInvoice} {userPubkey : String} :
    amountContract.wp semantics ok i q (handleInvoicesPaid crates items userPubkey)
      (fun _ _ => True) h :=
  noWholeRow_carries.last (calls_handleInvoicesPaid noWholeRow_of_notice (fun _ _ h => nomatch h)
    fun _ _ _ _ h => nomatch h) (fun _ => trivial) trivial

theorem createProviderInvoice_keepsAmounts {paymentHash accountId userPubkey domain : String}
    {provider : AccountProvider} {invoice : ProviderInvoice} {expiry : Int} :
    amountContract.wp semantics ok i q
    (createProviderInvoiceForAccount paymentHash accountId provider
      invoice userPubkey expiry domain) (fun _ _ => True) h := by
  simp only [createProviderInvoiceForAccount, Prog.bind_eq]
  refine noWholeRow_carries.bind (calls_nowMillis fun _ _ h => by cases h)
    (fun _ => trivial) trivial
    fun now h _ => ?_
  refine Contract.wp_call.mpr fun h₁ _ _ =>
    ⟨?_, fun _ _ _ _ _ _ => Contract.wp_ofExcept.mpr trivial⟩
  intro row hrow
  obtain rfl := PaymentOp.upsertInvoice.inj (Call.payment.inj hrow)
  exact .creates rfl rfl

theorem expireBlinkInvoice_keepsAmounts {paymentHash : String} :
    amountContract.wp semantics ok i q (expireBlinkInvoiceByPaymentHash state paymentHash)
      (fun _ _ => True) h :=
  noWholeRow_carries.last (calls_expireBlinkInvoice noWholeRow_of_notice (fun _ h => nomatch h)
    fun _ _ h => nomatch h) (fun _ => trivial) trivial

end Pieces

theorem amountWriters (state : State) (ok : History → CallEvent → Prop) :
    InvoiceWriters amountContract ok state where
  spares := fun _ hc => mayWriteRow_spares hc
  paid := handleInvoicePaid_keepsAmounts
  batch := handleInvoicesPaid_keepsAmounts
  create := createProviderInvoice_keepsAmounts
  expires := expireBlinkInvoice_keepsAmounts

theorem amount_outline (state : State) :
    Outline amountContract semantics always (handler state) (fun _ _ _ _ => True) where
  lawful := amountContract_lawful
  post_stable := fun _ _ _ => trivial
  accept := fun _ _ => (amountWriters state always).paymentWriters.handler

theorem amounts_initial (clock : Clock) : amountContract.inv ⟨World.fresh clock, []⟩ :=
  ⟨fun _ => rfl, fun _ _ h => nomatch h⟩

/-! ## Overtaken settlements -/

/-- The call has read the row of a payment hash in thread `i`. -/
def readsRow (i : Nat) (k : String) : CallEvent → Bool
  | ⟨j, .payment (.getInvoiceByPaymentHash hash), .ok _⟩ => j = i && hash = k
  | _ => false

/-- The calls that a write of a whole row takes no account of: a settlement has
read the row before, a new invoice has not. -/
def unseenBy (i : Nat) (invoice : Invoice) (log : List CallEvent) : List CallEvent :=
  if invoice.preimage.isNone then log
  else log.rtakeWhile fun ev => !readsRow i invoice.paymentHash ev

/-- A whole row is written with the amount that was written since the thread has
read the row, if there was one. -/
def AmountAgreed (h : History) (ev : CallEvent) : Prop :=
  ∀ invoice v, wholeRow ev = some invoice →
    lastAmount invoice.paymentHash (unseenBy ev.thread invoice h.log) = some v →
      invoice.amountReceivedSat = some v

section Overtaken

variable {state : State} {clock : Clock} {cfg : Server} {i : Nat} {q : Request} {c : Call}
  {r : Reply c} {invoice : Invoice} {w' : World}

/-- What a write takes no account of has written the amount there is. -/
theorem lastAmount_unseen
    (hreach : Reachable semantics always (handler state) (World.fresh clock) cfg)
    (hmay : MayWriteRow i cfg.hist invoice) :
    lastAmount invoice.paymentHash (unseenBy i invoice cfg.hist.log) =
      lastAmount invoice.paymentHash cfg.hist.log := by
  cases hmay with
  | creates hnone _ =>
      unfold unseenBy
      rw [if_pos (Option.isNone_iff_eq_none.mpr hnone)]
  | settles row hsome hnone hread =>
      obtain ⟨before, since, hlog, hothers⟩ := Hist.split_of_last hread
      have hunseen : unseenBy i invoice cfg.hist.log = since := by
        unfold unseenBy
        rw [if_neg fun h => hsome (Option.isNone_iff_eq_none.mp h), hlog]
        refine rtakeWhile_since ?_ fun ev hev => ?_
        · show (!(decide (i = i) && decide (invoice.paymentHash = invoice.paymentHash))) = false
          simp
        · have hne := hothers ev hev
          unfold readsRow
          split
          · simpa using Or.inl hne
          · rfl
      -- there was no amount when the row was read
      obtain ⟨mid, mid', took, hmid⟩ := hreach.took_at hlog
      obtain ⟨_, _, ch, _, hexec, _⟩ := took.call
      have told := (Reachable.sound (amount_outline state) (amounts_initial clock) took.before).inv
      have hrow : mid.hist.state.payments.invoiceOf invoice.paymentHash = some row := by
        rcases execPayment_cases (exec_payment hexec) with ⟨_, _, h⟩ | ⟨out, hout, hr, _⟩
        · exact nomatch h
        · subst hout
          exact (Except.ok.inj hr).symm
      have hbefore : lastAmount invoice.paymentHash before = none := by
        rw [← hmid, ← told.written, hrow]
        exact told.unpaid _ row hrow hnone
      rw [hunseen, hlog, lastAmount_append hbefore]
      rfl

/-- A call keeps all amounts if and only if a whole row it writes agrees on the
amount. -/
theorem keepsAmounts_iff
    (hreach : Reachable semantics always (handler state) (World.fresh clock) cfg)
    {k : Reply c → Handler Response} {ch : Choice c}
    (hth : cfg.threads[i]? = some ⟨q, .call c k⟩)
    (hexec : exec c ch cfg.hist.state = some (r, w')) :
    KeepsAmounts cfg.hist.state w' ↔ AmountAgreed cfg.hist ⟨i, c, r⟩ := by
  have hcfg := Reachable.sound (amount_outline state) (amounts_initial clock) hreach
  have hguard := hcfg.guard amountContract_lawful.toKeeps hth
  cases hwhole : wholeRow ⟨i, c, r⟩ with
  | none =>
      refine iff_of_true (fun k v hv => ?_) fun invoice v h => nomatch hwhole.symm.trans h
      rw [settledAmount_eq_some] at hv ⊢
      obtain ⟨row, hrow, hpaid, hamount⟩ := hv
      have hsame := settled_of_change (exec_invoice hexec k) hwhole hrow
        (Option.isSome_iff_ne_none.mp hpaid)
      exact ⟨row, hsame, hpaid, hamount⟩
  | some invoice =>
      have hmay : MayWriteRow i cfg.hist invoice := hguard invoice (call_of_wholeRow hwhole)
      have hnow := hcfg.inv.settled invoice.paymentHash
      have told' : AmountsTold (cfg.hist.push ⟨i, c, r⟩ w') := hcfg.inv.call hguard hexec
      have hthen : ∀ k, w'.settledAmount k =
          if invoice.paymentHash = k then invoice.amountReceivedSat
          else cfg.hist.state.settledAmount k := by
        intro k
        have hlast : w'.settledAmount k = lastAmount k (cfg.hist.log ++ [⟨i, c, r⟩]) :=
          told'.settled k
        rw [hlast, lastAmount_concat, writeAmount_of_wholeRow hwhole, hcfg.inv.settled k]
      constructor
      · intro hkeeps invoice' v hinvoice hlast
        obtain rfl := Option.some.inj (hwhole.symm.trans hinvoice)
        rw [lastAmount_unseen hreach hmay, ← hnow] at hlast
        have hkept := hkeeps _ v hlast
        rw [hthen, if_pos rfl] at hkept
        exact hkept
      · intro hagreed k v hv
        rw [hthen]
        by_cases hk : invoice.paymentHash = k
        · subst hk
          rw [if_pos rfl]
          refine hagreed invoice v hwhole ?_
          rw [lastAmount_unseen hreach hmay, ← hnow]
          exact hv
        · rw [if_neg hk]
          exact hv

/-- In a run of the server a call keeps all amounts of settled invoices exactly
if a row it writes back has the amount that was written since its thread has
read the row. So no amount is lost in a run where no settlement is overtaken by
one with another amount. -/
theorem amounts_kept (hreach : Reachable semantics always (handler state) (World.fresh clock) cfg) :
    (∀ i q c (k : Reply c → Handler Response) ch r w',
      cfg.threads[i]? = some ⟨q, .call c k⟩ → exec c ch cfg.hist.state = some (r, w') →
        (KeepsAmounts cfg.hist.state w' ↔ AmountAgreed cfg.hist ⟨i, c, r⟩)) ∧
    ∀ cfg', Steps semantics AmountAgreed (handler state) cfg cfg' →
      KeepsAmounts cfg.hist.state cfg'.hist.state := by
  refine ⟨fun i q c k ch r w' hth hexec => keepsAmounts_iff hreach hth hexec, ?_⟩
  intro cfg' hsteps
  induction hsteps with
  | refl => exact fun k v hv => hv
  | @tail mid cfg' hpre hstep ih =>
      have hmid : Reachable semantics always (handler state) (World.fresh clock) mid :=
        hreach.trans (Steps.mono (fun _ _ _ => trivial) hpre)
      refine ih.trans ?_
      cases hstep with
      | accept => exact fun k v hv => hv
      | call hth hexec hok => exact (keepsAmounts_iff hmid hth hexec).mpr hok
      | @tick t s' htick =>
          intro k v hv
          obtain ⟨_, hpayments, _⟩ := tick_cases htick
          show (s'.payments.invoiceOf k).bind _ = some v
          rw [hpayments]
          exact hv

end Overtaken

instance (h : History) (ev : CallEvent) : Decidable (AmountAgreed h ev) :=
  decidable_of_iff ((wholeRow ev).all fun invoice =>
      (lastAmount invoice.paymentHash (unseenBy ev.thread invoice h.log)).all fun v =>
        invoice.amountReceivedSat = some v) <| by
    unfold AmountAgreed
    constructor
    · intro hall invoice v hinvoice hlast
      rw [hinvoice, Option.all_some, hlast, Option.all_some] at hall
      exact of_decide_eq_true hall
    · intro hagreed
      rw [Option.all_eq_true_iff_get]
      intro hinvoice
      rw [Option.all_eq_true_iff_get]
      intro hlast
      refine decide_eq_true (hagreed _ _ (Option.some_get hinvoice).symm ?_)
      exact (Option.some_get hlast).symm

/-! ## Examples

Two notifications of one payment. Both have read the unpaid row when the first
writes it back. -/

section Example

open Schedule

/-- The SSP reports the payment twice, and the second report is about to write. -/
def reportedTwice : Schedule :=
  invoiced ++ serve reportsPaid ++ calls 2 3 ++ serve reportsPaid ++ calls 3 3 ++ calls 2 1

/-- The client has read the row before the report of the SSP wrote it. -/
def clientOvertaken : Schedule :=
  invoiced ++ serve reportsPaid ++ calls 2 3 ++ serve clientReportsPaid ++ calls 3 4 ++ calls 2 1

theorem amounts_kept_twice :
    ∃ cfg cfg' : Server,
      Steps semantics AmountAgreed (handler payeeServer) cfg cfg' ∧
      cfg.hist.state.settledAmount "aa" = some 10 ∧
      (cfg'.hist.log.getLast?.bind wholeRow).isSome = true ∧
      cfg'.hist.state.settledAmount "aa" = some 10 := by
  have hbefore : (payeeRun AmountAgreed reportedTwice).any (fun cfg =>
      cfg.hist.state.settledAmount "aa" = some 10) = true := by decide +kernel
  have hafter : (payeeRun AmountAgreed (reportedTwice ++ calls 3 1)).any (fun cfg' =>
      (cfg'.hist.log.getLast?.bind wholeRow).isSome) = true := by decide +kernel
  obtain ⟨cfg, cfg', hreach, hsteps, _, _, hsettled, hwritten⟩ := steps_of_replay hbefore hafter
  have hsettled := of_decide_eq_true hsettled
  obtain ⟨_, hkept⟩ := amounts_kept (Steps.mono (fun _ _ _ => trivial) hreach)
  exact ⟨cfg, cfg', hsteps, hsettled, hwritten, hkept cfg' hsteps "aa" 10 hsettled⟩

/-- The client's notification has no amount, and its row replaces the one with
the amount. -/
theorem client_loses_amount :
    ∃ cfg cfg' : Server,
      Reachable semantics always (handler payeeServer) (World.fresh ⟨1000000, by decide⟩) cfg ∧
      Step semantics always (handler payeeServer) cfg cfg' ∧
      cfg'.request 2 = some reportsPaid ∧ cfg'.request 3 = some clientReportsPaid ∧
      cfg.hist.state.settledAmount "aa" = some 10 ∧
      (cfg'.hist.state.payments.invoiceOf "aa").map Invoice.preimage = some (some "00") ∧
      cfg'.hist.state.settledAmount "aa" = none ∧
      ¬ KeepsAmounts cfg.hist.state cfg'.hist.state := by
  have hbefore : (payeeRun always clientOvertaken).any (fun cfg =>
      cfg.hist.state.settledAmount "aa" = some 10) = true := by decide +kernel
  have hafter :
      (payeeRun always (clientOvertaken ++ [.call 3 (Answers.choice {})])).any (fun cfg' =>
      decide ((cfg'.hist.state.payments.invoiceOf "aa").map Invoice.preimage = some (some "00") ∧
        cfg'.hist.state.settledAmount "aa" = none)) = true := by decide +kernel
  obtain ⟨cfg, cfg', hreach, hstep, hserved, hsettled, hlost⟩ := step_of_replay hbefore hafter
  have hsettled := of_decide_eq_true hsettled
  obtain ⟨hpaid, hlost⟩ := of_decide_eq_true hlost
  refine ⟨cfg, cfg', hreach, hstep, hserved 2, hserved 3, hsettled, hpaid, hlost, fun hkeeps => ?_⟩
  exact nomatch hlost.symm.trans (hkeeps "aa" 10 hsettled)

end Example

end BlinkLnurl
