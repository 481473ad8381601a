import BlinkLnurl.Server.PermanentSettlement

/-!
# Receipts of settled payments

A settlement stores the preimage in one call and queues the zap receipt in a
later one; in between its thread owes the receipt. If the queueing fails, or the
thread stops in between, a retry finds the preimage stored and queues nothing
(`retry_loses_receipt`, `cut_loses_receipt`). If neither happens, every settled
payment has had its receipt queued (`receipt_queued`).
-/

namespace BlinkLnurl

open Conc Rel PaymentStore

/-- A notification of payments. -/
inductive PaidReport
  | invoicePaid (paymentHash preimage : String) (amountReceivedSat : Option Int)
  | invoicesPaid (items : List PaidInvoice) (userPubkey : String)

def PaidReport.settle (crates : Crates) : PaidReport → Settle Unit
  | .invoicePaid paymentHash preimage amountReceivedSat =>
      handleInvoicePaid crates paymentHash preimage amountReceivedSat
  | .invoicesPaid items userPubkey => handleInvoicesPaid crates items userPubkey

/-- Notifications being handled. -/
abbrev Settling := Config PaidReport Call Reply HandleInvoicePaidError Unit World

/-! ## What the log says about receipts -/

/-- The call inserts a pending receipt for the payment. -/
def Call.queuesReceipt (k : String) : Call → Bool
  | .payment (.insertPendingZapReceipt pending) => pending.paymentHash = k
  | .payment (.insertPendingZapReceiptBatch pending) => pending.any fun p => p.paymentHash = k
  | _ => false

/-- The store has failed the call. -/
def storeFailed : CallEvent → Bool
  | ⟨_, .account _, .error _⟩ => true
  | ⟨_, .payment _, .error _⟩ => true
  | _ => false

def ReceiptQueued (k : String) (log : List CallEvent) : Prop :=
  ∃ ev ∈ log, ev.call.queuesReceipt k = true ∧ storeFailed ev = false

/-- No insertion of a receipt fails before one for the payment has succeeded. -/
def ReceiptStored (k : String) (h : History) (ev : CallEvent) : Prop :=
  ev.call.queuesReceipt k = true → storeFailed ev = true → ReceiptQueued k h.log

/-- The call has written the preimage of the payment. -/
def settlesRow (k : String) : CallEvent → Bool
  | ⟨_, .payment (.upsertInvoice invoice), .ok _⟩ =>
      invoice.paymentHash = k && invoice.preimage.isSome
  | ⟨_, .payment (.upsertInvoicesPaid _), .ok affected⟩ => affected.contains k
  | _ => false

def owesAfter (k : String) (owed : Bool) (ev : CallEvent) : Bool :=
  settlesRow k ev || owed && !ev.call.queuesReceipt k

/-- A thread that has made these calls has settled the payment, and has not come
to queueing its receipt. -/
def owes (k : String) (calls : List CallEvent) : Bool := calls.foldl (owesAfter k) false

section Log

variable {k : String} {log log' calls : List CallEvent} {ev : CallEvent} {i : Nat} {c : Call}
  {r : Reply c}

theorem ReceiptQueued.mono (h : ReceiptQueued k log) (hlog : log <+: log') :
    ReceiptQueued k log' := by
  obtain ⟨ev, hev, hqueues⟩ := h
  exact ⟨ev, hlog.subset hev, hqueues⟩

theorem owes_concat : owes k (calls ++ [ev]) = owesAfter k (owes k calls) ev := List.foldl_concat ..

theorem settlesRow_of_spares (hc : ¬ c.WritesInvoices) : settlesRow k ⟨i, c, r⟩ = false := by
  cases c with
  | payment op => cases op <;> first | rfl | exact absurd id hc
  | account op => rfl
  | env op => rfl

/-- A payment that is settled after a call was so before, or the call settled it. -/
theorem settled_or_settles {ch : Choice c} {w w' : World} (hexec : exec c ch w = some (r, w'))
    (hafter : (w'.preimageOf k).isSome) :
    (w.preimageOf k).isSome ∨ settlesRow k ⟨i, c, r⟩ = true := by
  have hchange := exec_invoice hexec k
  unfold World.preimageOf at hafter ⊢
  generalize w'.payments.invoiceOf k = new at hchange hafter
  cases hchange with
  | keeps => exact Or.inl hafter
  | @upserts invoice hk =>
      right
      have hpreimage : invoice.preimage.isSome := by
        cases hold : w.payments.invoiceOf k with
        | none =>
            rw [hold] at hafter
            exact hafter
        | some old =>
            rw [hold] at hafter
            exact hafter
      show (decide (invoice.paymentHash = k) && invoice.preimage.isSome) = true
      rw [decide_eq_true hk, hpreimage]
      rfl
  | @settles invoices affected _ _ haffected =>
      rcases haffected with hmem | hsame
      · exact Or.inr (List.contains_iff_mem.mpr hmem)
      · rw [hsame] at hafter
        exact Or.inl hafter
  | @expires expiredAt row hold hnone =>
      have hafter : row.preimage.isSome := hafter
      rw [hnone] at hafter
      cases hafter

theorem pending_of_insert {pending : PendingZapReceipt} {s : PaymentStore}
    (h : (s.pendingZapReceipts.get k).isSome ∨ pending.paymentHash = k) :
    ((s.insertPendingZapReceipt pending).pendingZapReceipts.get k).isSome := by
  show ((s.pendingZapReceipts.upsert _ _ _).get k).isSome
  rw [Table.get_upsert]
  split
  · rfl
  · rename_i hne
    rcases h with h | h
    · exact h
    · exact absurd h.symm hne

theorem pending_of_batch {pending : List PendingZapReceipt} {s : PaymentStore}
    (h : (s.pendingZapReceipts.get k).isSome ∨ ∃ p ∈ pending, p.paymentHash = k) :
    ((s.insertPendingZapReceiptBatch pending).pendingZapReceipts.get k).isSome := by
  induction pending generalizing s with
  | nil =>
      rcases h with h | ⟨p, hp, _⟩
      · exact h
      · cases hp
  | cons first rest ih =>
      refine ih ?_
      rcases h with h | ⟨p, hp, hk⟩
      · exact Or.inl (pending_of_insert (Or.inl h))
      · rcases List.mem_cons.mp hp with rfl | hp
        · exact Or.inl (pending_of_insert (Or.inr hk))
        · exact Or.inr ⟨p, hp, hk⟩

/-- A queued receipt is a row of the queue once its insertion is done. -/
theorem pending_of_queued {ch : Choice c} {w w' : World} (hexec : exec c ch w = some (r, w'))
    (hqueues : c.queuesReceipt k = true) (hdone : storeFailed ⟨i, c, r⟩ = false) :
    (w'.payments.pendingZapReceipts.get k).isSome := by
  cases c with
  | account op => cases hqueues
  | env op => cases hqueues
  | payment op =>
      rcases execPayment_cases (exec_payment hexec) with ⟨_, e, rfl⟩ | ⟨out, hout, rfl, rfl⟩
      · cases hdone
      · subst hout
        cases op with
        | insertPendingZapReceipt pending =>
            exact pending_of_insert (Or.inr (of_decide_eq_true hqueues))
        | insertPendingZapReceiptBatch pending =>
            obtain ⟨p, hp, hk⟩ := List.any_eq_true.mp hqueues
            exact pending_of_batch (Or.inr ⟨p, hp, of_decide_eq_true hk⟩)
        | _ => cases hqueues

end Log

/-! ## The contract -/

/-- What is settled is queued or owed. -/
def receiptContract (k : String) : Contract PaidReport Call Reply World where
  inv h := (h.state.preimageOf k).isSome →
    ReceiptQueued k h.log ∨ ∃ i, owes k (h.callsOf i) = true
  rely i h h' := h'.callsOf i = h.callsOf i
  guard _ _ _ _ := True

section Law

variable {k : String} {h : History} {i : Nat} {c : Call} {ch : Choice c} {r : Reply c} {w' : World}

theorem receipt_call (inv : (receiptContract k).inv h) (hexec : exec c ch h.state = some (r, w'))
    (hok : ReceiptStored k h ⟨i, c, r⟩) : (receiptContract k).inv (h.push ⟨i, c, r⟩ w') := by
  intro hsettled
  have hnow : owes k ((h.push ⟨i, c, r⟩ w').callsOf i) =
      owesAfter k (owes k (h.callsOf i)) ⟨i, c, r⟩ := by
    rw [Hist.callsOf_push_self, owes_concat]
  rcases settled_or_settles (i := i) hexec hsettled with hbefore | hsettles
  · rcases inv hbefore with hqueued | ⟨j, howes⟩
    · exact Or.inl (hqueued.mono (List.prefix_append _ _))
    · by_cases hj : j = i
      · subst hj
        by_cases hqueues : c.queuesReceipt k = true
        · left
          cases hfailed : storeFailed ⟨j, c, r⟩ with
          | true => exact (hok hqueues hfailed).mono (List.prefix_append _ _)
          | false => exact ⟨_, List.mem_append_right _ List.mem_cons_self, hqueues, hfailed⟩
        · right
          refine ⟨j, ?_⟩
          rw [hnow, owesAfter, howes, Bool.eq_false_iff.mpr hqueues]
          exact Bool.or_true _
      · refine Or.inr ⟨j, ?_⟩
        rw [Hist.callsOf_push_ne hj]
        exact howes
  · refine Or.inr ⟨i, ?_⟩
    rw [hnow, owesAfter, hsettles, Bool.true_or]

theorem receiptContract_lawful : (receiptContract k).Lawful semantics (ReceiptStored k) where
  refl := fun _ _ => rfl
  trans := fun h₁ h₂ => h₂.trans h₁
  call := fun inv _ hexec hok => receipt_call inv hexec hok
  tick := fun {h t s'} inv htick => by
    obtain ⟨_, hpayments, _⟩ := tick_cases htick
    intro hsettled
    refine inv ?_
    have hsettled : (s'.preimageOf k).isSome := hsettled
    rw [World.preimageOf, hpayments] at hsettled
    exact hsettled
  ticks := fun _ _ => rfl
  others := fun _ _ _ _ hne => Hist.callsOf_push_ne hne

end Law

/-! ## The handlers pay what they owe -/

section Pieces

variable {k : String} {crates : Crates} {ok : History → CallEvent → Prop} {h : History} {i : Nat}
  {q : PaidReport} {P : Prop} {ε α : Type}

/-- After a call the receipt is owed if it was owed before, or if the call settled the
payment. -/
theorem owing_push {c : Call} {r : Reply c} {s' : World} (hI : owes k (h.callsOf i) = true → P)
    (hsettles : settlesRow k ⟨i, c, r⟩ = true → P) :
    owes k ((h.push ⟨i, c, r⟩ s').callsOf i) = true → P := by
  intro howes
  rw [Hist.callsOf_push_self, owes_concat, owesAfter, Bool.or_eq_true, Bool.and_eq_true] at howes
  rcases howes with hnew | hold
  · exact hsettles hnew
  · exact hI hold.1

theorem owing_spares {c : Call} {r : Reply c} {s' : World} (hc : ¬ c.WritesInvoices)
    (hI : owes k (h.callsOf i) = true → P) :
    owes k ((h.push ⟨i, c, r⟩ s').callsOf i) = true → P :=
  owing_push hI fun hsettles => by
    rw [settlesRow_of_spares hc] at hsettles
    cases hsettles

theorem owing_rely {h' : History} (hrely : (receiptContract k).rely i h h')
    (hI : owes k (h.callsOf i) = true → P) : owes k (h'.callsOf i) = true → P := by
  have hrely : h'.callsOf i = h.callsOf i := hrely
  rw [hrely]
  exact hI

/-- What follows from owing the receipt, through calls that write no invoice. -/
theorem owing_carries : (receiptContract k).Carries semantics ok i q (fun c => ¬ c.WritesInvoices)
    fun h => owes k (h.callsOf i) = true → P where
  rely := owing_rely
  guard := fun _ _ => trivial
  call := fun _ hc _ _ hI => owing_spares hc hI

/-- The clock answers. -/
theorem wp_nowMillis {f : Int → Prog Call Reply ε α} {Q : History → Except ε α → Prop}
    (hI : owes k (h.callsOf i) = true → P)
    (hf : ∀ now h, (owes k (h.callsOf i) = true → P) →
      (receiptContract k).wp semantics ok i q (f now) Q h) :
    (receiptContract k).wp semantics ok i q ((nowMillis : Prog Call Reply ε Int).bind f) Q h := by
  refine Contract.wp_bind.mpr (Contract.wp_call.mpr fun h₁ hrely _ => ⟨trivial, ?_⟩)
  intro ch now s' _ _ _
  exact Contract.wp_ret.mpr (hf now _ (owing_spares id (owing_rely hrely hI)))

/-- The insertion of a receipt pays the debt, whether or not it fails. -/
theorem queueing_pays {op : PaymentOp} (hspares : op.SparesInvoices)
    (hqueues : P → (Call.payment op).queuesReceipt k = true)
    (hI : owes k (h.callsOf i) = true → P) :
    (receiptContract k).wp semantics ok i q (Store.payment op)
      (fun h _ => owes k (h.callsOf i) = true → False) h := by
  refine Contract.wp_call.mpr fun h₁ hrely _ => ⟨trivial, fun ch r s' _ _ _ => ?_⟩
  refine Contract.wp_ofExcept.mpr fun howes => ?_
  have hI₁ : owes k (h₁.callsOf i) = true → P := owing_rely hrely hI
  have hwrites : ¬ Call.WritesInvoices (.payment op) := not_not.mpr hspares
  rw [Hist.callsOf_push_self, owes_concat, owesAfter, settlesRow_of_spares hwrites, Bool.false_or,
    Bool.and_eq_true, Bool.not_eq_true'] at howes
  have hqueued := hqueues (hI₁ howes.1)
  rw [hqueued] at howes
  cases howes.2

theorem storePreimage_pays_receipt {paymentHash : String} {invoice : Invoice} {preimage : String}
    {amount : Option Int} {now : Int} (hhash : invoice.paymentHash = paymentHash)
    (hI : owes k (h.callsOf i) = true → False) :
    (receiptContract k).wp semantics ok i q (storePreimage paymentHash invoice preimage amount now)
      (fun h _ => owes k (h.callsOf i) = true → False) h := by
  simp only [storePreimage, Prog.bind_eq, Prog.pure_eq]
  split
  · refine Contract.wp_bind.mpr (Contract.wp_call.mpr fun h₁ hrely _ => ⟨trivial, ?_⟩)
    intro ch r s' _ _ _
    have hI₁ : owes k (h₁.callsOf i) = true → False := owing_rely hrely hI
    refine Contract.wp_ofExcept.mpr ?_
    cases r with
    | error e => exact owing_push hI₁ fun hsettles => (by cases hsettles)
    | ok _ =>
        simp only [enqueueZapReceipt, Prog.bind_eq]
        refine wp_nowMillis (P := paymentHash = k) ?_ fun now h hI => ?_
        · refine owing_push (fun howes => (hI₁ howes).elim) fun hsettles => ?_
          rw [← hhash]
          exact of_decide_eq_true (Bool.and_eq_true_iff.mp hsettles).1
        · exact queueing_pays trivial (fun hk => decide_eq_true hk) hI
  · exact Contract.wp_ret.mpr hI

theorem handleInvoicePaid_pays_receipt {paymentHash preimage : String} {amount : Option Int}
    (hI : owes k (h.callsOf i) = true → False) :
    (receiptContract k).wp semantics ok i q (handleInvoicePaid crates paymentHash preimage amount)
      (fun h _ => owes k (h.callsOf i) = true → False) h := by
  have carries : (receiptContract k).Carries semantics ok i q (fun c => ¬ c.WritesInvoices)
      fun h => owes k (h.callsOf i) = true → False := owing_carries
  simp only [handleInvoicePaid, Prog.bind_eq, Prog.pure_eq]
  refine Contract.wp_ofExcept_bind (fun _ => hI) fun _ _ => ?_
  refine carries.bind (calls_nowMillis fun _ => id) (fun hI => hI) hI fun now h hI => ?_
  refine Contract.wp_bind.mpr (Contract.wp_mapError.mpr (Contract.wp_call.mpr fun h₁ hrely inv =>
    ⟨trivial, ?_⟩))
  intro ch r s' hexec hok _
  have hread : ¬ Call.WritesInvoices (.payment (.getInvoiceByPaymentHash paymentHash)) :=
    not_not.mpr trivial
  have hI₁ := carries.call inv hread hexec hok (carries.rely hrely hI)
  refine Contract.wp_ofExcept.mpr ?_
  cases r with
  | error e => exact hI₁
  | ok stored =>
      cases stored with
      | none => exact Contract.wp_ret.mpr hI₁
      | some invoice =>
          obtain ⟨_, hrow⟩ := read_invoice hexec
          refine Contract.wp_bind.mpr (Contract.wp_mapError.mpr (Contract.wp_mono ?_
            (storePreimage_pays_receipt (paymentHash_of_get hrow) hI₁)))
          intro h r hI
          cases r with
          | error e => exact hI
          | ok _ =>
              exact carries.attempt_bind (calls_notifyWebhooks.mono sparesInvoices_of_notice) hI
                fun _ _ hI => Contract.wp_ret.mpr hI

theorem handleInvoicesPaid_pays_receipt {items : List PaidInvoice} {userPubkey : String}
    (hI : owes k (h.callsOf i) = true → False) :
    (receiptContract k).wp semantics ok i q (handleInvoicesPaid crates items userPubkey)
      (fun h _ => owes k (h.callsOf i) = true → False) h := by
  have carries : (receiptContract k).Carries semantics ok i q (fun c => ¬ c.WritesInvoices)
      fun h => owes k (h.callsOf i) = true → False := owing_carries
  simp only [handleInvoicesPaid, settleBatch, Prog.bind_eq, Prog.pure_eq]
  refine carries.bind (calls_nowMillis fun _ => id) (fun hI => hI) hI fun now h hI => ?_
  refine Contract.wp_ofExcept_bind (fun _ => hI) fun invoices _ => ?_
  refine carries.bind (Prog.calls_mapError.mpr (calls_payment (not_not.mpr
    (show PaymentOp.SparesInvoices (.filterKnownPaymentHashes _) from trivial)))) (fun hI => hI) hI
    fun known h hI => ?_
  split
  · exact Contract.wp_ret.mpr hI
  · refine Contract.wp_bind.mpr (Contract.wp_mapError.mpr (Contract.wp_mono
      (Q := fun h _ => owes k (h.callsOf i) = true → False) ?_ ?_))
    · intro h r hI
      cases r with
      | error e => exact hI
      | ok _ =>
          exact carries.attempt_bind (calls_notifyWebhooks.mono sparesInvoices_of_notice) hI
            fun _ _ hI => Contract.wp_ret.mpr hI
    · refine Contract.wp_bind.mpr (Contract.wp_call.mpr fun h₁ hrely _ => ⟨trivial, ?_⟩)
      intro ch r s' _ _ _
      have hI₁ : owes k (h₁.callsOf i) = true → False := carries.rely hrely hI
      refine Contract.wp_ofExcept.mpr ?_
      cases r with
      | error e => exact owing_push hI₁ fun hsettles => (by cases hsettles)
      | ok affected =>
          have hI₂ : owes k
            ((h₁.push ⟨i, .payment (.upsertInvoicesPaid _), .ok affected⟩ s').callsOf i)
              = true → k ∈ affected :=
            owing_push (fun howes => (hI₁ howes).elim) List.contains_iff_mem.mp
          show Contract.wp _ _ _ _ _ (if affected = [] then _ else _) _ _
          by_cases hnone : affected = []
          · rw [if_pos hnone]
            refine Contract.wp_ret.mpr fun howes => ?_
            have hmem := hI₂ howes
            rw [hnone] at hmem
            cases hmem
          · rw [if_neg hnone]
            simp only [enqueueZapReceipts, if_neg hnone, Prog.bind_eq]
            refine wp_nowMillis hI₂ fun now h hI => queueing_pays trivial (fun hk => ?_) hI
            exact List.any_eq_true.mpr ⟨_, List.mem_map_of_mem hk, decide_eq_true rfl⟩

theorem settle_pays_receipt {report : PaidReport} (hI : owes k (h.callsOf i) = true → False) :
    (receiptContract k).wp semantics ok i q (report.settle crates)
      (fun h _ => owes k (h.callsOf i) = true → False) h := by
  cases report with
  | invoicePaid => exact handleInvoicePaid_pays_receipt hI
  | invoicesPaid => exact handleInvoicesPaid_pays_receipt hI

end Pieces

/-! ## Every run -/

/-- Thread `i` has settled the payment, and has neither come to queueing its receipt nor
ended. -/
structure Between (k : String) (cfg : Settling) (i : Nat) : Prop where
  owes : owes k (cfg.hist.callsOf i) = true
  accepted : i < cfg.threads.length
  running : cfg.outcome i = none

section Runs

variable {k : String} {crates : Crates} {w : World} {cfg : Settling}

theorem callsOf_new {h : History} {i : Nat} (hnew : ∀ ev ∈ h.log, ev.thread < i) :
    h.callsOf i = [] :=
  List.filter_eq_nil_iff.mpr fun ev hev hi =>
    absurd (of_decide_eq_true hi) (Nat.ne_of_lt (hnew ev hev))

theorem receipt_outline (crates : Crates) : Outline (receiptContract k) semantics (ReceiptStored k)
    (PaidReport.settle crates) (fun i _ h _ => owes k (h.callsOf i) = true → False) where
  lawful := receiptContract_lawful
  post_stable := fun hrely _ hI => owing_rely hrely hI
  accept := fun {i q h} _ hnew => settle_pays_receipt fun howes => by
    rw [callsOf_new hnew] at howes
    cases howes

/-- Notifications are handled in any order and as often as they come, from a state
where the payment is not settled; a store call may fail at any time, and a handler
may stop at any call, but no insertion of a receipt for the payment fails before one
has succeeded. Then a settled payment has had its receipt queued, or a handler stands
between settling the payment and queueing its receipt. -/
theorem receipt_queued (hunpaid : w.preimageOf k = none)
    (hreach : Reachable semantics (ReceiptStored k) (PaidReport.settle crates) w cfg)
    (hsettled : (cfg.hist.state.preimageOf k).isSome) :
    (ReceiptQueued k cfg.hist.log ∧
      ∃ mid : Settling, Reachable semantics (ReceiptStored k) (PaidReport.settle crates) w mid ∧
        Steps semantics (ReceiptStored k) (PaidReport.settle crates) mid cfg ∧
        (mid.hist.state.payments.pendingZapReceipts.get k).isSome) ∨
      ∃ i, Between k cfg i := by
  have hinit : (receiptContract k).inv ⟨w, []⟩ := by
    intro hsettled
    have hsettled : (w.preimageOf k).isSome := hsettled
    rw [hunpaid] at hsettled
    cases hsettled
  have hcfg := Reachable.sound (receipt_outline crates) hinit hreach
  rcases hcfg.inv hsettled with hqueued | ⟨i, howes⟩
  · left
    refine ⟨hqueued, ?_⟩
    obtain ⟨⟨i, c, r⟩, hev, hqueues, hdone⟩ := hqueued
    obtain ⟨mid, mid', took⟩ := hreach.took hev
    obtain ⟨_, _, ch, _, hexec, _⟩ := took.call
    exact ⟨mid', took.before.tail took.step, took.after, pending_of_queued hexec hqueues hdone⟩
  · right
    refine ⟨i, howes, ?_, ?_⟩
    · -- a thread beyond the accepted ones has made no call
      rcases Nat.lt_or_ge i cfg.threads.length with hi | hi
      · exact hi
      · rw [callsOf_new fun ev hev => Nat.lt_of_lt_of_le (hcfg.bound ev hev) hi] at howes
        cases howes
    · -- a thread that has ended owes nothing
      cases hres : cfg.outcome i with
      | none => rfl
      | some res =>
          obtain ⟨_, _, hpaid⟩ := hcfg.finished hres
          exact (hpaid howes).elim

end Runs

instance (k : String) (log : List CallEvent) : Decidable (ReceiptQueued k log) :=
  inferInstanceAs (Decidable (∃ ev ∈ log, ev.call.queuesReceipt k = true ∧ storeFailed ev = false))

instance (k : String) (h : History) (ev : CallEvent) : Decidable (ReceiptStored k h ev) :=
  inferInstanceAs (Decidable (ev.call.queuesReceipt k = true → storeFailed ev = true →
    ReceiptQueued k h.log))

/-! ## Examples -/

section Example

abbrev SettleSchedule := List (Move PaidReport semantics)

def handles (report : PaidReport) : SettleSchedule := [.accept report]

/-- `n` calls of thread `i`. -/
def settleCalls (i n : Nat) (a : Answers := {}) : SettleSchedule :=
  List.replicate n (.call i a.choice)

/-- An unpaid invoice of a payee without a webhook. -/
def unpaidInvoice : Invoice where
  accountId := some "acct"
  provider := some .spark
  walletKind := some .btc
  walletId := none
  providerPaymentHash := none
  paymentHash := "aa"
  userPubkey := ownerKey.hex
  invoice := "lnbc1"
  preimage := none
  expiredAt := none
  invoiceExpiry := 2000
  createdAt := 1000000
  updatedAt := 1000000
  domain := none
  amountReceivedSat := none

def unpaidWorld : World :=
  { World.fresh ⟨1000000, startMillis_fits⟩ with
    payments := PaymentStore.empty.upsertInvoice unpaidInvoice }

abbrev settleRun (ok : History → CallEvent → Prop) [∀ h ev, Decidable (ok h ev)]
    (ms : SettleSchedule) : Option Settling :=
  replay semantics ok (PaidReport.settle payeeSigned.crates) ms (.initial unpaidWorld)

/-- The settlement upsert fails, and the retry succeeds. -/
def retried : SettleSchedule :=
  handles (.invoicePaid "aa" "00" (some 10)) ++ settleCalls 0 2 ++
    settleCalls 0 1 { fails := true } ++
    handles (.invoicePaid "aa" "00" (some 10)) ++ settleCalls 1 6

theorem receipt_queued_after_retry :
    ∃ cfg : Settling, cfg.outcome 0 = some (.error (.repository .general)) ∧
      cfg.outcome 1 = some (.ok ()) ∧ cfg.hist.state.preimageOf "aa" = some "00" ∧
      ReceiptQueued "aa" cfg.hist.log := by
  have hrun : (settleRun (ReceiptStored "aa") retried).any (fun cfg =>
      decide (cfg.threads.length = 2 ∧ cfg.outcome 0 = some (.error (.repository .general)) ∧
        cfg.outcome 1 = some (.ok ()) ∧ cfg.hist.state.preimageOf "aa" = some "00")) = true := by
    decide +kernel
  obtain ⟨cfg, hreach, _, hcfg⟩ := reachable_of_replay hrun
  obtain ⟨hthreads, hfailed, hdone, hsettled⟩ := of_decide_eq_true hcfg
  rcases receipt_queued (by decide +kernel) hreach (by rw [hsettled]; rfl) with
    ⟨hqueued, _⟩ | ⟨i, hbetween⟩
  · exact ⟨cfg, hfailed, hdone, hsettled, hqueued⟩
  · -- both calls have ended
    exfalso
    have hi := hbetween.accepted
    have hrunning := hbetween.running
    rw [hthreads] at hi
    rcases Nat.le_one_iff_eq_zero_or_eq_one.mp (Nat.le_of_lt_succ hi) with rfl | rfl
    · rw [hfailed] at hrunning
      cases hrunning
    · rw [hdone] at hrunning
      cases hrunning

/-- The preimage is stored, the insertion of the receipt fails; the payment is
reported again by itself and in a batch. -/
def receiptFails : SettleSchedule :=
  handles (.invoicePaid "aa" "00" (some 10)) ++ settleCalls 0 4 ++
    settleCalls 0 1 { fails := true } ++
    handles (.invoicePaid "aa" "00" (some 10)) ++ settleCalls 1 3 ++
    handles (.invoicesPaid [⟨"00", "lnbc1"⟩] ownerKey.hex) ++ settleCalls 2 4

/-- Both retries succeed, and no receipt was ever queued. -/
theorem retry_loses_receipt :
    ∃ cfg : Settling,
      Reachable semantics always (PaidReport.settle payeeSigned.crates) unpaidWorld cfg ∧
      (∀ i < cfg.threads.length, (cfg.outcome i).isSome) ∧
      cfg.outcome 0 = some (.error (.repository .general)) ∧ cfg.outcome 1 = some (.ok ()) ∧
      cfg.outcome 2 = some (.ok ()) ∧ cfg.hist.state.preimageOf "aa" = some "00" ∧
      ¬ ReceiptQueued "aa" cfg.hist.log ∧
      (cfg.hist.state.payments.pendingZapReceipts.get "aa").isNone := by
  have hrun : (settleRun always receiptFails).any (fun cfg =>
      decide ((∀ i < cfg.threads.length, (cfg.outcome i).isSome) ∧
        cfg.outcome 0 = some (.error (.repository .general)) ∧ cfg.outcome 1 = some (.ok ()) ∧
        cfg.outcome 2 = some (.ok ()) ∧ cfg.hist.state.preimageOf "aa" = some "00" ∧
        ¬ ReceiptQueued "aa" cfg.hist.log ∧
        (cfg.hist.state.payments.pendingZapReceipts.get "aa").isNone)) = true := by
    decide +kernel
  obtain ⟨cfg, hreach, _, hcfg⟩ := reachable_of_replay hrun
  exact ⟨cfg, hreach, of_decide_eq_true hcfg⟩

/-- The first call stops once the preimage is stored; the payment is reported again. -/
def settlementCut : SettleSchedule :=
  handles (.invoicePaid "aa" "00" (some 10)) ++ settleCalls 0 3 ++
    handles (.invoicePaid "aa" "00" (some 10)) ++ settleCalls 1 3

/-- No insertion has failed, the retry succeeds, and no receipt was queued. -/
theorem cut_loses_receipt :
    ∃ cfg : Settling,
      Reachable semantics (ReceiptStored "aa") (PaidReport.settle payeeSigned.crates) unpaidWorld
        cfg ∧
      cfg.outcome 1 = some (.ok ()) ∧ cfg.hist.state.preimageOf "aa" = some "00" ∧
      ¬ ReceiptQueued "aa" cfg.hist.log ∧ Between "aa" cfg 0 := by
  have hrun : (settleRun (ReceiptStored "aa") settlementCut).any (fun cfg =>
      decide (cfg.outcome 1 = some (.ok ()) ∧ cfg.hist.state.preimageOf "aa" = some "00" ∧
        ¬ ReceiptQueued "aa" cfg.hist.log ∧ owes "aa" (cfg.hist.callsOf 0) = true ∧
        0 < cfg.threads.length ∧ cfg.outcome 0 = none)) = true := by
    decide +kernel
  obtain ⟨cfg, hreach, _, hcfg⟩ := reachable_of_replay hrun
  obtain ⟨hdone, hsettled, hqueued, howes, haccepted, hrunning⟩ := of_decide_eq_true hcfg
  exact ⟨cfg, hreach, hdone, hsettled, hqueued, howes, haccepted, hrunning⟩

end Example

end BlinkLnurl
