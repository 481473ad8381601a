import BlinkLnurl.Repository.Payments

/-!
# What the payment operations do to a row

Three statements write invoice rows. Each is characterised by what it does to
the row of one payment hash: `get_upsertInvoice`, `get_markInvoiceExpired`, and
for a batch `PaidChange`, entry by entry. No statement deletes an invoice row.
-/

namespace BlinkLnurl

namespace PaymentStore

open Rel

variable {s : PaymentStore} {k : String}

/-! ## Invoices -/

/-- The row of a payment hash. -/
def invoiceOf (s : PaymentStore) (k : String) : Option Invoice := s.invoices.get k

theorem paymentHash_of_get {t : Table Invoice} {row : Invoice} (h : t.get k = some row) :
    row.paymentHash = k := Table.key_of_get h

theorem invoiceOf_upsertInvoice {invoice : Invoice} :
    (s.upsertInvoice invoice).invoiceOf k =
      if k = invoice.paymentHash then
        some ((s.invoiceOf k).elim invoice (overwriteInvoice invoice))
      else s.invoiceOf k := Table.get_upsert

/-- The expired row. -/
def expireInvoice (expiredAt : Int) (old : Invoice) : Invoice :=
  { old with expiredAt := some expiredAt, updatedAt := expiredAt }

theorem invoiceOf_markInvoiceExpired {hash : String} {expiredAt : Int} :
    (s.markInvoiceExpired hash expiredAt).invoiceOf k = s.invoiceOf k ∨
      ∃ old, s.invoiceOf k = some old ∧ k = hash ∧ old.preimage = none ∧
        (s.markInvoiceExpired hash expiredAt).invoiceOf k = some (expireInvoice expiredAt old) := by
  unfold invoiceOf markInvoiceExpired
  rw [Table.get_update]
  cases hget : s.invoices.get k with
  | none => exact Or.inl rfl
  | some old =>
      rw [Option.map_some, Table.onRow]
      split
      · rename_i hcond
        simp only [Bool.and_eq_true, decide_eq_true_eq, Option.isNone_iff_eq_none] at hcond
        exact Or.inr ⟨old, rfl, (paymentHash_of_get hget).symm.trans hcond.1, hcond.2, rfl⟩
      · exact Or.inl rfl

/-- What `upsert_invoices_paid` inserts. -/
def insertedInvoice (invoice : Invoice) : Invoice :=
  { invoice with domain := none, amountReceivedSat := none }

/-- What one entry of a batch does to the row of its hash. -/
def paidRow (invoice : Invoice) : Option Invoice → Invoice
  | none => insertedInvoice invoice
  | some old => if mayBeSettledBy invoice old then settleInvoice invoice old else old

theorem get_upsertInvoicePaid_self {invoice : Invoice} {t : Table Invoice} :
    (upsertInvoicePaid invoice t).2.get invoice.paymentHash =
      some (paidRow invoice (t.get invoice.paymentHash)) := by
  have hwritten : (t.upsert (insertedInvoice invoice) (settleInvoice invoice) fun _ => rfl).get
      invoice.paymentHash = some ((t.get invoice.paymentHash).elim (insertedInvoice invoice)
        (settleInvoice invoice)) :=
    Table.get_upsert_self (r := insertedInvoice invoice)
  unfold upsertInvoicePaid
  simp only
  cases hget : t.get invoice.paymentHash with
  | none =>
      rw [hget] at hwritten
      exact hwritten
  | some old =>
      rw [hget] at hwritten
      show (if mayBeSettledBy invoice old then _ else _ : Bool × Table Invoice).2.get _ =
        some (if mayBeSettledBy invoice old then settleInvoice invoice old else old)
      by_cases hmay : mayBeSettledBy invoice old = true
      · rw [if_pos hmay, if_pos hmay]
        exact hwritten
      · rw [if_neg hmay, if_neg hmay]
        exact hget

theorem get_upsertInvoicePaid_ne {invoice : Invoice} {t : Table Invoice}
    (hne : k ≠ invoice.paymentHash) : (upsertInvoicePaid invoice t).2.get k = t.get k := by
  have hwritten : (t.upsert (insertedInvoice invoice) (settleInvoice invoice) fun _ => rfl).get k =
      t.get k := Table.get_upsert_ne hne
  unfold upsertInvoicePaid
  simp only
  split
  · exact hwritten
  · split
    · exact hwritten
    · rfl

/-- A statement that returns no row changed nothing. -/
theorem unwritten_same {invoice : Invoice} {t : Table Invoice}
    (h : (upsertInvoicePaid invoice t).1 ≠ true) : (upsertInvoicePaid invoice t).2 = t := by
  unfold upsertInvoicePaid at h ⊢
  simp only at h ⊢
  split at h
  · exact absurd rfl h
  · split at h
    · exact absurd rfl h
    · rename_i hmay
      simp only [if_neg hmay]

/-- What a batch does to one row, entry by entry: it inserts the row, settles an
unsettled row, or passes it over. -/
inductive PaidChange (k : String) : List Invoice → Option Invoice → Option Invoice → Prop
  | done {row} : PaidChange k [] row row
  | insert {invoice rest new} : invoice.paymentHash = k →
      PaidChange k rest (some (insertedInvoice invoice)) new →
      PaidChange k (invoice :: rest) none new
  | settle {invoice rest old new} : invoice.paymentHash = k → old.preimage = none →
      PaidChange k rest (some (settleInvoice invoice old)) new →
      PaidChange k (invoice :: rest) (some old) new
  | skip {invoice rest old new} : PaidChange k rest old new → PaidChange k (invoice :: rest) old new

theorem paidChange_rows {invoices : List Invoice} {t : Table Invoice} :
    PaidChange k invoices (t.get k) ((upsertInvoicesPaidRows invoices t).2.get k) := by
  induction invoices generalizing t with
  | nil => exact .done
  | cons invoice rest ih =>
      show PaidChange k (invoice :: rest) (t.get k)
        ((upsertInvoicesPaidRows rest (upsertInvoicePaid invoice t).2).2.get k)
      have hrest := @ih (upsertInvoicePaid invoice t).2
      by_cases hk : k = invoice.paymentHash
      · subst hk
        rw [get_upsertInvoicePaid_self] at hrest
        cases hget : t.get invoice.paymentHash with
        | none =>
            rw [hget] at hrest
            exact .insert rfl hrest
        | some old =>
            rw [hget] at hrest
            by_cases hmay : mayBeSettledBy invoice old = true
            · refine .settle rfl ?_ ((if_pos hmay : paidRow invoice (some old) = _) ▸ hrest)
              simp only [mayBeSettledBy, Bool.and_eq_true, Option.isNone_iff_eq_none] at hmay
              exact hmay.2
            · exact .skip ((if_neg hmay : paidRow invoice (some old) = _) ▸ hrest)
      · -- an entry for another payment leaves the row alone
        rw [get_upsertInvoicePaid_ne hk] at hrest
        exact .skip hrest

theorem invoiceOf_upsertInvoicesPaid {invoices : List Invoice} :
    PaidChange k invoices (s.invoiceOf k) ((s.upsertInvoicesPaid invoices).2.invoiceOf k) :=
  paidChange_rows

/-- A fact about the row that each entry keeps, the batch keeps. -/
theorem PaidChange.preserves {invoices : List Invoice} {old new : Option Invoice}
    (J : Option Invoice → Prop) (h : PaidChange k invoices old new)
    (hinsert : ∀ i ∈ invoices, i.paymentHash = k → J none → J (some (insertedInvoice i)))
    (hsettle : ∀ i ∈ invoices, i.paymentHash = k → ∀ row : Invoice, J (some row) →
      row.preimage = none → J (some (settleInvoice i row)))
    (hJ : J old) : J new := by
  induction h with
  | done => exact hJ
  | insert hk _ ih =>
      exact ih (fun i hi => hinsert i (List.mem_cons_of_mem _ hi))
        (fun i hi => hsettle i (List.mem_cons_of_mem _ hi)) (hinsert _ List.mem_cons_self hk hJ)
  | settle hk hnone _ ih =>
      exact ih (fun i hi => hinsert i (List.mem_cons_of_mem _ hi))
        (fun i hi => hsettle i (List.mem_cons_of_mem _ hi))
        (hsettle _ List.mem_cons_self hk _ hJ hnone)
  | skip _ ih =>
      exact ih (fun i hi => hinsert i (List.mem_cons_of_mem _ hi))
        (fun i hi => hsettle i (List.mem_cons_of_mem _ hi)) hJ

/-- A row that a batch changes is among the hashes it reports. -/
theorem affected_or_same {invoices : List Invoice} {t : Table Invoice} :
    k ∈ (upsertInvoicesPaidRows invoices t).1 ∨
      (upsertInvoicesPaidRows invoices t).2.get k = t.get k := by
  induction invoices generalizing t with
  | nil => exact Or.inr rfl
  | cons invoice rest ih =>
      show k ∈ (if (upsertInvoicePaid invoice t).1 then
          invoice.paymentHash :: (upsertInvoicesPaidRows rest (upsertInvoicePaid invoice t).2).1
          else (upsertInvoicesPaidRows rest (upsertInvoicePaid invoice t).2).1) ∨
        (upsertInvoicesPaidRows rest (upsertInvoicePaid invoice t).2).2.get k = t.get k
      rcases @ih (upsertInvoicePaid invoice t).2 with hmem | hsame
      · left
        split
        · exact List.mem_cons_of_mem _ hmem
        · exact hmem
      · rw [hsame]
        by_cases hwritten : (upsertInvoicePaid invoice t).1 = true
        · by_cases hk : k = invoice.paymentHash
          · rw [if_pos hwritten, hk]
            exact Or.inl List.mem_cons_self
          · exact Or.inr (get_upsertInvoicePaid_ne hk)
        · exact Or.inr (by rw [unwritten_same hwritten])

/-! ## The queue -/

theorem insertPendingZapReceiptBatch_invoices {pending : List PendingZapReceipt} :
    (s.insertPendingZapReceiptBatch pending).invoices = s.invoices := by
  induction pending generalizing s with
  | nil => rfl
  | cons p rest ih => exact ih

theorem insertPendingZapReceiptBatch_zaps {pending : List PendingZapReceipt} :
    (s.insertPendingZapReceiptBatch pending).zaps = s.zaps := by
  induction pending generalizing s with
  | nil => rfl
  | cons p rest ih => exact ih

theorem insertPendingZapReceiptBatch_webhookDeliveries {pending : List PendingZapReceipt} :
    (s.insertPendingZapReceiptBatch pending).webhookDeliveries = s.webhookDeliveries := by
  induction pending generalizing s with
  | nil => rfl
  | cons p rest ih => exact ih

end PaymentStore

end BlinkLnurl
