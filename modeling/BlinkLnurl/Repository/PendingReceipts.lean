import BlinkLnurl.Repository.Payments

/-!
# What the queue operations do to an entry

One lemma for each operation says what it leaves under a payment hash. An
insertion keeps an entry that is there. A claim answers with entries that are due
and that nobody has claimed within the lease, and marks exactly these.
-/

namespace BlinkLnurl

open Rel

namespace PaymentStore

variable {s : PaymentStore} {k : String} {now : Int} {limit : Nat} {order : RowOrder}
  {item : PendingZapReceipt}

/-- The queue row of a payment hash. -/
def pendingOf (s : PaymentStore) (k : String) : Option PendingZapReceiptRow :=
  s.pendingZapReceipts.get k

theorem paymentHash_of_pendingOf {row : PendingZapReceiptRow} (h : s.pendingOf k = some row) :
    row.entry.paymentHash = k := Table.key_of_get h

/-! ## Insertion -/

theorem pendingOf_insert {pending : PendingZapReceipt} :
    (s.insertPendingZapReceipt pending).pendingOf k =
      if k = pending.paymentHash then some ((s.pendingOf k).getD ⟨pending, none⟩)
      else s.pendingOf k := by
  show (s.pendingZapReceipts.upsert _ _ _).get k = _
  rw [Table.get_upsert]
  show (if k = pending.paymentHash then _ else _) = _
  by_cases hk : k = pending.paymentHash
  · rw [if_pos hk, if_pos hk]
    unfold pendingOf
    cases s.pendingZapReceipts.get k <;> rfl
  · rw [if_neg hk, if_neg hk]
    rfl

/-- A batch keeps the entry, or queues the first of its entries for the hash. -/
theorem pendingOf_insertBatch {batch : List PendingZapReceipt} :
    (s.insertPendingZapReceiptBatch batch).pendingOf k = s.pendingOf k ∨
      s.pendingOf k = none ∧ ∃ pending ∈ batch, pending.paymentHash = k ∧
        (s.insertPendingZapReceiptBatch batch).pendingOf k = some ⟨pending, none⟩ := by
  induction batch generalizing s with
  | nil => exact Or.inl rfl
  | cons first rest ih =>
      show (insertPendingZapReceiptBatch rest _).pendingOf k = _ ∨ _ ∧ ∃ pending ∈ _, _ ∧
        (insertPendingZapReceiptBatch rest (s.insertPendingZapReceipt first)).pendingOf k = _
      have hfirst := @pendingOf_insert s k first
      rcases @ih (s.insertPendingZapReceipt first) with hrest | ⟨hnone, pending, hmem, hk, hrest⟩
      · rw [hrest, hfirst]
        by_cases hk : k = first.paymentHash
        · rw [if_pos hk]
          cases hold : s.pendingOf k with
          | some row => exact Or.inl rfl
          | none => exact Or.inr ⟨rfl, first, List.mem_cons_self, hk.symm, rfl⟩
        · rw [if_neg hk]
          exact Or.inl rfl
      · right
        rw [hfirst] at hnone
        by_cases hk' : k = first.paymentHash
        · rw [if_pos hk'] at hnone
          cases hnone
        · rw [if_neg hk'] at hnone
          exact ⟨hnone, pending, List.mem_cons_of_mem _ hmem, hk, hrest⟩

/-! ## Claims -/

/-- The entry is due, and no claim on it is left. -/
def mayBeClaimed (now : Int) (row : PendingZapReceiptRow) : Prop :=
  row.entry.nextRetryAt ≤ now ∧ row.claimedAt.getD 0 < now - claimLease

/-- A claim answers with rows that may be claimed. -/
theorem row_of_taken (h : item ∈ (s.takePendingZapReceipts now limit order).1) :
    ∃ row, s.pendingOf item.paymentHash = some row ∧ row.entry = item ∧ mayBeClaimed now row := by
  obtain ⟨row, hrow, rfl⟩ := List.mem_map.mp ((List.mem_insertionSort _).mp h)
  have hdue := (List.mem_insertionSort _).mp (List.mem_of_mem_take hrow)
  obtain ⟨hmem, hmay⟩ := Table.mem_select.mp hdue
  obtain ⟨hretry, hclaim⟩ := (Bool.and_eq_true _ _).mp hmay
  exact ⟨row, Table.get_eq_some.mpr ⟨hmem, rfl⟩, rfl, of_decide_eq_true hretry,
    of_decide_eq_true hclaim⟩

/-- The entry under a payment hash that a claim answers with. -/
def takenOf (k : String) (items : List PendingZapReceipt) : Option PendingZapReceipt :=
  items.find? fun item => item.paymentHash = k

/-- The entries answered with are claimed now, the others as before. -/
theorem pendingOf_take :
    (takenOf k (s.takePendingZapReceipts now limit order).1 = none ∧
      (s.takePendingZapReceipts now limit order).2.pendingOf k = s.pendingOf k) ∨
    ∃ row, s.pendingOf k = some row ∧ mayBeClaimed now row ∧
      takenOf k (s.takePendingZapReceipts now limit order).1 = some row.entry ∧
      (s.takePendingZapReceipts now limit order).2.pendingOf k =
        some { row with claimedAt := some now } := by
  have hafter : (s.takePendingZapReceipts now limit order).2.pendingOf k = (s.pendingOf k).map
      (Table.onRow (fun r => (s.takePendingZapReceipts now limit order).1.any fun e =>
          e.paymentHash = r.entry.paymentHash) fun r => { r with claimedAt := some now }) := by
    apply Table.get_update
    exact fun _ => rfl
  rw [hafter]
  cases htaken : takenOf k (s.takePendingZapReceipts now limit order).1 with
  | none =>
      refine Or.inl ⟨rfl, ?_⟩
      have hnot : ∀ e ∈ (s.takePendingZapReceipts now limit order).1, e.paymentHash ≠ k := by
        intro e he hk
        exact List.find?_eq_none.mp htaken e he (decide_eq_true hk)
      cases hrow : s.pendingOf k with
      | none => rfl
      | some row =>
          refine congrArg some (if_neg fun hany => ?_)
          obtain ⟨e, he, hk⟩ := List.any_eq_true.mp hany
          exact hnot e he ((of_decide_eq_true hk).trans (paymentHash_of_pendingOf hrow))
  | some item =>
      have hk : item.paymentHash = k := by
        have hfound := List.find?_some htaken
        exact of_decide_eq_true hfound
      subst hk
      have hitem := List.mem_of_find?_eq_some htaken
      obtain ⟨row, hrow, rfl, hmay⟩ := row_of_taken hitem
      refine Or.inr ⟨row, hrow, hmay, rfl, ?_⟩
      rw [hrow]
      exact congrArg some (if_pos (List.any_eq_true.mpr ⟨row.entry, hitem, decide_eq_true rfl⟩))

/-! ## Release -/

theorem pendingOf_retry {paymentHash : String} {retryCount nextRetryAt : Int} :
    (s.updatePendingZapReceiptRetry paymentHash retryCount nextRetryAt).pendingOf k =
      if k = paymentHash then
        (s.pendingOf k).map fun row => ⟨{ row.entry with retryCount, nextRetryAt }, none⟩
      else s.pendingOf k := by
  have hafter : (s.updatePendingZapReceiptRetry paymentHash retryCount nextRetryAt).pendingOf k =
      (s.pendingOf k).map (Table.onRow (fun r => decide (r.entry.paymentHash = paymentHash))
        fun r => ⟨{ r.entry with retryCount, nextRetryAt }, none⟩) := by
    apply Table.get_update
    exact fun _ => rfl
  rw [hafter]
  cases hrow : s.pendingOf k with
  | none => exact (ite_self none).symm
  | some row =>
      have hkey := paymentHash_of_pendingOf hrow
      by_cases hk : k = paymentHash
      · rw [if_pos hk]
        exact congrArg some (if_pos (decide_eq_true (hkey.trans hk)))
      · rw [if_neg hk]
        exact congrArg some (if_neg fun hsame => hk (hkey ▸ of_decide_eq_true hsame))

theorem pendingOf_delete {paymentHash : String} :
    (s.deletePendingZapReceipt paymentHash).pendingOf k =
      if k = paymentHash then none else s.pendingOf k := by
  have hafter : (s.deletePendingZapReceipt paymentHash).pendingOf k =
      (s.pendingOf k).filter fun r => !decide (r.entry.paymentHash = paymentHash) :=
    Table.get_delete
  rw [hafter]
  cases hrow : s.pendingOf k with
  | none => exact (ite_self none).symm
  | some row =>
      have hkey := paymentHash_of_pendingOf hrow
      rw [Option.filter_some, hkey]
      by_cases hk : k = paymentHash
      · rw [if_pos hk, decide_eq_true hk]
        rfl
      · rw [if_neg hk, decide_eq_false hk]
        rfl

end PaymentStore

end BlinkLnurl
