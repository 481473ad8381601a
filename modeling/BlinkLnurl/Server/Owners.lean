import BlinkLnurl.Repository.Metadata
import BlinkLnurl.Server.Deployment
import BlinkLnurl.Server.Effects
import BlinkLnurl.Server.PaymentWriters

/-!
# Owners of payments

Who owns the rows of a payment over a run. A callback writes the rows of a
payment hash that its provider has just drawn, for the recipient it resolved;
settlements and publishers write a row back for the owner it had; only a batch
inserts an invoice row for whoever sends it (`BatchOwned`).
-/

namespace BlinkLnurl

open Conc Rel PaymentStore

/-! ## What an operation does to owners -/

namespace PaymentStore

variable {s s' : PaymentStore} {k u : String}

theorem rowOf_iff :
    s.RowOf k u ↔ (s.invoices.get k).map Invoice.userPubkey = some u ∨
      (s.zaps.get k).map Zap.userPubkey = some u ∨
      (s.senderComments.get k).map LnurlSenderComment.userPubkey = some u := by
  simp only [Option.map_eq_some_iff]
  constructor
  · intro h
    cases h with
    | invoice row hrow hu => exact Or.inl ⟨row, hrow, hu⟩
    | zap row hrow hu => exact Or.inr (Or.inl ⟨row, hrow, hu⟩)
    | comment row hrow hu => exact Or.inr (Or.inr ⟨row, hrow, hu⟩)
  · intro h
    rcases h with ⟨row, hrow, hu⟩ | ⟨row, hrow, hu⟩ | ⟨row, hrow, hu⟩
    · exact .invoice row hrow hu
    · exact .zap row hrow hu
    · exact .comment row hrow hu

/-- A known payment has a row. -/
theorem rowOf_of_known (h : s.isKnown k = true) : ∃ u, s.RowOf k u := by
  simp only [isKnown, Bool.or_eq_true, Option.isSome_iff_exists] at h
  rcases h with (⟨row, hrow⟩ | ⟨row, hrow⟩) | ⟨row, hrow⟩
  · exact ⟨_, .invoice row hrow rfl⟩
  · exact ⟨_, .zap row hrow rfl⟩
  · exact ⟨_, .comment row hrow rfl⟩

theorem rowOf_of_zap {zap : Zap} (h : s.getZapByPaymentHash k = some zap) :
    s.RowOf zap.paymentHash zap.userPubkey := by
  have hk : zap.paymentHash = k := Table.key_of_get (t := s.zaps) h
  subst hk
  exact .zap zap h rfl

/-- The rows that were written are of the payments and owners in `W`. -/
structure OwnerChange (s s' : PaymentStore) (W : String → String → Prop) : Prop where
  new : ∀ k u, s'.RowOf k u → s.RowOf k u ∨ W k u
  kept : ∀ k u, s.RowOf k u → s'.RowOf k u ∨ ∃ v, W k v
  written : ∀ k v, W k v → s'.RowOf k v

/-- Nothing written. -/
theorem OwnerChange.same (hi : s'.invoices = s.invoices) (hz : s'.zaps = s.zaps)
    (hc : s'.senderComments = s.senderComments) : OwnerChange s s' fun _ _ => False := by
  have hrows : ∀ k u, s'.RowOf k u ↔ s.RowOf k u := by
    intro k u
    rw [rowOf_iff, rowOf_iff, hi, hz, hc]
  exact ⟨fun k u h => Or.inl ((hrows k u).mp h), fun k u h => Or.inl ((hrows k u).mpr h),
    fun _ _ h => h.elim⟩

/-- Table by table: the owner of a row stays, or the row was written. -/
theorem OwnerChange.of_tables {W : String → String → Prop}
    (hi : ∀ k, (s'.invoices.get k).map Invoice.userPubkey =
        (s.invoices.get k).map Invoice.userPubkey ∨
      ∃ v, (s'.invoices.get k).map Invoice.userPubkey = some v ∧ W k v)
    (hz : ∀ k, (s'.zaps.get k).map Zap.userPubkey = (s.zaps.get k).map Zap.userPubkey ∨
      ∃ v, (s'.zaps.get k).map Zap.userPubkey = some v ∧ W k v)
    (hc : ∀ k, (s'.senderComments.get k).map LnurlSenderComment.userPubkey =
        (s.senderComments.get k).map LnurlSenderComment.userPubkey ∨
      ∃ v, (s'.senderComments.get k).map LnurlSenderComment.userPubkey = some v ∧ W k v)
    (hw : ∀ k v, W k v → s'.RowOf k v) : OwnerChange s s' W := by
  refine ⟨fun k u h => ?_, fun k u h => ?_, hw⟩
  · have written : ∀ {owner : Option String}, owner = some u → (∃ v, owner = some v ∧ W k v) →
        W k u := by
      intro owner hu ⟨v, hv, hW⟩
      obtain rfl := Option.some.inj (hv.symm.trans hu)
      exact hW
    rcases rowOf_iff.mp h with h | h | h
    · rcases hi k with hsame | hwritten
      · exact Or.inl (rowOf_iff.mpr (Or.inl (hsame ▸ h)))
      · exact Or.inr (written h hwritten)
    · rcases hz k with hsame | hwritten
      · exact Or.inl (rowOf_iff.mpr (Or.inr (Or.inl (hsame ▸ h))))
      · exact Or.inr (written h hwritten)
    · rcases hc k with hsame | hwritten
      · exact Or.inl (rowOf_iff.mpr (Or.inr (Or.inr (hsame ▸ h))))
      · exact Or.inr (written h hwritten)
  · rcases rowOf_iff.mp h with h | h | h
    · rcases hi k with hsame | ⟨v, _, hW⟩
      · exact Or.inl (rowOf_iff.mpr (Or.inl (hsame.trans h)))
      · exact Or.inr ⟨v, hW⟩
    · rcases hz k with hsame | ⟨v, _, hW⟩
      · exact Or.inl (rowOf_iff.mpr (Or.inr (Or.inl (hsame.trans h))))
      · exact Or.inr ⟨v, hW⟩
    · rcases hc k with hsame | ⟨v, _, hW⟩
      · exact Or.inl (rowOf_iff.mpr (Or.inr (Or.inr (hsame.trans h))))
      · exact Or.inr ⟨v, hW⟩

theorem zapOwner_upsertZap {zap : Zap} :
    ((s.upsertZap zap).zaps.get k).map Zap.userPubkey =
      if k = zap.paymentHash then some zap.userPubkey else (s.zaps.get k).map Zap.userPubkey :=
  Table.map_get_upsert fun _ => rfl

theorem commentOwner_insert {comment : LnurlSenderComment} :
    ((s.insertLnurlSenderComment comment).senderComments.get k).map LnurlSenderComment.userPubkey =
      if k = comment.paymentHash then some comment.userPubkey
      else (s.senderComments.get k).map LnurlSenderComment.userPubkey :=
  Table.map_get_upsert fun _ => rfl

theorem invoiceOwner_upsertInvoice {invoice : Invoice} :
    ((s.upsertInvoice invoice).invoices.get k).map Invoice.userPubkey =
      if k = invoice.paymentHash then some invoice.userPubkey
      else (s.invoices.get k).map Invoice.userPubkey :=
  Table.map_get_upsert fun _ => rfl

theorem invoiceOwner_markInvoiceExpired {hash : String} {expiredAt : Int} :
    ((s.markInvoiceExpired hash expiredAt).invoices.get k).map Invoice.userPubkey =
      (s.invoices.get k).map Invoice.userPubkey := by
  rcases @invoiceOf_markInvoiceExpired s k hash expiredAt with hsame | ⟨old, hold, _, _, hnew⟩
  · exact congrArg _ hsame
  · unfold invoiceOf at hold hnew
    rw [hold, hnew]
    rfl

/-- A batch inserts the rows that are missing, each for the owner in its first
entry, and leaves the owners of the others. -/
theorem invoiceOwner_rows {invoices : List Invoice} {t : Table Invoice} :
    ((upsertInvoicesPaidRows invoices t).2.get k).map Invoice.userPubkey =
      ((t.get k).map Invoice.userPubkey).or
        ((invoices.find? fun i => i.paymentHash = k).map Invoice.userPubkey) := by
  induction invoices generalizing t with
  | nil => exact (Option.or_none).symm
  | cons invoice rest ih =>
      show ((upsertInvoicesPaidRows rest (upsertInvoicePaid invoice t).2).2.get k).map _ = _
      rw [ih]
      by_cases hk : k = invoice.paymentHash
      · have hfind : (invoice :: rest).find? (fun i => i.paymentHash = k) = some invoice := by
          rw [List.find?_cons, decide_eq_true hk.symm]
        rw [hfind]
        subst hk
        rw [get_upsertInvoicePaid_self]
        cases t.get invoice.paymentHash with
        | none => rfl
        | some old =>
            show some (if mayBeSettledBy invoice old then settleInvoice invoice old
              else old).userPubkey = some old.userPubkey
            split <;> rfl
      · have hfind : (invoice :: rest).find? (fun i => i.paymentHash = k) =
            rest.find? fun i => i.paymentHash = k := by
          rw [List.find?_cons, decide_eq_false (Ne.symm hk)]
        rw [hfind, get_upsertInvoicePaid_ne hk]

end PaymentStore

/-- The operation writes a row of the payment hash `k` for `u`. -/
def PaymentOp.WritesFor (s : PaymentStore) : PaymentOp → String → String → Prop
  | .upsertZap zap, k, u => k = zap.paymentHash ∧ zap.userPubkey = u
  | .insertLnurlSenderComment comment, k, u => k = comment.paymentHash ∧ comment.userPubkey = u
  | .upsertInvoice invoice, k, u => k = invoice.paymentHash ∧ invoice.userPubkey = u
  | .upsertInvoicesPaid invoices, k, u => s.invoices.get k = none ∧
      (invoices.find? fun i => i.paymentHash = k).map Invoice.userPubkey = some u
  | _, _, _ => False

theorem PaymentOp.run_owners {now : Int} {identifiers : Table AccountIdentifier}
    {order : PaymentStore.RowOrder}
    {s : PaymentStore} (op : PaymentOp) :
    OwnerChange s (op.run now identifiers order s).2 (op.WritesFor s) := by
  cases op with
  | upsertZap zap =>
      refine .of_tables (fun _ => Or.inl rfl) (fun k => ?_) (fun _ => Or.inl rfl) ?_
      · by_cases hk : k = zap.paymentHash
        · exact Or.inr ⟨_, zapOwner_upsertZap.trans (if_pos hk), hk, rfl⟩
        · exact Or.inl (zapOwner_upsertZap.trans (if_neg hk))
      · intro k v ⟨hk, hv⟩
        exact rowOf_iff.mpr (Or.inr (Or.inl (hv ▸ zapOwner_upsertZap.trans (if_pos hk))))
  | insertLnurlSenderComment comment =>
      refine .of_tables (fun _ => Or.inl rfl) (fun _ => Or.inl rfl) (fun k => ?_) ?_
      · by_cases hk : k = comment.paymentHash
        · exact Or.inr ⟨_, commentOwner_insert.trans (if_pos hk), hk, rfl⟩
        · exact Or.inl (commentOwner_insert.trans (if_neg hk))
      · intro k v ⟨hk, hv⟩
        exact rowOf_iff.mpr (Or.inr (Or.inr (hv ▸ commentOwner_insert.trans (if_pos hk))))
  | upsertInvoice invoice =>
      refine .of_tables (fun k => ?_) (fun _ => Or.inl rfl) (fun _ => Or.inl rfl) ?_
      · by_cases hk : k = invoice.paymentHash
        · exact Or.inr ⟨_, invoiceOwner_upsertInvoice.trans (if_pos hk), hk, rfl⟩
        · exact Or.inl (invoiceOwner_upsertInvoice.trans (if_neg hk))
      · intro k v ⟨hk, hv⟩
        exact rowOf_iff.mpr (Or.inl (hv ▸ invoiceOwner_upsertInvoice.trans (if_pos hk)))
  | upsertInvoicesPaid invoices =>
      have howner : ∀ k, ((s.upsertInvoicesPaid invoices).2.invoices.get k).map Invoice.userPubkey =
          ((s.invoices.get k).map Invoice.userPubkey).or
            ((invoices.find? fun i => i.paymentHash = k).map Invoice.userPubkey) :=
        fun k => invoiceOwner_rows
      refine .of_tables (fun k => ?_) (fun _ => Or.inl rfl) (fun _ => Or.inl rfl) ?_
      · cases hrow : s.invoices.get k with
        | some row =>
            left
            exact (howner k).trans (by rw [hrow]; rfl)
        | none =>
            have hnew := howner k
            rw [hrow, Option.map_none, Option.none_or] at hnew
            cases hentry : (invoices.find? fun i => i.paymentHash = k).map Invoice.userPubkey with
            | none => exact Or.inl (hnew.trans hentry)
            | some v => exact Or.inr ⟨v, hnew.trans hentry, hrow, hentry⟩
      · intro k v ⟨hrow, hentry⟩
        refine rowOf_iff.mpr (Or.inl ((howner k).trans ?_))
        rw [hrow, Option.map_none, Option.none_or, hentry]
  | markInvoiceExpired hash expiredAt =>
      exact .of_tables (fun _ => Or.inl invoiceOwner_markInvoiceExpired) (fun _ => Or.inl rfl)
        (fun _ => Or.inl rfl) fun _ _ h => h.elim
  | insertPendingZapReceiptBatch pending =>
      have hsame : (s.insertPendingZapReceiptBatch pending).zaps = s.zaps ∧
          (s.insertPendingZapReceiptBatch pending).senderComments = s.senderComments := by
        induction pending generalizing s with
        | nil => exact ⟨rfl, rfl⟩
        | cons p rest ih => exact ih
      exact .same insertPendingZapReceiptBatch_invoices hsame.1 hsame.2
  | _ => exact .same rfl rfl rfl

/-- The call has written a row of the payment hash `k` for `u`. -/
def WroteFor (s : PaymentStore) : CallEvent → String → String → Prop
  | ⟨_, .payment op, .ok _⟩, k, u => op.WritesFor s k u
  | _, _, _ => False

theorem PaymentOp.WritesFor.unique {s : PaymentStore} {op : PaymentOp} {k u v : String}
    (hu : op.WritesFor s k u) (hv : op.WritesFor s k v) : u = v := by
  cases op with
  | upsertZap zap => exact hu.2.symm.trans hv.2
  | insertLnurlSenderComment comment => exact hu.2.symm.trans hv.2
  | upsertInvoice invoice => exact hu.2.symm.trans hv.2
  | upsertInvoicesPaid invoices => exact Option.some.inj (hu.2.symm.trans hv.2)
  | _ => exact hu.elim

theorem WroteFor.op {s : PaymentStore} {i : Nat} {c : Call} {r : Reply c} {k u : String}
    (h : WroteFor s ⟨i, c, r⟩ k u) : ∃ op, c = .payment op ∧ op.WritesFor s k u := by
  unfold WroteFor at h
  split at h
  · rename_i hev
    exact ⟨_, (Event.mk.inj hev).2.1, h⟩
  · exact h.elim

theorem exec_owners {w w' : World} {i : Nat} {c : Call} {ch : Choice c} {r : Reply c}
    (h : exec c ch w = some (r, w')) :
    OwnerChange w.payments w'.payments (WroteFor w.payments ⟨i, c, r⟩) := by
  cases c with
  | payment op =>
      rcases execPayment_cases (exec_payment h) with ⟨rfl, e, rfl⟩ | ⟨out, rfl, rfl, rfl⟩
      · exact .same rfl rfl rfl
      · exact op.run_owners
  | account op =>
      rcases exec_payments h with hsame | ⟨_, hop⟩
      · exact .same (by rw [hsame]) (by rw [hsame]) (by rw [hsame])
      · exact nomatch hop
  | env op =>
      rw [(exec_env h).1]
      exact .same rfl rfl rfl

/-! ## Drawn payment hashes -/

/-- The payment hash of an invoice that a provider has answered with. -/
def drawnHash (crates : Crates) : CallEvent → Option String
  | ⟨_, .env (.createInvoice _), .ok invoice⟩ =>
      (crates.bolt11 invoice.bolt11).toOption.map Bolt11Invoice.paymentHash
  | _ => none

/-- Thread `i` was given an invoice with the payment hash `k`. -/
def Drew (crates : Crates) (i : Nat) (k : String) (log : List CallEvent) : Prop :=
  ∃ ev ∈ log, ev.thread = i ∧ drawnHash crates ev = some k

/-- Providers answer with a payment hash that they have not answered with
before. -/
def DrawsFresh (crates : Crates) (h : History) (ev : CallEvent) : Prop :=
  ∀ k, drawnHash crates ev = some k → ∀ ev' ∈ h.log, drawnHash crates ev' ≠ some k

/-- The batch that a call has committed. -/
def paidBatch : CallEvent → Option (List Invoice)
  | ⟨_, .payment (.upsertInvoicesPaid invoices), .ok _⟩ => some invoices
  | _ => none

/-- A batch inserts no invoice row for a payment that another pubkey has a zap
or a comment of. -/
def BatchOwned (h : History) (ev : CallEvent) : Prop :=
  ∀ invoices, paidBatch ev = some invoices → ∀ k u,
    (PaymentOp.upsertInvoicesPaid invoices).WritesFor h.state.payments k u →
      ∀ v, h.state.payments.RowOf k v → v = u

/-- A step of a run in which payments keep their owners. -/
def KeepsOwners (crates : Crates) (h : History) (ev : CallEvent) : Prop :=
  DrawsFresh crates h ev ∧ BatchOwned h ev

/-! ## The contract -/

/-- Payments have one owner, and their hashes were drawn by one thread. -/
structure Owned (crates : Crates) (h : History) : Prop where
  agree : h.state.payments.OwnersAgree
  drawn : ∀ k u, h.state.payments.RowOf k u → ∃ i, Drew crates i k h.log
  once : ∀ i j k, Drew crates i k h.log → Drew crates j k h.log → i = j

/-- Rows keep their owners, and only thread `i` decides who owns what it has
drawn. -/
structure SameOwners (crates : Crates) (i : Nat) (h h' : History) : Prop where
  rows : ∀ k u, h.state.payments.RowOf k u → h'.state.payments.RowOf k u
  reserved : ∀ k u, Drew crates i k h.log → (∀ v, h.state.payments.RowOf k v → v = u) →
    ∀ v, h'.state.payments.RowOf k v → v = u
  log : h.log <+: h'.log

/-- A row is written for a payment that the thread has drawn or that is known,
and, but for batches, for its owner. -/
structure MayWriteFor (crates : Crates) (i : Nat) (h : History) (op : PaymentOp) : Prop where
  known : ∀ k u, op.WritesFor h.state.payments k u →
    Drew crates i k h.log ∨ ∃ v, h.state.payments.RowOf k v
  same : (∀ invoices, op ≠ .upsertInvoicesPaid invoices) → ∀ k u v,
    op.WritesFor h.state.payments k u → h.state.payments.RowOf k v → v = u

def ownerContract (crates : Crates) : Contract Request Call Reply World where
  inv := Owned crates
  rely := SameOwners crates
  guard i _ h c := ∀ op, c = .payment op → MayWriteFor crates i h op

section Law

variable {crates : Crates} {h : History} {i j : Nat} {q : Request} {c : Call} {ch : Choice c}
  {r : Reply c} {w' : World} {k u v : String} {log log' : List CallEvent}

theorem Drew.mono (hlog : log <+: log') (hdrew : Drew crates i k log) : Drew crates i k log' := by
  obtain ⟨ev, hev, hthread, hk⟩ := hdrew
  exact ⟨ev, hlog.subset hev, hthread, hk⟩

theorem drew_concat {ev : CallEvent} :
    Drew crates i k (log ++ [ev]) ↔
      Drew crates i k log ∨ ev.thread = i ∧ drawnHash crates ev = some k := by
  constructor
  · intro ⟨e, he, hthread, hk⟩
    rcases List.mem_append.mp he with he | he
    · exact Or.inl ⟨e, he, hthread, hk⟩
    · rw [List.mem_singleton.mp he] at hthread hk
      exact Or.inr ⟨hthread, hk⟩
  · intro h
    rcases h with hdrew | ⟨hthread, hk⟩
    · exact hdrew.mono (List.prefix_append _ _)
    · exact ⟨ev, List.mem_append_right _ (List.mem_singleton_self _), hthread, hk⟩

/-- What is written is written for the owner. -/
theorem owner_of_wrote (hguard : (ownerContract crates).guard i q h c)
    (hbatch : BatchOwned h ⟨i, c, r⟩) (hwrote : WroteFor h.state.payments ⟨i, c, r⟩ k u)
    (hrow : h.state.payments.RowOf k v) : v = u := by
  obtain ⟨op, rfl, hwrites⟩ := hwrote.op
  by_cases hop : ∃ invoices, op = .upsertInvoicesPaid invoices
  · obtain ⟨invoices, rfl⟩ := hop
    cases r with
    | ok a => exact hbatch invoices rfl k u hwrites v hrow
    | error e => exact hwrote.elim
  · exact (hguard op rfl).same
      (fun invoices hinvoices => hop ⟨invoices, hinvoices⟩) k u v hwrites hrow

section Step

variable (inv : Owned crates h) (hguard : (ownerContract crates).guard i q h c)
  (hbatch : BatchOwned h ⟨i, c, r⟩) (hexec : exec c ch h.state = some (r, w'))

include hguard hbatch hexec

/-- Rows keep their owners. -/
theorem rowOf_step (hrow : h.state.payments.RowOf k u) : w'.payments.RowOf k u := by
  have change := exec_owners (i := i) hexec
  rcases change.kept k u hrow with hkept | ⟨v, hwrote⟩
  · exact hkept
  · rw [owner_of_wrote hguard hbatch hwrote hrow]
    exact change.written k v hwrote

include inv

theorem ownersAgree_step : w'.payments.OwnersAgree := by
  have change := exec_owners (i := i) hexec
  intro k u v hu hv
  rcases change.new k u hu with hu | hu
  · rcases change.new k v hv with hv | hv
    · exact inv.agree k u v hu hv
    · exact owner_of_wrote hguard hbatch hv hu
  · rcases change.new k v hv with hv | hv
    · exact (owner_of_wrote hguard hbatch hu hv).symm
    · obtain ⟨op, rfl, hwrites⟩ := hu.op
      obtain ⟨op', hop, hwrites'⟩ := hv.op
      obtain rfl := Call.payment.inj hop
      exact hwrites.unique hwrites'

theorem Owned.call (hfresh : DrawsFresh crates h ⟨i, c, r⟩) :
    Owned crates (h.push ⟨i, c, r⟩ w') where
  agree := ownersAgree_step inv hguard hbatch hexec
  drawn := fun k u hu => by
    have hprefix : h.log <+: (h.push ⟨i, c, r⟩ w').log := List.prefix_append _ _
    rcases (exec_owners (i := i) hexec).new k u hu with hold | hwrote
    · obtain ⟨j, hdrew⟩ := inv.drawn k u hold
      exact ⟨j, hdrew.mono hprefix⟩
    · obtain ⟨op, rfl, hwrites⟩ := hwrote.op
      rcases (hguard op rfl).known k u hwrites with hdrew | ⟨v, hrow⟩
      · exact ⟨i, hdrew.mono hprefix⟩
      · obtain ⟨j, hdrew⟩ := inv.drawn k v hrow
        exact ⟨j, hdrew.mono hprefix⟩
  once := fun a b k ha hb => by
    rcases drew_concat.mp ha with hold | ⟨hthread, hnew⟩
    · rcases drew_concat.mp hb with hold' | ⟨_, hnew'⟩
      · exact inv.once a b k hold hold'
      · obtain ⟨ev, hev, _, hk⟩ := hold
        exact absurd hk (hfresh k hnew' ev hev)
    · rcases drew_concat.mp hb with ⟨ev, hev, _, hk⟩ | ⟨hthread', _⟩
      · exact absurd hk (hfresh k hnew ev hev)
      · exact hthread.symm.trans hthread'

/-- No other thread decides who owns what a thread has drawn. -/
theorem reserved_step (hne : j ≠ i) (hdrew : Drew crates j k h.log)
    (hrows : ∀ v, h.state.payments.RowOf k v → v = u) (hnew : w'.payments.RowOf k v) : v = u := by
  rcases (exec_owners (i := i) hexec).new k v hnew with hold | hwrote
  · exact hrows v hold
  · obtain ⟨op, rfl, hwrites⟩ := hwrote.op
    rcases (hguard op rfl).known k v hwrites with hdrew' | ⟨x, hrow⟩
    · exact absurd (inv.once j i k hdrew hdrew') hne
    · rw [← hrows x hrow]
      exact (owner_of_wrote hguard hbatch hwrote hrow).symm

end Step

theorem ownerContract_lawful :
    (ownerContract crates).Lawful semantics (KeepsOwners crates) where
  refl := fun _ _ => ⟨fun _ _ h => h, fun _ _ _ h => h, List.prefix_rfl⟩
  trans := fun h₁ h₂ =>
    ⟨fun k u h => h₂.rows k u (h₁.rows k u h),
      fun k u hdrew h => h₂.reserved k u (hdrew.mono h₁.log) (h₁.reserved k u hdrew h),
      h₁.log.trans h₂.log⟩
  call := fun inv hguard hexec hok => inv.call hguard hok.2 hexec hok.1
  tick := fun {h t s'} inv htick => by
    obtain ⟨_, hpayments, _⟩ := tick_cases htick
    refine ⟨?_, ?_, inv.once⟩
    · show s'.payments.OwnersAgree
      rw [hpayments]
      exact inv.agree
    · show ∀ k u, s'.payments.RowOf k u → _
      rw [hpayments]
      exact inv.drawn
  ticks := fun {j h t s'} _ htick => by
    obtain ⟨_, hpayments, _⟩ := tick_cases htick
    refine ⟨?_, ?_, List.prefix_rfl⟩
    · show ∀ k u, _ → s'.payments.RowOf k u
      rw [hpayments]
      exact fun _ _ h => h
    · show ∀ k u, _ → _ → ∀ v, s'.payments.RowOf k v → _
      rw [hpayments]
      exact fun _ _ _ h => h
  others := fun inv hguard hexec hok hne =>
    ⟨fun _ _ hrow => rowOf_step hguard hok.2 hexec hrow,
      fun _ _ hdrew hrows _ hnew => reserved_step inv hguard hok.2 hexec hne hdrew hrows hnew,
      List.prefix_append _ _⟩

end Law

end BlinkLnurl
