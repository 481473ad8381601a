import BlinkLnurl.Repository.PaymentEffects
import BlinkLnurl.Server.Deployment

/-!
# Batch settlement on the two backends

`upsert_invoices_paid` of `postgresql/repository.rs` hands the whole batch to
one `INSERT … SELECT FROM UNNEST … ON CONFLICT DO UPDATE`. Its clauses are those
of the SQLite statement, but a PostgreSQL statement may not write one row twice:
a tuple that meets a row which the same statement has written fails the
statement. SQLite runs one statement for each entry, so there a repeated entry
finds the row settled and is passed over. And the columns of PostgreSQL are
bounded where those of SQLite are plain text, so there a preimage of more than
32 bytes fails the statement.
-/

namespace BlinkLnurl

open Rel

namespace PaymentStore

variable {s : PaymentStore} {k : String}

/-- What a `VARCHAR(width)` column takes in: a longer value fails the statement, unless the
excess is spaces, which are cut off. -/
def pgVarchar (width : Nat) (value : String) : Option String :=
  if value.toList.length ≤ width then some value
  else if (value.toList.drop width).all (fun c => c = ' ') then
    some (String.ofList (value.toList.take width))
  else none

/-- The same for a column that may be `NULL`. -/
def pgNullableVarchar (width : Nat) : Option String → Option (Option String)
  | none => some none
  | some value => (pgVarchar width value).map some

/-- The tuple as the columns of `invoices` take it in. -/
def pgTuple (invoice : Invoice) : Option Invoice := do
  let paymentHash ← pgVarchar 64 invoice.paymentHash
  let walletId ← pgNullableVarchar 255 invoice.walletId
  let providerPaymentHash ← pgNullableVarchar 255 invoice.providerPaymentHash
  let userPubkey ← pgVarchar 66 invoice.userPubkey
  let preimage ← pgNullableVarchar 64 invoice.preimage
  return { invoice with paymentHash, walletId, providerPaymentHash, userPubkey, preimage }

/-- The tuples of the statement in order; `written` are the hashes of the rows
the statement has written so far. -/
def pgUpsertInvoicesPaidRows :
    List Invoice → (written : List String) → Table Invoice → Option (List String × Table Invoice)
  | [], _, invoices => some ([], invoices)
  | invoice :: rest, written, invoices =>
      match pgTuple invoice with
      | none => none
      | some tuple =>
          if tuple.paymentHash ∈ written then none
          else
            let (writes, invoices) := upsertInvoicePaid tuple invoices
            if writes then
              (pgUpsertInvoicesPaidRows rest (tuple.paymentHash :: written) invoices).map
                fun (affected, invoices) => (tuple.paymentHash :: affected, invoices)
            else pgUpsertInvoicesPaidRows rest written invoices

def pgUpsertInvoicesPaid (invoices : List Invoice) (s : PaymentStore) :
    Except RepositoryError (List String × PaymentStore) :=
  if invoices = [] then .ok ([], s)
  else
    match pgUpsertInvoicesPaidRows invoices [] s.invoices with
    | none => .error .general
    | some (affected, rows) => .ok (affected, { s with invoices := rows })

/-! ## Columns -/

/-- Every value is within the width of its column. -/
structure FitsColumns (i : Invoice) : Prop where
  paymentHash : i.paymentHash.toList.length ≤ 64
  walletId : ∀ w ∈ i.walletId, w.toList.length ≤ 255
  providerPaymentHash : ∀ k ∈ i.providerPaymentHash, k.toList.length ≤ 255
  userPubkey : i.userPubkey.toList.length ≤ 66
  preimage : ∀ p ∈ i.preimage, p.toList.length ≤ 64

/-- No value holds a space. -/
structure Unpadded (i : Invoice) : Prop where
  paymentHash : ' ' ∉ i.paymentHash.toList
  walletId : ∀ w ∈ i.walletId, ' ' ∉ w.toList
  providerPaymentHash : ∀ k ∈ i.providerPaymentHash, ' ' ∉ k.toList
  userPubkey : ' ' ∉ i.userPubkey.toList
  preimage : ∀ p ∈ i.preimage, ' ' ∉ p.toList

theorem pgVarchar_of_fits {width : Nat} {value : String} (h : value.toList.length ≤ width) :
    pgVarchar width value = some value := by
  rw [pgVarchar, if_pos h]

theorem pgNullableVarchar_of_fits {width : Nat} {value : Option String}
    (h : ∀ v ∈ value, v.toList.length ≤ width) : pgNullableVarchar width value = some value := by
  cases value with
  | none => rfl
  | some v => rw [pgNullableVarchar, pgVarchar_of_fits (h v rfl), Option.map_some]

/-- What is taken in without spaces was not too long. -/
theorem fits_of_pgVarchar {width : Nat} {value taken : String} (hspace : ' ' ∉ value.toList)
    (h : pgVarchar width value = some taken) : value.toList.length ≤ width := by
  unfold pgVarchar at h
  split at h
  · assumption
  · rename_i hlong
    split at h
    · rename_i hall
      obtain ⟨c, rest, hdrop⟩ := List.exists_cons_of_ne_nil
        (List.drop_eq_nil_iff.not.mpr hlong)
      have hc : c ∈ value.toList.drop width := hdrop ▸ List.mem_cons_self
      have hblank : c = ' ' := of_decide_eq_true (List.all_eq_true.mp hall c hc)
      exact absurd (hblank ▸ List.mem_of_mem_drop hc) hspace
    · cases h

theorem fits_of_pgNullableVarchar {width : Nat} {value taken : Option String}
    (hspace : ∀ v ∈ value, ' ' ∉ v.toList) (h : pgNullableVarchar width value = some taken) :
    ∀ v ∈ value, v.toList.length ≤ width := by
  intro v hv
  obtain rfl := Option.mem_def.mp hv
  obtain ⟨v', hv', _⟩ := Option.map_eq_some_iff.mp h
  exact fits_of_pgVarchar (hspace v rfl) hv'

theorem pgTuple_of_fits {i : Invoice} (h : FitsColumns i) : pgTuple i = some i := by
  simp only [pgTuple, pgVarchar_of_fits h.paymentHash, pgVarchar_of_fits h.userPubkey,
    pgNullableVarchar_of_fits h.walletId, pgNullableVarchar_of_fits h.providerPaymentHash,
    pgNullableVarchar_of_fits h.preimage, Option.bind_eq_bind, Option.bind_some, Option.pure_def]

theorem fits_of_pgTuple {i tuple : Invoice} (hspace : Unpadded i) (h : pgTuple i = some tuple) :
    FitsColumns i := by
  obtain ⟨_, hhash, h⟩ := Option.bind_eq_some_iff.mp h
  obtain ⟨_, hwallet, h⟩ := Option.bind_eq_some_iff.mp h
  obtain ⟨_, hprovider, h⟩ := Option.bind_eq_some_iff.mp h
  obtain ⟨_, hpayee, h⟩ := Option.bind_eq_some_iff.mp h
  obtain ⟨_, hpreimage, _⟩ := Option.bind_eq_some_iff.mp h
  exact {
    paymentHash := fits_of_pgVarchar hspace.paymentHash hhash
    walletId := fits_of_pgNullableVarchar hspace.walletId hwallet
    providerPaymentHash := fits_of_pgNullableVarchar hspace.providerPaymentHash hprovider
    userPubkey := fits_of_pgVarchar hspace.userPubkey hpayee
    preimage := fits_of_pgNullableVarchar hspace.preimage hpreimage }

/-- The entries that `handle_invoices_paid` builds: hashes, keys and preimages are hexadecimal. -/
theorem unpadded_of_paidInvoices {crates : Crates} {pubkey : PublicKey} {now : Int}
    {items : List PaidInvoice} {invoices : List Invoice}
    (hhex : ∀ text bytes, crates.hexDecode text = .ok bytes → ∀ c ∈ text.toList, isHexChar c = true)
    (hsha : ∀ bytes, ' ' ∉ (crates.sha256 bytes).toList)
    (h : paidInvoices crates pubkey.hex now items = .ok invoices) : ∀ i ∈ invoices, Unpadded i := by
  intro i hi
  obtain ⟨item, _, hitem⟩ := mem_paidInvoices h hi
  obtain ⟨k, hk, row⟩ := paidInvoice_ok hitem
  unfold preimageHash at hk
  cases hbytes : crates.hexDecode item.preimage with
  | error e =>
      rw [hbytes] at hk
      cases hk
  | ok bytes =>
      rw [hbytes] at hk
      obtain rfl := Except.ok.inj hk
      exact {
        paymentHash := by
          rw [row.paymentHash]
          exact hsha bytes
        walletId := by
          rw [row.walletId]
          exact fun _ hw => (by cases hw)
        providerPaymentHash := by
          rw [row.providerPaymentHash]
          exact fun _ hk => (by cases hk)
        userPubkey := by
          rw [row.userPubkey]
          exact fun hmem => absurd (pubkey.digits _ hmem) (by decide)
        preimage := by
          rw [row.preimage]
          intro p hp hmem
          obtain rfl := Option.some.inj hp
          exact absurd (hhex _ _ hbytes _ hmem) (by decide) }

/-! ## Rows -/

/-- Whether an entry of a batch writes the row of its hash: the row is not
there, or it is unsettled and belongs to the caller. -/
def writesRow (invoice : Invoice) : Option Invoice → Bool
  | none => true
  | some old => mayBeSettledBy invoice old

theorem upsertInvoicePaid_written {invoice : Invoice} {t : Table Invoice} :
    (upsertInvoicePaid invoice t).1 = writesRow invoice (t.get invoice.paymentHash) := by
  unfold upsertInvoicePaid
  simp only
  cases t.get invoice.paymentHash with
  | none => rfl
  | some old =>
      show (if mayBeSettledBy invoice old then _ else _ : Bool × Table Invoice).1 =
        mayBeSettledBy invoice old
      by_cases hmay : mayBeSettledBy invoice old = true
      · rw [if_pos hmay, hmay]
      · rw [if_neg hmay, Bool.eq_false_iff.mpr hmay]

/-- No entry that writes its row is followed by one for the same hash. -/
def WritesRowsOnce (s : PaymentStore) (invoices : List Invoice) : Prop :=
  invoices.Pairwise fun a b =>
    writesRow a (s.invoiceOf a.paymentHash) = true → b.paymentHash ≠ a.paymentHash

instance (s : PaymentStore) (invoices : List Invoice) : Decidable (s.WritesRowsOnce invoices) :=
  inferInstanceAs (Decidable (List.Pairwise _ _))

/-- The statement succeeds if every entry fits and none meets a written row, and then does
what the loop does. -/
theorem pgRows_eq {invoices : List Invoice} {written : List String} {t : Table Invoice}
    (hfits : ∀ i ∈ invoices, FitsColumns i) (hnew : ∀ i ∈ invoices, i.paymentHash ∉ written)
    (honce : invoices.Pairwise fun a b =>
      writesRow a (t.get a.paymentHash) = true → b.paymentHash ≠ a.paymentHash) :
    pgUpsertInvoicesPaidRows invoices written t = some (upsertInvoicesPaidRows invoices t) := by
  induction invoices generalizing written t with
  | nil => rfl
  | cons invoice rest ih =>
      obtain ⟨hhead, htail⟩ := List.pairwise_cons.mp honce
      rw [pgUpsertInvoicesPaidRows, pgTuple_of_fits (hfits invoice List.mem_cons_self)]
      simp only [if_neg (hnew invoice List.mem_cons_self)]
      show _ = some (if (upsertInvoicePaid invoice t).1 then
          invoice.paymentHash :: (upsertInvoicesPaidRows rest (upsertInvoicePaid invoice t).2).1
          else (upsertInvoicesPaidRows rest (upsertInvoicePaid invoice t).2).1,
        (upsertInvoicesPaidRows rest (upsertInvoicePaid invoice t).2).2)
      have hrest : ∀ i ∈ rest, i.paymentHash ∉ written := fun i hi =>
        hnew i (List.mem_cons_of_mem _ hi)
      have hfits' : ∀ i ∈ rest, FitsColumns i := fun i hi => hfits i (List.mem_cons_of_mem _ hi)
      by_cases hwrites : (upsertInvoicePaid invoice t).1 = true
      · -- the rest is about other rows, which are as they were
        have hne : ∀ i ∈ rest, i.paymentHash ≠ invoice.paymentHash := fun i hi =>
          hhead i hi (upsertInvoicePaid_written ▸ hwrites)
        rw [if_pos hwrites, if_pos hwrites, ih hfits']
        · rfl
        · intro i hi hmem
          rcases List.mem_cons.mp hmem with heq | hmem
          · exact hne i hi heq
          · exact hrest i hi hmem
        · refine htail.imp_of_mem fun {a b} ha _ hab => ?_
          rw [get_upsertInvoicePaid_ne (hne a ha)]
          exact hab
      · rw [if_neg hwrites, if_neg hwrites, unwritten_same hwrites]
        exact ih hfits' hrest htail

/-- A statement that succeeds has taken in every entry, and met no row twice. -/
theorem writesOnce_of_pgRows {invoices : List Invoice} {written : List String} {t : Table Invoice}
    {out : List String × Table Invoice} (hspace : ∀ i ∈ invoices, Unpadded i)
    (h : pgUpsertInvoicesPaidRows invoices written t = some out) :
    (∀ i ∈ invoices, FitsColumns i) ∧ (∀ i ∈ invoices, i.paymentHash ∉ written) ∧
      invoices.Pairwise fun a b =>
        writesRow a (t.get a.paymentHash) = true → b.paymentHash ≠ a.paymentHash := by
  induction invoices generalizing written t out with
  | nil =>
      exact ⟨fun _ hi => absurd hi List.not_mem_nil, fun _ hi => absurd hi List.not_mem_nil, .nil⟩
  | cons invoice rest ih =>
      rw [pgUpsertInvoicesPaidRows] at h
      cases htuple : pgTuple invoice with
      | none =>
          rw [htuple] at h
          cases h
      | some tuple =>
          have hfirst := fits_of_pgTuple (hspace invoice List.mem_cons_self) htuple
          obtain rfl := Option.some.inj ((pgTuple_of_fits hfirst).symm.trans htuple)
          have hspace' : ∀ i ∈ rest, Unpadded i := fun i hi => hspace i (List.mem_cons_of_mem _ hi)
          have hfits : (∀ i ∈ rest, FitsColumns i) → ∀ i ∈ invoice :: rest, FitsColumns i := by
            intro hrest i hi
            rcases List.mem_cons.mp hi with rfl | hi
            · exact hfirst
            · exact hrest i hi
          rw [htuple] at h
          simp only at h
          split at h
          · cases h
          · rename_i hfresh
            by_cases hwrites : (upsertInvoicePaid invoice t).1 = true
            · rw [if_pos hwrites] at h
              obtain ⟨out', hout, _⟩ := Option.map_eq_some_iff.mp h
              obtain ⟨hrest, hnew, htail⟩ := ih hspace' hout
              have hne : ∀ i ∈ rest, i.paymentHash ≠ invoice.paymentHash := fun i hi heq =>
                hnew i hi (heq ▸ List.mem_cons_self)
              refine ⟨hfits hrest, ?_, List.pairwise_cons.mpr ⟨fun i hi _ => hne i hi, ?_⟩⟩
              · intro i hi
                rcases List.mem_cons.mp hi with rfl | hi
                · exact hfresh
                · exact fun hmem => hnew i hi (List.mem_cons_of_mem _ hmem)
              · refine htail.imp_of_mem fun {a b} ha _ hab => ?_
                rw [get_upsertInvoicePaid_ne (hne a ha)] at hab
                exact hab
            · rw [if_neg hwrites, unwritten_same hwrites] at h
              obtain ⟨hrest, hnew, htail⟩ := ih hspace' h
              refine ⟨hfits hrest, ?_, List.pairwise_cons.mpr ⟨?_, htail⟩⟩
              · intro i hi
                rcases List.mem_cons.mp hi with rfl | hi
                · exact hfresh
                · exact hnew i hi
              · intro i _ hwrites'
                exact absurd (upsertInvoicePaid_written.trans hwrites') hwrites

/-- Both backends succeed, leave the same table and affect the same hashes. -/
def BackendsAgree (s : PaymentStore) (invoices : List Invoice) : Prop :=
  ∃ affected s', s.pgUpsertInvoicesPaid invoices = .ok (affected, s') ∧
    s' = (s.upsertInvoicesPaid invoices).2 ∧
    ∀ k, k ∈ affected ↔ k ∈ (s.upsertInvoicesPaid invoices).1

/-- The backends agree on a batch if and only if every value fits its column and no entry that
writes its row is followed by another entry for the same payment hash. The values hold no
spaces, as those of `handle_invoices_paid`. -/
theorem backends_agree_iff (s : PaymentStore) {invoices : List Invoice}
    (hspace : ∀ i ∈ invoices, Unpadded i) :
    s.BackendsAgree invoices ↔ (∀ i ∈ invoices, FitsColumns i) ∧ s.WritesRowsOnce invoices := by
  unfold BackendsAgree
  by_cases hempty : invoices = []
  · subst hempty
    constructor
    · exact fun _ => ⟨fun _ hi => absurd hi List.not_mem_nil, List.Pairwise.nil⟩
    · exact fun _ => ⟨[], s, rfl, rfl, fun _ => Iff.rfl⟩
  constructor
  · intro ⟨affected, s', hpg, _⟩
    rw [pgUpsertInvoicesPaid, if_neg hempty] at hpg
    cases hrows : pgUpsertInvoicesPaidRows invoices [] s.invoices with
    | none =>
        rw [hrows] at hpg
        cases hpg
    | some out =>
        obtain ⟨hfits, _, honce⟩ := writesOnce_of_pgRows hspace hrows
        exact ⟨hfits, honce⟩
  · intro ⟨hfits, honce⟩
    have hrows := pgRows_eq hfits (fun i _ => List.not_mem_nil) honce
    refine ⟨(s.upsertInvoicesPaid invoices).1, (s.upsertInvoicesPaid invoices).2, ?_, rfl,
      fun _ => Iff.rfl⟩
    rw [pgUpsertInvoicesPaid, if_neg hempty, hrows]
    rfl

end PaymentStore

/-! ## Examples

A client reports a payment twice in a request, reports one with a long preimage, and repeats
a report of both. -/

section Example

open PaymentStore

/-- 33 bytes. -/
def longPreimage : String := String.ofList (List.replicate 66 '0')

/-- The preimage `00` of the payment hash `aa`, a preimage of 33 bytes of the hash `bb`, and
invoices for them. -/
def repeatedItem : Deployment :=
  { digests := [([0], "aa"), (List.replicate 33 0, "bb")]
    invoices := [("lnbc1", ⟨"aa", none, none, none⟩), ("lnbc2", ⟨"bb", none, none, none⟩)] }

def unpaidRow (paymentHash invoice : String) : Invoice :=
  { accountId := none
    provider := none
    walletKind := none
    walletId := none
    providerPaymentHash := none
    paymentHash
    userPubkey := ownerKey.hex
    invoice
    preimage := none
    expiredAt := none
    invoiceExpiry := 0
    createdAt := 0
    updatedAt := 0
    domain := some "d.io"
    amountReceivedSat := none }

/-- The entry a batch holds for the row. -/
def paidEntry (paymentHash invoice preimage : String) : Invoice :=
  { unpaidRow paymentHash invoice with
    preimage := some preimage, createdAt := 1000, updatedAt := 1000, domain := none }

def unpaidRows : PaymentStore :=
  (PaymentStore.empty.upsertInvoice (unpaidRow "aa" "lnbc1")).upsertInvoice (unpaidRow "bb" "lnbc2")

theorem not_backendsAgree {s : PaymentStore} {invoices : List Invoice}
    (hpg : s.pgUpsertInvoicesPaid invoices = .error .general) : ¬ s.BackendsAgree invoices := by
  rintro ⟨affected, s', hok, _⟩
  rw [hpg] at hok
  cases hok

/-- The batch of a repeated item settles on SQLite, and fails on PostgreSQL. -/
theorem repeated_item_fails :
    ∃ (invoices : List Invoice) (s : PaymentStore),
      paidInvoices repeatedItem.crates ownerKey.hex 1000 [⟨"00", "lnbc1"⟩, ⟨"00", "lnbc1"⟩] =
        .ok invoices ∧
      (∀ i ∈ invoices, s.isKnown i.paymentHash = true) ∧
      s.pgUpsertInvoicesPaid invoices = .error .general ∧
      (s.upsertInvoicesPaid invoices).1 = ["aa"] ∧ ¬ s.BackendsAgree invoices := by
  have hpg : unpaidRows.pgUpsertInvoicesPaid
    [paidEntry "aa" "lnbc1" "00", paidEntry "aa" "lnbc1" "00"] =
      .error .general := by rfl
  exact ⟨_, unpaidRows, by rfl, by decide +kernel, hpg, by decide +kernel, not_backendsAgree hpg⟩

/-- So does the batch of one item whose preimage is too long for the column. -/
theorem long_preimage_fails :
    ∃ (invoices : List Invoice) (s : PaymentStore),
      paidInvoices repeatedItem.crates ownerKey.hex 1000 [⟨longPreimage, "lnbc2"⟩] = .ok invoices ∧
      (∀ i ∈ invoices, s.isKnown i.paymentHash = true) ∧
      s.pgUpsertInvoicesPaid invoices = .error .general ∧
      (s.upsertInvoicesPaid invoices).1 = ["bb"] ∧ ¬ s.BackendsAgree invoices := by
  have hpg : unpaidRows.pgUpsertInvoicesPaid [paidEntry "bb" "lnbc2" longPreimage] =
      .error .general := by rfl
  exact ⟨_, unpaidRows, by rfl, by decide +kernel, hpg, by decide +kernel, not_backendsAgree hpg⟩

/-- Once the payment is settled, a repeated item is passed over on both. -/
theorem backends_agree_iff_settled :
    ∃ (invoices : List Invoice) (s : PaymentStore),
      paidInvoices repeatedItem.crates ownerKey.hex 1000 [⟨"00", "lnbc1"⟩, ⟨"00", "lnbc1"⟩] =
        .ok invoices ∧
      (s.getInvoiceByPaymentHash "aa").bind Invoice.preimage = some "00" ∧
      s.BackendsAgree invoices := by
  let invoices := [paidEntry "aa" "lnbc1" "00", paidEntry "aa" "lnbc1" "00"]
  let s := (unpaidRows.upsertInvoicesPaid invoices).2
  have hbuilt : paidInvoices repeatedItem.crates ownerKey.hex 1000
      [⟨"00", "lnbc1"⟩, ⟨"00", "lnbc1"⟩] = .ok invoices := by rfl
  have hspace := unpadded_of_paidInvoices (fun _ _ h => isHexChar_of_hexBytes h)
    (Deployment.not_mem_sha256 (by decide) (by decide)) hbuilt
  have hfits : ∀ i ∈ invoices, FitsColumns i := by
    intro i hi
    obtain rfl : i = paidEntry "aa" "lnbc1" "00" := by
      rcases List.mem_pair.mp hi with rfl | rfl <;> rfl
    exact ⟨by decide, fun _ h => (by cases h), fun _ h => (by cases h), by decide, fun p hp => by
      obtain rfl := Option.some.inj hp
      decide⟩
  exact ⟨invoices, s, hbuilt, by decide +kernel,
    (backends_agree_iff s hspace).mpr ⟨hfits, by decide +kernel⟩⟩

end Example

end BlinkLnurl
