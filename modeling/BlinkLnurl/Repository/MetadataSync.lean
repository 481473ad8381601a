import BlinkLnurl.Lib.Paging
import BlinkLnurl.Repository.Metadata

/-!
# Incremental metadata sync

A client of `list_metadata` asks for the entries after the `updated_at` of the
last one it received, until it gets none. The statement orders by `updated_at`
alone and its cursor is strict, so entries of one `updated_at` are lost where a
page ends among them; `upsert_invoices_paid` gives a whole batch one
`updated_at`. And it selects by the rows of the pubkey but orders by all joined
rows, so an entry that is newer through a row of another pubkey may not be
selected at all (`metadata_sync`).
-/

namespace BlinkLnurl

open Rel

namespace PaymentStore

/-- A row of the payment hash `k` belongs to `u` and was updated after `c`. -/
inductive RowAfter (s : PaymentStore) (k u : String) (c : Int) : Prop
  | invoice (row : Invoice) : s.invoices.get k = some row → row.userPubkey = u →
      c < row.updatedAt → RowAfter s k u c
  | zap (row : Zap) : s.zaps.get k = some row → row.userPubkey = u → c < row.updatedAt →
      RowAfter s k u c
  | comment (row : LnurlSenderComment) : s.senderComments.get k = some row → row.userPubkey = u →
      c < row.updatedAt → RowAfter s k u c

/-- The `updated_at` of a payment: of the newest of its rows, whoever owns it. -/
def entryTime (s : PaymentStore) (k : String) : Int := (s.metadataRow k).updatedAt

/-- An entry of a pubkey: the row of a payment in which the pubkey owns a row. -/
def IsEntry (s : PaymentStore) (pubkey : String) (entry : ListMetadataMetadata) : Prop :=
  ∃ k, s.RowOf k pubkey ∧ entry = s.metadataRow k

/-- A client that asks with `updated_after = c` next, until a page is empty, and
what it receives. -/
inductive MetadataSync (s : PaymentStore) (pubkey : String) (limit : Nat) :
    Int → List ListMetadataMetadata → Prop
  | done {c} : s.MetadataAnswer pubkey 0 limit (some c) [] → MetadataSync s pubkey limit c []
  | page {c page last rest} : s.MetadataAnswer pubkey 0 limit (some c) page →
      page.getLast? = some last → MetadataSync s pubkey limit last.updatedAt rest →
      MetadataSync s pubkey limit c (page ++ rest)

/-- One page of a client that is not done leads from a cursor to the next. -/
def NextCursor (s : PaymentStore) (pubkey : String) (limit : Nat) (c' c : Int) : Prop :=
  ∃ page last, s.MetadataAnswer pubkey 0 limit (some c) page ∧ page.getLast? = some last ∧
    c' = last.updatedAt

/-- The times of the payments with a row of the pubkey after `start`, in order. -/
def syncTimes (s : PaymentStore) (pubkey : String) (start : Int) : List Int :=
  ((s.metadataHashes pubkey start).map s.entryTime).insertionSort (· ≤ ·)

/-- A payment is newer than a cursor only through rows of which one is the pubkey's. -/
def OwnAfter (s : PaymentStore) (pubkey : String) (c : Int) : Prop :=
  ∀ k, s.RowOf k pubkey → c < s.entryTime k → s.RowAfter k pubkey c

/-- Where the entries of a pubkey can be received in pages: no two payments of one
time stand on either side of a multiple of the limit, and a payment newer than
the start, or than the one before such a side, is so through a row of the pubkey. -/
structure Syncable (s : PaymentStore) (pubkey : String) (limit : Nat) (start : Int) : Prop where
  first : s.OwnAfter pubkey start
  later : ∀ i c, (s.syncTimes pubkey start)[i]? = some c → limit ∣ i + 1 → s.OwnAfter pubkey c
  apart : ∀ i c c', (s.syncTimes pubkey start)[i]? = some c →
    (s.syncTimes pubkey start)[i + 1]? = some c' → limit ∣ i + 1 → c < c'

section Sync

variable {s : PaymentStore} {pubkey k : String} {limit : Nat} {c c' start : Int}
  {entry : ListMetadataMetadata} {received : List ListMetadataMetadata}

/-! ## The listing -/

theorem mem_metadataHashes_iff : k ∈ s.metadataHashes pubkey c ↔ s.RowAfter k pubkey c := by
  rw [mem_metadataHashes]
  constructor
  · rintro (⟨row, hrow, ⟨hu, hc⟩, hk⟩ | ⟨row, hrow, ⟨hu, hc⟩, hk⟩ | ⟨row, hrow, ⟨hu, hc⟩, hk⟩)
    · exact .invoice row (Table.get_eq_some.mpr ⟨hrow, hk⟩) hu hc
    · exact .zap row (Table.get_eq_some.mpr ⟨hrow, hk⟩) hu hc
    · exact .comment row (Table.get_eq_some.mpr ⟨hrow, hk⟩) hu hc
  · intro h
    cases h with
    | invoice row hget hu hc =>
        obtain ⟨hrow, hk⟩ := Table.get_eq_some.mp hget
        exact Or.inl ⟨row, hrow, ⟨hu, hc⟩, hk⟩
    | zap row hget hu hc =>
        obtain ⟨hrow, hk⟩ := Table.get_eq_some.mp hget
        exact Or.inr (Or.inl ⟨row, hrow, ⟨hu, hc⟩, hk⟩)
    | comment row hget hu hc =>
        obtain ⟨hrow, hk⟩ := Table.get_eq_some.mp hget
        exact Or.inr (Or.inr ⟨row, hrow, ⟨hu, hc⟩, hk⟩)

theorem RowAfter.anti (h : s.RowAfter k pubkey c') (hc : c ≤ c') : s.RowAfter k pubkey c := by
  cases h with
  | invoice row hget hu hrow => exact .invoice row hget hu (by omega)
  | zap row hget hu hrow => exact .zap row hget hu (by omega)
  | comment row hget hu hrow => exact .comment row hget hu (by omega)

theorem entryTime_eq (s : PaymentStore) (k : String) :
    s.entryTime k = max (max (((s.zaps.get k).map Zap.updatedAt).getD 0)
      (((s.senderComments.get k).map LnurlSenderComment.updatedAt).getD 0))
      (((s.invoices.get k).map Invoice.updatedAt).getD 0) := rfl

/-- A payment is as new as each of its rows. -/
theorem RowAfter.lt_entryTime (h : s.RowAfter k pubkey c) : c < s.entryTime k := by
  rw [entryTime_eq]
  cases h with
  | invoice row hget hu hrow =>
      rw [hget, Option.map_some, Option.getD_some]
      omega
  | zap row hget hu hrow =>
      rw [hget, Option.map_some, Option.getD_some]
      omega
  | comment row hget hu hrow =>
      rw [hget, Option.map_some, Option.getD_some]
      omega

theorem metadataRow_injective (s : PaymentStore) : Function.Injective s.metadataRow :=
  fun _ _ h => congrArg ListMetadataMetadata.paymentHash h

theorem mem_metadataRows :
    s.metadataRow k ∈ s.metadataRows pubkey (some c) ↔ s.RowAfter k pubkey c := by
  show s.metadataRow k ∈ (s.metadataHashes pubkey c).map s.metadataRow ↔ _
  rw [List.mem_map_of_injective s.metadataRow_injective, mem_metadataHashes_iff]

theorem exists_of_mem_metadataRows (h : entry ∈ s.metadataRows pubkey (some c)) :
    ∃ k, s.RowAfter k pubkey c ∧ entry = s.metadataRow k := by
  obtain ⟨k, hk, rfl⟩ := List.mem_map.mp h
  exact ⟨k, mem_metadataHashes_iff.mp hk, rfl⟩

/-- The listing of a pubkey as a source of pages. -/
def metadataSource (s : PaymentStore) (pubkey : String) :
    Paging.Source ListMetadataMetadata Int where
  key := ListMetadataMetadata.updatedAt
  listing := fun c => s.metadataRows pubkey (some c)
  nodup := fun _ => (List.nodup_dedup _).map s.metadataRow_injective
  above := fun h => by
    obtain ⟨k, hk, rfl⟩ := exists_of_mem_metadataRows h
    exact hk.lt_entryTime
  anti := fun hc h => by
    obtain ⟨k, hk, rfl⟩ := exists_of_mem_metadataRows h
    exact mem_metadataRows.mpr (hk.anti hc)

theorem metadataSource_page {page : List ListMetadataMetadata} :
    (s.metadataSource pubkey).Page limit c page ↔
      s.MetadataAnswer pubkey 0 limit (some c) page := Iff.rfl

theorem metadataSource_sync :
    (s.metadataSource pubkey).Sync limit start received ↔
      s.MetadataSync pubkey limit start received := by
  constructor
  · intro h
    induction h with
    | done hpage => exact .done (metadataSource_page.mp hpage)
    | page hpage hlast _ ih => exact .page (metadataSource_page.mp hpage) hlast ih
  · intro h
    induction h with
    | done hpage => exact .done (metadataSource_page.mpr hpage)
    | page hpage hlast _ ih => exact .page (metadataSource_page.mpr hpage) hlast ih

theorem metadataSource_isRow : (s.metadataSource pubkey).IsRow entry ↔ s.IsEntry pubkey entry := by
  constructor
  · intro ⟨c, h⟩
    obtain ⟨k, hk, rfl⟩ := exists_of_mem_metadataRows h
    exact ⟨k, rowOf_of_listed (mem_metadataHashes_iff.mpr hk), rfl⟩
  · intro ⟨k, hk, hentry⟩
    obtain ⟨c, hlisted⟩ := listed_of_rowOf hk
    exact ⟨c, hentry ▸ mem_metadataRows.mpr (mem_metadataHashes_iff.mp hlisted)⟩

theorem metadataSource_keys : (s.metadataSource pubkey).keys start = s.syncTimes pubkey start := by
  show (((s.metadataHashes pubkey start).map s.metadataRow).map
    ListMetadataMetadata.updatedAt).insertionSort (· ≤ ·) = _
  rw [List.map_map]
  rfl

theorem ownAfter_iff :
    s.OwnAfter pubkey c ↔
      ∀ entry, (s.metadataSource pubkey).IsRow entry → c < (s.metadataSource pubkey).key entry →
        entry ∈ (s.metadataSource pubkey).listing c := by
  constructor
  · intro h entry hrow hc
    obtain ⟨k, hk, rfl⟩ := metadataSource_isRow.mp hrow
    exact mem_metadataRows.mpr (h k hk hc)
  · intro h k hk hc
    exact mem_metadataRows.mp (h _ (metadataSource_isRow.mpr ⟨k, hk, rfl⟩) hc)

theorem metadataSource_complete :
    (s.metadataSource pubkey).Complete limit start ↔ s.Syncable pubkey limit start := by
  constructor
  · intro ⟨hfirst, hlater, hapart⟩
    rw [metadataSource_keys] at hlater hapart
    exact ⟨ownAfter_iff.mpr hfirst, fun i c hc hi => ownAfter_iff.mpr (hlater i c hc hi), hapart⟩
  · intro ⟨hfirst, hlater, hapart⟩
    rw [← metadataSource_keys] at hlater hapart
    exact ⟨ownAfter_iff.mp hfirst, fun i c hc hi => ownAfter_iff.mp (hlater i c hc hi), hapart⟩

/-! ## Where a sync is complete -/

/-- Where the rows of every payment belong to one pubkey, only times count. -/
theorem ownAfter_of_ownersAgree (hs : s.OwnersAgree) (hc : 0 ≤ c) : s.OwnAfter pubkey c := by
  intro k hk hlt
  have hmax : c < ((s.zaps.get k).map Zap.updatedAt).getD 0 ∨
      c < ((s.senderComments.get k).map LnurlSenderComment.updatedAt).getD 0 ∨
      c < ((s.invoices.get k).map Invoice.updatedAt).getD 0 := by
    rw [entryTime_eq] at hlt
    omega
  rcases hmax with hz | hsc | hi
  · cases hrow : s.zaps.get k with
    | none =>
        rw [hrow] at hz
        exact absurd hz (not_lt_of_ge hc)
    | some row =>
        rw [hrow] at hz
        exact .zap row hrow (hs k _ _ (.zap row hrow rfl) hk) hz
  · cases hrow : s.senderComments.get k with
    | none =>
        rw [hrow] at hsc
        exact absurd hsc (not_lt_of_ge hc)
    | some row =>
        rw [hrow] at hsc
        exact .comment row hrow (hs k _ _ (.comment row hrow rfl) hk) hsc
  · cases hrow : s.invoices.get k with
    | none =>
        rw [hrow] at hi
        exact absurd hi (not_lt_of_ge hc)
    | some row =>
        rw [hrow] at hi
        exact .invoice row hrow (hs k _ _ (.invoice row hrow rfl) hk) hi

/-- Every client comes to an empty page; and a client has then received every
entry that is newer than its start exactly once if and only if the entries can
be received in pages. -/
theorem metadata_sync (s : PaymentStore) (pubkey : String) (start : Int) (hlimit : 1 ≤ limit) :
    (WellFounded (s.NextCursor pubkey limit) ∧
      ∃ received, s.MetadataSync pubkey limit start received) ∧
    ∀ received, s.MetadataSync pubkey limit start received →
      ((∀ entry, s.IsEntry pubkey entry → start < entry.updatedAt → received.count entry = 1) ↔
        s.Syncable pubkey limit start) := by
  refine ⟨⟨(s.metadataSource pubkey).sync_terminates limit, ?_⟩, fun received hsync => ?_⟩
  · obtain ⟨received, h⟩ := (s.metadataSource pubkey).exists_sync limit start
    exact ⟨received, metadataSource_sync.mp h⟩
  · have hsync := metadataSource_sync.mpr hsync
    rw [← metadataSource_complete, ← Paging.Source.received_iff hlimit hsync]
    refine forall_congr' fun entry => ?_
    rw [metadataSource_isRow]
    refine imp_congr_right fun _ => imp_congr_right fun _ => ?_
    constructor
    · intro hcount
      exact List.count_pos_iff.mp (by omega)
    · intro hmem
      exact List.count_eq_one_of_mem hsync.nodup.1 hmem

end Sync

/-! ## An example -/

section Example

/-- An invoice of one pubkey, as a batch settles it. -/
def batchInvoice (paymentHash : String) (preimage : Option String) (updatedAt : Int) : Invoice :=
  { accountId := none, provider := none, walletKind := none, walletId := none
    providerPaymentHash := none, paymentHash, userPubkey := "02", invoice := "lnbc"
    preimage, expiredAt := none, invoiceExpiry := 0, createdAt := 1000, updatedAt
    domain := some "d.io", amountReceivedSat := none }

/-- Two invoices, created one after the other and settled in one batch. -/
def batchSettled : PaymentStore :=
  (((empty.upsertInvoice (batchInvoice "aa" none 1000)).upsertInvoice
      (batchInvoice "bb" none 1001)).upsertInvoicesPaid
    [batchInvoice "aa" (some "00") 2000, batchInvoice "bb" (some "01") 2000]).2

theorem batchSettled_owner {k u : String} (h : batchSettled.RowOf k u) : u = "02" := by
  cases h with
  | invoice row hget hu =>
      have hall : ∀ row ∈ batchSettled.invoices.rows, row.userPubkey = "02" := by decide +kernel
      exact hu.symm.trans (hall row (Table.get_eq_some.mp hget).1)
  | zap row hget => exact nomatch hget
  | comment row hget => exact nomatch hget

theorem batchSettled_ownersAgree : batchSettled.OwnersAgree :=
  fun _ _ _ hu hv => (batchSettled_owner hu).trans (batchSettled_owner hv).symm

theorem batchSettled_isEntry {k : String} (h : (batchSettled.invoices.get k).isSome = true) :
    batchSettled.IsEntry "02" (batchSettled.metadataRow k) := by
  obtain ⟨row, hget⟩ := Option.isSome_iff_exists.mp h
  exact ⟨k, .invoice row hget (batchSettled_owner (.invoice row hget rfl)), rfl⟩

/-- In pages of two, a client gets both payments. -/
theorem batchSettled_in_pages_of_two :
    ∃ received, batchSettled.MetadataSync "02" 2 0 received ∧
      received.count (batchSettled.metadataRow "aa") = 1 ∧
      received.count (batchSettled.metadataRow "bb") = 1 := by
  obtain ⟨⟨_, received, hsync⟩, hreceived⟩ := @metadata_sync 2 batchSettled "02" 0 (by decide)
  have htimes : batchSettled.syncTimes "02" 0 = [2000, 2000] := by decide +kernel
  have hsyncable : batchSettled.Syncable "02" 2 0 := by
    refine ⟨ownAfter_of_ownersAgree batchSettled_ownersAgree (by decide), fun i c hc _ => ?_,
      fun i c c' hc hc' hi => ?_⟩
    · rw [htimes] at hc
      have hmem := List.mem_of_getElem? hc
      exact ownAfter_of_ownersAgree batchSettled_ownersAgree (by simp at hmem; omega)
    · rw [htimes] at hc'
      have hlt := (List.getElem?_eq_some_iff.mp hc').1
      have hle := Nat.le_of_dvd (Nat.succ_pos i) hi
      rw [List.length_cons, List.length_singleton] at hlt
      omega
  have hall := (hreceived received hsync).mpr hsyncable
  exact ⟨received, hsync, hall _ (batchSettled_isEntry (by decide +kernel)) (by decide +kernel),
    hall _ (batchSettled_isEntry (by decide +kernel)) (by decide +kernel)⟩

/-- In pages of one, the second payment of the batch is lost. -/
theorem batch_entry_lost :
    batchSettled.MetadataSync "02" 1 0 [batchSettled.metadataRow "aa"] ∧
      batchSettled.IsEntry "02" (batchSettled.metadataRow "bb") ∧
      0 < (batchSettled.metadataRow "bb").updatedAt ∧
      batchSettled.metadataRow "bb" ∉ [batchSettled.metadataRow "aa"] := by
  refine ⟨?_, batchSettled_isEntry (by decide +kernel), by decide +kernel, by decide +kernel⟩
  have hfirst : batchSettled.getMetadataByPubkey "02" 0 1 (some 0) =
      [batchSettled.metadataRow "aa"] := by decide +kernel
  have hlast : batchSettled.getMetadataByPubkey "02" 0 1 (some 2000) = [] := by decide +kernel
  have hdone : batchSettled.MetadataSync "02" 1 2000 [] := by
    refine .done ?_
    rw [← hlast]
    exact getMetadataByPubkey_answer _ _ _ _ _
  have hpage := getMetadataByPubkey_answer batchSettled "02" 0 1 (some 0)
  rw [hfirst] at hpage
  exact .page hpage rfl hdone

end Example

end PaymentStore

end BlinkLnurl
