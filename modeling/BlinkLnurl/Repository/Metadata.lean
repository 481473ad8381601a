import BlinkLnurl.Repository.PaymentEffects
import Mathlib.Data.List.Dedup
import Mathlib.Data.List.Perm.Basic

/-!
# The metadata listing of a pubkey

`get_metadata_by_pubkey`: payments are selected by the owner of one of their
rows, in any of three tables, and the rows of the three tables are then joined
by the payment hash alone. Where all rows of a payment belong to one pubkey
(`OwnersAgree`), the listing of a pubkey is a function of its own rows
(`metadataRows_perm`).
-/

namespace BlinkLnurl

open Rel

structure ListMetadataMetadata where
  paymentHash : String
  accountId : Option String
  senderComment : Option String
  nostrZapRequest : Option String
  nostrZapReceipt : Option String
  updatedAt : Int
  preimage : Option String
deriving DecidableEq

namespace PaymentStore

/-- The `UNION` of the payment hashes of the three tables. -/
def metadataHashes (pubkey : String) (updatedAfter : Int) (s : PaymentStore) : List String :=
  ((s.invoices.select fun i => i.userPubkey = pubkey && updatedAfter < i.updatedAt).map
      Invoice.paymentHash ++
    (s.zaps.select fun z => z.userPubkey = pubkey && updatedAfter < z.updatedAt).map
      Zap.paymentHash ++
    (s.senderComments.select fun c => c.userPubkey = pubkey && updatedAfter < c.updatedAt).map
      LnurlSenderComment.paymentHash).dedup

/-- The row of a payment hash in the join. -/
def metadataRow (s : PaymentStore) (paymentHash : String) : ListMetadataMetadata :=
  let i := s.invoices.get paymentHash
  let z := s.zaps.get paymentHash
  let sc := s.senderComments.get paymentHash
  { paymentHash
    accountId := ((i.bind Invoice.accountId).or (z.bind Zap.accountId)).or
      (sc.bind LnurlSenderComment.accountId)
    senderComment := sc.map LnurlSenderComment.comment
    nostrZapRequest := z.map Zap.zapRequest
    nostrZapReceipt := z.bind Zap.zapEvent
    updatedAt := max (max ((z.map Zap.updatedAt).getD 0)
      ((sc.map LnurlSenderComment.updatedAt).getD 0)) ((i.map Invoice.updatedAt).getD 0)
    preimage := i.bind Invoice.preimage }

/-- The selected rows, not yet ordered. -/
def metadataRows (pubkey : String) (updatedAfter : Option Int) (s : PaymentStore) :
    List ListMetadataMetadata :=
  (s.metadataHashes pubkey (updatedAfter.getD 0)).map s.metadataRow

def getMetadataByPubkey (pubkey : String) (offset limit : Nat) (updatedAfter : Option Int)
    (s : PaymentStore) : List ListMetadataMetadata :=
  (((s.metadataRows pubkey updatedAfter).insertionSort fun a b => a.updatedAt ≤ b.updatedAt).drop
    offset).take limit

/-- The statement orders by `updated_at` alone, so it may answer with the page of
any order of the rows in which `updated_at` does not decrease. -/
def MetadataAnswer (s : PaymentStore) (pubkey : String) (offset limit : Nat)
    (updatedAfter : Option Int) (page : List ListMetadataMetadata) : Prop :=
  ∃ rows : List ListMetadataMetadata, rows.Perm (s.metadataRows pubkey updatedAfter) ∧
    rows.Pairwise (fun a b => a.updatedAt ≤ b.updatedAt) ∧ page = (rows.drop offset).take limit

/-- The model's order is one of them. -/
theorem getMetadataByPubkey_answer (s : PaymentStore) (pubkey : String) (offset limit : Nat)
    (updatedAfter : Option Int) :
    s.MetadataAnswer pubkey offset limit updatedAfter
      (s.getMetadataByPubkey pubkey offset limit updatedAfter) := by
  have : IsTrans ListMetadataMetadata fun a b => a.updatedAt ≤ b.updatedAt :=
    ⟨fun _ _ _ => le_trans⟩
  have : Std.Total fun a b : ListMetadataMetadata => a.updatedAt ≤ b.updatedAt :=
    ⟨fun _ _ => le_total _ _⟩
  exact ⟨_, List.perm_insertionSort _ _, List.pairwise_insertionSort _ _, rfl⟩

/-! ## Owners -/

/-- A row of the payment hash `k` belongs to `u`. -/
inductive RowOf (s : PaymentStore) (k u : String) : Prop
  | invoice (row : Invoice) : s.invoices.get k = some row → row.userPubkey = u → RowOf s k u
  | zap (row : Zap) : s.zaps.get k = some row → row.userPubkey = u → RowOf s k u
  | comment (row : LnurlSenderComment) : s.senderComments.get k = some row → row.userPubkey = u →
      RowOf s k u

/-- All rows of a payment belong to one pubkey. -/
def OwnersAgree (s : PaymentStore) : Prop := ∀ k u v, s.RowOf k u → s.RowOf k v → u = v

/-- The payments that are listed for a pubkey have rows of no one else. -/
def ListsOwn (s : PaymentStore) (pubkey : String) : Prop :=
  ∀ updatedAfter k, k ∈ s.metadataHashes pubkey updatedAfter → ∀ u, s.RowOf k u → u = pubkey

/-- The stores have the same invoices, zaps and comments of a pubkey. -/
structure SameRowsOf (pubkey : String) (s s' : PaymentStore) : Prop where
  invoices : ∀ row : Invoice, row.userPubkey = pubkey → (row ∈ s.invoices ↔ row ∈ s'.invoices)
  zaps : ∀ row : Zap, row.userPubkey = pubkey → (row ∈ s.zaps ↔ row ∈ s'.zaps)
  comments : ∀ row : LnurlSenderComment, row.userPubkey = pubkey →
    (row ∈ s.senderComments ↔ row ∈ s'.senderComments)

section Owners

variable {s s' : PaymentStore} {k u pubkey : String}

theorem SameRowsOf.symm (h : SameRowsOf pubkey s s') : SameRowsOf pubkey s' s where
  invoices := fun row hrow => (h.invoices row hrow).symm
  zaps := fun row hrow => (h.zaps row hrow).symm
  comments := fun row hrow => (h.comments row hrow).symm

theorem mem_metadataHashes {updatedAfter : Int} :
    k ∈ s.metadataHashes pubkey updatedAfter ↔
      (∃ row ∈ s.invoices, (row.userPubkey = pubkey ∧ updatedAfter < row.updatedAt) ∧
        row.paymentHash = k) ∨
      (∃ row ∈ s.zaps, (row.userPubkey = pubkey ∧ updatedAfter < row.updatedAt) ∧
        row.paymentHash = k) ∨
      ∃ row ∈ s.senderComments, (row.userPubkey = pubkey ∧ updatedAfter < row.updatedAt) ∧
        row.paymentHash = k := by
  simp only [metadataHashes, List.mem_dedup, List.mem_append, List.mem_map, Table.mem_select,
    Bool.and_eq_true, decide_eq_true_eq, and_assoc, or_assoc]

/-- A payment that is listed for a pubkey has a row of it. -/
theorem rowOf_of_listed {updatedAfter : Int} (h : k ∈ s.metadataHashes pubkey updatedAfter) :
    s.RowOf k pubkey := by
  rcases mem_metadataHashes.mp h with ⟨row, hrow, ⟨hu, _⟩, hk⟩ | ⟨row, hrow, ⟨hu, _⟩, hk⟩ |
    ⟨row, hrow, ⟨hu, _⟩, hk⟩
  · exact .invoice row (Table.get_eq_some.mpr ⟨hrow, hk⟩) hu
  · exact .zap row (Table.get_eq_some.mpr ⟨hrow, hk⟩) hu
  · exact .comment row (Table.get_eq_some.mpr ⟨hrow, hk⟩) hu

/-- A row of a pubkey gets its payment listed, from before the row on. -/
theorem listed_of_rowOf (h : s.RowOf k pubkey) :
    ∃ updatedAfter, k ∈ s.metadataHashes pubkey updatedAfter := by
  simp only [mem_metadataHashes]
  cases h with
  | invoice row hget hu =>
      obtain ⟨hrow, hk⟩ := Table.get_eq_some.mp hget
      exact ⟨row.updatedAt - 1, Or.inl ⟨row, hrow, ⟨hu, by omega⟩, hk⟩⟩
  | zap row hget hu =>
      obtain ⟨hrow, hk⟩ := Table.get_eq_some.mp hget
      exact ⟨row.updatedAt - 1, Or.inr (Or.inl ⟨row, hrow, ⟨hu, by omega⟩, hk⟩)⟩
  | comment row hget hu =>
      obtain ⟨hrow, hk⟩ := Table.get_eq_some.mp hget
      exact ⟨row.updatedAt - 1, Or.inr (Or.inr ⟨row, hrow, ⟨hu, by omega⟩, hk⟩)⟩

theorem ownersAgree_iff_listsOwn : s.OwnersAgree ↔ ∀ pubkey, s.ListsOwn pubkey := by
  constructor
  · intro hagree pubkey updatedAfter k hk u hu
    exact hagree k u pubkey hu (rowOf_of_listed hk)
  · intro hown k u v hu hv
    obtain ⟨updatedAfter, hk⟩ := listed_of_rowOf hv
    exact hown v updatedAfter k hk u hu

theorem SameRowsOf.listed (h : SameRowsOf pubkey s s') {updatedAfter : Int}
    (hk : k ∈ s.metadataHashes pubkey updatedAfter) :
    k ∈ s'.metadataHashes pubkey updatedAfter := by
  rw [mem_metadataHashes] at hk ⊢
  rcases hk with ⟨row, hrow, hu, hk⟩ | ⟨row, hrow, hu, hk⟩ | ⟨row, hrow, hu, hk⟩
  · exact Or.inl ⟨row, (h.invoices row hu.1).mp hrow, hu, hk⟩
  · exact Or.inr (Or.inl ⟨row, (h.zaps row hu.1).mp hrow, hu, hk⟩)
  · exact Or.inr (Or.inr ⟨row, (h.comments row hu.1).mp hrow, hu, hk⟩)

/-- Where all rows of a payment are a pubkey's, the join reads only rows of it. -/
theorem SameRowsOf.metadataRow (h : SameRowsOf pubkey s s')
    (hs : ∀ u, s.RowOf k u → u = pubkey) (hs' : ∀ u, s'.RowOf k u → u = pubkey) :
    s.metadataRow k = s'.metadataRow k := by
  have hinvoice : s.invoices.get k = s'.invoices.get k := Table.get_congr fun row hk => by
    constructor
    · intro hrow
      exact (h.invoices row (hs _ (.invoice row (Table.get_eq_some.mpr ⟨hrow, hk⟩) rfl))).mp hrow
    · intro hrow
      exact (h.invoices row (hs' _ (.invoice row (Table.get_eq_some.mpr ⟨hrow, hk⟩) rfl))).mpr hrow
  have hzap : s.zaps.get k = s'.zaps.get k := Table.get_congr fun row hk => by
    constructor
    · intro hrow
      exact (h.zaps row (hs _ (.zap row (Table.get_eq_some.mpr ⟨hrow, hk⟩) rfl))).mp hrow
    · intro hrow
      exact (h.zaps row (hs' _ (.zap row (Table.get_eq_some.mpr ⟨hrow, hk⟩) rfl))).mpr hrow
  have hcomment : s.senderComments.get k = s'.senderComments.get k :=
    Table.get_congr fun row hk => by
    constructor
    · intro hrow
      exact (h.comments row (hs _ (.comment row (Table.get_eq_some.mpr ⟨hrow, hk⟩) rfl))).mp hrow
    · intro hrow
      exact (h.comments row (hs' _ (.comment row (Table.get_eq_some.mpr ⟨hrow, hk⟩) rfl))).mpr hrow
  simp only [PaymentStore.metadataRow, hinvoice, hzap, hcomment]

/-- The listing of a pubkey is a function of its own rows. -/
theorem metadataRows_perm (hs : s.OwnersAgree) (hs' : s'.OwnersAgree) (h : SameRowsOf pubkey s s')
    (updatedAfter : Option Int) :
    (s.metadataRows pubkey updatedAfter).Perm (s'.metadataRows pubkey updatedAfter) := by
  have hhashes : (s.metadataHashes pubkey (updatedAfter.getD 0)).Perm
      (s'.metadataHashes pubkey (updatedAfter.getD 0)) :=
    (List.perm_ext_iff_of_nodup (List.nodup_dedup _) (List.nodup_dedup _)).mpr fun _ =>
      ⟨h.listed, h.symm.listed⟩
  have hrows : (s.metadataHashes pubkey (updatedAfter.getD 0)).map s.metadataRow =
      (s.metadataHashes pubkey (updatedAfter.getD 0)).map s'.metadataRow := by
    refine List.map_congr_left fun k hk => h.metadataRow ?_ ?_
    · exact fun u hu => hs k u pubkey hu (rowOf_of_listed hk)
    · exact fun u hu => hs' k u pubkey hu (rowOf_of_listed (h.listed hk))
  show ((s.metadataHashes pubkey (updatedAfter.getD 0)).map s.metadataRow).Perm _
  rw [hrows]
  exact hhashes.map _

theorem metadataAnswer_congr (hs : s.OwnersAgree) (hs' : s'.OwnersAgree)
    (h : SameRowsOf pubkey s s') {offset limit : Nat} {updatedAfter : Option Int}
    {page : List ListMetadataMetadata} :
    s.MetadataAnswer pubkey offset limit updatedAfter page ↔
      s'.MetadataAnswer pubkey offset limit updatedAfter page := by
  have hperm := metadataRows_perm hs hs' h updatedAfter
  refine exists_congr fun rows => and_congr_left fun _ => ?_
  exact ⟨fun hrows => hrows.trans hperm, fun hrows => hrows.trans hperm.symm⟩

end Owners

end PaymentStore

end BlinkLnurl
