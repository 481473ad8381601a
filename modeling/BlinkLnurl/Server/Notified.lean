import BlinkLnurl.Server.Alone
import BlinkLnurl.Server.Notifications

/-!
# One delivery for each settled payment

`notify_webhooks` reads the payloads of the settled payments among its hashes
and inserts a delivery for each. Between the two reads of the database nobody
else moves here; the uniqueness of invoices, of identifiers on a domain and of
deliveries for a payment and a domain makes it exactly one.
-/

namespace BlinkLnurl

open Conc Rel PaymentStore WebhookDeliveries

/-! ## The address of an account on a domain -/

/-- The account holds the identifier on the domain. -/
def AccountIdentifier.HeldBy (accountId : Option String) (domain : String)
    (row : AccountIdentifier) : Prop := some row.accountId = accountId ∧ row.domain = domain

/-- An address that the account holds on the domain, a username if it has one;
`none` if it holds none. -/
def IsAddress (identifiers : Table AccountIdentifier) (accountId : Option String)
    (domain : String) :
    Option String → Prop
  | some address => ∃ row ∈ identifiers, row.HeldBy accountId domain ∧
      address = row.identifier ++ "@" ++ domain ∧
      ((∃ row' ∈ identifiers, row'.HeldBy accountId domain ∧ row'.identifierKind = .username) →
        row.identifierKind = .username)
  | none => ∀ row ∈ identifiers, ¬ row.HeldBy accountId domain

section Address

theorem addressOrder_total (a b : AccountIdentifier) :
    addressOrder a b = true ∨ addressOrder b a = true := by
  unfold addressOrder
  cases a.identifierKind <;> cases b.identifierKind <;>
    simp [String.le_total a.identifier b.identifier]

theorem addressOrder_trans {a b c : AccountIdentifier} (hab : addressOrder a b = true)
    (hbc : addressOrder b c = true) : addressOrder a c = true := by
  unfold addressOrder at hab hbc ⊢
  cases ha : a.identifierKind <;> cases hb : b.identifierKind <;> cases hc : c.identifierKind <;>
    simp_all
  · exact String.le_trans hab hbc
  · exact String.le_trans hab hbc

/-- A username comes before every other identifier. -/
theorem username_of_addressOrder {a b : AccountIdentifier} (h : addressOrder a b = true)
    (hb : b.identifierKind = .username) : a.identifierKind = .username := by
  unfold addressOrder at h
  cases ha : a.identifierKind with
  | username => rfl
  | phone => simp [ha, hb] at h

theorem lightningAddress_isAddress (identifiers : Table AccountIdentifier)
    (accountId : Option String) (domain : String) :
    IsAddress identifiers accountId domain (lightningAddress identifiers accountId domain) := by
  have htrans : IsTrans AccountIdentifier fun a b => addressOrder a b = true :=
    ⟨fun _ _ _ => addressOrder_trans⟩
  have htotal : Std.Total fun a b : AccountIdentifier => addressOrder a b = true :=
    ⟨addressOrder_total⟩
  unfold lightningAddress
  generalize hrows :
    identifiers.select (fun r => some r.accountId = accountId && r.domain = domain) =
    rows
  have hmem : ∀ row, row ∈ rows ↔ row ∈ identifiers ∧ row.HeldBy accountId domain := by
    intro row
    rw [← hrows, Table.mem_select, Bool.and_eq_true, decide_eq_true_eq, decide_eq_true_eq]
    rfl
  have hperm := List.perm_insertionSort (fun a b => addressOrder a b = true) rows
  have hsorted := List.pairwise_insertionSort (fun a b => addressOrder a b = true) rows
  cases hsort : rows.insertionSort fun a b => addressOrder a b = true with
  | nil =>
      rw [hsort] at hperm
      show IsAddress identifiers accountId domain ((rows.insertionSort _).head?.map _)
      rw [hsort]
      intro row hrow hheld
      exact absurd (hperm.mem_iff.mpr ((hmem row).mpr ⟨hrow, hheld⟩)) List.not_mem_nil
  | cons first rest =>
      rw [hsort] at hperm hsorted
      show IsAddress identifiers accountId domain ((rows.insertionSort _).head?.map _)
      rw [hsort]
      obtain ⟨hfirst, hheld⟩ := (hmem first).mp (hperm.mem_iff.mp List.mem_cons_self)
      refine ⟨first, hfirst, hheld, ?_, ?_⟩
      · show first.identifier ++ "@" ++ first.domain = _
        rw [hheld.2]
      · intro ⟨row', hrow', hheld', husername⟩
        rcases List.mem_cons.mp (hperm.mem_iff.mpr ((hmem row').mpr ⟨hrow', hheld'⟩)) with
          rfl | hrest
        · exact husername
        · exact username_of_addressOrder ((List.pairwise_cons.mp hsorted).1 row' hrest) husername

/-- The rows that the payload query joins to an invoice: those of its account
and domain whose identifier is the one the inner query chooses. -/
def joinedIdentifiers (identifiers : Table AccountIdentifier) (accountId : Option String)
    (domain : String) : List AccountIdentifier :=
  let held := identifiers.select fun r => some r.accountId = accountId && r.domain = domain
  let chosen :=
    (held.insertionSort fun a b => addressOrder a b).head?.map AccountIdentifier.identifier
  held.filter fun r => some r.identifier = chosen

/-- An identifier is held once on a domain, so the join neither loses an invoice
nor repeats it. -/
theorem joinedIdentifiers_address (identifiers : Table AccountIdentifier)
    (accountId : Option String) (domain : String) :
    (joinedIdentifiers identifiers accountId domain).map
    (fun r => r.identifier ++ "@" ++ r.domain) =
      (lightningAddress identifiers accountId domain).toList := by
  unfold joinedIdentifiers lightningAddress
  generalize hheld :
    identifiers.select (fun r => some r.accountId = accountId && r.domain = domain) =
    held
  have hmem : ∀ row ∈ held, row ∈ identifiers ∧ row.domain = domain := by
    intro row hrow
    rw [← hheld, Table.mem_select, Bool.and_eq_true, decide_eq_true_eq, decide_eq_true_eq] at hrow
    exact ⟨hrow.1, hrow.2.2⟩
  have hnodup : held.Pairwise fun a b => ¬ Rel.Schema.clash a b := by
    rw [← hheld]
    exact identifiers.unique.filter _
  have hperm := List.perm_insertionSort (fun a b => addressOrder a b = true) held
  show (held.filter fun r => some r.identifier =
    (held.insertionSort _).head?.map AccountIdentifier.identifier).map _ =
      ((held.insertionSort _).head?.map _).toList
  cases hsort : held.insertionSort fun a b => addressOrder a b = true with
  | nil =>
      rw [hsort] at hperm
      rw [List.nil_perm.mp hperm]
      rfl
  | cons first rest =>
      rw [hsort] at hperm
      have hfirst := hperm.mem_iff.mp List.mem_cons_self
      have honly : held.filter (fun r => some r.identifier = some first.identifier) = [first] := by
        refine List.perm_singleton.mp ?_
        refine (List.perm_ext_iff_of_nodup ?_ (List.nodup_singleton first)).mpr fun r => ?_
        · have hne : held.Pairwise (· ≠ ·) := hnodup.imp fun hclash heq => hclash (by rw [heq]; rfl)
          exact hne.filter _
        · rw [List.mem_filter, List.mem_singleton, decide_eq_true_eq, Option.some_inj]
          constructor
          · intro ⟨hr, hsame⟩
            refine Table.eq_of_key (hmem r hr).1 (hmem first hfirst).1 ?_
            exact Prod.ext ((hmem r hr).2.trans (hmem first hfirst).2.symm) hsame
          · intro hr
            rw [hr]
            exact ⟨hfirst, rfl⟩
      rw [List.head?_cons, Option.map_some, Option.map_some, honly]
      rfl

end Address

/-! ## The payloads -/

section Payloads

variable {identifiers : Table AccountIdentifier} {s : PaymentStore} {hashes : List String}
  {data : WebhookPayloadData}

theorem mem_getWebhookPayloads :
    data ∈ s.getWebhookPayloads identifiers hashes ↔
      ∃ invoice, s.invoiceOf data.paymentHash = some invoice ∧ data.paymentHash ∈ hashes ∧
        webhookPayload identifiers s invoice = some data := by
  have hkey : ∀ {invoice : Invoice}, webhookPayload identifiers s invoice = some data →
      data.paymentHash = invoice.paymentHash := by
    intro invoice h
    unfold webhookPayload at h
    split at h
    · obtain rfl := Option.some.inj h
      rfl
    · exact nomatch h
  unfold getWebhookPayloads
  rw [List.mem_filterMap]
  refine exists_congr fun invoice => ?_
  rw [Table.mem_select, List.contains_iff_mem]
  constructor
  · intro ⟨⟨hrow, hlisted⟩, hdata⟩
    refine ⟨Table.get_eq_some.mpr ⟨hrow, (hkey hdata).symm⟩, ?_, hdata⟩
    rw [hkey hdata]
    exact hlisted
  · intro ⟨hget, hlisted, hdata⟩
    refine ⟨⟨(Table.get_eq_some.mp hget).1, ?_⟩, hdata⟩
    rw [← hkey hdata]
    exact hlisted

/-- The row is a delivery of a settled payment, with what is stored for it. -/
structure IsDeliveryOf (identifiers : Table AccountIdentifier) (s : PaymentStore) (k : String)
    (row : WebhookDeliveryRow) : Prop where
  paymentHash : row.delivery.payload.paymentHash = k
  comment : row.delivery.payload.senderComment =
    (s.senderComments.get k).map LnurlSenderComment.comment
  invoice : ∃ invoice, s.invoiceOf k = some invoice ∧ row.IsOf k row.delivery.domain ∧
    invoice.domain = some row.delivery.domain ∧
    invoice.preimage = some row.delivery.payload.preimage ∧
    row.delivery.payload.invoice = invoice.invoice ∧
    row.delivery.payload.amountSat = invoice.amountReceivedSat ∧
    IsAddress identifiers invoice.accountId row.delivery.domain
      row.delivery.payload.lightningAddress

theorem isDeliveryOf_payload {invoice : Invoice} {id : Nat} {created timestamp : Int}
    (hinvoice : s.invoiceOf data.paymentHash = some invoice)
    (h : webhookPayload identifiers s invoice = some data) :
    IsDeliveryOf identifiers s data.paymentHash
      (newDelivery id created (paymentReceived timestamp data)) := by
  have hkey := paymentHash_of_get hinvoice
  unfold webhookPayload at h
  split at h
  · rename_i domain preimage hdomain hpreimage
    obtain rfl := Option.some.inj h
    refine ⟨rfl, rfl, invoice, hinvoice, ⟨rfl, rfl⟩, hdomain, hpreimage, rfl, rfl, ?_⟩
    exact lightningAddress_isAddress identifiers invoice.accountId domain
  · exact nomatch h

end Payloads

/-! ## What a notification does -/

/-- The stores after a notification: deliveries are inserted, nothing else. -/
structure Notified (hashes : List String) (h h' : History) : Prop where
  accounts : h'.state.accounts = h.state.accounts
  payments : ∃ created timestamp : Int, h'.state.payments =
    { h.state.payments with
      webhookDeliveries := insertAll created
        ((h.state.payments.getWebhookPayloads h.state.accounts.accountIdentifiers hashes).map
          (paymentReceived timestamp)) h.state.payments.webhookDeliveries }

section Notify

variable {ok : History → CallEvent → Prop} {i : Nat} {h h' : History} {hashes : List String}

theorem notifyWebhooks_alone :
    aloneContract.wp semantics ok i () (notifyWebhooks hashes)
      (fun h' r => r = .ok () → Notified hashes h h') h := by
  simp only [notifyWebhooks, Prog.bind_eq, Prog.pure_eq]
  refine alone_payment (fun _ _ _ _ => Contract.wp_fail.mpr fun hr => nomatch hr) ?_
  intro h₁ data hread
  obtain ⟨_, hrun⟩ := hread.run
  obtain ⟨hdata, hpayments⟩ := Prod.mk.inj hrun
  show aloneContract.wp semantics ok i () (if data = [] then _ else _) _ h₁
  by_cases hnil : data = []
  · rw [if_pos hnil]
    refine Contract.wp_ret.mpr fun _ => ⟨hread.accounts, 0, 0, ?_⟩
    rw [show h.state.payments.getWebhookPayloads h.state.accounts.accountIdentifiers hashes = data
      from hdata, hnil, ← hpayments]
    rfl
  · rw [if_neg hnil]
    refine alone_nowMillis fun h₂ hsame => ?_
    refine alone_payment (fun _ _ _ _ => Contract.wp_fail.mpr fun hr => nomatch hr) ?_
    intro h₃ _ hwrite
    obtain ⟨_, hrun'⟩ := hwrite.run
    obtain ⟨_, hwritten⟩ := Prod.mk.inj hrun'
    refine Contract.wp_ret.mpr fun _ => ⟨?_, h₃.state.clock.millis, h₂.state.clock.millis, ?_⟩
    · exact hwrite.accounts.trans (hsame.accounts.trans hread.accounts)
    · rw [← hwritten, hsame.payments, ← hpayments, ← hdata]
      rfl

theorem notified_of_runs (hruns : Runs semantics ok i (notifyWebhooks hashes) h (.ok ()) h') :
    Notified hashes h h' := by
  have hstable : ∀ {h₁ h₂ : History} {r : Except RepositoryError Unit}, SameStores h₁ h₂ → True →
      (r = .ok () → Notified hashes h h₁) → r = .ok () → Notified hashes h h₂ := by
    intro h₁ h₂ r hsame _ hpost hr
    obtain ⟨haccounts, created, timestamp, hpayments⟩ := hpost hr
    exact ⟨hsame.accounts.trans haccounts, created, timestamp, hsame.payments.trans hpayments⟩
  have hsound := Runs.sound aloneContract_keeps
    (Q := fun h' r => r = .ok () → Notified hashes h h') hstable trivial notifyWebhooks_alone hruns
  exact hsound.1 rfl

/-- A notification can succeed wherever it starts. -/
theorem exists_notified (i : Nat) (hashes : List String) (h : History) :
    ∃ h', Runs semantics always i (notifyWebhooks hashes) h (.ok ()) h' := by
  simp only [notifyWebhooks, Prog.bind_eq, Prog.pure_eq]
  -- after the query, nothing is left to do or a delivery is inserted for each payload
  have hrest : ∀ (data : List WebhookPayloadData) (h₁ : History), ∃ h',
      Runs semantics always i
        (if data = [] then (.ret () : Store Unit) else nowMillis.bind fun now =>
          Store.payment (.insertWebhookDeliveries (data.map (paymentReceived now))))
        h₁ (.ok ()) h' := by
    intro data h₁
    by_cases hnil : data = []
    · rw [if_pos hnil]
      exact ⟨h₁, .ret⟩
    · rw [if_neg hnil]
      have hnow : semantics.exec i (.env .nowMillis) () h₁.state =
          some ((h₁.state.clock.millis : Int), h₁.state) := rfl
      have hinsert : ∀ deliveries (w : World), semantics.exec i
          (.payment (.insertWebhookDeliveries deliveries)) ⟨false, .stored⟩ w = some (.ok (), _) :=
        fun _ _ => rfl
      exact ⟨_, .call hnow trivial (.call (hinsert _ _) trivial .ret)⟩
  have hread : semantics.exec i (.payment (.getWebhookPayloads hashes)) ⟨false, .stored⟩ h.state =
      some (.ok _, h.state) := rfl
  obtain ⟨h', hrest⟩ := hrest _ _
  exact ⟨h', .call hread trivial hrest⟩

/-- A payment of the list is settled on a domain. -/
def SettledOn (s : PaymentStore) (k domain : String) : Prop :=
  ∃ invoice, s.invoiceOf k = some invoice ∧ invoice.domain = some domain ∧
    ∃ preimage, invoice.preimage = some preimage

/-- It has a payload then. -/
theorem exists_payload {identifiers : Table AccountIdentifier} {s : PaymentStore}
    {k domain : String}
    (hk : k ∈ hashes) (hsettled : SettledOn s k domain) :
    ∃ data ∈ s.getWebhookPayloads identifiers hashes,
      data.paymentHash = k ∧ data.domain = domain := by
  obtain ⟨invoice, hinvoice, hdomain, preimage, hpreimage⟩ := hsettled
  have hkey := paymentHash_of_get hinvoice
  have hpayload : ∃ data, webhookPayload identifiers s invoice = some data ∧
      data.paymentHash = invoice.paymentHash ∧ data.domain = domain := by
    unfold webhookPayload
    rw [hdomain, hpreimage]
    exact ⟨_, rfl, rfl, rfl⟩
  obtain ⟨data, hdata, hhash, hon⟩ := hpayload
  have hhash := hhash.trans hkey
  refine ⟨data, mem_getWebhookPayloads.mpr ⟨invoice, ?_, ?_, hdata⟩, hhash, hon⟩
  · rw [hhash]
    exact hinvoice
  · rw [hhash]
    exact hk

/-- A notification of payments that all have their delivery does nothing. -/
theorem Notified.again {h₀ : History} (hfirst : Notified hashes h₀ h)
    (hnext : Notified hashes h h') :
    Notified hashes h₀ h' ∧
      h'.state.payments.webhookDeliveries = h.state.payments.webhookDeliveries := by
  obtain ⟨haccounts, created, timestamp, hpayments⟩ := hfirst
  obtain ⟨haccounts', created', timestamp', hpayments'⟩ := hnext
  have hsame : insertAll created'
      ((h.state.payments.getWebhookPayloads h.state.accounts.accountIdentifiers hashes).map
        (paymentReceived timestamp')) h.state.payments.webhookDeliveries =
      h.state.payments.webhookDeliveries := by
    refine insertAll_of_queued fun d hd => ?_
    obtain ⟨data, hdata, rfl⟩ := List.mem_map.mp hd
    have hdata : data ∈ h₀.state.payments.getWebhookPayloads
        h₀.state.accounts.accountIdentifiers hashes := by
      rw [haccounts, hpayments] at hdata
      exact hdata
    rw [hpayments]
    exact @exists_mem_insertAll _ _ _ (paymentReceived timestamp data) (List.mem_map_of_mem hdata)
  rw [hsame] at hpayments'
  have hpayments' : h'.state.payments = h.state.payments := hpayments'
  refine ⟨⟨haccounts'.trans haccounts, created, timestamp, hpayments'.trans hpayments⟩, ?_⟩
  rw [hpayments']

end Notify

/-! ## One delivery for each -/

section Runs

variable {state : State} {clock : Clock} {cfg : Server} {hashes : List String} {h' : History}
  {i : Nat}

/-- `notify_webhooks` has succeeded, nobody else moving. -/
def Notifies (hashes : List String) (h h' : History) : Prop :=
  ∃ i, Runs semantics always i (notifyWebhooks hashes) h (.ok ()) h'

/-- From any reachable state: after a notification there is exactly one delivery
for each of its settled payments and its domain; the old deliveries stay, each
new one is for a payment of the list that had none and carries what is stored
for it; and repeating the notification leaves the deliveries as they are. -/
theorem one_delivery_per_payment
    (hreach : Reachable semantics always (handler state) (World.fresh clock) cfg)
    (hnotifies : Notifies hashes cfg.hist h') :
    (∀ k ∈ hashes, ∀ domain, SettledOn cfg.hist.state.payments k domain →
      ∃! r, r ∈ h'.state.payments.webhookDeliveries ∧ r.IsOf k domain) ∧
    (∀ r ∈ cfg.hist.state.payments.webhookDeliveries, r ∈ h'.state.payments.webhookDeliveries) ∧
    (∀ r ∈ h'.state.payments.webhookDeliveries,
      r ∈ cfg.hist.state.payments.webhookDeliveries ∨
      ∃ k ∈ hashes,
        IsDeliveryOf cfg.hist.state.accounts.accountIdentifiers cfg.hist.state.payments k r ∧
        ∀ r' ∈ cfg.hist.state.payments.webhookDeliveries, ¬ r'.IsOf k r.delivery.domain) ∧
    ∀ h'', Relation.ReflTransGen (Notifies hashes) h' h'' →
      h''.state.payments.webhookDeliveries = h'.state.payments.webhookDeliveries := by
  obtain ⟨i, hruns⟩ := hnotifies
  have hnotified := notified_of_runs hruns
  obtain ⟨created, timestamp, hpayments⟩ := hnotified.payments
  have hrows : h'.state.payments.webhookDeliveries = insertAll created
      ((cfg.hist.state.payments.getWebhookPayloads cfg.hist.state.accounts.accountIdentifiers
        hashes).map (paymentReceived timestamp)) cfg.hist.state.payments.webhookDeliveries := by
    rw [hpayments]
  refine ⟨?_, ?_, ?_, ?_⟩
  · intro k hk domain hsettled
    obtain ⟨data, hdata, rfl, rfl⟩ := exists_payload hk hsettled
    rw [hrows]
    obtain ⟨r, hr, hfor⟩ := exists_mem_insertAll (List.mem_map_of_mem hdata)
    refine ⟨r, ⟨hr, hfor⟩, fun r' ⟨hr', hfor'⟩ => ?_⟩
    exact onePerPair_insertAll (reachable_onePerPair hreach) r' hr' r hr
      ⟨hfor'.1.trans hfor.1.symm, hfor'.2.trans hfor.2.symm⟩
  · intro r hr
    rw [hrows]
    exact mem_insertAll_of_mem hr
  · intro r hr
    rw [hrows] at hr
    rcases mem_insertAll hr with hold | ⟨d, hd, id, rfl, hnone⟩
    · exact Or.inl hold
    · obtain ⟨data, hdata, rfl⟩ := List.mem_map.mp hd
      obtain ⟨invoice, hinvoice, hk, hpayload⟩ := mem_getWebhookPayloads.mp hdata
      exact Or.inr ⟨data.paymentHash, hk, isDeliveryOf_payload hinvoice hpayload, hnone⟩
  · intro h'' hagain
    have hrepeat : Notified hashes cfg.hist h'' ∧
        h''.state.payments.webhookDeliveries = h'.state.payments.webhookDeliveries := by
      induction hagain with
      | refl => exact ⟨hnotified, rfl⟩
      | tail _ hnext ih =>
          obtain ⟨j, hnext⟩ := hnext
          obtain ⟨hnotified', hsame⟩ := ih.1.again (notified_of_runs hnext)
          exact ⟨hnotified', hsame.trans ih.2⟩
    exact hrepeat.2

end Runs

/-! ## An example -/

section Example

open Schedule

/-- The client has reported the payment; the notification is still to come. -/
def reportedUnnotified : Schedule := invoiced ++ serve clientReportsPaid ++ calls 2 7

instance (s : PaymentStore) (k domain : String) : Decidable (SettledOn s k domain) :=
  decidable_of_iff ((s.invoiceOf k).any fun invoice =>
      invoice.domain = some domain && invoice.preimage.isSome) <| by
    unfold SettledOn
    rw [Option.any_eq_true]
    refine exists_congr fun invoice => and_congr_right fun _ => ?_
    rw [Bool.and_eq_true, decide_eq_true_eq, Option.isSome_iff_exists]

theorem one_delivery_for_alice :
    ∃ (cfg : Server) (h' : History),
      Reachable semantics always (handler payeeServer) (World.fresh ⟨1000000, by decide⟩) cfg ∧
      Notifies ["aa", "unknown", "aa"] cfg.hist h' ∧
      cfg.hist.state.payments.webhookDeliveries = Table.empty ∧
      ∃! r, r ∈ h'.state.payments.webhookDeliveries ∧ r.IsOf "aa" "d.io" := by
  have hrun : (payeeRun always reportedUnnotified).any (fun cfg =>
      decide (SettledOn cfg.hist.state.payments "aa" "d.io") &&
        decide (cfg.hist.state.payments.webhookDeliveries = Table.empty)) = true := by
    decide +kernel
  obtain ⟨cfg, hreach, _, hcfg⟩ := reachable_of_replay hrun
  rw [Bool.and_eq_true, decide_eq_true_eq, decide_eq_true_eq] at hcfg
  obtain ⟨h', hruns⟩ := exists_notified 2 ["aa", "unknown", "aa"] cfg.hist
  have hnotifies : Notifies ["aa", "unknown", "aa"] cfg.hist h' := ⟨2, hruns⟩
  exact ⟨cfg, h', hreach, hnotifies, hcfg.2,
    (one_delivery_per_payment hreach hnotifies).1 "aa" List.mem_cons_self "d.io" hcfg.1⟩

end Example

end BlinkLnurl
