import BlinkLnurl.Repository.AccountOps
import BlinkLnurl.Repository.PaymentEffects
import BlinkLnurl.Server.Calls

/-!
# What one call does

The inversion lemmas the invariants are derived from. A call either leaves the
account tables alone or commits an account operation (`execAccount_cases`),
and a committed operation has the effect `AccountOp.Effect` says. The same for
the payment tables (`execPayment_cases`), where what is asked is what happens to
the invoice row of one payment hash (`InvoiceChange`).
-/

namespace BlinkLnurl

open Rel AccountStore

/-- The operation does not touch identifiers or claims, and at most creates the
Spark account of a pubkey. -/
structure Upkeep (s s' : AccountStore) (generatedId : String) : Prop where
  accounts : SameAccounts s s' ∨ ∃ pubkey, AddsSpark s s' generatedId pubkey
  identifiers : s'.accountIdentifiers = s.accountIdentifiers
  claims : s'.usedSignedMessages = s.usedSignedMessages

namespace AccountOp

/-- What a committed operation has done. -/
def Effect (s s' : AccountStore) (generatedId : String) : AccountOp → Prop
  | upsertSparkRegistration registration => ∃ row, Registers s s' registration row
  | deleteSparkRegistration domain pubkey identifier claim =>
      (∃ row, Releases s s' domain pubkey identifier row) ∧
        Claimed claim s.usedSignedMessages s'.usedSignedMessages
  | transferIdentifier transfer =>
      (∃ row, HandsOver s s' transfer.domain transfer.identifier transfer.sourceAccountId
        transfer.destinationSparkPubkey row) ∧ s.HasProvider transfer.sourceAccountId .spark ∧
        Claimed transfer.claim s.usedSignedMessages s'.usedSignedMessages
  | transferBlinkIdentifierToSpark transfer =>
      (∃ row, HandsOver s s' transfer.domain transfer.identifier transfer.sourceAccountId
        transfer.destinationSparkPubkey row) ∧ s.HasProvider transfer.sourceAccountId .blink ∧
        s'.usedSignedMessages = s.usedSignedMessages
  | createBlinkAccount _ =>
      (∃ id, OpensBlink s s' id) ∧ s'.usedSignedMessages = s.usedSignedMessages
  | deleteExpiredSignedMessages now => s' = (s.deleteExpiredSignedMessages now).2
  | _ => Upkeep s s' generatedId

/-- The routes register by pubkey and never name an account. -/
def ByPubkey : AccountOp → Prop
  | upsertSparkRegistration registration => registration.accountId = none
  | _ => True

end AccountOp

section Run

variable {s s' : AccountStore} {ctx : Ctx}

theorem Upkeep.refl (s : AccountStore) (generatedId : String) : Upkeep s s generatedId :=
  ⟨Or.inl (SameAccounts.refl s), rfl, rfl⟩

theorem map_unit_ok {ε : Type} {x : Except ε AccountStore} {u : Unit}
    (h : (x.map fun s => ((), s)) = .ok (u, s')) : x = .ok s' := by
  cases x with
  | error e => cases h
  | ok a =>
      cases h
      rfl

theorem AccountOp.run_effect (inv : RepInv s) (hfresh : ∀ p, ¬ s.HasProvider ctx.generatedId p) :
    ∀ {op : AccountOp} {a : op.Result}, op.ByPubkey → op.run ctx s = .ok (a, s') →
      op.Effect s s' ctx.generatedId := by
  intro op a hby h
  cases op with
  | getSparkAccountMode pubkey =>
      cases h
      exact Upkeep.refl s _
  | getAccountBySparkPubkey pubkey =>
      cases h
      exact Upkeep.refl s _
  | resolveRecipientByIdentifier domain identifier =>
      simp only [run] at h
      cases hr : s.resolveRecipientByIdentifier domain identifier with
      | error e =>
          rw [hr] at h
          cases h
      | ok r =>
          rw [hr] at h
          cases h
          exact Upkeep.refl s _
  | upsertSparkRegistration registration =>
      exact upsertSparkRegistration_ok inv hby hfresh (map_unit_ok h)
  | deleteSparkRegistration domain pubkey identifier claim =>
      exact deleteSparkRegistration_ok (map_unit_ok h)
  | transferIdentifier transfer => exact transferIdentifier_ok inv (map_unit_ok h)
  | transferBlinkIdentifierToSpark transfer =>
      exact transferBlinkIdentifierToSpark_ok inv (map_unit_ok h)
  | createBlinkAccount account => exact createBlinkAccount_ok (map_unit_ok h)
  | updateBlinkDefaultWallet blinkAccountId wallet =>
      obtain ⟨same, hids, hused⟩ := updateBlinkDefaultWallet_ok h
      exact ⟨Or.inl same, hids, hused⟩
  | setSparkModeEnhancedIfUnset pubkey =>
      cases h
      exact ⟨Or.inl setSparkModeEnhancedIfUnset_same, rfl, rfl⟩
  | refreshSparkCountryEvidence pubkey country =>
      cases h
      exact ⟨Or.inl refreshSparkCountryEvidence_same, rfl, rfl⟩
  | deleteExpiredSignedMessages now =>
      cases h
      rfl
  | sparkAccountIdByPubkey pubkey =>
      cases h
      exact Upkeep.refl s _
  | insertSparkAccount pubkey =>
      obtain ⟨hadds, hids, hused⟩ := insertSparkAccount_ok (map_unit_ok h)
      refine ⟨?_, hids, hused⟩
      rcases hadds with rfl | hadds
      · exact Or.inl (SameAccounts.refl _)
      · exact Or.inr ⟨pubkey, hadds⟩
  | updateSparkMode update =>
      cases h
      exact ⟨Or.inl updateSparkMode_same, rfl, rfl⟩

end Run

/-! ## Consequences of an effect -/

namespace AccountOp

variable {s s' : AccountStore} {id : String} {op : AccountOp}

theorem sameAccounts_of_prune (now : Int) :
    SameAccounts s (s.deleteExpiredSignedMessages now).2 :=
  SameAccounts.of_tables rfl rfl rfl

theorem Effect.inv (inv : RepInv s) (h : op.Effect s s' id) : RepInv s' := by
  have upkeep : Upkeep s s' id → RepInv s' := by
    intro h
    have hsub : ∀ x ∈ s'.accountIdentifiers, x ∈ s.accountIdentifiers := by
      intro x hx
      rw [h.identifiers] at hx
      exact hx
    rcases h.accounts with same | ⟨pubkey, adds⟩
    · exact inv.same same hsub
    · exact inv.addsSpark adds hsub
  cases op with
  | upsertSparkRegistration registration =>
      obtain ⟨row, reg⟩ := h
      exact inv.assigns reg.ensures reg.assigns
  | deleteSparkRegistration domain pubkey identifier claim =>
      obtain ⟨⟨row, rel⟩, _⟩ := h
      exact inv.same rel.same fun x hx => ((rel.identifiers x).mp hx).1
  | transferIdentifier transfer =>
      obtain ⟨⟨row, handsOver⟩, _⟩ := h
      exact inv.assigns handsOver.ensures handsOver.assigns
  | transferBlinkIdentifierToSpark transfer =>
      obtain ⟨⟨row, handsOver⟩, _⟩ := h
      exact inv.assigns handsOver.ensures handsOver.assigns
  | createBlinkAccount account =>
      obtain ⟨⟨id, opens⟩, _⟩ := h
      exact inv.opensBlink opens
  | deleteExpiredSignedMessages now =>
      have hs' : s' = (s.deleteExpiredSignedMessages now).2 := h
      subst hs'
      exact inv.same (sameAccounts_of_prune now) fun x hx => hx
  | getSparkAccountMode => exact upkeep h
  | getAccountBySparkPubkey => exact upkeep h
  | resolveRecipientByIdentifier => exact upkeep h
  | updateBlinkDefaultWallet => exact upkeep h
  | setSparkModeEnhancedIfUnset => exact upkeep h
  | refreshSparkCountryEvidence => exact upkeep h
  | sparkAccountIdByPubkey => exact upkeep h
  | insertSparkAccount => exact upkeep h
  | updateSparkMode => exact upkeep h

theorem hasSpark_of_ensures {accountId pubkey : String}
    (h : EnsuresSpark s s' accountId pubkey) {id pk : String} (hs : s.HasSpark id pk) :
    s'.HasSpark id pk := by
  cases h with
  | stored _ _ same => exact (same.spark _ _).mpr hs
  | added adds => exact (adds.spark _ _).mpr (Or.inl hs)

/-- The account of a pubkey stays its account. -/
theorem Effect.hasSpark (h : op.Effect s s' id) {accountId pubkey : String}
    (hs : s.HasSpark accountId pubkey) : s'.HasSpark accountId pubkey := by
  have upkeep : Upkeep s s' id → s'.HasSpark accountId pubkey := by
    intro h
    rcases h.accounts with same | ⟨_, adds⟩
    · exact (same.spark _ _).mpr hs
    · exact (adds.spark _ _).mpr (Or.inl hs)
  cases op with
  | upsertSparkRegistration registration =>
      obtain ⟨row, reg⟩ := h
      exact hasSpark_of_ensures reg.ensures hs
  | deleteSparkRegistration domain pubkey identifier claim =>
      obtain ⟨⟨row, rel⟩, _⟩ := h
      exact (rel.same.spark _ _).mpr hs
  | transferIdentifier transfer =>
      obtain ⟨⟨row, handsOver⟩, _⟩ := h
      exact hasSpark_of_ensures handsOver.ensures hs
  | transferBlinkIdentifierToSpark transfer =>
      obtain ⟨⟨row, handsOver⟩, _⟩ := h
      exact hasSpark_of_ensures handsOver.ensures hs
  | createBlinkAccount account =>
      obtain ⟨⟨id, opens⟩, _⟩ := h
      exact (opens.spark _ _).mpr hs
  | deleteExpiredSignedMessages now =>
      have hs' : s' = (s.deleteExpiredSignedMessages now).2 := h
      subst hs'
      exact ((sameAccounts_of_prune now).spark _ _).mpr hs
  | getSparkAccountMode => exact upkeep h
  | getAccountBySparkPubkey => exact upkeep h
  | resolveRecipientByIdentifier => exact upkeep h
  | updateBlinkDefaultWallet => exact upkeep h
  | setSparkModeEnhancedIfUnset => exact upkeep h
  | refreshSparkCountryEvidence => exact upkeep h
  | sparkAccountIdByPubkey => exact upkeep h
  | insertSparkAccount => exact upkeep h
  | updateSparkMode => exact upkeep h

end AccountOp

/-! ## Calls -/

section Exec

variable {w w' : World}

theorem hasProvider_of_get {s : AccountStore} {id : String} (h : s.accounts.get id = none)
    (p : AccountProvider) : ¬ s.HasProvider id p := by
  intro ⟨a, ha, hid, _⟩
  exact Table.get_eq_none.mp h a ha hid

/-- An account call fails and changes nothing, or commits its operation. -/
theorem execAccount_cases {op : AccountOp} {ch : StoreChoice}
    {r : Except RepositoryError op.Result} (h : execAccount op ch w = some (r, w')) :
    (w' = w ∧ ∃ e, r = .error e) ∨
      ∃ a s', r = .ok a ∧ op.run (w.ctx ch.generatedId) w.accounts = .ok (a, s') ∧
        w' = { w with accounts := s' } ∧ ∀ p, ¬ w.accounts.HasProvider ch.generatedId p := by
  unfold execAccount at h
  split at h
  · cases h
  · rename_i hfresh
    split at h
    · cases h
      exact Or.inl ⟨rfl, _, rfl⟩
    · cases hrun : op.run (w.ctx ch.generatedId) w.accounts with
      | error e =>
          rw [hrun] at h
          cases h
          exact Or.inl ⟨rfl, _, rfl⟩
      | ok out =>
          rw [hrun] at h
          cases h
          refine Or.inr ⟨_, _, rfl, rfl, rfl, hasProvider_of_get ?_⟩
          simpa using hfresh

/-- A payment call fails and changes nothing, or runs its operation. -/
theorem execPayment_cases {op : PaymentOp} {ch : PaymentChoice}
    {r : Except RepositoryError op.Result} (h : execPayment op ch w = (r, w')) :
    (w' = w ∧ ∃ e, r = .error e) ∨
      ∃ out, op.run w.clock.millis w.accounts.accountIdentifiers ch.order w.payments = out ∧
        r = .ok out.1 ∧ w' = { w with payments := out.2 } := by
  unfold execPayment at h
  split at h
  · cases h
    exact Or.inl ⟨rfl, _, rfl⟩
  · cases h
    exact Or.inr ⟨_, rfl, rfl, rfl⟩

theorem exec_payment {op : PaymentOp} {ch : PaymentChoice} {r : Reply (.payment op)}
    (h : exec (.payment op) ch w = some (r, w')) : execPayment op ch w = (r, w') :=
  Option.some.inj h

theorem exec_env {op : EnvOp} {ch : op.Choice} {r : Reply (.env op)}
    (h : exec (.env op) ch w = some (r, w')) : w' = w ∧ op.answer w ch = some r := by
  obtain ⟨a, ha, hout⟩ := Option.map_eq_some_iff.mp h
  cases hout
  exact ⟨rfl, ha⟩

/-- Only account operations write account tables. -/
theorem exec_accounts {c : Call} {ch : Choice c} {r : Reply c} (h : exec c ch w = some (r, w')) :
    w'.accounts = w.accounts ∨ ∃ op, c = .account op := by
  cases c with
  | account op => exact Or.inr ⟨op, rfl⟩
  | payment op =>
      rcases execPayment_cases (exec_payment h) with ⟨rfl, _⟩ | ⟨_, _, _, rfl⟩
      · exact Or.inl rfl
      · exact Or.inl rfl
  | env op => exact Or.inl (by rw [(exec_env h).1])

/-- Only payment operations write payment tables. -/
theorem exec_payments {c : Call} {ch : Choice c} {r : Reply c} (h : exec c ch w = some (r, w')) :
    w'.payments = w.payments ∨ ∃ op, c = .payment op := by
  cases c with
  | payment op => exact Or.inr ⟨op, rfl⟩
  | account op =>
      rcases execAccount_cases h with ⟨rfl, _⟩ | ⟨_, _, _, _, rfl, _⟩
      · exact Or.inl rfl
      · exact Or.inl rfl
  | env op => exact Or.inl (by rw [(exec_env h).1])

/-- No call moves the clock. -/
theorem exec_clock {c : Call} {ch : Choice c} {r : Reply c} (h : exec c ch w = some (r, w')) :
    w'.clock = w.clock := by
  cases c with
  | payment op =>
      rcases execPayment_cases (exec_payment h) with ⟨rfl, _⟩ | ⟨_, _, _, rfl⟩
      · rfl
      · rfl
  | account op =>
      rcases execAccount_cases h with ⟨rfl, _⟩ | ⟨_, _, _, _, rfl, _⟩
      · rfl
      · rfl
  | env op => rw [(exec_env h).1]

/-- A tick only moves the clock, and only forward. -/
theorem tick_cases {millis : Nat} (h : semantics.tick millis w = some w') :
    w'.accounts = w.accounts ∧ w'.payments = w.payments ∧ w.clock.secs ≤ w'.clock.secs := by
  obtain ⟨clock, hclock, rfl⟩ := Option.map_eq_some_iff.mp h
  exact ⟨rfl, rfl, Clock.secs_advance hclock⟩

/-- The routes' account calls keep the representation invariant. -/
theorem exec_repInv {c : Call} {ch : Choice c} {r : Reply c} (inv : RepInv w.accounts)
    (hby : ∀ op, c = .account op → op.ByPubkey) (h : exec c ch w = some (r, w')) :
    RepInv w'.accounts := by
  rcases exec_accounts h with hsame | ⟨op, rfl⟩
  · rw [hsame]
    exact inv
  · rcases execAccount_cases h with ⟨rfl, _⟩ | ⟨a, s', _, hrun, rfl, hfresh⟩
    · exact inv
    · exact (AccountOp.run_effect inv hfresh (hby op rfl) hrun).inv inv

/-- The account of a pubkey stays its account. -/
theorem exec_hasSpark {c : Call} {ch : Choice c} {r : Reply c} (inv : RepInv w.accounts)
    (hby : ∀ op, c = .account op → op.ByPubkey) (h : exec c ch w = some (r, w'))
    {accountId pubkey : String} (hs : w.accounts.HasSpark accountId pubkey) :
    w'.accounts.HasSpark accountId pubkey := by
  rcases exec_accounts h with hsame | ⟨op, rfl⟩
  · rw [hsame]
    exact hs
  · rcases execAccount_cases h with ⟨rfl, _⟩ | ⟨a, s', _, hrun, rfl, hfresh⟩
    · exact hs
    · exact (AccountOp.run_effect inv hfresh (hby op rfl) hrun).hasSpark hs

end Exec

/-! ## Statement claims -/

namespace AccountOp

/-- The claim an operation inserts. -/
def claim : AccountOp → Option StatementClaim
  | upsertSparkRegistration registration => registration.claim
  | deleteSparkRegistration _ _ _ claim => claim
  | transferIdentifier transfer => transfer.claim
  | _ => none

end AccountOp

/-- The claim a call has committed. -/
def committedClaim : CallEvent → Option StatementClaim
  | ⟨_, .account op, .ok _⟩ => op.claim
  | _ => none

/-- The time a prune of the claims was for. -/
def prunedAt : CallEvent → Option Int
  | ⟨_, .account (.deleteExpiredSignedMessages now), .ok _⟩ => some now
  | _ => none

/-- What a call inserts into the record of used statements or deletes from
it. -/
inductive ClaimEffect (used used' : Table UsedSignedMessage) (ev : CallEvent) : Prop
  | claims (claim : StatementClaim) : committedClaim ev = some claim →
      Claimed (some claim) used used' → ClaimEffect used used' ev
  | prunes (now : Int) : prunedAt ev = some now → committedClaim ev = none →
      (∀ r, r ∈ used' ↔ r ∈ used ∧ ¬ r.expiresAt < now) → ClaimEffect used used' ev
  | keeps : prunedAt ev = none → committedClaim ev = none → used' = used → ClaimEffect used used' ev

theorem claimEffect_of_claimed {s s' : AccountStore} {ev : CallEvent}
    {claim : Option StatementClaim}
    (hprune : prunedAt ev = none) (hclaim : committedClaim ev = claim)
    (h : Claimed claim s.usedSignedMessages s'.usedSignedMessages) :
    ClaimEffect s.usedSignedMessages s'.usedSignedMessages ev := by
  cases claim with
  | none => exact .keeps hprune hclaim h
  | some claim => exact .claims claim hclaim h

theorem exec_claims {w w' : World} {i : Nat} {c : Call} {ch : Choice c} {r : Reply c}
    (inv : RepInv w.accounts) (hby : ∀ op, c = .account op → op.ByPubkey)
    (h : exec c ch w = some (r, w')) :
    ClaimEffect w.accounts.usedSignedMessages w'.accounts.usedSignedMessages ⟨i, c, r⟩ := by
  cases c with
  | payment op =>
      refine .keeps rfl rfl ?_
      rcases exec_accounts h with hsame | ⟨_, hop⟩
      · rw [hsame]
      · cases hop
  | env op =>
      refine .keeps rfl rfl ?_
      rcases exec_accounts h with hsame | ⟨_, hop⟩
      · rw [hsame]
      · cases hop
  | account op =>
      rcases execAccount_cases h with ⟨rfl, e, rfl⟩ | ⟨a, s', rfl, hrun, rfl, hfresh⟩
      · refine .keeps ?_ rfl rfl
        cases op <;> rfl
      · have effect := AccountOp.run_effect inv hfresh (hby op rfl) hrun
        have upkeep : op.claim = none → prunedAt ⟨i, .account op, .ok a⟩ = none →
            Upkeep w.accounts s' ch.generatedId →
            ClaimEffect w.accounts.usedSignedMessages s'.usedSignedMessages
              ⟨i, .account op, .ok a⟩ :=
          fun hclaim hprune h => .keeps hprune hclaim h.claims
        cases op with
        | upsertSparkRegistration registration =>
            obtain ⟨row, reg⟩ := effect
            exact claimEffect_of_claimed rfl rfl reg.claimed
        | deleteSparkRegistration domain pubkey identifier claim =>
            exact claimEffect_of_claimed rfl rfl effect.2
        | transferIdentifier transfer => exact claimEffect_of_claimed rfl rfl effect.2.2
        | transferBlinkIdentifierToSpark transfer => exact .keeps rfl rfl effect.2.2
        | createBlinkAccount account => exact .keeps rfl rfl effect.2
        | deleteExpiredSignedMessages now =>
            refine .prunes now rfl rfl fun row => ?_
            have hs' : s' = (w.accounts.deleteExpiredSignedMessages now).2 := effect
            subst hs'
            simp [deleteExpiredSignedMessages, expired]
        | getSparkAccountMode => exact upkeep rfl rfl effect
        | getAccountBySparkPubkey => exact upkeep rfl rfl effect
        | resolveRecipientByIdentifier => exact upkeep rfl rfl effect
        | updateBlinkDefaultWallet => exact upkeep rfl rfl effect
        | setSparkModeEnhancedIfUnset => exact upkeep rfl rfl effect
        | refreshSparkCountryEvidence => exact upkeep rfl rfl effect
        | sparkAccountIdByPubkey => exact upkeep rfl rfl effect
        | insertSparkAccount => exact upkeep rfl rfl effect
        | updateSparkMode => exact upkeep rfl rfl effect

/-! ## Invoice rows -/

open PaymentStore

/-- What a call does to the invoice row of the payment hash `k`. -/
inductive InvoiceChange (k : String) (old : Option Invoice) :
    (c : Call) → Reply c → Option Invoice → Prop
  | keeps {c r} : InvoiceChange k old c r old
  | upserts {invoice} : invoice.paymentHash = k →
      InvoiceChange k old (.payment (.upsertInvoice invoice)) (.ok ())
        (some (old.elim invoice (overwriteInvoice invoice)))
  | settles {invoices affected new} : PaidChange k invoices old new → k ∈ affected ∨ new = old →
      InvoiceChange k old (.payment (.upsertInvoicesPaid invoices)) (.ok affected) new
  | expires {expiredAt row} : old = some row → row.preimage = none →
      InvoiceChange k old (.payment (.markInvoiceExpired k expiredAt)) (.ok ())
        (some (expireInvoice expiredAt row))

theorem exec_invoice {w w' : World} {c : Call} {ch : Choice c} {r : Reply c}
    (h : exec c ch w = some (r, w')) (k : String) :
    InvoiceChange k (w.payments.invoiceOf k) c r (w'.payments.invoiceOf k) := by
  have keeps : w'.payments.invoices = w.payments.invoices →
      InvoiceChange k (w.payments.invoiceOf k) c r (w'.payments.invoiceOf k) := by
    intro hsame
    have hrow : w'.payments.invoiceOf k = w.payments.invoiceOf k := by
      rw [invoiceOf, invoiceOf, hsame]
    rw [hrow]
    exact .keeps
  rcases exec_payments h with hsame | ⟨op, rfl⟩
  · exact keeps (by rw [hsame])
  · rcases execPayment_cases (exec_payment h) with ⟨rfl, _⟩ | ⟨out, hout, rfl, rfl⟩
    · exact keeps rfl
    · subst hout
      cases op with
      | upsertInvoice invoice =>
          by_cases hk : k = invoice.paymentHash
          · have hrow := @invoiceOf_upsertInvoice w.payments k invoice
            rw [if_pos hk] at hrow
            show InvoiceChange k _ _ _ ((w.payments.upsertInvoice invoice).invoiceOf k)
            rw [hrow]
            exact .upserts hk.symm
          · have hrow := @invoiceOf_upsertInvoice w.payments k invoice
            rw [if_neg hk] at hrow
            show InvoiceChange k _ _ _ ((w.payments.upsertInvoice invoice).invoiceOf k)
            rw [hrow]
            exact .keeps
      | upsertInvoicesPaid invoices =>
          exact .settles invoiceOf_upsertInvoicesPaid affected_or_same
      | markInvoiceExpired hash expiredAt =>
          show InvoiceChange k _ _ _ ((w.payments.markInvoiceExpired hash expiredAt).invoiceOf k)
          rcases @invoiceOf_markInvoiceExpired w.payments k hash expiredAt with
            hsame | ⟨old, hold, rfl, hnone, hnew⟩
          · rw [hsame]
            exact .keeps
          · rw [hnew]
            exact .expires hold hnone
      | insertPendingZapReceiptBatch pending => exact keeps insertPendingZapReceiptBatch_invoices
      | _ => exact keeps rfl

/-- Rows stay. -/
theorem InvoiceChange.isSome {k : String} {old new : Option Invoice} {c : Call} {r : Reply c}
    (h : InvoiceChange k old c r new) (hold : old.isSome) : new.isSome := by
  cases h with
  | keeps => exact hold
  | upserts => rfl
  | settles hpaid =>
      refine hpaid.preserves (fun row => row.isSome) ?_ ?_ hold
      · exact fun _ _ _ _ => rfl
      · exact fun _ _ _ _ _ _ => rfl
  | expires => rfl

/-- The answer to a reading of an invoice row. -/
theorem read_invoice {k : String} {ch : PaymentChoice} {stored : Option Invoice} {w w' : World}
    (hexec : exec (.payment (.getInvoiceByPaymentHash k)) ch w = some (.ok stored, w')) :
    w' = w ∧ w.payments.invoiceOf k = stored := by
  rcases execPayment_cases (exec_payment hexec) with ⟨_, _, h⟩ | ⟨out, hout, hr, hw⟩
  · cases h
  · subst hout
    exact ⟨hw, (Except.ok.inj hr).symm⟩

end BlinkLnurl
