import BlinkLnurl.Server.Deployment
import BlinkLnurl.Server.Effects
import BlinkLnurl.Server.Footprints

/-!
# What the routes hold when they write invoices

One proof outline of all handlers for the invoice table. A row is *sound* when
its preimage hashes to its payment hash, when it is not settled and expired at
once, and when Blink has said of an expired one that it is. A route that is
about to write an invoice row is within `MayPay`: what it writes is sound, and
where it settles an invoice it has read, the row is still there, since no
statement deletes invoice rows.

The provider of an expired row is a matter of what happens between reading a
row and writing it. The contract is therefore stated twice, for threads that
run `alone` and for threads that do not; the handlers are the same, and so is
their proof.
-/

namespace BlinkLnurl

open Conc Rel PaymentStore

/-! ## Sound rows -/

/-- Blink was asked about this payment hash and answered that it has expired. -/
def AnsweredExpired (log : List CallEvent) (paymentHash : String) : Prop :=
  ∃ (i : Nat) (status : BlinkPaymentStatus),
    ⟨i, .env (.blinkPaymentStatus paymentHash), some status⟩ ∈ log ∧
      status.paymentHash = paymentHash ∧ status.expired = true

structure SoundRow (crates : Crates) (log : List CallEvent) (row : Invoice) : Prop where
  preimage : ∀ p, row.preimage = some p → preimageHash crates p = .ok row.paymentHash
  settled : row.preimage ≠ none → row.expiredAt = none
  expired : row.expiredAt ≠ none → AnsweredExpired log row.paymentHash

/-- All rows are sound. -/
def SoundInvoices (crates : Crates) (h : History) : Prop :=
  ∀ k row, h.state.payments.invoiceOf k = some row → SoundRow crates h.log row

/-- Only Blink rows expire. -/
def OnlyBlinkExpires (s : PaymentStore) : Prop :=
  ∀ k row, s.invoiceOf k = some row → row.expiredAt ≠ none → row.provider = some .blink

/-- A settled row as a batch or a settlement asks for it. -/
def PaysItself (crates : Crates) (invoice : Invoice) : Prop :=
  ∃ p, invoice.preimage = some p ∧ preimageHash crates p = .ok invoice.paymentHash

/-- No row of another provider is stored under the payment hash. -/
def NoForeignRow (s : PaymentStore) (paymentHash : String) (provider : Option AccountProvider) :
    Prop :=
  ∀ row p, s.invoiceOf paymentHash = some row → row.provider = some p → provider = some p

/-! ## The contract -/

/-- What holds when a request writes invoice rows. -/
def MayPay (crates : Crates) (alone : Prop) (h : History) : PaymentOp → Prop
  | .upsertInvoice invoice =>
      (invoice.preimage = none ∧ invoice.expiredAt = none ∧
        (alone → NoForeignRow h.state.payments invoice.paymentHash invoice.provider)) ∨
      PaysItself crates invoice ∧ (h.state.payments.invoiceOf invoice.paymentHash).isSome
  | .upsertInvoicesPaid invoices =>
      ∀ invoice ∈ invoices, PaysItself crates invoice ∧ invoice.expiredAt = none
  | .markInvoiceExpired paymentHash _ =>
      AnsweredExpired h.log paymentHash ∧
        (alone → ∀ row, h.state.payments.invoiceOf paymentHash = some row →
          row.provider = some .blink)
  | _ => True

/-- Rows stay, the log grows, and the calls of a thread are its own; a thread
that is alone sees no row change. -/
structure Unpaid (alone : Prop) (i : Nat) (h h' : History) : Prop where
  stored : ∀ k, (h.state.payments.invoiceOf k).isSome → (h'.state.payments.invoiceOf k).isSome
  log : h.log <+: h'.log
  callsOf : h'.callsOf i = h.callsOf i
  same : alone → h'.state.payments.invoices = h.state.payments.invoices

def paymentContract (crates : Crates) (alone : Prop) : Contract Request Call Reply World where
  inv h := SoundInvoices crates h ∧ (alone → OnlyBlinkExpires h.state.payments)
  rely i h h' := Unpaid alone i h h'
  guard _ _ h c := ∀ op, c = .payment op → MayPay crates alone h op

theorem AnsweredExpired.mono {log log' : List CallEvent} {k : String} (hlog : log <+: log')
    (h : AnsweredExpired log k) : AnsweredExpired log' k := by
  obtain ⟨i, status, hmem, hhash, hexpired⟩ := h
  exact ⟨i, status, hlog.subset hmem, hhash, hexpired⟩

theorem SoundRow.mono {crates : Crates} {log log' : List CallEvent} {row : Invoice}
    (hlog : log <+: log') (h : SoundRow crates log row) : SoundRow crates log' row where
  preimage := h.preimage
  settled := h.settled
  expired := fun hexpired => (h.expired hexpired).mono hlog

/-- A row that pays itself and has not expired is sound. -/
theorem PaysItself.sound {crates : Crates} {log : List CallEvent} {row : Invoice}
    (h : PaysItself crates row) (hexpired : row.expiredAt = none) : SoundRow crates log row where
  preimage := fun p hp => by
    obtain ⟨q, hq, hhash⟩ := h
    cases hq.symm.trans hp
    exact hhash
  settled := fun _ => hexpired
  expired := fun hne => absurd hexpired hne

section Law

variable {crates : Crates} {alone : Prop} {log : List CallEvent} {invoice old row : Invoice}

/-- Writing a preimage over a row clears its expiry. -/
theorem expiredAtAfter_of_paid (h : PaysItself crates invoice) :
    expiredAtAfter invoice old = none := by
  obtain ⟨p, hp, _⟩ := h
  rw [expiredAtAfter, if_pos (by rw [hp]; rfl)]

theorem PaysItself.overwrite (h : PaysItself crates invoice)
    (hhash : old.paymentHash = invoice.paymentHash) :
    SoundRow crates log (overwriteInvoice invoice old) := by
  refine PaysItself.sound ?_ (expiredAtAfter_of_paid h)
  obtain ⟨p, hp, hp'⟩ := h
  exact ⟨p, hp, by rw [hp', ← hhash]; rfl⟩

theorem PaysItself.settle (h : PaysItself crates invoice)
    (hhash : old.paymentHash = invoice.paymentHash) :
    SoundRow crates log (settleInvoice invoice old) := by
  refine PaysItself.sound ?_ (expiredAtAfter_of_paid h)
  obtain ⟨p, hp, hp'⟩ := h
  exact ⟨p, hp, by rw [hp', ← hhash]; rfl⟩

/-- A new invoice over an old row: unpaid, and expired if the old one was. -/
theorem SoundRow.renew (h : SoundRow crates log old) (hnone : invoice.preimage = none)
    (hexpired : invoice.expiredAt = none) : SoundRow crates log (overwriteInvoice invoice old) where
  preimage := fun p hp => by
    rw [show (overwriteInvoice invoice old).preimage = invoice.preimage from rfl, hnone] at hp
    cases hp
  settled := fun hne => absurd hnone hne
  expired := fun hne => h.expired fun hold => hne (by
    show expiredAtAfter invoice old = none
    rw [expiredAtAfter, hnone, hexpired, hold]
    rfl)

/-- The row a call within its guard leaves is sound. -/
theorem soundRow_of_change {h : History} {i : Nat} {q : Request} {c : Call} {r : Reply c}
    {k : String}
    {new : Option Invoice} (inv : (paymentContract crates alone).inv h)
    (hguard : (paymentContract crates alone).guard i q h c)
    (hchange : InvoiceChange k (h.state.payments.invoiceOf k) c r new) (hnew : new = some row) :
    SoundRow crates h.log row := by
  have stored : ∀ {row}, h.state.payments.invoiceOf k = some row →
      SoundRow crates h.log row ∧ row.paymentHash = k :=
    fun hrow => ⟨inv.1 k _ hrow, paymentHash_of_get hrow⟩
  cases hchange with
  | keeps => exact (stored hnew).1
  | @upserts invoice hk =>
      cases hold : h.state.payments.invoiceOf k with
      | none =>
          rw [hold] at hnew
          cases hnew
          rcases hguard _ rfl with ⟨hnone, hexpired, _⟩ | ⟨_, hstored⟩
          · exact ⟨fun p hp => absurd (hnone.symm.trans hp) (fun h => nomatch h),
              fun hne => absurd hnone hne, fun hne => absurd hexpired hne⟩
          · rw [hk, hold] at hstored
            exact Bool.noConfusion hstored
      | some old =>
          rw [hold] at hnew
          cases hnew
          rcases hguard _ rfl with ⟨hnone, hexpired, _⟩ | ⟨hpaid, _⟩
          · exact (stored hold).1.renew hnone hexpired
          · exact hpaid.overwrite ((stored hold).2.trans hk.symm)
  | @settles invoices affected new hpaid _ =>
      have hpays := hguard _ rfl
      -- each entry of the batch leaves a sound row
      refine (hpaid.preserves (fun x => ∀ row, x = some row →
        SoundRow crates h.log row ∧ row.paymentHash = k) ?_ ?_ fun row => stored) row hnew |>.1
      · intro entry hentry hk _ row hrow
        cases hrow
        obtain ⟨hpays, hexpired⟩ := hpays entry hentry
        exact ⟨(show PaysItself crates (insertedInvoice entry) from hpays).sound hexpired, hk⟩
      · intro entry hentry hk old hold _ row hrow
        cases hrow
        exact ⟨(hpays entry hentry).1.settle ((hold old rfl).2.trans hk.symm), (hold old rfl).2⟩
  | @expires expiredAt old hold hnone =>
      cases hnew
      obtain ⟨hanswer, _⟩ := hguard _ rfl
      refine ⟨fun p hp => absurd (hnone.symm.trans hp) (fun h => nomatch h),
        fun hne => absurd hnone hne, fun _ => ?_⟩
      rw [show (expireInvoice expiredAt old).paymentHash = k from (stored hold).2]
      exact hanswer

/-- The row a call within its guard leaves has only expired if it is Blink's. -/
theorem onlyBlink_of_change {h : History} {i : Nat} {q : Request} {c : Call} {r : Reply c}
    {k : String} {new : Option Invoice} (halone : alone)
    (inv : (paymentContract crates alone).inv h)
    (hguard : (paymentContract crates alone).guard i q h c)
    (hchange : InvoiceChange k (h.state.payments.invoiceOf k) c r new) (hnew : new = some row)
    (hexpired : row.expiredAt ≠ none) : row.provider = some .blink := by
  have onlyBlink := inv.2 halone k
  cases hchange with
  | keeps => exact onlyBlink row hnew hexpired
  | @upserts invoice hk =>
      cases hold : h.state.payments.invoiceOf k with
      | none =>
          rw [hold] at hnew
          cases hnew
          rcases hguard _ rfl with ⟨_, hnone, _⟩ | ⟨_, hstored⟩
          · exact absurd hnone hexpired
          · rw [hk, hold] at hstored
            exact Bool.noConfusion hstored
      | some old =>
          rw [hold] at hnew
          cases hnew
          rcases hguard _ rfl with ⟨hnone, hno, hforeign⟩ | ⟨hpaid, _⟩
          · -- the expiry is the old row's, and so is the provider
            have hold' : old.expiredAt ≠ none := by
              intro h
              refine hexpired ?_
              show expiredAtAfter invoice old = none
              rw [expiredAtAfter, hnone, hno, h]
              rfl
            have hprovider := hforeign halone old .blink (by rw [hk]; exact hold)
              (onlyBlink old hold hold')
            show invoice.provider.or old.provider = some .blink
            rw [hprovider]
            rfl
          · exact absurd (expiredAtAfter_of_paid hpaid) hexpired
  | @settles invoices affected new hpaid _ =>
      have hpays := hguard _ rfl
      refine hpaid.preserves (fun x => ∀ row, x = some row → row.expiredAt ≠ none →
        row.provider = some .blink) ?_ ?_ onlyBlink row hnew hexpired
      · intro entry hentry _ _ row hrow hne
        cases hrow
        exact absurd (hpays entry hentry).2 hne
      · intro entry hentry _ old _ _ row hrow hne
        cases hrow
        exact absurd (expiredAtAfter_of_paid (hpays entry hentry).1) hne
  | @expires expiredAt old hold hnone =>
      cases hnew
      exact (hguard _ rfl).2 halone old hold

variable {ok : History → CallEvent → Prop}

theorem paymentContract_keeps : (paymentContract crates alone).Keeps semantics ok where
  refl := fun _ _ => ⟨fun _ hk => hk, List.prefix_rfl, rfl, fun _ => rfl⟩
  trans := fun h₁ h₂ =>
    ⟨fun k hk => h₂.stored k (h₁.stored k hk), h₁.log.trans h₂.log, h₂.callsOf.trans h₁.callsOf,
      fun ha => (h₂.same ha).trans (h₁.same ha)⟩
  call := fun {i q h c ch r s'} inv hguard hexec _ => by
    refine ⟨fun k row hrow => ?_, fun halone k row hrow => ?_⟩
    · refine SoundRow.mono (List.prefix_append _ _) ?_
      exact soundRow_of_change inv hguard (exec_invoice hexec k) hrow
    · exact onlyBlink_of_change halone inv hguard (exec_invoice hexec k) hrow
  tick := fun {h t s'} inv htick => by
    obtain ⟨_, hpayments, _⟩ := tick_cases htick
    refine ⟨fun k row hrow => inv.1 k row ?_, fun halone => ?_⟩
    · rw [← hpayments]
      exact hrow
    · show OnlyBlinkExpires s'.payments
      rw [hpayments]
      exact inv.2 halone
  ticks := fun {j h t s'} _ htick => by
    obtain ⟨_, hpayments, _⟩ := tick_cases htick
    refine ⟨fun k hk => ?_, List.prefix_rfl, rfl, fun _ => ?_⟩
    · show (s'.payments.invoiceOf k).isSome
      rw [hpayments]
      exact hk
    · show s'.payments.invoices = _
      rw [hpayments]

/-- Threads that are not alone can live with each other's calls. -/
theorem paymentContract_lawful : (paymentContract crates False).Lawful semantics ok where
  toKeeps := paymentContract_keeps
  others := fun _ _ hexec _ hne =>
    ⟨fun k hk => (exec_invoice hexec k).isSome hk, List.prefix_append _ _, Hist.callsOf_push_ne hne,
      fun ha => ha.elim⟩

end Law

end BlinkLnurl
